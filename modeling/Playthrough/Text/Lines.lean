/-!
# Lines of a text

A line feed ends a line, together with a carriage return right before it. Text behind the last line
feed is a line of its own, as it stands.
-/

namespace Playthrough.Text

/-- A line without the carriage return that belongs to its line feed. -/
def dropReturn (line : List Char) : List Char :=
  if line.getLast? = some '\r' then line.dropLast else line

/-- The lines of a text. -/
def lines (text : String) : List String :=
  let pieces := text.toList.splitOnP (· = '\n')
  let last := (pieces.getLast?).getD []
  let ended := (pieces.dropLast.map dropReturn).map String.ofList
  if last.isEmpty then ended else ended ++ [String.ofList last]

/-- The lines of a text with their numbers, from one. -/
def numbered (lines : List String) : List (String × Nat) := lines.zipIdx 1

end Playthrough.Text
