import Playthrough.Cost
import Playthrough.Reading.Markup
import Playthrough.Script.Statement

/-!
# Reading content lines

Of the content of a script four kinds of lines take time: spoken lines, pauses, changes of the
scene, and pictures that are shown or hidden. All other lines are free.

* `dialogue?`: a spoken line, with an optional name in front.
* `pause?`: a pause with its duration.
* `readLine`: the line reader.
-/

namespace Playthrough.Reading

open Text Decimal Script

/-- Names by which speakers are shown. -/
abbrev Aliases := List (String × String)

/-- Whether only blanks and a comment are left of a line. -/
def isTail (rest : List Char) : Bool :=
  match trimStart rest with
  | [] => true
  | c :: cs => c = '#' && !cs.contains '\n'

/-- Whether a character can be part of the name of a speaker. -/
def isNameChar (c : Char) : Bool := c.isAlphanum || c = '_'

/-- Reads up to the closing quote, and returns the text before it and what follows it. A backslash
    takes the next character, which must be on the same line. -/
def quotedText? : List Char → Option (List Char × List Char)
  | [] => none
  | '"' :: rest => some ([], rest)
  | '\\' :: rest =>
    match rest with
    | [] => none
    | c :: cs => if c = '\n' then none else (quotedText? cs).map fun r => ('\\' :: c :: r.1, r.2)
  | c :: rest => (quotedText? rest).map fun r => (c :: r.1, r.2)

/-- The name in front of a spoken line, if there is one, and the text behind the opening quote. -/
def opening? (line : List Char) : Option (Option (List Char) × List Char) :=
  let name := line.takeWhile isNameChar
  let rest := line.dropWhile isNameChar
  if name.isEmpty then
    match line with
    | '"' :: text => some (none, text)
    | _ => none
  else if (leading rest).isEmpty then none
  else
    match trimStart rest with
    | '"' :: text => some (some name, text)
    | _ => none

/-- The name and the quoted text of a spoken line. Stands for the pattern `DIALOGUE`. -/
def spokenLine? (line : List Char) : Option (Option (List Char) × List Char) := do
  let (name, text) ← opening? line
  let (inner, rest) ← quotedText? text
  if isTail rest then some (name, inner) else none

/-- The speaker with a name, under the name by which it is shown. Stands for `speaker` of the
    classifier. -/
def speakerOf (aliases : Aliases) : Option (List Char) → Speaker
  | none => .narrator
  | some name =>
    let name := String.ofList name
    .named ((aliases.lookup name).getD name)

/-- The duration of a pause. Stands for the pattern `PAUSE`. -/
def pause? (line : List Char) : Option Duration := do
  let rest ← afterKeyword? "pause" line
  if (leading rest).isEmpty then none
  else
    let (duration, rest) ← Duration.readPrefix? (trimStart rest)
    if isTail rest then some duration else none

/-- Whether a line is a statement with the given keyword: the keyword and a blank. Stands for the
    patterns `SCENE` and `SHOW`. -/
def hasKeyword (keyword : String) (line : List Char) : Bool :=
  match afterKeyword? keyword line with
  | some (c :: _) => isBlank c
  | _ => false

variable {κ : Type} [Zero κ] [Add κ] [OfScientific κ]

/-- A spoken line as a record. Stands for `dialogue` of the classifier. -/
def dialogueOf (aliases : Aliases) (name : Option (List Char)) (inner : List Char) : Dialogue κ :=
  let parts := pieces inner
  { speaker := speakerOf aliases name
    text := String.ofList (spoken parts)
    extraSeconds := waits parts }

/-- Reads a content line. Pauses only count if `pauses` says so. Stands for `classify`. -/
def readLine (aliases : Aliases) (pauses : Bool) : LineReader κ := fun line =>
  let cs := line.toList
  match spokenLine? cs with
  | some (name, inner) => some (.dialogue (dialogueOf aliases name inner))
  | none =>
    match pause? cs with
    | some duration => if pauses then duration.value?.map .pause else none
    | none =>
      if hasKeyword "scene" cs then some .scene
      else if hasKeyword "show" cs || hasKeyword "hide" cs then some .image
      else none

end Playthrough.Reading
