import Playthrough.Fault
import Playthrough.Script.Comment
import Playthrough.Text.Blank
import Playthrough.Text.Word

/-!
# Statements

What a line means for the shape of the story, its indentation being taken off: it opens a block,
jumps, returns, or is content for the line reader.

A line opens a block when its code ends with a colon. The keyword is the run of small letters at the
start, provided that the word ends there; what stands between it and the colon is the argument. Of
the other lines, `jump` and `return` are recognised by their first word.
-/

namespace Playthrough.Script

open Text

/-- A line that opens a block. -/
inductive Header where
  /-- A declared place in the script, by the name as it is written. -/
  | label (name : String)
  /-- A menu, whose choices are the blocks in its body. -/
  | menu
  /-- The first condition of a chain. -/
  | condition
  /-- A further branch of a chain. -/
  | branch (kind : Branch)
  /-- Any other block, such as a choice of a menu. -/
  | plain
  deriving DecidableEq, Repr

/-- The word that tells the kind of a header. -/
def Header.keyword : Header → String
  | .label _ => "label"
  | .menu => "menu"
  | .condition => "if"
  | .branch kind => kind.keyword
  | .plain => "block"

/-- The meaning of a line. -/
inductive Statement where
  | header (kind : Header)
  /-- A jump; a target that starts with a dot is relative. -/
  | jump (target : String)
  /-- A return; after a dead one the story has not ended well. -/
  | terminate (dead : Bool)
  /-- A line for the line reader, as it stands. -/
  | content (line : String)
  deriving DecidableEq, Repr

/-! ## Parts of a line -/

/-- Whether a word ends in front of the given text. -/
def endsWord : List Char → Bool
  | [] => true
  | c :: _ => !isWordChar c

/-- The text behind a keyword at the start, if the text starts with it. -/
def afterKeyword? (keyword : String) (code : List Char) : Option (List Char) :=
  keyword.toList.isPrefixOf? code

/-- Whether `part` occurs in a text. -/
def occurs (part : List Char) : List Char → Bool
  | [] => part.isEmpty
  | c :: cs => part.isPrefixOf (c :: cs) || occurs part cs

/-- The text in front of the colon that ends a header. Stands for the pattern `HEADER`. -/
def headerText? (code : List Char) : Option (List Char) :=
  match (trimEnd code).reverse with
  | ':' :: text => some text.reverse
  | _ => none

/-- The name that a label header declares: its argument without parameters. Stands for `label_name`
    of a header. -/
def labelName (argument : List Char) : List Char :=
  trim ((trim argument).takeWhile (· ≠ '('))

/-- The kind of a header, given the text in front of its colon. A keyword needs the whole word, and
    an argument on the same line. -/
def headerOf (text : List Char) : Header :=
  let word := text.takeWhile Char.isLower
  let rest := text.dropWhile Char.isLower
  let argument := trimStart rest
  if endsWord rest && !argument.contains '\n' then
    match String.ofList word with
    | "label" => .label (String.ofList (labelName argument))
    | "menu" => .menu
    | "if" => .condition
    | "elif" => .branch .elif
    | "else" => .branch .otherwise
    | _ => .plain
  else .plain

/-- The target of a jump: one word behind the keyword and a gap. Stands for the pattern `JUMP`. -/
def jumpTarget? (code : List Char) : Option (List Char) := do
  let rest ← afterKeyword? "jump" code
  let word := trimStart rest
  let target := word.takeWhile (!isBlank ·)
  if (leading rest).isEmpty || target.isEmpty then none
  else if (word.dropWhile (!isBlank ·)).all isBlank then some target
  else none

/-- Whether the code is a return. Stands for the pattern `RETURN`. -/
def isReturn (code : List Char) : Bool :=
  ((afterKeyword? "return" code).map endsWord).getD false

/-- The meaning of a line whose indentation has been taken off. Stands for `statement`. -/
def statement (line : String) : Statement :=
  let split := splitComment line.toList
  match headerText? split.code with
  | some text => .header (headerOf text)
  | none =>
    match jumpTarget? split.code with
    | some target => .jump (String.ofList target)
    | none =>
      if isReturn split.code then .terminate ((split.comment.map (occurs "dead".toList)).getD false)
      else .content line

/-- Whether a line has no code: it is empty, or a comment. -/
def isBlankLine (line : List Char) : Bool := (splitComment line).code.all isBlank

end Playthrough.Script
