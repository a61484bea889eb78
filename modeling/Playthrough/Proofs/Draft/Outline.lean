import Playthrough.Cost
import Playthrough.Proofs.Draft.Indent
import Playthrough.Script.Statement

/-!
# Outlines

The scripts that an author writes with care: sections at the top level, each under its own name, and
in their bodies content, menus and chains of conditions, nested as deep as one likes. A body ends
with at most one jump or return, which is its last line.

An outline is such a script as a tree. It has two readings: its lines, and what it tells. The
latter does not mention blocks or labels.

* `Outline.lines`: the script, line by line.
* `Outline.Body.Plays`: what playing a body once can give, and how play goes on behind it.
* `Outline.Tells`: what a playthrough of the whole script can give.
-/

namespace Playthrough

open Text Script

variable {κ : Type}

namespace Outline

/-! ## Lines -/

/-- The blanks by which a body goes beyond its header. -/
structure Indent where
  blanks : List Char
  ne_nil : blanks ≠ []
  isBlank : Blanks blanks

/-- The text of a line that is read as the given statement, without the blanks in front. -/
structure Line (stated : Statement) where
  text : String
  flush : Flush text.toList
  reads : statement text = stated

/-- A text that can be checked to be such a line. -/
def Line.read {stated : Statement} (text : String)
    (h : leading text.toList = [] ∧ isBlankLine text.toList = false ∧ statement text = stated) :
    Line stated :=
  ⟨text, ⟨h.1, h.2.1⟩, h.2.2⟩

/-- A line with its margin. -/
def Line.under {stated : Statement} (margin : List Char) (line : Line stated) : String :=
  String.ofList (margin ++ line.text.toList)

/-! ## Trees -/

/-- How play goes on behind a body. -/
inductive Outcome where
  /-- The body is played to its end. -/
  | falls
  /-- The story ends. -/
  | ends
  /-- The game is lost, which is no ending. -/
  | lost
  /-- Play continues in the section with the given name. -/
  | jumps (target : String)
  deriving DecidableEq, Repr

/-- The last line of a body that does not play to its end. -/
inductive Exit where
  | finish (dead : Bool) (line : Line (.terminate dead))
  | jump (target : String) (absolute : target.toList.head? ≠ some '.') (line : Line (.jump target))

mutual

/-- The lines under a header. -/
inductive Body where
  | last (item : Item)
  | leave (exit : Exit)
  | cons (item : Item) (rest : Body)

/-- A part of a body that has one beginning and one end. -/
inductive Item where
  | content (said : String) (line : Line (.content said))
  | menu (line : Line (.header .menu)) (indent : Indent) (choices : Choices)
  | chain (line : Line (.header .condition)) (indent : Indent) (body : Body) (branches : Branches)

/-- The choices of a menu. -/
inductive Choices where
  | last (line : Line (.header .plain)) (indent : Indent) (body : Body)
  | cons (line : Line (.header .plain)) (indent : Indent) (body : Body) (rest : Choices)

/-- The further branches of a chain. -/
inductive Branches where
  | none
  | otherwise (line : Line (.header (.branch .otherwise))) (indent : Indent) (body : Body)
  | elif (line : Line (.header (.branch .elif))) (indent : Indent) (body : Body) (rest : Branches)

end

/-- The target of the jump that ends a body itself, not one of the bodies in it. -/
def Body.target? : Body → Option String
  | .last _ => none
  | .leave (.finish ..) => none
  | .leave (.jump target ..) => some target
  | .cons _ rest => rest.target?

/-- A named part of the script. -/
structure Section where
  name : String
  absolute : name.toList.head? ≠ some '.'
  line : Line (.header (.label name))
  indent : Indent
  body : Body
  noLoop : body.target? ≠ some name

end Outline

/-- A script of sections with distinct names. -/
structure Outline where
  sections : List Outline.Section
  distinct : (sections.map Outline.Section.name).Nodup

namespace Outline

/-! ## The script -/

def Exit.lines (margin : List Char) : Exit → List String
  | .finish _ line => [line.under margin]
  | .jump _ _ line => [line.under margin]

mutual

def Body.lines (margin : List Char) : Body → List String
  | .last item => item.lines margin
  | .leave exit => exit.lines margin
  | .cons item rest => item.lines margin ++ rest.lines margin

def Item.lines (margin : List Char) : Item → List String
  | .content _ line => [line.under margin]
  | .menu line indent choices => line.under margin :: choices.lines (margin ++ indent.blanks)
  | .chain line indent body branches =>
    line.under margin :: (body.lines (margin ++ indent.blanks) ++ branches.lines margin)

def Choices.lines (margin : List Char) : Choices → List String
  | .last line indent body => line.under margin :: body.lines (margin ++ indent.blanks)
  | .cons line indent body rest =>
    line.under margin :: (body.lines (margin ++ indent.blanks) ++ rest.lines margin)

def Branches.lines (margin : List Char) : Branches → List String
  | .none => []
  | .otherwise line indent body => line.under margin :: body.lines (margin ++ indent.blanks)
  | .elif line indent body rest =>
    line.under margin :: (body.lines (margin ++ indent.blanks) ++ rest.lines margin)

end

def Section.lines (part : Section) : List String :=
  part.line.under [] :: part.body.lines part.indent.blanks

/-- The lines of the script. -/
def lines (outline : Outline) : List String := outline.sections.flatMap Section.lines

/-! ## The story -/

/-- What playing a part of a script can give: records, and how play goes on. -/
abbrev Meaning (κ : Type) := List (Record κ) → Outcome → Prop

namespace Meaning

/-- Nothing is played. -/
def skip : Meaning κ := fun records outcome => records = [] ∧ outcome = .falls

/-- One of two parts is played. -/
def either (first second : Meaning κ) : Meaning κ := fun records outcome =>
  first records outcome ∨ second records outcome

/-- One part is played, and behind it the other if play gets there. -/
def andThen (first second : Meaning κ) : Meaning κ := fun records outcome =>
  (∃ front back, first front .falls ∧ second back outcome ∧ records = front ++ back) ∨
    (first records outcome ∧ outcome ≠ .falls)

end Meaning

def Exit.outcome : Exit → Outcome
  | .finish dead _ => if dead then .lost else .ends
  | .jump target _ _ => .jumps target

mutual

/-- What playing a body can give. -/
def Body.Plays (reader : LineReader κ) : Body → Meaning κ
  | .last item => item.Plays reader
  | .leave exit => fun records outcome => records = [] ∧ outcome = exit.outcome
  | .cons item rest => (item.Plays reader).andThen (rest.Plays reader)

/-- A line gives its record if the reader has one for it. Of a menu exactly one choice is played, and
    of a chain at most one branch. -/
def Item.Plays (reader : LineReader κ) : Item → Meaning κ
  | .content said _ => fun records outcome => records = (reader said).toList ∧ outcome = .falls
  | .menu _ _ choices => choices.Plays reader
  | .chain _ _ body branches => (body.Plays reader).either (branches.Plays reader)

def Choices.Plays (reader : LineReader κ) : Choices → Meaning κ
  | .last _ _ body => body.Plays reader
  | .cons _ _ body rest => (body.Plays reader).either (rest.Plays reader)

/-- A chain can be skipped unless a branch covers the case that no condition holds. -/
def Branches.Plays (reader : LineReader κ) : Branches → Meaning κ
  | .none => .skip
  | .otherwise _ _ body => body.Plays reader
  | .elif _ _ body rest => (body.Plays reader).either (rest.Plays reader)

end

/-- What play can give from the first of some sections on, the last ones of `sections`. -/
inductive TellsFrom (reader : LineReader κ) (sections : List Section) :
    List Section → List (Record κ) → Prop
  /-- The story ends behind the last section. -/
  | done : TellsFrom reader sections [] []
  | falls {part : Section} {rest : List Section} {front back : List (Record κ)} :
      part.body.Plays reader front .falls → TellsFrom reader sections rest back →
      TellsFrom reader sections (part :: rest) (front ++ back)
  | ends {part : Section} {rest : List Section} {records : List (Record κ)} :
      part.body.Plays reader records .ends → TellsFrom reader sections (part :: rest) records
  | jumps {part target : Section} {rest earlier later : List Section}
      {front back : List (Record κ)} :
      part.body.Plays reader front (.jumps target.name) →
      sections = earlier ++ target :: later → TellsFrom reader sections (target :: later) back →
      TellsFrom reader sections (part :: rest) (front ++ back)

/-- What a playthrough of the script can give. -/
def Tells (reader : LineReader κ) (outline : Outline) (records : List (Record κ)) : Prop :=
  TellsFrom reader outline.sections outline.sections records

end Outline

end Playthrough
