import Playthrough.Report.Basic

/-!
# Reports for people

The text form of a report. In colour each part is painted with codes of the terminal; the layout is
the same with and without.

* `Paint`: whether and how parts are coloured.
* `FileReport.text`: a report as text.
-/

namespace Playthrough

/-- The colours of the terminal. -/
inductive Colour where
  | darkBlue
  | darkMagenta
  | darkGrey
  | green
  | magenta
  | cyan
  deriving DecidableEq, Repr

/-- The number of a colour. -/
def Colour.code : Colour → Nat
  | darkBlue => 4
  | darkMagenta => 5
  | darkGrey => 8
  | green => 10
  | magenta => 13
  | cyan => 14

/-- How parts are coloured. -/
inductive Paint where
  /-- No codes at all. -/
  | none
  /-- The codes of the terminal without their colours, for users who want none. -/
  | colourless
  | colourful
  deriving DecidableEq, Repr

namespace Paint

/-- A code of the terminal. -/
def escape (code : String) : String := "\x1b[" ++ code ++ "m"

/-- A text between two codes. -/
def wrap (paint : Paint) (opening closing text : String) : String :=
  match paint with
  | .none => text
  | .colourless => escape "" ++ text ++ escape ""
  | .colourful => escape opening ++ text ++ escape closing

/-- A text in a colour. -/
def foreground (paint : Paint) (colour : Colour) (text : String) : String :=
  paint.wrap s!"38;5;{colour.code}" "39" text

/-- A text on a colour. -/
def background (paint : Paint) (colour : Colour) (text : String) : String :=
  paint.wrap s!"48;5;{colour.code}" "49" text

end Paint

/-- The lines of a text, each with its line end. -/
def joinLines (lines : List String) : String := String.join (lines.map (· ++ "\n"))

/-- The colour of a speaker. -/
def Speaker.colour : Speaker → Colour
  | .narrator => .cyan
  | .named _ => .green

/-- A label in its colours. -/
def paintLabel (paint : Paint) (label : Label) : String :=
  match label with
  | .named name => paint.background .darkMagenta name
  | label => paint.foreground .darkGrey label.display

/-- A line that is read, behind its speaker. -/
def SpokenLine.painted (paint : Paint) (line : SpokenLine) : String :=
  paint.foreground line.speaker.colour line.speaker.display ++ " \"" ++ line.text ++ "\""

/-- The lines about a block. Stands for `write_block`. -/
def BlockEntry.lines (paint : Paint) (indent : String) (entry : BlockEntry) : List String :=
  let heading := entry.label.toList.map fun label => indent ++ paintLabel paint label
  let deeper := if entry.label.isSome then indent ++ "    " else indent
  heading ++ (entry.texts.getD []).map fun line => deeper ++ line.painted paint

/-- The lines about a step. -/
def PathEntry.lines (paint : Paint) : PathEntry → List String
  | .block entry => entry.lines paint "    "
  | .loop members =>
    ("    " ++ paint.background .darkBlue "Loop:") :: members.flatMap (·.lines paint "        ")

/-- The line about a share. -/
def Share.line (paint : Paint) (share : Share Float) : String :=
  let colour := if share.category.isBuiltin then Colour.cyan else .green
  "  " ++ paint.foreground colour share.category.display ++ " " ++ Decimal.fixed 2 share.time

/-- The lines about a route; `which` says which one. Stands for `write_bound`. -/
def BoundReport.lines (paint : Paint) (which : String) (report : BoundReport Float) : List String :=
  let time :=
    match report.time with
    | some time => Decimal.fixed 2 time ++ " min"
    | none => "no reachable ending"
  let headline := paint.foreground .magenta (which ++ " time to play: " ++ time)
  let shares := (report.shares.getD []).map (·.line paint)
  let path :=
    match report.path with
    | some path => "Path:" :: path.flatMap (·.lines paint)
    | none => []
  headline :: shares ++ path

/-- A rule across the page. -/
def rule : String := String.ofList (List.replicate 72 '-')

/-- The line about a reading speed. -/
def speedLine (paint : Paint) (script : String) (speed : Float) : String :=
  paint.foreground .darkGrey
    (s!"Assuming {script} reading speed of " ++ Decimal.Style.plain.format speed
      ++ " characters per minute.")

/-- A report as text. A coloured report has a heading with a rule. Stands for `write_human`. -/
def FileReport.text (paint : Paint) (report : FileReport Float) : String :=
  let heading :=
    match paint with
    | .none => ["file: " ++ report.file]
    | _ => [report.file, rule]
  let bound (which : String) (bound : Option (BoundReport Float)) :=
    (bound.map (·.lines paint which)).getD []
  joinLines (heading
    ++ [speedLine paint "non-CJK" report.settings.speed,
        speedLine paint "CJK" report.settings.cjkSpeed]
    ++ bound "Minimum" report.minimum ++ bound "Maximum" report.maximum)

end Playthrough
