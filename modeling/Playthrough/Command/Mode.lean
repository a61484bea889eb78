/-!
# Forms of output

A report is printed in colour, as plain text or as JSON. A format that is asked for by name wins
over the switch for JSON, which wins over the environment; without any of them a terminal gets
colours.
-/

namespace Playthrough.Command

/-- A form of output. -/
inductive Mode where
  | pretty
  | text
  | json
  deriving DecidableEq, Repr

namespace Mode

/-- The name of a form. -/
def word : Mode → String
  | pretty => "pretty"
  | text => "text"
  | json => "json"

/-- The form with a name. -/
def ofWord? (word : String) : Option Mode :=
  [pretty, text, json].find? (·.word = word)

/-- The form with a name in letters of either case. -/
def ofAnyCase? (word : String) : Option Mode :=
  ofWord? (String.ofList (word.toList.map Char.toLower))

/-- The form of the output. Names that the environment gives and that mean nothing are ignored.
    Stands for `resolve_output_mode`. -/
def choose (format : Option Mode) (jsonSwitch : Bool) (environment : Option String)
    (terminal : Bool) : Mode :=
  match format with
  | some mode => mode
  | none =>
    if jsonSwitch then json
    else (environment.bind ofAnyCase?).getD (if terminal then pretty else text)

theorem ofWord?_word (mode : Mode) : ofWord? mode.word = some mode := by
  cases mode <;> decide

end Mode

end Playthrough.Command
