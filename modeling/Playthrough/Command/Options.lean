import Playthrough.Command.Mode
import Playthrough.Decimal.Literal
import Playthrough.Reading.Settings
import Playthrough.Report.Basic

/-!
# The command line

The words of a command line are files, switches and options with a value. Switches and options have
long names, such as `--speed`, and some have a letter, such as `-s`. Letters of switches can share
one dash, and the last letter may belong to an option. A value stands behind its option, as a word
of its own that does not start with a dash, or in the same word; behind a long name it is set off by
an equals sign. After `--` all words are files.

* `readWords`: reads the words one after the other.
* `Options.parse`: reads a command line and checks it as a whole.
-/

namespace Playthrough.Command

open Reading

/-- A switch. -/
inductive Switch where
  | json
  | minimum
  | maximum
  | byCharacters
  | pause
  | labels
  | texts
  | timing
  | verbose
  deriving DecidableEq, Repr

/-- An option with a value. -/
inductive Valued where
  | format
  | characters
  | speed
  | cjkSpeed
  | scene
  | image
  | next
  | config
  deriving DecidableEq, Repr

/-- What a name on the command line stands for. -/
inductive Name where
  | switch (switch : Switch)
  | valued (valued : Valued)
  | help
  | version
  deriving DecidableEq, Repr

/-- The long names. -/
def longNames : List (String × Name) :=
  [("json", .switch .json), ("format", .valued .format),
   ("min", .switch .minimum), ("minimum", .switch .minimum),
   ("max", .switch .maximum), ("maximum", .switch .maximum),
   ("character", .valued .characters), ("by-characters", .switch .byCharacters),
   ("speed", .valued .speed), ("cjk-speed", .valued .cjkSpeed),
   ("scene", .valued .scene), ("show", .valued .image), ("next", .valued .next),
   ("pause", .switch .pause), ("labels", .switch .labels), ("texts", .switch .texts),
   ("config", .valued .config), ("timing", .switch .timing), ("verbose", .switch .verbose),
   ("help", .help), ("version", .version)]

/-- The letters. -/
def letters : List (Char × Name) :=
  [('j', .switch .json), ('m', .switch .minimum), ('M', .switch .maximum),
   ('c', .valued .characters), ('C', .switch .byCharacters),
   ('s', .valued .speed), ('S', .valued .cjkSpeed),
   ('p', .switch .pause), ('l', .switch .labels), ('t', .switch .texts),
   ('v', .switch .verbose), ('h', .help), ('V', .version)]

/-- Why a command line is refused. -/
inductive UsageFault where
  | unknownName (name : String)
  | repeated
  | missingValue
  | unwantedValue (value : String)
  | badValue (value : String)
  | noFiles
  | bothBounds
  deriving DecidableEq, Repr

/-- A refusal in words. -/
def UsageFault.message : UsageFault → String
  | unknownName name => s!"unexpected argument '{name}' found"
  | repeated => "an argument cannot be used multiple times"
  | missingValue => "a value is required but none was supplied"
  | unwantedValue value => s!"unexpected value '{value}'"
  | badValue value => s!"invalid value '{value}'"
  | noFiles => "no files were given"
  | bothBounds => "'--min' cannot be used with '--max'"

/-- Why no script is read. -/
inductive Halt where
  | help
  | version
  | refused (fault : UsageFault)
  deriving DecidableEq, Repr

/-- What a command line asks for. -/
structure Options where
  /-- The scripts, in the order in which they are reported. -/
  files : List String := []
  switches : List Switch := []
  format : Option Mode := none
  characters : Option Aliases := none
  speed : Option Float := none
  cjkSpeed : Option Float := none
  scene : Option Float := none
  image : Option Float := none
  next : Option Float := none
  /-- The document with the settings of the project. -/
  config : Option String := none

namespace Options

/-- Whether a switch is on. -/
def has (options : Options) (switch : Switch) : Bool := options.switches.contains switch

/-- What to report. -/
def request (options : Options) : Request where
  detail :=
    { labels := options.has .labels
      texts := options.has .texts
      byCharacters := options.has .byCharacters }
  minimum := !options.has .maximum
  maximum := !options.has .minimum

/-- The settings that the command line gives. Stands for `overlay`. -/
def layer (options : Options) : Layer Float where
  speed := options.speed
  cjkSpeed := options.cjkSpeed
  scene := options.scene
  image := options.image
  next := options.next
  pause := if options.has .pause then some true else none
  characters := options.characters.getD []

/-! ## Words -/

/-- Adds a file. -/
def addFile (file : String) (options : Options) : Except Halt Options :=
  if file.isEmpty then .error (.refused (.badValue file))
  else .ok { options with files := options.files ++ [file] }

/-- Turns a switch on, which can be done once. -/
def turnOn (switch : Switch) (options : Options) : Except Halt Options :=
  if options.has switch then .error (.refused .repeated)
  else .ok { options with switches := options.switches ++ [switch] }

/-- A value that is given once and can be read. -/
def give {α : Type} (current : Option α) (text : String) (value : Option α) :
    Except Halt (Option α) :=
  if current.isSome then .error (.refused .repeated)
  else
    match value with
    | some value => .ok (some value)
    | none => .error (.refused (.badValue text))

/-- Gives an option its value. -/
def set (valued : Valued) (text : String) (options : Options) : Except Halt Options :=
  let number := Decimal.readFloat? text
  match valued with
  | .format => return { options with format := ← give options.format text (Mode.ofWord? text) }
  | .characters =>
    return { options with characters := ← give options.characters text (readAliases text).toOption }
  | .speed => return { options with speed := ← give options.speed text number }
  | .cjkSpeed => return { options with cjkSpeed := ← give options.cjkSpeed text number }
  | .scene => return { options with scene := ← give options.scene text number }
  | .image => return { options with image := ← give options.image text number }
  | .next => return { options with next := ← give options.next text number }
  | .config =>
    let path := if text.isEmpty then none else some text
    return { options with config := ← give options.config text path }

/-- Reads the letters behind a dash. Returns the option that still wants a value, if the last letter
    is one. -/
def readLetters : List Char → Options → Except Halt (Options × Option Valued)
  | [], options => .ok (options, none)
  | letter :: rest, options =>
    match letters.lookup letter with
    | none => .error (.refused (.unknownName (String.ofList ['-', letter])))
    | some .help => .error .help
    | some .version => .error .version
    | some (.switch switch) => do readLetters rest (← options.turnOn switch)
    | some (.valued valued) =>
      match rest with
      | [] => .ok (options, some valued)
      | '=' :: value => return (← options.set valued (String.ofList value), none)
      | value => return (← options.set valued (String.ofList value), none)

/-- Reads the long name behind two dashes. Returns the option that still wants a value, if it is
    one. -/
def readLong (text : List Char) (options : Options) : Except Halt (Options × Option Valued) :=
  let name := String.ofList (text.takeWhile (· ≠ '='))
  let value? :=
    match text.dropWhile (· ≠ '=') with
    | [] => none
    | _ :: value => some (String.ofList value)
  match longNames.lookup name, value? with
  | none, _ => .error (.refused (.unknownName ("--" ++ name)))
  | some (.valued valued), none => .ok (options, some valued)
  | some (.valued valued), some value => return (← options.set valued value, none)
  | some _, some value => .error (.refused (.unwantedValue value))
  | some .help, none => .error .help
  | some .version, none => .error .version
  | some (.switch switch), none => return (← options.turnOn switch, none)

/-- Whether a word can be the value of an option in front of it. -/
def isValue (word : String) : Bool := word = "-" || word.toList.head? ≠ some '-'

/-- Reads the words of a command line. -/
def readWords : List String → Options → Except Halt Options
  | [], options => .ok options
  | word :: words, options =>
    let known : Except Halt (Options × Option Valued) → Except Halt Options := fun read => do
      match ← read, words with
      | (options, none), words => readWords words options
      | (_, some _), [] => .error (.refused .missingValue)
      | (options, some valued), value :: words =>
        if isValue value then readWords words (← options.set valued value)
        else .error (.refused .missingValue)
    match word.toList with
    | ['-', '-'] => words.foldlM (fun options file => options.addFile file) options
    | '-' :: '-' :: name => known (readLong name options)
    | '-' :: letter :: rest => known (readLetters (letter :: rest) options)
    | _ => do readWords words (← options.addFile word)

/-- Checks a command line as a whole. -/
def check (options : Options) : Except Halt Options :=
  if options.has .minimum && options.has .maximum then .error (.refused .bothBounds)
  else if options.files.isEmpty then .error (.refused .noFiles)
  else .ok options

/-- Reads a command line. -/
def parse (words : List String) : Except Halt Options := do
  (← readWords words {}).check

end Options

end Playthrough.Command
