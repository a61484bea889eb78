import Playthrough.Problem
import Playthrough.Reading.Document
import Playthrough.Timing

/-!
# The surroundings of a run

What a run sees of the machine: files, the environment, the kind of its output, and how long its
phases take. The work itself is a function of these.

* `World.readText`: the text of a file.
* `World.loadSettings`: the settings below the command line, from the document of the user and from
  that of the project.
-/

namespace Playthrough.Command

open Reading

/-- Why a file cannot be read. -/
inductive ReadFault where
  | missing
  /-- A part of the path is no directory. -/
  | notDirectory
  | directory
  /-- The content is not UTF-8. -/
  | notText
  | other (message : String)
  deriving DecidableEq, Repr

/-- The fault in words. -/
def ReadFault.message : ReadFault → String
  | missing => "No such file or directory (os error 2)"
  | notDirectory => "Not a directory (os error 20)"
  | directory => "Is a directory (os error 21)"
  | notText => "stream did not contain valid UTF-8"
  | other message => message

/-- What a run sees of the machine. -/
structure World where
  /-- The content of a file. -/
  read : String → Except ReadFault ByteArray
  /-- A variable of the environment. -/
  environment : String → Option String
  /-- Whether the output goes to a terminal. -/
  terminal : Bool := false
  /-- The path of the user's settings. -/
  userSettings : Option String := none
  /-- The path of the project's settings, if the command line names none. -/
  projectSettings : String := "playtime.toml"
  /-- The microseconds that a phase of the work on a file takes. -/
  elapsed : String → Phase → Nat := fun _ _ => 0

namespace World

/-- Whether a path leads somewhere. -/
def isPresent (world : World) (path : String) : Bool :=
  match world.read path with
  | .error .missing | .error .notDirectory => false
  | _ => true

/-- The text of a file. -/
def readText (world : World) (path : String) : Except Failure String :=
  let failure (fault : ReadFault) : Failure :=
    { cause := .other fault.message, contexts := ["Failed to read " ++ path] }
  match world.read path with
  | .error fault => .error (failure fault)
  | .ok bytes =>
    match String.fromUTF8? bytes with
    | some text => .ok text
    | none => .error (failure .notText)

/-- The layer of settings in a document. Stands for `load_layer`. -/
def readLayer (world : World) (path : String) : Except Failure (Layer Float) := do
  match Layer.read? (← world.readText path) with
  | some layer => return layer
  | none => .error { cause := .other "TOML parse error", contexts := ["Failed to parse " ++ path] }

/-- Lays the document at a path over settings, if it is there. -/
def applyPresent (world : World) (path : String) (settings : Settings Float) :
    Except Failure (Settings Float) := do
  if world.isPresent path then return settings.apply (← world.readLayer path) else return settings

/-- The settings below the command line. A document that the command line names has to be there; it
    stands in for that of the project. Stands for `load_config`. -/
def loadSettings (world : World) (explicit : Option String) : Except Failure (Settings Float) := do
  let settings ←
    match world.userSettings with
    | some path => world.applyPresent path .default
    | none => pure .default
  match explicit with
  | some path => return settings.apply (← world.readLayer path)
  | none => world.applyPresent world.projectSettings settings

end World

/-- The path of the user's settings: in the directory for settings if it is given by an absolute
    path, else below the home directory. Stands for `user_config_path`. -/
def userSettingsPath? (settingsHome home : Option String) : Option String :=
  let below (directory : String) := directory ++ "/playtime/config.toml"
  match settingsHome with
  | some directory =>
    if directory.toList.head? = some '/' then some (below directory)
    else (home.filter (!·.isEmpty)).map fun home => below (home ++ "/.config")
  | none => (home.filter (!·.isEmpty)).map fun home => below (home ++ "/.config")

end Playthrough.Command
