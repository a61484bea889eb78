import Playthrough.Command.Run

/-!
# The program

Reads the files that a run can ask for, takes the times of its phases where they are wanted, prints
what the run prints, and exits with its status.
-/

namespace Playthrough.Command

/-- The fault behind a failed reading. The codes of the system come with either sign. -/
def readFaultOf : IO.Error → ReadFault
  | .noFileOrDirectory .. => .missing
  | .inappropriateType file code details =>
    if code = 20 || code = 0 - 20 then .notDirectory
    else if code = 21 || code = 0 - 21 then .directory
    else .other (toString (IO.Error.inappropriateType file code details))
  | error => .other (toString error)

/-- Reads a file. -/
def readPath (path : String) : IO (Except ReadFault ByteArray) := do
  try return .ok (← IO.FS.readBinFile path)
  catch error => return .error (readFaultOf error)

/-- The microseconds that a computation takes. -/
def microsecondsOf {α : Type} (compute : Unit → α) : IO (α × Nat) := do
  let start ← IO.monoNanosNow
  let value ← IO.lazyPure compute
  let stop ← IO.monoNanosNow
  return (value, (stop - start) / 1000)

/-- Takes the times of the phases of the work on a file. -/
def measureFile (world : World) (options : Options) (settings : Reading.Settings Float)
    (file : String) : IO (List ((String × Phase) × Nat)) := do
  let .ok lines := world.readScript file | return []
  let (draft, parse) ← microsecondsOf fun _ => draftOf settings lines
  let .ok draft := draft | return [((file, .parse), parse)]
  let (graph, optimize) ← microsecondsOf fun _ =>
    reducedStory settings options.request.detail.byCharacters draft
  let .ok graph := graph | return [((file, .parse), parse), ((file, .optimize), optimize)]
  let (_, minimum) ← microsecondsOf fun _ => graph.shortest
  let (_, maximum) ← microsecondsOf fun _ => graph.longest
  return [((file, .parse), parse), ((file, .optimize), optimize), ((file, .minimum), minimum),
    ((file, .maximum), maximum)]

/-- Takes the times of a run, if they are wanted. -/
def measure (world : World) (options : Options) : IO (List ((String × Phase) × Nat)) := do
  if !world.wantsTimings options then return []
  let .ok settings := world.runSettings options | return []
  return (← options.files.mapM (measureFile world options settings)).flatten

/-- What a run with the given command line sees of the machine. -/
def observe (words : List String) : IO World := do
  let userSettings := userSettingsPath? (← IO.getEnv "XDG_CONFIG_HOME") (← IO.getEnv "HOME")
  let projectSettings := (← IO.currentDir).toString ++ "/playtime.toml"
  let asked :=
    match Options.parse words with
    | .ok options => options.config.toList ++ options.files
    | .error _ => []
  let paths := (projectSettings :: userSettings.toList ++ asked).eraseDups
  let files ← paths.mapM fun path => return (path, ← readPath path)
  let names := ["FORMAT", "NO_COLOR", "PLAYTIME_TIMING"]
  let values ← names.mapM fun name => return (name, ← IO.getEnv name)
  let world : World :=
    { read := fun path => (files.lookup path).getD (.error .missing)
      environment := fun name => (values.lookup name).join
      terminal := ← (← IO.getStdout).isTty
      userSettings
      projectSettings }
  let .ok options := Options.parse words | return world
  let times ← measure world options
  return { world with elapsed := fun file phase => (times.lookup (file, phase)).getD 0 }

end Playthrough.Command

open Playthrough.Command in
/-- Runs the program. -/
def main (words : List String) : IO UInt32 := do
  let finished := runWords (← observe words) words
  IO.print finished.stdout
  IO.eprint finished.stderr
  return finished.status.toUInt32
