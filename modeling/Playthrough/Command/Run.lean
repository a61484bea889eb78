import Playthrough.Command.Options
import Playthrough.Command.World
import Playthrough.Report.Json
import Playthrough.Report.Text
import Playthrough.Text.Lines

/-!
# Runs

A run loads the settings, then reports on the files of the command line one after the other. A file
that cannot be reported on gets a message instead, and the run goes on. At the end it prints how long
all this took, if that is wanted.

* `Session.visit`: what happens at one file.
* `run`: what a run leaves behind.
* `runWords`: the same, given the words of its command line.
-/

namespace Playthrough.Command

open Reading

/-- What a run leaves behind. -/
structure Finished where
  status : Nat
  stdout : String
  stderr : String
  deriving DecidableEq, Repr

/-- How parts are coloured. Users can ask for no colours. -/
def paintOf (mode : Mode) (noColour : Option String) : Paint :=
  match mode with
  | .pretty => if (noColour.getD "").isEmpty then .colourful else .colourless
  | _ => .none

/-- A report in a form of output. Stands for `render_report`. -/
def renderReport (mode : Mode) (paint : Paint) (report : FileReport Float) : String :=
  match mode with
  | .json => report.toJson.pretty ++ "\n"
  | _ => report.text paint

/-- A problem in a form of output. Stands for `render_error`. -/
def renderProblem (mode : Mode) (problem : Problem) : String :=
  match mode with
  | .json => (Json.object [("error", problem.toJson)]).pretty ++ "\n"
  | _ => problem.text

/-- A text without the byte-order mark in front. -/
def dropMark (text : String) : String :=
  match text.toList with
  | '\ufeff' :: rest => String.ofList rest
  | _ => text

/-- The lines of a script. Stands for `read_script`. -/
def World.readScript (world : World) (path : String) : Except Failure (List (String × Nat)) := do
  return Text.numbered (Text.lines (dropMark (← world.readText path)))

/-- The report on a script. -/
def report (settings : Settings Float) (request : Request) (file : String)
    (lines : List (String × Nat)) : Except Failure (FileReport Float) :=
  match estimate settings request file lines with
  | .ok report => .ok report
  | .error fault => .error { cause := .script fault }

/-- The report on a file. Stands for `run_file`. -/
def World.report (world : World) (options : Options) (settings : Settings Float) (file : String) :
    Except Failure (FileReport Float) := do
  Command.report settings options.request file (← world.readScript file)

/-- The form of the output of a run. -/
def World.mode (world : World) (options : Options) : Mode :=
  Mode.choose options.format (options.has .json) (world.environment "FORMAT") world.terminal

/-- The settings of a run, with those of the command line on top. Stands for `reading_config`. -/
def World.runSettings (world : World) (options : Options) : Except Failure (Settings Float) := do
  let settings := (← world.loadSettings options.config).apply options.layer
  match settings.validate with
  | .ok _ => return settings
  | .error fault => .error { cause := .other fault.message }

/-! ## Timings -/

/-- The phases through which the work on a script goes. -/
def phases (settings : Settings Float) (request : Request) (lines : List (String × Nat)) :
    List Phase :=
  match draftOf settings lines with
  | .error _ => [.parse]
  | .ok draft =>
    match reducedStory settings request.detail.byCharacters draft with
    | .error _ => [.parse, .optimize]
    | .ok _ =>
      [.parse, .optimize] ++ (if request.minimum then [.minimum] else [])
        ++ (if request.maximum then [.maximum] else [])

/-- The samples of a file. -/
def fileSamples (world : World) (options : Options) (settings : Settings Float) (file : String) :
    List Sample :=
  match world.readScript file with
  | .error _ => []
  | .ok lines =>
    (phases settings options.request lines).map fun phase =>
      { file, phase, microseconds := world.elapsed file phase }

/-- The samples as they are printed at the end of a run. -/
def timingText (samples : List Sample) : String :=
  if samples.isEmpty then "timing report: no samples recorded\n"
  else
    "timing report:\n" ++ timingTable samples ++ "\n"
      ++ "timing report (json):\n" ++ (timingJson samples).pretty ++ "\n"

/-- Whether a run reports its timings. -/
def World.wantsTimings (world : World) (options : Options) : Bool :=
  options.has .timing || ((world.environment "PLAYTIME_TIMING").map isTruthy).getD false

/-! ## Whole runs -/

/-- A run under way: what it has printed so far, and what it keeps from file to file. -/
structure Session where
  watch : Stopwatch := {}
  stdout : String := ""
  stderr : String := ""
  /-- How many files could not be reported on. -/
  failures : Nat := 0
  deriving DecidableEq, Repr

namespace Session

/-- The start of a run, with or without timings. -/
def start (timing : Bool) : Session where
  watch := (Stopwatch.setEnabled timing {}).clear

/-- Records samples. -/
def record (samples : List Sample) (session : Session) : Session :=
  { session with watch := samples.foldl (fun watch sample => watch.record sample) session.watch }

/-- Prints a report. -/
def print (text : String) (session : Session) : Session :=
  { session with stdout := session.stdout ++ text }

/-- Prints what is wrong with a file, and counts it. -/
def complain (text : String) (session : Session) : Session :=
  { session with stderr := session.stderr ++ text, failures := session.failures + 1 }

/-- Reports on a file. -/
def visit (world : World) (options : Options) (settings : Settings Float) (session : Session)
    (file : String) : Session :=
  let mode := world.mode options
  let session := session.record (fileSamples world options settings file)
  match world.report options settings file with
  | .ok report =>
    session.print (renderReport mode (paintOf mode (world.environment "NO_COLOR")) report)
  | .error failure =>
    session.complain (renderProblem mode ((Problem.ofFailure failure).inFile file))

/-- The end of a run, with or without timings. -/
def finish (timing : Bool) (session : Session) : Finished where
  status := if 0 < session.failures then 1 else 0
  stdout := session.stdout
  stderr := session.stderr ++ if timing then timingText session.watch.collect.1 else ""

end Session

/-- What a run leaves behind. Stands for `main`. -/
def run (world : World) (options : Options) : Finished :=
  match world.runSettings options with
  | .error failure =>
    { status := 1
      stdout := ""
      stderr := renderProblem (world.mode options) (Problem.ofFailure failure) }
  | .ok settings =>
    let timing := world.wantsTimings options
    (options.files.foldl (Session.visit world options settings) (Session.start timing)).finish timing

/-- The name and the release of the program. -/
def versionText : String := "playtime 0.4.1\n"

/-- How the program is used. -/
def usageText : String := "Usage: playtime [OPTIONS] <FILES>...\n"

/-- What a run leaves behind, given the words of its command line. -/
def runWords (world : World) (words : List String) : Finished :=
  match Options.parse words with
  | .error .help => { status := 0, stdout := usageText, stderr := "" }
  | .error .version => { status := 0, stdout := versionText, stderr := "" }
  | .error (.refused fault) =>
    { status := 2, stdout := "", stderr := "error: " ++ fault.message ++ "\n\n" ++ usageText }
  | .ok options => run world options

end Playthrough.Command
