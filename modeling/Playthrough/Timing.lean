import Playthrough.Json

/-!
# Timings

How long each phase of the work on a file took. A stopwatch records only while it is enabled, and
forgets its samples when it is disabled.

* `Stopwatch.record`, `Stopwatch.collect`: taking samples and handing them over.
* `timingTable`, `timingJson`: the samples as a table and as data.
-/

namespace Playthrough

/-- The phases of the work on a file. -/
inductive Phase where
  | parse
  | optimize
  | minimum
  | maximum
  deriving DecidableEq, Repr

/-- The word for a phase. -/
def Phase.word : Phase → String
  | parse => "parse"
  | optimize => "optimize"
  | minimum => "minimum"
  | maximum => "maximum"

/-- How long a phase took. -/
structure Sample where
  file : String
  phase : Phase
  microseconds : Nat
  deriving DecidableEq, Repr

/-- What records samples. -/
structure Stopwatch where
  enabled : Bool := false
  /-- The samples in the order in which they were taken. -/
  samples : List Sample := []
  deriving DecidableEq, Repr

namespace Stopwatch

/-- Forgets the samples. -/
def clear (watch : Stopwatch) : Stopwatch := { watch with samples := [] }

/-- Enables or disables recording. Stands for `set_timing_enabled`. -/
def setEnabled (enabled : Bool) (watch : Stopwatch) : Stopwatch :=
  if enabled then { watch with enabled := true } else { enabled := false, samples := [] }

/-- Records a sample, if enabled. Stands for `timed`. -/
def record (sample : Sample) (watch : Stopwatch) : Stopwatch :=
  if watch.enabled then { watch with samples := watch.samples ++ [sample] } else watch

/-- Hands over the samples. Stands for `collect_report`. -/
def collect (watch : Stopwatch) : List Sample × Stopwatch := (watch.samples, watch.clear)

end Stopwatch

/-- Whether a value of the environment enables timings. Stands for `is_truthy`. -/
def isTruthy (value : String) : Bool :=
  String.ofList (value.toList.map Char.toLower) ∈ ["1", "true", "yes", "on"]

/-- A number with zeros in front, up to three digits. -/
def threeDigits (n : Nat) : String :=
  let digits := Nat.toDigits 10 n
  String.ofList (List.replicate (3 - digits.length) '0' ++ digits)

/-- A duration in the largest unit that it fills. Stands for `format_duration`. -/
def showDuration (microseconds : Nat) : String :=
  if 1000000 ≤ microseconds then
    s!"{microseconds / 1000000}." ++ threeDigits (microseconds % 1000000 / 1000) ++ "s"
  else if 1000 ≤ microseconds then
    s!"{microseconds / 1000}." ++ threeDigits (microseconds % 1000) ++ "ms"
  else s!"{microseconds}µs"

/-- A text with spaces behind it, up to a width. -/
def padRight (width : Nat) (text : String) : String :=
  text ++ String.ofList (List.replicate (width - text.length) ' ')

/-- A text with spaces in front of it, up to a width. -/
def padLeft (width : Nat) (text : String) : String :=
  String.ofList (List.replicate (width - text.length) ' ') ++ text

/-- A row of the table. -/
def timingRow (width : Nat) (file phase elapsed : String) : String :=
  padRight width file ++ "  " ++ padRight 8 phase ++ "  " ++ padLeft 10 elapsed ++ "\n"

/-- The samples as a table. Stands for `display_table`. -/
def timingTable (samples : List Sample) : String :=
  if samples.isEmpty then "No timing samples recorded."
  else
    let width := samples.foldl (fun width sample => max width sample.file.length) 4
    timingRow width "file" "phase" "elapsed"
      ++ String.ofList (List.replicate (width + 22) '-') ++ "\n"
      ++ String.join (samples.map fun sample =>
          timingRow width sample.file sample.phase.word (showDuration sample.microseconds))

/-- The samples as data. Stands for `to_json` of a timing report. -/
def timingJson (samples : List Sample) : Json :=
  .object [("samples", .array (samples.map fun sample =>
    .object [("elapsed_us", .natural sample.microseconds), ("file", .string sample.file),
      ("phase", .string sample.phase.word)]))]

end Playthrough
