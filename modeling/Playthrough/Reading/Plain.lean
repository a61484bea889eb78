import Playthrough.Cost
import Playthrough.Decimal.Literal
import Playthrough.Script.Statement

/-!
# Plain readers and tallies

The shape of a story does not depend on how its lines are read and timed. The readers and tallies
here are simpler than those for real scripts, and show the shape of a story alone.

* `LineReader.scenes`, `LineReader.quotedLines`, `LineReader.everyLine`, `LineReader.speakerFirst`,
  `LineReader.givenCosts`.
* `Tally.count`, `Tally.textLength`, `Tally.pauses`, `Tally.bySpeaker`, `Tally.constant`.
-/

namespace Playthrough

variable {κ : Type}

/-! ## Readers -/

namespace LineReader

/-- No line takes time. -/
def nothing : LineReader κ := fun _ => none

/-- Lines that start with `scene` change the scene. -/
def scenes : LineReader κ := fun line =>
  if (Script.afterKeyword? "scene" line.toList).isSome then some .scene else none

/-- Lines that start with a quote are told by the narrator, as they stand. -/
def quotedLines [Zero κ] : LineReader κ := fun line =>
  if line.toList.head? = some '"' then
    some (.dialogue { speaker := .narrator, text := line, extraSeconds := 0 })
  else none

/-- Every line is told by the narrator, as it stands. -/
def everyLine [Zero κ] : LineReader κ := fun line =>
  some (.dialogue { speaker := .narrator, text := line, extraSeconds := 0 })

/-- The text in front of the first space names the speaker, and the rest is what is said. -/
def speakerFirst [Zero κ] : LineReader κ := fun line =>
  match line.toList.dropWhile (· ≠ ' ') with
  | [] => none
  | _ :: rest =>
    let name := String.ofList (line.toList.takeWhile (· ≠ ' '))
    some (.dialogue { speaker := .named name, text := String.ofList rest, extraSeconds := 0 })

/-- Lines such as `cost 2.5` pause for the number of seconds that they give. -/
def givenCosts : LineReader Float := fun line => do
  let rest ← Script.afterKeyword? "cost " line.toList
  let seconds ← Decimal.readFloat? (String.ofList rest)
  return .pause seconds

end LineReader

/-! ## Tallies -/

namespace Tally

/-- The number of records. -/
def count [NatCast κ] : Tally κ := fun records => { total := (records.length : κ) }

/-- The length of what is said, without its two quotes. -/
def quotedLength [NatCast κ] (line : Dialogue κ) : κ := ((line.text.length - 2 : Nat) : κ)

/-- The length of all that is said. -/
def textLength [Zero κ] [Add κ] [NatCast κ] : Tally κ := fun records =>
  let lines := records.filterMap Record.dialogue?
  { total := lines.foldl (fun sum line => sum + quotedLength line) 0 }

/-- The seconds of a pause. -/
def pauseSeconds? : Record κ → Option κ
  | .pause seconds => some seconds
  | _ => none

/-- The seconds of all pauses. -/
def pauses [Zero κ] [Add κ] : Tally κ := fun records =>
  { total := (records.filterMap pauseSeconds?).foldl (· + ·) 0 }

/-- The length of all that is said, with an account for each speaker. -/
def bySpeaker [Zero κ] [Add κ] [NatCast κ] : Tally κ := fun records =>
  let entries := (records.filterMap Record.dialogue?).map fun line =>
    (Category.speaker line.speaker, quotedLength line)
  let accounts := Breakdown.creditAll entries []
  { total := accounts.foldl (fun sum entry => sum + entry.2) 0, breakdown := some accounts }

/-- The same cost for every block. -/
def constant (cost : κ) : Tally κ := fun _ => { total := cost }

end Tally

end Playthrough
