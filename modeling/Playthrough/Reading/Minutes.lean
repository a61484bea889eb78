import Playthrough.Cost
import Playthrough.Reading.Settings
import Playthrough.Text.CodeRange

/-!
# Minutes

The time that records take under given settings, in minutes.

* `Settings.dialogueMinutes`: the time to read a spoken line and go on.
* `Settings.recordMinutes?`: the time of a record and on whose account it goes.
* `Settings.tally`: the cost of a block, with accounts or without.
-/

namespace Playthrough.Reading

instance instNatCastFloat : NatCast Float := ⟨Float.ofNat⟩

/-- Hiragana, katakana, ideographs and halfwidth katakana. -/
def cjkRanges : Text.CodeRanges :=
  [(0x3040, 0x30ff), (0x3400, 0x4dbf), (0x4e00, 0x9fff), (0xf900, 0xfaff), (0xff66, 0xff9f)]

/-- Whether a character is read at the speed of Chinese and Japanese characters. Stands for
    `is_cjk`. -/
def isCjk (c : Char) : Bool := cjkRanges.contains c

namespace Settings

variable {κ : Type} [Zero κ] [Add κ] [Div κ] [NatCast κ]

/-- The minutes of a number of seconds. -/
def minutes (seconds : κ) : κ := seconds / ((60 : Nat) : κ)

/-- The time to read a spoken line and go on. Stands for `dialogue_minutes` of the aggregator. -/
def dialogueMinutes (settings : Settings κ) (line : Dialogue κ) : κ :=
  let characters := line.text.toList
  let cjk := (characters.filter isCjk).length
  ((characters.length - cjk : Nat) : κ) / settings.speed + (cjk : κ) / settings.cjkSpeed
    + minutes (line.extraSeconds + settings.next)

/-- The time of a record and on whose account it goes. A line without text is not read, and takes no
    time. Stands for `record_minutes` of the aggregator. -/
def recordMinutes? (settings : Settings κ) : Record κ → Option (Category × κ)
  | .dialogue line =>
    if line.text.isEmpty then none
    else some (.speaker line.speaker, settings.dialogueMinutes line)
  | .pause seconds => some (.pause, minutes seconds)
  | .scene => some (.scene, minutes settings.scene)
  | .image => some (.image, minutes settings.image)

/-- The accounts that every block has. Stands for `empty_breakdown` of the aggregator. -/
def emptyAccounts (settings : Settings κ) : Breakdown κ :=
  let staging : Breakdown κ := [(.scene, 0), (.image, 0)]
  if settings.pause then (.pause, 0) :: staging else staging

/-- The cost of a block. Without accounts the sum starts at negative zero, to which adding a number
    gives that number. Stands for `aggregate`. -/
def tally [Neg κ] (settings : Settings κ) (byCharacters : Bool) : Tally κ := fun records =>
  let costs := records.filterMap settings.recordMinutes?
  if byCharacters then
    { total := costs.foldl (fun sum cost => sum + cost.2) 0
      breakdown := some (Breakdown.creditAll costs settings.emptyAccounts) }
  else { total := costs.foldl (fun sum cost => sum + cost.2) (-0) }

end Settings

end Playthrough.Reading
