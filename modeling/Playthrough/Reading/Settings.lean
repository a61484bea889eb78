import Playthrough.Cost
import Playthrough.Decimal.Style
import Playthrough.Reading.Line
import Playthrough.Table
import Playthrough.Text.Blank

/-!
# Settings

How fast a reader reads and how long the game takes for everything else. Settings are made of
layers: each layer overrides the values that it gives and adds to the names of the speakers.

* `Settings.apply`: lays a layer over settings.
* `Settings.validate`: refuses values from which no finite time can be computed.
* `readAliases`: reads a list of names such as `e=Eileen,m`.
-/

namespace Playthrough.Reading

/-- The model of a reader. Stands for `ReadingConfig`. -/
structure Settings (κ : Type) where
  /-- Characters per minute, but for those of Chinese and Japanese scripts. -/
  speed : κ
  /-- Chinese and Japanese characters per minute. -/
  cjkSpeed : κ
  /-- Seconds for a change of the scene. -/
  scene : κ
  /-- Seconds for a picture that is shown or hidden. -/
  image : κ
  /-- Seconds to go on behind a spoken line. -/
  next : κ
  /-- Whether pauses count. -/
  pause : Bool
  /-- The names by which speakers are shown. -/
  characters : Aliases
  deriving BEq, DecidableEq, Repr

/-- One layer of settings. Stands for `ConfigLayer`. -/
structure Layer (κ : Type) where
  speed : Option κ := none
  cjkSpeed : Option κ := none
  scene : Option κ := none
  image : Option κ := none
  next : Option κ := none
  pause : Option Bool := none
  characters : Aliases := []
  deriving BEq, DecidableEq, Repr

/-- Binds all the names of one list in another. -/
def Aliases.extend (added aliases : Aliases) : Aliases :=
  added.foldl (fun aliases entry => Table.set entry.1 entry.2 aliases) aliases

namespace Settings

variable {κ : Type}

/-- The settings below all layers. -/
def default [OfScientific κ] : Settings κ where
  speed := 582.9
  cjkSpeed := 110.0
  scene := 0.8
  image := 0.25
  next := 0.3
  pause := false
  characters := []

/-- Lays a layer over settings. Stands for `apply` of a configuration. -/
def apply (layer : Layer κ) (settings : Settings κ) : Settings κ where
  speed := layer.speed.getD settings.speed
  cjkSpeed := layer.cjkSpeed.getD settings.cjkSpeed
  scene := layer.scene.getD settings.scene
  image := layer.image.getD settings.image
  next := layer.next.getD settings.next
  pause := layer.pause.getD settings.pause
  characters := Aliases.extend layer.characters settings.characters

end Settings

/-- Why settings are refused. -/
inductive SettingsFault (κ : Type) where
  /-- A reading speed that is not a positive finite number. -/
  | badSpeed (name : String) (value : κ)
  /-- A duration that is not a finite number, or negative. -/
  | badDuration (name : String) (value : κ)
  deriving DecidableEq, Repr

/-- A refusal in words. -/
def SettingsFault.message : SettingsFault Float → String
  | badSpeed name value =>
    s!"{name} must be a positive number of characters per minute, got "
      ++ Decimal.Style.plain.format value
  | badDuration name value =>
    s!"{name} must be a non-negative number of seconds, got " ++ Decimal.Style.plain.format value

section Validation

variable {κ : Type} [Zero κ] [LT κ] [DecidableLT κ] [LE κ] [DecidableLE κ] [FiniteCheck κ]

/-- Accepts a reading speed. -/
def checkSpeed (name : String) (value : κ) : Except (SettingsFault κ) Unit :=
  if FiniteCheck.isFinite value && 0 < value then .ok () else .error (.badSpeed name value)

/-- Accepts a duration. -/
def checkDuration (name : String) (value : κ) : Except (SettingsFault κ) Unit :=
  if FiniteCheck.isFinite value && 0 ≤ value then .ok () else .error (.badDuration name value)

/-- Refuses settings from which no finite time can be computed. Stands for `validate` of a
    configuration. -/
def Settings.validate (settings : Settings κ) : Except (SettingsFault κ) Unit := do
  checkSpeed "speed" settings.speed
  checkSpeed "cjk_speed" settings.cjkSpeed
  checkDuration "scene" settings.scene
  checkDuration "show" settings.image
  checkDuration "next" settings.next

end Validation

/-! ## Lists of names -/

/-- A list of names is refused for an item without a script name. -/
structure AliasFault where
  item : String
  deriving DecidableEq, Repr

/-- A refusal in words. -/
def AliasFault.message (fault : AliasFault) : String :=
  s!"alias `{fault.item}` has no script name"

/-- Reads one item: a script name with the name to show, or a name that stays as it is. -/
def readAlias (item : List Char) : Except AliasFault (String × String) :=
  let first := item.takeWhile (· ≠ '=')
  match item.dropWhile (· ≠ '=') with
  | [] => .ok (String.ofList item, String.ofList item)
  | _ :: shown =>
    let name := Text.trim first
    if name.isEmpty then .error ⟨String.ofList item⟩
    else .ok (String.ofList name, String.ofList (Text.trim shown))

/-- Reads a list of names with commas between. Blank items are skipped, and the last item of a name
    counts. Stands for `parse_characters`. -/
def readAliases (list : String) : Except AliasFault Aliases := do
  let items := (list.toList.splitOnP (· = ',')).map Text.trim
  let entries ← (items.filter (!·.isEmpty)).mapM readAlias
  return Aliases.extend entries []

end Playthrough.Reading
