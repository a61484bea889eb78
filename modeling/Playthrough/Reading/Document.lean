import Playthrough.Reading.Settings
import Playthrough.Toml.Document

/-!
# Settings documents

A layer of settings is written as a TOML document. Its keys are the names of the settings, and the
table `characters` holds the names of the speakers. Every key is optional; an unknown key, a key
given twice or a value of the wrong kind is refused.

The table `characters` can be given in three ways, which do not mix: by a header, by keys with a
dot, or as an inline table.
-/

namespace Playthrough.Reading

open Toml

/-- How the table of names was given. -/
inductive TableForm where
  | absent
  | dotted
  | closed
  deriving DecidableEq, Repr

/-- A layer under construction. -/
structure LayerDraft where
  layer : Layer Float := {}
  /-- How the table of names was given so far. -/
  form : TableForm := .absent
  /-- Whether the keys now belong to the table of names. -/
  inside : Bool := false

namespace LayerDraft

/-- The number in a value. -/
def number? : Value → Option Float
  | .scalar (.integer value) => some (Float.ofInt value)
  | .scalar (.float value) => some value
  | _ => none

/-- Fills a setting that was not given yet. -/
def fill {α : Type} (current given : Option α) : Option (Option α) :=
  match current, given with
  | none, some value => some (some value)
  | _, _ => none

/-- Adds a name that was not given yet. -/
def name? (name : String) (value : Scalar) (draft : LayerDraft) : Option LayerDraft :=
  match value with
  | .string shown =>
    if (draft.layer.characters.lookup name).isSome then none
    else
      let characters := draft.layer.characters ++ [(name, shown)]
      some { draft with layer := { draft.layer with characters } }
  | _ => none

/-- Sets a setting by its key. -/
def setting? (key : String) (value : Value) (draft : LayerDraft) : Option LayerDraft := do
  let layer := draft.layer
  let layer ←
    match key with
    | "speed" => (fill layer.speed (number? value)).map fun speed => { layer with speed }
    | "cjk_speed" =>
      (fill layer.cjkSpeed (number? value)).map fun cjkSpeed => { layer with cjkSpeed }
    | "scene" => (fill layer.scene (number? value)).map fun scene => { layer with scene }
    | "show" => (fill layer.image (number? value)).map fun image => { layer with image }
    | "next" => (fill layer.next (number? value)).map fun next => { layer with next }
    | "pause" =>
      match value with
      | .scalar (.boolean value) =>
        (fill layer.pause (some value)).map fun pause => { layer with pause }
      | _ => none
    | _ => none
  return { draft with layer }

/-- The whole table of names at once. -/
def table? (entries : List (List String × Scalar)) (draft : LayerDraft) : Option LayerDraft :=
  if draft.form = .absent then
    entries.foldlM
      (fun draft entry =>
        match entry.1 with
        | [name] => draft.name? name entry.2
        | _ => none)
      { draft with form := .closed }
  else none

/-- Takes an item of the document into account. -/
def item? (draft : LayerDraft) : Item → Option LayerDraft
  | .header ["characters"] =>
    if draft.form = .absent then some { draft with form := .closed, inside := true } else none
  | .header _ => none
  | .entry [key] value =>
    if draft.inside then
      match value with
      | .scalar value => draft.name? key value
      | .table _ => none
    else if key = "characters" then
      match value with
      | .table entries => draft.table? entries
      | .scalar _ => none
    else draft.setting? key value
  | .entry ["characters", name] (.scalar value) =>
    if draft.inside || draft.form = .closed then none
    else { draft with form := .dotted }.name? name value
  | .entry .. => none

end LayerDraft

/-- Reads a layer of settings. -/
def Layer.read? (text : String) : Option (Layer Float) := do
  let draft ← (← items? text).foldlM LayerDraft.item? {}
  return draft.layer

end Playthrough.Reading
