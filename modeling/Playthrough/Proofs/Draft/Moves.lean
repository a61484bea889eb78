import Playthrough.Proofs.Draft.Growth

/-!
# The moves of a draft

Whatever a line of a script says, the draft changes by a few kinds of moves: frames change, a body is
opened under a minted or a declared label, ends are led to a fresh block, or the block that receives
content gains a record, an exit or an end. What every move keeps, reading a script keeps.

Some moves say something about names: a header declares one, and a jump refers to one.

* `Mention`: what is said about names.
* `Draft.Move`, `Draft.Moves`: the moves, one and in a row, with their mentions.
* `Draft.Allocates`: what opening and closing bodies have in common.
* `Block.Revised`: all that a move does to a block; `Move.revision` shows it.
-/

namespace Playthrough

variable {κ : Type}

/-- What a script says about declared names. -/
inductive Mention where
  /-- A header declares a name. -/
  | declares (name : String)
  /-- A jump gives the block `source` an exit to a name. -/
  | jumps (source : Label) (name : String)
  deriving DecidableEq, Repr

/-- What can happen to a block in one move, where `known` are the labels that have a block
    afterwards. -/
inductive Block.Revised (known : Label → Prop) (block : Block κ) : Block κ → Prop
  | same : Revised known block block
  | say (record : Record κ) : Revised known block (block.say record)
  | close (dead : Bool) : Revised known block (block.close dead)
  | exit (target : Label) (final : Bool) (hself : target ≠ block.label) (hentry : target ≠ .entry)
      (hknown : target.isSynthetic = true → known target) :
      Revised known block (block.exit target final)

namespace Draft

/-- One change of a draft while a script is read, and what it says about names. -/
inductive Move (draft draft' : Draft κ) : List Mention → Prop
  | frames (hatlas : draft'.atlas = draft.atlas) (hsound : Sound draft') : Move draft draft' []
  | fresh {frame : Frame} {final : Bool} (h : Opened frame final draft draft') (line : Nat)
      (origin : Origin) (hblock : frame.block = draft.nextLabel origin line) : Move draft draft' []
  | declare {name : String} {role : Role}
      (h : Opened { block := .named name, role } false draft draft') :
      Move draft draft' [.declares name]
  | join {sources : List Label} {line : Nat}
      (h : Joined sources (draft.nextLabel .merge line) draft draft') : Move draft draft' []
  | say {record : Record κ} (h : Changed (·.say record) draft draft') : Move draft draft' []
  | close {dead : Bool} (h : Changed (·.close dead) draft draft') : Move draft draft' []
  | jump {name : String} {block : Block κ} (hblock : draft.atlas draft.top.block = some block)
      (hself : draft.top.block ≠ .named name)
      (h : Changed (·.exit (.named name) true) draft draft') :
      Move draft draft' (if block.disabled then [] else [.jumps draft.top.block name])

/-- Any number of moves in a row. -/
inductive Moves : List Mention → Draft κ → Draft κ → Prop
  | refl (draft : Draft κ) : Moves [] draft draft
  | tail {mentions more : List Mention} {draft middle draft' : Draft κ} :
      Moves mentions draft middle → Move middle draft' more → Moves (mentions ++ more) draft draft'

variable {draft draft' draft'' : Draft κ} {mentions more : List Mention}

theorem Move.moves (h : Move draft draft' mentions) : Moves mentions draft draft' :=
  (Moves.refl draft).tail h

theorem Moves.trans (h : Moves mentions draft draft') (h' : Moves more draft' draft'') :
    Moves (mentions ++ more) draft draft'' := by
  induction h' with
  | refl => rwa [List.append_nil]
  | tail _ hmove ih =>
    rw [← List.append_assoc]
    exact (ih h).tail hmove

/-- Moves that say nothing in front of others. -/
theorem Moves.before (h : Moves [] draft draft') (h' : Moves more draft' draft'') :
    Moves more draft draft'' :=
  h.trans h'

theorem Move.sound (h : Move draft draft' mentions) : Sound draft' := by
  cases h with
  | frames _ hsound => exact hsound
  | fresh h => exact h.sound
  | declare h => exact h.sound
  | join h => exact h.sound
  | say h => exact h.sound
  | close h => exact h.sound
  | jump _ _ h => exact h.sound

theorem Moves.sound (h : Moves mentions draft draft') (hsound : Sound draft) : Sound draft' := by
  cases h with
  | refl => exact hsound
  | tail _ hmove => exact hmove.sound

/-! ## What a move does to a block -/

/-- A move leaves a label free, allocates its block, or revises it. -/
inductive Revision (known : Label → Prop) (label : Label) :
    Option (Block κ) → Option (Block κ) → Prop
  | free : Revision known label none none
  | allocated : Revision known label none (some { label })
  | revised {block block' : Block κ} (h : block.Revised known block') :
      Revision known label (some block) (some block')

theorem Revision.same (known : Label → Prop) (label : Label) (found : Option (Block κ)) :
    Revision known label found found := by
  cases found with
  | none => exact .free
  | some block => exact .revised .same

/-- A block was allocated, and the given blocks have an exit to it. -/
structure Allocates (new : Label) (final : Bool) (sources : List Label) (draft draft' : Draft κ) :
    Prop where
  fresh : draft.atlas new = none
  atlas_eq : ∀ label, draft'.atlas label =
    if label = new then some { label := new }
    else if label ∈ sources then (draft.atlas label).map (·.exit new final)
    else draft.atlas label

theorem Opened.allocates {frame : Frame} {final : Bool} (h : Opened frame final draft draft') :
    Allocates frame.block final [draft.top.block] draft draft' where
  fresh := h.fresh
  atlas_eq := by
    intro label
    rw [h.atlas_eq]
    simp only [List.mem_singleton]

theorem Joined.allocates {sources : List Label} {merge : Label}
    (h : Joined sources merge draft draft') : Allocates merge false sources draft draft' where
  fresh := h.fresh
  atlas_eq := h.atlas_eq

/-- An exit to a block that was not there before. -/
theorem Sound.revised_exit (h : Sound draft) {label target : Label} {block : Block κ}
    (hblock : draft.atlas label = some block) (hfresh : draft.atlas target = none) (final : Bool)
    {known : Label → Prop} (hknown : known target) :
    block.Revised known (block.exit target final) := by
  have hlabel := (Atlas.label_of_eq_some hblock).2
  refine .exit target final ?_ ?_ fun _ => hknown
  · rintro rfl
    rw [hlabel, hblock] at hfresh
    cases hfresh
  · rintro rfl
    have hsome := Atlas.isSome_of_iff.2 h.entry_mem
    rw [show Atlas.of draft.blocks .entry = none from hfresh] at hsome
    cases hsome

theorem Allocates.revision {new : Label} {final : Bool} {sources : List Label}
    (h : Allocates new final sources draft draft') (hsound : Sound draft) (label : Label) :
    Revision (fun target => (draft'.atlas target).isSome) label (draft.atlas label)
      (draft'.atlas label) := by
  rw [h.atlas_eq label]
  split
  · rename_i heq
    rw [heq, h.fresh]
    exact .allocated
  · split
    · cases hblock : draft.atlas label with
      | none => exact .free
      | some block =>
        refine .revised (hsound.revised_exit hblock h.fresh final ?_)
        rw [h.atlas_eq, if_pos rfl]
        rfl
    · exact Revision.same _ label _

theorem Changed.revision {change : Block κ → Block κ} (h : Changed change draft draft')
    {known : Label → Prop}
    (hchange : ∀ block, draft.atlas draft.top.block = some block →
      block.Revised known (change block)) (label : Label) :
    Revision known label (draft.atlas label) (draft'.atlas label) := by
  rw [h.atlas_eq]
  split
  · rename_i heq
    subst heq
    cases hblock : draft.atlas draft.top.block with
    | none => exact .free
    | some block => exact .revised (hchange block hblock)
  · exact Revision.same _ label _

/-- All that a move does to the block with a label. -/
theorem Move.revision (h : Move draft draft' mentions) (hsound : Sound draft) (label : Label) :
    Revision (fun target => (draft'.atlas target).isSome) label (draft.atlas label)
      (draft'.atlas label) := by
  cases h with
  | frames hatlas =>
    rw [hatlas]
    exact Revision.same _ label _
  | fresh h => exact h.allocates.revision hsound label
  | declare h => exact h.allocates.revision hsound label
  | join h => exact h.allocates.revision hsound label
  | say h => exact h.revision (fun block _ => .say _) label
  | close h => exact h.revision (fun block _ => .close _) label
  | jump _ hself h =>
    refine h.revision (fun block hblock => ?_) label
    refine .exit _ _ ?_ (by simp) (by simp [Label.isSynthetic])
    rw [(Atlas.label_of_eq_some hblock).2]
    exact hself.symm

end Draft

end Playthrough
