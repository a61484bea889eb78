import Playthrough.Draft.Finish
import Playthrough.Proofs.Draft.Nesting
import Playthrough.Proofs.Story.Joined

/-!
# The blocks of a draft

A label stands for one block, and no exit is minted without its block: both are made in the same move.
Play never leads from a block to itself or back to the entry. Once a jump or a return has closed a
block, its exits are final.

* `Block.Proper`: what holds of every single block; `Revised.proper` shows that moves keep it.
* `Block.Keeps`: the exits of a closed block stay.
* `Draft.Indexed`: the number of a minted label tells all of it.
* `Sound.proper`, `Tidy.keepsClosed`: the blocks of the drafts of scripts.
-/

namespace Playthrough

variable {κ : Type}

/-! ## Single blocks -/

namespace Block

/-- What holds of every block of a draft, where `known` are the labels that have a block. -/
structure Proper (known : Label → Prop) (block : Block κ) : Prop where
  self_not_mem : block.label ∉ block.next
  entry_not_mem : Label.entry ∉ block.next
  known : ∀ target ∈ block.next, target.isSynthetic = true → known target
  disabled_of_deadend : block.deadend = true → block.disabled = true

/-- If a block is closed it keeps its exits, and what it is. -/
def Keeps (block block' : Block κ) : Prop :=
  block.disabled = true →
    block'.next = block.next ∧ block'.disabled = true ∧ block'.deadend = block.deadend

variable {known : Label → Prop} {block block' block'' : Block κ}

theorem proper_new (known : Label → Prop) (label : Label) :
    ({ label } : Block κ).Proper known where
  self_not_mem := List.not_mem_nil
  entry_not_mem := List.not_mem_nil
  known := fun _ htarget => absurd htarget List.not_mem_nil
  disabled_of_deadend := fun hdead => hdead

theorem Proper.imp {known' : Label → Prop} (h : block.Proper known)
    (hknown : ∀ label, known label → known' label) : block.Proper known' where
  self_not_mem := h.self_not_mem
  entry_not_mem := h.entry_not_mem
  known := fun target htarget hminted => hknown target (h.known target htarget hminted)
  disabled_of_deadend := h.disabled_of_deadend

theorem Revised.proper (h : block.Revised known block') (hblock : block.Proper known) :
    block'.Proper known := by
  cases h with
  | same => exact hblock
  | say record => exact ⟨hblock.1, hblock.2, hblock.3, hblock.4⟩
  | close dead =>
    unfold Block.close
    split
    · exact hblock
    · exact ⟨hblock.1, hblock.2, hblock.3, fun _ => rfl⟩
  | exit target final hself hentry hknown =>
    unfold Block.exit
    split
    · exact hblock
    · rename_i hopen
      refine ⟨?_, ?_, ?_, ?_⟩
      · simpa [hself.symm] using hblock.self_not_mem
      · simpa [hentry.symm] using hblock.entry_not_mem
      · intro other hother hminted
        rcases List.mem_append.1 hother with hother | hother
        · exact hblock.known other hother hminted
        · obtain rfl := List.mem_singleton.1 hother
          exact hknown hminted
      · intro hdead
        exact absurd (hblock.disabled_of_deadend hdead) hopen

theorem keeps_refl (block : Block κ) : block.Keeps block := fun hclosed => ⟨rfl, hclosed, rfl⟩

theorem Keeps.trans (h : block.Keeps block') (h' : block'.Keeps block'') : block.Keeps block'' := by
  intro hclosed
  obtain ⟨hnext, hclosed', hdead⟩ := h hclosed
  obtain ⟨hnext', hclosed'', hdead'⟩ := h' hclosed'
  exact ⟨hnext'.trans hnext, hclosed'', hdead'.trans hdead⟩

theorem Revised.keeps (h : block.Revised known block') : block.Keeps block' := by
  intro hclosed
  cases h with
  | same => exact ⟨rfl, hclosed, rfl⟩
  | say record => exact ⟨rfl, hclosed, rfl⟩
  | close dead =>
    rw [Block.close, if_pos hclosed]
    exact ⟨rfl, hclosed, rfl⟩
  | exit target final =>
    rw [Block.exit, if_pos hclosed]
    exact ⟨rfl, hclosed, rfl⟩

end Block

namespace Draft

variable {draft draft' later : Draft κ} {mentions : List Mention}

/-! ## Moves and blocks -/

/-- What every move keeps, moves in a row keep. -/
theorem Moves.preserve {motive : Draft κ → Prop}
    (hmove : ∀ draft draft' mentions, Sound draft → Move draft draft' mentions → motive draft →
      motive draft')
    (h : Moves mentions draft draft') (hsound : Sound draft) (hstart : motive draft) :
    motive draft' := by
  induction h with
  | refl => exact hstart
  | tail hmoves hlast ih => exact hmove _ _ _ (hmoves.sound hsound) hlast (ih hsound hstart)

/-- Every block of a draft is proper. -/
def Filed (draft : Draft κ) : Prop :=
  ∀ label block, draft.atlas label = some block →
    block.Proper fun target => (draft.atlas target).isSome

theorem filed_start : Filed (start : Draft κ) := by
  intro label block hblock
  have hmem := (Atlas.label_of_eq_some hblock).1
  obtain rfl : block = { label := .entry } := List.mem_singleton.1 hmem
  exact Block.proper_new _ _

theorem Revision.isSome {known : Label → Prop} {label : Label} {found found' : Option (Block κ)}
    (h : Revision known label found found') (hfound : found.isSome) : found'.isSome := by
  cases h with
  | free => exact hfound
  | allocated => rfl
  | revised => rfl

theorem Move.filed (h : Move draft draft' mentions) (hsound : Sound draft) (hfiled : Filed draft) :
    Filed draft' := by
  intro label block' hblock'
  have hrevision := h.revision hsound label
  rw [hblock'] at hrevision
  cases hfound : draft.atlas label with
  | none =>
    rw [hfound] at hrevision
    cases hrevision
    exact Block.proper_new _ _
  | some block =>
    rw [hfound] at hrevision
    cases hrevision with
    | revised hrevised =>
      refine hrevised.proper ((hfiled label block hfound).imp ?_)
      exact fun target hsome => (h.revision hsound target).isSome hsome

theorem Moves.filed (h : Moves mentions draft draft') (hsound : Sound draft)
    (hfiled : Filed draft) : Filed draft' :=
  h.preserve (fun _ _ _ hsound hmove => hmove.filed hsound) hsound hfiled

/-- A block that is there stays. What every revision does to it, moves in a row do. -/
theorem Moves.exists_block {R : Block κ → Block κ → Prop} (hrefl : ∀ block, R block block)
    (htrans : ∀ {first second third}, R first second → R second third → R first third)
    (hrevised : ∀ {known block block'}, Block.Revised known block block' → R block block')
    (h : Moves mentions draft draft') (hsound : Sound draft) {label : Label} {block : Block κ}
    (hblock : draft.atlas label = some block) :
    ∃ block', draft'.atlas label = some block' ∧ R block block' := by
  refine h.preserve (motive := fun other => ∃ block', other.atlas label = some block' ∧
    R block block') ?_ hsound ⟨block, hblock, hrefl block⟩
  rintro middle last _ hsound hmove ⟨block', hblock', hkeeps⟩
  have hrevision := hmove.revision hsound label
  rw [hblock'] at hrevision
  cases hlast : last.atlas label with
  | none =>
    rw [hlast] at hrevision
    cases hrevision
  | some block'' =>
    rw [hlast] at hrevision
    cases hrevision with
    | revised h => exact ⟨block'', rfl, htrans hkeeps (hrevised h)⟩

/-- Closed blocks keep their exits. -/
theorem Moves.keeps (h : Moves mentions draft draft') (hsound : Sound draft) {label : Label}
    {block : Block κ} (hblock : draft.atlas label = some block) :
    ∃ block', draft'.atlas label = some block' ∧ block.Keeps block' :=
  h.exists_block Block.keeps_refl Block.Keeps.trans Block.Revised.keeps hsound hblock

/-- Minted labels with the same number are the same. -/
def Indexed (draft : Draft κ) : Prop :=
  ∀ index line line' origin origin', (draft.atlas (.synthetic index line origin)).isSome →
    (draft.atlas (.synthetic index line' origin')).isSome → line = line' ∧ origin = origin'

theorem indexed_start : Indexed (start : Draft κ) := by
  intro index line line' origin origin' hsome
  simp [Atlas.isSome_of_iff, start] at hsome

theorem Allocates.isSome_cases {new : Label} {final : Bool} {sources : List Label}
    (h : Allocates new final sources draft draft') {label : Label}
    (hsome : (draft'.atlas label).isSome) : label = new ∨ (draft.atlas label).isSome := by
  rw [h.atlas_eq] at hsome
  split at hsome
  · exact Or.inl ‹_›
  · split at hsome
    · exact Or.inr (by simpa using hsome)
    · exact Or.inr hsome

theorem Changed.isSome_iff {change : Block κ → Block κ} (h : Changed change draft draft')
    {label : Label} : (draft'.atlas label).isSome ↔ (draft.atlas label).isSome := by
  rw [h.atlas_eq]
  split <;> simp

/-- A move allocates one block at most, under a declared name or the next minted label. -/
theorem Move.exists_fresh (h : Move draft draft' mentions) :
    ∃ fresh : Label,
      (∀ index line origin, fresh = .synthetic index line origin → index = draft.minted) ∧
      ∀ label, (draft'.atlas label).isSome → label = fresh ∨ (draft.atlas label).isSome := by
  have hnext : ∀ origin line index line' origin',
      draft.nextLabel origin line = .synthetic index line' origin' → index = draft.minted := by
    intro origin line index line' origin' heq
    cases heq
    rfl
  cases h with
  | frames hatlas => exact ⟨.entry, by simp, fun label hsome => Or.inr (hatlas ▸ hsome)⟩
  | fresh h line origin hblock =>
    exact ⟨_, hblock ▸ hnext origin line, fun label => h.allocates.isSome_cases⟩
  | declare h => exact ⟨_, by simp, fun label => h.allocates.isSome_cases⟩
  | @join sources line h => exact ⟨_, hnext .merge line, fun label => h.allocates.isSome_cases⟩
  | say h => exact ⟨.entry, by simp, fun label hsome => Or.inr (h.isSome_iff.1 hsome)⟩
  | close h => exact ⟨.entry, by simp, fun label hsome => Or.inr (h.isSome_iff.1 hsome)⟩
  | jump _ _ h => exact ⟨.entry, by simp, fun label hsome => Or.inr (h.isSome_iff.1 hsome)⟩

theorem Sound.index_lt (h : Sound draft) {index line : Nat} {origin : Origin}
    (hsome : (draft.atlas (.synthetic index line origin)).isSome) : index < draft.minted :=
  h.minted _ (Atlas.isSome_of_iff.1 hsome) index line origin rfl

theorem Move.indexed (h : Move draft draft' mentions) (hsound : Sound draft)
    (hindexed : Indexed draft) : Indexed draft' := by
  obtain ⟨fresh, hindex, hfresh⟩ := h.exists_fresh
  intro index line line' origin origin' hsome hsome'
  rcases hfresh _ hsome with heq | hold
  · rcases hfresh _ hsome' with heq' | hold'
    · rw [← heq, Label.synthetic.injEq] at heq'
      exact ⟨heq'.2.1.symm, heq'.2.2.symm⟩
    · have hlt := hsound.index_lt hold'
      have := hindex index line origin heq.symm
      omega
  · rcases hfresh _ hsome' with heq' | hold'
    · have hlt := hsound.index_lt hold
      have := hindex index line' origin' heq'.symm
      omega
    · exact hindexed index line line' origin origin' hold hold'

theorem Moves.indexed (h : Moves mentions draft draft') (hsound : Sound draft)
    (hindexed : Indexed draft) : Indexed draft' :=
  h.preserve (fun _ _ _ hsound hmove => hmove.indexed hsound) hsound hindexed

/-! ## The end of a script -/

/-- Closing all bodies at the end of a script always succeeds. -/
theorem Tidy.finish (h : Tidy draft) :
    ∃ closed, draft.closeMany draft.lastLine draft.stack.length = .ok closed ∧
      draft.finish = .ok (StoryGraph.ofBlocks closed.blocks) ∧ Moves [] draft closed ∧
      Sound closed := by
  obtain ⟨closed, hclosed, hmoves, htidy, -⟩ := h.closeMany draft.lastLine draft.stack.length
  exact ⟨closed, hclosed, bind_eq_ok.2 ⟨closed, hclosed, rfl⟩, hmoves, htidy.sound⟩

theorem Sound.atlas_story (h : Sound draft) :
    (StoryGraph.ofBlocks draft.blocks).atlas = draft.atlas :=
  StoryGraph.atlas_ofBlocks h.nodup h.entry_mem

/-! ## Scripts -/

theorem Sound.proper (h : Sound draft) (hfiled : Filed draft) :
    ∀ block ∈ draft.blocks, block.Proper fun target => target ∈ draft.blocks.map Block.label := by
  intro block hblock
  have hatlas : draft.atlas block.label = some block :=
    (Atlas.of_eq_some_iff h.nodup).2 ⟨hblock, rfl⟩
  exact (hfiled block.label block hatlas).imp fun _ => Atlas.isSome_of_iff.1

/-- Closed blocks are found again, with the exits that they had. -/
def KeepsClosed (blocks blocks' : List (Block κ)) : Prop :=
  ∀ block ∈ blocks, block.disabled = true → ∃ block' ∈ blocks', block'.label = block.label ∧
    block'.next = block.next ∧ block'.disabled = true ∧ block'.deadend = block.deadend

theorem Moves.keepsClosed (h : Moves mentions draft draft') (hsound : Sound draft) :
    KeepsClosed draft.blocks draft'.blocks := by
  intro block hblock hclosed
  obtain ⟨block', hblock', hkeeps⟩ :=
    h.keeps hsound ((Atlas.of_eq_some_iff hsound.nodup).2 ⟨hblock, rfl⟩)
  obtain ⟨hmem, hlabel⟩ := Atlas.label_of_eq_some hblock'
  exact ⟨block', hmem, hlabel, hkeeps hclosed⟩

/-- A block that has been closed stays as it is up to the end of the script. -/
theorem Tidy.keepsClosed (h : Tidy draft) {reader : LineReader κ} {lines : List (String × Nat)}
    (hlater : draft.feedAll reader lines = .ok later) :
    KeepsClosed draft.blocks later.blocks ∧
      ∃ story, later.finish = .ok story ∧ KeepsClosed draft.blocks story.blocks := by
  obtain ⟨htidy, hmoves⟩ := h.feedAll hlater
  obtain ⟨closed, -, hfinish, hclosing, hsound⟩ := htidy.finish
  refine ⟨hmoves.keepsClosed h.sound, _, hfinish, ?_⟩
  intro block hblock hclosed
  obtain ⟨block', hmem, hkept⟩ :=
    (hmoves.trans hclosing).keepsClosed h.sound block hblock hclosed
  refine ⟨block', ?_, hkept⟩
  rw [StoryGraph.mem_blocks_iff, hsound.atlas_story, Atlas.of_eq_some_iff hsound.nodup]
  exact ⟨hmem, rfl⟩

end Draft

end Playthrough
