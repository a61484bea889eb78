import Playthrough.Proofs.Story.Joined

/-!
# Exits that lead nowhere

A story can be reduced exactly when play cannot run into an exit without a block. The exploration
finds such an exit if there is one. After that all exits in reach lead to blocks, and joining blocks
keeps it so, since it moves the exits to a block along with the block.

* `Atlas.Closed`: every exit leads to a block; `closed_joined` shows it of joined stories.
* `reduce_eq_error_iff`: when the reduction fails.
-/

namespace Playthrough

open Relation

variable {κ : Type}

/-! ## Joining -/

namespace Atlas

/-- Every exit leads to a block. -/
def Closed (atlas : Atlas κ) : Prop :=
  ∀ source target, atlas.Leads source target → (atlas target).isSome

theorem Contracts.closed {atlas atlas' : Atlas κ} {head tail : Block κ} {kept : Label}
    (h : Contracts atlas atlas' head tail kept) (hclosed : atlas.Closed) : atlas'.Closed := by
  intro source target hleads
  obtain ⟨source', target', hleads', htail, -, rfl⟩ := h.leads_iff.1 hleads
  rw [h.isSome_iff]
  by_cases hhead : target' = head.label
  · rw [Label.moved, if_pos hhead]
    exact Or.inl rfl
  · rw [Label.moved, if_neg hhead]
    exact Or.inr ⟨hhead, htail, hclosed source' target' hleads'⟩

end Atlas

theorem Merging.closed_run {state : Merging κ} (hexact : Exact state) (h : state.atlas.Closed) :
    state.run.atlas.Closed := by
  refine (run_induction (motive := fun state => state.atlas.Closed) ?_ ?_ ?_ state hexact h).1
  · intro state label queue _ h _ _
    exact h
  · intro state block queue _ h _ _ _ _
    exact h
  · intro state after head tail kept queue _ _ h _ hjoins
    exact hjoins.closed h

namespace StoryGraph

variable {story joined : StoryGraph κ}

theorem closed_unjoined {reached : List Label} (h : story.reachable = .ok reached) :
    (story.unjoined reached).atlas.Closed := by
  intro source target hleads
  have hsource : ((story.unjoined reached).atlas source).isSome := by
    obtain ⟨block, hblock, -⟩ := hleads
    exact Option.isSome_iff_exists.2 ⟨block, hblock⟩
  have hreach := (isSome_unjoined_iff h).1 hsource
  rw [isSome_unjoined_iff h]
  obtain ⟨block, hblock, htarget⟩ := hleads
  rw [atlas_unjoined h hreach] at hblock
  exact hreach.tail ⟨block, hblock, htarget⟩

theorem closed_joined (h : story.joined = .ok joined) : joined.atlas.Closed := by
  obtain ⟨reached, hreached, rfl⟩ := joined_eq_ok h
  rw [atlas_joined hreached]
  exact Merging.closed_run (exact_unjoined hreached) (closed_unjoined hreached)

/-- A joined story can be explored again. -/
theorem exists_incoming_joined (h : story.joined = .ok joined) :
    ∃ incoming, joined.incoming = .ok incoming := by
  obtain ⟨reached, hreached⟩ := exists_reachable_iff.2 fun source target _ =>
    closed_joined h source target
  exact ⟨_, (incoming_eq joined).trans (bind_eq_ok.2 ⟨reached, hreached, rfl⟩)⟩

/-! ## Reducing -/

theorem joined_eq_error_iff {fault : Fault κ} :
    story.joined = .error fault ↔ story.reachable = .error fault := by
  constructor
  · intro h
    rcases bind_eq_error.1 h with hincoming | ⟨incoming, -, hrun⟩
    · exact incoming_eq_error_iff.1 hincoming
    · cases hrun
  · intro h
    exact bind_eq_error.2 (Or.inl (incoming_eq_error_iff.2 h))

theorem exists_mapM_costBlock [FiniteCheck κ] {tally : Tally κ}
    (hfinite : ∀ records, FiniteCheck.isFinite (tally records).total = true)
    (sourced : List (Block κ × List Label)) :
    ∃ costed, (sourced.mapM fun entry => costBlock tally entry.1 entry.2) = .ok costed := by
  induction sourced with
  | nil => exact ⟨[], rfl⟩
  | cons entry sourced ih =>
    obtain ⟨costed, hcosted⟩ := ih
    have hentry : costBlock tally entry.1 entry.2 = .ok
        { block := entry.1, incoming := entry.2, cost := tally entry.1.text } :=
      if_pos (hfinite entry.1.text)
    rw [List.mapM_cons]
    exact ⟨_, bind_eq_ok.2 ⟨_, hentry, bind_eq_ok.2 ⟨costed, hcosted, rfl⟩⟩⟩

/-- Once its blocks are joined, a story is reduced if costs are finite. -/
theorem exists_reduce_of_joined [FiniteCheck κ] {tally : Tally κ}
    (hfinite : ∀ records, FiniteCheck.isFinite (tally records).total = true)
    (h : story.joined = .ok joined) : ∃ graph, story.reduce tally = .ok graph := by
  obtain ⟨incoming, hincoming⟩ := exists_incoming_joined h
  obtain ⟨costed, hcosted⟩ := exists_mapM_costBlock hfinite (joined.blocks.filterMap fun block =>
    (incoming.lookup block.label).map fun sources => (block, sources))
  exact ⟨_, bind_eq_ok.2 ⟨joined, h, bind_eq_ok.2 ⟨incoming, hincoming,
    bind_eq_ok.2 ⟨costed, hcosted, rfl⟩⟩⟩⟩

/-- If costs are finite, a reduction can fail in the exploration only. -/
theorem reduce_eq_error_iff [FiniteCheck κ] {tally : Tally κ}
    (hfinite : ∀ records, FiniteCheck.isFinite (tally records).total = true) {fault : Fault κ} :
    story.reduce tally = .error fault ↔ story.reachable = .error fault := by
  rw [← joined_eq_error_iff]
  constructor
  · intro h
    rcases bind_eq_error.1 h with hjoined | ⟨joined, hjoined, -⟩
    · exact hjoined
    · obtain ⟨graph, hgraph⟩ := exists_reduce_of_joined hfinite hjoined
      rw [hgraph] at h
      cases h
  · intro h
    exact bind_eq_error.2 (Or.inl h)

end StoryGraph

end Playthrough
