import Playthrough.Proofs.Story.Merge

/-!
# What joining leaves

Joining two blocks takes no block out of reach: what led to either of them leads to the joined block.
The pass starts with the blocks in reach of the entry, so all that it leaves is in reach too, and a
reduced story has exactly the joined blocks.

* `Merging.Joins`: what a turn that joins two blocks does to the whole state of the pass.
* `Merging.step_induction`, `Merging.run_induction`: what every kind of turn keeps, the pass keeps.
* `Atlas.Connected`: all blocks are in reach; `connected_run` shows it of what the pass leaves.
* `blocks_reduce`: a reduced story has the blocks of the joined one.
-/

namespace Playthrough

open Relation

variable {κ : Type}

/-! ## Reach -/

namespace Atlas

/-- All blocks are in reach of the entry. -/
def Connected (atlas : Atlas κ) : Prop :=
  ∀ label, (atlas label).isSome → atlas.Reaches .entry label

namespace Contracts

variable {atlas atlas' : Atlas κ} {head tail : Block κ} {kept : Label}
variable (h : Contracts atlas atlas' head tail kept)

include h

/-- After joining there is the joined block, and those that were not joined. -/
theorem isSome_iff {label : Label} : (atlas' label).isSome ↔
    label = kept ∨ label ≠ head.label ∧ label ≠ tail.label ∧ (atlas label).isSome := by
  constructor
  · intro hsome
    obtain ⟨block, hblock⟩ := Option.isSome_iff_exists.1 hsome
    rcases h.block_cases hblock with ⟨rfl, -⟩ | ⟨hhead, htail, old, hold, -⟩
    · exact Or.inl rfl
    · exact Or.inr ⟨hhead, htail, by simp [hold]⟩
  · rintro (rfl | ⟨hhead, htail, hsome⟩)
    · simp [h.joined]
    · simpa [h.others label hhead htail] using hsome

theorem ne_kept {label : Label} (hhead : label ≠ head.label) (htail : label ≠ tail.label) :
    label ≠ kept := by
  rcases h.kept_eq with heq | heq
  · rwa [heq]
  · rwa [heq]

/-- An exit stays, but both blocks are now found under the label of the joined one. -/
theorem leads_after {source target : Label} (hleads : atlas.Leads source target)
    (htarget : target ≠ tail.label) :
    atlas'.Leads (Label.moved tail.label kept source) (Label.moved head.label kept target) :=
  h.leads_iff.2 ⟨source, target, hleads, htarget, rfl, rfl⟩

/-- What was in reach still is; `tail` is reached as part of the joined block. -/
theorem reaches_after {label : Label} (hreach : atlas.Reaches .entry label) :
    (label ≠ tail.label → atlas'.Reaches .entry (Label.moved head.label kept label)) ∧
      (label = tail.label → atlas'.Reaches .entry kept) := by
  induction hreach with
  | refl =>
    refine ⟨fun _ => ?_, fun htail => absurd htail.symm h.tail_ne_entry⟩
    rw [h.entry_kept]
    exact .refl
  | @tail source target _ hleads ih =>
    by_cases htarget : target = tail.label
    · -- only `head` leads to `tail`, and it was reached before
      subst htarget
      refine ⟨fun hne => absurd rfl hne, fun _ => ?_⟩
      have hsource : source = head.label := h.only source hleads
      have hhead := ih.1 (by rw [hsource]; exact h.ne.symm)
      rwa [hsource, Label.moved, if_pos rfl] at hhead
    · refine ⟨fun _ => ?_, fun hne => absurd hne htarget⟩
      have hstep := h.leads_after hleads htarget
      by_cases hsource : source = tail.label
      · have hreach := ih.2 hsource
        rw [hsource, Label.moved, if_pos rfl] at hstep
        exact hreach.tail hstep
      · have hhead : source ≠ head.label := by
          rintro rfl
          obtain ⟨block, hblock, hmem⟩ := hleads
          rw [h.head_eq, Option.some.injEq] at hblock
          rw [← hblock, h.next_eq, List.mem_singleton] at hmem
          exact htarget hmem
        have hreach := ih.1 hsource
        rw [Label.moved, if_neg hhead] at hreach
        rw [Label.moved, if_neg hsource] at hstep
        exact hreach.tail hstep

theorem connected (hconnected : atlas.Connected) : atlas'.Connected := by
  intro label hsome
  rcases h.isSome_iff.1 hsome with rfl | ⟨hhead, htail, hsome⟩
  · have hreach := (h.reaches_after (hconnected head.label (by simp [h.head_eq]))).1 h.ne.symm
    rwa [Label.moved, if_pos rfl] at hreach
  · have hreach := (h.reaches_after (hconnected label hsome)).1 htail
    rwa [Label.moved, if_neg hhead] at hreach

end Contracts

end Atlas

/-! ## Turns of the pass -/

namespace Merging

variable {state after : Merging κ} {head tail : Block κ} {label kept : Label}

/-- Two blocks become one, which is looked at again. Of the labels of the two the declared one is
    kept, and the first if both were minted. -/
structure Joins (state after : Merging κ) (head tail : Block κ) (kept : Label) : Prop
    extends Atlas.Contracts state.atlas after.atlas head tail kept where
  head_unsettled : head.label ∉ state.settled
  tail_unsettled : tail.label ∉ state.settled
  settled_eq : after.settled = state.settled
  queue_eq : after.queue = state.queue ++ [kept]
  kept_rule : kept = head.label ∧ tail.label.isSynthetic = true ∨
    kept = tail.label ∧ head.label.isSynthetic = true ∧ tail.label.isSynthetic = false

theorem unsettled_of_follower (h : state.follower? head = some tail) :
    tail.label ∉ state.settled := by
  have hpending := mem_pending_of_follower h
  simpa using (List.mem_filter.1 hpending).2

/-- Looking at a label does nothing, settles a block, or joins two blocks. -/
theorem Exact.turn_cases (h : Exact state) (hturn : Turn state label after) :
    (after = state ∧ (label ∈ state.settled ∨ state.atlas label = none)) ∨
    (∃ block, block.label = label ∧ state.atlas label = some block ∧ label ∉ state.settled ∧
      (∀ tail, state.follower? block = some tail →
        block.label.isSynthetic = false ∧ tail.label.isSynthetic = false) ∧
      after = state.settle block) ∨
    ∃ head tail kept, head.label = label ∧ Joins state after head tail kept := by
  cases hturn with
  | skip hskip => exact Or.inl ⟨rfl, hskip⟩
  | @forward head tail hhead hsettled hfollower hminted =>
    exact Or.inr (Or.inr ⟨head, tail, head.label, rfl,
      { toContracts := contracts_absorbForward h hhead hfollower hminted
        head_unsettled := hsettled
        tail_unsettled := unsettled_of_follower hfollower
        settled_eq := rfl
        queue_eq := rfl
        kept_rule := Or.inl ⟨rfl, hminted⟩ }⟩)
  | @backward head tail hhead hsettled hfollower hminted hdeclared =>
    exact Or.inr (Or.inr ⟨head, tail, tail.label, rfl,
      { toContracts := contracts_absorbBackward h hhead hfollower hminted
        head_unsettled := hsettled
        tail_unsettled := unsettled_of_follower hfollower
        settled_eq := rfl
        queue_eq := rfl
        kept_rule := Or.inr ⟨rfl, hminted, hdeclared⟩ }⟩)
  | @settle block hblock hsettled hfollower =>
    exact Or.inr (Or.inl ⟨block, rfl, hblock, hsettled, hfollower, rfl⟩)

/-- So does a turn that takes a label off the queue. -/
theorem Exact.step_cases (h : Exact state) {queue : List Label}
    (hqueue : state.queue = label :: queue) :
    (state.step = { state with queue } ∧ (label ∈ state.settled ∨ state.atlas label = none)) ∨
    (∃ block, block.label = label ∧ state.atlas label = some block ∧ label ∉ state.settled ∧
      (∀ tail, state.follower? block = some tail →
        block.label.isSynthetic = false ∧ tail.label.isSynthetic = false) ∧
      state.step = settle block { state with queue }) ∨
    ∃ head tail kept, head.label = label ∧ Joins { state with queue } state.step head tail kept := by
  have hpopped : Exact { state with queue } := h.congr rfl rfl
  have hturn : Turn { state with queue } label state.step := by
    unfold Merging.step
    rw [hqueue]
    exact turn_look label { state with queue }
  exact hpopped.turn_cases hturn

section Induction

variable {motive : Merging κ → Prop}
  (hskip : ∀ (state : Merging κ) (label : Label) (queue : List Label), Exact state →
    motive state → state.queue = label :: queue →
    label ∈ state.settled ∨ state.atlas label = none → motive { state with queue })
  (hsettle : ∀ (state : Merging κ) (block : Block κ) (queue : List Label), Exact state →
    motive state → state.queue = block.label :: queue →
    state.atlas block.label = some block → block.label ∉ state.settled →
    (∀ tail, state.follower? block = some tail →
      block.label.isSynthetic = false ∧ tail.label.isSynthetic = false) →
    motive (settle block { state with queue }))
  (hjoin : ∀ (state after : Merging κ) (head tail : Block κ) (kept : Label)
    (queue : List Label), Exact { state with queue } → Exact after → motive state →
    state.queue = head.label :: queue → Joins { state with queue } after head tail kept →
    motive after)

include hskip hsettle hjoin

/-- What is kept when a label is dropped, a block is settled and two blocks are joined, a turn
    keeps. -/
theorem step_induction (state : Merging κ) (hexact : Exact state) (h : motive state) :
    motive state.step := by
  cases hqueue : state.queue with
  | nil =>
    unfold step
    rwa [hqueue]
  | cons label queue =>
    rcases hexact.step_cases hqueue with ⟨hstep, hdropped⟩ |
      ⟨block, rfl, hblock, hsettled, hfollower, hstep⟩ | ⟨head, tail, kept, rfl, hjoins⟩
    · rw [hstep]
      exact hskip state label queue hexact h hqueue hdropped
    · rw [hstep]
      exact hsettle state block queue hexact h hqueue hblock hsettled hfollower
    · exact hjoin state _ head tail kept queue (hexact.congr rfl rfl) hexact.step.1 h hqueue hjoins

/-- So does the pass. -/
theorem run_induction (state : Merging κ) (hexact : Exact state) (h : motive state) :
    motive state.run ∧ state.run.queue = [] := by
  fun_induction run state with
  | case1 state hqueue => exact ⟨h, hqueue⟩
  | case2 state label queue hqueue ih =>
    exact ih hexact.step.1 (step_induction hskip hsettle hjoin state hexact h)

end Induction

/-- The pass leaves all blocks in reach. -/
theorem connected_run (hexact : Exact state) (h : state.atlas.Connected) :
    state.run.atlas.Connected := by
  refine (run_induction (motive := fun state => state.atlas.Connected) ?_ ?_ ?_ state hexact h).1
  · intro state label queue _ h _ _
    exact h
  · intro state block queue _ h _ _ _ _
    exact h
  · intro state after head tail kept queue _ _ h _ hjoins
    exact hjoins.connected h

end Merging

/-! ## The joined story -/

namespace StoryGraph

theorem mem_blocks_iff (story : StoryGraph κ) {block : Block κ} :
    block ∈ story.blocks ↔ story.atlas block.label = some block := by
  rw [Atlas.of_eq_some_iff story.nodup_labels, and_iff_left rfl]

/-- A story is determined by which blocks its labels stand for. -/
theorem eq_of_atlas {first second : StoryGraph κ} (h : first.atlas = second.atlas) :
    first = second := by
  have hmem : ∀ block, block ∈ first.blocks ↔ block ∈ second.blocks := by
    intro block
    rw [mem_blocks_iff, mem_blocks_iff, h]
  have hblocks : first.blocks = second.blocks := first.ascending.ext second.ascending hmem
  cases first
  cases second
  simpa using hblocks

variable {story joined : StoryGraph κ}

theorem atlas_unjoined {reached : List Label} (h : story.reachable = .ok reached) {label : Label}
    (hreach : story.atlas.Reaches .entry label) :
    (story.unjoined reached).atlas label = story.atlas label := by
  show Atlas.of (story.blocks.filter (·.label ∈ reached)) label = _
  rw [Atlas.of_filter story.blocks (· ∈ reached)]
  simp [(mem_reachable_iff h label).2 hreach]

theorem isSome_unjoined_iff {reached : List Label} (h : story.reachable = .ok reached)
    {label : Label} :
    ((story.unjoined reached).atlas label).isSome ↔ story.atlas.Reaches .entry label := by
  constructor
  · intro hsome
    obtain ⟨block, hblock⟩ := Option.isSome_iff_exists.1 hsome
    obtain ⟨hmem, rfl⟩ := Atlas.label_of_eq_some hblock
    rw [← mem_reachable_iff h]
    simpa using (List.mem_filter.1 hmem).2
  · intro hreach
    rw [atlas_unjoined h hreach]
    exact isSome_of_reachable h hreach

theorem connected_unjoined {reached : List Label} (h : story.reachable = .ok reached) :
    (story.unjoined reached).atlas.Connected := by
  intro label hsome
  rw [isSome_unjoined_iff h] at hsome
  exact hsome.transfer fun _ => atlas_unjoined h

theorem atlas_joined {reached : List Label} (h : story.reachable = .ok reached) :
    (ofBlocks (story.unjoined reached).run.blocks).atlas = (story.unjoined reached).run.atlas := by
  have hrun := (Merging.run_spec _ (exact_unjoined h)).1
  exact atlas_ofBlocks hrun.nodup hrun.entry_mem

theorem connected_joined (h : story.joined = .ok joined) : joined.atlas.Connected := by
  obtain ⟨reached, hreached, rfl⟩ := joined_eq_ok h
  rw [atlas_joined hreached]
  exact Merging.connected_run (exact_unjoined hreached) (connected_unjoined hreached)

theorem filter_reached {reached : List Label} (h : story.reachable = .ok reached)
    (hconnected : story.atlas.Connected) :
    story.blocks.filter (·.label ∈ reached) = story.blocks := by
  refine List.filter_eq_self.2 fun block hblock => ?_
  have hsome : (story.atlas block.label).isSome :=
    Atlas.isSome_of_iff.2 (List.mem_map_of_mem hblock)
  simpa [mem_reachable_iff h] using hconnected block.label hsome

theorem ofBlocks_blocks (story : StoryGraph κ) : ofBlocks story.blocks = story :=
  eq_of_atlas (atlas_ofBlocks story.nodup_labels story.entry_mem)

/-- A reduced story has all the joined blocks: none of them is out of reach. -/
theorem blocks_reduce [FiniteCheck κ] {tally : Tally κ} {graph : CostedGraph κ}
    (h : story.reduce tally = .ok graph) :
    ∃ joined, story.joined = .ok joined ∧
      graph.blocks.map CostedBlock.block = joined.blocks := by
  obtain ⟨joined, reached, hjoined, hreached, hblocks, -⟩ := reduce_spec h
  exact ⟨joined, hjoined, hblocks.trans (filter_reached hreached (connected_joined hjoined))⟩

end StoryGraph

end Playthrough
