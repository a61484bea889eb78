import Playthrough.Proofs.Story.Joined

/-!
# Nothing is left to join

The pass looks at a label until its block is settled and never comes back to it, although later turns
still rename the exits of settled blocks. This is enough: a block that has more than one source keeps
them all, whatever is joined around it, so a settled block never becomes fit to be joined again. The
result has no two blocks that could be joined, and reducing it once more changes nothing.

* `Atlas.Joinable`: two blocks that the pass joins when it looks at the first.
* `Merging.Known`, `Merging.Stable`: what is settled stays settled.
* `normal_joined`: no blocks of a joined story can be joined.
* `reduce_toGraph`: reducing a reduced story gives the same story, costs included.
-/

namespace Playthrough

open Relation

variable {κ : Type}

/-! ## Blocks that can be joined -/

namespace Atlas

/-- Two blocks are always played together, and at least one of them has a minted label. -/
structure Joinable (atlas : Atlas κ) (first second : Label) : Prop where
  next_eq : ∃ block, atlas first = some block ∧ block.next = [second]
  isSome : (atlas second).isSome
  ne : second ≠ first
  ne_entry : second ≠ .entry
  only : ∀ source, atlas.Leads source second → source = first
  minted : first.isSynthetic = true ∨ second.isSynthetic = true

/-- No two blocks can be joined. -/
def Normal (atlas : Atlas κ) : Prop := ∀ first second, ¬ atlas.Joinable first second

/-- A block that joining leaves alone could be joined before if it can be afterwards. -/
theorem Contracts.joinable_before {atlas atlas' : Atlas κ} {head tail : Block κ} {kept : Label}
    (h : Contracts atlas atlas' head tail kept)
    (hminted : kept.isSynthetic = true → head.label.isSynthetic = true) {first second : Label}
    (hhead : first ≠ head.label) (htail : first ≠ tail.label)
    (hjoinable : atlas'.Joinable first second) : ∃ old, atlas.Joinable first old := by
  have hkept := h.ne_kept hhead htail
  obtain ⟨block, hblock, hnext⟩ := hjoinable.next_eq
  rcases h.block_cases hblock with ⟨heq, -⟩ | ⟨-, -, old, hold, rfl⟩
  · exact absurd heq hkept
  rw [Block.next_relink] at hnext
  obtain ⟨target, htarget, rfl⟩ := List.map_eq_singleton_iff.1 hnext
  have hleads : atlas.Leads first target := ⟨old, hold, by simp [htarget]⟩
  have htarget_tail : target ≠ tail.label := by
    rintro rfl
    exact hhead (h.only first hleads)
  refine ⟨target, ⟨old, hold, htarget⟩, ?_, ?_, ?_, ?_, ?_⟩
  · by_cases heq : target = head.label
    · simp [heq, h.head_eq]
    · have hsome := hjoinable.isSome
      rw [Label.moved, if_neg heq, h.others target heq htarget_tail, Option.isSome_map] at hsome
      exact hsome
  · rintro rfl
    have hne := hjoinable.ne
    rw [Label.moved, if_neg hhead] at hne
    exact hne rfl
  · rintro rfl
    exact hjoinable.ne_entry h.entry_kept
  · -- every source is still one afterwards, and `tail` has become the joined block
    intro source hsource
    have hmoved := hjoinable.only _ (h.leads_after hsource htarget_tail)
    rw [Label.moved] at hmoved
    split at hmoved
    · exact absurd hmoved.symm hkept
    · exact hmoved
  · refine hjoinable.minted.imp_right fun hmoved => ?_
    rw [Label.moved] at hmoved
    split at hmoved
    · rename_i heq
      rw [heq]
      exact hminted hmoved
    · exact hmoved

end Atlas

/-! ## Settled blocks -/

namespace Merging

variable {state after : Merging κ} {head tail block : Block κ} {kept label : Label}

theorem Joins.joinable (h : Joins state after head tail kept) :
    state.atlas.Joinable head.label tail.label where
  next_eq := ⟨head, h.head_eq, h.next_eq⟩
  isSome := by simp [h.tail_eq]
  ne := h.ne
  ne_entry := h.tail_ne_entry
  only := h.only
  minted := by
    rcases h.kept_rule with ⟨-, hminted⟩ | ⟨-, hminted, -⟩
    · exact Or.inr hminted
    · exact Or.inl hminted

theorem Joins.head_of_kept (h : Joins state after head tail kept)
    (hminted : kept.isSynthetic = true) : head.label.isSynthetic = true := by
  rcases h.kept_rule with ⟨rfl, -⟩ | ⟨-, hhead, -⟩
  · exact hminted
  · exact hhead

/-- Two blocks that can be joined are joined, unless the second is settled. -/
theorem Exact.follower_of_joinable (h : Exact state) (hblock : state.atlas block.label = some block)
    {second : Label} (hjoinable : state.atlas.Joinable block.label second)
    (hsecond : second ∉ state.settled) :
    ∃ tail, tail.label = second ∧ state.follower? block = some tail := by
  obtain ⟨found, hfound, hnext⟩ := hjoinable.next_eq
  rw [hblock, Option.some.injEq] at hfound
  subst hfound
  obtain ⟨tail, htail⟩ := Option.isSome_iff_exists.1 hjoinable.isSome
  have honce : reachedOnce second state.incoming = true := by
    obtain ⟨sources, hlookup, hnodup, hsources⟩ := h.sources second tail htail
    have hall : ∀ source, source ∈ sources ↔ source = block.label := by
      intro source
      rw [hsources]
      refine ⟨hjoinable.only source, ?_⟩
      rintro rfl
      exact ⟨block, hblock, by simp [hnext]⟩
    have hperm : sources.Perm [block.label] :=
      (List.perm_ext_iff_of_nodup hnodup (List.nodup_singleton _)).2 (by simpa using hall)
    rw [List.perm_singleton.1 hperm] at hlookup
    simp [reachedOnce, hlookup]
  refine ⟨tail, (Atlas.label_of_eq_some htail).2, ?_⟩
  rw [follower?, hnext]
  dsimp only
  rw [if_pos ⟨hjoinable.ne, hjoinable.ne_entry, hsecond, honce⟩]
  exact htail

/-- The pass has come across a label. -/
def Known (state : Merging κ) (label : Label) : Prop := label ∈ state.settled ∨ label ∈ state.queue

/-- Between two turns: settled blocks have nothing to join, and all that they lead to is known. What
    is known, but for the entry, a settled block leads to. -/
structure Stable (state : Merging κ) : Prop where
  started : state.Known .entry
  passed : ∀ label ∈ state.settled, ∀ target, state.atlas.Leads label target →
    (state.atlas target).isSome → state.Known target
  led : ∀ label, state.Known label → (state.atlas label).isSome →
    label = .entry ∨ ∃ source ∈ state.settled, state.atlas.Leads source label
  done : ∀ label ∈ state.settled, ∀ other, ¬ state.atlas.Joinable label other

theorem stable_start (blocks : List (Block κ)) (incoming : StoryGraph.Incoming) :
    Stable (start blocks incoming) where
  started := Or.inr List.mem_cons_self
  passed := by simp [start]
  led := by
    intro label hlabel _
    exact Or.inl (by simpa [start, Known] using hlabel)
  done := by simp [start]

/-- A label that is settled, or whose block is gone, is dropped from the queue. -/
theorem Stable.skip {queue : List Label} (h : Stable state) (hexact : Exact state)
    (hqueue : state.queue = label :: queue)
    (hskip : label ∈ state.settled ∨ state.atlas label = none) :
    Stable { state with queue } := by
  have hknown : ∀ other, (state.atlas other).isSome →
      (Known { state with queue } other ↔ state.Known other) := by
    intro other hsome
    simp only [Known, hqueue, List.mem_cons]
    refine ⟨fun hother => hother.imp_right Or.inr, ?_⟩
    rintro (hother | rfl | hother)
    · exact Or.inl hother
    · rcases hskip with hsettled | hnone
      · exact Or.inl hsettled
      · simp [hnone] at hsome
    · exact Or.inr hother
  refine ⟨(hknown .entry (Atlas.isSome_of_iff.2 hexact.entry_mem)).2 h.started, ?_, ?_, h.done⟩
  · intro source hsource target hleads hsome
    exact (hknown target hsome).2 (h.passed source hsource target hleads hsome)
  · intro other hother hsome
    exact h.led other ((hknown other hsome).1 hother) hsome

/-- Settling a block makes its exits known. -/
theorem known_settle {queue : List Label} (hqueue : state.queue = block.label :: queue) :
    (settle block { state with queue }).Known label ↔ state.Known label ∨ label ∈ block.next := by
  simp only [Known, settle, hqueue, List.mem_cons, List.mem_append, List.mem_filter,
    decide_eq_true_eq]
  tauto

/-- A block that the pass does not join cannot be joined: had its only exit been settled before, some
    other block would lead there too. -/
theorem Stable.not_joinable (h : Stable state) (hexact : Exact state)
    (hblock : state.atlas block.label = some block) (hunsettled : block.label ∉ state.settled)
    (hfollower : ∀ tail, state.follower? block = some tail →
      block.label.isSynthetic = false ∧ tail.label.isSynthetic = false) (second : Label) :
    ¬ state.atlas.Joinable block.label second := by
  intro hjoinable
  have hsecond : second ∉ state.settled := by
    intro hsettled
    rcases h.led second (Or.inl hsettled) hjoinable.isSome with hentry | ⟨source, hsource, hleads⟩
    · exact hjoinable.ne_entry hentry
    · exact hunsettled (hjoinable.only source hleads ▸ hsource)
  obtain ⟨tail, rfl, htail⟩ := hexact.follower_of_joinable hblock hjoinable hsecond
  obtain ⟨hfirst, hsecond⟩ := hfollower tail htail
  have hminted := hjoinable.minted
  rw [hfirst, hsecond] at hminted
  simp at hminted

theorem Stable.settle {queue : List Label} (h : Stable state) (hexact : Exact state)
    (hqueue : state.queue = block.label :: queue) (hblock : state.atlas block.label = some block)
    (hunsettled : block.label ∉ state.settled)
    (hfollower : ∀ tail, state.follower? block = some tail →
      block.label.isSynthetic = false ∧ tail.label.isSynthetic = false) :
    Stable (Merging.settle block { state with queue }) := by
  refine ⟨(known_settle hqueue).2 (Or.inl h.started), ?_, ?_, ?_⟩
  · intro source hsource target hleads hsome
    rw [known_settle hqueue]
    rcases List.mem_cons.1 hsource with rfl | hsource
    · obtain ⟨found, hfound, htarget⟩ := hleads
      obtain rfl : block = found := Option.some.inj (hblock.symm.trans hfound)
      exact Or.inr htarget
    · exact Or.inl (h.passed source hsource target hleads hsome)
  · intro other hother hsome
    rcases (known_settle hqueue).1 hother with hknown | hnext
    · rcases h.led other hknown hsome with hentry | ⟨source, hsource, hleads⟩
      · exact Or.inl hentry
      · exact Or.inr ⟨source, List.mem_cons_of_mem block.label hsource, hleads⟩
    · exact Or.inr ⟨block.label, List.mem_cons_self, block, hblock, hnext⟩
  · intro other hother second
    rcases List.mem_cons.1 hother with rfl | hother
    · exact h.not_joinable hexact hblock hunsettled hfollower second
    · exact h.done other hother second

namespace Joins

variable (h : Joins state after head tail kept)

include h

theorem ne_of_settled (hlabel : label ∈ state.settled) :
    label ≠ head.label ∧ label ≠ tail.label := by
  refine ⟨?_, ?_⟩
  · rintro rfl
    exact h.head_unsettled hlabel
  · rintro rfl
    exact h.tail_unsettled hlabel

/-- What was known still is, under the label that its block has now. -/
theorem known_after (hlabel : label = head.label ∨ state.Known label) :
    after.Known (Label.moved head.label kept label) := by
  rw [Known, h.settled_eq, h.queue_eq]
  by_cases hhead : label = head.label
  · rw [Label.moved, if_pos hhead]
    exact Or.inr (by simp)
  · rw [Label.moved, if_neg hhead]
    exact (hlabel.resolve_left hhead).imp_right (List.mem_append_left _)

/-- What is known was so before, under the label that its block had. -/
theorem known_before (hlabel : after.Known label) (hsome : (after.atlas label).isSome) :
    ∃ old, (old = head.label ∨ state.Known old) ∧ (state.atlas old).isSome ∧
      label = Label.moved head.label kept old := by
  rw [Known, h.settled_eq, h.queue_eq] at hlabel
  rcases h.isSome_iff.1 hsome with rfl | ⟨hhead, htail, hsome⟩
  · exact ⟨head.label, Or.inl rfl, by simp [h.head_eq], by rw [Label.moved, if_pos rfl]⟩
  · refine ⟨label, Or.inr (hlabel.imp_right fun hmem => ?_), hsome,
      by rw [Label.moved, if_neg hhead]⟩
    refine (List.mem_append.1 hmem).resolve_right fun hkept => ?_
    exact h.ne_kept hhead htail (List.mem_singleton.1 hkept)

/-- The exits of settled blocks are renamed at most. -/
theorem leads_settled_iff {source target : Label} (hsource : source ∈ state.settled) :
    after.atlas.Leads source target ↔ ∃ old, state.atlas.Leads source old ∧ old ≠ tail.label ∧
      target = Label.moved head.label kept old := by
  obtain ⟨hhead, htail⟩ := h.ne_of_settled hsource
  rw [h.leads_iff]
  constructor
  · rintro ⟨source', old, hleads, hold, heq, rfl⟩
    refine ⟨old, ?_, hold, rfl⟩
    rw [Label.moved] at heq
    split at heq
    · exact absurd heq (h.ne_kept hhead htail)
    · rwa [heq]
  · rintro ⟨old, hleads, hold, rfl⟩
    exact ⟨source, old, hleads, hold, by rw [Label.moved, if_neg htail], rfl⟩

end Joins

/-- Joining two blocks that are not settled leaves what is settled as it is. -/
theorem Stable.join {queue : List Label} (h : Stable state)
    (hqueue : state.queue = head.label :: queue)
    (hjoins : Joins { state with queue } after head tail kept) : Stable after := by
  have hentry : Label.moved head.label kept .entry = .entry := hjoins.entry_kept
  have hknown : ∀ label, state.Known label ↔
      label = head.label ∨ Known { state with queue } label := by
    intro label
    simp only [Known, hqueue, List.mem_cons]
    tauto
  constructor
  · rw [← hentry]
    exact hjoins.known_after ((hknown .entry).1 h.started)
  · intro source hsource target hleads hsome
    rw [hjoins.settled_eq] at hsource
    obtain ⟨old, hold, htail, rfl⟩ := (hjoins.leads_settled_iff hsource).1 hleads
    have hold_some : (state.atlas old).isSome := by
      by_cases hhead : old = head.label
      · rw [hhead]
        exact Option.isSome_iff_exists.2 ⟨head, hjoins.head_eq⟩
      · rw [Label.moved, if_neg hhead, hjoins.others old hhead htail, Option.isSome_map] at hsome
        exact hsome
    exact hjoins.known_after ((hknown old).1 (h.passed source hsource old hold hold_some))
  · intro label hlabel hsome
    obtain ⟨old, hold, hold_some, rfl⟩ := hjoins.known_before hlabel hsome
    rw [hjoins.settled_eq]
    rcases h.led old ((hknown old).2 hold) hold_some with rfl | ⟨source, hsource, hleads⟩
    · exact Or.inl hentry
    · refine Or.inr ⟨source, hsource, (hjoins.leads_settled_iff hsource).2 ⟨old, hleads, ?_, rfl⟩⟩
      rintro rfl
      exact (hjoins.ne_of_settled hsource).1 (hjoins.only source hleads)
  · intro label hlabel other hjoinable
    rw [hjoins.settled_eq] at hlabel
    obtain ⟨hhead, htail⟩ := hjoins.ne_of_settled hlabel
    obtain ⟨old, hold⟩ := hjoins.joinable_before hjoins.head_of_kept hhead htail hjoinable
    exact h.done label hlabel old hold

theorem stable_run (hexact : Exact state) (h : Stable state) :
    Stable state.run ∧ state.run.queue = [] := by
  refine run_induction ?_ ?_ ?_ state hexact h
  · intro state label queue hexact h hqueue hskip
    exact h.skip hexact hqueue hskip
  · intro state block queue hexact h hqueue hblock hunsettled hfollower
    exact h.settle hexact hqueue hblock hunsettled hfollower
  · intro state after head tail kept queue _ _ h hqueue hjoins
    exact h.join hqueue hjoins

/-- When the queue is empty, everything in reach is settled. -/
theorem Stable.mem_settled (h : Stable state) (hqueue : state.queue = [])
    (hreach : state.atlas.Reaches .entry label) (hsome : (state.atlas label).isSome) :
    label ∈ state.settled := by
  induction hreach with
  | refl => simpa [Known, hqueue] using h.started
  | @tail source target _ hleads ih =>
    have hsource : (state.atlas source).isSome := by
      obtain ⟨block, hblock, -⟩ := hleads
      exact Option.isSome_iff_exists.2 ⟨block, hblock⟩
    simpa [Known, hqueue] using h.passed source (ih hsource) target hleads hsome

/-- The pass leaves no blocks that could be joined. -/
theorem normal_run (hexact : Exact state) (h : Stable state) (hconnected : state.atlas.Connected) :
    state.run.atlas.Normal := by
  obtain ⟨hstable, hqueue⟩ := stable_run hexact h
  intro first second hjoinable
  have hsome : (state.run.atlas first).isSome := by
    obtain ⟨block, hblock, -⟩ := hjoinable.next_eq
    exact Option.isSome_iff_exists.2 ⟨block, hblock⟩
  have hreach := connected_run hexact hconnected first hsome
  exact hstable.done first (hstable.mem_settled hqueue hreach hsome) second hjoinable

/-- A pass over blocks that cannot be joined changes none of them. -/
theorem run_blocks_of_normal (hexact : Exact state) (h : state.atlas.Normal) :
    state.run.blocks = state.blocks := by
  refine (run_induction (motive := fun other => other.blocks = state.blocks) ?_ ?_ ?_ state
    hexact rfl).1
  · intro other label queue _ hblocks _ _
    exact hblocks
  · intro other block queue _ hblocks _ _ _ _
    exact hblocks
  · intro other after head tail kept queue _ _ hblocks _ hjoins
    have hjoinable := hjoins.joinable
    rw [atlas] at hjoinable
    dsimp only at hjoinable
    rw [hblocks] at hjoinable
    exact absurd hjoinable (h head.label tail.label)

end Merging

/-! ## Reducing twice -/

namespace StoryGraph

variable {story joined : StoryGraph κ}

theorem normal_joined (h : story.joined = .ok joined) : joined.atlas.Normal := by
  obtain ⟨reached, hreached, rfl⟩ := joined_eq_ok h
  rw [atlas_joined hreached]
  exact Merging.normal_run (exact_unjoined hreached) (Merging.stable_start _ _)
    (connected_unjoined hreached)

/-- A story of which all blocks are in reach, and no two can be joined, stays as it is. -/
theorem joined_of_normal {reached : List Label} (hreached : story.reachable = .ok reached)
    (hconnected : story.atlas.Connected) (h : story.atlas.Normal) :
    story.joined = .ok story := by
  have hblocks : (story.unjoined reached).blocks = story.blocks := filter_reached hreached hconnected
  have hnormal : (story.unjoined reached).atlas.Normal := by
    rw [Merging.atlas, hblocks]
    exact h
  rw [joined_of_reachable hreached,
    Merging.run_blocks_of_normal (exact_unjoined hreached) hnormal, hblocks, ofBlocks_blocks]

/-- **Reducing twice.** A reduced story has no two blocks that could be joined. Reducing it once more
    succeeds, and gives the same story with the same costs. -/
theorem reduce_toGraph [FiniteCheck κ] {tally : Tally κ} {graph : CostedGraph κ}
    (h : story.reduce tally = .ok graph) :
    graph.atlas.Normal ∧ graph.toGraph.reduce tally = .ok graph := by
  obtain ⟨joined, hjoined, hblocks⟩ := blocks_reduce h
  have hnormal := normal_joined hjoined
  have hatlas : graph.atlas = joined.atlas := by rw [CostedGraph.atlas, hblocks, atlas]
  have hgraph : graph.toGraph = joined := by rw [CostedGraph.toGraph, hblocks, ofBlocks_blocks]
  rw [hatlas, hgraph]
  refine ⟨hnormal, ?_⟩
  obtain ⟨reached, hreached⟩ : ∃ reached, joined.reachable = .ok reached := by
    obtain ⟨joined', reached, hjoined', hreached, -⟩ := reduce_spec h
    rw [hjoined, Except.ok.injEq] at hjoined'
    exact ⟨reached, hjoined' ▸ hreached⟩
  have htwice := joined_of_normal hreached (connected_joined hjoined) hnormal
  rw [reduce, hjoined] at h
  rw [reduce, htwice]
  exact h

/-- The blocks of the town that were renamed after they were settled stay as they are. -/
theorem reduce_toGraph_town :
    townStory.reduce pauses = .ok townGraph ∧ townGraph.atlas.Normal ∧
      townGraph.toGraph.reduce pauses = .ok townGraph :=
  ⟨reduce_townStory, reduce_toGraph reduce_townStory⟩

end StoryGraph

end Playthrough
