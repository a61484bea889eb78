import Playthrough.Proofs.Story.Incoming

/-!
# Reduced stories

What the reduction of a story leaves: the joined blocks in reach of the entry, in the order of their
labels, each with the cost of its own records.

* `reduce_spec`: the blocks of a reduced story and their costs.
* `CostedGraph.Trim`: its blocks are exactly what play can reach; `trim_of_reduce` shows it.
-/

namespace Playthrough

open Relation

variable {κ : Type}

namespace StoryGraph

/-- The blocks that have an entry in the table of a story are those in reach. -/
theorem filter_isSome_lookup (graph : StoryGraph κ) (reached : List Label) :
    (graph.blocks.filter fun block =>
      ((incomingOf (graph.blocks.filter (·.label ∈ reached))).lookup block.label).isSome) =
      graph.blocks.filter (·.label ∈ reached) := by
  refine List.filter_congr ?_
  intro block hblock
  rw [Bool.eq_iff_iff, isSome_lookup_incomingOf]
  constructor
  · intro hlabel
    obtain ⟨other, hother, heq⟩ := List.mem_map.1 hlabel
    rw [← heq]
    exact (List.mem_filter.1 hother).2
  · intro hlabel
    exact List.mem_map_of_mem (List.mem_filter.2 ⟨hblock, hlabel⟩)

theorem map_fst_sourced (blocks : List (Block κ)) (incoming : Incoming) :
    (blocks.filterMap fun block =>
      (incoming.lookup block.label).map fun sources => (block, sources)).map Prod.fst =
      blocks.filter fun block => (incoming.lookup block.label).isSome := by
  rw [List.map_filterMap, ← List.filterMap_eq_filter]
  refine List.filterMap_congr ?_
  intro block _
  rw [Option.guard]
  cases incoming.lookup block.label <;> rfl

variable [FiniteCheck κ] {tally : Tally κ}

theorem costBlock_eq_ok {block : Block κ} {sources : List Label} {costed : CostedBlock κ}
    (h : costBlock tally block sources = .ok costed) :
    costed.block = block ∧ costed.cost = tally block.text := by
  unfold costBlock at h
  dsimp only at h
  split at h
  · cases h
    exact ⟨rfl, rfl⟩
  · cases h

theorem mapM_costBlock {sourced : List (Block κ × List Label)} {costed : List (CostedBlock κ)}
    (h : (sourced.mapM fun entry => costBlock tally entry.1 entry.2) = .ok costed) :
    costed.map CostedBlock.block = sourced.map Prod.fst ∧
      ∀ block ∈ costed, block.cost = tally block.block.text := by
  induction sourced generalizing costed with
  | nil =>
    cases h
    simp
  | cons entry sourced ih =>
    rw [List.mapM_cons] at h
    obtain ⟨head, hhead, h⟩ := bind_eq_ok.1 h
    obtain ⟨tail, htail, h⟩ := bind_eq_ok.1 h
    cases h
    obtain ⟨hblock, hcost⟩ := costBlock_eq_ok hhead
    obtain ⟨hblocks, hcosts⟩ := ih htail
    refine ⟨by simp [hblock, hblocks], ?_⟩
    intro block hmem
    rcases List.mem_cons.1 hmem with rfl | hmem
    · rw [hcost, hblock]
    · exact hcosts block hmem

/-- A reduced story has the joined blocks in reach, each with the cost of its records. -/
theorem reduce_spec {graph : StoryGraph κ} {reduced : CostedGraph κ}
    (h : graph.reduce tally = .ok reduced) :
    ∃ story reached, graph.joined = .ok story ∧ story.reachable = .ok reached ∧
      reduced.blocks.map CostedBlock.block = story.blocks.filter (·.label ∈ reached) ∧
      ∀ costed ∈ reduced.blocks, costed.cost = tally costed.block.text := by
  obtain ⟨story, hjoined, h⟩ := bind_eq_ok.1 h
  obtain ⟨incoming, hincoming, h⟩ := bind_eq_ok.1 h
  obtain ⟨costed, hcosted, h⟩ := bind_eq_ok.1 h
  cases h
  obtain ⟨reached, hreached, rfl⟩ := incoming_eq_ok hincoming
  obtain ⟨hblocks, hcosts⟩ := mapM_costBlock hcosted
  refine ⟨story, reached, hjoined, hreached, ?_, hcosts⟩
  rw [hblocks, map_fst_sourced]
  exact filter_isSome_lookup story reached

end StoryGraph

namespace CostedGraph

/-- The blocks of a graph are exactly what play can reach in it, in the order of their labels. -/
structure Trim (graph : CostedGraph κ) : Prop where
  ascending : Ascending CostedBlock.label graph.blocks
  isSome_iff : ∀ label, (graph.atlas label).isSome ↔ graph.atlas.Reaches .entry label

theorem trim_of_reduce [FiniteCheck κ] {tally : Tally κ} {story : StoryGraph κ}
    {graph : CostedGraph κ} (h : story.reduce tally = .ok graph) : graph.Trim := by
  obtain ⟨joined, reached, -, hreached, hblocks, -⟩ := StoryGraph.reduce_spec h
  have hatlas : ∀ label, joined.atlas.Reaches .entry label →
      graph.atlas label = joined.atlas label := by
    intro label hreach
    rw [← StoryGraph.mem_reachable_iff hreached] at hreach
    rw [CostedGraph.atlas, hblocks, Atlas.of_filter joined.blocks (· ∈ reached)]
    simp [hreach]
  constructor
  · have hlabels : Ascending Block.label (graph.blocks.map CostedBlock.block) := by
      rw [hblocks]
      exact joined.ascending.filter _
    exact List.pairwise_map.1 hlabels
  · intro label
    rw [Atlas.reaches_congr hatlas]
    constructor
    · intro hsome
      rw [CostedGraph.atlas, hblocks, Atlas.of_filter joined.blocks (· ∈ reached)] at hsome
      rw [← StoryGraph.mem_reachable_iff hreached]
      by_contra hnot
      simp [hnot] at hsome
    · intro hreach
      rw [hatlas label hreach]
      exact StoryGraph.isSome_of_reachable hreached hreach

end CostedGraph

/-! ## Stories with a loop -/

/-- The seconds of the pauses among records, in exact numbers. -/
def pauses : Tally Rat := fun records =>
  { total := (records.map fun record =>
      match record with
      | .pause seconds => seconds
      | _ => 0).sum }

/-- The days repeat until the player goes home or gets lost. -/
def loopStory : StoryGraph Rat := StoryGraph.ofBlocks
  [{ label := .entry, next := [.synthetic 0 1 .scope] },
   { label := .synthetic 0 1 .scope, text := [.pause 1], next := [.named "morning"] },
   { label := .named "morning", text := [.pause 2], next := [.named "evening"] },
   { label := .named "evening", text := [.pause 3],
     next := [.named "morning", .named "home", .named "lost"] },
   { label := .named "home", text := [.pause 4] },
   { label := .named "lost", text := [.pause 5], disabled := true, deadend := true }]

/-- The story `loopStory` when it is reduced: the minted block has joined the entry. -/
def loopGraph : CostedGraph Rat where
  blocks :=
    [{ block := { label := .entry, text := [.pause 1], next := [.named "morning"] }
       incoming := []
       cost := { total := 1 } },
     { block :=
         { label := .named "evening", text := [.pause 3],
           next := [.named "morning", .named "home", .named "lost"] }
       incoming := [.named "morning"]
       cost := { total := 3 } },
     { block := { label := .named "home", text := [.pause 4] }
       incoming := [.named "evening"]
       cost := { total := 4 } },
     { block := { label := .named "lost", text := [.pause 5], disabled := true, deadend := true }
       incoming := [.named "evening"]
       cost := { total := 5 } },
     { block := { label := .named "morning", text := [.pause 2], next := [.named "evening"] }
       incoming := [.entry, .named "evening"]
       cost := { total := 2 } }]

theorem reduce_loopStory : loopStory.reduce pauses = .ok loopGraph := by cbv

theorem cost_loopGraph_nonneg : ∀ costed ∈ loopGraph.blocks, 0 ≤ costed.cost.total := by
  simp only [loopGraph, List.forall_mem_cons]
  decide

/-- Two ways lead into a town, both against the clock, and the market there can be left for the
    square and found again. Nothing leads to the cellar. -/
def townStory : StoryGraph Rat := StoryGraph.ofBlocks
  [{ label := .entry, text := [.pause 1], next := [.synthetic 0 1 .scope] },
   { label := .synthetic 0 1 .scope, next := [.named "bridge", .named "ferry"] },
   { label := .named "bridge", text := [.pause (-5)], next := [.synthetic 1 4 .merge] },
   { label := .named "ferry", text := [.pause (-3)], next := [.synthetic 1 4 .merge] },
   { label := .synthetic 1 4 .merge, text := [.pause 1], next := [.named "market"] },
   { label := .named "market", text := [.pause 2], next := [.synthetic 2 6 .scope] },
   { label := .synthetic 2 6 .scope, text := [.pause 3], next := [.named "square"] },
   { label := .named "square", text := [.pause 4], next := [.synthetic 1 4 .merge, .named "inn"] },
   { label := .named "inn", text := [.pause 6] },
   { label := .named "cellar", next := [.named "market"] }]

/-- The story `townStory` when it is reduced: the market has taken in the blocks on either side. -/
def townGraph : CostedGraph Rat where
  blocks :=
    [{ block := { label := .entry, text := [.pause 1], next := [.named "bridge", .named "ferry"] }
       incoming := []
       cost := { total := 1 } },
     { block := { label := .named "bridge", text := [.pause (-5)], next := [.named "market"] }
       incoming := [.entry]
       cost := { total := -5 } },
     { block := { label := .named "ferry", text := [.pause (-3)], next := [.named "market"] }
       incoming := [.entry]
       cost := { total := -3 } },
     { block := { label := .named "inn", text := [.pause 6] }
       incoming := [.named "square"]
       cost := { total := 6 } },
     { block :=
         { label := .named "market", text := [.pause 1, .pause 2, .pause 3],
           next := [.named "square"] }
       incoming := [.named "bridge", .named "ferry", .named "square"]
       cost := { total := 6 } },
     { block :=
         { label := .named "square", text := [.pause 4], next := [.named "market", .named "inn"] }
       incoming := [.named "market"]
       cost := { total := 4 } }]

theorem reduce_townStory : townStory.reduce pauses = .ok townGraph := by cbv

end Playthrough
