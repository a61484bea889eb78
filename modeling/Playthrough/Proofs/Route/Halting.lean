import Playthrough.Proofs.Route.Shortest

/-!
# The search comes to an end

The search for the shortest route is a loop: it goes on while the queue holds a block, and a block
joins the queue again whenever it is reached sooner. Nothing in the loop counts its turns. It ends
because the known times are those of paths, and a path that goes around a loop is no shorter than
the path without it. The limit that the definition of the search carries is never what stops it.

All that the argument asks of times is that any two of them compare, that who is ahead stays ahead
when both play a block, and that playing a block takes nobody back. Sums that are rounded have these
properties as well as exact ones, and so do orders in which different times compare equal.

The same invariant shows that the hops make no loop: every block that is reached has its way back to
the entry, no block has two, and none leads out of the entry.

* `Search.Loops`: the loop without a limit.
* `Search.Inv.acyclic`, `Search.Inv.exists_trail`: the hops, and the way back along them.
* `search_halts`: the search of a reduced story.
-/

namespace Playthrough

open Relation

variable {κ : Type}

namespace Search

section

variable [Add κ] [LT κ] [DecidableLT κ] [LE κ] [DecidableLE κ]

/-- The loop of the search leads from one state to another in the given number of turns: a turn is
    taken while the queue holds a block. -/
inductive Loops (graph : CostedGraph κ) : (turns : Nat) → Search κ → Search κ → Prop
  | done {search : Search κ} (hqueue : search.queue = []) : Loops graph 0 search search
  | turn {turns : Nat} {search final : Search κ} (hqueue : search.queue ≠ [])
      (hrest : Loops graph turns (search.step graph) final) : Loops graph (turns + 1) search final

variable {graph : CostedGraph κ} {search final : Search κ} {turns limit : Nat}

/-- A run that empties the queue within its limit is the loop. -/
theorem exists_loops (h : (search.run graph limit).queue = []) :
    ∃ turns ≤ limit, Loops graph turns search (search.run graph limit) := by
  induction limit generalizing search with
  | zero => exact ⟨0, le_rfl, .done h⟩
  | succ limit ih =>
    by_cases hqueue : search.queue.isEmpty = true
    · rw [run, if_pos hqueue]
      exact ⟨0, Nat.zero_le _, .done (List.isEmpty_iff.1 hqueue)⟩
    · rw [run, if_neg hqueue] at h ⊢
      obtain ⟨turns, hturns, hloops⟩ := ih h
      exact ⟨turns + 1, by omega, .turn (fun hempty => hqueue (List.isEmpty_iff.2 hempty)) hloops⟩

/-- A run whose limit the loop does not exceed ends as the loop does. -/
theorem Loops.run_eq (h : Loops graph turns search final) (hlimit : turns ≤ limit) :
    search.run graph limit = final := by
  induction h generalizing limit with
  | done hqueue =>
    cases limit with
    | zero => rfl
    | succ limit => rw [run, if_pos (List.isEmpty_iff.2 hqueue)]
  | turn hqueue _ ih =>
    cases limit with
    | zero => omega
    | succ limit =>
      rw [run, if_neg fun hempty => hqueue (List.isEmpty_iff.1 hempty)]
      exact ih (by omega)

end

/-! ## The way back along the hops -/

variable [Zero κ] [Add κ] [Preorder κ] {graph : CostedGraph κ} {search : Search κ}

/-- No block is reached from itself: going around once more would be a second way back. -/
theorem Inv.acyclic (h : Inv graph search) (label : Label) :
    ¬ TransGen (Hop search.hops) label label := by
  intro hcycle
  obtain ⟨source, hfront, hhop⟩ := TransGen.tail'_iff.1 hcycle
  obtain ⟨-, -, distance, -, hdistance, -⟩ := h.hop source label hhop
  obtain ⟨rest, hpath⟩ := exists_path (h.rooted label distance hdistance)
  obtain ⟨around, hround⟩ := exists_path hfront
  have htwice := (hpath.trans hround).snoc hhop
  have hlength := congrArg List.length (Hop.path_unique h.entry_hop hpath htwice)
  simp at hlength

/-- The hops lead from a block that is reached back to the entry, in fewer steps than any limit that
    counts the blocks allows. -/
theorem Inv.exists_trail (h : Inv graph search) (htrim : graph.Trim) {label : Label} {distance : κ}
    (hdistance : search.distances.lookup label = some distance) :
    ∃ walk, Path (Hop search.hops) .entry label walk ∧ walk.length ≤ graph.size ∧
      ∀ limit, graph.size ≤ limit → trail search.hops limit label [label] = walk := by
  obtain ⟨rest, hpath⟩ := exists_path (h.rooted label distance hdistance)
  obtain ⟨front, heq⟩ := List.getLast?_eq_some_iff.1 hpath.ends
  rw [heq] at hpath
  have hleads : Path graph.atlas.Leads .entry label (front ++ [label]) :=
    ⟨hpath.starts, hpath.steps.imp fun _ _ hhop => (h.hop _ _ hhop).1, hpath.ends⟩
  have hlength := htrim.length_le_size hleads (Hop.nodup h.entry_hop hpath)
  refine ⟨front ++ [label], hpath, hlength, fun limit hlimit => ?_⟩
  rw [List.length_append, List.length_singleton] at hlength
  exact Hop.trail_eq h.entry_hop limit hpath (by omega) [label]

end Search

namespace CostedGraph

variable [Zero κ] [Add κ] [Preorder κ] {graph : CostedGraph κ}

/-- Time passes in a story without negative costs, whatever the sum of two times is. -/
theorem timePasses_of_monotone (hcost : ∀ costed ∈ graph.blocks, 0 ≤ costed.cost.total)
    (hmono : ∀ cost early late : κ, 0 ≤ cost → early ≤ late → early + cost ≤ late + cost)
    (hgrow : ∀ cost time : κ, 0 ≤ cost → time ≤ time + cost) : graph.TimePasses where
  le_add := fun label time => hgrow _ time (time_nonneg hcost label)
  add_le_add := fun label early late => hmono _ early late (time_nonneg hcost label)

variable [@Std.Total κ (· ≤ ·)] [DecidableLE κ] [DecidableLT κ]

/-- There are as many rounds as blocks at most, and the first one looks at the entry alone. -/
theorem search_loops (htrim : graph.Trim) (htime : graph.TimePasses) :
    ∃ turns ≤ graph.size * graph.size, Search.Loops graph turns .start graph.search := by
  have hsize : 0 < graph.size := by
    have hentry : Label.entry ∈ graph.labels := htrim.mem_labels_iff_reaches.2 .refl
    have hlength := List.length_pos_of_mem hentry
    rwa [labels, List.length_map] at hlength
  obtain ⟨blocks, hblocks⟩ := Nat.exists_eq_add_of_le' hsize
  have hqueue : (Search.start.run graph (graph.size * graph.size)).queue = [] := by
    refine Search.queue_run htrim htime _ blocks (Search.inv_start graph) (Search.round_start graph)
      (by omega) ?_
    rw [List.length_singleton]
    nlinarith
  obtain ⟨turns, hturns, hloops⟩ := Search.exists_loops hqueue
  have hlimit : turns ≤ graph.searchLimit := by
    rw [searchLimit]
    nlinarith
  refine ⟨turns, hturns, ?_⟩
  rw [search, hloops.run_eq hlimit]
  exact hloops

/-- **The search halts.** Let costs be of any kind in which any two compare, adding a cost keeps the
    order, and adding a cost that is not negative never makes a time earlier. In a reduced story
    without negative costs, with loops or without, the loop of the search takes a finite number of
    turns. The hops that it leaves make no loop, and there is none to the entry. The steps of the
    shortest route are the whole way back from its ending to the entry: there are no more of them
    than blocks, and a higher limit would find no further one. -/
theorem search_halts [FiniteCheck κ] {tally : Tally κ} {story : StoryGraph κ}
    (h : story.reduce tally = .ok graph)
    (hcost : ∀ costed ∈ graph.blocks, 0 ≤ costed.cost.total)
    (hmono : ∀ cost early late : κ, 0 ≤ cost → early ≤ late → early + cost ≤ late + cost)
    (hgrow : ∀ cost time : κ, 0 ≤ cost → time ≤ time + cost) :
    (∃ turns ≤ graph.size * graph.size, Search.Loops graph turns .start graph.search) ∧
    (∀ label, ¬ TransGen (Hop graph.search.hops) label label) ∧
    (∀ source, ¬ Hop graph.search.hops source .entry) ∧
    ∀ route, graph.shortest = some route →
      ∃ last walk, graph.search.best = some (route.total, last) ∧ route.steps = walk.map .block ∧
        Path (Hop graph.search.hops) .entry last walk ∧ walk.length ≤ graph.size ∧
        ∀ limit, graph.size ≤ limit → trail graph.search.hops limit last [last] = walk := by
  have htrim := trim_of_reduce h
  have htime := timePasses_of_monotone hcost hmono hgrow
  obtain ⟨hinv, -⟩ := search_spec htrim htime
  refine ⟨search_loops htrim htime, hinv.acyclic, ?_, ?_⟩
  · intro source hhop
    rw [Hop, hinv.entry_hop] at hhop
    cases hhop
  · intro route hroute
    obtain ⟨⟨total, last⟩, hbest, rfl⟩ := Option.map_eq_some_iff.1 hroute
    obtain ⟨-, distance, hdistance, -⟩ := hinv.best_sound total last hbest
    obtain ⟨walk, hpath, hlength, htrail⟩ := hinv.exists_trail htrim hdistance
    exact ⟨last, walk, hbest, congrArg (List.map Step.block) (htrail graph.size le_rfl), hpath,
      hlength, htrail⟩

/-- The days of `loopGraph` repeat, and the search for the way home still ends. -/
theorem search_halts_loop :
    loopStory.reduce pauses = .ok loopGraph ∧
    (∀ costed ∈ loopGraph.blocks, 0 ≤ costed.cost.total) ∧
    (∃ turns ≤ 25, Search.Loops loopGraph turns .start loopGraph.search) ∧
    (∀ label, ¬ TransGen (Hop loopGraph.search.hops) label label) ∧
    Path (Hop loopGraph.search.hops) .entry (.named "home")
      [.entry, .named "morning", .named "evening", .named "home"] := by
  obtain ⟨hloops, hacyclic, -, hback⟩ := search_halts reduce_loopStory cost_loopGraph_nonneg
    (fun cost _ _ _ hle => add_le_add_left hle cost) (fun _ _ => le_add_of_nonneg_right)
  have hshortest : loopGraph.shortest = some ⟨10, [.block .entry, .block (.named "morning"),
      .block (.named "evening"), .block (.named "home")]⟩ := by cbv
  obtain ⟨last, walk, -, hsteps, hpath, -⟩ := hback _ hshortest
  obtain rfl : [.entry, .named "morning", .named "evening", .named "home"] = walk :=
    List.map_injective_iff.2 (fun _ _ heq => Step.block.inj heq) hsteps
  obtain rfl : Label.named "home" = last := by simpa using hpath.ends
  exact ⟨reduce_loopStory, cost_loopGraph_nonneg, hloops, hacyclic, hpath⟩

end CostedGraph

end Playthrough
