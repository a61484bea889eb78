import Playthrough.Draft.Feed
import Playthrough.Draft.Finish
import Playthrough.Proofs.Route.Longest
import Playthrough.Proofs.Route.Shortest
import Playthrough.Proofs.Story.Joined
import Playthrough.Reading.Plain

/-!
# The two bounds

The shortest and the longest route come from two searches that have nothing in common: one follows
single blocks, the other one contracted loops. What joins them are the walks of the story. The
shortest route is a walk that passes no block twice, so it collects, each block once, exactly its own
time, and the longest route takes no less than any walk collects.

* `Trim.exists_longest_ge`: the longest route against any walk.
* `Trim.exists_walk_of_longest`: a longest route shows that the story can end.
* `bounds_agree`: the bounds of a script.
-/

namespace Playthrough.CostedGraph

variable {κ : Type} [AddCommMonoid κ] [LinearOrder κ] {graph : CostedGraph κ}

theorem cost_nonneg_of_reduce [FiniteCheck κ] {tally : Tally κ} {story : StoryGraph κ}
    (h : story.reduce tally = .ok graph) (htally : ∀ records, 0 ≤ (tally records).total) :
    ∀ costed ∈ graph.blocks, 0 ≤ costed.cost.total := by
  obtain ⟨-, -, -, -, -, hcosts⟩ := StoryGraph.reduce_spec h
  intro costed hcosted
  rw [hcosts costed hcosted]
  exact htally costed.block.text

variable [IsOrderedAddMonoid κ]

/-- A story with a longest route has a walk to an ending. -/
theorem Trim.exists_walk_of_longest (h : graph.Trim) {route : Route κ}
    (hroute : graph.longest = some route) : ∃ walk, graph.atlas.IsWalk .entry false walk := by
  obtain ⟨start, hstart⟩ := h.exists_numberOf_entry
  obtain ⟨last, path, hterminates, hpath, -⟩ := (h.longest_spec hstart).1 route hroute
  obtain ⟨label, block, hlabel, hblock, hstops⟩ := terminates_iff.1 hterminates
  obtain ⟨rest, hwalk, -⟩ := h.walk_of_path hpath (h.mem_members_iff.2 hstart) hlabel
  exact ⟨.entry :: rest, label, block, hwalk, hblock, hstops⟩

/-- The longest route takes at least what a walk to an ending collects, each block once. -/
theorem Trim.exists_longest_ge (h : graph.Trim)
    (hcost : ∀ costed ∈ graph.blocks, 0 ≤ costed.cost.total) {walk : List Label}
    (hwalk : graph.atlas.IsWalk .entry false walk) :
    ∃ route, graph.longest = some route ∧ (walk.dedup.map graph.time).sum ≤ route.total := by
  obtain ⟨start, hstart⟩ := h.exists_numberOf_entry
  obtain ⟨last, path, hterminates, hpath, hle⟩ := h.sum_dedup_le hcost hstart hwalk
  obtain ⟨route, hroute, hle'⟩ := (h.longest_spec hstart).2 last path hterminates hpath
  exact ⟨route, hroute, hle.trans hle'⟩

/-- The shortest route is a walk that passes no block twice, so the longest route takes as long. -/
theorem Trim.exists_longest_of_shortest (h : graph.Trim)
    (hcost : ∀ costed ∈ graph.blocks, 0 ≤ costed.cost.total) {least : Route κ}
    (hleast : graph.shortest = some least) :
    ∃ most, graph.longest = some most ∧ least.total ≤ most.total := by
  obtain ⟨walk, -, hwalk, hnodup, htotal⟩ :=
    shortest_sound h (timePasses_of_nonneg hcost) hleast
  obtain ⟨most, hmost, hle⟩ := h.exists_longest_ge hcost hwalk
  refine ⟨most, hmost, ?_⟩
  calc least.total
    _ = (walk.map graph.time).sum := by rw [← htotal, arrival_eq_sum]
    _ = (walk.dedup.map graph.time).sum := by rw [hnodup.dedup]
    _ ≤ most.total := hle

theorem Trim.isSome_shortest_iff (h : graph.Trim)
    (hcost : ∀ costed ∈ graph.blocks, 0 ≤ costed.cost.total) :
    graph.shortest.isSome ↔ graph.longest.isSome := by
  constructor
  · intro hsome
    obtain ⟨least, hleast⟩ := Option.isSome_iff_exists.1 hsome
    obtain ⟨most, hmost, -⟩ := h.exists_longest_of_shortest hcost hleast
    simp [hmost]
  · intro hsome
    obtain ⟨most, hmost⟩ := Option.isSome_iff_exists.1 hsome
    obtain ⟨walk, hwalk⟩ := h.exists_walk_of_longest hmost
    obtain ⟨least, hleast, -⟩ := shortest_le h (timePasses_of_nonneg hcost) hwalk
    simp [hleast]

/-- **The bounds of a script.** However the lines of a script are read, and however its blocks are
    timed, as long as no block takes negative time: the script has a shortest route exactly when it
    has a longest one, and the shortest takes no longer than the longest. -/
theorem bounds_agree [FiniteCheck κ] {reader : LineReader κ} {tally : Tally κ}
    {lines : List (String × Nat)} (htally : ∀ records, 0 ≤ (tally records).total)
    (h : (do
      let draft ← Draft.start.feedAll reader lines
      let story ← draft.finish
      story.reduce tally) = .ok graph) :
    (graph.shortest.isSome ↔ graph.longest.isSome) ∧
      ∀ least most, graph.shortest = some least → graph.longest = some most →
        least.total ≤ most.total := by
  obtain ⟨draft, -, h⟩ := bind_eq_ok.1 h
  obtain ⟨story, -, hreduce⟩ := bind_eq_ok.1 h
  have htrim := trim_of_reduce hreduce
  have hcost := cost_nonneg_of_reduce hreduce htally
  refine ⟨htrim.isSome_shortest_iff hcost, ?_⟩
  intro least most hleast hmost
  obtain ⟨most', hmost', hle⟩ := htrim.exists_longest_of_shortest hcost hleast
  rw [hmost, Option.some.injEq] at hmost'
  rw [hmost']
  exact hle

/-! ## A walk in the park -/

/-- The pond can be seen again and again before going home. -/
def parkLines : List String :=
  ["label park:",
   "  scene gate",
   "  menu:",
   "    \"once more\":",
   "      scene pond",
   "      jump park",
   "    \"go home\":",
   "      scene road"]

/-- The blocks of the script `parkLines`. -/
def parkBlocks : List (Block Rat) :=
  [{ label := .entry, next := [.named "park"] },
   { label := .named "park", text := [.scene], next := [.synthetic 0 3 .scope] },
   { label := .synthetic 0 3 .scope, next := [.synthetic 1 4 .scope, .synthetic 2 7 .scope] },
   { label := .synthetic 1 4 .scope, text := [.scene], next := [.named "park"], disabled := true },
   { label := .synthetic 2 7 .scope, text := [.scene], next := [.synthetic 3 8 .merge] },
   { label := .synthetic 3 8 .merge, next := [.synthetic 4 8 .merge] },
   { label := .synthetic 4 8 .merge }]

/-- The story of the script `parkLines` when it is reduced, each scene for one. -/
def parkGraph : CostedGraph Rat where
  blocks :=
    [{ block := { label := .entry, next := [.named "park"] }
       incoming := []
       cost := { total := 0 } },
     { block :=
         { label := .named "park", text := [.scene],
           next := [.synthetic 1 4 .scope, .synthetic 2 7 .scope] }
       incoming := [.entry, .synthetic 1 4 .scope]
       cost := { total := 1 } },
     { block :=
         { label := .synthetic 1 4 .scope, text := [.scene], next := [.named "park"],
           disabled := true }
       incoming := [.named "park"]
       cost := { total := 1 } },
     { block := { label := .synthetic 2 7 .scope, text := [.scene] }
       incoming := [.named "park"]
       cost := { total := 1 } }]

theorem read_park :
    (do
      let draft ← Draft.start.feedAll LineReader.scenes (parkLines.zipIdx 1)
      let closed ← draft.closeMany draft.lastLine draft.stack.length
      return (StoryGraph.ofBlocks closed.blocks).blocks) = Except.ok parkBlocks := by
  decide +kernel

theorem reduce_park :
    (do
      let draft ← Draft.start.feedAll LineReader.scenes (parkLines.zipIdx 1)
      let story ← draft.finish
      story.reduce Tally.count) = .ok parkGraph := by
  obtain ⟨draft, hdraft, hrest⟩ := bind_eq_ok.1 read_park
  obtain ⟨closed, hclosed, hblocks⟩ := bind_eq_ok.1 hrest
  have hstory : StoryGraph.ofBlocks closed.blocks = StoryGraph.ofBlocks parkBlocks := by
    rw [← StoryGraph.ofBlocks_blocks (StoryGraph.ofBlocks closed.blocks), Except.ok.inj hblocks]
  have hfinish : draft.finish = .ok (StoryGraph.ofBlocks parkBlocks) := by
    rw [← hstory]
    exact bind_eq_ok.2 ⟨closed, hclosed, rfl⟩
  have hreduce : (StoryGraph.ofBlocks parkBlocks).reduce Tally.count = .ok parkGraph := by cbv
  exact bind_eq_ok.2 ⟨draft, hdraft, bind_eq_ok.2 ⟨_, hfinish, hreduce⟩⟩

/-- The shortest way through the park leaves out the pond, the longest one sees it. -/
theorem bounds_agree_park :
    (∀ records, 0 ≤ ((Tally.count : Tally Rat) records).total) ∧
    (do
      let draft ← Draft.start.feedAll LineReader.scenes (parkLines.zipIdx 1)
      let story ← draft.finish
      story.reduce Tally.count) = .ok parkGraph ∧
    (parkGraph.shortest.isSome ↔ parkGraph.longest.isSome) ∧
    parkGraph.shortest = some ⟨2, [.block .entry, .block (.named "park"),
      .block (.synthetic 2 7 .scope)]⟩ ∧
    parkGraph.longest = some ⟨3, [.block .entry, .loop [.named "park", .synthetic 1 4 .scope],
      .block (.synthetic 2 7 .scope)]⟩ ∧
    (2 : Rat) ≤ 3 := by
  have htally : ∀ records, 0 ≤ ((Tally.count : Tally Rat) records).total :=
    fun records => Nat.cast_nonneg records.length
  have hshortest : parkGraph.shortest = some ⟨2, [.block .entry, .block (.named "park"),
      .block (.synthetic 2 7 .scope)]⟩ := by cbv
  have hlongest : parkGraph.longest = some ⟨3, [.block .entry,
      .loop [.named "park", .synthetic 1 4 .scope], .block (.synthetic 2 7 .scope)]⟩ := by cbv
  have hagree := bounds_agree htally reduce_park
  exact ⟨htally, reduce_park, hagree.1, hshortest, hlongest, hagree.2 _ _ hshortest hlongest⟩

end Playthrough.CostedGraph
