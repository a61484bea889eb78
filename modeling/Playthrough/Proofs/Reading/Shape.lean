import Mathlib
import Playthrough.Reading.Plain
import Playthrough.Proofs.Reading.Accounts
import Playthrough.Proofs.Reading.Additive
import Playthrough.Proofs.Reading.Names
import Playthrough.Proofs.Route.Bounds
import Playthrough.Proofs.Text.Trim

/-!
# The shape of a story

What is read of the lines of a script, and how it is timed, does not change the shape of the story.
Two readers stand at the ends. The one that keeps every line as it stands knows all that any other
reader tells, and the one that keeps nothing leaves only the shape. If all blocks cost the same, then
the shape alone decides about the routes as well.

* `Draft.feedAll_everyLine`: the draft of a script for any reader, from the lines as they stand.
* `Draft.feedAll_nothing`: the shape of the draft.
* `bounds_constant`: with the same cost for all blocks, the bounds do not depend on the reader.
* `CostedGraph.fewest_blocks`: if this cost is one, the shortest route passes the fewest blocks.
* `LineReader.speakerFirst_append`: which speaker a line names.
* `Tally.account_bySpeaker`, `Tally.total_bySpeaker`: the accounts of the speakers share out the
  length of all that is said.
-/

namespace Playthrough

variable {κ : Type}

/-! ## Readers -/

namespace LineReader

/-- What a reader tells of a line that was kept as it stands. -/
def reread (reader : LineReader κ) (record : Record κ) : Option (Record κ) :=
  record.dialogue?.bind fun line => reader line.text

theorem everyLine_retell [Zero κ] (reader : LineReader κ) :
    everyLine.retell reader.reread = reader := rfl

theorem retell_none (reader : LineReader κ) : reader.retell (fun _ => none) = nothing := by
  funext line
  exact Option.bind_fun_none (reader line)

/-- The speaker is named in front of the first space. -/
theorem speakerFirst_append [Zero κ] {name : String} (hname : ' ' ∉ name.toList) (text : String) :
    speakerFirst (name ++ " " ++ text) =
      some (.dialogue { speaker := .named name, text, extraSeconds := (0 : κ) }) := by
  have hline : (name ++ " " ++ text).toList = name.toList ++ ' ' :: text.toList := by simp
  obtain ⟨htake, hdrop⟩ : (name.toList ++ ' ' :: text.toList).takeWhile (· ≠ ' ') = name.toList ∧
      (name.toList ++ ' ' :: text.toList).dropWhile (· ≠ ' ') = ' ' :: text.toList := by
    refine Text.run_append (fun c hc => ?_) (by simp)
    simpa using fun heq : c = ' ' => hname (heq ▸ hc)
  unfold speakerFirst
  rw [hline, hdrop, htake, String.ofList_toList]
  dsimp only
  rw [String.ofList_toList]

/-- Lines with given costs are pauses. -/
theorem dialogue?_of_givenCosts {line : String} {record : Record Float}
    (h : givenCosts line = some record) : record.dialogue? = none := by
  unfold givenCosts at h
  simp only [Option.bind_eq_bind, Option.bind_eq_some_iff] at h
  obtain ⟨rest, -, seconds, -, hrecord⟩ := h
  cases hrecord
  rfl

end LineReader

/-! ## Shapes -/

/-- **Reading apart from building.** The draft of a script for any reader is the draft of its lines
    as they stand, with each line read afterwards. -/
theorem Draft.feedAll_everyLine [Zero κ] (reader : LineReader κ) (lines : List (String × Nat)) :
    start.feedAll reader lines =
      retell reader.reread <$> start.feedAll LineReader.everyLine lines := by
  rw [← feedAll_retell, LineReader.everyLine_retell]
  rfl

/-- The draft of a script of which nothing is read is its draft for any reader without the records. -/
theorem Draft.feedAll_nothing (reader : LineReader κ) (lines : List (String × Nat)) :
    start.feedAll LineReader.nothing lines =
      retell (fun _ => none) <$> start.feedAll reader lines := by
  rw [← reader.retell_none]
  exact feedAll_retell (fun _ => none) start reader lines

/-- If all blocks of a script cost the same, then its bare story does not depend on the reader. -/
theorem bare_reduce_constant (reader : LineReader Rat) (cost : Rat) (lines : List (String × Nat)) :
    CostedGraph.bare <$>
        (do (← (← Draft.start.feedAll .nothing lines).finish).reduce (.constant cost)) =
      CostedGraph.bare <$>
        (do (← (← Draft.start.feedAll reader lines).finish).reduce (.constant cost)) := by
  rw [Draft.feedAll_nothing reader, bind_map_left, map_bind, map_bind]
  refine bind_congr fun draft => ?_
  rw [Draft.finish_retell, bind_map_left, map_bind, map_bind]
  exact bind_congr fun story => story.bare_reduce fun _ => rfl

/-- **Bounds of a shape.** If all blocks of a script cost the same, then its bounds are the same for
    all readers. -/
theorem bounds_constant (reader : LineReader Rat) (cost : Rat) (lines : List (String × Nat)) :
    (fun graph : CostedGraph Rat => (graph.shortest, graph.longest)) <$>
        (do (← (← Draft.start.feedAll .nothing lines).finish).reduce (.constant cost)) =
      (fun graph : CostedGraph Rat => (graph.shortest, graph.longest)) <$>
        (do (← (← Draft.start.feedAll reader lines).finish).reduce (.constant cost)) := by
  have hbounds : (fun graph : CostedGraph Rat => (graph.shortest, graph.longest)) =
      (fun graph => (graph.shortest, graph.longest)) ∘ CostedGraph.bare := by
    funext graph
    rw [Function.comp_apply, graph.shortest_bare, graph.longest_bare]
  rw [hbounds, comp_map, comp_map, bare_reduce_constant reader]

namespace CostedGraph

variable {graph : CostedGraph Rat} {story : StoryGraph Rat} {walk : List Label}

/-- If all blocks cost one, then the time of a walk is the number of its blocks. -/
theorem arrival_constant (h : story.reduce (.constant 1) = .ok graph)
    (hwalk : graph.atlas.IsWalk .entry false walk) : graph.arrival walk = walk.length := by
  obtain ⟨-, -, -, -, -, hcosts⟩ := StoryGraph.reduce_spec h
  obtain ⟨last, block, hpath, -, -⟩ := hwalk
  have htime : ∀ label ∈ walk, graph.time label = 1 := by
    intro label hlabel
    have hsome := ((trim_of_reduce h).isSome_iff label).2 (hpath.reach_of_mem hlabel).1
    rw [atlas_eq, Option.isSome_map, Option.isSome_iff_exists] at hsome
    obtain ⟨costed, hcosted⟩ := hsome
    rw [time, hcosted, Option.map_some, Option.getD_some,
      hcosts costed (List.mem_of_find?_eq_some hcosted)]
    rfl
  rw [arrival_eq_sum, List.map_congr_left htime]
  simp

/-- **Fewest blocks.** If all blocks cost one, then no walk to an ending passes fewer blocks than the
    shortest route. -/
theorem fewest_blocks (h : story.reduce (.constant 1) = .ok graph) {route : Route Rat}
    (hroute : graph.shortest = some route) (hwalk : graph.atlas.IsWalk .entry false walk) :
    route.steps.length ≤ walk.length := by
  have htrim := trim_of_reduce h
  have htime : graph.TimePasses :=
    timePasses_of_nonneg (cost_nonneg_of_reduce h fun _ => zero_le_one)
  obtain ⟨least, hsteps, hleast, -, htotal⟩ := shortest_sound htrim htime hroute
  obtain ⟨route', hroute', hle⟩ := shortest_le htrim htime hwalk
  obtain rfl : route = route' := Option.some.inj (hroute.symm.trans hroute')
  rw [← htotal, arrival_constant h hleast, arrival_constant h hwalk] at hle
  rw [hsteps, List.length_map]
  exact_mod_cast hle

end CostedGraph

/-! ## Tallies -/

namespace Tally

/-- What is said, with the accounts on which it goes. -/
def speakerEntries (records : List (Record Rat)) : Breakdown Rat :=
  (records.filterMap Record.dialogue?).map fun line =>
    (Category.speaker line.speaker, quotedLength line)

/-- The account of a speaker is the length of what this speaker says. -/
theorem account_bySpeaker (records : List (Record Rat)) (speaker : Speaker) :
    (bySpeaker records).breakdown.map (·.account (.speaker speaker)) =
      some (((records.filterMap Record.dialogue?).filter (·.speaker = speaker)).map
        quotedLength).sum := by
  have haccount := Breakdown.account_creditAll (speakerEntries records) List.Pairwise.nil
    (.speaker speaker)
  rw [speakerEntries, List.filter_map, List.map_map, show Breakdown.account _ [] = 0 from rfl,
    zero_add] at haccount
  refine congrArg some (haccount.trans ?_)
  simp [Function.comp_def]

/-- The accounts of the speakers share out the length of all that is said. -/
theorem total_bySpeaker (records : List (Record Rat)) :
    (bySpeaker records).total = (textLength records).total := by
  have haccounts : (bySpeaker records).total =
      (Breakdown.creditAll (speakerEntries records) []).sum := by
    show List.foldl _ _ _ = _
    rw [foldl_add_eq_sum, zero_add]
    rfl
  have hlength : (textLength records).total = (speakerEntries records).sum := by
    show List.foldl _ _ _ = _
    rw [foldl_add_eq_sum, zero_add, Breakdown.sum, speakerEntries, List.map_map]
    rfl
  rw [haccounts, hlength, Breakdown.sum_creditAll]
  exact zero_add _

/-- Two speakers, and a line without one. -/
example : bySpeaker (["e \"Hello\"", "m \"Hi\"", "silence", "e \"Well\""].filterMap
      (LineReader.speakerFirst : LineReader Rat)) =
    { total := 11
      breakdown := some [(.speaker (.named "e"), 9), (.speaker (.named "m"), 2)] } := by
  decide +kernel

/-- Lines with given costs are said by nobody. -/
theorem bySpeaker_givenCosts (lines : List String) :
    bySpeaker (lines.filterMap LineReader.givenCosts) = { total := 0, breakdown := some [] } := by
  have hnone : (lines.filterMap LineReader.givenCosts).filterMap Record.dialogue? = [] := by
    rw [List.filterMap_filterMap, List.filterMap_eq_nil_iff]
    intro line _
    cases hline : LineReader.givenCosts line with
    | none => rfl
    | some record => exact LineReader.dialogue?_of_givenCosts hline
  unfold bySpeaker
  rw [hnone]
  rfl

end Tally

end Playthrough
