import Playthrough.Proofs.Route.Longest

/-!
# The steps of the longest route

The pass over the components writes down from where each of them was reached, and overwrites this
when a later arrival counts more. A component is left only after everything that leads to it, so
what was written about a component that has been left stays true: every hop joins two known times
that differ by the time of one component. Followed back from the best ending, the hops give a path
of components from the entry, and its times add up to the time of the route.

* `Advance.Traced`: what the hops tell between two components.
* `Advance.Traced.exists_path`: the way back is a path that takes the known time.
* `Trim.longest_path`: the route plays the components of a path.
* `isItinerary_longest`: the longest route of a reduced story can be played.
-/

namespace Playthrough

open Relation

variable {κ : Type}

/-! ## Hops of the pass -/

namespace Advance

theorem hops_finishAt [LinearOrder κ] (node : Nat) (time : κ) (state : Advance κ) :
    (state.finishAt node time).hops = state.hops := by
  unfold finishAt
  split
  · split_ifs <;> rfl
  · rfl

variable [AddCommMonoid κ]
variable {dag : Condensation κ} {start : Nat} {front back : List Nat} {state : Advance κ}

/-- What the hops tell after the components of `front`: each comes from one of these and joins two
    known times. -/
structure Traced (dag : Condensation κ) (start : Nat) (front : List Nat) (state : Advance κ) :
    Prop where
  rooted : state.hops.lookup start = none
  started : state.distances.lookup start = some 0
  hop : ∀ i j, Hop state.hops i j → i ∈ front ∧ dag.Leads i j ∧
    ∃ distance, state.distances.lookup i = some distance ∧
      state.distances.lookup j = some (distance + dag.time i)
  reached : ∀ node, (state.distances.lookup node).isSome → node ≠ start →
    ∃ source, Hop state.hops source node
  ended : ∀ most last, state.best = some (most, last) → last ∈ front ∧ dag.Terminates last ∧
    ∃ distance, state.distances.lookup last = some distance ∧ most = distance + dag.time last

theorem traced_start (dag : Condensation κ) (start : Nat) :
    Traced dag start [] (Advance.start start) := by
  refine ⟨rfl, by simp [Advance.start], ?_, ?_, ?_⟩
  · intro i j hhop
    cases hhop
  · intro node hnode hne
    simp [Advance.start, hne] at hnode
  · intro most last hbest
    cases hbest

theorem Traced.snoc (h : Traced dag start front state) (node : Nat) :
    Traced dag start (front ++ [node]) state := by
  refine ⟨h.rooted, h.started, ?_, h.reached, ?_⟩
  · intro i j hhop
    obtain ⟨hi, hrest⟩ := h.hop i j hhop
    exact ⟨List.mem_append_left _ hi, hrest⟩
  · intro most last hbest
    obtain ⟨hlast, hrest⟩ := h.ended most last hbest
    exact ⟨List.mem_append_left _ hlast, hrest⟩

/-- Followed back, the hops give a path that takes the known time. -/
theorem Traced.exists_path (h : Traced dag start dag.order state) (hsorted : dag.Sorted)
    {node : Nat} {distance : κ} (hnode : node ∈ dag.order)
    (hlookup : state.distances.lookup node = some distance) :
    ∃ path, path ⊆ dag.order ∧ Path (Hop state.hops) start node (path ++ [node]) ∧
      distance = (path.map dag.time).sum := by
  obtain ⟨front, back, horder⟩ := List.append_of_mem hnode
  -- a hop comes from a component further in front
  induction hlength : front.length using Nat.strong_induction_on
    generalizing node distance front back with
  | _ length ih =>
    subst hlength
    by_cases hne : node = start
    · subst hne
      rw [h.started, Option.some.injEq] at hlookup
      exact ⟨[], List.nil_subset _, Path.single _ node, hlookup.symm⟩
    obtain ⟨source, hhop⟩ := h.reached node (by simp [hlookup]) hne
    obtain ⟨hsource, hleads, known, hknown, hnext⟩ := h.hop source node hhop
    obtain ⟨before, after, rfl⟩ := List.append_of_mem (hsorted.forward _ _ _ _ hleads horder)
    obtain ⟨path, hsub, hpath, rfl⟩ := ih before.length (by simp) hsource hknown before
      (after ++ node :: back) (by simp [horder]) rfl
    refine ⟨path ++ [source], ?_, hpath.snoc hhop, ?_⟩
    · exact List.append_subset.2 ⟨hsub, List.cons_subset.2 ⟨hsource, List.nil_subset _⟩⟩
    · rw [hlookup, Option.some.injEq] at hnext
      simp [hnext]

variable [LinearOrder κ]

/-- Arriving at a component that has not been left. No time that a hop was made with changes. -/
theorem Traced.arrive (h : Traced dag start front state) {node target : Nat} {distance : κ}
    (hnode : node ∈ front) (hlookup : state.distances.lookup node = some distance)
    (hleads : dag.Leads node target) (htarget : target ∉ front) (hne : target ≠ start) :
    Traced dag start front (state.arrive node (distance + dag.time node) target) := by
  rcases arrive_cases node (distance + dag.time node) state target with
    ⟨-, -, -, hsame⟩ | ⟨-, hnew⟩
  · rw [hsame]
    exact h
  rw [hnew]
  have hleft : ∀ i ∈ front, i ≠ target := fun i hi heq => htarget (heq ▸ hi)
  refine ⟨?_, ?_, ?_, ?_, ?_⟩
  · rw [Table.lookup_set, if_neg hne.symm, h.rooted]
  · rw [Table.lookup_set, if_neg hne.symm, h.started]
  · intro i j hhop
    rw [Hop, Table.lookup_set] at hhop
    split_ifs at hhop with hj
    · cases hhop
      rw [Table.lookup_set, if_neg (hleft node hnode), Table.lookup_set, if_pos hj]
      exact ⟨hnode, hj ▸ hleads, distance, hlookup, rfl⟩
    · obtain ⟨hi, hleads', known, hknown, hknown'⟩ := h.hop i j hhop
      rw [Table.lookup_set, if_neg (hleft i hi), Table.lookup_set, if_neg hj]
      exact ⟨hi, hleads', known, hknown, hknown'⟩
  · intro other hother hstart
    simp only [Hop, Table.lookup_set] at hother ⊢
    split_ifs at hother ⊢ with heq
    · exact ⟨node, rfl⟩
    · exact h.reached other hother hstart
  · intro most last hbest
    obtain ⟨hlast, hterminates, known, hknown, hmost⟩ := h.ended most last hbest
    rw [Table.lookup_set, if_neg (hleft last hlast)]
    exact ⟨hlast, hterminates, known, hknown, hmost⟩

/-- Leaving a component. The targets come later in the order and are not the start, so the
    component's own time stays what it was for all of them. -/
theorem Traced.leave (h : Traced dag start front state) {node : Nat} {distance : κ}
    (hnode : node ∈ front) (hlookup : state.distances.lookup node = some distance)
    {targets : List Nat}
    (htargets : ∀ target ∈ targets, dag.Leads node target ∧ target ∉ front ∧ target ≠ start) :
    Traced dag start front
      (targets.foldl (Advance.arrive node (distance + dag.time node)) state) := by
  induction targets generalizing state with
  | nil => exact h
  | cons target targets ih =>
    obtain ⟨hleads, htarget, hne⟩ := htargets target List.mem_cons_self
    refine ih (h.arrive hnode hlookup hleads htarget hne) ?_ fun other hother =>
      htargets other (List.mem_cons_of_mem target hother)
    rw [(arrived_arrive node _ state target).others node, hlookup]
    rw [List.mem_singleton]
    rintro rfl
    exact htarget hnode

theorem Traced.finish (h : Traced dag start front state) {node : Nat} {distance : κ}
    (hnode : node ∈ front) (hlookup : state.distances.lookup node = some distance)
    (hterminates : dag.Terminates node) :
    Traced dag start front (state.finishAt node (distance + dag.time node)) := by
  obtain ⟨hdistances, most, last, hbest, -, hsource, -⟩ :=
    finishAt_spec node (distance + dag.time node) state
  refine ⟨?_, ?_, ?_, ?_, ?_⟩
  · rw [hops_finishAt]
    exact h.rooted
  · rw [hdistances]
    exact h.started
  · rw [hops_finishAt, hdistances]
    exact h.hop
  · rw [hops_finishAt, hdistances]
    exact h.reached
  · intro most' last' hbest'
    rw [hbest] at hbest'
    cases hbest'
    rw [hdistances]
    rcases hsource with ⟨rfl, rfl⟩ | hold
    · exact ⟨hnode, hterminates, distance, hlookup, rfl⟩
    · exact h.ended most last hold

theorem Traced.pass (h : Traced dag start front state) (hsorted : dag.Sorted)
    (hstart : ∀ i, ¬ dag.Leads i start) {node : Nat} (horder : dag.order = front ++ node :: back) :
    Traced dag start (front ++ [node]) (Advance.pass dag state node) := by
  have hnode : node ∈ front ++ [node] := by simp
  have htargets : ∀ target ∈ dag.successors node,
      dag.Leads node target ∧ target ∉ front ++ [node] ∧ target ≠ start := by
    intro target htarget
    have hleads := CostedGraph.mem_successors_condense.1 htarget
    exact ⟨hleads, hsorted.not_mem_front horder hleads, fun heq => hstart node (heq ▸ hleads)⟩
  have hmem : node ∈ dag.order := by simp [horder]
  rcases pass_cases hsorted hmem state with ⟨-, hpass⟩ |
    ⟨distance, ended, hlookup, hended, hpass⟩
  · rw [hpass]
    exact h.snoc node
  · rw [hpass]
    rcases hended with ⟨hterminates, rfl⟩ | ⟨-, rfl⟩
    · refine ((h.snoc node).finish hnode hlookup hterminates).leave hnode ?_ htargets
      rw [(finishAt_spec node (distance + dag.time node) state).1, hlookup]
    · exact (h.snoc node).leave hnode hlookup htargets

end Advance

/-- The hops lead back from the best ending along a path that takes the time of that ending, and the
    limit on their number is not met. -/
theorem Condensation.advance_trail [AddCommMonoid κ] [LinearOrder κ] {dag : Condensation κ}
    (hsorted : dag.Sorted) {start : Nat} (hstart : ∀ i, ¬ dag.Leads i start) {most : κ}
    {last : Nat} (hbest : (dag.advance start).best = some (most, last)) :
    ∃ path, trail (dag.advance start).hops dag.order.length last [last] = path ∧
      path ⊆ dag.order ∧ Path dag.Leads start last path ∧ dag.Terminates last ∧
      most = (path.map dag.time).sum := by
  have h : Advance.Traced dag start dag.order (dag.advance start) :=
    advance_induction (fun _ _ _ _ horder hstate => hstate.pass hsorted hstart horder)
      (Advance.traced_start dag start)
  obtain ⟨hlast, hterminates, distance, hlookup, rfl⟩ := h.ended most last hbest
  obtain ⟨path, hsub, hpath, rfl⟩ := h.exists_path hsorted hlast hlookup
  have hlimit : path.length ≤ dag.order.length :=
    ((Hop.nodup h.rooted hpath).of_append_left.subperm hsub).length_le
  refine ⟨path ++ [last], Hop.trail_eq h.rooted _ hpath hlimit [last], ?_, ?_, hterminates, ?_⟩
  · exact List.append_subset.2 ⟨hsub, List.cons_subset.2 ⟨hlast, List.nil_subset _⟩⟩
  · exact ⟨hpath.starts, hpath.steps.imp fun i j hhop => (h.hop i j hhop).2.1, hpath.ends⟩
  · simp

/-! ## Steps -/

/-- A component is played as a loop only if it has several blocks. -/
theorem Component.two_le_length {component : Component κ} {loop : List Label}
    (hne : component.members ≠ []) (h : component.step = .loop loop) : 2 ≤ loop.length := by
  unfold Component.step at h
  split at h
  · cases h
  · rename_i hseveral
    obtain rfl := Step.loop.inj h
    cases hmembers : component.members with
    | nil => exact absurd hmembers hne
    | cons first rest =>
      cases rest with
      | nil => exact absurd hmembers (hseveral first)
      | cons second rest => simp

namespace CostedGraph

variable {graph : CostedGraph κ}

/-- A step plays one component as a whole, its blocks in ascending order, and only a component of
    several blocks is played as a loop. -/
structure Plays (graph : CostedGraph κ) (step : Step) : Prop where
  whole : ∃ leader ∈ graph.labels, ∀ label, label ∈ step.labels ↔ graph.atlas.Mutual leader label
  ascending : Ascending id step.labels
  several : ∀ members, step = .loop members → 2 ≤ members.length

/-- A route that can be played: from the entry to an ending, each step on an exit of the step
    before, no block twice, in the time of all its blocks. -/
structure IsItinerary [Zero κ] [Add κ] (graph : CostedGraph κ) (route : Route κ) : Prop where
  starts : ∃ first, route.steps.head? = some first ∧ .entry ∈ first.labels
  ends : ∃ costed ∈ graph.blocks, costed.block.isTerminal = true ∧
    route.steps.getLast? = some (.block costed.label)
  connected : route.steps.IsChain fun earlier later =>
    ∃ a ∈ earlier.labels, ∃ b ∈ later.labels, graph.atlas.Leads a b
  plays : ∀ step ∈ route.steps, graph.Plays step
  nodup : route.labels.Nodup
  total : route.total = (route.labels.map graph.time).sum

/-- The blocks of a component are those of its leader's loop. -/
theorem Trim.mem_members_iff_mutual (h : graph.Trim) {leader label : Label} {number : Nat}
    (hleader : leader ∈ graph.members number) :
    label ∈ graph.members number ↔ graph.atlas.Mutual leader label := by
  rw [h.mem_members_iff, h.numberOf_eq_iff (h.mem_members_iff.1 hleader)]

theorem Trim.ascending_members (h : graph.Trim) (number : Nat) :
    Ascending id (graph.members number) := by
  unfold members
  cases hget : graph.components[number]? with
  | none => exact List.Pairwise.nil
  | some members =>
    have hlabels : Ascending id graph.labels := List.pairwise_map.2 h.ascending
    exact hlabels.sublist (h.splitting.sublist members (List.mem_of_getElem? hget))

/-- A block without exits is a component of its own. -/
theorem Trim.members_eq_singleton (h : graph.Trim) {label : Label} {block : Block κ} {number : Nat}
    (hlabel : label ∈ graph.members number) (hblock : graph.atlas label = some block)
    (hnext : block.next = []) : graph.members number = [label] := by
  have honly : ∀ other ∈ graph.members number, other = label := by
    intro other hother
    rcases ((h.mem_members_iff_mutual hlabel).1 hother).1.cases_head with heq | ⟨_, hleads, -⟩
    · exact heq.symm
    · obtain ⟨block', hblock', hmem⟩ := hleads
      rw [hblock, Option.some.injEq] at hblock'
      rw [← hblock', hnext] at hmem
      cases hmem
  have hperm : (graph.members number).Perm [label] :=
    (List.perm_ext_iff_of_nodup (h.nodup_members number) (List.nodup_singleton label)).2
      fun other => ⟨fun hother => List.mem_singleton.2 (honly other hother),
        fun hother => List.mem_singleton.1 hother ▸ hlabel⟩
  exact List.perm_singleton.1 hperm

section

variable [Zero κ] [Add κ]

/-- The step that plays the component with a number. -/
def stepAt (graph : CostedGraph κ) (number : Nat) : Step :=
  (graph.component (graph.members number)).step

theorem labels_stepAt (graph : CostedGraph κ) (number : Nat) :
    (graph.stepAt number).labels = graph.members number := by
  unfold stepAt Component.step
  split
  · rename_i only honly
    exact honly.symm
  · rfl

theorem step_condense {number : Nat} (hnumber : number ∈ graph.condense.order) :
    (graph.condense.nodes[number]?).map Component.step = some (graph.stepAt number) := by
  rw [mem_order_iff] at hnumber
  rw [getElem?_nodes_condense, stepAt, members, List.getElem?_eq_getElem hnumber]
  rfl

theorem Trim.plays_stepAt (h : graph.Trim) {number : Nat}
    (hnumber : number ∈ graph.condense.order) : graph.Plays (graph.stepAt number) := by
  obtain ⟨leader, hleader, hlabel⟩ : ∃ leader ∈ graph.members number, leader ∈ graph.labels := by
    have hget := List.getElem?_eq_getElem (mem_order_iff.1 hnumber)
    obtain ⟨leader, hleader, -⟩ := h.splitting.isLoop _ (List.mem_of_getElem? hget)
    refine ⟨leader, ?_, (h.splitting.sublist _ (List.mem_of_getElem? hget)).subset hleader⟩
    rw [members, hget]
    exact hleader
  refine ⟨⟨leader, hlabel, ?_⟩, ?_, ?_⟩
  · intro label
    rw [labels_stepAt, h.mem_members_iff_mutual hleader]
  · rw [labels_stepAt]
    exact h.ascending_members number
  · intro loop hloop
    exact Component.two_le_length (List.ne_nil_of_mem hleader) hloop

/-- Every component is reached from that of the entry, so nothing leads back there. -/
theorem Trim.not_leads_start (h : graph.Trim) {start : Nat}
    (hstart : Condensation.numberOf graph.components .entry = some start) (number : Nat) :
    ¬ graph.condense.Leads number start := by
  intro hexit
  obtain ⟨-, a, b, hleads, ha, -⟩ := h.leads_condense_iff.1 hexit
  obtain ⟨rest, hwalk⟩ := exists_path (h.mem_labels_iff_reaches.1 (mem_labels_of_leads hleads))
  obtain ⟨last, path, hlast, hpath, -⟩ := h.path_of_walk hwalk hstart
  rw [h.mem_members_iff, ha, Option.some.injEq] at hlast
  exact h.not_reach_back hexit (hlast ▸ hpath.reach)

end

variable [AddCommMonoid κ]

/-- A path of components to an ending, played component by component, is an itinerary. -/
theorem Trim.isItinerary_of_path (h : graph.Trim) {start last : Nat} {path : List Nat}
    (hstart : Condensation.numberOf graph.components .entry = some start)
    (hsub : path ⊆ graph.condense.order) (hpath : Path graph.condense.Leads start last path)
    (hterminates : graph.condense.Terminates last) :
    graph.IsItinerary ⟨(path.map graph.condense.time).sum, path.map graph.stepAt⟩ := by
  have hlabels : (Route.mk (path.map graph.condense.time).sum (path.map graph.stepAt)).labels =
      path.flatMap graph.members := by
    simp only [Route.labels, List.flatMap_map, labels_stepAt]
  refine ⟨?_, ?_, ?_, ?_, ?_, ?_⟩
  · refine ⟨graph.stepAt start, by simp [hpath.starts], ?_⟩
    rw [labels_stepAt]
    exact h.mem_members_iff.2 hstart
  · -- the story ends in a block without exits, which no loop contains
    obtain ⟨label, block, hlabel, hblock, hstops⟩ := terminates_iff.1 hterminates
    have hsingle := h.members_eq_singleton hlabel hblock hstops.1
    rw [atlas_eq, Option.map_eq_some_iff] at hblock
    obtain ⟨costed, hget, rfl⟩ := hblock
    obtain ⟨hcosted, rfl⟩ := h.get?_eq_some_iff.1 hget
    refine ⟨costed, hcosted, (Block.stops_false_iff _).1 hstops, ?_⟩
    have hstep : graph.stepAt last = .block costed.label := by
      rw [stepAt, hsingle]
      rfl
    simp [hpath.ends, hstep]
  · refine (List.isChain_map _).2 (hpath.steps.imp ?_)
    intro i j hexit
    obtain ⟨-, a, b, hleads, ha, hb⟩ := h.leads_condense_iff.1 hexit
    rw [labels_stepAt, labels_stepAt]
    exact ⟨a, h.mem_members_iff.2 ha, b, h.mem_members_iff.2 hb, hleads⟩
  · intro step hstep
    obtain ⟨number, hnumber, rfl⟩ := List.mem_map.1 hstep
    exact h.plays_stepAt (hsub hnumber)
  · rw [hlabels]
    exact h.nodup_of_path hpath
  · rw [hlabels]
    exact h.sum_time_condense path

variable [LinearOrder κ]

/-- The longest route plays the components of a path to an ending. -/
theorem Trim.longest_path (h : graph.Trim) {start : Nat} {route : Route κ}
    (hstart : Condensation.numberOf graph.components .entry = some start)
    (hroute : graph.longest = some route) :
    ∃ last path, path ⊆ graph.condense.order ∧ Path graph.condense.Leads start last path ∧
      graph.condense.Terminates last ∧ route.steps = path.map graph.stepAt ∧
      route.total = (path.map graph.condense.time).sum := by
  rw [longest_eq hstart] at hroute
  obtain ⟨⟨most, last⟩, hbest, rfl⟩ := Option.map_eq_some_iff.1 hroute
  obtain ⟨path, htrail, hsub, hpath, hterminates, hmost⟩ :=
    Condensation.advance_trail h.sorted (h.not_leads_start hstart) hbest
  refine ⟨last, path, hsub, hpath, hterminates, ?_, hmost⟩
  dsimp only
  rw [htrail, ← List.filterMap_eq_map]
  exact List.filterMap_congr fun number hnumber => step_condense (hsub hnumber)

/-- **Steps of the longest route.** The longest route of a reduced story can be played, whatever the
    sign of the costs: it starts with the entry, ends with a terminal block, follows exits, plays
    whole components and no block twice, and takes the time of its blocks. -/
theorem isItinerary_longest [FiniteCheck κ] {tally : Tally κ} {story : StoryGraph κ}
    {route : Route κ} (h : story.reduce tally = .ok graph) (hroute : graph.longest = some route) :
    graph.IsItinerary route := by
  have htrim := trim_of_reduce h
  obtain ⟨start, hstart⟩ := htrim.exists_numberOf_entry
  obtain ⟨last, path, hsub, hpath, hterminates, hsteps, htotal⟩ :=
    htrim.longest_path hstart hroute
  have hreal := htrim.isItinerary_of_path hstart hsub hpath hterminates
  rw [← hsteps, ← htotal] at hreal
  exact hreal

/-- The ferry is found after the bridge and takes its place on the way to the market. -/
theorem isItinerary_longest_town :
    townStory.reduce pauses = .ok townGraph ∧
    townGraph.longest = some ⟨14, [.block .entry, .block (.named "ferry"),
      .loop [.named "market", .named "square"], .block (.named "inn")]⟩ ∧
    townGraph.IsItinerary ⟨14, [.block .entry, .block (.named "ferry"),
      .loop [.named "market", .named "square"], .block (.named "inn")]⟩ := by
  have hlongest : townGraph.longest = some ⟨14, [.block .entry, .block (.named "ferry"),
      .loop [.named "market", .named "square"], .block (.named "inn")]⟩ := by cbv
  exact ⟨reduce_townStory, hlongest, isItinerary_longest reduce_townStory hlongest⟩

end CostedGraph

end Playthrough
