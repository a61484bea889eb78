import Playthrough.Proofs.Route.Components
import Playthrough.Route.Longest

/-!
# The longest route

Over the components, one pass in their order finds the longest path to each of them. Over the
blocks, this is the most that a walk can collect when each block counts once: a walk moves along a
path of components, and some walk tours all blocks of all components on such a path.

* `Advance.Inv`: what the pass knows between two components.
* `Condensation.advance_spec`: the best ending is the longest path to one.
* `path_of_walk`, `exists_tour`: from walks to paths of components and back.
* `isGreatest_longest`: the longest route of a reduced story.
-/

namespace Playthrough

open Relation

variable {κ : Type}

/-! ## Tables of the pass -/

namespace Advance

variable [LinearOrder κ] {state : Advance κ}

theorem arrive_cases (source : Nat) (time : κ) (state : Advance κ) (target : Nat) :
    (∃ known, state.distances.lookup target = some known ∧ time ≤ known ∧
      state.arrive source time target = state) ∨
    ((∀ known, state.distances.lookup target = some known → known < time) ∧
      state.arrive source time target =
        { state with
          distances := Table.set target time state.distances
          hops := Table.set target source state.hops }) := by
  unfold arrive
  cases hlookup : state.distances.lookup target with
  | none => simp
  | some known =>
    by_cases hle : time ≤ known
    · simp [hle]
    · simp only [hle, if_false]
      refine Or.inr ⟨?_, trivial⟩
      intro other hother
      cases hother
      exact not_le.1 hle

/-- What arriving at each of the given components does to the known times. -/
structure Arrived (time : κ) (targets : List Nat) (before after : Advance κ) : Prop where
  best_eq : after.best = before.best
  others : ∀ node, node ∉ targets →
    after.distances.lookup node = before.distances.lookup node
  reached : ∀ node ∈ targets, ∃ known, after.distances.lookup node = some known ∧ time ≤ known
  source : ∀ node known, after.distances.lookup node = some known →
    before.distances.lookup node = some known ∨ node ∈ targets ∧ known = time
  later : ∀ node known, before.distances.lookup node = some known →
    ∃ known', after.distances.lookup node = some known' ∧ known ≤ known'

theorem arrived_nil (time : κ) (state : Advance κ) : Arrived time [] state state :=
  ⟨rfl, fun _ _ => rfl, by simp, fun _ _ h => Or.inl h, fun _ known h => ⟨known, h, le_rfl⟩⟩

theorem arrived_arrive (source : Nat) (time : κ) (state : Advance κ) (target : Nat) :
    Arrived time [target] state (state.arrive source time target) := by
  rcases arrive_cases source time state target with ⟨known, hknown, hle, h⟩ | ⟨hlt, h⟩
  · rw [h]
    refine ⟨rfl, fun _ _ => rfl, ?_, fun _ _ h => Or.inl h, fun _ known h => ⟨known, h, le_rfl⟩⟩
    intro node hnode
    obtain rfl := List.mem_singleton.1 hnode
    exact ⟨known, hknown, hle⟩
  · rw [h]
    refine ⟨rfl, ?_, ?_, ?_, ?_⟩
    · intro node hnode
      rw [Table.lookup_set, if_neg (by simpa using hnode)]
    · intro node hnode
      exact ⟨time, by rw [Table.lookup_set, if_pos (List.mem_singleton.1 hnode)], le_rfl⟩
    · intro node known hknown
      rw [Table.lookup_set] at hknown
      split_ifs at hknown with hnode
      · cases hknown
        exact Or.inr ⟨by simp [hnode], rfl⟩
      · exact Or.inl hknown
    · intro node known hknown
      rw [Table.lookup_set]
      split_ifs with hnode
      · subst hnode
        exact ⟨time, rfl, (hlt known hknown).le⟩
      · exact ⟨known, hknown, le_rfl⟩

theorem Arrived.trans {time : κ} {first second : List Nat} {before middle after : Advance κ}
    (h : Arrived time first before middle) (h' : Arrived time second middle after) :
    Arrived time (first ++ second) before after := by
  refine ⟨h'.best_eq.trans h.best_eq, ?_, ?_, ?_, ?_⟩
  · intro node hnode
    rw [List.mem_append, not_or] at hnode
    rw [h'.others node hnode.2, h.others node hnode.1]
  · intro node hnode
    rcases List.mem_append.1 hnode with hnode | hnode
    · obtain ⟨known, hknown, hle⟩ := h.reached node hnode
      obtain ⟨known', hknown', hle'⟩ := h'.later node known hknown
      exact ⟨known', hknown', hle.trans hle'⟩
    · exact h'.reached node hnode
  · intro node known hknown
    rcases h'.source node known hknown with hmiddle | ⟨hnode, rfl⟩
    · rcases h.source node known hmiddle with hbefore | ⟨hnode, rfl⟩
      · exact Or.inl hbefore
      · exact Or.inr ⟨List.mem_append_left _ hnode, rfl⟩
    · exact Or.inr ⟨List.mem_append_right _ hnode, rfl⟩
  · intro node known hknown
    obtain ⟨known', hknown', hle⟩ := h.later node known hknown
    obtain ⟨known'', hknown'', hle'⟩ := h'.later node known' hknown'
    exact ⟨known'', hknown'', hle.trans hle'⟩

theorem arrived_foldl (source : Nat) (time : κ) (targets : List Nat) (state : Advance κ) :
    Arrived time targets state (targets.foldl (arrive source time) state) := by
  induction targets generalizing state with
  | nil => exact arrived_nil time state
  | cons target targets ih =>
    exact (arrived_arrive source time state target).trans (ih (state.arrive source time target))

/-- An ending is kept unless a later one is found. -/
theorem finishAt_spec (node : Nat) (time : κ) (state : Advance κ) :
    (state.finishAt node time).distances = state.distances ∧
      ∃ most last, (state.finishAt node time).best = some (most, last) ∧ time ≤ most ∧
        ((most = time ∧ last = node) ∨ state.best = some (most, last)) ∧
        ∀ old other, state.best = some (old, other) → old ≤ most := by
  unfold finishAt
  cases hbest : state.best with
  | none => exact ⟨rfl, time, node, rfl, le_rfl, Or.inl ⟨rfl, rfl⟩, by simp⟩
  | some best =>
    obtain ⟨most, last⟩ := best
    by_cases hlt : most < time
    · simp only [hlt, if_true]
      refine ⟨trivial, time, node, rfl, le_rfl, Or.inl ⟨rfl, rfl⟩, ?_⟩
      intro old other hold
      cases hold
      exact hlt.le
    · simp only [hlt, if_false]
      refine ⟨trivial, most, last, hbest, not_lt.1 hlt, Or.inr rfl, ?_⟩
      intro old other hold
      cases hold
      exact le_rfl

end Advance

/-! ## Longest paths over the components -/

namespace Condensation

/-- The story can end in a component. -/
def Terminates (dag : Condensation κ) (node : Nat) : Prop :=
  ∃ component, dag.nodes[node]? = some component ∧ component.terminates = true

/-- The time of a component. -/
def time [Zero κ] (dag : Condensation κ) (node : Nat) : κ :=
  ((dag.nodes[node]?).map Component.cost).getD 0

/-- The order lists each component once, behind all that lead to it. -/
structure Sorted (dag : Condensation κ) : Prop where
  nodup : dag.order.Nodup
  mem_iff : ∀ node, node ∈ dag.order ↔ (dag.nodes[node]?).isSome
  leads_mem : ∀ i j, dag.Leads i j → i ∈ dag.order
  forward : ∀ i j front back, dag.Leads i j → dag.order = front ++ j :: back → i ∈ front

/-- Nothing leads back to components that were already visited. -/
theorem Sorted.not_mem_front {dag : Condensation κ} (h : dag.Sorted) {i j : Nat}
    {front back : List Nat} (horder : dag.order = front ++ i :: back) (hleads : dag.Leads i j) :
    j ∉ front ++ [i] := by
  intro hj
  obtain ⟨before, after, heq⟩ := List.append_of_mem hj
  have horder' : dag.order = before ++ j :: (after ++ back) := by
    rw [horder, List.append_cons, heq]
    simp
  have hbefore := h.forward i j before (after ++ back) hleads horder'
  have hafter : i ∈ j :: after := by
    have hlast : (before ++ j :: after).getLast? = some i := by rw [← heq]; simp
    rw [List.getLast?_append_cons] at hlast
    exact List.mem_of_getLast? hlast
  have hnodup := h.nodup
  rw [horder', ← List.cons_append, ← List.append_assoc] at hnodup
  exact (List.nodup_append.1 (List.nodup_append.1 hnodup).1).2.2 i hbefore i hafter rfl

end Condensation

namespace Advance

variable [AddCommMonoid κ] [LinearOrder κ]
variable {dag : Condensation κ} {start : Nat} {front back : List Nat} {state : Advance κ}

/-- What the pass knows after the components of `front`: times of paths, and no path over these
    components is longer. -/
structure Inv (dag : Condensation κ) (start : Nat) (front : List Nat) (state : Advance κ) :
    Prop where
  sound : ∀ node distance, state.distances.lookup node = some distance →
    ∃ path, Path dag.Leads start node (path ++ [node]) ∧ distance = (path.map dag.time).sum
  started : ∃ distance, state.distances.lookup start = some distance ∧ 0 ≤ distance
  relaxed : ∀ i ∈ front, ∀ distance, state.distances.lookup i = some distance →
    ∀ j, dag.Leads i j → ∃ distance', state.distances.lookup j = some distance' ∧
      distance + dag.time i ≤ distance'
  best_sound : ∀ most last, state.best = some (most, last) → dag.Terminates last ∧
    ∃ path, Path dag.Leads start last path ∧ most = (path.map dag.time).sum
  best_most : ∀ i ∈ front, ∀ distance, state.distances.lookup i = some distance →
    dag.Terminates i → ∃ most last, state.best = some (most, last) ∧
      distance + dag.time i ≤ most

theorem inv_start (dag : Condensation κ) (start : Nat) : Inv dag start [] (Advance.start start) := by
  have hlookup : ∀ node distance, (Advance.start start : Advance κ).distances.lookup node =
      some distance → node = start ∧ distance = 0 := by
    intro node distance h
    rw [Advance.start, List.lookup_cons] at h
    split at h
    · rename_i hnode
      cases h
      exact ⟨by simpa using hnode, rfl⟩
    · cases h
  refine ⟨?_, ⟨0, by simp [Advance.start], le_rfl⟩, by simp, ?_, by simp⟩
  · intro node distance h
    obtain ⟨rfl, rfl⟩ := hlookup node distance h
    exact ⟨[], Path.single _ node, rfl⟩
  · intro most last h
    cases h

/-- Ending the story in a visited component. -/
theorem Inv.finish (h : Inv dag start front state) {node : Nat} {distance : κ}
    (hlookup : state.distances.lookup node = some distance) (hterminates : dag.Terminates node) :
    Inv dag start front (state.finishAt node (distance + dag.time node)) ∧
      ∃ most last, (state.finishAt node (distance + dag.time node)).best = some (most, last) ∧
        distance + dag.time node ≤ most := by
  obtain ⟨hdistances, most, last, hbest, hle, hsource, hkeep⟩ :=
    finishAt_spec node (distance + dag.time node) state
  refine ⟨⟨?_, ?_, ?_, ?_, ?_⟩, most, last, hbest, hle⟩
  · rw [hdistances]
    exact h.sound
  · rw [hdistances]
    exact h.started
  · rw [hdistances]
    exact h.relaxed
  · intro most' last' hbest'
    rw [hbest] at hbest'
    cases hbest'
    rcases hsource with ⟨rfl, rfl⟩ | hold
    · obtain ⟨path, hpath, rfl⟩ := h.sound last distance hlookup
      exact ⟨hterminates, path ++ [last], hpath, by simp⟩
    · exact h.best_sound most last hold
  · intro i hi known hknown hi'
    rw [hdistances] at hknown
    obtain ⟨old, other, hold, hle'⟩ := h.best_most i hi known hknown hi'
    exact ⟨most, last, hbest, hle'.trans (hkeep old other hold)⟩

/-- Leaving a visited component: what it leads to is not visited yet, so the times that were used
    before stay as they are. -/
theorem Inv.leave (h : Inv dag start front state) (hsorted : dag.Sorted) {node : Nat}
    {distance : κ} (horder : dag.order = front ++ node :: back)
    (hlookup : state.distances.lookup node = some distance)
    (hbest : dag.Terminates node → ∃ most last, state.best = some (most, last) ∧
      distance + dag.time node ≤ most) :
    Inv dag start (front ++ [node])
      ((dag.successors node).foldl (arrive node (distance + dag.time node)) state) := by
  have harrived := arrived_foldl node (distance + dag.time node) (dag.successors node) state
  generalize (dag.successors node).foldl (arrive node (distance + dag.time node)) state = after
    at harrived
  have hvisited : ∀ i ∈ front ++ [node], after.distances.lookup i = state.distances.lookup i := by
    intro i hi
    refine harrived.others i fun hsucc => ?_
    exact hsorted.not_mem_front horder (CostedGraph.mem_successors_condense.1 hsucc) hi
  refine ⟨?_, ?_, ?_, ?_, ?_⟩
  · intro other known hknown
    rcases harrived.source other known hknown with hold | ⟨hsucc, rfl⟩
    · exact h.sound other known hold
    · obtain ⟨path, hpath, rfl⟩ := h.sound node distance hlookup
      exact ⟨path ++ [node], hpath.snoc (CostedGraph.mem_successors_condense.1 hsucc), by simp⟩
  · obtain ⟨known, hknown, hle⟩ := h.started
    obtain ⟨known', hknown', hle'⟩ := harrived.later start known hknown
    exact ⟨known', hknown', hle.trans hle'⟩
  · intro i hi known hknown j hleads
    rw [hvisited i hi] at hknown
    rcases List.mem_append.1 hi with hi | hi
    · obtain ⟨known', hknown', hle⟩ := h.relaxed i hi known hknown j hleads
      obtain ⟨known'', hknown'', hle'⟩ := harrived.later j known' hknown'
      exact ⟨known'', hknown'', hle.trans hle'⟩
    · obtain rfl := List.mem_singleton.1 hi
      rw [hlookup] at hknown
      cases hknown
      exact harrived.reached j (CostedGraph.mem_successors_condense.2 hleads)
  · rw [harrived.best_eq]
    exact h.best_sound
  · intro i hi known hknown hterminates
    rw [hvisited i hi] at hknown
    rw [harrived.best_eq]
    rcases List.mem_append.1 hi with hi | hi
    · exact h.best_most i hi known hknown hterminates
    · obtain rfl := List.mem_singleton.1 hi
      rw [hlookup] at hknown
      cases hknown
      exact hbest hterminates

/-- A component that was not reached adds nothing. -/
theorem Inv.skip (h : Inv dag start front state) {node : Nat}
    (hlookup : state.distances.lookup node = none) : Inv dag start (front ++ [node]) state := by
  refine ⟨h.sound, h.started, ?_, h.best_sound, ?_⟩
  · intro i hi known hknown
    rcases List.mem_append.1 hi with hi | hi
    · exact h.relaxed i hi known hknown
    · rw [List.mem_singleton.1 hi, hlookup] at hknown
      cases hknown
  · intro i hi known hknown
    rcases List.mem_append.1 hi with hi | hi
    · exact h.best_most i hi known hknown
    · rw [List.mem_singleton.1 hi, hlookup] at hknown
      cases hknown

/-- A component that was not reached is passed over. Any other is taken as an ending, if it is one,
    and left. -/
theorem pass_cases (hsorted : dag.Sorted) {node : Nat} (hnode : node ∈ dag.order)
    (state : Advance κ) :
    (state.distances.lookup node = none ∧ pass dag state node = state) ∨
    ∃ distance ended, state.distances.lookup node = some distance ∧
      (dag.Terminates node ∧ ended = state.finishAt node (distance + dag.time node) ∨
        ¬ dag.Terminates node ∧ ended = state) ∧
      pass dag state node =
        (dag.successors node).foldl (arrive node (distance + dag.time node)) ended := by
  obtain ⟨component, hcomponent⟩ := Option.isSome_iff_exists.1 ((hsorted.mem_iff node).1 hnode)
  have htime : dag.time node = component.cost := by simp [Condensation.time, hcomponent]
  have hterminates : dag.Terminates node ↔ component.terminates = true := by
    simp [Condensation.Terminates, hcomponent]
  unfold pass
  rw [hcomponent]
  cases hlookup : state.distances.lookup node with
  | none => exact Or.inl ⟨rfl, rfl⟩
  | some distance =>
    refine Or.inr ⟨distance, _, rfl, ?_, by rw [htime]⟩
    by_cases hend : component.terminates = true
    · rw [if_pos hend, htime]
      exact Or.inl ⟨hterminates.2 hend, rfl⟩
    · rw [if_neg hend]
      exact Or.inr ⟨fun h => hend (hterminates.1 h), rfl⟩

theorem Inv.pass (h : Inv dag start front state) (hsorted : dag.Sorted) {node : Nat}
    (horder : dag.order = front ++ node :: back) :
    Inv dag start (front ++ [node]) (Advance.pass dag state node) := by
  have hnode : node ∈ dag.order := by simp [horder]
  rcases pass_cases hsorted hnode state with ⟨hlookup, hpass⟩ |
    ⟨distance, ended, hlookup, hended, hpass⟩
  · rw [hpass]
    exact h.skip hlookup
  · rw [hpass]
    rcases hended with ⟨hterminates, rfl⟩ | ⟨hgoes, rfl⟩
    · obtain ⟨hfinish, hbest⟩ := h.finish hlookup hterminates
      refine hfinish.leave hsorted horder ?_ fun _ => hbest
      rw [(finishAt_spec node (distance + dag.time node) state).1, hlookup]
    · exact h.leave hsorted horder hlookup fun hterminates => absurd hterminates hgoes

/-- At the end no path is longer than the known time. -/
theorem Inv.le_distance [IsOrderedAddMonoid κ] (h : Inv dag start dag.order state) (hsorted : dag.Sorted)
    {node : Nat} {path : List Nat} (hpath : Path dag.Leads start node (path ++ [node])) :
    ∃ distance, state.distances.lookup node = some distance ∧
      (path.map dag.time).sum ≤ distance := by
  induction path using List.reverseRecOn generalizing node with
  | nil =>
    rcases hpath.cases_snoc with ⟨-, rfl⟩ | ⟨previous, front, heq, hfront, -⟩
    · simpa using h.started
    · obtain rfl : front = [] := by simpa using heq.symm
      simpa using hfront.starts
  | append_singleton path previous ih =>
    rcases hpath.cases_snoc with ⟨heq, -⟩ | ⟨previous', front, heq, hfront, hleads⟩
    · have hlength := congrArg List.length heq
      simp at hlength
    · obtain rfl : path ++ [previous] = front := List.append_cancel_right heq
      obtain rfl : previous = previous' := by simpa using hfront.ends
      obtain ⟨distance, hlookup, hle⟩ := ih hfront
      obtain ⟨distance', hlookup', hle'⟩ := h.relaxed previous (hsorted.leads_mem _ _ hleads)
        distance hlookup node hleads
      refine ⟨distance', hlookup', le_trans ?_ hle'⟩
      simpa using add_le_add_left hle (dag.time previous)

end Advance

/-- What each component keeps, coming behind those that lead to it, the whole pass keeps. -/
theorem Condensation.advance_induction [Zero κ] [Add κ] [LinearOrder κ] {dag : Condensation κ}
    {motive : List Nat → Advance κ → Prop}
    (hpass : ∀ (front : List Nat) (node : Nat) (back : List Nat) (state : Advance κ),
      dag.order = front ++ node :: back → motive front state →
      motive (front ++ [node]) (Advance.pass dag state node))
    {start : Nat} (hstart : motive [] (Advance.start start)) :
    motive dag.order (dag.advance start) := by
  suffices hrest : ∀ (back front : List Nat) (state : Advance κ), dag.order = front ++ back →
      motive front state → motive dag.order (back.foldl (Advance.pass dag) state) from
    hrest dag.order [] (Advance.start start) rfl hstart
  intro back
  induction back with
  | nil =>
    intro front state horder h
    rw [List.append_nil] at horder
    rw [horder]
    exact h
  | cons node back ih =>
    intro front state horder h
    refine ih (front ++ [node]) _ ?_ (hpass front node back state horder h)
    rw [horder]
    simp

/-- The best ending found is the longest path to one. -/
theorem Condensation.advance_spec [AddCommMonoid κ] [LinearOrder κ] [IsOrderedAddMonoid κ]
    {dag : Condensation κ} (hsorted : dag.Sorted) (start : Nat) :
    (∀ most last, (dag.advance start).best = some (most, last) → dag.Terminates last ∧
      ∃ path, Path dag.Leads start last path ∧ most = (path.map dag.time).sum) ∧
    ∀ last path, dag.Terminates last → Path dag.Leads start last path →
      ∃ most last', (dag.advance start).best = some (most, last') ∧
        (path.map dag.time).sum ≤ most := by
  have h : Advance.Inv dag start dag.order (dag.advance start) :=
    advance_induction (fun _ _ _ _ horder hstate => hstate.pass hsorted horder)
      (Advance.inv_start dag start)
  refine ⟨h.best_sound, ?_⟩
  intro last path hterminates hpath
  obtain ⟨front, rfl⟩ : ∃ front, path = front ++ [last] := by
    obtain ⟨front, hfront⟩ := List.getLast?_eq_some_iff.1 hpath.ends
    exact ⟨front, hfront⟩
  obtain ⟨distance, hlookup, hle⟩ := h.le_distance hsorted hpath
  have hmem : last ∈ dag.order := by
    obtain ⟨component, hcomponent, -⟩ := hterminates
    exact (hsorted.mem_iff last).2 (by simp [hcomponent])
  obtain ⟨most, last', hbest, hle'⟩ := h.best_most last hmem distance hlookup hterminates
  refine ⟨most, last', hbest, le_trans ?_ hle'⟩
  simpa using add_le_add_left hle (dag.time last)

/-! ## From walks to components and back -/

namespace CostedGraph

variable {graph : CostedGraph κ}

/-- The blocks of the component with a number. -/
def members (graph : CostedGraph κ) (number : Nat) : List Label :=
  (graph.components[number]?).getD []

theorem Trim.mem_members_iff (h : graph.Trim) {label : Label} {number : Nat} :
    label ∈ graph.members number ↔
      Condensation.numberOf graph.components label = some number := by
  rw [h.numberOf_eq_some_iff, members]
  cases graph.components[number]? <;> simp

theorem Trim.nodup_members (h : graph.Trim) (number : Nat) : (graph.members number).Nodup := by
  unfold members
  cases hget : graph.components[number]? with
  | none => exact List.nodup_nil
  | some members =>
    exact (h.splitting.sublist members (List.mem_of_getElem? hget)).nodup h.nodup_labels

section

variable [Zero κ] [Add κ]

theorem Trim.sorted (h : graph.Trim) : graph.condense.Sorted where
  nodup := graph.order_perm.nodup_iff.2 List.nodup_range
  mem_iff := by
    intro node
    rw [mem_order_iff, ← length_nodes_condense, isSome_getElem?]
  leads_mem := by
    intro i j hleads
    obtain ⟨-, a, b, -, ha, -⟩ := h.leads_condense_iff.1 hleads
    exact mem_order_iff.2 (h.lt_of_numberOf ha)
  forward := fun _ _ _ _ hleads horder => h.order_forward hleads horder

theorem findIdx?_nodes_condense (graph : CostedGraph κ) (label : Label) :
    graph.condense.nodes.findIdx? (label ∈ ·.members) =
      Condensation.numberOf graph.components label := by
  simp only [condense, List.findIdx?_map, Condensation.numberOf]
  rfl

theorem terminates_iff {number : Nat} :
    graph.condense.Terminates number ↔ ∃ label block, label ∈ graph.members number ∧
      graph.atlas label = some block ∧ block.Stops false := by
  unfold Condensation.Terminates members
  rw [getElem?_nodes_condense]
  cases graph.components[number]? with
  | none => simp
  | some members =>
    simp only [Option.map_some, Option.some.injEq, exists_eq_left', Option.getD_some, component,
      List.any_eq_true, List.mem_filterMap, Block.stops_false_iff, atlas_eq, Option.map_eq_some_iff]
    constructor
    · rintro ⟨costed, ⟨label, hlabel, hget⟩, hterminal⟩
      exact ⟨label, costed.block, hlabel, ⟨costed, hget, rfl⟩, hterminal⟩
    · rintro ⟨label, _, hlabel, ⟨costed, hget, rfl⟩, hterminal⟩
      exact ⟨costed, ⟨label, hlabel, hget⟩, hterminal⟩

/-- A walk moves along a path of components. -/
theorem Trim.path_of_walk (h : graph.Trim) {a b : Label} {walk : List Label} {start : Nat}
    (hwalk : Path graph.atlas.Leads a b walk)
    (ha : Condensation.numberOf graph.components a = some start) :
    ∃ last path, b ∈ graph.members last ∧ Path graph.condense.Leads start last path ∧
      ∀ label ∈ walk, ∃ number ∈ path, label ∈ graph.members number := by
  induction walk generalizing a start with
  | nil => simpa using hwalk.starts
  | cons first walk ih =>
    rcases hwalk.cases_cons with ⟨heq, rfl⟩ | ⟨next, rest, heq, hleads, hrest⟩
    · obtain ⟨rfl, rfl⟩ := List.cons.inj heq
      refine ⟨start, [start], h.mem_members_iff.2 ha, Path.single _ start, ?_⟩
      intro label hlabel
      rw [List.mem_singleton.1 hlabel]
      exact ⟨start, List.mem_cons_self, h.mem_members_iff.2 ha⟩
    · obtain ⟨rfl, rfl⟩ := List.cons.inj heq
      obtain ⟨number, hnumber⟩ := h.exists_numberOf
        (h.mem_labels_of_reaches (mem_labels_of_leads hleads) (.single hleads))
      obtain ⟨last, path, hlast, hpath, hcover⟩ := ih hrest hnumber
      by_cases hsame : start = number
      · -- the step stays inside a component
        subst hsame
        refine ⟨last, path, hlast, hpath, ?_⟩
        intro label hlabel
        rcases List.mem_cons.1 hlabel with rfl | hlabel
        · exact ⟨start, List.mem_of_head? hpath.starts, h.mem_members_iff.2 ha⟩
        · exact hcover label hlabel
      · have hexit : graph.condense.Leads start number :=
          h.leads_condense_iff.2 ⟨hsame, first, next, hleads, ha, hnumber⟩
        refine ⟨last, start :: path, hlast, hpath.cons hexit, ?_⟩
        intro label hlabel
        rcases List.mem_cons.1 hlabel with rfl | hlabel
        · exact ⟨start, List.mem_cons_self, h.mem_members_iff.2 ha⟩
        · obtain ⟨other, hother, hmem⟩ := hcover label hlabel
          exact ⟨other, List.mem_cons_of_mem start hother, hmem⟩

end

/-- Inside a component there is a way from any block past any given blocks to any other. -/
theorem exists_tour (visits : List Label) {a b : Label} (hb : graph.atlas.Mutual a b)
    (hvisits : ∀ label ∈ visits, graph.atlas.Mutual a label) :
    ∃ rest, Path graph.atlas.Leads a b (a :: rest) ∧ visits ⊆ a :: rest := by
  induction visits generalizing a with
  | nil =>
    obtain ⟨rest, hrest⟩ := exists_path hb.1
    exact ⟨rest, hrest, List.nil_subset _⟩
  | cons visit visits ih =>
    have hvisit := hvisits visit List.mem_cons_self
    obtain ⟨first, hfirst⟩ := exists_path hvisit.1
    obtain ⟨second, hsecond, hcover⟩ := ih (hvisit.symm.trans hb) fun label hlabel =>
      hvisit.symm.trans (hvisits label (List.mem_cons_of_mem visit hlabel))
    refine ⟨first ++ second, hfirst.trans hsecond, ?_⟩
    have hmem : visit ∈ a :: first := List.mem_of_getLast? hfirst.ends
    rw [← List.cons_append]
    intro label hlabel
    rcases List.mem_cons.1 hlabel with rfl | hlabel
    · exact List.mem_append_left _ hmem
    · rcases List.mem_cons.1 (hcover hlabel) with rfl | hlabel
      · exact List.mem_append_left _ hmem
      · exact List.mem_append_right _ hlabel

/-- Some walk tours all blocks of the components on a path. -/
theorem Trim.walk_of_path [Zero κ] [Add κ] (h : graph.Trim) {start last : Nat} {path : List Nat}
    (hpath : Path graph.condense.Leads start last path) {a b : Label}
    (ha : a ∈ graph.members start) (hb : b ∈ graph.members last) :
    ∃ rest, Path graph.atlas.Leads a b (a :: rest) ∧
      ∀ number ∈ path, graph.members number ⊆ a :: rest := by
  have hmutual : ∀ {number : Nat} {x y : Label}, x ∈ graph.members number →
      y ∈ graph.members number → graph.atlas.Mutual x y := by
    intro number x y hx hy
    exact (h.numberOf_eq_iff (h.mem_members_iff.1 hx)).1 (h.mem_members_iff.1 hy)
  induction path generalizing a start with
  | nil => simpa using hpath.starts
  | cons first path ih =>
    rcases hpath.cases_cons with ⟨heq, rfl⟩ | ⟨next, tail, heq, hexit, htail⟩
    · obtain ⟨rfl, rfl⟩ := List.cons.inj heq
      obtain ⟨rest, hrest, hcover⟩ := exists_tour (graph.members first) (hmutual ha hb)
        fun label hlabel => hmutual ha hlabel
      refine ⟨rest, hrest, ?_⟩
      intro number hnumber
      rwa [List.mem_singleton.1 hnumber]
    · obtain ⟨rfl, rfl⟩ := List.cons.inj heq
      obtain ⟨-, c, d, hleads, hc, hd⟩ := h.leads_condense_iff.1 hexit
      obtain ⟨tour, htour, hcover⟩ := exists_tour (graph.members first)
        (hmutual ha (h.mem_members_iff.2 hc)) fun label hlabel => hmutual ha hlabel
      obtain ⟨rest, hrest, hcovers⟩ := ih htail (h.mem_members_iff.2 hd)
      refine ⟨tour ++ d :: rest, htour.trans (hrest.cons hleads), ?_⟩
      rw [← List.cons_append]
      intro number hnumber
      rcases List.mem_cons.1 hnumber with rfl | hnumber
      · exact fun label hlabel => List.mem_append_left _ (hcover hlabel)
      · exact fun label hlabel => List.mem_append_right _ (hcovers number hnumber hlabel)

/-! ## Times -/

section

variable [AddCommMonoid κ]

theorem Trim.time_condense (h : graph.Trim) (number : Nat) :
    graph.condense.time number = ((graph.members number).map graph.time).sum := by
  unfold Condensation.time members
  rw [getElem?_nodes_condense]
  cases hget : graph.components[number]? with
  | none => simp
  | some members =>
    have hsub := (h.splitting.sublist members (List.mem_of_getElem? hget)).subset
    simp only [Option.map_some, Option.getD_some, component]
    rw [foldl_add_eq_sum (fun costed : CostedBlock κ => costed.cost.total), zero_add,
      List.map_filterMap]
    clear hget
    induction members with
    | nil => rfl
    | cons label members ih =>
      have hlabel : (graph.get? label).isSome := by
        have := (mem_labels_iff label).1 (hsub List.mem_cons_self)
        rw [atlas_eq] at this
        simpa using this
      obtain ⟨costed, hcosted⟩ := Option.isSome_iff_exists.1 hlabel
      rw [List.filterMap_cons, hcosted, List.map_cons, List.sum_cons]
      simp only [Option.map_some, List.sum_cons]
      rw [ih fun other hother => hsub (List.mem_cons_of_mem label hother)]
      simp [time, hcosted]

/-- The time of a path of components is that of all their blocks. -/
theorem Trim.sum_time_condense (h : graph.Trim) (path : List Nat) :
    (path.map graph.condense.time).sum = ((path.flatMap graph.members).map graph.time).sum := by
  induction path with
  | nil => rfl
  | cons number path ih =>
    rw [List.map_cons, List.sum_cons, ih, h.time_condense, List.flatMap_cons, List.map_append,
      List.sum_append]

end

/-- No component occurs twice on a path of components, so no block does. -/
theorem Trim.nodup_of_path [Zero κ] [Add κ] (h : graph.Trim) {start last : Nat} {path : List Nat}
    (hpath : Path graph.condense.Leads start last path) : (path.flatMap graph.members).Nodup := by
  have hnodup : path.Nodup := by
    induction path generalizing start with
    | nil => exact List.nodup_nil
    | cons first path ih =>
      rcases hpath.cases_cons with ⟨heq, -⟩ | ⟨next, tail, heq, hexit, htail⟩
      · rw [heq]
        exact List.nodup_singleton start
      · obtain ⟨rfl, rfl⟩ := List.cons.inj heq
        refine List.nodup_cons.2 ⟨?_, ih htail⟩
        intro hmem
        exact h.not_reach_back hexit (htail.reach_of_mem hmem).1
  refine List.nodup_flatMap.2 ⟨fun number _ => h.nodup_members number, ?_⟩
  refine hnodup.imp ?_
  intro i j hne label hi hj
  rw [h.mem_members_iff] at hi hj
  rw [hi, Option.some.injEq] at hj
  exact hne hj

section

variable [AddCommMonoid κ] [LinearOrder κ]

theorem longest_eq {start : Nat}
    (hstart : Condensation.numberOf graph.components .entry = some start) :
    graph.longest = (graph.condense.advance start).best.map fun (total, last) =>
      { total
        steps := (trail (graph.condense.advance start).hops graph.condense.order.length last
          [last]).filterMap fun node => graph.condense.nodes[node]?.map Component.step } := by
  unfold longest
  dsimp only
  rw [findIdx?_nodes_condense, hstart, Option.bind_eq_bind, Option.bind_some]
  cases (graph.condense.advance start).best <;> rfl

variable [IsOrderedAddMonoid κ]

theorem sum_time_le (hcost : ∀ costed ∈ graph.blocks, 0 ≤ costed.cost.total)
    {some all : List Label} (hnodup : some.Nodup) (hsub : some ⊆ all) :
    (some.map graph.time).sum ≤ (all.map graph.time).sum := by
  obtain ⟨kept, hperm, hsublist⟩ := hnodup.subperm hsub
  rw [← (hperm.map graph.time).sum_eq]
  refine (hsublist.map graph.time).sum_le_sum ?_
  intro time htime
  obtain ⟨label, -, rfl⟩ := List.mem_map.1 htime
  exact time_nonneg hcost label

/-- What a walk collects, each block once, is at most the time of some path of components. -/
theorem Trim.sum_dedup_le (h : graph.Trim)
    (hcost : ∀ costed ∈ graph.blocks, 0 ≤ costed.cost.total) {walk : List Label} {start : Nat}
    (hstart : Condensation.numberOf graph.components .entry = some start)
    (hwalk : graph.atlas.IsWalk .entry false walk) :
    ∃ last path, graph.condense.Terminates last ∧ Path graph.condense.Leads start last path ∧
      (walk.dedup.map graph.time).sum ≤ (path.map graph.condense.time).sum := by
  obtain ⟨label, block, hpath, hblock, hstops⟩ := hwalk
  obtain ⟨last, path, hlast, hpath', hcover⟩ := h.path_of_walk hpath hstart
  refine ⟨last, path, terminates_iff.2 ⟨label, block, hlast, hblock, hstops⟩, hpath', ?_⟩
  rw [h.sum_time_condense]
  refine sum_time_le hcost (List.nodup_dedup walk) ?_
  intro other hother
  obtain ⟨number, hnumber, hmem⟩ := hcover other (List.mem_dedup.1 hother)
  exact List.mem_flatMap.2 ⟨number, hnumber, hmem⟩

/-- Some walk collects at least the time of a path of components. -/
theorem Trim.le_sum_dedup (h : graph.Trim)
    (hcost : ∀ costed ∈ graph.blocks, 0 ≤ costed.cost.total) {start last : Nat} {path : List Nat}
    (hstart : Condensation.numberOf graph.components .entry = some start)
    (hterminates : graph.condense.Terminates last)
    (hpath : Path graph.condense.Leads start last path) :
    ∃ walk, graph.atlas.IsWalk .entry false walk ∧
      (path.map graph.condense.time).sum ≤ (walk.dedup.map graph.time).sum := by
  obtain ⟨label, block, hlabel, hblock, hstops⟩ := terminates_iff.1 hterminates
  obtain ⟨rest, hwalk, hcover⟩ := h.walk_of_path hpath (h.mem_members_iff.2 hstart) hlabel
  refine ⟨.entry :: rest, ⟨label, block, hwalk, hblock, hstops⟩, ?_⟩
  rw [h.sum_time_condense]
  refine sum_time_le hcost (h.nodup_of_path hpath) ?_
  intro other hother
  obtain ⟨number, hnumber, hmem⟩ := List.mem_flatMap.1 hother
  exact List.mem_dedup.2 (hcover number hnumber hmem)

/-- A route exists exactly when a path of components leads to an ending, and takes as long as the
    longest such path. -/
theorem Trim.longest_spec (h : graph.Trim) {start : Nat}
    (hstart : Condensation.numberOf graph.components .entry = some start) :
    (∀ route, graph.longest = some route → ∃ last path, graph.condense.Terminates last ∧
      Path graph.condense.Leads start last path ∧
      route.total = (path.map graph.condense.time).sum) ∧
    ∀ last path, graph.condense.Terminates last → Path graph.condense.Leads start last path →
      ∃ route, graph.longest = some route ∧
        (path.map graph.condense.time).sum ≤ route.total := by
  obtain ⟨hsound, hmost⟩ := Condensation.advance_spec h.sorted start
  rw [longest_eq hstart]
  constructor
  · intro route hroute
    obtain ⟨⟨total, last⟩, hbest, rfl⟩ := Option.map_eq_some_iff.1 hroute
    obtain ⟨hterminates, path, hpath, htotal⟩ := hsound total last hbest
    exact ⟨last, path, hterminates, hpath, htotal⟩
  · intro last path hterminates hpath
    obtain ⟨most, last', hbest, hle⟩ := hmost last path hterminates hpath
    rw [hbest]
    exact ⟨_, rfl, hle⟩

/-- **Longest route.** A reduced story whose costs are not negative has a longest route exactly when
    it has an ending, and the route takes the most time that a walk from the entry to an ending can
    collect, where a block that the walk passes several times counts once. -/
theorem isGreatest_longest [FiniteCheck κ] {tally : Tally κ} {story : StoryGraph κ}
    (h : story.reduce tally = .ok graph)
    (hcost : ∀ costed ∈ graph.blocks, 0 ≤ costed.cost.total) :
    (graph.longest.isSome ↔ ∃ costed ∈ graph.blocks, costed.block.isTerminal = true) ∧
    ∀ route, graph.longest = some route →
      IsGreatest {time | ∃ walk, graph.atlas.IsWalk .entry false walk ∧
        time = (walk.dedup.map graph.time).sum} route.total := by
  have htrim := trim_of_reduce h
  have hentry : Label.entry ∈ graph.labels := htrim.mem_labels_iff_reaches.2 .refl
  obtain ⟨start, hstart⟩ := htrim.exists_numberOf hentry
  obtain ⟨hsound, hmost⟩ := htrim.longest_spec hstart
  have hbound : ∀ walk, graph.atlas.IsWalk .entry false walk →
      ∃ route, graph.longest = some route ∧
        (walk.dedup.map graph.time).sum ≤ route.total := by
    intro walk hwalk
    obtain ⟨last, path, hterminates, hpath, hle⟩ := htrim.sum_dedup_le hcost hstart hwalk
    obtain ⟨route, hroute, hle'⟩ := hmost last path hterminates hpath
    exact ⟨route, hroute, hle.trans hle'⟩
  refine ⟨⟨?_, ?_⟩, ?_⟩
  · intro hsome
    obtain ⟨route, hroute⟩ := Option.isSome_iff_exists.1 hsome
    obtain ⟨last, path, hterminates, -, -⟩ := hsound route hroute
    obtain ⟨label, block, -, hblock, hstops⟩ := terminates_iff.1 hterminates
    rw [atlas_eq, Option.map_eq_some_iff] at hblock
    obtain ⟨costed, hget, rfl⟩ := hblock
    exact ⟨costed, List.mem_of_find?_eq_some hget, (Block.stops_false_iff _).1 hstops⟩
  · rintro ⟨costed, hcosted, hterminal⟩
    have hget := htrim.get?_eq_some_iff.2 ⟨hcosted, rfl⟩
    have hatlas : graph.atlas costed.label = some costed.block := by rw [atlas_eq, hget]; rfl
    obtain ⟨rest, hpath⟩ := exists_path ((htrim.isSome_iff costed.label).1 (by simp [hatlas]))
    obtain ⟨route, hroute, -⟩ := hbound _
      ⟨costed.label, costed.block, hpath, hatlas, (Block.stops_false_iff _).2 hterminal⟩
    simp [hroute]
  · intro route hroute
    have hupper : ∀ walk, graph.atlas.IsWalk .entry false walk →
        (walk.dedup.map graph.time).sum ≤ route.total := by
      intro walk hwalk
      obtain ⟨route', hroute', hle⟩ := hbound walk hwalk
      rw [hroute] at hroute'
      cases hroute'
      exact hle
    constructor
    · obtain ⟨last, path, hterminates, hpath, htotal⟩ := hsound route hroute
      obtain ⟨walk, hwalk, hle⟩ := htrim.le_sum_dedup hcost hstart hterminates hpath
      exact ⟨walk, hwalk, le_antisymm (htotal ▸ hle) (hupper walk hwalk)⟩
    · rintro time ⟨walk, hwalk, rfl⟩
      exact hupper walk hwalk

end

/-- Going around the loop once and then home takes the most. -/
theorem isGreatest_longest_loop :
    loopStory.reduce pauses = .ok loopGraph ∧
    (∀ costed ∈ loopGraph.blocks, 0 ≤ costed.cost.total) ∧
    loopGraph.longest = some ⟨10, [.block .entry, .loop [.named "evening", .named "morning"],
      .block (.named "home")]⟩ ∧
    IsGreatest {time | ∃ walk, loopGraph.atlas.IsWalk .entry false walk ∧
      time = (walk.dedup.map loopGraph.time).sum} (10 : Rat) := by
  have hlongest : loopGraph.longest = some ⟨10, [.block .entry,
      .loop [.named "evening", .named "morning"], .block (.named "home")]⟩ := by cbv
  exact ⟨reduce_loopStory, cost_loopGraph_nonneg, hlongest,
    (isGreatest_longest reduce_loopStory cost_loopGraph_nonneg).2 _ hlongest⟩

end CostedGraph

end Playthrough
