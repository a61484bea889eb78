import Playthrough.Proofs.Route.Itinerary

/-!
# Contracting the loops of a story

The longest route is sought over components. What makes this right is said here in one place: which
blocks a component holds, what it costs, whether the story can end in it, which exits are left
between components, and in which order they are visited.

The components are found by one traversal against the exits and one along them, each with a stack on
which a block may stand several times. The order comes from a third traversal, over the components.
Sorting would fail if the exits between components closed a loop, and then the components would be
visited by number. This never happens.

* `CostedGraph.IsCondensation`: all that is asked of the contracted story.
* `isCondensation_condense`: the contracted story of a reduced story.
-/

namespace Playthrough

open Relation

variable {κ : Type} [Zero κ] [Add κ]

namespace CostedGraph

/-- A contracted story holds the loops of a story as components, and visits them along the exits. -/
structure IsCondensation (graph : CostedGraph κ) (dag : Condensation κ) : Prop where
  /-- A component holds blocks, at least one. -/
  blocks : ∀ component ∈ dag.nodes, component.members ≠ [] ∧ component.members ⊆ graph.labels
  /-- Every block is in exactly one component. -/
  unique : ∀ label ∈ graph.labels, ∃! number : Nat, ∃ component,
    dag.nodes[number]? = some component ∧ label ∈ component.members
  /-- Two blocks are in the same component if each can be reached from the other, and only then. -/
  same_iff : ∀ a ∈ graph.labels, ∀ b ∈ graph.labels,
    (∃ component ∈ dag.nodes, a ∈ component.members ∧ b ∈ component.members) ↔
      graph.atlas.Reaches a b ∧ graph.atlas.Reaches b a
  ascending : ∀ component ∈ dag.nodes, Ascending id component.members
  /-- The costs of the blocks are added up in the order of the blocks. -/
  cost : ∀ component ∈ dag.nodes,
    component.cost = (component.members.map graph.time).foldl (· + ·) 0
  terminates_iff : ∀ component ∈ dag.nodes, component.terminates = true ↔
    ∃ costed ∈ graph.blocks, costed.label ∈ component.members ∧ costed.block.isTerminal = true
  /-- There is an exit from one component to another if a block of the first leads to a block of the
      second, and only then. -/
  exit_iff : ∀ i j first second, dag.nodes[i]? = some first → dag.nodes[j]? = some second →
    i ≠ j → ((i, j) ∈ dag.exits ↔ ∃ costed ∈ graph.blocks, costed.label ∈ first.members ∧
      ∃ target ∈ costed.block.next, target ∈ second.members)
  /-- There are no exits but those between two components. -/
  exits : ∀ i j, (i, j) ∈ dag.exits → i ≠ j ∧ i < dag.nodes.length ∧ j < dag.nodes.length
  /-- The components can be sorted, so they are not visited by number. -/
  sorted : dag.sort? = some dag.order
  /-- Every component is visited once. -/
  perm : dag.order.Perm (List.range dag.nodes.length)
  /-- A component is visited after all that lead to it. -/
  forward : ∀ i j front back, (i, j) ∈ dag.exits → dag.order = front ++ j :: back → i ∈ front

variable {graph : CostedGraph κ}

/-! ## Components and their blocks -/

omit [Zero κ] [Add κ] in
theorem members_of_mem {members : List Label} (h : members ∈ graph.components) :
    ∃ number, graph.components[number]? = some members ∧ graph.members number = members := by
  obtain ⟨number, hnumber⟩ := List.getElem?_of_mem h
  exact ⟨number, hnumber, by rw [CostedGraph.members, hnumber]; rfl⟩

omit [Zero κ] [Add κ] in
/-- The number of a block's component finds the component. -/
theorem Trim.existsUnique_number (h : graph.Trim) {label : Label} (hlabel : label ∈ graph.labels) :
    ∃! number : Nat, ∃ members, graph.components[number]? = some members ∧ label ∈ members := by
  obtain ⟨number, hnumber⟩ := h.exists_numberOf hlabel
  refine ⟨number, h.numberOf_eq_some_iff.1 hnumber, fun other hother => ?_⟩
  have hother' := h.numberOf_eq_some_iff.2 hother
  rw [hnumber, Option.some.injEq] at hother'
  exact hother'.symm

omit [Zero κ] [Add κ] in
theorem Trim.same_members_iff (h : graph.Trim) {a b : Label} (ha : a ∈ graph.labels) :
    (∃ members ∈ graph.components, a ∈ members ∧ b ∈ members) ↔ graph.atlas.Mutual a b := by
  constructor
  · rintro ⟨members, hmembers, hin, hin'⟩
    obtain ⟨number, -, rfl⟩ := members_of_mem hmembers
    exact (h.mem_members_iff_mutual hin).1 hin'
  · intro hmutual
    obtain ⟨number, hnumber⟩ := h.exists_numberOf ha
    obtain ⟨members, hget, hin⟩ := h.numberOf_eq_some_iff.1 hnumber
    have hin' := (h.numberOf_eq_iff hnumber).2 hmutual
    obtain ⟨members', hget', hin'⟩ := h.numberOf_eq_some_iff.1 hin'
    obtain rfl := Option.some.inj (hget.symm.trans hget')
    exact ⟨members, List.mem_of_getElem? hget, hin, hin'⟩

/-- The cost of some blocks of a story is what they take, one after the other. -/
theorem cost_component {members : List Label} (hmembers : members ⊆ graph.labels) :
    (graph.component members).cost = (members.map graph.time).foldl (· + ·) 0 := by
  have hblocks : ∀ label ∈ members, ∃ costed, graph.get? label = some costed := by
    intro label hlabel
    have hsome := (mem_labels_iff label).1 (hmembers hlabel)
    rw [atlas_eq, Option.isSome_map] at hsome
    exact Option.isSome_iff_exists.1 hsome
  clear hmembers
  rw [component, List.foldl_map]
  generalize (0 : κ) = start
  induction members generalizing start with
  | nil => rfl
  | cons label members ih =>
    obtain ⟨costed, hget⟩ := hblocks label List.mem_cons_self
    have htime : graph.time label = costed.cost.total := by simp [time, hget]
    simp only [List.filterMap_cons, hget, List.foldl_cons, htime]
    exact ih (fun other hother => hblocks other (List.mem_cons_of_mem label hother)) _

theorem Trim.terminates_component_iff (h : graph.Trim) (members : List Label) :
    (graph.component members).terminates = true ↔
      ∃ costed ∈ graph.blocks, costed.label ∈ members ∧ costed.block.isTerminal = true := by
  rw [component, List.any_eq_true]
  constructor
  · rintro ⟨costed, hcosted, hterminal⟩
    obtain ⟨label, hlabel, hget⟩ := List.mem_filterMap.1 hcosted
    obtain ⟨hmem, rfl⟩ := h.get?_eq_some_iff.1 hget
    exact ⟨costed, hmem, hlabel, hterminal⟩
  · rintro ⟨costed, hmem, hlabel, hterminal⟩
    exact ⟨costed, List.mem_filterMap.2 ⟨costed.label, hlabel, h.get?_eq_some_iff.2 ⟨hmem, rfl⟩⟩,
      hterminal⟩

/-- An exit between two components is an exit between their blocks. -/
theorem Trim.mem_exits_condense_iff (h : graph.Trim) {i j : Nat} {first second : List Label}
    (hi : graph.components[i]? = some first) (hj : graph.components[j]? = some second)
    (hne : i ≠ j) :
    (i, j) ∈ graph.condense.exits ↔ ∃ costed ∈ graph.blocks, costed.label ∈ first ∧
      ∃ target ∈ costed.block.next, target ∈ second := by
  have hexit : (i, j) ∈ graph.condense.exits ↔ graph.condense.Leads i j := Iff.rfl
  rw [hexit, h.leads_condense_iff]
  constructor
  · rintro ⟨-, a, b, hleads, ha, hb⟩
    obtain ⟨costed, hget, hnext⟩ := leads_iff.1 hleads
    obtain ⟨hmem, rfl⟩ := h.get?_eq_some_iff.1 hget
    obtain ⟨members, hi', hin⟩ := h.numberOf_eq_some_iff.1 ha
    obtain ⟨members', hj', hin'⟩ := h.numberOf_eq_some_iff.1 hb
    obtain rfl := Option.some.inj (hi.symm.trans hi')
    obtain rfl := Option.some.inj (hj.symm.trans hj')
    exact ⟨costed, hmem, hin, b, hnext, hin'⟩
  · rintro ⟨costed, hmem, hin, target, hnext, hin'⟩
    have hget := h.get?_eq_some_iff.2 ⟨hmem, rfl⟩
    exact ⟨hne, costed.label, target, leads_iff.2 ⟨costed, hget, hnext⟩,
      h.numberOf_eq_some_iff.2 ⟨first, hi, hin⟩, h.numberOf_eq_some_iff.2 ⟨second, hj, hin'⟩⟩

/-- A component of the contracted story is made of a list of blocks. -/
theorem getElem?_condense_eq_some {number : Nat} {component : Component κ}
    (h : graph.condense.nodes[number]? = some component) :
    ∃ members, graph.components[number]? = some members ∧
      component = graph.component members := by
  rw [getElem?_nodes_condense, Option.map_eq_some_iff] at h
  obtain ⟨members, hget, rfl⟩ := h
  exact ⟨members, hget, rfl⟩

theorem mem_nodes_condense {component : Component κ} :
    component ∈ graph.condense.nodes ↔
      ∃ members ∈ graph.components, graph.component members = component :=
  List.mem_map

/-! ## The contracted story -/

theorem Trim.isCondensation (h : graph.Trim) : graph.IsCondensation graph.condense := by
  refine ⟨?_, ?_, ?_, ?_, ?_, ?_, ?_, ?_, h.sort?_condense, ?_, fun _ _ _ _ => h.order_forward⟩
  · intro component hcomponent
    obtain ⟨members, hmembers, rfl⟩ := mem_nodes_condense.1 hcomponent
    obtain ⟨leader, hleader, -⟩ := h.splitting.isLoop members hmembers
    exact ⟨List.ne_nil_of_mem hleader, (h.splitting.sublist members hmembers).subset⟩
  · intro label hlabel
    refine (existsUnique_congr fun number => ?_).1 (h.existsUnique_number hlabel)
    rw [getElem?_nodes_condense]
    cases graph.components[number]? with
    | none => simp
    | some members => simp [component]
  · intro a ha b _
    rw [← Atlas.Mutual, ← h.same_members_iff ha]
    constructor
    · rintro ⟨component, hcomponent, hin⟩
      obtain ⟨members, hmembers, rfl⟩ := mem_nodes_condense.1 hcomponent
      exact ⟨members, hmembers, hin⟩
    · rintro ⟨members, hmembers, hin⟩
      exact ⟨_, mem_nodes_condense.2 ⟨members, hmembers, rfl⟩, hin⟩
  · intro component hcomponent
    obtain ⟨members, hmembers, rfl⟩ := mem_nodes_condense.1 hcomponent
    obtain ⟨number, -, rfl⟩ := members_of_mem hmembers
    exact h.ascending_members number
  · intro component hcomponent
    obtain ⟨members, hmembers, rfl⟩ := mem_nodes_condense.1 hcomponent
    exact cost_component (h.splitting.sublist members hmembers).subset
  · intro component hcomponent
    obtain ⟨members, hmembers, rfl⟩ := mem_nodes_condense.1 hcomponent
    exact h.terminates_component_iff members
  · intro i j first second hi hj hne
    obtain ⟨members, hmembers, rfl⟩ := getElem?_condense_eq_some hi
    obtain ⟨members', hmembers', rfl⟩ := getElem?_condense_eq_some hj
    exact h.mem_exits_condense_iff hmembers hmembers' hne
  · intro i j hexit
    obtain ⟨hne, a, b, -, ha, hb⟩ := h.leads_condense_iff.1 hexit
    rw [length_nodes_condense]
    exact ⟨hne, h.lt_of_numberOf ha, h.lt_of_numberOf hb⟩
  · rw [length_nodes_condense]
    exact graph.order_perm

/-- **Contraction.** The contracted story of a reduced story holds its loops as components, each block
    in exactly one of them, and its components are visited once each, along the exits. -/
theorem isCondensation_condense [FiniteCheck κ] {tally : Tally κ} {story : StoryGraph κ}
    (h : story.reduce tally = .ok graph) : graph.IsCondensation graph.condense :=
  (trim_of_reduce h).isCondensation

/-- In the town only the market and the square can each be reached from the other. -/
theorem isCondensation_condense_town :
    townStory.reduce pauses = .ok townGraph ∧
    townGraph.condense.nodes.map (fun component => (component.members, component.cost)) =
      [([.named "inn"], 6), ([.named "market", .named "square"], 10), ([.named "ferry"], -3),
        ([.named "bridge"], -5), ([.entry], 1)] ∧
    townGraph.IsCondensation townGraph.condense := by
  exact ⟨reduce_townStory, by cbv, isCondensation_condense reduce_townStory⟩

end CostedGraph

end Playthrough
