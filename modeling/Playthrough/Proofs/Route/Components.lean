import Playthrough.Proofs.Route.Basic
import Playthrough.Proofs.Route.Traversal

/-!
# Components are loops

Two blocks are in the same component exactly when play can get from each of them to the other. The
leaders come in the order in which a traversal against the exits finishes them, so what a leader
still reaches can also reach it back.

Contracting the components leaves a graph without loops, and the order of its components follows the
exits between them.

* `numberOf_eq_iff`: the components.
* `leads_condense_iff`: the exits between them; `not_reach_back`: they close no loop.
* `sort?_condense`, `order_perm`, `order_forward`: the order in which they are visited.
-/

namespace Playthrough

open Relation

variable {κ : Type}

/-- Play can get from each of two labels to the other. -/
def Atlas.Mutual (atlas : Atlas κ) (a b : Label) : Prop := atlas.Reaches a b ∧ atlas.Reaches b a

theorem Atlas.Mutual.symm {atlas : Atlas κ} {a b : Label} (h : atlas.Mutual a b) :
    atlas.Mutual b a :=
  ⟨h.2, h.1⟩

theorem Atlas.Mutual.trans {atlas : Atlas κ} {a b c : Label} (hab : atlas.Mutual a b)
    (hbc : atlas.Mutual b c) : atlas.Mutual a c :=
  ⟨ReflTransGen.trans hab.1 hbc.1, ReflTransGen.trans hbc.2 hab.2⟩

/-- One component leads to another. -/
def Condensation.Leads (dag : Condensation κ) (i j : Nat) : Prop := (i, j) ∈ dag.exits

namespace CostedGraph

variable {graph : CostedGraph κ}

/-! ## Neighbours -/

theorem Trim.mem_targets_iff (h : graph.Trim) {costed : CostedBlock κ} {target : Label}
    (hcosted : costed ∈ graph.blocks) :
    target ∈ graph.targets costed ↔ target ∈ costed.block.next := by
  rw [targets, List.mem_eraseDups, List.mem_filter]
  refine ⟨fun h => h.1, ?_⟩
  intro htarget
  have hget : graph.get? costed.label = some costed := h.get?_eq_some_iff.2 ⟨hcosted, rfl⟩
  exact ⟨htarget, h.isSome_get?_of_leads (leads_iff.2 ⟨costed, hget, htarget⟩)⟩

theorem Trim.mem_successors_iff (h : graph.Trim) {a b : Label} :
    b ∈ graph.successors a ↔ graph.atlas.Leads a b := by
  rw [leads_iff, successors]
  cases hget : graph.get? a with
  | none => simp
  | some costed => simp [h.mem_targets_iff (h.get?_eq_some_iff.1 hget).1]

theorem Trim.mem_predecessors_iff (h : graph.Trim) {a b : Label} :
    a ∈ graph.predecessors b ↔ graph.atlas.Leads a b := by
  rw [leads_iff, predecessors, List.mem_reverse, List.mem_map]
  constructor
  · rintro ⟨costed, hcosted, rfl⟩
    obtain ⟨hmem, hnext⟩ := List.mem_filter.1 hcosted
    exact ⟨costed, h.get?_eq_some_iff.2 ⟨hmem, rfl⟩, by simpa using hnext⟩
  · rintro ⟨costed, hget, hnext⟩
    obtain ⟨hmem, hlabel⟩ := h.get?_eq_some_iff.1 hget
    exact ⟨costed, List.mem_filter.2 ⟨hmem, by simpa using hnext⟩, hlabel⟩

theorem Trim.reaches_of_successors (h : graph.Trim) {a b : Label} :
    ReflTransGen (Traversal.Edge graph.successors) a b ↔ graph.atlas.Reaches a b := by
  have heq : Traversal.Edge graph.successors = graph.atlas.Leads := by
    funext a b
    exact propext h.mem_successors_iff
  rw [heq]
  rfl

theorem Trim.reaches_of_predecessors (h : graph.Trim) {a b : Label} :
    ReflTransGen (Traversal.Edge graph.predecessors) a b ↔ graph.atlas.Reaches b a := by
  have heq : Traversal.Edge graph.predecessors = Function.swap graph.atlas.Leads := by
    funext a b
    exact propext h.mem_predecessors_iff
  rw [heq, reflTransGen_swap]
  rfl

/-! ## Splitting off components -/

/-- Between two leaders: what is found are whole components, and what is unseen is the rest. -/
structure Splitting (graph : CostedGraph κ) (unseen : List Label) (found : List (List Label)) :
    Prop where
  nodup : unseen.Nodup
  subset : unseen ⊆ graph.labels
  sublist : ∀ members ∈ found, members.Sublist graph.labels
  isLoop : ∀ members ∈ found, ∃ leader ∈ members, ∀ label, label ∈ members ↔
    graph.atlas.Mutual leader label
  apart : ∀ members ∈ found, ∀ label ∈ members, label ∉ unseen
  disjoint : found.Pairwise List.Disjoint
  covers : ∀ label ∈ graph.labels, label ∈ unseen ∨ ∃ members ∈ found, label ∈ members

/-- A component that is not yet found is unseen as a whole. -/
theorem Splitting.mem_unseen {unseen : List Label} {found : List (List Label)}
    (h : graph.Splitting unseen found) {leader label : Label} (hleader : leader ∈ unseen)
    (hlabel : label ∈ graph.labels) (hmutual : graph.atlas.Mutual leader label) :
    label ∈ unseen := by
  rcases h.covers label hlabel with hunseen | ⟨members, hmembers, hmem⟩
  · exact hunseen
  · obtain ⟨other, -, hother⟩ := h.isLoop members hmembers
    have hin : leader ∈ members := (hother leader).2 (((hother label).1 hmem).trans hmutual.symm)
    exact absurd hleader (h.apart members hmembers leader hin)

/-- What a leader still reaches is its component. -/
theorem Splitting.mem_added_iff {unseen front back added : List Label} {found : List (List Label)}
    {leader : Label} {result : Traversal Label} (htrim : graph.Trim)
    (h : graph.Splitting unseen found) (hleader : leader ∈ unseen)
    (hrest : unseen ⊆ leader :: back)
    (horder : Traversal.Postorder graph.predecessors (front ++ leader :: back))
    (hdrained : Traversal.Drained graph.successors unseen [] [leader] added result)
    (label : Label) : label ∈ added ↔ graph.atlas.Mutual leader label := by
  constructor
  · intro hlabel
    obtain ⟨root, hroot, -, hpath⟩ := hdrained.reach label hlabel
    obtain rfl := List.mem_singleton.1 hroot
    refine ⟨htrim.reaches_of_successors.1 (Traversal.EdgeInto.edges hpath), ?_⟩
    refine htrim.reaches_of_predecessors.1 (horder.reach_of_path ?_)
    refine ReflTransGen.mono ?_ _ _ (ReflTransGen.swap _ _ hpath)
    intro b a hedge
    exact ⟨hrest hedge.2, htrim.mem_predecessors_iff.2 (htrim.mem_successors_iff.1 hedge.1)⟩
  · rintro ⟨hto, hback⟩
    have hmem : ∀ other ∈ unseen, other ∉ result.unseen → other ∈ added := by
      intro other hother hnot
      rcases List.mem_append.1 (hdrained.perm.symm.subset hother) with hother | hother
      · exact hother
      · exact absurd hother hnot
    -- every block on the way is in the component, hence unseen before and found now
    induction hto with
    | refl => exact hmem leader hleader (hdrained.roots leader (List.mem_singleton.2 rfl))
    | @tail previous label hto hleads ih =>
      have hprevious := ih (.head hleads hback)
      refine hmem label ?_ (hdrained.closed previous hprevious label
        (htrim.mem_successors_iff.2 hleads))
      have hreach : graph.atlas.Reaches leader label := hto.tail hleads
      exact h.mem_unseen hleader (htrim.mem_labels_of_reaches (h.subset hleader) hreach)
        ⟨hreach, hback⟩

theorem Splitting.step {unseen front back : List Label} {found : List (List Label)}
    {leader : Label} (htrim : graph.Trim) (h : graph.Splitting unseen found)
    (hrest : unseen ⊆ leader :: back)
    (horder : Traversal.Postorder graph.predecessors (front ++ leader :: back)) :
    graph.Splitting (graph.splitComponent (unseen, found) leader).1
        (graph.splitComponent (unseen, found) leader).2 ∧
      (graph.splitComponent (unseen, found) leader).1 ⊆ back := by
  unfold splitComponent
  dsimp only
  split
  · rename_i hleader
    have hsettled : Traversal.Settled graph.successors unseen [] :=
      ⟨h.nodup, by simp, by simp, trivial⟩
    obtain ⟨added, hdrained⟩ := Traversal.drain_spec graph.successors _ unseen [] [leader] rfl
      hsettled (fun other hother hnot => absurd hleader (List.mem_singleton.1 hother ▸ hnot))
    have hadded := h.mem_added_iff htrim hleader hrest horder hdrained
    have hmembers : ∀ label, label ∈ graph.labels.filter (· ∈ (Traversal.drain graph.successors
        unseen [] [leader]).done) ↔ graph.atlas.Mutual leader label := by
      intro label
      rw [List.mem_filter, hdrained.done_eq, List.append_nil, decide_eq_true_iff, hadded]
      refine ⟨fun hlabel => hlabel.2, fun hlabel => ⟨?_, hlabel⟩⟩
      exact htrim.mem_labels_of_reaches (h.subset hleader) hlabel.1
    have hnodup := hdrained.perm.nodup_iff.2 h.nodup
    obtain ⟨-, hunseen, hdisjoint⟩ := List.nodup_append.1 hnodup
    refine ⟨⟨hunseen, fun _ hmem => h.subset (hdrained.subset hmem), ?_, ?_, ?_, ?_, ?_⟩, ?_⟩
    · intro members hmem
      rcases List.mem_append.1 hmem with hmem | hmem
      · exact h.sublist members hmem
      · rw [List.mem_singleton.1 hmem]
        exact List.filter_sublist
    · intro members hmem
      rcases List.mem_append.1 hmem with hmem | hmem
      · exact h.isLoop members hmem
      · rw [List.mem_singleton.1 hmem]
        exact ⟨leader, (hmembers leader).2 ⟨.refl, .refl⟩, hmembers⟩
    · intro members hmem label hlabel hnot
      rcases List.mem_append.1 hmem with hmem | hmem
      · exact h.apart members hmem label hlabel (hdrained.subset hnot)
      · rw [List.mem_singleton.1 hmem] at hlabel
        exact hdisjoint label ((hadded label).2 ((hmembers label).1 hlabel)) label hnot rfl
    · refine List.pairwise_append.2 ⟨h.disjoint, List.pairwise_singleton _ _, ?_⟩
      intro members hmem other hother label hlabel hlabel'
      rw [List.mem_singleton.1 hother] at hlabel'
      have hin := (hadded label).2 ((hmembers label).1 hlabel')
      exact h.apart members hmem label hlabel
        (hdrained.perm.subset (List.mem_append_left _ hin))
    · intro label hlabel
      rcases h.covers label hlabel with hmem | ⟨members, hmem, hin⟩
      · rcases List.mem_append.1 (hdrained.perm.symm.subset hmem) with hmem | hmem
        · exact Or.inr ⟨_, List.mem_append_right _ List.mem_cons_self,
            (hmembers label).2 ((hadded label).1 hmem)⟩
        · exact Or.inl hmem
      · exact Or.inr ⟨members, List.mem_append_left _ hmem, hin⟩
    · intro label hmem
      rcases List.mem_cons.1 (hrest (hdrained.subset hmem)) with rfl | hback
      · exact absurd hmem (hdrained.roots label (List.mem_singleton.2 rfl))
      · exact hback
  · rename_i hleader
    refine ⟨h, ?_⟩
    intro label hmem
    rcases List.mem_cons.1 (hrest hmem) with rfl | hback
    · exact absurd hmem hleader
    · exact hback

theorem Splitting.foldl_step (htrim : graph.Trim) (back front : List Label)
    (state : List Label × List (List Label)) (h : graph.Splitting state.1 state.2)
    (hrest : state.1 ⊆ back)
    (horder : Traversal.Postorder graph.predecessors (front ++ back)) :
    graph.Splitting [] (back.foldl graph.splitComponent state).2 := by
  induction back generalizing front state with
  | nil =>
    obtain ⟨unseen, found⟩ := state
    obtain rfl := List.subset_nil.1 hrest
    exact h
  | cons leader back ih =>
    obtain ⟨hstep, hsub⟩ := h.step htrim hrest horder
    refine ih (front ++ [leader]) _ hstep hsub ?_
    simpa using horder

/-- The components are the loops of a story, each found once. -/
theorem Trim.splitting (h : graph.Trim) : graph.Splitting [] graph.components := by
  have hperm := Traversal.finished_perm graph.predecessors h.nodup_labels
  have hstart : graph.Splitting graph.labels [] :=
    ⟨h.nodup_labels, fun _ hmem => hmem, by simp, by simp, by simp, .nil,
      fun _ hmem => Or.inl hmem⟩
  exact Splitting.foldl_step h _ [] (graph.labels, []) hstart hperm.symm.subset
    (Traversal.finished_postorder graph.predecessors h.nodup_labels)

/-! ## The number of a component -/

theorem Trim.numberOf_eq_some_iff (h : graph.Trim) {label : Label} {number : Nat} :
    Condensation.numberOf graph.components label = some number ↔
      ∃ members, graph.components[number]? = some members ∧ label ∈ members := by
  unfold Condensation.numberOf
  rw [List.findIdx?_eq_some_iff_getElem]
  constructor
  · rintro ⟨hlt, hmem, -⟩
    exact ⟨graph.components[number], List.getElem?_eq_getElem hlt, by simpa using hmem⟩
  · rintro ⟨members, hget, hmem⟩
    obtain ⟨hlt, rfl⟩ := List.getElem?_eq_some_iff.1 hget
    refine ⟨hlt, by simpa using hmem, ?_⟩
    intro earlier hearlier
    have hdisjoint := List.pairwise_iff_getElem.1 h.splitting.disjoint earlier number
      (by omega) hlt hearlier
    simpa using fun hin => hdisjoint hin hmem

theorem Trim.exists_numberOf (h : graph.Trim) {label : Label} (hlabel : label ∈ graph.labels) :
    ∃ number, Condensation.numberOf graph.components label = some number := by
  rcases h.splitting.covers label hlabel with hnil | ⟨members, hmembers, hmem⟩
  · cases hnil
  · obtain ⟨number, hlt, rfl⟩ := List.getElem_of_mem hmembers
    exact ⟨number, h.numberOf_eq_some_iff.2 ⟨_, List.getElem?_eq_getElem hlt, hmem⟩⟩

theorem Trim.exists_numberOf_entry (h : graph.Trim) :
    ∃ start, Condensation.numberOf graph.components .entry = some start :=
  h.exists_numberOf (h.mem_labels_iff_reaches.2 .refl)

theorem Trim.lt_of_numberOf (h : graph.Trim) {label : Label} {number : Nat}
    (hnumber : Condensation.numberOf graph.components label = some number) :
    number < graph.components.length := by
  obtain ⟨members, hget, -⟩ := h.numberOf_eq_some_iff.1 hnumber
  exact (List.getElem?_eq_some_iff.1 hget).1

/-- Two blocks are in the same component exactly when each can be reached from the other. -/
theorem Trim.numberOf_eq_iff (h : graph.Trim) {a b : Label} {number : Nat}
    (ha : Condensation.numberOf graph.components a = some number) :
    Condensation.numberOf graph.components b = some number ↔ graph.atlas.Mutual a b := by
  obtain ⟨members, hget, hmem⟩ := h.numberOf_eq_some_iff.1 ha
  obtain ⟨leader, -, hleader⟩ := h.splitting.isLoop members (List.mem_of_getElem? hget)
  have ha' := (hleader a).1 hmem
  rw [h.numberOf_eq_some_iff]
  constructor
  · rintro ⟨members', hget', hmem'⟩
    rw [hget] at hget'
    cases hget'
    exact ha'.symm.trans ((hleader b).1 hmem')
  · intro hmutual
    exact ⟨members, hget, (hleader b).2 (ha'.trans hmutual)⟩

/-! ## The contracted graph -/

theorem Trim.mem_exits_iff (h : graph.Trim) {a b : Label} :
    (a, b) ∈ graph.exits ↔ graph.atlas.Leads a b := by
  rw [leads_iff, exits, List.mem_flatMap]
  constructor
  · rintro ⟨costed, hcosted, hexit⟩
    obtain ⟨target, htarget, heq⟩ := List.mem_map.1 hexit
    obtain ⟨rfl, rfl⟩ := Prod.mk.inj heq
    exact ⟨costed, h.get?_eq_some_iff.2 ⟨hcosted, rfl⟩, (h.mem_targets_iff hcosted).1 htarget⟩
  · rintro ⟨costed, hget, hnext⟩
    obtain ⟨hmem, rfl⟩ := h.get?_eq_some_iff.1 hget
    exact ⟨costed, hmem, List.mem_map.2 ⟨b, (h.mem_targets_iff hmem).2 hnext, rfl⟩⟩

theorem exitBetween_eq_some_iff {components : List (List Label)} {a b : Label} {i j : Nat} :
    exitBetween components (a, b) = some (i, j) ↔
      Condensation.numberOf components a = some i ∧ Condensation.numberOf components b = some j ∧
        i ≠ j := by
  unfold exitBetween
  cases ha : Condensation.numberOf components a with
  | none => simp
  | some i' =>
    cases hb : Condensation.numberOf components b with
    | none => simp
    | some j' =>
      by_cases heq : i' = j'
      · simp only [Option.bind_eq_bind, Option.bind_some, heq, if_true, reduceCtorEq, false_iff,
          Option.some.injEq]
        rintro ⟨rfl, rfl, hne⟩
        exact hne rfl
      · simp only [Option.bind_eq_bind, Option.bind_some, heq, if_false, Option.some.injEq,
          Prod.mk.injEq]
        constructor
        · rintro ⟨rfl, rfl⟩
          exact ⟨rfl, rfl, heq⟩
        · rintro ⟨rfl, rfl, -⟩
          exact ⟨rfl, rfl⟩

theorem mem_successors_condense {dag : Condensation κ} {i j : Nat} :
    j ∈ dag.successors i ↔ dag.Leads i j := by
  simp [Condensation.successors, Condensation.Leads]

theorem edge_successors_condense (dag : Condensation κ) :
    Traversal.Edge dag.successors = dag.Leads := by
  funext i j
  exact propext mem_successors_condense

/-- What an order that is checked means. -/
theorem follows_iff {exits : List (Nat × Nat)} {earlier order : List Nat} :
    Condensation.follows exits earlier order = true ↔
      ∀ i j front back, (i, j) ∈ exits → order = front ++ j :: back → i ∈ earlier ∨ i ∈ front := by
  induction order generalizing earlier with
  | nil => simp [Condensation.follows]
  | cons node rest ih =>
    rw [Condensation.follows, Bool.and_eq_true, ih, List.all_eq_true]
    constructor
    · rintro ⟨hnode, hrest⟩ i j front back hexit horder
      cases front with
      | nil =>
        obtain ⟨rfl, -⟩ := List.cons.inj horder
        have hmem := hnode (i, node) hexit
        exact Or.inl (by simpa using hmem)
      | cons first front =>
        obtain ⟨rfl, htail⟩ := List.cons.inj horder
        rcases hrest i j front back hexit htail with hmem | hmem
        · rcases List.mem_cons.1 hmem with rfl | hmem
          · exact Or.inr List.mem_cons_self
          · exact Or.inl hmem
        · exact Or.inr (List.mem_cons_of_mem node hmem)
    · intro horder
      refine ⟨?_, ?_⟩
      · rintro ⟨i, j⟩ hexit
        by_cases hj : j = node
        · have hmem := horder i j [] rest hexit (by rw [hj]; rfl)
          simpa [hj] using hmem
        · simp [hj]
      · intro i j front back hexit hrest
        rcases horder i j (node :: front) back hexit (by rw [hrest]; rfl) with hmem | hmem
        · exact Or.inl (List.mem_cons_of_mem node hmem)
        · rcases List.mem_cons.1 hmem with rfl | hmem
          · exact Or.inl List.mem_cons_self
          · exact Or.inr hmem

/-- What sorting gives is sorted. -/
theorem forward_of_sort? {dag : Condensation κ} {order front back : List Nat} {i j : Nat}
    (h : dag.sort? = some order) (hexit : dag.Leads i j) (horder : order = front ++ j :: back) :
    i ∈ front := by
  unfold Condensation.sort? at h
  dsimp only at h
  split at h
  · rename_i hfollows
    obtain rfl := Option.some.inj h
    simpa using follows_iff.1 hfollows i j front back hexit horder
  · cases h

variable [Zero κ] [Add κ]

theorem getElem?_nodes_condense (graph : CostedGraph κ) (number : Nat) :
    graph.condense.nodes[number]? = (graph.components[number]?).map graph.component := by
  simp [condense]

/-- One component leads to another when a block of the first leads to a block of the second. -/
theorem Trim.leads_condense_iff (h : graph.Trim) {i j : Nat} :
    graph.condense.Leads i j ↔ i ≠ j ∧ ∃ a b, graph.atlas.Leads a b ∧
      Condensation.numberOf graph.components a = some i ∧
      Condensation.numberOf graph.components b = some j := by
  unfold Condensation.Leads condense
  rw [List.mem_eraseDups, List.mem_filterMap]
  constructor
  · rintro ⟨⟨a, b⟩, hexit, hbetween⟩
    obtain ⟨ha, hb, hne⟩ := exitBetween_eq_some_iff.1 hbetween
    exact ⟨hne, a, b, h.mem_exits_iff.1 hexit, ha, hb⟩
  · rintro ⟨hne, a, b, hleads, ha, hb⟩
    exact ⟨(a, b), h.mem_exits_iff.2 hleads, exitBetween_eq_some_iff.2 ⟨ha, hb, hne⟩⟩

/-- Paths over components are followed by paths over blocks. -/
theorem Trim.reaches_of_condense (h : graph.Trim) {i j : Nat}
    (hpath : ReflTransGen graph.condense.Leads i j) {a b : Label}
    (ha : Condensation.numberOf graph.components a = some i)
    (hb : Condensation.numberOf graph.components b = some j) : graph.atlas.Reaches a b := by
  induction hpath generalizing b with
  | refl => exact ((h.numberOf_eq_iff ha).1 hb).1
  | tail _ hexit ih =>
    obtain ⟨-, c, d, hleads, hc, hd⟩ := h.leads_condense_iff.1 hexit
    exact ReflTransGen.trans ((ih hc).tail hleads) ((h.numberOf_eq_iff hd).1 hb).1

/-- There are no loops over components: the blocks on one would be in the same component. -/
theorem Trim.not_reach_back (h : graph.Trim) {i j : Nat} (hexit : graph.condense.Leads i j) :
    ¬ ReflTransGen graph.condense.Leads j i := by
  intro hback
  obtain ⟨hne, a, b, hleads, ha, hb⟩ := h.leads_condense_iff.1 hexit
  have hmutual : graph.atlas.Mutual a b := ⟨.single hleads, h.reaches_of_condense hback hb ha⟩
  rw [← h.numberOf_eq_iff ha, hb, Option.some.injEq] at hmutual
  exact hne hmutual.symm

theorem length_nodes_condense (graph : CostedGraph κ) :
    graph.condense.nodes.length = graph.components.length := by
  simp [condense]

/-- The order lists every component once. -/
theorem order_perm (graph : CostedGraph κ) :
    graph.condense.order.Perm (List.range graph.components.length) := by
  rw [← length_nodes_condense]
  unfold Condensation.order Condensation.sort?
  dsimp only
  split
  · exact Traversal.finished_perm _ List.nodup_range
  · exact .refl _

theorem mem_order_iff {number : Nat} :
    number ∈ graph.condense.order ↔ number < graph.components.length := by
  rw [graph.order_perm.mem_iff, List.mem_range]

/-- The components are finished in an order against the exits, since these close no loop. So there is
    an order that follows them, and it is the one in which the components are visited. -/
theorem Trim.sort?_condense (h : graph.Trim) :
    graph.condense.sort? = some graph.condense.order := by
  have hperm := Traversal.finished_perm graph.condense.successors
    (List.nodup_range (n := graph.condense.nodes.length))
  have hpost := Traversal.finished_postorder graph.condense.successors
    (List.nodup_range (n := graph.condense.nodes.length))
  have hfollows : Condensation.follows graph.condense.exits []
      (Traversal.finished graph.condense.successors
        (List.range graph.condense.nodes.length)) = true := by
    refine follows_iff.2 fun i j front back hexit horder => Or.inr ?_
    obtain ⟨hne, a, -, -, ha, -⟩ := h.leads_condense_iff.1 hexit
    have hmem : i ∈ front ++ j :: back := by
      rw [← horder, hperm.mem_iff, List.mem_range, length_nodes_condense]
      exact h.lt_of_numberOf ha
    rcases List.mem_append.1 hmem with hmem | hmem
    · exact hmem
    · rcases List.mem_cons.1 hmem with rfl | hmem
      · exact absurd rfl hne
      · -- an exit against the order would close a loop
        rw [horder] at hpost
        have hback := hpost.reach_of_edge hmem (mem_successors_condense.2 hexit)
        rw [edge_successors_condense] at hback
        exact absurd hback (h.not_reach_back hexit)
  unfold Condensation.order Condensation.sort?
  dsimp only
  rw [if_pos hfollows]
  rfl

/-- The order lists a component behind all components that lead to it. -/
theorem Trim.order_forward (h : graph.Trim) {i j : Nat} {front back : List Nat}
    (hexit : graph.condense.Leads i j) (horder : graph.condense.order = front ++ j :: back) :
    i ∈ front :=
  forward_of_sort? h.sort?_condense hexit horder

end CostedGraph

end Playthrough
