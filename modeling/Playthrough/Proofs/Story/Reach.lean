import Playthrough.Proofs.Walk

/-!
# What play can reach

The breadth-first exploration of a story visits exactly the labels that play can reach from the
entry, each of them once. It fails exactly if one of these is no block of the story.

* `explore`, `reachable`: the exploration.
* `Explored`: what holds between two turns of it.
* `mem_reachable_iff`: the labels it returns.
* `isSome_of_reachable`: they are blocks of the story.
* `reachable_eq_error`, `exists_reachable_iff`: when it fails.
-/

namespace Playthrough.StoryGraph

open Relation

variable {κ : Type} {graph : StoryGraph κ}

theorem length_without_lt {label : Label} {blocks : List (Block κ)} {block : Block κ}
    (h : blocks.find? (·.label = label) = some block) :
    (without label blocks).length < blocks.length := by
  refine List.length_filter_lt_length_iff_exists.2 ⟨block, List.mem_of_find?_eq_some h, ?_⟩
  have hlabel := List.find?_some h
  simpa using hlabel

/-- Explores the graph breadth first. `unseen` are the blocks not yet visited, `queue` the labels to
    visit, and `seen` the labels visited so far, the last one first. Stops at an exit that leads
    nowhere. -/
def explore (graph : StoryGraph κ) (unseen : List (Block κ)) (queue seen : List Label) :
    Except (Fault κ) (List Label) :=
  match queue with
  | [] => .ok seen.reverse
  | label :: queue =>
    match _found : unseen.find? (·.label = label) with
    | none => explore graph unseen queue seen
    | some block =>
      match block.next.find? fun target => (graph.get? target).isNone with
      | some target => .error (.danglingEdge label target)
      | none =>
        explore graph (without label unseen) (queue ++ block.next) (label :: seen)
termination_by (unseen.length, queue.length)
decreasing_by
  · exact Prod.Lex.right _ (Nat.lt_succ_self _)
  · exact Prod.Lex.left _ _ (length_without_lt _found)

theorem explore_none {unseen : List (Block κ)} {label : Label}
    (h : unseen.find? (·.label = label) = none) (queue seen : List Label) :
    graph.explore unseen (label :: queue) seen = graph.explore unseen queue seen := by
  rw [explore]
  split
  · rfl
  · rename_i hblock
    rw [h] at hblock
    cases hblock

theorem explore_some {unseen : List (Block κ)} {label : Label} {block : Block κ}
    (h : unseen.find? (·.label = label) = some block) (queue seen : List Label) :
    graph.explore unseen (label :: queue) seen =
      match block.next.find? fun target => (graph.get? target).isNone with
      | some target => .error (.danglingEdge label target)
      | none => graph.explore (without label unseen) (queue ++ block.next) (label :: seen) := by
  rw [explore]
  split
  · rename_i hnone
    rw [h] at hnone
    cases hnone
  · rename_i found hfound
    obtain rfl := Option.some.inj (h.symm.trans hfound)
    rfl

/-- The labels that play can reach, in breadth-first order, if all their exits lead somewhere. -/
def reachable (graph : StoryGraph κ) : Except (Fault κ) (List Label) :=
  graph.explore graph.blocks [.entry] []

theorem nodup_labels (graph : StoryGraph κ) : (graph.blocks.map Block.label).Nodup :=
  graph.ascending.nodup

/-- Between two turns: what is seen leads only to what is seen or queued, and all of it is in
    reach. -/
structure Explored (graph : StoryGraph κ) (unseen : List (Block κ)) (queue seen : List Label) :
    Prop where
  rest : unseen = graph.blocks.filter (·.label ∉ seen)
  entry : Label.entry ∈ seen ∨ Label.entry ∈ queue
  known : ∀ label, label ∈ seen ∨ label ∈ queue →
    graph.atlas.Reaches .entry label ∧ (graph.atlas label).isSome
  closed : ∀ label ∈ seen, ∀ target, graph.atlas.Leads label target →
    target ∈ seen ∨ target ∈ queue

theorem explored_start (graph : StoryGraph κ) : graph.Explored graph.blocks [.entry] [] where
  rest := by simp
  entry := by simp
  known := by
    intro label h
    obtain rfl : label = .entry := by simpa using h
    exact ⟨.refl, Atlas.isSome_of_iff.2 graph.entry_mem⟩
  closed := by simp

/-- A label that is no longer unseen is dropped from the queue. -/
theorem Explored.skip {unseen : List (Block κ)} {label : Label} {queue seen : List Label}
    (h : graph.Explored unseen (label :: queue) seen)
    (hfind : unseen.find? (·.label = label) = none) : graph.Explored unseen queue seen := by
  have hseen : label ∈ seen := by
    have hsome := (h.known label (by simp)).2
    rw [h.rest, List.find?_filter] at hfind
    obtain ⟨block, hblock⟩ := Option.isSome_iff_exists.1 hsome
    obtain ⟨hmem, hlabel⟩ := Atlas.label_of_eq_some hblock
    by_contra hnot
    have := List.find?_eq_none.1 hfind block hmem
    simp [hlabel, hnot] at this
  have hdrop : ∀ other, other ∈ seen ∨ other ∈ label :: queue → other ∈ seen ∨ other ∈ queue := by
    intro other hother
    rcases hother with hother | hother
    · exact Or.inl hother
    · rcases List.mem_cons.1 hother with rfl | hother
      · exact Or.inl hseen
      · exact Or.inr hother
  refine ⟨h.rest, hdrop _ h.entry, ?_, ?_⟩
  · intro other hother
    refine h.known other (hother.imp id ?_)
    exact List.mem_cons_of_mem label
  · intro other hother target hleads
    exact hdrop target (h.closed other hother target hleads)

/-- A visited block queues what it leads to. -/
theorem Explored.visit {unseen : List (Block κ)} {label : Label} {queue seen : List Label}
    {block : Block κ} (h : graph.Explored unseen (label :: queue) seen)
    (hfind : unseen.find? (·.label = label) = some block)
    (hnext : ∀ target ∈ block.next, (graph.atlas target).isSome) :
    graph.Explored (without label unseen) (queue ++ block.next) (label :: seen) := by
  have hblock : graph.atlas label = some block := by
    have hmem := List.mem_of_find?_eq_some hfind
    have hlabel : block.label = label := by simpa using List.find?_some hfind
    rw [h.rest] at hmem
    exact (Atlas.of_eq_some_iff graph.nodup_labels).2 ⟨(List.mem_filter.1 hmem).1, hlabel⟩
  have hreach := (h.known label (by simp)).1
  refine ⟨?_, ?_, ?_, ?_⟩
  · rw [h.rest, without, List.filter_filter]
    simp [not_or]
  · rcases h.entry with hentry | hentry
    · exact Or.inl (List.mem_cons_of_mem label hentry)
    · rcases List.mem_cons.1 hentry with hentry | hentry
      · exact Or.inl (by simp [hentry])
      · exact Or.inr (List.mem_append_left _ hentry)
  · intro other hother
    rcases hother with hother | hother
    · rcases List.mem_cons.1 hother with rfl | hother
      · exact h.known other (by simp)
      · exact h.known other (Or.inl hother)
    · rcases List.mem_append.1 hother with hother | hother
      · exact h.known other (Or.inr (List.mem_cons_of_mem label hother))
      · exact ⟨hreach.tail ⟨block, hblock, hother⟩, hnext other hother⟩
  · intro other hother target hleads
    rcases List.mem_cons.1 hother with rfl | hother
    · obtain ⟨found, hfound, htarget⟩ := hleads
      rw [hblock] at hfound
      cases hfound
      exact Or.inr (List.mem_append_right _ htarget)
    · rcases h.closed other hother target hleads with htarget | htarget
      · exact Or.inl (List.mem_cons_of_mem label htarget)
      · rcases List.mem_cons.1 htarget with rfl | htarget
        · exact Or.inl List.mem_cons_self
        · exact Or.inr (List.mem_append_left _ htarget)

theorem explored_end {unseen : List (Block κ)} {queue seen reached : List Label}
    (h : graph.Explored unseen queue seen)
    (hrun : graph.explore unseen queue seen = .ok reached) :
    ∃ unseen', graph.Explored unseen' [] reached.reverse := by
  fun_induction explore graph unseen queue seen with
  | case1 unseen seen =>
    cases hrun
    exact ⟨unseen, by simpa using h⟩
  | case2 unseen seen label queue hfind ih => exact ih (h.skip hfind) hrun
  | case3 => cases hrun
  | case4 unseen seen label queue block hfind hnext ih =>
    refine ih (h.visit hfind ?_) hrun
    intro target htarget
    have := List.find?_eq_none.1 hnext target htarget
    simpa [get?, Atlas.of] using this

/-- When nothing new is queued, what is seen is what play can reach. -/
theorem Explored.mem_iff {unseen : List (Block κ)} {queue seen : List Label}
    (h : graph.Explored unseen queue seen) (hqueue : ∀ label ∈ queue, label ∈ seen)
    (label : Label) : label ∈ seen ↔ graph.atlas.Reaches .entry label := by
  constructor
  · intro hlabel
    exact (h.known label (Or.inl hlabel)).1
  · intro hreach
    induction hreach with
    | refl => exact h.entry.elim id (hqueue _)
    | tail _ hleads ih => exact (h.closed _ ih _ hleads).elim id (hqueue _)

/-- The exploration returns the labels that play can reach. -/
theorem mem_reachable_iff {reached : List Label} (h : graph.reachable = .ok reached)
    (label : Label) : label ∈ reached ↔ graph.atlas.Reaches .entry label := by
  obtain ⟨unseen, hend⟩ := explored_end graph.explored_start h
  rw [← hend.mem_iff (by simp), List.mem_reverse]

/-- The exploration succeeds only if all labels in reach are blocks. -/
theorem isSome_of_reachable {reached : List Label} (h : graph.reachable = .ok reached)
    {label : Label} (hreach : graph.atlas.Reaches .entry label) :
    (graph.atlas label).isSome := by
  obtain ⟨unseen, hend⟩ := explored_end graph.explored_start h
  have hlabel := (mem_reachable_iff h label).2 hreach
  exact (hend.known label (by simp [hlabel])).2

theorem explore_eq_error {unseen : List (Block κ)} {queue seen : List Label} {fault : Fault κ}
    (h : graph.Explored unseen queue seen) (hrun : graph.explore unseen queue seen = .error fault) :
    ∃ source target, fault = .danglingEdge source target ∧ graph.atlas.Reaches .entry source ∧
      graph.atlas.Leads source target ∧ graph.atlas target = none := by
  fun_induction explore graph unseen queue seen with
  | case1 => cases hrun
  | case2 unseen seen label queue hfind ih => exact ih (h.skip hfind) hrun
  | case3 unseen seen label queue block hfind target htarget =>
    cases hrun
    have hblock : graph.atlas label = some block := by
      have hmem := List.mem_of_find?_eq_some hfind
      have hlabel : block.label = label := by simpa using List.find?_some hfind
      rw [h.rest] at hmem
      exact (Atlas.of_eq_some_iff graph.nodup_labels).2 ⟨(List.mem_filter.1 hmem).1, hlabel⟩
    refine ⟨label, target, rfl, (h.known label (by simp)).1, ?_, ?_⟩
    · exact ⟨block, hblock, List.mem_of_find?_eq_some htarget⟩
    · simpa [get?, Atlas.of] using List.find?_some htarget
  | case4 unseen seen label queue block hfind hnext ih =>
    refine ih (h.visit hfind ?_) hrun
    intro target htarget
    have := List.find?_eq_none.1 hnext target htarget
    simpa [get?, Atlas.of] using this

/-- The exploration fails at an exit in reach that leads nowhere. -/
theorem reachable_eq_error {fault : Fault κ} (h : graph.reachable = .error fault) :
    ∃ source target, fault = .danglingEdge source target ∧ graph.atlas.Reaches .entry source ∧
      graph.atlas.Leads source target ∧ graph.atlas target = none :=
  explore_eq_error graph.explored_start h

/-- The exploration succeeds when all exits in reach lead to blocks. -/
theorem exists_reachable_iff :
    (∃ reached, graph.reachable = .ok reached) ↔
      ∀ source target, graph.atlas.Reaches .entry source → graph.atlas.Leads source target →
        (graph.atlas target).isSome := by
  constructor
  · rintro ⟨reached, hreached⟩ source target hreach hleads
    exact isSome_of_reachable hreached (hreach.tail hleads)
  · intro hclosed
    cases hrun : graph.reachable with
    | ok reached => exact ⟨reached, rfl⟩
    | error fault =>
      obtain ⟨source, target, -, hreach, hleads, hnone⟩ := reachable_eq_error hrun
      have hsome := hclosed source target hreach hleads
      rw [hnone] at hsome
      cases hsome

end Playthrough.StoryGraph
