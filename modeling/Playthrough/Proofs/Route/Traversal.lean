import Playthrough.Route.Traversal
import Mathlib.Data.List.Perm.Subperm
import Mathlib.Logic.Relation

/-!
# The order of a depth-first traversal

The traversal with an explicit stack is a depth-first one: a node comes to the top of the stack for
the second time when all that it pushed has been dealt with. So what is finished between the two
times is what the node newly reaches, and what was finished before has no edge into it.

* `Postorder`: a list of finished nodes is made of such nested runs.
* `drain_spec`: what emptying the stack adds to the finished nodes.
* `finished_perm`, `finished_postorder`: the traversal lists every node once, in such an order.
* `Postorder.reach_of_edge`: an edge against the order lies on a loop. On a graph without loops the
  order is therefore topological.
* `Postorder.reach_of_path`: a node is reached back by the last finished node that its paths meet.
-/

namespace Playthrough.Traversal

open Relation

variable {α : Type} {neighbours : α → List α}

/-! ## Nested runs -/

/-- There is an edge from one node to another. -/
def Edge (neighbours : α → List α) (a b : α) : Prop := b ∈ neighbours a

/-- There is an edge to a node of the given region. -/
def EdgeInto (neighbours : α → List α) (region : List α) (a b : α) : Prop :=
  b ∈ neighbours a ∧ b ∈ region

/-- Finished nodes, the last one first: behind each node stand first nodes that it reaches, then
    nodes without an edge to any of these. -/
def Postorder (neighbours : α → List α) : List α → Prop
  | [] => True
  | node :: done =>
    (∃ inner older, done = inner ++ older ∧ (∀ x ∈ inner, ReflTransGen (Edge neighbours) node x) ∧
      ∀ x ∈ older, ∀ y ∈ node :: inner, y ∉ neighbours x) ∧ Postorder neighbours done

theorem Postorder.of_append {front back : List α} (h : Postorder neighbours (front ++ back)) :
    Postorder neighbours back := by
  induction front with
  | nil => exact h
  | cons node front ih => exact ih h.2

/-- An edge against the order lies on a loop. -/
theorem Postorder.reach_of_edge {front back : List α} {x y : α}
    (h : Postorder neighbours (front ++ y :: back)) (hx : x ∈ back) (hedge : y ∈ neighbours x) :
    ReflTransGen (Edge neighbours) y x := by
  obtain ⟨⟨inner, older, rfl, hinner, holder⟩, -⟩ := h.of_append
  rcases List.mem_append.1 hx with hx | hx
  · exact hinner x hx
  · exact absurd hedge (holder x hx y List.mem_cons_self)

/-- A path that stays behind a node until it meets it can be gone back. -/
theorem Postorder.reach_of_path {front back : List α} {x y : α}
    (h : Postorder neighbours (front ++ y :: back))
    (hpath : ReflTransGen (fun a b => a ∈ y :: back ∧ b ∈ neighbours a) x y) :
    ReflTransGen (Edge neighbours) y x := by
  obtain ⟨⟨inner, older, rfl, hinner, holder⟩, -⟩ := h.of_append
  have hmem : x ∈ y :: inner := by
    induction hpath using ReflTransGen.head_induction_on with
    | refl => exact List.mem_cons_self
    | @head a c hstep _ ih =>
      -- `c` belongs to the run of `y`, and older nodes have no edge into it
      have ha : a ∈ (y :: inner) ++ older := by simpa using hstep.1
      rcases List.mem_append.1 ha with ha | ha
      · exact ha
      · exact absurd hstep.2 (holder a ha c ih)
  rcases List.mem_cons.1 hmem with rfl | hmem
  · exact .refl
  · exact hinner x hmem

/-! ## Emptying the stack -/

theorem EdgeInto.mono {region larger : List α} (h : region ⊆ larger) {a b : α}
    (hpath : ReflTransGen (EdgeInto neighbours region) a b) :
    ReflTransGen (EdgeInto neighbours larger) a b :=
  ReflTransGen.mono (fun _ _ hedge => ⟨hedge.1, h hedge.2⟩) _ _ hpath

theorem EdgeInto.edges {region : List α} {a b : α}
    (hpath : ReflTransGen (EdgeInto neighbours region) a b) :
    ReflTransGen (Edge neighbours) a b :=
  ReflTransGen.mono (fun _ _ hedge => hedge.1) _ _ hpath

/-- What emptying the stack does: `added` are the nodes that it finishes. -/
structure Drained (neighbours : α → List α) (unseen done stack added : List α)
    (result : Traversal α) : Prop where
  done_eq : result.done = added ++ done
  perm : (added ++ result.unseen).Perm unseen
  reach : ∀ node ∈ added, ∃ root ∈ stack, root ∈ unseen ∧
    ReflTransGen (EdgeInto neighbours unseen) root node
  roots : ∀ root ∈ stack, root ∉ result.unseen
  closed : ∀ node ∈ added, ∀ other ∈ neighbours node, other ∉ result.unseen
  order : Postorder neighbours result.done

/-- What holds whenever no node is open: nothing finished leads to an unseen node. -/
structure Settled (neighbours : α → List α) (unseen done : List α) : Prop where
  nodup : unseen.Nodup
  apart : ∀ node ∈ done, node ∉ unseen
  closed : ∀ node ∈ done, ∀ other ∈ neighbours node, other ∉ unseen
  order : Postorder neighbours done

/-- Nothing that is left unseen was found on the way. -/
theorem Drained.subset {unseen done stack added : List α} {result : Traversal α}
    (h : Drained neighbours unseen done stack added result) : result.unseen ⊆ unseen :=
  fun _ hnode => h.perm.subset (List.mem_append_right added hnode)

/-- A node that is seen and finished is just taken off the stack. -/
theorem Drained.skip {unseen done rest added : List α} {node : α} {result : Traversal α}
    (hnode : node ∉ unseen) (h : Drained neighbours unseen done rest added result) :
    Drained neighbours unseen done (node :: rest) added result := by
  refine ⟨h.done_eq, h.perm, ?_, ?_, h.closed, h.order⟩
  · intro other hother
    obtain ⟨root, hroot, hunseen, hpath⟩ := h.reach other hother
    exact ⟨root, List.mem_cons_of_mem node hroot, hunseen, hpath⟩
  · intro root hroot hunseen
    rcases List.mem_cons.1 hroot with rfl | hroot
    · exact hnode (h.subset hunseen)
    · exact h.roots root hroot hunseen

variable [DecidableEq α]

theorem drain_nil (neighbours : α → List α) (unseen done : List α) :
    drain neighbours unseen done [] = { unseen, done } := by
  rw [drain]

theorem drain_append (neighbours : α → List α) (unseen done front back : List α) :
    drain neighbours unseen done (front ++ back) =
      drain neighbours (drain neighbours unseen done front).unseen
        (drain neighbours unseen done front).done back := by
  fun_induction drain neighbours unseen done front with
  | case1 unseen done => rfl
  | case2 unseen done node rest hnode others ih =>
    rw [List.cons_append, drain, dif_pos hnode]
    simpa using ih
  | case3 unseen done node rest hnode ih =>
    rw [List.cons_append, drain, dif_neg hnode]
    exact ih

theorem mem_above_iff {unseen : List α} {node other : α} :
    other ∈ above neighbours unseen node ↔ other ∈ neighbours node ∧ other ∈ unseen := by
  simp [above]

theorem Settled.erase {unseen done : List α} (h : Settled neighbours unseen done) (node : α) :
    Settled neighbours (unseen.erase node) done where
  nodup := h.nodup.erase node
  apart := fun other hother hmem => h.apart other hother (List.mem_of_mem_erase hmem)
  closed := fun other hother target htarget hmem =>
    h.closed other hother target htarget (List.mem_of_mem_erase hmem)
  order := h.order

/-- The nodes on top of a newly found node keep nothing of its neighbours unseen. -/
theorem Drained.closed_node {unseen done added : List α} {node : α} {result : Traversal α}
    (h : Drained neighbours (unseen.erase node) done (above neighbours (unseen.erase node) node)
      added result) : ∀ other ∈ neighbours node, other ∉ result.unseen := by
  intro other hother hunseen
  exact h.roots other (mem_above_iff.2 ⟨hother, h.subset hunseen⟩) hunseen

/-- When all that a node pushed is dealt with, the node can be finished. -/
theorem Drained.settled {unseen done added : List α} {node : α} {result : Traversal α}
    (hnode : node ∈ unseen) (hsettled : Settled neighbours unseen done)
    (h : Drained neighbours (unseen.erase node) done (above neighbours (unseen.erase node) node)
      added result) : Settled neighbours result.unseen (node :: result.done) := by
  have hnodup := (h.perm.nodup_iff.2 (hsettled.nodup.erase node))
  obtain ⟨-, hunseen, hdisjoint⟩ := List.nodup_append.1 hnodup
  have hsub : result.unseen ⊆ unseen := fun other hother => List.mem_of_mem_erase (h.subset hother)
  have hadded : ∀ other ∈ added, other ∈ unseen := fun other hother =>
    List.mem_of_mem_erase (h.perm.subset (List.mem_append_left _ hother))
  refine ⟨hunseen, ?_, ?_, ?_, h.order⟩
  · intro other hother hmem
    rcases List.mem_cons.1 hother with rfl | hother
    · exact hsettled.nodup.not_mem_erase (h.subset hmem)
    · rw [h.done_eq] at hother
      rcases List.mem_append.1 hother with hother | hother
      · exact hdisjoint other hother other hmem rfl
      · exact hsettled.apart other hother (hsub hmem)
  · intro other hother target htarget hmem
    rcases List.mem_cons.1 hother with rfl | hother
    · exact h.closed_node target htarget hmem
    · rw [h.done_eq] at hother
      rcases List.mem_append.1 hother with hother | hother
      · exact h.closed other hother target htarget hmem
      · exact hsettled.closed other hother target htarget (hsub hmem)
  · refine ⟨added, done, h.done_eq, ?_, ?_⟩
    · intro other hother
      obtain ⟨root, hroot, -, hpath⟩ := h.reach other hother
      exact .head (mem_above_iff.1 hroot).1 (EdgeInto.edges hpath)
    · intro other hother target htarget hedge
      refine hsettled.closed other hother target hedge ?_
      rcases List.mem_cons.1 htarget with rfl | htarget
      · exact hnode
      · exact hadded target htarget

theorem drain_cons_seen {unseen done : List α} {node : α} (rest : List α) (hnode : node ∉ unseen)
    (hdone : node ∈ done) :
    drain neighbours unseen done (node :: rest) = drain neighbours unseen done rest := by
  rw [drain, dif_neg hnode, finish, if_pos hdone]

/-- An unseen node is finished when all that it pushed is dealt with. -/
theorem drain_cons_unseen {unseen done added : List α} {node : α} (rest : List α)
    (hnode : node ∈ unseen) (hsettled : Settled neighbours unseen done)
    (h : Drained neighbours (unseen.erase node) done (above neighbours (unseen.erase node) node)
      added (drain neighbours (unseen.erase node) done
        (above neighbours (unseen.erase node) node))) :
    drain neighbours unseen done (node :: rest) =
      drain neighbours (drain neighbours (unseen.erase node) done
          (above neighbours (unseen.erase node) node)).unseen
        (node :: (drain neighbours (unseen.erase node) done
          (above neighbours (unseen.erase node) node)).done) rest := by
  rw [drain, dif_pos hnode]
  dsimp only
  rw [drain_append]
  have hunseen : node ∉ (drain neighbours (unseen.erase node) done
      (above neighbours (unseen.erase node) node)).unseen := fun hmem =>
    hsettled.nodup.not_mem_erase (h.subset hmem)
  have hfinished : node ∉ (drain neighbours (unseen.erase node) done
      (above neighbours (unseen.erase node) node)).done := by
    rw [h.done_eq]
    intro hmem
    rcases List.mem_append.1 hmem with hmem | hmem
    · exact hsettled.nodup.not_mem_erase (h.perm.subset (List.mem_append_left _ hmem))
    · exact hsettled.apart node hmem hnode
  rw [drain, dif_neg hunseen, finish, if_neg hfinished]

/-- Finishing a node and then emptying the rest of the stack. -/
theorem Drained.cons {unseen done rest inner outer : List α} {node : α}
    {middle result : Traversal α} (hnode : node ∈ unseen) (hsettled : Settled neighbours unseen done)
    (hinner : Drained neighbours (unseen.erase node) done
      (above neighbours (unseen.erase node) node) inner middle)
    (houter : Drained neighbours middle.unseen (node :: middle.done) rest outer result) :
    Drained neighbours unseen done (node :: rest) (outer ++ node :: inner) result := by
  have hmiddle : middle.unseen ⊆ unseen := fun other hother =>
    List.mem_of_mem_erase (hinner.subset hother)
  refine ⟨?_, ?_, ?_, ?_, ?_, houter.order⟩
  · rw [houter.done_eq, hinner.done_eq]
    simp
  · have h1 : (outer ++ node :: inner ++ result.unseen).Perm
        (node :: (inner ++ (outer ++ result.unseen))) := by
      grind
    have h2 : (node :: (inner ++ (outer ++ result.unseen))).Perm (node :: unseen.erase node) :=
      ((houter.perm.append_left inner).trans hinner.perm).cons node
    exact (h1.trans h2).trans (List.perm_cons_erase hnode).symm
  · intro other hother
    rcases List.mem_append.1 hother with hother | hother
    · obtain ⟨root, hroot, hunseen, hpath⟩ := houter.reach other hother
      exact ⟨root, List.mem_cons_of_mem node hroot, hmiddle hunseen, EdgeInto.mono hmiddle hpath⟩
    · refine ⟨node, List.mem_cons_self, hnode, ?_⟩
      rcases List.mem_cons.1 hother with rfl | hother
      · exact .refl
      · obtain ⟨root, hroot, hunseen, hpath⟩ := hinner.reach other hother
        exact .head ⟨(mem_above_iff.1 hroot).1, List.mem_of_mem_erase hunseen⟩
          (EdgeInto.mono List.erase_subset hpath)
  · intro root hroot hunseen
    rcases List.mem_cons.1 hroot with rfl | hroot
    · exact hsettled.nodup.not_mem_erase (hinner.subset (houter.subset hunseen))
    · exact houter.roots root hroot hunseen
  · intro other hother target htarget hunseen
    rcases List.mem_append.1 hother with hother | hother
    · exact houter.closed other hother target htarget hunseen
    · rcases List.mem_cons.1 hother with rfl | hother
      · exact hinner.closed_node target htarget (houter.subset hunseen)
      · exact hinner.closed other hother target htarget (houter.subset hunseen)

/-- Whatever else is on the stack is unseen or finished when a node is finished. -/
theorem Drained.stack {unseen done rest added : List α} {node : α} {result : Traversal α}
    (hstack : ∀ other ∈ node :: rest, other ∉ unseen → other ∈ done)
    (h : Drained neighbours (unseen.erase node) done (above neighbours (unseen.erase node) node)
      added result) : ∀ other ∈ rest, other ∉ result.unseen → other ∈ node :: result.done := by
  intro other hother hnot
  rw [h.done_eq]
  by_cases hunseen : other ∈ unseen
  · by_cases heq : other = node
    · simp [heq]
    · have hmem := h.perm.symm.subset ((List.mem_erase_of_ne heq).2 hunseen)
      rcases List.mem_append.1 hmem with hmem | hmem
      · simp [hmem]
      · exact absurd hmem hnot
  · simp [hstack other (List.mem_cons_of_mem node hother) hunseen]

/-- Emptying a stack on which no node is open. The induction is on the unseen nodes, and then on the
    stack: finding a node uses up one of the first. -/
theorem drain_spec (neighbours : α → List α) :
    ∀ (n : Nat) (unseen done stack : List α), unseen.length = n →
      Settled neighbours unseen done → (∀ node ∈ stack, node ∉ unseen → node ∈ done) →
      ∃ added, Drained neighbours unseen done stack added
        (drain neighbours unseen done stack) := by
  intro n
  induction n using Nat.strongRecOn with
  | ind n ihn =>
    intro unseen done stack hn hsettled hstack
    induction stack with
    | nil =>
      rw [drain_nil]
      exact ⟨[], rfl, .refl _, by simp, by simp, by simp, hsettled.order⟩
    | cons node rest ihs =>
      by_cases hnode : node ∈ unseen
      · have hlen : (unseen.erase node).length < n := by
          rw [List.length_erase_of_mem hnode, hn]
          have := List.length_pos_of_mem hnode
          omega
        obtain ⟨inner, hinner⟩ := ihn _ hlen _ done (above neighbours (unseen.erase node) node) rfl
          (hsettled.erase node) fun other hother hnot => absurd (mem_above_iff.1 hother).2 hnot
        have hlen' := hinner.perm.length_eq
        rw [List.length_append] at hlen'
        obtain ⟨outer, houter⟩ := ihn _ (by omega) _ _ rest rfl (hinner.settled hnode hsettled)
          (hinner.stack hstack)
        rw [drain_cons_unseen rest hnode hsettled hinner]
        exact ⟨_, hinner.cons hnode hsettled houter⟩
      · rw [drain_cons_seen rest hnode (hstack node List.mem_cons_self hnode)]
        obtain ⟨added, h⟩ := ihs fun other hother => hstack other (List.mem_cons_of_mem node hother)
        exact ⟨added, h.skip hnode⟩

/-! ## The whole traversal -/

/-- Between two roots: every node is finished or unseen. -/
structure Sound (neighbours : α → List α) (nodes : List α) (state : Traversal α) : Prop where
  settled : Settled neighbours state.unseen state.done
  perm : (state.done ++ state.unseen).Perm nodes

theorem Sound.visit {nodes : List α} {state : Traversal α} (h : Sound neighbours nodes state)
    (root : α) :
    Sound neighbours nodes (visit neighbours state root) ∧
      root ∉ (visit neighbours state root).unseen ∧
      (visit neighbours state root).unseen ⊆ state.unseen := by
  unfold Traversal.visit
  split
  · rename_i hroot
    obtain ⟨added, hdrained⟩ := drain_spec neighbours _ state.unseen state.done [root] rfl h.settled
      (fun other hother hnot => absurd (by simpa [List.mem_singleton.1 hother] using hroot) hnot)
    have hnodup := hdrained.perm.nodup_iff.2 h.settled.nodup
    obtain ⟨-, hunseen, hdisjoint⟩ := List.nodup_append.1 hnodup
    refine ⟨⟨⟨hunseen, ?_, ?_, hdrained.order⟩, ?_⟩, hdrained.roots root (by simp), hdrained.subset⟩
    · intro other hother hmem
      rw [hdrained.done_eq] at hother
      rcases List.mem_append.1 hother with hother | hother
      · exact hdisjoint other hother other hmem rfl
      · exact h.settled.apart other hother (hdrained.subset hmem)
    · intro other hother target htarget hmem
      rw [hdrained.done_eq] at hother
      rcases List.mem_append.1 hother with hother | hother
      · exact hdrained.closed other hother target htarget hmem
      · exact h.settled.closed other hother target htarget (hdrained.subset hmem)
    · rw [hdrained.done_eq]
      refine List.Perm.trans ?_ h.perm
      refine List.Perm.trans ?_ (hdrained.perm.append_left state.done)
      grind
  · rename_i hroot
    exact ⟨h, hroot, fun _ hmem => hmem⟩

theorem Sound.foldl_visit {nodes : List α} (roots : List α) {state : Traversal α}
    (h : Sound neighbours nodes state) :
    Sound neighbours nodes (roots.foldl (Traversal.visit neighbours) state) ∧
      (roots.foldl (Traversal.visit neighbours) state).unseen ⊆ state.unseen ∧
      ∀ root ∈ roots, root ∉ (roots.foldl (Traversal.visit neighbours) state).unseen := by
  induction roots generalizing state with
  | nil => exact ⟨h, fun _ hmem => hmem, by simp⟩
  | cons root roots ih =>
    obtain ⟨hvisit, hroot, hsub⟩ := h.visit root
    obtain ⟨hsound, hunseen, hroots⟩ := ih hvisit
    refine ⟨hsound, fun _ hmem => hsub (hunseen hmem), ?_⟩
    intro other hother
    rcases List.mem_cons.1 hother with rfl | hother
    · exact fun hmem => hroot (hunseen hmem)
    · exact hroots other hother

/-- What is known when all nodes have been roots: none is unseen. -/
theorem finished_spec (neighbours : α → List α) {nodes : List α} (hnodes : nodes.Nodup) :
    (finished neighbours nodes).Perm nodes ∧ Postorder neighbours (finished neighbours nodes) := by
  have hstart : Sound neighbours nodes { unseen := nodes, done := [] } :=
    ⟨⟨hnodes, by simp, by simp, trivial⟩, .refl _⟩
  obtain ⟨hsound, hsub, hroots⟩ := hstart.foldl_visit nodes
  have hempty : (nodes.foldl (visit neighbours) { unseen := nodes, done := [] }).unseen = [] := by
    refine List.eq_nil_iff_forall_not_mem.2 ?_
    intro node hmem
    exact hroots node (hsub hmem) hmem
  have hperm := hsound.perm
  rw [hempty, List.append_nil] at hperm
  exact ⟨hperm, hsound.settled.order⟩

theorem finished_perm (neighbours : α → List α) {nodes : List α} (hnodes : nodes.Nodup) :
    (finished neighbours nodes).Perm nodes :=
  (finished_spec neighbours hnodes).1

theorem finished_postorder (neighbours : α → List α) {nodes : List α} (hnodes : nodes.Nodup) :
    Postorder neighbours (finished neighbours nodes) :=
  (finished_spec neighbours hnodes).2

end Playthrough.Traversal
