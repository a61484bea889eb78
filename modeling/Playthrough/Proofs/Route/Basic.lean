import Playthrough.Proofs.Story.Reduce
import Playthrough.Route.Components

/-!
# Blocks, times and trails

What the searches for routes share: the blocks and exits of a reduced story, the times of its
blocks, and the way back through a table of predecessors.

A table of hops tells from where each node was reached. Every node has one predecessor at most and
the start has none, so there is one way back at most, and it passes no node twice.

* `Trim.get?_eq_some_iff`, `leads_iff`: blocks and exits.
* `CostedGraph.time`: the time of a block.
* `Hop.nodup`, `Hop.trail_eq`: the way back.
* `Hop.reach_of_changes`: nodes stay connected to the start when hops are replaced.
-/

namespace Playthrough

open Relation

variable {κ : Type}

namespace CostedGraph

/-! ## Blocks and exits of a reduced story -/

variable {graph : CostedGraph κ}

theorem Trim.nodup_labels (h : graph.Trim) : graph.labels.Nodup := h.ascending.nodup

theorem atlas_eq (graph : CostedGraph κ) (label : Label) :
    graph.atlas label = (graph.get? label).map CostedBlock.block := by
  unfold CostedGraph.atlas Atlas.of CostedGraph.get?
  rw [List.find?_map]
  rfl

theorem Trim.get?_eq_some_iff (h : graph.Trim) {label : Label} {costed : CostedBlock κ} :
    graph.get? label = some costed ↔ costed ∈ graph.blocks ∧ costed.label = label := by
  constructor
  · intro hget
    exact ⟨List.mem_of_find?_eq_some hget, by simpa using List.find?_some hget⟩
  · rintro ⟨hmem, rfl⟩
    obtain ⟨found, hfound⟩ : ∃ found, graph.get? costed.label = some found := by
      refine Option.isSome_iff_exists.1 (List.find?_isSome.2 ⟨costed, hmem, ?_⟩)
      simp
    have hlabel : found.label = costed.label := by simpa using List.find?_some hfound
    rw [hfound, List.inj_on_of_nodup_map h.nodup_labels (List.mem_of_find?_eq_some hfound) hmem
      hlabel]

theorem mem_labels_iff (label : Label) :
    label ∈ graph.labels ↔ (graph.atlas label).isSome := by
  rw [Atlas.isSome_of_iff, List.map_map]
  rfl

theorem Trim.mem_labels_iff_reaches (h : graph.Trim) {label : Label} :
    label ∈ graph.labels ↔ graph.atlas.Reaches .entry label := by
  rw [mem_labels_iff, h.isSome_iff]

theorem Trim.mem_labels_of_reaches (h : graph.Trim) {a b : Label} (ha : a ∈ graph.labels)
    (hreach : graph.atlas.Reaches a b) : b ∈ graph.labels := by
  rw [h.mem_labels_iff_reaches] at ha ⊢
  exact ReflTransGen.trans ha hreach

theorem mem_labels_of_leads {a b : Label} (hleads : graph.atlas.Leads a b) : a ∈ graph.labels := by
  obtain ⟨block, hblock, -⟩ := hleads
  rw [mem_labels_iff, hblock]
  rfl

theorem leads_iff {a b : Label} :
    graph.atlas.Leads a b ↔ ∃ costed, graph.get? a = some costed ∧ b ∈ costed.block.next := by
  simp [Atlas.Leads, atlas_eq]

theorem Trim.isSome_get?_of_leads (h : graph.Trim) {a b : Label}
    (hleads : graph.atlas.Leads a b) : (graph.get? b).isSome := by
  have hb := h.mem_labels_of_reaches (mem_labels_of_leads hleads) (.single hleads)
  rw [mem_labels_iff, atlas_eq] at hb
  simpa using hb

/-! ## Times -/

/-- The time of the block with a label. -/
def time [Zero κ] (graph : CostedGraph κ) (label : Label) : κ :=
  ((graph.get? label).map fun costed => costed.cost.total).getD 0

theorem time_nonneg [Zero κ] [Preorder κ]
    (hcost : ∀ costed ∈ graph.blocks, 0 ≤ costed.cost.total)
    (label : Label) : 0 ≤ graph.time label := by
  unfold time
  cases hget : graph.get? label with
  | none => exact le_rfl
  | some costed => exact hcost costed (List.mem_of_find?_eq_some hget)

end CostedGraph

/-- Adding up from the left gives the sum. -/
theorem foldl_add_eq_sum {α : Type} [AddMonoid κ] (time : α → κ) (xs : List α) (start : κ) :
    xs.foldl (fun sum x => sum + time x) start = start + (xs.map time).sum := by
  induction xs generalizing start with
  | nil => simp
  | cons x xs ih => rw [List.foldl_cons, ih, List.map_cons, List.sum_cons, add_assoc]

/-! ## Trails of predecessors -/

variable {α : Type} [BEq α]

/-- A table of hops leads from `source` to `target`. -/
def Hop (hops : List (α × α)) (source target : α) : Prop := hops.lookup target = some source

namespace Hop

variable {hops hops' : List (α × α)} {a b source : α} {path : List α}

/-- Two paths of hops to the same node are the same. -/
theorem path_unique (hstart : hops.lookup a = none) {path' : List α}
    (h : Path (Hop hops) a b path) (h' : Path (Hop hops) a b path') : path = path' := by
  induction path using List.reverseRecOn generalizing b path' with
  | nil => simpa using h.starts
  | append_singleton path last ih =>
    rcases h.cases_snoc with ⟨heq, rfl⟩ | ⟨previous, front, heq, hfront, hhop⟩
    · rcases h'.cases_snoc with ⟨heq', -⟩ | ⟨previous', front', -, -, hhop'⟩
      · rw [heq, heq']
      · rw [Hop, hstart] at hhop'
        cases hhop'
    · obtain ⟨rfl, hlast⟩ := List.append_inj' heq rfl
      obtain rfl : last = b := by simpa using hlast
      rcases h'.cases_snoc with ⟨-, rfl⟩ | ⟨previous', front', rfl, hfront', hhop'⟩
      · rw [Hop, hstart] at hhop
        cases hhop
      · obtain rfl : previous = previous' := by
          rw [Hop, hhop, Option.some.injEq] at hhop'
          exact hhop'
        rw [ih hfront hfront']

theorem nodup (hstart : hops.lookup a = none) (h : Path (Hop hops) a b path) : path.Nodup := by
  induction path using List.reverseRecOn generalizing b with
  | nil => exact List.nodup_nil
  | append_singleton path last ih =>
    rcases h.cases_snoc with ⟨heq, -⟩ | ⟨previous, front, heq, hfront, -⟩
    · rw [heq]
      exact List.nodup_singleton a
    · obtain ⟨rfl, hlast⟩ := List.append_inj' heq rfl
      obtain rfl : last = b := by simpa using hlast
      refine List.nodup_append.2 ⟨ih hfront, List.nodup_singleton last, ?_⟩
      rintro x hx _ hlast' rfl
      obtain rfl := List.mem_singleton.1 hlast'
      -- a shorter path of hops would lead to the last node
      obtain ⟨before, after, rfl⟩ := List.append_of_mem hx
      have hlength := congrArg List.length (path_unique hstart h hfront.upTo)
      simp at hlength

theorem trail_eq (hstart : hops.lookup a = none) {front : List α} (limit : Nat)
    (h : Path (Hop hops) a b (front ++ [b])) (hlimit : front.length ≤ limit) (rest : List α) :
    trail hops limit b rest = front ++ rest := by
  induction limit generalizing front b rest with
  | zero =>
    obtain rfl : front = [] := List.length_eq_zero_iff.1 (Nat.le_zero.1 hlimit)
    rfl
  | succ limit ih =>
    rcases h.cases_snoc with ⟨heq, rfl⟩ | ⟨previous, front', heq, hfront, hhop⟩
    · obtain rfl : front = [] := by simpa using heq
      simp [trail, hstart]
    · obtain rfl : front = front' := List.append_cancel_right heq
      obtain ⟨before, rfl⟩ := List.getLast?_eq_some_iff.1 hfront.ends
      have hhop' : hops.lookup b = some previous := hhop
      rw [List.length_append, List.length_singleton] at hlimit
      simp only [trail, hhop']
      rw [ih hfront (by omega), List.append_assoc, List.singleton_append]

/-- Hops may be replaced by hops from `source`, except those that lead on to `source`. -/
theorem reach_of_changes (hsource : ReflTransGen (Hop hops) a source)
    (hchange : ∀ x, hops'.lookup x = hops.lookup x ∨
      hops'.lookup x = some source ∧ ¬ ReflTransGen (Hop hops) x source)
    (h : ReflTransGen (Hop hops) a b) : ReflTransGen (Hop hops') a b := by
  have hkept : ∀ x, ReflTransGen (Hop hops) a x → ReflTransGen (Hop hops) x source →
      ReflTransGen (Hop hops') a x := by
    intro x hx
    induction hx with
    | refl => exact fun _ => .refl
    | @tail y x _ hhop ih =>
      intro hreach
      rcases hchange x with hsame | ⟨-, hnot⟩
      · exact (ih (.head hhop hreach)).tail (hsame.trans hhop)
      · exact absurd hreach hnot
  induction h with
  | refl => exact .refl
  | @tail y x _ hhop ih =>
    rcases hchange x with hsame | ⟨hnew, -⟩
    · exact ih.tail (hsame.trans hhop)
    · exact (hkept source hsource .refl).tail hnew

end Hop

end Playthrough
