import Playthrough.Table

/-!
# Lists in ascending order of a key

Blocks are listed by label, shares of a cost by category. Such lists are kept in strictly ascending
order of their key, so each key occurs once and a list is determined by its entries.

* `Ascending key xs`: the order.
* `Ascending.nodup`, `Ascending.ext`: no key repeats, and the entries determine the list.
* `place`: puts an entry in its place, or combines it with the entry that has its key.
* `ascending_place`: placing keeps the order.
* `mem_map_key_place`: placing adds one key and loses none.
* `lookup_place`: what is looked up in a table afterwards.
-/

namespace Playthrough

variable {α κ : Type} [Ord κ]

/-- The keys of a list ascend strictly. -/
def Ascending (key : α → κ) (xs : List α) : Prop :=
  xs.Pairwise fun a b => compare (key a) (key b) = .lt

theorem Ascending.nodup [Std.TransOrd κ] {key : α → κ} {xs : List α} (h : Ascending key xs) :
    (xs.map key).Nodup := by
  rw [List.Nodup, List.pairwise_map]
  refine h.imp ?_
  intro a b hlt heq
  rw [heq, Std.compare_self] at hlt
  cases hlt

theorem Ascending.ext [Std.TransOrd κ] {key : α → κ} {xs ys : List α} (hxs : Ascending key xs)
    (hys : Ascending key ys) (h : ∀ x, x ∈ xs ↔ x ∈ ys) : xs = ys := by
  induction xs generalizing ys with
  | nil => exact (List.eq_nil_iff_forall_not_mem.2 fun y hy => by simpa using (h y).2 hy).symm
  | cons x xs ih =>
    cases ys with
    | nil => simpa using (h x).1 List.mem_cons_self
    | cons y ys =>
      have hx := List.pairwise_cons.1 hxs
      have hy := List.pairwise_cons.1 hys
      have hne : ∀ {a b}, compare (key a) (key b) = .lt → a ≠ b := by
        rintro a _ hlt rfl
        rw [Std.compare_self] at hlt
        cases hlt
      -- Each head is in the other list, and cannot be behind the head of that list.
      have hhead : x = y := by
        rcases List.mem_cons.1 ((h x).1 List.mem_cons_self) with heq | hmem
        · exact heq
        · rcases List.mem_cons.1 ((h y).2 List.mem_cons_self) with heq | hmem'
          · exact heq.symm
          · exact absurd rfl (hne (Std.TransCmp.lt_trans (hy.1 x hmem) (hx.1 y hmem')))
      subst hhead
      refine congrArg _ (ih hx.2 hy.2 fun z => ?_)
      have hz := h z
      rw [List.mem_cons, List.mem_cons] at hz
      constructor
      · intro hmem
        exact (hz.1 (Or.inr hmem)).resolve_left (hne (hx.1 z hmem)).symm
      · intro hmem
        exact (hz.2 (Or.inr hmem)).resolve_left (hne (hy.1 z hmem)).symm

/-- Puts `x` in its place in a list that ascends by `key`. An entry `y` with the key of `x` is
    replaced by `combine x y`. -/
def place (key : α → κ) (combine : α → α → α) (x : α) : List α → List α
  | [] => [x]
  | y :: ys =>
    match compare (key x) (key y) with
    | .lt => x :: y :: ys
    | .eq => combine x y :: ys
    | .gt => y :: place key combine x ys

theorem mem_map_key_place [Std.LawfulEqOrd κ] {key : α → κ} {combine : α → α → α}
    (hcombine : ∀ a b, key a = key b → key (combine a b) = key a) (x : α) (xs : List α) (k : κ) :
    k ∈ (place key combine x xs).map key ↔ k = key x ∨ k ∈ xs.map key := by
  induction xs with
  | nil => simp [place]
  | cons y ys ih =>
    rw [place]
    split
    · simp
    · rename_i h
      have hk := Std.LawfulEqOrd.eq_of_compare h
      simp [hcombine x y hk, hk]
    · simp only [List.map_cons, List.mem_cons, ih]
      constructor
      · rintro (h | h | h) <;> simp [h]
      · rintro (h | h | h) <;> simp [h]

theorem ascending_place [Std.TransOrd κ] [Std.LawfulEqOrd κ] {key : α → κ} {combine : α → α → α}
    (hcombine : ∀ a b, key a = key b → key (combine a b) = key a) {x : α} {xs : List α}
    (h : Ascending key xs) : Ascending key (place key combine x xs) := by
  induction xs with
  | nil => simp [place, Ascending]
  | cons y ys ih =>
    have hy := List.pairwise_cons.1 h
    rw [place]
    split
    · rename_i hlt
      refine List.pairwise_cons.2 ⟨?_, h⟩
      intro z hz
      rcases List.mem_cons.1 hz with rfl | hz
      · exact hlt
      · exact Std.TransCmp.lt_trans hlt (hy.1 z hz)
    · rename_i heq
      have hk := Std.LawfulEqOrd.eq_of_compare heq
      refine List.pairwise_cons.2 ⟨?_, hy.2⟩
      intro z hz
      rw [hcombine x y hk, hk]
      exact hy.1 z hz
    · rename_i hgt
      refine List.pairwise_cons.2 ⟨?_, ih hy.2⟩
      intro z hz
      have hz' : key z ∈ (place key combine x ys).map key := List.mem_map_of_mem hz
      rcases (mem_map_key_place hcombine x ys (key z)).1 hz' with hz' | hz'
      · rw [hz']
        exact Std.OrientedCmp.lt_of_gt hgt
      · obtain ⟨w, hw, hwz⟩ := List.mem_map.1 hz'
        rw [← hwz]
        exact hy.1 w hw

/-! ## Tables -/

section

open Table

variable {β : Type} [DecidableEq κ]

/-- A table in ascending order has no value for a key in front of all its keys. -/
theorem lookup_of_forall_lt [Std.TransOrd κ] {key : κ} {table : List (κ × β)}
    (h : ∀ entry ∈ table, compare key entry.1 = .lt) : table.lookup key = none := by
  refine List.lookup_eq_none_iff.2 fun entry hentry => ?_
  have hlt := h entry hentry
  have hne : key ≠ entry.1 := by
    intro heq
    rw [heq, Std.compare_self] at hlt
    cases hlt
  simpa using hne

theorem Ascending.lookup_eq_some_iff [Std.TransOrd κ] {table : List (κ × β)}
    (h : Ascending Prod.fst table) {key : κ} {value : β} :
    table.lookup key = some value ↔ (key, value) ∈ table := by
  induction table with
  | nil => simp
  | cons entry table ih =>
    have hentry := List.pairwise_cons.1 h
    rw [lookup_cons_eq_ite, List.mem_cons]
    split
    · rename_i hkey
      subst hkey
      have hnot : (entry.1, value) ∉ table := by
        intro hmem
        have hlt := hentry.1 _ hmem
        rw [Std.compare_self] at hlt
        cases hlt
      rw [or_iff_left hnot, Option.some.injEq, Prod.ext_iff]
      exact ⟨fun heq => ⟨rfl, heq.symm⟩, fun heq => heq.2.symm⟩
    · rename_i hkey
      have hne : (key, value) ≠ entry := fun heq => hkey (congrArg Prod.fst heq)
      rw [ih hentry.2, or_iff_right hne]

theorem Ascending.eq_of_lookup [Std.TransOrd κ] {xs ys : List (κ × β)}
    (hxs : Ascending Prod.fst xs) (hys : Ascending Prod.fst ys)
    (h : ∀ key, xs.lookup key = ys.lookup key) : xs = ys := by
  refine hxs.ext hys fun entry => ?_
  rw [← hxs.lookup_eq_some_iff, ← hys.lookup_eq_some_iff, h]

theorem lookup_place [Std.TransOrd κ] [Std.LawfulEqOrd κ]
    {combine : κ × β → κ × β → κ × β} (hcombine : ∀ a b, a.1 = b.1 → (combine a b).1 = a.1)
    (x : κ × β) {table : List (κ × β)} (h : Ascending Prod.fst table) (key : κ) :
    (place Prod.fst combine x table).lookup key =
      if key = x.1 then
        some ((table.lookup key).elim x.2 fun value => (combine x (key, value)).2)
      else table.lookup key := by
  induction table with
  | nil => exact lookup_cons_eq_ite key x []
  | cons y ys ih =>
    have hy := List.pairwise_cons.1 h
    rw [place]
    split
    · rename_i hlt
      rw [lookup_cons_eq_ite]
      split
      · rename_i hkey
        have hnone : (y :: ys).lookup key = none := by
          refine lookup_of_forall_lt fun entry hentry => ?_
          rw [hkey]
          rcases List.mem_cons.1 hentry with rfl | hentry
          · exact hlt
          · exact Std.TransCmp.lt_trans hlt (hy.1 entry hentry)
        rw [hnone, Option.elim_none]
      · rfl
    · rename_i heq
      have hxy := Std.LawfulEqOrd.eq_of_compare heq
      rw [lookup_cons_eq_ite, lookup_cons_eq_ite, hcombine x y hxy, hxy]
      split
      · rename_i hkey
        rw [hkey, Option.elim_some]
      · rfl
    · rename_i hgt
      rw [lookup_cons_eq_ite, lookup_cons_eq_ite, ih hy.2]
      by_cases hkey : key = y.1
      · have hne : key ≠ x.1 := by
          intro heq
          rw [← heq, hkey, Std.compare_self] at hgt
          cases hgt
        rw [if_pos hkey, if_neg hne, if_pos hkey]
      · rw [if_neg hkey, if_neg hkey]

end

end Playthrough
