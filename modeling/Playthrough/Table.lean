/-!
# Tables

A table is a list of keys with their values in which no key repeats. Lookup is `List.lookup`.

* `Table.isSome_lookup_iff`: the keys that a table has a value for.
* `Table.set`: binds a key, whatever it was bound to before.
* `Table.lookup_set`: what is looked up afterwards.
* `Table.nodup_set`: no key repeats.
* `Table.lookup_map`: what is looked up when the values change but not the keys.
-/

namespace Playthrough.Table

variable {α β : Type} [DecidableEq α]

/-- Binds a key to a value. -/
def set (key : α) (value : β) (table : List (α × β)) : List (α × β) :=
  (key, value) :: table.filter (·.1 ≠ key)

theorem lookup_cons_eq_ite (key : α) (entry : α × β) (table : List (α × β)) :
    (entry :: table).lookup key = if key = entry.1 then some entry.2 else table.lookup key := by
  rw [List.lookup_cons]
  by_cases h : key = entry.1
  · simp [h]
  · have hne : (key == entry.1) = false := by simpa using h
    rw [hne, if_neg h]

theorem isSome_lookup_iff (key : α) (table : List (α × β)) :
    (table.lookup key).isSome ↔ key ∈ table.map Prod.fst := by
  induction table with
  | nil => simp
  | cons entry table ih =>
    rw [lookup_cons_eq_ite, List.map_cons, List.mem_cons]
    split
    · rename_i h
      simp [h]
    · rename_i h
      rw [ih, or_iff_right h]

theorem lookup_of_mem {table : List (α × β)} (hnodup : (table.map Prod.fst).Nodup)
    {entry : α × β} (hentry : entry ∈ table) : table.lookup entry.1 = some entry.2 := by
  induction table with
  | nil => cases hentry
  | cons first table ih =>
    rw [List.map_cons, List.nodup_cons] at hnodup
    rw [lookup_cons_eq_ite]
    rcases List.mem_cons.1 hentry with rfl | hentry
    · rw [if_pos rfl]
    · rw [if_neg, ih hnodup.2 hentry]
      intro hsame
      exact hnodup.1 (hsame ▸ List.mem_map_of_mem hentry)

theorem lookup_filter_ne {key other : α} (table : List (α × β)) (h : other ≠ key) :
    (table.filter (·.1 ≠ key)).lookup other = table.lookup other := by
  induction table with
  | nil => rfl
  | cons entry table ih =>
    by_cases hkey : entry.1 = key
    · rw [List.filter_cons_of_neg (by simpa using hkey), ih, lookup_cons_eq_ite, hkey, if_neg h]
    · rw [List.filter_cons_of_pos (by simpa using hkey), lookup_cons_eq_ite, lookup_cons_eq_ite, ih]

theorem lookup_set (key other : α) (value : β) (table : List (α × β)) :
    (set key value table).lookup other =
      if other = key then some value else table.lookup other := by
  rw [set, lookup_cons_eq_ite]
  split
  · rfl
  · rename_i h
    exact lookup_filter_ne table h

theorem nodup_set (key : α) (value : β) {table : List (α × β)} (h : (table.map Prod.fst).Nodup) :
    ((set key value table).map Prod.fst).Nodup := by
  rw [set, List.map_cons, List.nodup_cons]
  refine ⟨by simp, h.sublist ?_⟩
  exact List.filter_sublist.map Prod.fst

theorem lookup_map {f : α × β → α × β} (hkey : ∀ entry, (f entry).1 = entry.1)
    (table : List (α × β)) (key : α) :
    (table.map f).lookup key = (table.lookup key).map fun value => (f (key, value)).2 := by
  induction table with
  | nil => rfl
  | cons entry table ih =>
    rw [List.map_cons, lookup_cons_eq_ite, lookup_cons_eq_ite, hkey, ih]
    split
    · rename_i h
      rw [h, Option.map_some]
    · rfl

end Playthrough.Table
