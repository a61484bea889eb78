import Mathlib
import Playthrough.Proofs.Draft.Indent
import Playthrough.Proofs.Text.Trim
import Playthrough.Reading.Settings

/-!
# Lists of names are read back

A list of names is cut at its commas, and an item at its first `=`; whatever is left is trimmed. None
of these steps gets in the way of another: commas and `=` are no blanks, and a name that is given a
name to show has neither. So the list that writes down some names, with any blanks around them and
blank items between them, stands for those names, the last item of each. Only an item that has nothing
but blanks in front of its first `=` is refused.

* `Binding`, `ListItem`: a name with the name to show, and the ways to write it.
* `Nameless`: the items that are refused.
* `readEntries`: what the items of a list say; `readEntries_written` and `readEntries_eq_error_iff`.
* `LastBound`: what a list of names says about a name; `Aliases.lookup_extend`.
* `aliases_decode`: what is read from a list of names.
-/

namespace Playthrough.Reading

open Text

/-! ## Items -/

/-- Blanks that may stand around a name. -/
abbrev Padding := { blanks : List Char // Blanks blanks }

/-- A name of the script with the name to show for it. -/
structure Binding where
  name : List Char
  shown : List Char
  name_ne_nil : name ≠ []
  trim_name : trim name = name
  plain_name : ∀ c ∈ name, c ≠ ',' ∧ c ≠ '='
  trim_shown : trim shown = shown
  plain_shown : ',' ∉ shown

/-- The entry of a binding in a table of names. -/
def Binding.entry (binding : Binding) : String × String :=
  (String.ofList binding.name, String.ofList binding.shown)

/-- An item of a list of names. -/
inductive ListItem where
  | blank (padding : Padding)
  /-- A name that stays as it is can stand alone. -/
  | bare (binding : Binding) (same : binding.shown = binding.name) (before after : Padding)
  | bound (binding : Binding) (before gap gap' after : Padding)

namespace ListItem

/-- The item as it is written. -/
def written : ListItem → List Char
  | blank padding => padding
  | bare binding _ before after => before ++ binding.name ++ after
  | bound binding before gap gap' after =>
    before ++ binding.name ++ gap ++ '=' :: (gap' ++ binding.shown ++ after)

/-- What the item says. -/
def binding? : ListItem → Option Binding
  | blank _ => none
  | bare binding .. => some binding
  | bound binding .. => some binding

end ListItem

theorem not_blank_eq : isBlank '=' = false := by decide

theorem Padding.not_mem {c : Char} (hc : isBlank c = false) (padding : Padding) :
    c ∉ (padding : List Char) := by
  intro hmem
  rw [padding.2 c hmem] at hc
  cases hc

theorem ListItem.comma_not_mem_written (item : ListItem) : ',' ∉ item.written := by
  have hpadding := fun padding : Padding => padding.not_mem (c := ',') (by decide)
  have hname : ∀ binding : Binding, ',' ∉ binding.name := fun binding hmem =>
    (binding.plain_name ',' hmem).1 rfl
  cases item with
  | blank padding => exact hpadding padding
  | bare binding same before after => simp [written, hpadding, hname]
  | bound binding before gap gap' after =>
    simp [written, hpadding, hname, binding.plain_shown]

/-! ## Reading an item -/

/-- An item that gives a name to show but no name of the script. -/
def Nameless (item : List Char) : Prop :=
  ∃ before rest, item = before ++ '=' :: rest ∧ Blanks before

theorem Nameless.not_blanks {item : List Char} (h : Nameless item) : ¬ Blanks item := by
  obtain ⟨before, rest, rfl, -⟩ := h
  intro hblanks
  have hblank := hblanks '=' (by simp)
  rw [not_blank_eq] at hblank
  cases hblank

theorem readAlias_of_not_mem {item : List Char} (h : '=' ∉ item) :
    readAlias (trim item) = .ok (String.ofList (trim item), String.ofList (trim item)) := by
  have hdrop : (trim item).dropWhile (· ≠ '=') = [] := by
    refine List.dropWhile_eq_nil_iff.2 fun c hc => decide_eq_true ?_
    rintro rfl
    exact h (trim_subset item hc)
  rw [readAlias]
  dsimp only
  rw [hdrop]

theorem readAlias_of_mem {front rest : List Char} (h : '=' ∉ front) :
    readAlias (trim (front ++ '=' :: rest)) =
      if trim front = [] then .error ⟨String.ofList (trim (front ++ '=' :: rest))⟩
      else .ok (String.ofList (trim front), String.ofList (trim rest)) := by
  obtain ⟨htake, hdrop⟩ : (trimStart front ++ '=' :: trimEnd rest).takeWhile (· ≠ '=') =
      trimStart front ∧ (trimStart front ++ '=' :: trimEnd rest).dropWhile (· ≠ '=') =
        '=' :: trimEnd rest := by
    refine run_append (fun c hc => decide_eq_true ?_) (by simp)
    exact ne_of_mem_of_not_mem (trimStart_subset front hc) h
  rw [trim_append_cons not_blank_eq, readAlias]
  dsimp only
  rw [htake, hdrop]
  simp [List.isEmpty_iff]

/-- Only an item without a name of the script is refused. -/
theorem readAlias_eq_error_iff {item : List Char} {fault : AliasFault} :
    readAlias (trim item) = .error fault ↔
      Nameless item ∧ fault = ⟨String.ofList (trim item)⟩ := by
  by_cases heq : '=' ∈ item
  · obtain ⟨front, rest, rfl, hfront⟩ := List.eq_append_cons_of_mem heq
    rw [readAlias_of_mem hfront]
    by_cases hblank : trim front = []
    · have hnameless : Nameless (front ++ '=' :: rest) :=
        ⟨front, rest, rfl, trim_eq_nil_iff.1 hblank⟩
      rw [if_pos hblank, Except.error.injEq, and_iff_right hnameless, eq_comm]
    · have hnamed : ¬ Nameless (front ++ '=' :: rest) := by
        rintro ⟨before, rest', hsplit, hbefore⟩
        refine hblank (trim_eq_nil_iff.2 ?_)
        rw [(eq_of_first_eq hfront (Padding.not_mem not_blank_eq ⟨before, hbefore⟩) hsplit).1]
        exact hbefore
      simp [hblank, hnamed]
  · have hnamed : ¬ Nameless item := by
      rintro ⟨before, rest, rfl, -⟩
      exact heq (by simp)
    simp [readAlias_of_not_mem heq, hnamed]

/-! ## Reading the items of a list -/

/-- What the items of a list say, in order. -/
def readEntries (items : List (List Char)) : Except AliasFault (List (String × String)) :=
  ((items.map trim).filter (!·.isEmpty)).mapM readAlias

theorem readAliases_eq (list : String) : readAliases list =
    (readEntries (list.toList.splitOn ',')).map (Aliases.extend · []) := rfl

theorem readEntries_cons (item : List Char) (items : List (List Char)) :
    readEntries (item :: items) =
      if trim item = [] then readEntries items
      else do return (← readAlias (trim item)) :: (← readEntries items) := by
  unfold readEntries
  by_cases h : trim item = []
  · simp [h]
  · simp [h]

theorem Binding.readAlias_bare {binding : Binding} (same : binding.shown = binding.name)
    (before after : Padding) : trim (before ++ binding.name ++ after) ≠ [] ∧
      readAlias (trim (before ++ binding.name ++ after)) = .ok binding.entry := by
  have htrim : trim (before ++ binding.name ++ after) = binding.name :=
    (trim_pad before.2 after.2 _).trans binding.trim_name
  have hname : '=' ∉ binding.name := fun hmem => (binding.plain_name '=' hmem).2 rfl
  have hread := readAlias_of_not_mem hname
  rw [binding.trim_name] at hread
  rw [htrim, hread, entry, same]
  exact ⟨binding.name_ne_nil, rfl⟩

theorem Binding.readAlias_bound (binding : Binding) (before gap gap' after : Padding) :
    trim (before ++ binding.name ++ gap ++ '=' :: (gap' ++ binding.shown ++ after)) ≠ [] ∧
      readAlias (trim (before ++ binding.name ++ gap ++ '=' :: (gap' ++ binding.shown ++ after))) =
        .ok binding.entry := by
  have hfront : trim (before ++ binding.name ++ gap) = binding.name :=
    (trim_pad before.2 gap.2 _).trans binding.trim_name
  have hrest : trim (gap' ++ binding.shown ++ after) = binding.shown :=
    (trim_pad gap'.2 after.2 _).trans binding.trim_shown
  have hname : '=' ∉ binding.name := fun hmem => (binding.plain_name '=' hmem).2 rfl
  have heq : '=' ∉ before ++ binding.name ++ gap := by
    simp [before.not_mem not_blank_eq, hname, gap.not_mem not_blank_eq]
  refine ⟨?_, ?_⟩
  · rw [trim_append_cons not_blank_eq]
    simp
  · rw [readAlias_of_mem heq, hfront, hrest, if_neg binding.name_ne_nil]
    rfl

/-- The items of a list that was written down say what was written. -/
theorem readEntries_written (items : List ListItem) : readEntries (items.map ListItem.written) =
    .ok ((items.filterMap ListItem.binding?).map Binding.entry) := by
  have hbound : ∀ (binding : Binding) (written : List Char) (items : List (List Char))
      (entries : List (String × String)), readEntries items = .ok entries →
      trim written ≠ [] ∧ readAlias (trim written) = .ok binding.entry →
      readEntries (written :: items) = .ok (binding.entry :: entries) := by
    intro binding written items entries hitems ⟨hwritten, hread⟩
    rw [readEntries_cons, if_neg hwritten, hread, hitems]
    rfl
  induction items with
  | nil => rfl
  | cons item items ih =>
    cases item with
    | blank padding =>
      have hblank : trim (padding : List Char) = [] := trim_eq_nil_iff.2 padding.2
      rw [List.map_cons, ListItem.written, readEntries_cons, if_pos hblank, ih]
      rfl
    | bare binding same before after =>
      exact hbound binding _ _ _ ih (Binding.readAlias_bare same before after)
    | bound binding before gap gap' after =>
      exact hbound binding _ _ _ ih (binding.readAlias_bound before gap gap' after)

/-- A list that was written down falls into the items that were written. -/
theorem readEntries_splitOn (items : List ListItem) :
    readEntries (([','].intercalate (items.map ListItem.written)).splitOn ',') =
      .ok ((items.filterMap ListItem.binding?).map Binding.entry) := by
  by_cases hnil : items = []
  · subst hnil
    rfl
  · rw [List.splitOn_intercalate, readEntries_written]
    · intro text htext
      obtain ⟨item, -, rfl⟩ := List.mem_map.1 htext
      exact item.comma_not_mem_written
    · simpa using hnil

/-- The first item without a name of the script is refused, and nothing else. -/
theorem readEntries_eq_error_iff {items : List (List Char)} {fault : AliasFault} :
    readEntries items = .error fault ↔ ∃ front item back, items = front ++ item :: back ∧
      (∀ other ∈ front, ¬ Nameless other) ∧ Nameless item ∧
      fault = ⟨String.ofList (trim item)⟩ := by
  induction items with
  | nil =>
    constructor
    · intro h
      cases h
    · rintro ⟨front, item, back, h, -⟩
      simp at h
  | cons item items ih =>
    have hcons : (∃ front first back, item :: items = front ++ first :: back ∧
        (∀ other ∈ front, ¬ Nameless other) ∧ Nameless first ∧
        fault = ⟨String.ofList (trim first)⟩) ↔
        (Nameless item ∧ fault = ⟨String.ofList (trim item)⟩) ∨
          (¬ Nameless item ∧ readEntries items = .error fault) := by
      rw [ih]
      constructor
      · rintro ⟨front, first, back, hsplit, hfront, hfirst⟩
        cases front with
        | nil =>
          obtain ⟨rfl, -⟩ := List.cons.inj hsplit
          exact Or.inl hfirst
        | cons other front =>
          obtain ⟨rfl, hitems⟩ := List.cons.inj hsplit
          rw [List.forall_mem_cons] at hfront
          exact Or.inr ⟨hfront.1, front, first, back, hitems, hfront.2, hfirst⟩
      · rintro (hfirst | ⟨hitem, front, first, back, rfl, hfront, hfirst⟩)
        · exact ⟨[], item, items, rfl, by simp, hfirst⟩
        · exact ⟨item :: front, first, back, rfl, List.forall_mem_cons.2 ⟨hitem, hfront⟩, hfirst⟩
    rw [hcons, readEntries_cons, ← readAlias_eq_error_iff]
    by_cases hblank : trim item = []
    · have hnamed : ¬ Nameless item := fun hnameless =>
        hnameless.not_blanks (trim_eq_nil_iff.1 hblank)
      rw [if_pos hblank, hblank]
      simp [hnamed, readAlias]
    · rw [if_neg hblank]
      cases hread : readAlias (trim item) with
      | error refused =>
        have hnameless := (readAlias_eq_error_iff.1 hread).1
        simp [hnameless, bind, Except.bind]
      | ok entry =>
        have hnamed : ¬ Nameless item := by
          intro hnameless
          rw [readAlias_eq_error_iff.2 ⟨hnameless, rfl⟩] at hread
          cases hread
        cases readEntries items <;> simp [hnamed, bind, Except.bind, pure, Except.pure]

theorem not_nameless_of_readEntries {items : List (List Char)} {entries : List (String × String)}
    (h : readEntries items = .ok entries) : ∀ item ∈ items, ¬ Nameless item := by
  classical
  intro item hitem hnameless
  have hfound : (items.find? fun item => decide (Nameless item)).isSome :=
    List.find?_isSome.2 ⟨item, hitem, decide_eq_true hnameless⟩
  obtain ⟨first, hfirst⟩ := Option.isSome_iff_exists.1 hfound
  obtain ⟨hnameless, front, back, hsplit, hfront⟩ := List.find?_eq_some_iff_append.1 hfirst
  have hrefused := readEntries_eq_error_iff.2 ⟨front, first, back, hsplit,
    fun other hother => by simpa using hfront other hother, of_decide_eq_true hnameless, rfl⟩
  rw [h] at hrefused
  cases hrefused

/-! ## The table of names -/

/-- The last entry for a name shows it in the given way. -/
def LastBound (entries : List (String × String)) (name shown : String) : Prop :=
  ∃ front back, entries = front ++ (name, shown) :: back ∧ ∀ entry ∈ back, entry.1 ≠ name

theorem Aliases.lookup_extend (added aliases : Aliases) (name : String) :
    (Aliases.extend added aliases).lookup name =
      (added.reverse.lookup name).or (aliases.lookup name) := by
  induction added generalizing aliases with
  | nil => rfl
  | cons entry added ih =>
    have hcons : Aliases.extend (entry :: added) aliases =
        Aliases.extend added (Table.set entry.1 entry.2 aliases) := rfl
    rw [hcons, ih, Table.lookup_set, List.reverse_cons, List.lookup_append, Option.or_assoc,
      Table.lookup_cons_eq_ite]
    split <;> rfl

theorem Aliases.nodup_extend (added : Aliases) {aliases : Aliases}
    (h : (aliases.map Prod.fst).Nodup) : ((Aliases.extend added aliases).map Prod.fst).Nodup := by
  induction added generalizing aliases with
  | nil => exact h
  | cons entry added ih =>
    refine ih (List.nodup_cons.2 ⟨?_, h.sublist (List.filter_sublist.map Prod.fst)⟩)
    simp

theorem lookup_reverse_eq_some_iff {entries : List (String × String)} {name shown : String} :
    entries.reverse.lookup name = some shown ↔ LastBound entries name shown := by
  rw [List.lookup_eq_some_iff]
  constructor
  · rintro ⟨back, front, hsplit, hback⟩
    refine ⟨front.reverse, back.reverse, ?_, fun entry hentry => ?_⟩
    · rw [← List.reverse_reverse entries, hsplit]
      simp
    · exact (bne_iff_ne.1 (hback entry (List.mem_reverse.1 hentry))).symm
  · rintro ⟨front, back, rfl, hback⟩
    refine ⟨back.reverse, front.reverse, by simp, fun entry hentry => ?_⟩
    exact bne_iff_ne.2 (hback entry (List.mem_reverse.1 hentry)).symm

/-! ## Lists of names -/

/-- **Lists of names.** Take any names with the names to show for them, written down as items with
    any blanks around them, and with any blank items between: the list of these items is accepted,
    and the table that is read has for each name what its last item shows, and no other names. A
    list of any kind is refused exactly if one of its items is not blank and has only blanks in front
    of its first `=`, and the fault names the first such item. -/
theorem aliases_decode :
    (∀ items : List ListItem, ∃ aliases,
      readAliases (String.ofList ([','].intercalate (items.map ListItem.written))) = .ok aliases ∧
        (aliases.map Prod.fst).Nodup ∧ ∀ name shown, aliases.lookup name = some shown ↔
          LastBound ((items.filterMap ListItem.binding?).map Binding.entry) name shown) ∧
    ∀ list : String,
      ((∃ fault, readAliases list = .error fault) ↔
        ∃ item ∈ list.toList.splitOn ',', ¬ Blanks item ∧ Nameless item) ∧
      ∀ fault, readAliases list = .error fault → ∃ front item back,
        list.toList.splitOn ',' = front ++ item :: back ∧ (∀ other ∈ front, ¬ Nameless other) ∧
          Nameless item ∧ fault.item = String.ofList (trim item) := by
  refine ⟨fun items => ?_, fun list => ?_⟩
  · refine ⟨Aliases.extend ((items.filterMap ListItem.binding?).map Binding.entry) [], ?_,
      Aliases.nodup_extend _ List.nodup_nil, fun name shown => ?_⟩
    · rw [readAliases_eq, String.toList_ofList, readEntries_splitOn]
      rfl
    · rw [Aliases.lookup_extend, List.lookup_nil, Option.or_none, lookup_reverse_eq_some_iff]
  · have hfault : ∀ fault, readAliases list = .error fault ↔
        readEntries (list.toList.splitOn ',') = .error fault := by
      intro fault
      rw [readAliases_eq]
      cases readEntries (list.toList.splitOn ',') <;> simp [Except.map]
    refine ⟨⟨?_, ?_⟩, fun fault h => ?_⟩
    · rintro ⟨fault, h⟩
      obtain ⟨front, item, back, hsplit, -, hnameless, -⟩ :=
        readEntries_eq_error_iff.1 ((hfault fault).1 h)
      exact ⟨item, by simp [hsplit], hnameless.not_blanks, hnameless⟩
    · rintro ⟨item, hitem, -, hnameless⟩
      cases hread : readEntries (list.toList.splitOn ',') with
      | error fault => exact ⟨fault, (hfault fault).2 hread⟩
      | ok entries => exact absurd hnameless (not_nameless_of_readEntries hread item hitem)
    · obtain ⟨front, item, back, hsplit, hfront, hnameless, rfl⟩ :=
        readEntries_eq_error_iff.1 ((hfault fault).1 h)
      exact ⟨front, item, back, hsplit, hfront, hnameless, rfl⟩

/-- No blanks at all. -/
def Padding.none : Padding := ⟨[], by simp [Blanks]⟩

/-- A tab. -/
def Padding.tab : Padding := ⟨['\t'], fun c hc => by rw [List.mem_singleton.1 hc]; decide⟩

/-- A cast in which `e` stays as it is at first, `m` is shown with an `=`, and `s` as nothing. -/
def castItems : List ListItem :=
  [.bare ⟨['e'], ['e'], by decide, by decide, by simp, by decide, by decide⟩ rfl .tab .none,
   .bound ⟨['m'], ['M', '=', 'e'], by decide, by decide, by simp, by decide, by decide⟩
     .none .tab .tab .none,
   .blank .tab,
   .bound ⟨['s'], [], by decide, by decide, by simp, by decide, by decide⟩ .none .none .tab .none,
   .bound ⟨['e'], ['E', ' ', 'x'], by decide, by decide, by simp, by decide, by decide⟩
     .none .none .none .none]

/-- The cast is read back, with the last name to show for `e`. A list in which the second item has no
    name of the script is refused for it. -/
theorem aliases_decode_cast :
    (∃ aliases, readAliases "\te,m\t=\tM=e,\t,s=\t,e=E x" = .ok aliases ∧
      aliases.lookup "e" = some "E x" ∧ aliases.lookup "m" = some "M=e" ∧
      aliases.lookup "s" = some "" ∧ aliases.lookup "M" = none) ∧
    readAliases "e, = Eve" = .error ⟨"= Eve"⟩ ∧
    ∃ front item back, "e, = Eve".toList.splitOn ',' = front ++ item :: back ∧
      (∀ other ∈ front, ¬ Nameless other) ∧ Nameless item ∧
      "= Eve" = String.ofList (trim item) := by
  have hlist : String.ofList ([','].intercalate (castItems.map ListItem.written)) =
      "\te,m\t=\tM=e,\t,s=\t,e=E x" := by decide +kernel
  have hentries : (castItems.filterMap ListItem.binding?).map Binding.entry =
      [("e", "e"), ("m", "M=e"), ("s", ""), ("e", "E x")] := by decide +kernel
  have hrefused : readAliases "e, = Eve" = .error ⟨"= Eve"⟩ := by decide +kernel
  obtain ⟨aliases, hread, -, hlookup⟩ := aliases_decode.1 castItems
  rw [hlist] at hread
  rw [hentries] at hlookup
  refine ⟨⟨aliases, hread, ?_, ?_, ?_, ?_⟩, hrefused, (aliases_decode.2 _).2 _ hrefused⟩
  · exact (hlookup _ _).2 ⟨[("e", "e"), ("m", "M=e"), ("s", "")], [], rfl, by simp⟩
  · exact (hlookup _ _).2 ⟨[("e", "e")], [("s", ""), ("e", "E x")], rfl, by simp⟩
  · exact (hlookup _ _).2 ⟨[("e", "e"), ("m", "M=e")], [("e", "E x")], rfl, by simp⟩
  · refine Option.eq_none_iff_forall_ne_some.2 fun shown hshown => ?_
    obtain ⟨front, back, hsplit, -⟩ := (hlookup _ _).1 hshown
    have hmem : ("M", shown) ∈ front ++ ("M", shown) :: back := by simp
    rw [← hsplit] at hmem
    simp at hmem

end Playthrough.Reading
