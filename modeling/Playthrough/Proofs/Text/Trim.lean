import Mathlib.Data.List.DropRight
import Playthrough.Text.Blank

/-!
# Dropping blanks

Trimming stops at the first character on either side that is no blank. So it does not see what stands
behind such a character, and blanks around a text make no difference to it.

* `trim_append_cons`: a character that is no blank stays, with all that is between it and the ends.
* `trim_pad`: blanks around a text.
* `trim_eq_nil_iff`: what is left of a text.
* `eq_of_first_eq`, `eq_of_last_eq`: where a text can be cut.
-/

namespace Playthrough.Text

variable {c : Char} {text front rest : List Char}

theorem trimStart_blanks (h : ∀ c ∈ front, isBlank c = true) :
    trimStart (front ++ rest) = trimStart rest :=
  List.dropWhile_append_of_pos h

theorem trimEnd_blanks (h : ∀ c ∈ rest, isBlank c = true) :
    trimEnd (front ++ rest) = trimEnd front := by
  have hreverse : ∀ c ∈ rest.reverse, isBlank c = true := fun c hc => h c (List.mem_reverse.1 hc)
  rw [trimEnd, List.reverse_append, List.dropWhile_append_of_pos hreverse, trimEnd]

theorem takeWhile_append_cons {p : Char → Bool} (h : p c = false) :
    (front ++ c :: rest).takeWhile p = front.takeWhile p := by
  induction front with
  | nil => simp [h]
  | cons d front ih =>
    cases hd : p d with
    | true => simpa [hd] using ih
    | false => simp [hd]

theorem dropWhile_append_cons {p : Char → Bool} (h : p c = false) :
    (front ++ c :: rest).dropWhile p = front.dropWhile p ++ c :: rest := by
  induction front with
  | nil => simp [h]
  | cons d front ih =>
    cases hd : p d with
    | true => simpa [hd] using ih
    | false => simp [hd]

/-- A run ends in front of the first character that is not of its class. -/
theorem run_append {p : Char → Bool} (hfront : ∀ d ∈ front, p d = true)
    (hrest : ∀ d, rest.head? = some d → p d = false) :
    (front ++ rest).takeWhile p = front ∧ (front ++ rest).dropWhile p = rest := by
  rw [List.takeWhile_append_of_pos hfront, List.dropWhile_append_of_pos hfront]
  cases rest with
  | nil => simp
  | cons c rest => simp [hrest c rfl]

theorem trimStart_append_cons (h : isBlank c = false) :
    trimStart (front ++ c :: rest) = trimStart front ++ c :: rest :=
  dropWhile_append_cons h

theorem trimEnd_append_cons (h : isBlank c = false) :
    trimEnd (front ++ c :: rest) = front ++ c :: trimEnd rest := by
  have hsplit : (front ++ c :: rest).reverse = rest.reverse ++ c :: front.reverse := by simp
  have hstart : trimStart (rest.reverse ++ c :: front.reverse) =
      trimStart rest.reverse ++ c :: front.reverse := trimStart_append_cons h
  rw [trimEnd, hsplit, ← trimStart, hstart]
  simp [trimEnd, trimStart]

theorem isBlank_of_trimStart_eq_cons (h : trimStart text = c :: rest) : isBlank c = false := by
  have hhead := List.head?_dropWhile_not isBlank text
  rw [← trimStart, h] at hhead
  exact hhead

/-- A text has a character that is no blank, or is made of blanks. -/
theorem blank_or_split (text : List Char) :
    (∀ c ∈ text, isBlank c = true) ∨ ∃ c rest, text = leading text ++ c :: rest ∧
      isBlank c = false := by
  induction text with
  | nil => exact Or.inl (by simp)
  | cons d text ih =>
    cases hd : isBlank d with
    | false => exact Or.inr ⟨d, text, by simp [leading, hd], hd⟩
    | true =>
      rcases ih with hall | ⟨c, rest, htext, hc⟩
      · exact Or.inl (by simpa [hd] using hall)
      · refine Or.inr ⟨c, rest, ?_, hc⟩
        rw [leading, List.takeWhile_cons, if_pos hd, List.cons_append, ← leading, ← htext]

theorem trimStart_trimEnd (text : List Char) :
    trimStart (trimEnd text) = trimEnd (trimStart text) := by
  rcases blank_or_split text with hall | ⟨c, rest, htext, hc⟩
  · have hstart : trimStart text = [] := List.dropWhile_eq_nil_iff.2 hall
    have hend : trimEnd text = [] := List.rdropWhile_eq_nil_iff.2 hall
    rw [hstart, hend]
    rfl
  · have hleading : ∀ d ∈ leading text, isBlank d = true := fun _ => isBlank_of_mem_leading
    have hstart : ∀ rest, trimStart ([] ++ c :: rest) = trimStart [] ++ c :: rest := fun rest =>
      trimStart_append_cons hc
    have hend : trimEnd ([] ++ c :: rest) = [] ++ c :: trimEnd rest := trimEnd_append_cons hc
    rw [List.nil_append] at hend
    rw [htext, trimEnd_append_cons hc, trimStart_blanks hleading, trimStart_blanks hleading]
    exact (hstart _).trans ((congrArg trimEnd (hstart rest)).trans hend).symm

@[simp] theorem trim_trimStart (text : List Char) : trim (trimStart text) = trim text :=
  congrArg trimEnd (List.dropWhile_idempotent isBlank text)

@[simp] theorem trim_trimEnd (text : List Char) : trim (trimEnd text) = trim text := by
  rw [trim, trimStart_trimEnd]
  exact List.rdropWhile_idempotent isBlank (trimStart text)

@[simp] theorem trim_trim (text : List Char) : trim (trim text) = trim text := by
  rw [trim.eq_def text, trim_trimEnd, trim_trimStart, trim]

/-- A character that is no blank stays, with all that is between it and the ends. -/
theorem trim_append_cons (h : isBlank c = false) :
    trim (front ++ c :: rest) = trimStart front ++ c :: trimEnd rest := by
  rw [trim, trimStart_append_cons h, trimEnd_append_cons h]

/-- Blanks around a text make no difference. -/
theorem trim_pad (hfront : ∀ c ∈ front, isBlank c = true) (hrest : ∀ c ∈ rest, isBlank c = true)
    (text : List Char) : trim (front ++ text ++ rest) = trim text := by
  rw [← trim_trimEnd, trimEnd_blanks hrest, trim_trimEnd, trim, trimStart_blanks hfront, trim]

/-- Trimming leaves nothing of blanks only. -/
theorem trim_eq_nil_iff : trim text = [] ↔ ∀ c ∈ text, isBlank c = true := by
  constructor
  · intro h
    refine (blank_or_split text).resolve_right ?_
    rintro ⟨c, rest, htext, hc⟩
    rw [htext, trim_append_cons hc] at h
    simp at h
  · intro h
    have hpad : trim (text ++ [] ++ []) = trim [] := trim_pad h (by simp) []
    rwa [List.append_nil, List.append_nil] at hpad

theorem trimStart_subset (text : List Char) : trimStart text ⊆ text :=
  (List.dropWhile_suffix isBlank).subset

theorem trim_subset (text : List Char) : trim text ⊆ text := by
  intro c hc
  have hstart := (List.rdropWhile_prefix isBlank (l := trimStart text)).subset hc
  exact trimStart_subset text hstart

/-- A text ends with a character that is no blank if there are only blanks behind it. -/
theorem trimEnd_eq_concat_iff (hc : isBlank c = false) :
    trimEnd text = front ++ [c] ↔
      ∃ rest, text = front ++ c :: rest ∧ ∀ d ∈ rest, isBlank d = true := by
  constructor
  · intro h
    have hreverse : trimStart text.reverse = c :: front.reverse := by
      rw [trimEnd, ← trimStart, List.reverse_eq_iff] at h
      simpa using h
    have hjoin := leading_append_trimStart text.reverse
    rw [hreverse, ← List.reverse_eq_iff] at hjoin
    refine ⟨(leading text.reverse).reverse, ?_, ?_⟩
    · refine hjoin.symm.trans ?_
      simp
    · exact fun d hd => isBlank_of_mem_leading (List.mem_reverse.1 hd)
  · rintro ⟨rest, rfl, hrest⟩
    have hnil : trimEnd rest = [] := List.rdropWhile_eq_nil_iff.2 hrest
    rw [trimEnd_append_cons hc, hnil]

/-- The texts in front of the first occurrence of a character and after it are determined. -/
theorem eq_of_first_eq {front' rest' : List Char} (hfront : c ∉ front) (hfront' : c ∉ front')
    (h : front ++ c :: rest = front' ++ c :: rest') : front = front' ∧ rest = rest' := by
  have htake : ∀ {front : List Char} (rest : List Char), c ∉ front →
      (front ++ c :: rest).takeWhile (· ≠ c) = front := by
    intro front rest hfront
    rw [List.takeWhile_append_of_pos fun d hd => decide_eq_true (ne_of_mem_of_not_mem hd hfront)]
    simp
  obtain rfl : front = front' := by rw [← htake rest hfront, h, htake rest' hfront']
  exact ⟨rfl, (List.cons.inj (List.append_cancel_left h)).2⟩

/-- The text in front of the last occurrence of a character that is no blank is determined if blanks
    follow. -/
theorem eq_of_last_eq {front' rest' : List Char} (hc : isBlank c = false)
    (hrest : ∀ d ∈ rest, isBlank d = true) (hrest' : ∀ d ∈ rest', isBlank d = true)
    (h : front ++ c :: rest = front' ++ c :: rest') : front = front' ∧ rest = rest' := by
  have hfront : front ++ [c] = front' ++ [c] :=
    ((trimEnd_eq_concat_iff hc).2 ⟨rest, rfl, hrest⟩).symm.trans
      ((trimEnd_eq_concat_iff hc).2 ⟨rest', h, hrest'⟩)
  obtain rfl := List.append_cancel_right hfront
  exact ⟨rfl, (List.cons.inj (List.append_cancel_left h)).2⟩

end Playthrough.Text
