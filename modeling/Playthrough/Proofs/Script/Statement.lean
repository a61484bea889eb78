import Mathlib
import Playthrough.Proofs.Script.Comment
import Playthrough.Script.Statement

/-!
# The names in statements

Nothing looks at the characters of the names that headers declare and jumps refer to. Still no such
name starts with a `#`: in the code of a line a `#` has a quote in front, and between the start of the
code and the start of the name there is room for a keyword and blanks only.

* `Stands`: a character with no quote in front.
* `Plain`: names that do not start with a `#`.
* `plain_of_label`, `plain_of_jump`: the names in statements.
-/

namespace Playthrough.Script

open Text

/-- The character stands in a text with no quote in front. -/
def Stands (c : Char) (text : List Char) : Prop :=
  ∃ front rest, text = front ++ c :: rest ∧ ∀ d ∈ front, isQuote d = false

namespace Stands

variable {c : Char} {text : List Char}

theorem of_head? (h : text.head? = some c) : Stands c text := by
  obtain ⟨rest, rfl⟩ := List.head?_eq_some_iff.1 h
  exact ⟨[], rest, rfl, by simp⟩

theorem append {front : List Char} (hfront : ∀ d ∈ front, isQuote d = false)
    (h : Stands c text) : Stands c (front ++ text) := by
  obtain ⟨more, rest, rfl, hmore⟩ := h
  refine ⟨front ++ more, rest, (List.append_assoc ..).symm, fun d hd => ?_⟩
  exact (List.mem_append.1 hd).elim (hfront d) (hmore d)

theorem of_isPrefix {part : List Char} (h : Stands c part) (hpart : part <+: text) :
    Stands c text := by
  obtain ⟨front, rest, rfl, hfront⟩ := h
  obtain ⟨more, rfl⟩ := hpart
  exact ⟨front, rest ++ more, by simp, hfront⟩

theorem of_trimStart (h : Stands c (trimStart text)) : Stands c text := by
  rw [← leading_append_trimStart text]
  exact h.append fun d hd => (isBlank_not_mark (isBlank_of_mem_leading hd)).2

end Stands

theorem trimEnd_isPrefix (text : List Char) : trimEnd text <+: text := by
  have hsuffix : text.reverse.dropWhile isBlank <:+ text.reverse := List.dropWhile_suffix isBlank
  exact List.reverse_suffix.1 (by simpa [trimEnd] using hsuffix)

theorem Stands.of_trim {c : Char} {text : List Char} (h : Stands c (trim text)) : Stands c text :=
  (h.of_isPrefix (trimEnd_isPrefix _)).of_trimStart

theorem not_stands_hash (line : List Char) : ¬ Stands '#' (splitComment line).code := by
  rintro ⟨front, rest, hcode, hfront⟩
  obtain ⟨c, hc, hquote⟩ := exists_quote_of_hash hcode
  rw [hfront c hc] at hquote
  cases hquote

/-! ## Headers -/

theorem isPrefix_of_headerText? {code text : List Char} (h : headerText? code = some text) :
    text <+: code := by
  unfold headerText? at h
  split at h
  · rename_i rest hreverse
    obtain rfl := Option.some.inj h
    have hcode : trimEnd code = rest.reverse ++ [':'] := by
      rw [← List.reverse_reverse (trimEnd code), hreverse, List.reverse_cons]
    exact (hcode ▸ List.prefix_append _ _).trans (trimEnd_isPrefix code)
  · cases h

theorem labelName_of_headerOf {text : List Char} {name : String}
    (h : headerOf text = .label name) :
    name.toList = labelName (trimStart (text.dropWhile Char.isLower)) := by
  unfold headerOf at h
  dsimp only at h
  split at h
  · split at h
    · obtain rfl := Header.label.inj h
      rw [String.toList_ofList]
    all_goals cases h
  · cases h

/-! ## Names -/

/-- The name does not start with a `#`. -/
def Plain (name : String) : Prop := name.toList.head? ≠ some '#'

/-- The name that a header declares. -/
theorem plain_of_label {line name : String} (h : statement line = .header (.label name)) :
    Plain name := by
  intro hhash
  unfold statement at h
  dsimp only at h
  split at h
  · rename_i text htext
    rw [labelName_of_headerOf (Statement.header.inj h)] at hhash
    have hargument : Stands '#' (trimStart (text.dropWhile Char.isLower)) :=
      ((Stands.of_head? hhash).of_trim.of_isPrefix (List.takeWhile_prefix _)).of_trim
    have hword : Stands '#' (text.takeWhile Char.isLower ++ text.dropWhile Char.isLower) :=
      hargument.of_trimStart.append fun d hd =>
        isQuote_eq_false (by decide) (by decide) (List.mem_takeWhile_imp hd)
    rw [List.takeWhile_append_dropWhile] at hword
    exact not_stands_hash line.toList (hword.of_isPrefix (isPrefix_of_headerText? htext))
  · split at h
    · cases h
    · split at h <;> cases h

/-- The name that a jump refers to. -/
theorem plain_of_jump {line target : String} (h : statement line = .jump target) :
    Plain target := by
  intro hhash
  unfold statement at h
  dsimp only at h
  split at h
  · cases h
  · split at h
    · rename_i word hword
      obtain rfl := Statement.jump.inj h
      rw [String.toList_ofList] at hhash
      unfold jumpTarget? at hword
      obtain ⟨rest, hrest, hword⟩ := Option.bind_eq_some_iff.1 hword
      have hcode : "jump".toList ++ rest = (splitComment line.toList).code :=
        List.isPrefixOf?_eq_some_iff_append_eq.1 hrest
      have hjump : Stands '#' ("jump".toList ++ rest) := by
        dsimp only at hword
        split at hword
        · cases hword
        · split at hword
          · obtain rfl := Option.some.inj hword
            refine Stands.append (by simp [isQuote]) ?_
            exact ((Stands.of_head? hhash).of_isPrefix (List.takeWhile_prefix _)).of_trimStart
          · cases hword
      rw [hcode] at hjump
      exact not_stands_hash line.toList hjump
    · split at h <;> cases h

end Playthrough.Script
