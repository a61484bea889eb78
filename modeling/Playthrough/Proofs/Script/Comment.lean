import Playthrough.Script.Comment
import Playthrough.Text.Blank

/-!
# Where comments start

Characters that are neither a `#` nor a quote, and complete quoted texts, stand in the code of a line.
So a comment starts behind them or not at all, and a `#` in the code of a line has a quote in front.

* `Unmarked`, `Quotable`: text that starts no comment, and text that can stand between quotes.
* `splitComment_unmarked`, `splitComment_quoted`: what stands in front of the rest of a line.
* `exists_quote_of_hash`: how a `#` gets into code.
* `Complete`: code that a comment can follow; `splitComment_eq_some_iff` shows that a line has a
  comment exactly behind such code.
-/

namespace Playthrough.Script

open Text

/-- The line that is cut with more code in front. -/
def Split.prepend (front : List Char) (split : Split) : Split :=
  { split with code := front ++ split.code }

theorem Split.cons_prepend (c : Char) (front : List Char) (split : Split) :
    (split.prepend front).cons c = split.prepend (c :: front) := rfl

/-- No character starts a comment or a quoted text. -/
def Unmarked (cs : List Char) : Prop := ∀ c ∈ cs, c ≠ '#' ∧ isQuote c = false

/-- A character of a class without quotes is none. -/
theorem isQuote_eq_false {p : Char → Bool} {c : Char} (hdouble : p '"' = false)
    (hsingle : p '\'' = false) (h : p c = true) : isQuote c = false := by
  cases hquote : isQuote c with
  | false => rfl
  | true =>
    rw [isQuote, Bool.or_eq_true, decide_eq_true_eq, decide_eq_true_eq] at hquote
    rcases hquote with rfl | rfl
    · cases hdouble.symm.trans h
    · cases hsingle.symm.trans h

/-- Blanks start neither a comment nor a quoted text. -/
theorem isBlank_not_mark {c : Char} (h : isBlank c = true) : c ≠ '#' ∧ isQuote c = false := by
  refine ⟨?_, isQuote_eq_false (by decide) (by decide) h⟩
  rintro rfl
  revert h
  decide

theorem splitComment_unmarked {front : List Char} (h : Unmarked front) (rest : List Char) :
    splitComment (front ++ rest) = (splitComment rest).prepend front := by
  unfold splitComment
  induction front with
  | nil => rfl
  | cons c front ih =>
    obtain ⟨hhash, hquote⟩ := h c List.mem_cons_self
    have ih := ih fun d hd => h d (List.mem_cons_of_mem c hd)
    rw [List.cons_append, splitFrom, if_neg hhash, hquote]
    simp only [Bool.false_eq_true, if_false]
    rw [ih, Split.cons_prepend]

/-- Text that can stand between two quotes of one kind: a backslash takes the next character, and
    all other characters are no such quotes. -/
inductive Quotable (quote : Char) : List Char → Prop
  | nil : Quotable quote []
  | plain {c : Char} {cs : List Char} (hquote : c ≠ quote) (hslash : c ≠ '\\')
      (h : Quotable quote cs) : Quotable quote (c :: cs)
  | escaped (c : Char) {cs : List Char} (h : Quotable quote cs) : Quotable quote ('\\' :: c :: cs)

theorem splitFrom_cons {quote c : Char} (hslash : c ≠ '\\') (cs : List Char) :
    splitFrom (some quote) (c :: cs) =
      (splitFrom (if c = quote then none else some quote) cs).cons c := by
  cases cs <;> simp [splitFrom, hslash]

theorem splitFrom_escaped (quote c : Char) (cs : List Char) :
    splitFrom (some quote) ('\\' :: c :: cs) = ((splitFrom (some quote) cs).cons c).cons '\\' := by
  rw [splitFrom, if_pos rfl]

/-- The next quote of the same kind ends the quoted text. -/
theorem splitFrom_quotable {quote : Char} (hquote : quote ≠ '\\') {text : List Char}
    (h : Quotable quote text) (rest : List Char) :
    splitFrom (some quote) (text ++ quote :: rest) =
      (splitFrom none rest).prepend (text ++ [quote]) := by
  induction h with
  | nil =>
    rw [List.nil_append, splitFrom_cons hquote, if_pos rfl]
    rfl
  | plain hplain hslash _ ih =>
    rw [List.cons_append, splitFrom_cons hslash, if_neg hplain, ih, Split.cons_prepend]
    rfl
  | escaped c _ ih =>
    rw [List.cons_append, List.cons_append, splitFrom_escaped, ih, Split.cons_prepend,
      Split.cons_prepend]
    rfl

theorem splitComment_quoted {quote : Char} (hquote : isQuote quote = true) {text : List Char}
    (h : Quotable quote text) (rest : List Char) :
    splitComment (quote :: (text ++ quote :: rest)) =
      (splitComment rest).prepend (quote :: (text ++ [quote])) := by
  have hhash : quote ≠ '#' := by
    rintro rfl
    cases hquote
  have hslash : quote ≠ '\\' := by
    rintro rfl
    cases hquote
  unfold splitComment
  rw [splitFrom, if_neg hhash, if_pos hquote, splitFrom_quotable hslash h, Split.cons_prepend]

/-- A `#` in the code of a line has a quote in front. -/
theorem exists_quote_of_hash {line front rest : List Char}
    (h : (splitComment line).code = front ++ '#' :: rest) : ∃ c ∈ front, isQuote c = true := by
  unfold splitComment at h
  induction front generalizing line with
  | nil =>
    cases line with
    | nil => cases h
    | cons c cs =>
      rw [splitFrom] at h
      split at h
      · cases h
      · rename_i hhash
        exact absurd (List.cons.inj h).1 hhash
  | cons d front ih =>
    cases line with
    | nil => cases h
    | cons c cs =>
      rw [splitFrom] at h
      split at h
      · cases h
      · obtain ⟨rfl, hcode⟩ := List.cons.inj h
        cases hquote : isQuote c with
        | true => exact ⟨c, List.mem_cons_self, hquote⟩
        | false =>
          rw [hquote] at hcode
          obtain ⟨d, hd, hquote⟩ := ih hcode
          exact ⟨d, List.mem_cons_of_mem c hd, hquote⟩

/-! ## Code in front of a comment -/

/-- Code that a comment can follow: characters that start neither a comment nor a quoted text, and
    quoted texts that are ended. -/
inductive Complete : List Char → Prop
  | nil : Complete []
  | plain {c : Char} {cs : List Char} (hhash : c ≠ '#') (hquote : isQuote c = false)
      (h : Complete cs) : Complete (c :: cs)
  | quoted {quote : Char} {text cs : List Char} (hquote : isQuote quote = true)
      (htext : Quotable quote text) (h : Complete cs) : Complete (quote :: (text ++ quote :: cs))

/-- Complete code leaves the rest of the line to be cut as if it stood alone. -/
theorem splitComment_complete {front : List Char} (h : Complete front) (rest : List Char) :
    splitComment (front ++ rest) = (splitComment rest).prepend front := by
  induction h with
  | nil => rfl
  | @plain c cs hhash hquote _ ih =>
    have hc : Unmarked [c] := by simpa [Unmarked] using ⟨hhash, hquote⟩
    rw [List.cons_append, ← List.singleton_append, splitComment_unmarked hc, ih]
    rfl
  | @quoted quote text cs hquote htext _ ih =>
    have hline : quote :: (text ++ quote :: cs) ++ rest =
        quote :: (text ++ quote :: (cs ++ rest)) := by simp
    rw [hline, splitComment_quoted hquote htext, ih]
    simp [Split.prepend]

/-- The code in front of a comment, when the line starts inside of the given quotes: it has to end
    them first. -/
def CompletesFrom : Option Char → List Char → Prop
  | none, code => Complete code
  | some quote, code =>
    ∃ text rest, code = text ++ quote :: rest ∧ Quotable quote text ∧ Complete rest

theorem Split.cons_eq_some {c : Char} {split : Split} {code comment : List Char}
    (h : split.cons c = ⟨code, some comment⟩) :
    ∃ rest, code = c :: rest ∧ split = ⟨rest, some comment⟩ := by
  obtain ⟨rest, found⟩ := split
  obtain ⟨rfl, rfl⟩ := Split.mk.inj h
  exact ⟨rest, rfl, rfl⟩

/-- What stands in front of a comment, and how the comment starts. -/
theorem splitFrom_eq_some {quote : Option Char} {line code comment : List Char}
    (h : splitFrom quote line = ⟨code, some comment⟩) :
    comment.head? = some '#' ∧ CompletesFrom quote code := by
  fun_induction splitFrom quote line generalizing code with
  | case1 => cases h
  | case2 cs =>
    obtain ⟨rfl, hcomment⟩ := Split.mk.inj h
    rw [← Option.some.inj hcomment]
    exact ⟨rfl, .nil⟩
  | case3 c cs hhash ih =>
    obtain ⟨rest, rfl, hrest⟩ := Split.cons_eq_some h
    obtain ⟨hcomment, hcompletes⟩ := ih hrest
    refine ⟨hcomment, ?_⟩
    cases hquote : isQuote c with
    | false =>
      rw [hquote] at hcompletes
      exact .plain hhash hquote hcompletes
    | true =>
      rw [hquote] at hcompletes
      obtain ⟨text, rest, rfl, htext, hrest⟩ := hcompletes
      exact .quoted hquote htext hrest
  | case4 => cases h
  | case5 quote d ds ih =>
    obtain ⟨front, rfl, hfront⟩ := Split.cons_eq_some h
    obtain ⟨rest, rfl, hrest⟩ := Split.cons_eq_some hfront
    obtain ⟨hcomment, text, rest, rfl, htext, hrest⟩ := ih hrest
    exact ⟨hcomment, _, rest, rfl, .escaped d htext, hrest⟩
  | case6 quote c cs hslash ih =>
    obtain ⟨rest, rfl, hrest⟩ := Split.cons_eq_some h
    obtain ⟨hcomment, hcompletes⟩ := ih hrest
    refine ⟨hcomment, ?_⟩
    by_cases hend : c = quote
    · subst hend
      rw [if_pos rfl] at hcompletes
      exact ⟨[], rest, rfl, .nil, hcompletes⟩
    · rw [if_neg hend] at hcompletes
      obtain ⟨text, rest, rfl, htext, hrest⟩ := hcompletes
      exact ⟨c :: text, rest, rfl, .plain hend hslash htext, hrest⟩

/-- A line has a comment exactly if a `#` follows complete code, and then the comment starts there. -/
theorem splitComment_eq_some_iff {line code comment : List Char} :
    splitComment line = ⟨code, some comment⟩ ↔
      line = code ++ comment ∧ comment.head? = some '#' ∧ Complete code := by
  constructor
  · intro h
    have hjoin := splitComment_join line
    rw [h] at hjoin
    exact ⟨hjoin.symm, splitFrom_eq_some h⟩
  · rintro ⟨rfl, hcomment, hcode⟩
    obtain ⟨rest, rfl⟩ := List.head?_eq_some_iff.1 hcomment
    have hrest : splitComment ('#' :: rest) = ⟨[], some ('#' :: rest)⟩ := by
      rw [splitComment, splitFrom, if_pos rfl]
    rw [splitComment_complete hcode, hrest, Split.prepend, List.append_nil]

theorem code_of_comment_eq_none {line : List Char} (h : (splitComment line).comment = none) :
    (splitComment line).code = line := by
  have hjoin := splitComment_join line
  rwa [Split.join, h, Option.getD_none, List.append_nil] at hjoin

/-- Code has no comment of its own. -/
theorem splitComment_code (line : List Char) :
    splitComment (splitComment line).code = ⟨(splitComment line).code, none⟩ := by
  cases hcomment : (splitComment line).comment with
  | none =>
    have hsplit : splitComment line = ⟨(splitComment line).code, none⟩ := by rw [← hcomment]
    rwa [code_of_comment_eq_none hcomment] at hsplit ⊢
  | some comment =>
    have hsplit : splitComment line = ⟨(splitComment line).code, some comment⟩ := by
      rw [← hcomment]
    obtain ⟨-, -, hcomplete⟩ := splitComment_eq_some_iff.1 hsplit
    have hcode := splitComment_complete hcomplete []
    rw [List.append_nil] at hcode
    rw [hcode]
    simp [splitComment, splitFrom, Split.prepend]

end Playthrough.Script
