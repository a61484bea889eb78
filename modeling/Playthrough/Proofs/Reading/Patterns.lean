import Playthrough.Proofs.Reading.Spoken
import Playthrough.Proofs.Script.Pattern
import Playthrough.Proofs.Text.Trim

/-!
# Content lines by patterns

The lines that take time can be told by patterns, tried with as many characters as possible and going
back when a later part does not fit. The line reader never goes back. It scans a line once, because
at each point of these patterns the next character says which way fits.

* `spokenPattern`, `pausePattern`, `scenePattern`, `imagePattern`: the kinds of lines.
* `markupPattern`, `waitPattern`: what is marked in a spoken text.
* `attempt_remark`, `attempt_number`, `runStar_quoted`: where the parts of these patterns end.
* `cut`: a text cut at all places where a pattern fits.
* `readLine_eq_matchLine`: the line reader and the patterns agree on every line.
-/

namespace Playthrough.Reading

open Text Decimal Script Script.Pattern

/-! ## The patterns -/

/-- Blanks and a comment up to the end of the line. -/
def remark : Pattern :=
  seq (many isBlank) (seq (either (seq (one (· = '#')) (many (· ≠ '\n'))) skip) stop)

/-- A character of a quoted text: a plain one, or any one of the line behind a backslash. -/
def quotedChar : Pattern :=
  either (one fun c => c ≠ '"' && c ≠ '\\') (seq (one (· = '\\')) (one (· ≠ '\n')))

/-- A quoted text and what may follow it. -/
def quotation : Pattern :=
  seq (one (· = '"')) (seq (capture "text" (star quotedChar)) (seq (one (· = '"')) remark))

/-- A spoken line: an optional name, a quoted text and an optional comment. -/
def spokenPattern : Pattern :=
  seq start (seq (either (seq (capture "who" (run isNameChar)) (run isBlank)) skip) quotation)

/-- A plain decimal: digits with an optional point and more digits, or a point and digits. -/
def numberPattern : Pattern :=
  either (seq (run isDecimalDigit) (either (seq (one (· = '.')) (many isDecimalDigit)) skip))
    (seq (one (· = '.')) (run isDecimalDigit))

/-- A pause with its seconds. -/
def pausePattern : Pattern :=
  seq start (seq (literal "pause".toList) (seq (run isBlank)
    (seq (capture "secs" numberPattern) remark)))

/-- A change of the scene. -/
def scenePattern : Pattern := seq start (seq (literal "scene".toList) (one isBlank))

/-- A picture that is shown or hidden. -/
def imagePattern : Pattern :=
  seq start (seq (either (literal "show".toList) (literal "hide".toList)) (one isBlank))

/-- A part of a spoken text between two marks. -/
def between (opening closing : Char) : Pattern :=
  seq (one (· = opening)) (seq (one (· ≠ opening))
    (seq (many (· ≠ closing)) (one (· = closing))))

/-- A tag or an insertion. -/
def markupPattern : Pattern := either (between '\x7b' '\x7d') (between '[' ']')

/-- A tag that waits. -/
def waitPattern : Pattern :=
  seq start (seq (one (· = '\x7b')) (seq (one fun c => c = 'w' || c = 'p')
    (seq (one (· = '=')) (seq (capture "secs" numberPattern) (seq (one (· = '\x7d')) stop)))))

/-! ## Parts of lines -/

section Parts

variable {ρ : Type} {next : Cursor → Option ρ} {before rest : List Char} {captures : Captures}

theorem attempt_one_cons (p : Char → Bool) (c : Char) :
    (one p).attempt next ⟨before, c :: rest, captures⟩ =
      if p c then next ⟨c :: before, rest, captures⟩ else none := rfl

theorem attempt_one_of_head? {c : Char} (h : rest.head? ≠ some c) :
    (one (· = c)).attempt next ⟨before, rest, captures⟩ = none := by
  cases rest with
  | nil => rfl
  | cons d rest => exact if_neg (by simpa using h)

/-- A gap takes up all blanks. -/
theorem attempt_gap
    (hnext : ∀ before c rest captures, isBlank c = true →
      next ⟨before, c :: rest, captures⟩ = none) :
    (run isBlank).attempt next ⟨before, rest, captures⟩ =
      if leading rest ≠ [] then next ⟨(leading rest).reverse ++ before, trimStart rest, captures⟩
      else none :=
  attempt_run fun _ _ _ _ _ _ hc => hnext _ _ _ _ hc

theorem attempt_comment_cons (c : Char) :
    (seq (either (seq (one (· = '#')) (many (· ≠ '\n'))) skip) stop).attempt next
        ⟨before, c :: rest, captures⟩ =
      if c = '#' ∧ '\n' ∉ rest then next ⟨rest.reverse ++ c :: before, [], captures⟩
      else none := by
  show ((if decide (c = '#') = true then
      (toEnd (· ≠ '\n')).attempt next ⟨c :: before, rest, captures⟩ else none).or none) = _
  rw [Option.or_none, attempt_toEnd]
  by_cases hc : c = '#'
  · by_cases hline : '\n' ∈ rest <;> simp [hc, hline]
  · simp [hc]

/-- A comment cannot be cut short, and no blank starts one. -/
theorem attempt_remark : remark.attempt next ⟨before, rest, captures⟩ =
    if isTail rest then next ⟨rest.reverse ++ before, [], captures⟩ else none := by
  have hblank : ∀ c, isBlank c = true → c ≠ '#' := by
    rintro _ hc rfl
    cases hc
  have hsplit : rest.reverse = (trimStart rest).reverse ++ (leading rest).reverse := by
    rw [← List.reverse_append, leading_append_trimStart]
  show runMany isBlank _ captures before rest = _
  rw [runMany_longest, isTail, hsplit]
  · show (seq (either _ skip) stop).attempt next
      ⟨(leading rest).reverse ++ before, trimStart rest, captures⟩ = _
    cases trimStart rest with
    | nil => rfl
    | cons c cs =>
      rw [attempt_comment_cons]
      simp
  · intro u c v _ _ hc
    exact (attempt_comment_cons c).trans (if_neg fun h => hblank c hc h.1)

/-- Nothing but a blank, a `#` or the end of the line can follow what a comment may follow. -/
theorem attempt_remark_cons {c : Char} (hblank : isBlank c = false) (hc : c ≠ '#') :
    remark.attempt next ⟨before, c :: rest, captures⟩ = none := by
  rw [attempt_remark, if_neg]
  simp [isTail, trimStart, hblank, hc]

theorem attempt_quotedChar_plain {c : Char} (hquote : c ≠ '"') (hslash : c ≠ '\\') :
    quotedChar.attempt next ⟨before, c :: rest, captures⟩ =
      next ⟨c :: before, rest, captures⟩ := by
  rw [quotedChar, attempt, attempt_one_cons, attempt, attempt_one_cons]
  simp [hquote, hslash]

theorem attempt_quotedChar_escaped (c : Char) :
    quotedChar.attempt next ⟨before, '\\' :: c :: rest, captures⟩ =
      if c = '\n' then none else next ⟨c :: '\\' :: before, rest, captures⟩ := by
  rw [quotedChar, attempt, attempt_one_cons, attempt, attempt_one_cons]
  simp [attempt_one_cons]

/-- A quoted text ends at the first quote that is not behind a backslash. -/
theorem runStar_quoted {count : Nat} (hcount : rest.length ≤ count)
    (hnext : ∀ before rest captures, rest.head? ≠ some '"' →
      next ⟨before, rest, captures⟩ = none) :
    runStar quotedChar.attempt next count ⟨before, rest, captures⟩ =
      (quotedText? rest).bind fun r => next ⟨r.1.reverse ++ before, '"' :: r.2, captures⟩ := by
  -- at a character the star goes on, as `next` does not fit there, and at a quote it ends
  have hstep : ∀ {c : Char}, c ≠ '"' → ∀ count before cs,
      runStar quotedChar.attempt next (count + 1) ⟨before, c :: cs, captures⟩ =
        quotedChar.attempt (runStar quotedChar.attempt next count) ⟨before, c :: cs, captures⟩ := by
    intro c hc count before cs
    rw [runStar, hnext _ _ _ (by simpa using hc), Option.or_none]
  fun_induction quotedText? rest generalizing before count with
  | case1 =>
    have hend := hnext before [] captures (by simp)
    cases count with
    | zero => exact hend
    | succ count =>
      rw [runStar, hend]
      rfl
  | case2 rest =>
    obtain ⟨count, rfl⟩ := Nat.exists_eq_add_of_le' hcount
    rfl
  | case3 =>
    obtain ⟨count, rfl⟩ := Nat.exists_eq_add_of_le' hcount
    rw [List.length_singleton, hstep (by decide)]
    rfl
  | case4 rest =>
    obtain ⟨count, rfl⟩ := Nat.exists_eq_add_of_le' hcount
    rw [List.length_cons, ← Nat.add_assoc, hstep (by decide), attempt_quotedChar_escaped]
    rfl
  | case5 c rest hline ih =>
    obtain ⟨count, rfl⟩ := Nat.exists_eq_add_of_le' hcount
    rw [List.length_cons, ← Nat.add_assoc, hstep (by decide), attempt_quotedChar_escaped,
      if_neg hline, ih (by simp; omega), Option.bind_map]
    simp
  | case6 c rest hquote hslash ih =>
    obtain ⟨count, rfl⟩ := Nat.exists_eq_add_of_le' hcount
    rw [List.length_cons, ← Nat.add_assoc, hstep hquote,
      attempt_quotedChar_plain hquote hslash, ih (by simp), Option.bind_map]
    simp

theorem attempt_quotation : quotation.attempt (some ·.captures) ⟨before, rest, captures⟩ =
    if rest.head? = some '"' then
      (quotedText? rest.tail).bind fun r =>
        if isTail r.2 then some (("text", r.1) :: captures) else none
    else none := by
  split
  · rename_i hquote
    obtain ⟨text, rfl⟩ : ∃ text, rest = '"' :: text := List.head?_eq_some_iff.1 hquote
    show runStar quotedChar.attempt _ text.length ⟨'"' :: before, text, captures⟩ = _
    rw [runStar_quoted le_rfl]
    · refine Option.bind_congr fun r _ => ?_
      show remark.attempt (some ·.captures) _ = _
      rw [attempt_remark, Cursor.passed_eq]
    · exact fun _ _ _ hquote => attempt_one_of_head? hquote
  · rename_i hquote
    exact attempt_one_of_head? hquote

end Parts

/-! ## Spoken lines -/

/-- The captures of a spoken line, the last one first. -/
def capturesOf (name : Option (List Char)) (text : List Char) : Captures :=
  ("text", text) :: (name.map fun name => ("who", name)).toList

/-- A name ends with its characters and the gap behind it with its blanks. -/
theorem attempt_nametag {ρ : Type} {next : Cursor → Option ρ} {before line : List Char}
    {captures : Captures}
    (hnext : ∀ before c rest captures, isBlank c = true →
      next ⟨before, c :: rest, captures⟩ = none) :
    (seq (capture "who" (run isNameChar)) (run isBlank)).attempt next ⟨before, line, captures⟩ =
      if line.takeWhile isNameChar ≠ [] ∧ leading (line.dropWhile isNameChar) ≠ [] then
        next ⟨(leading (line.dropWhile isNameChar)).reverse ++
            ((line.takeWhile isNameChar).reverse ++ before),
          trimStart (line.dropWhile isNameChar), ("who", line.takeWhile isNameChar) :: captures⟩
      else none := by
  show (capture "who" (run isNameChar)).attempt ((run isBlank).attempt next) _ = _
  rw [attempt_capture_run, attempt_gap hnext, ite_and]
  intro u c v captures _ _ _ hc
  rw [attempt_gap hnext, if_neg]
  simp [leading, (isNameChar_spec hc).2.1]

theorem head?_ne_some {c : Char} {text : List Char} (h : ∀ rest, text = c :: rest → False) :
    text.head? ≠ some c := by
  intro hhead
  obtain ⟨rest, htext⟩ := List.head?_eq_some_iff.1 hhead
  exact h rest htext

theorem opening?_eq (line : List Char) : opening? line =
    if line.takeWhile isNameChar = [] then
      if line.head? = some '"' then some (none, line.tail) else none
    else if leading (line.dropWhile isNameChar) = [] then none
    else if (trimStart (line.dropWhile isNameChar)).head? = some '"' then
      some (some (line.takeWhile isNameChar), (trimStart (line.dropWhile isNameChar)).tail)
    else none := by
  unfold opening?
  simp only [List.isEmpty_iff]
  split
  · split
    · rfl
    · rename_i hline
      rw [if_neg (head?_ne_some hline)]
  · split
    · rfl
    · split
      · rename_i htext
        rw [htext]
        rfl
      · rename_i hline
        rw [if_neg (head?_ne_some hline)]

theorem spokenLine?_eq (line : List Char) :
    ((spokenLine? line).map fun r => capturesOf r.1 r.2) =
      (opening? line).bind fun start => (quotedText? start.2).bind fun r =>
        if isTail r.2 then some (capturesOf start.1 r.1) else none := by
  unfold spokenLine?
  cases opening? line with
  | none => rfl
  | some start =>
    simp only [Option.bind_eq_bind, Option.bind_some]
    cases quotedText? start.2 with
    | none => rfl
    | some r =>
      simp only [Option.bind_some]
      split <;> rfl

/-- **Spoken lines.** The pattern captures what the reader reads. -/
theorem search_spokenPattern (line : List Char) :
    spokenPattern.search line = (spokenLine? line).map fun r => capturesOf r.1 r.2 := by
  rw [spokenPattern, search_start, spokenLine?_eq, opening?_eq]
  show ((seq (capture "who" (run isNameChar)) (run isBlank)).attempt
    (quotation.attempt (some ·.captures)) ⟨[], line, []⟩).or
      (quotation.attempt (some ·.captures) ⟨[], line, []⟩) = _
  rw [attempt_nametag]
  · rw [attempt_quotation, attempt_quotation]
    by_cases hname : line.takeWhile isNameChar = []
    · rw [if_neg (fun h => h.1 hname), if_pos hname, Option.none_or]
      split <;> rfl
    · -- a name is no quote, so the line is not a quoted text alone
      have hquote : line.head? ≠ some '"' := by
        intro hquote
        obtain ⟨text, rfl⟩ := List.head?_eq_some_iff.1 hquote
        exact hname rfl
      rw [if_neg hquote, Option.or_none, if_neg hname, ite_and, if_pos hname]
      by_cases hgap : leading (line.dropWhile isNameChar) = []
      · rw [if_neg (not_not.2 hgap), if_pos hgap]
        rfl
      · rw [if_pos hgap, if_neg hgap]
        split <;> rfl
  · intro before c rest captures hc
    rw [attempt_quotation, if_neg]
    rintro hquote
    obtain rfl : c = '"' := Option.some.inj hquote
    cases hc

/-! ## Numbers -/

/-- A digit is no blank. -/
theorem isBlank_of_isDecimalDigit {c : Char} (h : isDecimalDigit c = true) : isBlank c = false := by
  have hapart : ∀ digits ∈ decimalDigitRanges, ∀ blanks ∈ blankRanges,
      digits.2 < blanks.1 ∨ blanks.2 < digits.1 := by decide +kernel
  rw [← Bool.not_eq_true]
  intro hblank
  obtain ⟨digits, hdigits, hlow, hhigh⟩ := CodeRanges.contains_iff.1 h
  obtain ⟨blanks, hblanks, hlow', hhigh'⟩ := CodeRanges.contains_iff.1 hblank
  have := hapart digits hdigits blanks hblanks
  omega

section Numbers

variable {ρ : Type} {next : Cursor → Option ρ} {before rest : List Char} {captures : Captures}

/-- What a number may go on with. -/
def continuesNumber (c : Char) : Bool := isDecimalDigit c || c = '.'

/-- The point and the digits that a text starts with, if it starts with a point. -/
def fractionText (rest : List Char) : List Char :=
  if rest.head? = some '.' then '.' :: rest.tail.takeWhile isDecimalDigit else []

/-- The text of the number that a text starts with. -/
def numberText (rest : List Char) : List Char :=
  rest.takeWhile isDecimalDigit ++ fractionText (rest.dropWhile isDecimalDigit)

theorem readPrefix?_eq (rest : List Char) : Duration.readPrefix? rest =
    let whole := rest.takeWhile isDecimalDigit
    let behind := rest.dropWhile isDecimalDigit
    if behind.head? = some '.' then
      if whole = [] ∧ behind.tail.takeWhile isDecimalDigit = [] then none
      else some (⟨whole, behind.tail.takeWhile isDecimalDigit⟩,
        behind.tail.dropWhile isDecimalDigit)
    else if whole = [] then none else some (⟨whole, []⟩, behind) := by
  unfold Duration.readPrefix?
  split
  · rename_i behind hbehind
    simp [hbehind]
  · rename_i hbehind
    simp [head?_ne_some hbehind]

/-- A number may go on with a point and digits, and then takes all of them. -/
theorem attempt_fraction
    (hnext : ∀ before c rest captures, continuesNumber c = true →
      next ⟨before, c :: rest, captures⟩ = none) :
    (either (seq (one (· = '.')) (many isDecimalDigit)) skip).attempt next
        ⟨before, rest, captures⟩ =
      next ⟨(fractionText rest).reverse ++ before,
        if rest.head? = some '.' then rest.tail.dropWhile isDecimalDigit else rest, captures⟩ := by
  cases rest with
  | nil => rfl
  | cons c rest =>
    show (if decide (c = '.') = true then
      runMany isDecimalDigit next captures (c :: before) rest else none).or
        (next ⟨before, c :: rest, captures⟩) = _
    by_cases hc : c = '.'
    · subst hc
      rw [hnext before '.' rest captures rfl, Option.or_none, runMany_longest]
      · simp [fractionText]
      · exact fun u c v _ _ hc => hnext _ _ _ _ (by simp [continuesNumber, hc])
    · simp [hc, fractionText]

/-- A number ends where no digit and no point follows. -/
theorem attempt_number
    (hnext : ∀ before c rest captures, continuesNumber c = true →
      next ⟨before, c :: rest, captures⟩ = none) :
    numberPattern.attempt next ⟨before, rest, captures⟩ =
      (Duration.readPrefix? rest).bind fun r =>
        next ⟨(numberText rest).reverse ++ before, r.2, captures⟩ := by
  have hdigit : ∀ before c rest captures, isDecimalDigit c = true →
      next ⟨before, c :: rest, captures⟩ = none := fun before c rest captures hc =>
    hnext before c rest captures (by simp [continuesNumber, hc])
  have hpoint : isDecimalDigit '.' = false := by decide
  show ((run isDecimalDigit).attempt
      ((either (seq (one (· = '.')) (many isDecimalDigit)) skip).attempt next)
        ⟨before, rest, captures⟩).or
      ((seq (one (· = '.')) (run isDecimalDigit)).attempt next ⟨before, rest, captures⟩) = _
  rw [attempt_run, attempt_fraction hnext, readPrefix?_eq]
  · by_cases hwhole : rest.takeWhile isDecimalDigit = []
    · have hbehind : rest.dropWhile isDecimalDigit = rest := by
        have hsplit := rest.takeWhile_append_dropWhile (p := isDecimalDigit)
        rwa [hwhole] at hsplit
      rw [if_neg (not_not.2 hwhole), Option.none_or, numberText, hwhole, hbehind]
      cases rest with
      | nil => rfl
      | cons c rest =>
        by_cases hc : c = '.'
        · subst hc
          show (run isDecimalDigit).attempt next ⟨'.' :: before, rest, captures⟩ = _
          rw [attempt_run fun u c v _ _ _ hc => hdigit _ _ _ _ hc]
          by_cases hdigits : rest.takeWhile isDecimalDigit = [] <;> simp [hdigits, fractionText]
        · show (if decide (c = '.') = true then _ else none) = _
          simp [hc]
    · have hsecond : (seq (one (· = '.')) (run isDecimalDigit)).attempt next
          ⟨before, rest, captures⟩ = none := by
        cases rest with
        | nil => rfl
        | cons c rest =>
          refine if_neg fun hc => hwhole ?_
          simp [show c = '.' by simpa using hc, hpoint]
      rw [if_pos hwhole, hsecond, Option.or_none, numberText]
      by_cases hhead : (rest.dropWhile isDecimalDigit).head? = some '.' <;> simp [hhead, hwhole]
  · intro u c v _ _ _ hc
    have hne : c ≠ '.' := by
      rintro rfl
      rw [hpoint] at hc
      cases hc
    rw [attempt_fraction hnext]
    simp [fractionText, hne, hdigit _ _ _ _ hc]

/-- The number is read from its text alone. -/
theorem readPrefix?_numberText {duration : Duration} {behind : List Char}
    (h : Duration.readPrefix? rest = some (duration, behind)) :
    Duration.readPrefix? (numberText rest) = some (duration, []) := by
  have hwhole : ∀ c ∈ rest.takeWhile isDecimalDigit, isDecimalDigit c = true :=
    fun _ => List.mem_takeWhile_imp
  have hpoint : isDecimalDigit '.' = false := by decide
  rw [readPrefix?_eq] at h ⊢
  dsimp only at h ⊢
  rw [numberText, List.takeWhile_append_of_pos hwhole, List.dropWhile_append_of_pos hwhole,
    fractionText]
  by_cases hhead : (rest.dropWhile isDecimalDigit).head? = some '.'
  · rw [if_pos hhead] at h ⊢
    have hdigits : ∀ c ∈ (rest.dropWhile isDecimalDigit).tail.takeWhile isDecimalDigit,
        isDecimalDigit c = true := fun _ => List.mem_takeWhile_imp
    have htake := List.takeWhile_eq_self_iff.2 hdigits
    have hdrop := List.dropWhile_eq_nil_iff.2 hdigits
    split at h
    · cases h
    · cases h
      rename_i hsome
      simp only [List.takeWhile_cons, hpoint, Bool.false_eq_true, if_false, List.append_nil,
        List.dropWhile_cons, List.head?_cons, if_true, List.tail_cons, htake, hdrop]
      rw [if_neg hsome]
  · rw [if_neg hhead] at h ⊢
    split at h
    · cases h
    · cases h
      rename_i hsome
      simp [hsome]

theorem attempt_capture_number {name : String}
    (hnext : ∀ before c rest captures, continuesNumber c = true →
      next ⟨before, c :: rest, captures⟩ = none) :
    (capture name numberPattern).attempt next ⟨before, rest, captures⟩ =
      (Duration.readPrefix? rest).bind fun r =>
        next ⟨(numberText rest).reverse ++ before, r.2,
          (name, numberText rest) :: captures⟩ := by
  rw [attempt, attempt_number]
  · simp only [Cursor.passed_eq]
  · exact fun before c rest captures hc => hnext _ _ _ _ hc

/-- No number starts with a blank. -/
theorem readPrefix?_blank {c : Char} (hc : isBlank c = true) :
    Duration.readPrefix? (c :: rest) = none := by
  have hdigit : isDecimalDigit c = false := by
    by_contra hdigit
    rw [isBlank_of_isDecimalDigit (Bool.eq_true_of_not_eq_false hdigit)] at hc
    cases hc
  have hpoint : c ≠ '.' := by
    rintro rfl
    cases hc
  rw [readPrefix?_eq]
  simp [hdigit, hpoint]

end Numbers

/-! ## Pauses, scenes and pictures -/

/-- The duration that a pattern has captured. -/
def secondsOf (captures : Captures) : Option Duration :=
  (captures.lookup "secs").bind fun text => (Duration.readPrefix? text).map Prod.fst

theorem secondsOf_number {rest behind : List Char} {duration : Duration}
    (h : Duration.readPrefix? rest = some (duration, behind)) (captures : Captures) :
    secondsOf (("secs", numberText rest) :: captures) = some duration := by
  rw [secondsOf, List.lookup_cons_self, Option.bind_some, readPrefix?_numberText h]
  rfl

/-- **Pauses.** The pattern captures the duration that the reader reads. -/
theorem search_pausePattern (line : List Char) :
    (pausePattern.search line).map secondsOf = (pause? line).map some := by
  have hremark : ∀ before c rest captures, continuesNumber c = true →
      remark.attempt (some ·.captures) ⟨before, c :: rest, captures⟩ = none := by
    intro before c rest captures hc
    rcases Bool.or_eq_true _ _ ▸ hc with hdigit | hpoint
    · refine attempt_remark_cons (isBlank_of_isDecimalDigit hdigit) ?_
      rintro rfl
      revert hdigit
      decide
    · obtain rfl : c = '.' := by simpa using hpoint
      exact attempt_remark_cons (by decide) (by decide)
  rw [pausePattern, search_start, attempt, attempt_literal, pause?, afterKeyword?]
  cases "pause".toList.isPrefixOf? line with
  | none => rfl
  | some rest =>
    rw [Option.bind_some, attempt, attempt_gap]
    · simp only [Option.bind_eq_bind, Option.bind_some, List.isEmpty_iff]
      by_cases hgap : leading rest = []
      · rw [if_neg (not_not.2 hgap), if_pos hgap]
        rfl
      · rw [if_pos hgap, if_neg hgap, attempt, attempt_capture_number hremark]
        cases hread : Duration.readPrefix? (trimStart rest) with
        | none => rfl
        | some r =>
          rw [Option.bind_some, attempt_remark, Option.bind_some]
          split
          · exact congrArg some (secondsOf_number hread _)
          · rfl
    · intro before c rest captures hc
      rw [attempt, attempt_capture_number hremark, readPrefix?_blank hc]
      rfl

/-- A keyword and a blank behind it. -/
theorem attempt_keyword (keyword : String) (line : List Char) :
    ((literal keyword.toList).attempt ((one isBlank).attempt (some ·.captures))
      ⟨[], line, []⟩).isSome = hasKeyword keyword line := by
  rw [attempt_literal, hasKeyword, afterKeyword?]
  cases keyword.toList.isPrefixOf? line with
  | none => rfl
  | some rest =>
    cases rest with
    | nil => rfl
    | cons c rest =>
      show (if isBlank c = true then _ else none).isSome = isBlank c
      cases isBlank c <;> rfl

theorem search_scenePattern (line : List Char) :
    (scenePattern.search line).isSome = hasKeyword "scene" line := by
  rw [scenePattern, search_start]
  exact attempt_keyword "scene" line

theorem search_imagePattern (line : List Char) :
    (imagePattern.search line).isSome = (hasKeyword "show" line || hasKeyword "hide" line) := by
  rw [imagePattern, search_start, ← attempt_keyword, ← attempt_keyword, ← Option.isSome_or]
  rfl

/-! ## Markup -/

/-- A text cut at the places where a pattern fits, from left to right: the characters that are passed
    over, and the parts that fit. -/
def cut (pattern : Pattern) (before rest : List Char) : List (Char ⊕ List Char) :=
  match rest with
  | [] => []
  | c :: cs =>
    match pattern.attempt some ⟨before, c :: cs, []⟩ with
    | some last =>
      if last.rest.length < (c :: cs).length then
        .inr (Cursor.passed ⟨before, c :: cs, []⟩ last) :: cut pattern last.before last.rest
      else .inl c :: cut pattern (c :: before) cs
    | none => .inl c :: cut pattern (c :: before) cs
termination_by rest.length
decreasing_by
  · assumption
  · exact Nat.lt_succ_self _
  · exact Nat.lt_succ_self _

/-- A piece as a character or a text with its marks. -/
def Piece.part : Piece → Char ⊕ List Char
  | .char c => .inl c
  | .tag inner => .inr ('\x7b' :: (inner ++ ['\x7d']))
  | .insertion inner => .inr ('[' :: (inner ++ [']']))

theorem marked?_eq (opening closing c : Char) (cs : List Char) :
    marked? opening closing (c :: cs) =
      if c = opening then none
      else if cs.dropWhile (· ≠ closing) = [] then none
      else some (c :: cs.takeWhile (· ≠ closing), (cs.dropWhile (· ≠ closing)).tail) := by
  rw [marked?]
  cases cs.dropWhile (· ≠ closing) <;> rfl

/-- A marked part ends at the next closing mark. -/
theorem attempt_between {ρ : Type} {next : Cursor → Option ρ} {before cs : List Char}
    {captures : Captures} (opening closing c : Char) :
    (between opening closing).attempt next ⟨before, c :: cs, captures⟩ =
      (if c = opening then marked? opening closing cs else none).bind fun r =>
        next ⟨(opening :: (r.1 ++ [closing])).reverse ++ before, r.2, captures⟩ := by
  rw [between, attempt, attempt_one_cons]
  by_cases hc : c = opening
  · subst hc
    simp only [decide_true, if_true]
    cases cs with
    | nil => rfl
    | cons d cs =>
      rw [attempt, attempt_one_cons, marked?_eq]
      by_cases hd : d = c
      · simp [hd]
      · show (if decide (d ≠ c) = true then
          runMany (· ≠ closing) ((one (· = closing)).attempt next) captures _ cs else none) = _
        rw [if_pos (by simpa using hd), if_neg hd, runMany_longest]
        · cases hdrop : cs.dropWhile (· ≠ closing) with
          | nil => rfl
          | cons e rest =>
            have he : e = closing := by
              have hhead := List.head?_dropWhile_not (· ≠ closing) cs
              rw [hdrop] at hhead
              simpa using hhead
            subst he
            simp [attempt_one_cons]
        · intro u e v _ _ he
          exact if_neg (by simpa using he)
  · simp [hc]

theorem attempt_markup {ρ : Type} {next : Cursor → Option ρ} {before cs : List Char}
    {captures : Captures} (c : Char) :
    markupPattern.attempt next ⟨before, c :: cs, captures⟩ =
      ((if c = '\x7b' then marked? '\x7b' '\x7d' cs else none).bind fun r =>
        next ⟨('\x7b' :: (r.1 ++ ['\x7d'])).reverse ++ before, r.2, captures⟩).or
      ((if c = '[' then marked? '[' ']' cs else none).bind fun r =>
        next ⟨('[' :: (r.1 ++ [']'])).reverse ++ before, r.2, captures⟩) := by
  rw [markupPattern, attempt, attempt_between, attempt_between]

/-- Where a marked part begins, the text is cut behind it. -/
theorem cut_of_attempt {pattern : Pattern} {before cs part rest : List Char} {c : Char}
    {captures : Captures}
    (hfits : pattern.attempt some ⟨before, c :: cs, []⟩ =
      some ⟨part.reverse ++ before, rest, captures⟩) (hrest : rest.length < (c :: cs).length) :
    cut pattern before (c :: cs) = .inr part :: cut pattern (part.reverse ++ before) rest := by
  rw [cut, hfits]
  dsimp only
  rw [if_pos hrest, Cursor.passed_eq]

/-- Less is left behind a marked part. -/
theorem length_rest_lt_cons {opening closing c : Char} {cs inner rest : List Char}
    (h : (if c = opening then marked? opening closing cs else none) = some (inner, rest)) :
    rest.length < (c :: cs).length := by
  split at h
  · exact Nat.lt_succ_of_lt (length_rest_lt h)
  · cases h

/-- **Markup.** A text is cut where the pattern for marked parts fits. -/
theorem cut_markupPattern (before text : List Char) :
    cut markupPattern before text = (pieces text).map Piece.part := by
  fun_induction pieces text generalizing before with
  | case1 =>
    rw [cut]
    rfl
  | case2 c cs inner rest hmarked ih =>
    rw [dite_eq_ite] at hmarked
    have hfits : markupPattern.attempt some ⟨before, c :: cs, []⟩ =
        some ⟨('\x7b' :: (inner ++ ['\x7d'])).reverse ++ before, rest, []⟩ := by
      rw [attempt_markup, hmarked]
      rfl
    rw [cut_of_attempt hfits (length_rest_lt_cons hmarked), ih]
    rfl
  | case3 c cs hbraces inner rest hmarked ih =>
    rw [dite_eq_ite] at hbraces hmarked
    have hfits : markupPattern.attempt some ⟨before, c :: cs, []⟩ =
        some ⟨('[' :: (inner ++ [']'])).reverse ++ before, rest, []⟩ := by
      rw [attempt_markup, hbraces, hmarked]
      rfl
    rw [cut_of_attempt hfits (length_rest_lt_cons hmarked), ih]
    rfl
  | case4 c cs hbraces hbrackets ih =>
    rw [dite_eq_ite] at hbraces hbrackets
    rw [cut, attempt_markup, hbraces, hbrackets]
    exact congrArg (Sum.inl c :: ·) (ih _)

/-! ## Waits -/

/-- A number ends before a character that cannot be part of it. -/
theorem readPrefix?_append_cons {c : Char} (hc : continuesNumber c = false)
    (rest behind : List Char) :
    Duration.readPrefix? (rest ++ c :: behind) =
      (Duration.readPrefix? rest).map fun r => (r.1, r.2 ++ c :: behind) := by
  obtain ⟨hdigit, hpoint⟩ : isDecimalDigit c = false ∧ c ≠ '.' := by
    simpa [continuesNumber] using hc
  rw [readPrefix?_eq, readPrefix?_eq]
  dsimp only
  rw [takeWhile_append_cons hdigit, dropWhile_append_cons hdigit]
  cases rest.dropWhile isDecimalDigit with
  | nil =>
    simp only [List.nil_append, List.head?_cons, Option.some.injEq, hpoint, if_false,
      List.head?_nil, reduceCtorEq]
    split <;> rfl
  | cons d more =>
    by_cases hd : d = '.'
    · simp only [List.cons_append, List.head?_cons, hd, if_true, List.tail_cons,
        takeWhile_append_cons hdigit, dropWhile_append_cons hdigit]
      split <;> rfl
    · simp only [List.cons_append, List.head?_cons, Option.some.injEq, hd, if_false]
      split <;> rfl

theorem waitTag?_tag (kind mark : Char) (rest : List Char) :
    waitTag? (.tag (kind :: mark :: rest)) =
      if (kind = 'w' || kind = 'p') = true then
        if mark = '=' then
          (Duration.readPrefix? rest).bind fun r => if r.2 = [] then some r.1 else none
        else none
      else none := by
  by_cases hmark : mark = '='
  · subst hmark
    rw [waitTag?, if_pos rfl]
    refine if_congr Iff.rfl ?_ rfl
    rcases Duration.readPrefix? rest with _ | ⟨duration, _ | ⟨c, behind⟩⟩ <;> rfl
  · rw [if_neg hmark, ite_self]
    unfold waitTag?
    split
    · rename_i htag
      cases htag
      exact absurd rfl hmark
    · rfl

theorem attempt_closing (before rest : List Char) (captures : Captures) :
    (seq (one (· = '\x7d')) stop).attempt (some ·.captures) ⟨before, rest ++ ['\x7d'], captures⟩ =
      if rest = [] then some captures else none := by
  cases rest with
  | nil => rfl
  | cons c rest =>
    rw [List.cons_append, attempt, attempt_one_cons]
    simp [attempt]

/-- **Waits.** The pattern captures the duration of a tag that waits. -/
theorem search_waitPattern (inner : List Char) :
    (waitPattern.search ('\x7b' :: (inner ++ ['\x7d']))).map secondsOf =
      (waitTag? (.tag inner)).map some := by
  have hnext : ∀ before c rest captures, continuesNumber c = true →
      (seq (one (· = '\x7d')) stop).attempt (some ·.captures) ⟨before, c :: rest, captures⟩ =
        none := by
    intro before c rest captures hc
    refine if_neg fun hclose => ?_
    obtain rfl : c = '\x7d' := by simpa using hclose
    revert hc
    decide
  rw [waitPattern, search_start, attempt, attempt_one_cons, if_pos (by decide)]
  cases inner with
  | nil => rfl
  | cons kind inner =>
    cases inner with
    | nil =>
      rw [List.singleton_append, attempt, attempt_one_cons]
      split <;> rfl
    | cons mark rest =>
      rw [waitTag?_tag, List.cons_append, List.cons_append, attempt, attempt_one_cons]
      split
      · rw [attempt, attempt_one_cons]
        by_cases hmark : mark = '='
        · have hclose := readPrefix?_append_cons (c := '\x7d') (by decide) rest []
          rw [if_pos (by simpa using hmark), if_pos hmark, attempt, attempt_capture_number hnext]
          cases hread : Duration.readPrefix? rest with
          | none =>
            rw [hclose, hread]
            rfl
          | some r =>
            rw [hread, Option.map_some] at hclose
            rw [hclose, Option.bind_some, attempt_closing, Option.bind_some]
            split
            · exact congrArg some (secondsOf_number hclose _)
            · rfl
        · rw [if_neg (by simpa using hmark), if_neg hmark]
          rfl
      · rfl

/-! ## Lines -/

variable {κ : Type} [Zero κ] [Add κ] [OfScientific κ]

/-- A spoken line by patterns: what the patterns for markup and waits find in the captured text. -/
def matchDialogue (aliases : Aliases) (captures : Captures) : Dialogue κ :=
  let parts := cut markupPattern [] ((captures.lookup "text").getD [])
  let waits := (parts.filterMap Sum.getRight?).filterMap fun part =>
    (waitPattern.search part).bind secondsOf
  { speaker := speakerOf aliases (captures.lookup "who")
    text := String.ofList (unescapeQuotes (parts.filterMap Sum.getLeft?))
    extraSeconds := waits.foldl (fun sum duration => sum + (duration.value?).getD 0) 0 }

/-- A content line by patterns, which are tried one after the other. -/
def matchLine (aliases : Aliases) (pauses : Bool) : LineReader κ := fun line =>
  match spokenPattern.search line.toList with
  | some captures => some (.dialogue (matchDialogue aliases captures))
  | none =>
    match pausePattern.search line.toList with
    | some captures =>
      if pauses then ((secondsOf captures).bind Duration.value?).map .pause else none
    | none =>
      if (scenePattern.search line.toList).isSome then some .scene
      else if (imagePattern.search line.toList).isSome then some .image
      else none

/-- The pieces of a text that wait are those that the pattern finds. -/
theorem bind_search_part (piece : Piece) :
    (piece.part.getRight?.bind fun part => (waitPattern.search part).bind secondsOf) =
      waitTag? piece := by
  cases piece with
  | char c => rfl
  | insertion inner =>
    show (waitPattern.search ('[' :: (inner ++ [']']))).bind secondsOf = none
    rw [waitPattern, search_start]
    rfl
  | tag inner =>
    show (waitPattern.search ('\x7b' :: (inner ++ ['\x7d']))).bind secondsOf = waitTag? (.tag inner)
    have hwait := congrArg (·.bind id) (search_waitPattern inner)
    simpa only [Option.bind_map, Function.comp_def, id, Option.bind_fun_some] using hwait

theorem matchDialogue_capturesOf (aliases : Aliases) (name : Option (List Char))
    (inner : List Char) :
    matchDialogue aliases (capturesOf name inner) =
      (dialogueOf aliases name inner : Dialogue κ) := by
  have htext : (capturesOf name inner).lookup "text" = some inner := List.lookup_cons_self
  have hwho : (capturesOf name inner).lookup "who" = name := by cases name <;> rfl
  have hchars : ((pieces inner).map Piece.part).filterMap Sum.getLeft? =
      (pieces inner).filterMap Piece.char? := by
    rw [List.filterMap_map]
    refine List.filterMap_congr fun piece _ => ?_
    cases piece <;> rfl
  have hwaits : (((pieces inner).map Piece.part).filterMap Sum.getRight?).filterMap
      (fun part => (waitPattern.search part).bind secondsOf) =
        (pieces inner).filterMap waitTag? := by
    rw [List.filterMap_filterMap, List.filterMap_map]
    exact List.filterMap_congr fun piece _ => bind_search_part piece
  rw [matchDialogue, htext, hwho, Option.getD_some, cut_markupPattern,
    hchars, hwaits]
  rfl

/-- **Reading by patterns.** The line reader and the patterns agree on every line. -/
theorem readLine_eq_matchLine (aliases : Aliases) (pauses : Bool) :
    (readLine aliases pauses : LineReader κ) = matchLine aliases pauses := by
  funext line
  have hpause := search_pausePattern line.toList
  rw [readLine, matchLine, search_spokenPattern]
  cases spokenLine? line.toList with
  | some r =>
    dsimp only [Option.map_some]
    rw [matchDialogue_capturesOf]
  | none =>
    dsimp only [Option.map_none]
    rw [search_scenePattern, search_imagePattern]
    cases hread : pause? line.toList with
    | some duration =>
      rw [hread, Option.map_some] at hpause
      obtain ⟨captures, hsearch, hseconds⟩ := Option.map_eq_some_iff.1 hpause
      rw [hsearch]
      dsimp only
      rw [hseconds]
      rfl
    | none =>
      rw [hread, Option.map_none] at hpause
      rw [Option.map_eq_none_iff.1 hpause]

end Playthrough.Reading
