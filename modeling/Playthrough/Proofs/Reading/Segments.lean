import Mathlib
import Playthrough.Proofs.Reading.Spoken
import Playthrough.Proofs.Route.Basic

/-!
# Reading back what was written

A spoken text is written as a list of segments: characters, characters behind a backslash, tags and
insertions. Four passes look at it. One finds the closing quote, one cuts the text at tags and
insertions, one reads the waiting tags, and the last one takes the backslashes off the quotes, after
the tags are gone. Together they find the segments again: the characters in order are what is read on
the screen, and the waiting tags give the seconds.

* `numeral?`: the value of a plain decimal in ASCII digits.
* `Segment`: the parts of a text as they are written.
* `pieces_written`, `unescapeQuotes_written`: the passes over the text.
* `readLine_segments`: the record of a spoken line.
-/

namespace Playthrough.Reading

open Decimal Text Script

/-! ## Numbers -/

/-- The number that decimal digits stand for. -/
def number (digits : List Char) : ℕ :=
  Nat.ofDigits 10 (digits.reverse.map fun digit => digit.toNat - 48)

/-- The value of a plain decimal in ASCII digits: digits, digits with a point and maybe more digits,
    or a point and digits. -/
def numeral? (cs : List Char) : Option ℚ :=
  let whole := cs.takeWhile (· ≠ '.')
  let fraction := (cs.dropWhile (· ≠ '.')).tail
  if whole ++ fraction ≠ [] ∧ (whole ++ fraction).all Char.isDigit then
    some ((number (whole ++ fraction) : ℚ) / 10 ^ fraction.length)
  else none

theorem digitsValue_eq_number (digits : List Char) : digitsValue digits = number digits := by
  unfold digitsValue number
  induction digits using List.reverseRecOn with
  | nil => rfl
  | append_singleton digits digit ih =>
    rw [List.foldl_append, ih, List.foldl_cons, List.foldl_nil, List.reverse_append,
      List.reverse_singleton, List.singleton_append, List.map_cons, Nat.ofDigits_cons]
    ring

theorem isDecimalDigit_of_isDigit {c : Char} (h : c.isDigit = true) :
    isDecimalDigit c = true := by
  simp only [Char.isDigit, Bool.and_eq_true, decide_eq_true_eq, UInt32.le_iff_toNat_le,
    ge_iff_le] at h
  exact CodeRanges.contains_iff.2 ⟨(0x30, 0x39), List.mem_cons_self, h⟩

theorem not_mem_of_isDecimalDigit {cs : List Char} (h : ∀ c ∈ cs, isDecimalDigit c = true) :
    '.' ∉ cs := fun hmem => absurd (h '.' hmem) (by decide)

/-- The value of a plain decimal that is all of a text. -/
theorem value?_eq_ite (whole fraction : List Char) :
    (Duration.value? ⟨whole, fraction⟩ : Option ℚ) =
      if (whole ++ fraction).all Char.isDigit then
        some ((number (whole ++ fraction) : ℚ) / 10 ^ fraction.length)
      else none := by
  simp only [Duration.value?, digitsValue_eq_number]
  split
  · congr 1
    show Rat.ofScientific _ true _ = _
    rw [Rat.ofScientific_true_def, Rat.mkRat_eq_div]
    push_cast
    rfl
  · rfl

/-- A text is cut at its first point. -/
theorem numeral?_point {whole : List Char} (h : '.' ∉ whole) (fraction : List Char) :
    numeral? (whole ++ '.' :: fraction) =
      if whole ++ fraction ≠ [] then Duration.value? ⟨whole, fraction⟩ else none := by
  have hwhole : ∀ c ∈ whole, decide (c ≠ '.') = true := fun c hc =>
    decide_eq_true fun heq => h (heq ▸ hc)
  unfold numeral?
  rw [value?_eq_ite, List.takeWhile_append_of_pos hwhole, List.dropWhile_append_of_pos hwhole]
  simp only [List.takeWhile_cons, List.dropWhile_cons, ne_eq, not_true, decide_false,
    Bool.false_eq_true, if_false, List.append_nil, List.tail_cons]
  split_ifs <;> simp_all

theorem numeral?_whole {whole : List Char} (h : '.' ∉ whole) :
    numeral? whole = if whole ≠ [] then Duration.value? ⟨whole, []⟩ else none := by
  have hwhole : ∀ c ∈ whole, decide (c ≠ '.') = true := fun c hc =>
    decide_eq_true fun heq => h (heq ▸ hc)
  unfold numeral?
  rw [value?_eq_ite, List.takeWhile_eq_self_iff.2 hwhole, List.dropWhile_eq_nil_iff.2 hwhole]
  simp only [List.tail_nil, List.append_nil]
  split_ifs <;> simp_all

/-- A plain decimal that is all of a text: with a point, or without. -/
theorem readPrefix?_eq_some_iff {cs whole fraction : List Char} :
    Duration.readPrefix? cs = some (⟨whole, fraction⟩, []) ↔
      (∀ c ∈ whole ++ fraction, isDecimalDigit c = true) ∧ whole ++ fraction ≠ [] ∧
        (cs = whole ++ '.' :: fraction ∨ cs = whole ∧ fraction = []) := by
  have hpoint : isDecimalDigit '.' = false := by decide
  constructor
  · intro h
    have hsplit : cs.takeWhile isDecimalDigit ++ cs.dropWhile isDecimalDigit = cs :=
      List.takeWhile_append_dropWhile
    unfold Duration.readPrefix? at h
    dsimp only at h
    split at h
    · rename_i rest hdrop
      split at h
      · cases h
      · rename_i hne
        simp only [Option.some.injEq, Prod.mk.injEq, Duration.mk.injEq] at h
        obtain ⟨⟨rfl, rfl⟩, hrest⟩ := h
        have hfraction : rest.takeWhile isDecimalDigit = rest := by
          simpa [hrest] using rest.takeWhile_append_dropWhile (p := isDecimalDigit)
        refine ⟨fun c hc => ?_, ?_, Or.inl ?_⟩
        · exact (List.mem_append.1 hc).elim List.mem_takeWhile_imp List.mem_takeWhile_imp
        · simpa [List.append_eq_nil_iff] using hne
        · rw [hfraction, ← hdrop, hsplit]
    · split at h
      · cases h
      · rename_i hne
        simp only [Option.some.injEq, Prod.mk.injEq, Duration.mk.injEq] at h
        obtain ⟨⟨rfl, rfl⟩, hrest⟩ := h
        rw [hrest, List.append_nil] at hsplit
        refine ⟨fun c hc => ?_, ?_, Or.inr ⟨hsplit.symm, rfl⟩⟩
        · rw [List.append_nil] at hc
          exact List.mem_takeWhile_imp hc
        · simpa using hne
  · rintro ⟨hdigits, hne, hcs⟩
    have hwhole : ∀ c ∈ whole, isDecimalDigit c = true := fun c hc =>
      hdigits c (List.mem_append_left _ hc)
    have hfraction : ∀ c ∈ fraction, isDecimalDigit c = true := fun c hc =>
      hdigits c (List.mem_append_right _ hc)
    unfold Duration.readPrefix?
    rcases hcs with rfl | ⟨rfl, rfl⟩
    · rw [List.takeWhile_append_of_pos hwhole, List.dropWhile_append_of_pos hwhole,
        List.takeWhile_cons_of_neg (by simp [hpoint]), List.dropWhile_cons_of_neg (by simp [hpoint])]
      simp only [List.append_nil, List.takeWhile_eq_self_iff.2 hfraction,
        List.dropWhile_eq_nil_iff.2 hfraction]
      rw [if_neg (by simpa [List.append_eq_nil_iff] using hne)]
    · rw [List.takeWhile_eq_self_iff.2 hwhole, List.dropWhile_eq_nil_iff.2 hwhole]
      simp only [List.isEmpty_iff]
      rw [if_neg (by simpa using hne)]

/-- The reader of durations finds the value of a numeral, and in other texts finds none or does not
    get to the end. -/
theorem value?_readPrefix? (cs : List Char) :
    (∃ duration, Duration.readPrefix? cs = some (duration, []) ∧ duration.value? = numeral? cs) ∨
    (∀ duration, Duration.readPrefix? cs ≠ some (duration, [])) ∧ numeral? cs = none := by
  by_cases hread : ∃ duration, Duration.readPrefix? cs = some (duration, [])
  · obtain ⟨⟨whole, fraction⟩, hread⟩ := hread
    refine Or.inl ⟨_, hread, ?_⟩
    obtain ⟨hdigits, hne, hcs⟩ := readPrefix?_eq_some_iff.1 hread
    have hpoint : '.' ∉ whole := not_mem_of_isDecimalDigit fun c hc =>
      hdigits c (List.mem_append_left _ hc)
    rcases hcs with rfl | ⟨rfl, rfl⟩
    · rw [numeral?_point hpoint, if_pos hne]
    · rw [List.append_nil] at hne
      rw [numeral?_whole hpoint, if_pos hne]
  · refine Or.inr ⟨fun duration hduration => hread ⟨duration, hduration⟩, ?_⟩
    -- A numeral would have been read, since its digits are decimal digits.
    have hnone : ∀ {whole fraction : List Char},
        (cs = whole ++ '.' :: fraction ∨ cs = whole ∧ fraction = []) → whole ++ fraction ≠ [] →
          (Duration.value? ⟨whole, fraction⟩ : Option ℚ) = none := by
      intro whole fraction hcs hne
      rw [value?_eq_ite]
      refine if_neg fun hall => hread ⟨_, readPrefix?_eq_some_iff.2 ⟨fun c hc => ?_, hne, hcs⟩⟩
      exact isDecimalDigit_of_isDigit (List.all_eq_true.1 hall c hc)
    by_cases hmem : '.' ∈ cs
    · obtain ⟨whole, fraction, rfl, hpoint⟩ := List.eq_append_cons_of_mem hmem
      rw [numeral?_point hpoint]
      split
      · rename_i hne
        exact hnone (Or.inl rfl) hne
      · rfl
    · rw [numeral?_whole hmem]
      split
      · rename_i hne
        exact hnone (Or.inr ⟨rfl, rfl⟩) (by simpa using hne)
      · rfl

/-! ## Segments -/

/-- A part of a spoken text as it is written. -/
inductive Segment where
  | literal (c : Char) (plain : c ∉ ['\x7b', '\x7d', '[', ']', '"', '\\'])
  /-- A character behind a backslash. -/
  | escape (c : Char) (unmarked : c ∉ ['\x7b', '\x7d', '[', ']'])
  /-- A tag by what stands between its braces. -/
  | tag (inner : List Char) (nonempty : inner ≠ [])
      (plain : ∀ c ∈ inner, c ∉ ['\x7b', '\x7d', '"', '\\'])
  /-- An insertion by what stands between its brackets. -/
  | insertion (inner : List Char) (nonempty : inner ≠ [])
      (plain : ∀ c ∈ inner, c ∉ ['[', ']', '"', '\\'])

/-- The seconds for which a tag makes the reader wait: those of a `w` or a `p`, an equals sign and a
    numeral. All other tags take no time. -/
def tagSeconds : List Char → ℚ
  | kind :: '=' :: rest => if kind = 'w' ∨ kind = 'p' then (numeral? rest).getD 0 else 0
  | _ => 0

namespace Segment

/-- The characters of a segment. -/
def written : Segment → List Char
  | literal c _ => [c]
  | escape c _ => ['\\', c]
  | tag inner _ _ => '\x7b' :: (inner ++ ['\x7d'])
  | insertion inner _ _ => '[' :: (inner ++ [']'])

/-- What is read of a segment on the screen. An escaped quote is a quote, and all other escapes stay
    as they are. -/
def shown : Segment → List Char
  | literal c _ => [c]
  | escape c _ => if c = '"' then ['"'] else ['\\', c]
  | tag .. => []
  | insertion .. => []

/-- The seconds for which a segment makes the reader wait. -/
def seconds : Segment → ℚ
  | tag inner _ _ => tagSeconds inner
  | _ => 0

/-- The pieces into which a segment is cut. -/
def pieces : Segment → List Piece
  | literal c _ => [.char c]
  | escape c _ => [.char '\\', .char c]
  | tag inner _ _ => [.tag inner]
  | insertion inner _ _ => [.insertion inner]

end Segment

/-- A text as it is written. -/
def written (segments : List Segment) : List Char := segments.flatMap Segment.written

theorem written_cons (segment : Segment) (segments : List Segment) :
    written (segment :: segments) = segment.written ++ written segments := List.flatMap_cons

/-! ## The closing quote -/

theorem quotable_append_of_plain {front : List Char} (hfront : ∀ c ∈ front, c ≠ '"' ∧ c ≠ '\\')
    {cs : List Char} (h : Quotable '"' cs) : Quotable '"' (front ++ cs) := by
  induction front with
  | nil => exact h
  | cons c front ih =>
    obtain ⟨hquote, hslash⟩ := hfront c List.mem_cons_self
    exact .plain hquote hslash (ih fun d hd => hfront d (List.mem_cons_of_mem c hd))

theorem quotable_marked {opening closing : Char} {inner cs : List Char}
    (hmarks : ∀ c ∈ [opening, closing], c ≠ '"' ∧ c ≠ '\\')
    (hinner : ∀ c ∈ inner, c ≠ '"' ∧ c ≠ '\\') (h : Quotable '"' cs) :
    Quotable '"' (opening :: (inner ++ [closing]) ++ cs) := by
  refine quotable_append_of_plain (fun c hc => ?_) h
  simp only [List.mem_cons, List.mem_append, List.not_mem_nil, or_false] at hc
  rcases hc with rfl | hc | rfl
  · exact hmarks c (by simp)
  · exact hinner c hc
  · exact hmarks c (by simp)

/-- A text made of segments can stand between quotes. -/
theorem quotable_written (segments : List Segment) : Quotable '"' (written segments) := by
  induction segments with
  | nil => exact .nil
  | cons segment segments ih =>
    rw [written_cons]
    cases segment with
    | literal c plain =>
      simp only [List.mem_cons, List.not_mem_nil, or_false, not_or] at plain
      exact .plain plain.2.2.2.2.1 plain.2.2.2.2.2 ih
    | escape c _ => exact .escaped c ih
    | tag inner _ plain =>
      refine quotable_marked (by simp) (fun c hc => ?_) ih
      have hplain := plain c hc
      simp only [List.mem_cons, List.not_mem_nil, or_false, not_or] at hplain
      exact hplain.2.2
    | insertion inner _ plain =>
      refine quotable_marked (by simp) (fun c hc => ?_) ih
      have hplain := plain c hc
      simp only [List.mem_cons, List.not_mem_nil, or_false, not_or] at hplain
      exact hplain.2.2

/-! ## Tags and insertions -/

theorem marked?_append {opening closing : Char} {inner : List Char} (hne : inner ≠ [])
    (hinner : ∀ c ∈ inner, c ≠ opening ∧ c ≠ closing) (rest : List Char) :
    marked? opening closing (inner ++ closing :: rest) = some (inner, rest) := by
  obtain ⟨c, cs, rfl⟩ := List.exists_cons_of_ne_nil hne
  have hcs : ∀ d ∈ cs, decide (d ≠ closing) = true := fun d hd =>
    decide_eq_true (hinner d (List.mem_cons_of_mem c hd)).2
  rw [List.cons_append, marked?, if_neg (hinner c List.mem_cons_self).1,
    List.takeWhile_append_of_pos hcs, List.dropWhile_append_of_pos hcs]
  simp

theorem pieces_char {c : Char} (hbrace : c ≠ '\x7b') (hbracket : c ≠ '[') (cs : List Char) :
    pieces (c :: cs) = .char c :: pieces cs := by
  rw [pieces]
  split
  · rename_i hmarked
    rw [if_neg hbrace] at hmarked
    cases hmarked
  · split
    · rename_i hmarked
      rw [if_neg hbracket] at hmarked
      cases hmarked
    · rfl

theorem pieces_tag {cs inner rest : List Char}
    (h : marked? '\x7b' '\x7d' cs = some (inner, rest)) :
    pieces ('\x7b' :: cs) = .tag inner :: pieces rest := by
  rw [pieces]
  split
  · rename_i hmarked
    rw [if_pos rfl, h] at hmarked
    cases hmarked
    rfl
  · rename_i hmarked
    rw [if_pos rfl, h] at hmarked
    cases hmarked

theorem pieces_insertion {cs inner rest : List Char} (h : marked? '[' ']' cs = some (inner, rest)) :
    pieces ('[' :: cs) = .insertion inner :: pieces rest := by
  rw [pieces]
  split
  · rename_i hmarked
    rw [if_neg (by decide)] at hmarked
    cases hmarked
  · split
    · rename_i hmarked
      rw [if_pos rfl, h] at hmarked
      cases hmarked
      rfl
    · rename_i hmarked
      rw [if_pos rfl, h] at hmarked
      cases hmarked

/-- A text is cut into the pieces of its segments. -/
theorem pieces_written (segments : List Segment) :
    pieces (written segments) = segments.flatMap Segment.pieces := by
  induction segments with
  | nil => exact pieces.eq_1
  | cons segment segments ih =>
    rw [written_cons, List.flatMap_cons, ← ih]
    cases segment with
    | literal c plain =>
      simp only [List.mem_cons, List.not_mem_nil, or_false, not_or] at plain
      exact pieces_char plain.1 plain.2.2.1 _
    | escape c unmarked =>
      simp only [List.mem_cons, List.not_mem_nil, or_false, not_or] at unmarked
      have hslash : pieces ('\\' :: c :: written segments) =
          .char '\\' :: pieces (c :: written segments) :=
        pieces_char (by decide) (by decide) _
      exact hslash.trans (congrArg _ (pieces_char unmarked.1 unmarked.2.2.1 _))
    | tag inner nonempty plain =>
      simp only [Segment.written, Segment.pieces, List.cons_append, List.append_assoc,
        List.nil_append]
      refine pieces_tag (marked?_append nonempty (fun c hc => ?_) _)
      have hplain := plain c hc
      simp only [List.mem_cons, List.not_mem_nil, or_false, not_or] at hplain
      exact ⟨hplain.1, hplain.2.1⟩
    | insertion inner nonempty plain =>
      simp only [Segment.written, Segment.pieces, List.cons_append, List.append_assoc,
        List.nil_append]
      refine pieces_insertion (marked?_append nonempty (fun c hc => ?_) _)
      have hplain := plain c hc
      simp only [List.mem_cons, List.not_mem_nil, or_false, not_or] at hplain
      exact ⟨hplain.1, hplain.2.1⟩

/-! ## Escaped quotes -/

theorem unescapeQuotes_quote (cs : List Char) :
    unescapeQuotes ('\\' :: '"' :: cs) = '"' :: unescapeQuotes cs := by
  rw [unescapeQuotes]

theorem unescapeQuotes_cons {c : Char} {cs : List Char} (h : c ≠ '\\' ∨ cs.head? ≠ some '"') :
    unescapeQuotes (c :: cs) = c :: unescapeQuotes cs := by
  rw [unescapeQuotes]
  rintro rest rfl rfl
  rcases h with h | h
  · exact h rfl
  · exact h rfl

/-- The characters of the pieces of a segment. -/
def Segment.chars (segment : Segment) : List Char := segment.pieces.filterMap Piece.char?

theorem filterMap_char?_pieces (segments : List Segment) :
    (segments.flatMap Segment.pieces).filterMap Piece.char? = segments.flatMap Segment.chars :=
  List.filterMap_flatMap

/-- What is left of a text without its tags and insertions does not start with a quote. -/
theorem head?_chars_ne (segments : List Segment) :
    (segments.flatMap Segment.chars).head? ≠ some '"' := by
  induction segments with
  | nil => simp
  | cons segment segments ih =>
    cases segment with
    | literal c plain =>
      simp only [List.mem_cons, List.not_mem_nil, or_false, not_or] at plain
      simpa [Segment.chars, Segment.pieces, Piece.char?] using plain.2.2.2.2.1
    | escape c _ => simp [Segment.chars, Segment.pieces, Piece.char?]
    | tag inner _ _ => simpa [Segment.chars, Segment.pieces, Piece.char?] using ih
    | insertion inner _ _ => simpa [Segment.chars, Segment.pieces, Piece.char?] using ih

/-- Cutting out tags joins characters that were apart, but makes no new escaped quote: a quote always
    stands behind its own backslash. -/
theorem unescapeQuotes_chars (segments : List Segment) :
    unescapeQuotes (segments.flatMap Segment.chars) = segments.flatMap Segment.shown := by
  induction segments with
  | nil => rfl
  | cons segment segments ih =>
    have hhead := head?_chars_ne segments
    rw [List.flatMap_cons, List.flatMap_cons, ← ih]
    cases segment with
    | literal c plain =>
      simp only [List.mem_cons, List.not_mem_nil, or_false, not_or] at plain
      exact unescapeQuotes_cons (Or.inl plain.2.2.2.2.2)
    | escape c _ =>
      show unescapeQuotes ('\\' :: c :: segments.flatMap Segment.chars) = _
      rw [Segment.shown]
      split
      · rename_i hquote
        rw [hquote, unescapeQuotes_quote]
        rfl
      · rename_i hquote
        rw [unescapeQuotes_cons (Or.inr (by simpa using hquote)), unescapeQuotes_cons (Or.inr hhead)]
        rfl
    | tag inner _ _ => rfl
    | insertion inner _ _ => rfl

/-! ## Waiting tags -/

/-- The seconds for which a piece makes the reader wait. -/
def pieceSeconds (piece : Piece) : ℚ := ((waitTag? piece).bind Duration.value?).getD 0

theorem waits_eq_sum (pieces : List Piece) : waits pieces = (pieces.map pieceSeconds).sum := by
  unfold waits
  rw [foldl_add_eq_sum, zero_add]
  induction pieces with
  | nil => rfl
  | cons piece pieces ih =>
    rw [List.filterMap_cons, List.map_cons, List.sum_cons, ← ih, pieceSeconds]
    cases waitTag? piece <;> simp

theorem pieceSeconds_tag (inner : List Char) : pieceSeconds (.tag inner) = tagSeconds inner := by
  unfold tagSeconds
  split
  · rename_i kind rest
    by_cases hkind : kind = 'w' ∨ kind = 'p'
    · have hwait : waitTag? (.tag (kind :: '=' :: rest)) =
          (Duration.readPrefix? rest).bind fun read =>
            if read.2 = [] then some read.1 else none := by
        rw [waitTag?, if_pos (by simpa using hkind)]
        rcases Duration.readPrefix? rest with _ | ⟨duration, _ | _⟩ <;> rfl
      rw [if_pos hkind, pieceSeconds, hwait]
      rcases value?_readPrefix? rest with ⟨duration, hread, hvalue⟩ | ⟨hread, hnone⟩
      · rw [hread, ← hvalue]
        rfl
      · rw [hnone]
        cases hfront : Duration.readPrefix? rest with
        | none => rfl
        | some read =>
          have hrest : read.2 ≠ [] := fun hnil => hread read.1 (by rw [hfront, ← hnil])
          rw [Option.bind_some, if_neg hrest]
          rfl
    · rw [if_neg hkind, pieceSeconds, waitTag?, if_neg (by simpa using hkind)]
      rfl
  · rename_i hother
    have hnone : waitTag? (.tag inner) = none := by
      unfold waitTag?
      split
      · rename_i kind rest heq
        exact absurd (Piece.tag.inj heq) (hother kind rest)
      · rfl
    rw [pieceSeconds, hnone]
    rfl

/-- The waiting tags of a text. -/
theorem waits_pieces (segments : List Segment) :
    waits (segments.flatMap Segment.pieces) = (segments.map Segment.seconds).sum := by
  rw [waits_eq_sum]
  induction segments with
  | nil => rfl
  | cons segment segments ih =>
    have hsegment : (segment.pieces.map pieceSeconds).sum = segment.seconds := by
      cases segment with
      | literal c _ => simp [Segment.pieces, Segment.seconds, pieceSeconds, waitTag?]
      | escape c _ => simp [Segment.pieces, Segment.seconds, pieceSeconds, waitTag?]
      | tag inner _ _ => simp [Segment.pieces, Segment.seconds, pieceSeconds_tag]
      | insertion inner _ _ => simp [Segment.pieces, Segment.seconds, pieceSeconds, waitTag?]
    rw [List.flatMap_cons, List.map_append, List.sum_append, ih, List.map_cons, List.sum_cons,
      hsegment]

/-! ## Spoken lines -/

/-- **What was written is read back.** Take an optional name with blanks behind it, segments between
    double quotes, and optional blanks and an optional comment, all on one line. The line is read as
    spoken: by the narrator without a name, and otherwise by the name or what it stands for. What is
    read on the screen are the literals and the escapes in order, where the backslash of a quote is
    gone and other escapes stay. The line waits for the sum of the numbers in its waiting tags. -/
theorem readLine_segments (aliases : Aliases) (pauses : Bool) (tag : Option Nametag)
    (segments : List Segment) {gap : List Char} (hgap : Blanks gap) (remark : Option (List Char))
    {line : List Char}
    (hline : line = (tag.map Nametag.chars).getD [] ++
      '"' :: (segments.flatMap Segment.written ++ '"' :: (gap ++ (remark.map ('#' :: ·)).getD [])))
    (hnewline : '\n' ∉ line) :
    readLine aliases pauses (String.ofList line) = some (.dialogue
      { speaker := tag.elim .narrator fun tag =>
          .named ((aliases.lookup (String.ofList tag.name)).getD (String.ofList tag.name))
        text := String.ofList (segments.flatMap Segment.shown)
        extraSeconds := (segments.map Segment.seconds).sum }) := by
  let utterance : Utterance := ⟨tag, written segments, gap, remark, quotable_written segments, hgap⟩
  have hutterance : line = utterance.line := by
    rw [utterance.line_eq, hline]
    rfl
  have hspoken := spokenLine?_line utterance (hutterance ▸ hnewline)
  have hdialogue : dialogueOf aliases (tag.map Nametag.name) (written segments) =
      { speaker := tag.elim .narrator fun tag =>
          .named ((aliases.lookup (String.ofList tag.name)).getD (String.ofList tag.name))
        text := String.ofList (segments.flatMap Segment.shown)
        extraSeconds := (segments.map Segment.seconds).sum } := by
    simp only [dialogueOf, pieces_written, spoken, filterMap_char?_pieces, unescapeQuotes_chars,
      waits_pieces]
    cases tag <;> rfl
  unfold readLine
  rw [String.toList_ofList, hutterance]
  simp only [hspoken]
  exact congrArg (some ∘ Record.dialogue) hdialogue

/-- A murmur with a bold tag, an escaped quote, a name, an escaped backslash right in front of a tag
    that hides it from a quote, and three tags that wait, the last of them in digits that have no
    value. -/
def murmur : List Segment :=
  [.tag ['b'] (by simp) (by simp), .literal 'H' (by simp), .literal 'm' (by simp),
   .tag ['w', '=', '1', '.', '5'] (by simp) (by simp), .escape '"' (by simp),
   .insertion ['n', '\x7b', 'w'] (by simp) (by simp), .escape '\\' (by simp),
   .tag ['p', '=', '.', '5'] (by simp) (by simp), .escape '"' (by simp),
   .tag ['w', '=', '٣'] (by simp) (by simp)]

theorem blanks_spaces (width : ℕ) : Blanks (List.replicate width ' ') := by
  intro c hc
  rw [List.eq_of_mem_replicate hc]
  decide

/-- The name of the one who murmurs. -/
def murmurer : Nametag := ⟨['e'], [' '], by simp, by simp; decide, by simp, blanks_spaces 1⟩

/-- The line with the murmur. -/
def murmurLine : String :=
  "e \"\x7bb\x7dHm\x7bw=1.5\x7d\\\"[n\x7bw]\\\\\x7bp=.5\x7d\\\"\x7bw=٣\x7d\"  # \x7bw=9\x7d"

/-- The murmur takes two seconds, whatever the comment says. -/
theorem readLine_murmur :
    murmurLine.toList = murmurer.chars ++
      '"' :: (murmur.flatMap Segment.written ++ '"' :: ([' ', ' '] ++ "# \x7bw=9\x7d".toList)) ∧
    readLine [("e", "Eileen")] false murmurLine =
      some (.dialogue ⟨.named "Eileen", "Hm\"\\\\\"", (2 : ℚ)⟩) := by
  have hline : murmurLine.toList = murmurer.chars ++
      '"' :: (murmur.flatMap Segment.written ++ '"' :: ([' ', ' '] ++ "# \x7bw=9\x7d".toList)) := by
    decide +kernel
  refine ⟨hline, ?_⟩
  have hread := readLine_segments [("e", "Eileen")] false (some murmurer) murmur (blanks_spaces 2)
    (some " \x7bw=9\x7d".toList) hline (by decide +kernel)
  rw [String.ofList_toList] at hread
  refine hread.trans (congrArg (some ∘ Record.dialogue) ?_)
  cbv

end Playthrough.Reading
