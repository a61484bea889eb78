import Playthrough.Proofs.Draft.Nesting
import Playthrough.Reading.Line

/-!
# Spoken lines are content

Two scanners look at quoted text. One finds the comment of a line and decides with what is left
whether the line opens a block, jumps or returns; the other finds the text of a spoken line. For a
line that the second one accepts the first one must see no more than content, whatever stands in the
name, in the text and in the comment.

* `Utterance`: spoken lines by their parts.
* `spokenLine?_line`, `exists_utterance`: the reader accepts exactly these.
* `Utterance.splitComment_line`: the comment of a spoken line.
* `Utterance.statement_line`: a spoken line is content, unless its name is a keyword of its own.
* `Draft.Hears`, `Draft.Tidy.hears`: what reading a spoken line does.
-/

namespace Playthrough

namespace Reading

open Text Script

/-! ## Names -/

theorem ascii_of_isNameChar {c : Char} (h : isNameChar c = true) : c.toNat < 128 := by
  simp only [isNameChar, Char.isAlphanum, Char.isAlpha, Char.isUpper, Char.isLower, Char.isDigit,
    Bool.or_eq_true, Bool.and_eq_true, decide_eq_true_eq, UInt32.le_iff_toNat_le, ge_iff_le] at h
  change (((65 ≤ c.toNat ∧ c.toNat ≤ 90) ∨ (97 ≤ c.toNat ∧ c.toNat ≤ 122)) ∨
    (48 ≤ c.toNat ∧ c.toNat ≤ 57)) ∨ c = '_' at h
  rcases h with h | rfl
  · omega
  · decide

/-- A character of a name is part of a word, and neither a blank nor the start of a comment or of a
    quoted text. -/
theorem isNameChar_spec {c : Char} (h : isNameChar c = true) :
    isWordChar c = true ∧ isBlank c = false ∧ c ≠ '#' ∧ isQuote c = false := by
  have hall : ∀ n < 128, isNameChar (Char.ofNat n) = true →
      isWordChar (Char.ofNat n) = true ∧ isBlank (Char.ofNat n) = false ∧ Char.ofNat n ≠ '#' ∧
        isQuote (Char.ofNat n) = false := by
    decide +kernel
  have hc := hall c.toNat (ascii_of_isNameChar h)
  rw [Char.ofNat_toNat] at hc
  exact hc h

theorem isNameChar_of_isBlank {c : Char} (h : isBlank c = true) : isNameChar c = false := by
  by_contra hname
  rw [(isNameChar_spec (Bool.eq_true_of_not_eq_false hname)).2.1] at h
  cases h

/-- A name and the gap behind it. -/
structure Nametag where
  name : List Char
  gap : List Char
  name_ne : name ≠ []
  isNameChar_name : ∀ c ∈ name, isNameChar c = true
  gap_ne : gap ≠ []
  blanks_gap : Blanks gap

/-- The name tag as it stands in front of a spoken line. -/
def Nametag.chars (tag : Nametag) : List Char := tag.name ++ tag.gap

theorem Nametag.unmarked (tag : Nametag) : Unmarked tag.chars := by
  intro c hc
  rcases List.mem_append.1 hc with hc | hc
  · exact (isNameChar_spec (tag.isNameChar_name c hc)).2.2
  · exact isBlank_not_mark (tag.blanks_gap c hc)

/-! ## The parts of a spoken line -/

/-- A spoken line by its parts: an optional name, a text between double quotes, and an optional
    comment. -/
structure Utterance where
  tag : Option Nametag
  text : List Char
  gap : List Char
  /-- What stands behind the `#` of the comment. -/
  remark : Option (List Char)
  quotable : Quotable '"' text
  blanks_gap : Blanks gap

namespace Utterance

/-- The name of the speaker, if there is one. -/
def name? (utterance : Utterance) : Option (List Char) := utterance.tag.map Nametag.name

/-- The comment with its `#`. -/
def comment (utterance : Utterance) : Option (List Char) := utterance.remark.map ('#' :: ·)

/-- The line in front of the comment. -/
def code (utterance : Utterance) : List Char :=
  (utterance.tag.map Nametag.chars).getD [] ++
    '"' :: (utterance.text ++ '"' :: utterance.gap)

/-- The whole line. -/
def line (utterance : Utterance) : List Char := utterance.code ++ utterance.comment.getD []

end Utterance

/-! ## What the reader accepts -/

theorem quotedText?_quotable {text : List Char} (h : Quotable '"' text) (hline : '\n' ∉ text)
    (rest : List Char) : quotedText? (text ++ '"' :: rest) = some (text, rest) := by
  induction h with
  | nil => simp [quotedText?]
  | plain hquote hslash _ ih =>
    rw [List.mem_cons, not_or] at hline
    rw [List.cons_append, quotedText?, ih hline.2]
    · rfl
    · exact hquote
    · exact hslash
  | escaped c _ ih =>
    rw [List.mem_cons, List.mem_cons, not_or, not_or] at hline
    obtain ⟨-, hnewline, hline⟩ := hline
    rw [List.cons_append, List.cons_append, quotedText?]
    simp only [if_neg (Ne.symm hnewline), ih hline, Option.map_some]

theorem quotable_of_quotedText? {line text rest : List Char}
    (h : quotedText? line = some (text, rest)) :
    Quotable '"' text ∧ line = text ++ '"' :: rest := by
  fun_induction quotedText? line generalizing text with
  | case1 => cases h
  | case2 line =>
    cases h
    exact ⟨.nil, rfl⟩
  | case3 => cases h
  | case4 => cases h
  | case5 c cs hnewline ih =>
    obtain ⟨⟨text, rest⟩, hrest, heq⟩ := Option.map_eq_some_iff.1 h
    cases heq
    obtain ⟨hquotable, rfl⟩ := ih hrest
    exact ⟨.escaped c hquotable, rfl⟩
  | case6 c cs hquote hslash ih =>
    obtain ⟨⟨text, rest⟩, hrest, heq⟩ := Option.map_eq_some_iff.1 h
    cases heq
    obtain ⟨hquotable, rfl⟩ := ih hrest
    exact ⟨.plain hquote hslash hquotable, rfl⟩

theorem isTail_remark {gap : List Char} (h : Blanks gap) {remark : Option (List Char)}
    (hline : ∀ cs, remark = some cs → '\n' ∉ cs) :
    isTail (gap ++ (remark.map ('#' :: ·)).getD []) = true := by
  unfold isTail trimStart
  rw [List.dropWhile_append_of_pos h]
  cases remark with
  | none => rfl
  | some cs =>
    have hhash : isBlank '#' = false := by decide
    simpa [hhash] using hline cs rfl

theorem remark_of_isTail {rest : List Char} (h : isTail rest = true) :
    ∃ (gap : List Char) (remark : Option (List Char)), Blanks gap ∧
      rest = gap ++ (remark.map ('#' :: ·)).getD [] := by
  have hsplit := leading_append_trimStart rest
  unfold isTail at h
  split at h
  · rename_i htrim
    rw [htrim] at hsplit
    exact ⟨leading rest, none, fun _ => isBlank_of_mem_leading, hsplit.symm⟩
  · rename_i c cs htrim
    rw [Bool.and_eq_true, decide_eq_true_eq] at h
    rw [htrim, h.1] at hsplit
    exact ⟨leading rest, some cs, fun _ => isBlank_of_mem_leading, hsplit.symm⟩

theorem opening?_tag (tag : Option Nametag) (text : List Char) :
    opening? ((tag.map Nametag.chars).getD [] ++ '"' :: text) =
      some (tag.map Nametag.name, text) := by
  have hquote : isNameChar '"' = false := by decide
  have hblank : isBlank '"' = false := by decide
  cases tag with
  | none => simp [opening?, hquote]
  | some tag =>
    have hname : tag.name.isEmpty = false := by simpa using tag.name_ne
    have hgap : tag.gap.isEmpty = false := by simpa using tag.gap_ne
    obtain ⟨htake, hdrop⟩ : (tag.gap ++ '"' :: text).takeWhile isNameChar = [] ∧
        (tag.gap ++ '"' :: text).dropWhile isNameChar = tag.gap ++ '"' :: text := by
      obtain ⟨c, gap, hcons⟩ := List.exists_cons_of_ne_nil tag.gap_ne
      have hstop : isNameChar c = false :=
        isNameChar_of_isBlank (tag.blanks_gap c (hcons ▸ List.mem_cons_self))
      simp [hcons, hstop]
    obtain ⟨hleading, htrim⟩ : leading (tag.gap ++ '"' :: text) = tag.gap ∧
        trimStart (tag.gap ++ '"' :: text) = '"' :: text := by
      unfold leading trimStart
      rw [List.takeWhile_append_of_pos tag.blanks_gap, List.dropWhile_append_of_pos tag.blanks_gap]
      simp [hblank]
    unfold opening?
    rw [Option.map_some, Option.getD_some, Nametag.chars, List.append_assoc,
      List.takeWhile_append_of_pos tag.isNameChar_name,
      List.dropWhile_append_of_pos tag.isNameChar_name, htake, hdrop, List.append_nil]
    simp only [hname, hleading, hgap, htrim]
    rfl

theorem tag_of_opening? {line text : List Char} {name : Option (List Char)}
    (h : opening? line = some (name, text)) :
    ∃ tag : Option Nametag, tag.map Nametag.name = name ∧
      line = (tag.map Nametag.chars).getD [] ++ '"' :: text := by
  have hsplit : line.takeWhile isNameChar ++ line.dropWhile isNameChar = line :=
    List.takeWhile_append_dropWhile
  unfold opening? at h
  dsimp only at h
  split at h
  · split at h
    · cases h
      exact ⟨none, rfl, rfl⟩
    · cases h
  · rename_i hname
    split at h
    · cases h
    · rename_i hgap
      split at h
      · rename_i htrim
        cases h
        refine ⟨some ⟨line.takeWhile isNameChar, leading (line.dropWhile isNameChar),
          ?_, ?_, ?_, ?_⟩, rfl, ?_⟩
        · simpa using hname
        · exact fun c => List.mem_takeWhile_imp
        · simpa using hgap
        · exact fun c => isBlank_of_mem_leading
        · rw [Option.map_some, Option.getD_some, Nametag.chars, List.append_assoc, ← htrim,
            leading_append_trimStart, hsplit]
      · cases h

namespace Utterance

variable (utterance : Utterance)

theorem line_eq : utterance.line = (utterance.tag.map Nametag.chars).getD [] ++
    '"' :: (utterance.text ++ '"' :: (utterance.gap ++ utterance.comment.getD [])) := by
  simp [line, code]

end Utterance

/-- The reader finds the name and the text of a spoken line. -/
theorem spokenLine?_line (utterance : Utterance) (h : '\n' ∉ utterance.line) :
    spokenLine? utterance.line = some (utterance.name?, utterance.text) := by
  rw [utterance.line_eq] at h ⊢
  simp only [List.mem_append, List.mem_cons, not_or] at h
  obtain ⟨-, -, htext, -, -, hremark⟩ := h
  have htail : isTail (utterance.gap ++ utterance.comment.getD []) = true := by
    refine isTail_remark utterance.blanks_gap fun cs hcs => ?_
    rw [Utterance.comment, hcs] at hremark
    simpa using hremark
  unfold spokenLine?
  rw [opening?_tag]
  simp only [bind, Option.bind_some, quotedText?_quotable utterance.quotable htext, htail, if_true]
  rfl

/-- The reader accepts nothing but spoken lines. -/
theorem exists_utterance {line text : List Char} {name : Option (List Char)}
    (h : spokenLine? line = some (name, text)) :
    ∃ utterance : Utterance, utterance.line = line := by
  unfold spokenLine? at h
  obtain ⟨⟨name, quoted⟩, hopening, h⟩ := Option.bind_eq_some_iff.1 h
  obtain ⟨⟨inner, rest⟩, hquoted, h⟩ := Option.bind_eq_some_iff.1 h
  dsimp only at h
  split at h
  · rename_i htail
    obtain ⟨tag, -, rfl⟩ := tag_of_opening? hopening
    obtain ⟨hquotable, rfl⟩ := quotable_of_quotedText? hquoted
    obtain ⟨gap, remark, hgap, rfl⟩ := remark_of_isTail htail
    exact ⟨⟨tag, inner, gap, remark, hquotable, hgap⟩, Utterance.line_eq _⟩
  · cases h

/-! ## The comment of a spoken line -/

theorem splitComment_remark (remark : Option (List Char)) :
    splitComment ((remark.map ('#' :: ·)).getD []) = ⟨[], remark.map ('#' :: ·)⟩ := by
  cases remark with
  | none => rfl
  | some cs => simp [splitComment, splitFrom]

namespace Utterance

variable (utterance : Utterance)

/-- The comment starts behind the text, if there is one. -/
theorem splitComment_line :
    splitComment utterance.line = ⟨utterance.code, utterance.comment⟩ := by
  have hfront : Unmarked ((utterance.tag.map Nametag.chars).getD []) := by
    cases utterance.tag with
    | none => exact fun c hc => by cases hc
    | some tag => exact tag.unmarked
  have hgap : Unmarked utterance.gap := fun c hc => isBlank_not_mark (utterance.blanks_gap c hc)
  rw [line_eq, splitComment_unmarked hfront, splitComment_quoted rfl utterance.quotable,
    splitComment_unmarked hgap, comment, splitComment_remark]
  simp [Split.prepend, code]

/-! ## The meaning of a spoken line -/

theorem headerText?_code : headerText? utterance.code = none := by
  have hquote : isBlank '"' = false := by decide
  have hgap : ∀ c ∈ utterance.gap.reverse, isBlank c = true :=
    fun c hc => utterance.blanks_gap c (List.mem_reverse.1 hc)
  have hreverse : utterance.code.reverse = utterance.gap.reverse ++
      '"' :: (utterance.text.reverse ++
        '"' :: ((utterance.tag.map Nametag.chars).getD []).reverse) := by
    simp [code]
  unfold headerText? trimEnd
  rw [hreverse, List.reverse_reverse, List.dropWhile_append_of_pos hgap]
  simp [hquote]

/-- A keyword at the start of a spoken line is the name of the speaker or the start of a longer
    name. -/
theorem afterKeyword?_code {keyword : String} (hkeyword : keyword.toList.all isNameChar = true)
    (hne : keyword.toList ≠ []) (hname : utterance.name? ≠ some keyword.toList) {rest : List Char}
    (h : afterKeyword? keyword utterance.code = some rest) :
    ∃ c cs, rest = c :: cs ∧ isNameChar c = true := by
  have hcode := List.isPrefixOf?_eq_some_iff_append_eq.1 h
  have hkeyword := List.all_eq_true.1 hkeyword
  obtain ⟨first, more, hfirst⟩ := List.exists_cons_of_ne_nil hne
  unfold code at hcode
  unfold name? at hname
  cases htag : utterance.tag with
  | none =>
    rw [htag, hfirst] at hcode
    have hquote : first = '"' := (List.cons.inj hcode).1
    have hchar := hkeyword first (hfirst ▸ List.mem_cons_self)
    rw [hquote] at hchar
    cases hchar
  | some tag =>
    rw [htag, Option.map_some, Option.getD_some, Nametag.chars, List.append_assoc] at hcode
    rw [htag, Option.map_some, ne_eq, Option.some.injEq] at hname
    rcases List.append_eq_append_iff.1 hcode with ⟨longer, hlonger, hrest⟩ | ⟨excess, hexcess, hgap⟩
    · cases longer with
      | nil => exact absurd (by simpa using hlonger) hname
      | cons c cs =>
        have hmem : c ∈ tag.name := by simp [hlonger]
        exact ⟨c, _, hrest, tag.isNameChar_name c hmem⟩
    · -- a keyword has no blank in it, so it does not reach into the gap
      obtain ⟨blank, gap, hcons⟩ := List.exists_cons_of_ne_nil tag.gap_ne
      cases excess with
      | nil => exact absurd (by simpa using hexcess.symm) hname
      | cons c cs =>
        rw [hcons, List.cons_append, List.cons_append, List.cons.injEq] at hgap
        have hblank : isBlank c = true :=
          hgap.1 ▸ tag.blanks_gap blank (hcons ▸ List.mem_cons_self)
        have hchar : isNameChar c = true := hkeyword c (by simp [hexcess])
        rw [isNameChar_of_isBlank hblank] at hchar
        cases hchar

theorem jumpTarget?_code (h : utterance.name? ≠ some "jump".toList) :
    jumpTarget? utterance.code = none := by
  unfold jumpTarget?
  cases hrest : afterKeyword? "jump" utterance.code with
  | none => rfl
  | some rest =>
    obtain ⟨c, cs, rfl, hc⟩ := utterance.afterKeyword?_code (by decide) (by decide) h hrest
    have hleading : leading (c :: cs) = [] := by simp [leading, (isNameChar_spec hc).2.1]
    simp [hleading]

theorem isReturn_code (h : utterance.name? ≠ some "return".toList) :
    isReturn utterance.code = false := by
  unfold isReturn
  cases hrest : afterKeyword? "return" utterance.code with
  | none => rfl
  | some rest =>
    obtain ⟨c, cs, rfl, hc⟩ := utterance.afterKeyword?_code (by decide) (by decide) h hrest
    simp [endsWord, (isNameChar_spec hc).1]

/-- A spoken line is content, unless its name is a keyword of its own. -/
theorem statement_line (hjump : utterance.name? ≠ some "jump".toList)
    (hreturn : utterance.name? ≠ some "return".toList) {line : String}
    (hline : line.toList = utterance.line) : statement line = .content line := by
  unfold statement
  rw [hline, splitComment_line]
  simp only [headerText?_code, jumpTarget?_code utterance hjump, isReturn_code utterance hreturn]
  rfl

theorem flush_line : Flush utterance.line := by
  have hquote : isBlank '"' = false := by decide
  constructor
  · rw [line_eq]
    cases utterance.tag with
    | none => simp [leading, hquote]
    | some tag =>
      obtain ⟨c, cs, hname⟩ := List.exists_cons_of_ne_nil tag.name_ne
      have hc := tag.isNameChar_name c (hname ▸ List.mem_cons_self)
      simp [leading, Nametag.chars, hname, (isNameChar_spec hc).2.1]
  · rw [isBlankLine, splitComment_line, List.all_eq_false]
    exact ⟨'"', by simp [code], by simp [hquote]⟩

end Utterance

end Reading

/-! ## Reading a spoken line -/

namespace Draft

open Reading Script Text

variable {κ : Type}

/-- A line is handed to the reader. Its indentation may be refused; otherwise a chain of conditions
    that is left over is closed, and what the reader makes of the line, as it stands behind its
    indentation, goes into the block that receives content. -/
def Hears (reader : LineReader κ) (indent : List Char) (line : String) (number : Nat)
    (draft : Draft κ) : Prop :=
  let aligned := { draft with lastLine := number }.align (indent ++ line.toList) number
  let read := draft.feed reader (String.ofList (indent ++ line.toList)) number
  (∃ fault, aligned = .error fault ∧ read = .error fault) ∨
    ∃ inside settled, aligned = .ok (inside, line.toList) ∧
      inside.closeChain number = .ok settled ∧
      read = .ok
        (((reader line).map fun record => settled.modifyCurrent (·.say record)).getD settled)

theorem Tidy.hears {draft : Draft κ} (h : Tidy draft) (reader : LineReader κ) {indent : List Char}
    (hindent : Blanks indent) {line : String} (hflush : Flush line.toList)
    (hcontent : statement line = .content line) (number : Nat) :
    draft.Hears reader indent line number := by
  have hmarked := h.mark_line number
  unfold Hears
  dsimp only
  cases halign : ({ draft with lastLine := number } : Draft κ).align (indent ++ line.toList)
      number with
  | error fault =>
    refine Or.inl ⟨fault, rfl, ?_⟩
    unfold Draft.feed
    rw [String.toList_ofList, isBlankLine_blanks hindent, hflush.isCode]
    simp only [Bool.false_eq_true, if_false]
    rw [halign]
    rfl
  | ok aligned =>
    obtain ⟨inside, rest⟩ := aligned
    obtain rfl : rest = line.toList :=
      (hmarked.align_rest halign).trans (leading_blanks hindent hflush).2
    obtain ⟨settled, hsettled, -⟩ := (hmarked.align halign).1.closeChain number
    refine Or.inr ⟨inside, settled, rfl, hsettled, ?_⟩
    rw [feed_eq reader hindent hflush halign, hcontent, obey, hsettled]
    cases reader line <;> rfl

end Draft

open Reading Script Draft

/-- **Spoken lines are content.** The lines that the reader accepts as spoken are those made of an
    optional name, a text between double quotes and an optional comment. Unless its name is `jump`
    or `return`, such a line is content, whatever colons, hashes, quotes and keywords it holds; its
    comment starts where the last of these parts does; and wherever it stands in a script, under
    whatever indentation, it is handed to the reader. -/
theorem spoken_is_content {κ : Type} {line : String} (hline : '\n' ∉ line.toList) :
    ((spokenLine? line.toList).isSome ↔ ∃ utterance : Utterance, line.toList = utterance.line) ∧
    ∀ utterance : Utterance, line.toList = utterance.line →
      utterance.name? ≠ some "jump".toList → utterance.name? ≠ some "return".toList →
        spokenLine? line.toList = some (utterance.name?, utterance.text) ∧
        splitComment line.toList = ⟨utterance.code, utterance.comment⟩ ∧
        statement line = .content line ∧
        ∀ (reader : LineReader κ) (lines : List (String × Nat)) (draft : Draft κ),
          Draft.start.feedAll reader lines = .ok draft →
            ∀ indent, Blanks indent → ∀ number, draft.Hears reader indent line number := by
  have hspoken : ∀ utterance : Utterance, line.toList = utterance.line →
      spokenLine? line.toList = some (utterance.name?, utterance.text) := by
    intro utterance h
    rw [h] at hline ⊢
    exact spokenLine?_line utterance hline
  refine ⟨⟨fun h => ?_, ?_⟩, ?_⟩
  · obtain ⟨⟨name, text⟩, hsome⟩ := Option.isSome_iff_exists.1 h
    obtain ⟨utterance, hutterance⟩ := exists_utterance hsome
    exact ⟨utterance, hutterance.symm⟩
  · rintro ⟨utterance, h⟩
    rw [hspoken utterance h]
    rfl
  · intro utterance h hjump hreturn
    have hcontent := utterance.statement_line hjump hreturn h
    refine ⟨hspoken utterance h, h ▸ utterance.splitComment_line, hcontent, ?_⟩
    intro reader lines draft hdraft indent hindent number
    exact (tidy_start.feedAll hdraft).1.hears reader hindent (h ▸ utterance.flush_line) hcontent
      number

/-- A line with a keyword for a name, and with a header, quotes, a comment and a return in what is
    said. -/
def shopLine : String := "label \"if it's so: # \\\"go\\\":\"  # return dead:"

theorem spoken_is_content_shop :
    '\n' ∉ shopLine.toList ∧
    (∃ utterance : Utterance, shopLine.toList = utterance.line ∧
      utterance.name? = some "label".toList ∧ utterance.comment = some "# return dead:".toList) ∧
    statement shopLine = .content shopLine ∧
    ∃ draft : Draft Rat, Draft.start.feedAll (readLine [] true) [("label shop:", 1)] = .ok draft ∧
      draft.Hears (readLine [] true) "    ".toList shopLine 2 := by
  have hnewline : '\n' ∉ shopLine.toList := by decide +kernel
  have hspoken := spoken_is_content (κ := Rat) hnewline
  obtain ⟨utterance, hline⟩ := hspoken.1.1 (by decide +kernel)
  have hname : utterance.name? = some "label".toList := by
    have hfound : (spokenLine? shopLine.toList).map Prod.fst = some (some "label".toList) := by
      decide +kernel
    rw [hline, spokenLine?_line utterance (hline ▸ hnewline)] at hfound
    exact Option.some.inj hfound
  obtain ⟨-, hsplit, hcontent, hhears⟩ :=
    hspoken.2 utterance hline (by rw [hname]; decide) (by rw [hname]; decide)
  have hcomment : (splitComment shopLine.toList).comment = some "# return dead:".toList := by
    decide +kernel
  rw [hsplit] at hcomment
  have hread : (do
      let draft ← (Draft.start : Draft Rat).feedAll (readLine [] true) [("label shop:", 1)]
      return draft.stack.length) = Except.ok 1 := by decide +kernel
  obtain ⟨draft, hdraft, -⟩ := bind_eq_ok.1 hread
  exact ⟨hnewline, ⟨utterance, hline, hname, hcomment⟩, hcontent, draft, hdraft,
    hhears _ _ draft hdraft _ (by simp [Blanks]; decide) 2⟩

end Playthrough
