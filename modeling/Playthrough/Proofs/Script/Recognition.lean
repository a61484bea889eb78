import Playthrough.Proofs.Script.Pattern
import Playthrough.Proofs.Text.Trim

/-!
# Lines as patterns

Headers, jumps and returns have a pattern each. The pattern of headers is not bound to the start of
the line: it is the colon at the end that has to fit, and a keyword with its argument is captured if
there is one. There is only one colon with nothing but blanks behind it, so of all the ways to pass
over the argument none but the longest gets that far.

* `Pattern.header`, `Pattern.jump`, `Pattern.terminator`: the patterns.
* `search_header`: what a header captures.
* `search_jump`, `search_terminator`: the other patterns capture what the functions for them find.
* `matched_eq_statement`: telling lines apart by patterns gives their meaning.
-/

namespace Playthrough.Script

open Text

/-! ## Words -/

theorem isWordChar_of_isLower {c : Char} (h : c.isLower = true) : isWordChar c = true := by
  have hrange : 97 ≤ c.val ∧ c.val ≤ 122 := by simpa [Char.isLower] using h
  have hmem : (0x61, 0x7a) ∈ wordRanges :=
    List.mem_cons_of_mem _ (List.mem_cons_of_mem _ (List.mem_cons_of_mem _ List.mem_cons_self))
  exact CodeRanges.contains_iff.2 ⟨_, hmem, hrange.1, hrange.2⟩

theorem endsWord_append_cons {c : Char} {text rest : List Char} (h : isWordChar c = false) :
    endsWord (text ++ c :: rest) = endsWord text := by
  cases text with
  | nil => simp [endsWord, h]
  | cons d text => rfl

/-- Behind small letters there is an edge if the word ends. -/
theorem Cursor.isEdge_letters {word rest : List Char} {captures : Captures} (hword : word ≠ [])
    (hletters : ∀ c ∈ word, c.isLower = true) :
    Cursor.isEdge ⟨word.reverse, rest, captures⟩ = endsWord rest := by
  have hlast : isWordChar (word.getLast hword) = true :=
    isWordChar_of_isLower (hletters _ (List.getLast_mem hword))
  unfold Cursor.isEdge
  rw [List.head?_reverse, List.getLast?_eq_some_getLast hword]
  cases rest with
  | nil => simp [endsWord, hlast]
  | cons d rest => cases hd : isWordChar d <;> simp [endsWord, hlast, hd]

namespace Pattern

variable {ρ : Type} {next : Cursor → Option ρ} {before rest : List Char} {captures : Captures}

/-! ## Headers -/

/-- A colon at the end of the text, but for blanks. -/
def ending : Pattern := seq (one (· = ':')) trailing

/-- Anything between parentheses. -/
def parameters : Pattern := seq (one (· = '(')) (seq (many (· ≠ '\n')) (one (· = ')')))

/-- Anything that does not start with a blank. -/
def phrase : Pattern := seq (one (!isBlank ·)) (many (· ≠ '\n'))

/-- What stands between the keyword of a header and its colon. -/
def argument : Pattern := either parameters phrase

/-- Blanks, and an argument if there is one. -/
def operand : Pattern := seq (many isBlank) (either (capture "arg" argument) skip)

/-- Small letters up to the end of a word. -/
def keyword : Pattern := seq (capture "cmd" (run Char.isLower)) edge

/-- A keyword at the start of the text, with its argument. -/
def command : Pattern := seq start (seq keyword operand)

/-- A header: a colon at the end, and a command in front of it if possible. -/
def header : Pattern := seq (either command skip) ending

/-- The end of a header, with what has been captured. -/
abbrev finish : Cursor → Option Captures := ending.attempt (some ·.captures)

theorem finish_nil : finish ⟨before, [], captures⟩ = none := rfl

theorem finish_cons (c : Char) (rest : List Char) : finish ⟨before, c :: rest, captures⟩ =
    if c = ':' ∧ rest.all isBlank = true then some captures else none := by
  show (if decide (c = ':') then trailing.attempt (some ·.captures) ⟨c :: before, rest, captures⟩
    else none) = _
  rw [attempt_trailing]
  by_cases hc : c = ':' <;> simp [hc]

theorem exists_of_finish (h : finish ⟨before, rest, captures⟩ ≠ none) :
    ∃ blanks, rest = ':' :: blanks ∧ ∀ c ∈ blanks, isBlank c = true := by
  cases rest with
  | nil => exact absurd finish_nil h
  | cons c rest =>
    rw [finish_cons] at h
    obtain ⟨rfl, hblanks⟩ := by_contra fun hc => h (if_neg hc)
    exact ⟨rest, rfl, List.all_eq_true.1 hblanks⟩

/-- A run of small letters cannot stop early, as there is no edge between letters. -/
theorem attempt_keyword (text : List Char) :
    keyword.attempt next ⟨[], text, []⟩ =
      if text.takeWhile Char.isLower ≠ [] ∧ endsWord (text.dropWhile Char.isLower) = true then
        next ⟨(text.takeWhile Char.isLower).reverse, text.dropWhile Char.isLower,
          [("cmd", text.takeWhile Char.isLower)]⟩
      else none := by
  have hletters : ∀ c ∈ text.takeWhile Char.isLower, c.isLower = true := fun _ =>
    List.mem_takeWhile_imp
  show (capture "cmd" (run Char.isLower)).attempt (edge.attempt next) ⟨[], text, []⟩ = _
  rw [attempt_capture_run]
  · rw [List.append_nil, ite_and]
    refine ite_congr rfl (fun hword => ?_) fun _ => rfl
    rw [attempt, Cursor.isEdge_letters hword hletters]
  · intro u c v captures _ hne hu hc
    rw [attempt, List.append_nil, Cursor.isEdge_letters hne hu]
    simp [endsWord, isWordChar_of_isLower hc]

section Argument

-- The rest of the pattern fits only behind the whole text.
variable {c : Char} {text tail : List Char} {result : ρ}
  (hnext : ∀ u v, text ++ tail = u ++ v →
    next ⟨u.reverse ++ c :: before, v, captures⟩ = if u = text then some result else none)
include hnext

/-- Parameters may not fit, or end too early; if they fit, they are the whole text. -/
theorem attempt_parameters :
    (parameters.attempt next ⟨before, c :: (text ++ tail), captures⟩).or (some result) =
      some result := by
  show Option.or (if decide (c = '(') then runMany _ ((one (· = ')')).attempt next) captures
    (c :: before) (text ++ tail) else none) _ = _
  split
  · refine runMany_induction (motive := (Option.or · (some result) = _)) fun u v hsplit _ => ?_
    cases v with
    | nil => rfl
    | cons d v =>
      have hlast := hnext (u ++ [d]) v (by rw [hsplit]; simp)
      rw [List.reverse_append, List.reverse_singleton, List.singleton_append,
        List.cons_append] at hlast
      show Option.or (if decide (d = ')') then
        next ⟨d :: (u.reverse ++ c :: before), v, captures⟩ else none) _ = _
      rw [hlast]
      split
      · split
        · rfl
        · rfl
      · rfl
  · rfl

theorem attempt_phrase (hc : isBlank c = false) (hline : '\n' ∉ text) :
    phrase.attempt next ⟨before, c :: (text ++ tail), captures⟩ = some result := by
  show (if !isBlank c then runMany _ next captures (c :: before) (text ++ tail) else none) = _
  rw [hc, runMany_eq, hnext text _ rfl, if_pos rfl]
  · rfl
  · exact fun d hd => decide_eq_true (ne_of_mem_of_not_mem hd hline)
  · intro u v hsplit _ hne
    rw [hnext u v hsplit, if_neg hne]

end Argument

section Colon

-- A text in front of the colon that ends a header, and the blanks behind the colon.
variable {text blanks u v : List Char} (hblanks : ∀ c ∈ blanks, isBlank c = true)
include hblanks

/-- A header ends at one cursor only. -/
theorem finish_split (hsplit : text ++ ':' :: blanks = u ++ v) :
    finish ⟨before, v, captures⟩ = if u = text then some captures else none := by
  by_cases hu : u = text
  · subst hu
    obtain rfl := List.append_cancel_left hsplit
    rw [if_pos rfl, finish_cons, if_pos ⟨rfl, List.all_eq_true.2 hblanks⟩]
  · rw [if_neg hu]
    by_contra hfits
    obtain ⟨blanks', rfl, hblanks'⟩ := exists_of_finish hfits
    exact hu (eq_of_last_eq (by decide) hblanks hblanks' hsplit).1.symm

/-- An argument is all that stands in front of the colon. -/
theorem attempt_argument_cons {c : Char} (hc : isBlank c = false) (hline : '\n' ∉ text) :
    (capture "arg" argument).attempt finish ⟨before, c :: (text ++ ':' :: blanks), captures⟩ =
      some (("arg", c :: text) :: captures) := by
  have hrecord : ∀ u v, text ++ ':' :: blanks = u ++ v →
      finish ⟨u.reverse ++ c :: before, v,
        ("arg", Cursor.passed ⟨before, c :: (text ++ ':' :: blanks), captures⟩
          ⟨u.reverse ++ c :: before, v, captures⟩) :: captures⟩ =
      if u = text then some (("arg", c :: text) :: captures) else none := by
    intro u v hsplit
    have hpassed := Cursor.passed_eq before (c :: (text ++ ':' :: blanks)) (c :: u) v captures
      captures
    rw [List.reverse_cons, List.append_assoc, List.singleton_append] at hpassed
    rw [hpassed, finish_split hblanks hsplit]
    split
    · rename_i hu
      rw [hu]
    · rfl
  show Option.or (parameters.attempt _ _) (phrase.attempt _ _) = _
  rw [attempt_phrase hrecord hc hline]
  exact attempt_parameters hrecord

/-- There is no argument without a text in front of the colon. -/
theorem attempt_argument_colon :
    (capture "arg" argument).attempt finish ⟨before, ':' :: blanks, captures⟩ = none := by
  show Option.or none (runMany _ _ captures (':' :: before) blanks) = none
  rw [Option.none_or]
  refine runMany_eq_none fun u v hsplit _ => ?_
  have hcolon : [] ++ ':' :: blanks = (':' :: u) ++ v := by rw [hsplit]; rfl
  show finish ⟨_, v, _⟩ = none
  rw [finish_split hblanks hcolon, if_neg (by simp)]

omit hblanks in
/-- Nothing fits in front of a blank. -/
theorem attempt_argument_blank {c : Char} (hc : isBlank c = true) :
    (either (capture "arg" argument) skip).attempt finish ⟨before, c :: rest, captures⟩ = none := by
  have hne : ∀ d, isBlank d = false → c ≠ d := by
    rintro d hd rfl
    rw [hc] at hd
    cases hd
  have hskip : finish ⟨before, c :: rest, captures⟩ = none := by
    rw [finish_cons, if_neg fun h => hne ':' (by decide) h.1]
  show Option.or (Option.or (if decide (c = '(') then _ else none) (if !isBlank c then _ else none))
    (finish ⟨before, c :: rest, captures⟩) = none
  rw [hskip, hc, decide_eq_false (hne '(' (by decide))]
  rfl

theorem attempt_operand (hline : '\n' ∉ text) :
    operand.attempt finish ⟨before, text ++ ':' :: blanks, captures⟩ =
      some (if trimStart text = [] then captures else ("arg", trimStart text) :: captures) := by
  have hstart : (text ++ ':' :: blanks).dropWhile isBlank = trimStart text ++ ':' :: blanks :=
    trimStart_append_cons (by decide)
  show runMany isBlank _ captures before (text ++ ':' :: blanks) = _
  rw [runMany_longest fun _ _ _ _ _ hc => attempt_argument_blank hc, hstart]
  show Option.or _ (finish _) = _
  cases htext : trimStart text with
  | nil =>
    rw [List.nil_append, attempt_argument_colon hblanks, finish_cons,
      if_pos ⟨rfl, List.all_eq_true.2 hblanks⟩]
    rfl
  | cons c rest =>
    have hrest : '\n' ∉ rest := by
      intro hmem
      refine hline (trimStart_subset text ?_)
      rw [htext]
      exact List.mem_cons_of_mem c hmem
    rw [List.cons_append,
      attempt_argument_cons hblanks (isBlank_of_trimStart_eq_cons htext) hrest]
    rfl

/-- What the keyword at the start of a header and its argument are captured as, if the word ends
    behind the keyword. -/
def commandCaptures? (text : List Char) : Option Captures :=
  let word := text.takeWhile Char.isLower
  let rest := text.dropWhile Char.isLower
  if word ≠ [] ∧ endsWord rest = true then
    some (if trimStart rest = [] then [("cmd", word)] else [("arg", trimStart rest), ("cmd", word)])
  else none

theorem attempt_command (hline : '\n' ∉ text) :
    command.attempt finish ⟨[], text ++ ':' :: blanks, []⟩ = commandCaptures? text := by
  have hrest : '\n' ∉ text.dropWhile Char.isLower := fun hmem =>
    hline ((List.dropWhile_suffix Char.isLower).subset hmem)
  show keyword.attempt (operand.attempt finish) ⟨[], text ++ ':' :: blanks, []⟩ = _
  rw [attempt_keyword, takeWhile_append_cons (by decide), dropWhile_append_cons (by decide),
    attempt_operand hblanks hrest, endsWord_append_cons (by decide +kernel)]
  rfl

/-- Without a command, a header captures nothing. -/
theorem searchFrom_header
    (hnone : command.attempt finish ⟨before, text ++ ':' :: blanks, []⟩ = none) :
    header.searchFrom before (text ++ ':' :: blanks) = some [] := by
  have hattempt : header.attempt (some ·.captures) ⟨before, text ++ ':' :: blanks, []⟩ =
      if [] = text then some [] else none := by
    show Option.or (command.attempt finish _) (finish _) = _
    rw [hnone, Option.none_or, finish_split hblanks (List.nil_append _).symm]
  induction text generalizing before with
  | nil => exact searchFrom_of_attempt hattempt
  | cons c text ih =>
    rw [List.cons_append] at hattempt ⊢
    rw [searchFrom, hattempt, if_neg (List.cons_ne_nil c text).symm, Option.none_or]
    refine ih rfl ?_
    show Option.or none (finish _) = _
    rw [Option.none_or, finish_split hblanks (List.nil_append _).symm]

/-- A header captures its command, if there is one. -/
theorem search_header (hline : '\n' ∉ text) :
    header.search (text ++ ':' :: blanks) = some ((commandCaptures? text).getD []) := by
  have hcommand := attempt_command hblanks hline
  cases hcaptures : commandCaptures? text with
  | none => exact searchFrom_header hblanks (hcommand.trans hcaptures)
  | some captures =>
    refine searchFrom_of_attempt ?_
    show Option.or (command.attempt finish _) _ = _
    rw [hcommand, hcaptures]
    rfl

end Colon

/-- A header has a colon with blanks behind it. -/
theorem exists_of_search_header {code : List Char} (h : header.search code ≠ none) :
    ∃ text blanks, code = text ++ ':' :: blanks ∧ ∀ c ∈ blanks, isBlank c = true := by
  obtain ⟨u, v, rfl, hfits⟩ := exists_of_searchFrom h
  by_contra hno
  refine hfits (attempt_eq_none (either command skip) fun text rest captures hsplit => ?_)
  by_contra hend
  obtain ⟨blanks, rfl, hblanks⟩ := exists_of_finish hend
  refine hno ⟨u ++ text, blanks, ?_, hblanks⟩
  rw [List.append_assoc]
  exact congrArg (u ++ ·) hsplit

/-! ## Jumps and returns -/

/-- A jump: one word behind the keyword and blanks. -/
def jump : Pattern :=
  seq start (seq (literal "jump".toList) (seq (run isBlank)
    (seq (capture "target" (run (!isBlank ·))) trailing)))

/-- A return: the keyword, as a whole word. -/
def terminator : Pattern := seq start (seq (literal "return".toList) edge)

theorem attempt_target (text : List Char) :
    (seq (capture "target" (run (!isBlank ·))) trailing).attempt (some ·.captures)
        ⟨before, text, []⟩ =
      if text.takeWhile (!isBlank ·) ≠ [] then
        if (text.dropWhile (!isBlank ·)).all isBlank then
          some [("target", text.takeWhile (!isBlank ·))] else none
      else none := by
  show (capture "target" (run (!isBlank ·))).attempt (trailing.attempt (some ·.captures)) _ = _
  rw [attempt_capture_run, attempt_trailing]
  intro u c v captures _ _ _ hc
  have hblank : isBlank c = false := by simpa using hc
  rw [attempt_trailing, if_neg]
  simp [hblank]

theorem search_jump (code : List Char) :
    jump.search code = (jumpTarget? code).map fun target => [("target", target)] := by
  rw [jump, search_start, attempt, attempt_literal]
  unfold jumpTarget? afterKeyword?
  cases "jump".toList.isPrefixOf? code with
  | none => rfl
  | some rest =>
    show (run isBlank).attempt (attempt _ (some ·.captures)) ⟨_, rest, []⟩ =
      Option.map _ (if _ then _ else _)
    rw [attempt_run, attempt_target, ← leading, ← trimStart]
    · cases hgap : leading rest with
      | nil => rfl
      | cons c gap =>
        cases htarget : (trimStart rest).takeWhile (!isBlank ·) with
        | nil => rfl
        | cons d target =>
          rw [if_pos (List.cons_ne_nil c gap), if_pos (List.cons_ne_nil d target)]
          simp only [List.isEmpty_cons, Bool.or_self, Bool.false_eq_true, if_false]
          split
          · rfl
          · rfl
    · intro u c v _ _ _ hc
      rw [attempt_target]
      simp [hc]

theorem search_terminator (code : List Char) :
    (terminator.search code).isSome = isReturn code := by
  rw [terminator, search_start, attempt, attempt_literal]
  unfold isReturn afterKeyword?
  cases "return".toList.isPrefixOf? code with
  | none => rfl
  | some rest =>
    show (if Cursor.isEdge ⟨"return".toList.reverse ++ [], rest, []⟩ = true then some []
      else none).isSome = endsWord rest
    have hletters : "return".toList.all Char.isLower = true := by decide +kernel
    rw [List.append_nil, Cursor.isEdge_letters (by decide) (List.all_eq_true.1 hletters)]
    cases endsWord rest with
    | false => rfl
    | true => rfl

end Pattern

/-! ## Meanings -/

/-- The kind of a header, given what has been captured. -/
def Header.ofCaptures (captures : Captures) : Header :=
  match String.ofList ((captures.lookup "cmd").getD []) with
  | "label" => .label (String.ofList (labelName ((captures.lookup "arg").getD [])))
  | "menu" => .menu
  | "if" => .condition
  | "elif" => .branch .elif
  | "else" => .branch .otherwise
  | _ => .plain

/-- The meaning of a line whose indentation has been taken off, by the first pattern that is found
    in its code. -/
def matched (line : String) : Statement :=
  let split := splitComment line.toList
  match Pattern.header.search split.code with
  | some captures => .header (Header.ofCaptures captures)
  | none =>
    match (Pattern.jump.search split.code).bind (·.lookup "target") with
    | some target => .jump (String.ofList target)
    | none =>
      if (Pattern.terminator.search split.code).isSome then
        .terminate ((split.comment.map (occurs "dead".toList)).getD false)
      else .content line

theorem code_subset (line : List Char) : (splitComment line).code ⊆ line := by
  intro c hc
  rw [← splitComment_join line]
  exact List.mem_append_left _ hc

theorem headerText?_eq_some_iff {code text : List Char} :
    headerText? code = some text ↔ trimEnd code = text ++ [':'] := by
  unfold headerText?
  split
  · rename_i front hcode
    rw [List.reverse_eq_iff.1 hcode, List.reverse_cons, List.append_cancel_right_eq,
      Option.some_inj]
  · rename_i hcode
    refine iff_of_false (by simp) fun h => hcode text.reverse ?_
    rw [h, List.reverse_append]
    rfl

theorem contains_argument {text : List Char} (hline : '\n' ∉ text) :
    (trimStart (text.dropWhile Char.isLower)).contains '\n' = false := by
  refine Bool.eq_false_iff.2 fun hmem => hline ?_
  exact (List.dropWhile_suffix Char.isLower).subset
    (trimStart_subset _ (List.contains_iff_mem.1 hmem))

/-- The captured keyword and argument tell the kind of a header. -/
theorem ofCaptures_eq_headerOf {text : List Char} (hline : '\n' ∉ text) :
    Header.ofCaptures ((Pattern.commandCaptures? text).getD []) = headerOf text := by
  unfold headerOf Pattern.commandCaptures?
  dsimp only
  rw [contains_argument hline]
  cases endsWord (text.dropWhile Char.isLower) with
  | false => simp [Header.ofCaptures]
  | true =>
    cases text.takeWhile Char.isLower with
    | nil => simp [Header.ofCaptures]
    | cons c word =>
      rw [if_pos ⟨List.cons_ne_nil c word, rfl⟩]
      by_cases harg : trimStart (text.dropWhile Char.isLower) = []
      · rw [if_pos harg, harg]
        rfl
      · rw [if_neg harg]
        rfl

/-- Lines can be told apart by their patterns. -/
theorem matched_eq_statement {line : String} (hline : '\n' ∉ line.toList) :
    matched line = statement line := by
  have hcode : '\n' ∉ (splitComment line.toList).code := fun hmem => hline (code_subset _ hmem)
  unfold matched statement
  dsimp only
  cases htext : headerText? (splitComment line.toList).code with
  | some text =>
    obtain ⟨blanks, hsplit, hblanks⟩ :=
      (trimEnd_eq_concat_iff (by decide)).1 (headerText?_eq_some_iff.1 htext)
    have hline : '\n' ∉ text := fun hmem => hcode (hsplit ▸ List.mem_append_left _ hmem)
    rw [hsplit, Pattern.search_header hblanks hline]
    exact congrArg Statement.header (ofCaptures_eq_headerOf hline)
  | none =>
    have hnone : Pattern.header.search (splitComment line.toList).code = none := by
      by_contra hfound
      obtain ⟨text, hsplit⟩ := Pattern.exists_of_search_header hfound
      rw [headerText?_eq_some_iff.2 ((trimEnd_eq_concat_iff (by decide)).2 hsplit)] at htext
      cases htext
    have hjump : (Pattern.jump.search (splitComment line.toList).code).bind (·.lookup "target") =
        jumpTarget? (splitComment line.toList).code := by
      rw [Pattern.search_jump]
      cases jumpTarget? (splitComment line.toList).code with
      | none => rfl
      | some target => rfl
    cases htarget : jumpTarget? (splitComment line.toList).code with
    | none => simp only [hnone, hjump, htarget, Pattern.search_terminator]
    | some target => simp only [hnone, hjump, htarget]

end Playthrough.Script
