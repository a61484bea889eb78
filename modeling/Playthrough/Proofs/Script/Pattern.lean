import Mathlib
import Playthrough.Script.Statement

/-!
# Patterns

Lines can also be told apart by patterns, which are tried from left to right, each part with as many
characters as possible, and which go back to the last choice when a later part does not fit. What a
pattern captures then depends on which way of fitting is found first.

* `Pattern`, `Pattern.attempt`: patterns, and the first way in which one fits at a cursor.
* `Pattern.search`: what a pattern captures where it first fits.
* `runMany_eq`, `runMany_longest`: where a run of characters ends, if the rest of the pattern fits
  in one way only.
* `Pattern.attempt_eq_none`: a pattern does not fit if nothing fits behind it.
* `Pattern.search_start`, `Pattern.exists_of_searchFrom`: where patterns are found.
-/

namespace Playthrough.Script

open Text

/-- A pattern for a part of a text. -/
inductive Pattern where
  /-- One character of a class. -/
  | one (p : Char → Bool)
  /-- Any number of characters of a class, more rather than fewer. -/
  | many (p : Char → Bool)
  /-- The start of the text. -/
  | start
  /-- The end of the text. -/
  | stop
  /-- The place between a character of a word and one outside of it. -/
  | edge
  /-- Nothing. -/
  | skip
  | seq (first second : Pattern)
  /-- The first pattern, or else the second. -/
  | either (first second : Pattern)
  | capture (name : String) (inner : Pattern)
  /-- Any number of times the same pattern, which takes up a character at least; more times rather
      than fewer. -/
  | star (inner : Pattern)

/-- The texts captured so far, by name. -/
abbrev Captures := List (String × List Char)

/-- A place in a text. -/
structure Cursor where
  /-- The characters in front, the last one first. -/
  before : List Char
  rest : List Char
  captures : Captures

/-- The text between two places. -/
def Cursor.passed (first last : Cursor) : List Char :=
  (last.before.take (last.before.length - first.before.length)).reverse

theorem Cursor.passed_eq (before rest u v : List Char) (captures captures' : Captures) :
    Cursor.passed ⟨before, rest, captures⟩ ⟨u.reverse ++ before, v, captures'⟩ = u := by
  simp [Cursor.passed, List.take_left']

/-- Whether there is a character of a word on one side only. -/
def Cursor.isEdge (cursor : Cursor) : Bool :=
  cursor.before.head?.any isWordChar != cursor.rest.head?.any isWordChar

/-- Passes characters of a class, and comes back to fewer of them as long as `next` fails. -/
def runMany {ρ : Type} (p : Char → Bool) (next : Cursor → Option ρ) (captures : Captures) :
    (before rest : List Char) → Option ρ
  | before, [] => next ⟨before, [], captures⟩
  | before, c :: rest =>
    if p c then
      (runMany p next captures (c :: before) rest).or (next ⟨before, c :: rest, captures⟩)
    else next ⟨before, c :: rest, captures⟩

/-- Fits a pattern, given by how it is tried, up to `count` times, and comes back to fewer times as
    long as `next` fails. -/
def runStar {ρ : Type} (once : (Cursor → Option ρ) → Cursor → Option ρ)
    (next : Cursor → Option ρ) : (count : Nat) → Cursor → Option ρ
  | 0, cursor => next cursor
  | count + 1, cursor => (once (runStar once next count) cursor).or (next cursor)

namespace Pattern

variable {ρ : Type}

/-- Fits a pattern at a cursor so that `next` succeeds behind it, in the first way there is. -/
def attempt : Pattern → (next : Cursor → Option ρ) → Cursor → Option ρ
  | one p, next, cursor =>
    match cursor.rest with
    | [] => none
    | c :: rest => if p c then next ⟨c :: cursor.before, rest, cursor.captures⟩ else none
  | many p, next, cursor => runMany p next cursor.captures cursor.before cursor.rest
  | start, next, cursor => if cursor.before = [] then next cursor else none
  | stop, next, cursor => if cursor.rest = [] then next cursor else none
  | edge, next, cursor => if cursor.isEdge then next cursor else none
  | skip, next, cursor => next cursor
  | seq first second, next, cursor => first.attempt (second.attempt next) cursor
  | either first second, next, cursor =>
    (first.attempt next cursor).or (second.attempt next cursor)
  | capture name inner, next, cursor =>
    inner.attempt (fun last =>
      next { last with captures := (name, cursor.passed last) :: last.captures }) cursor
  | star inner, next, cursor => runStar inner.attempt next cursor.rest.length cursor

/-- Looks for a pattern from a cursor on. -/
def searchFrom (pattern : Pattern) : (before rest : List Char) → Option Captures
  | before, [] => pattern.attempt (some ·.captures) ⟨before, [], []⟩
  | before, c :: rest =>
    (pattern.attempt (some ·.captures) ⟨before, c :: rest, []⟩).or
      (pattern.searchFrom (c :: before) rest)

/-- What a pattern captures where it first fits in a text. -/
def search (pattern : Pattern) (text : List Char) : Option Captures := pattern.searchFrom [] text

end Pattern

/-! ## Runs -/

section Runs

variable {ρ : Type} {p : Char → Bool} {next : Cursor → Option ρ} {captures : Captures}
  {before rest front back : List Char}

/-- What holds of the results of `next` behind a run of any length holds of the first result. -/
theorem runMany_induction {motive : Option ρ → Prop}
    (h : ∀ u v, rest = u ++ v → (∀ c ∈ u, p c = true) →
      motive (next ⟨u.reverse ++ before, v, captures⟩)) :
    motive (runMany p next captures before rest) := by
  induction rest generalizing before with
  | nil => exact h [] [] rfl (by simp)
  | cons c rest ih =>
    have hhere : motive (next ⟨before, c :: rest, captures⟩) := h [] (c :: rest) rfl (by simp)
    rw [runMany]
    split
    · rename_i hc
      have hfurther : motive (runMany p next captures (c :: before) rest) := by
        refine ih fun u v hsplit hu => ?_
        have := h (c :: u) v (by rw [hsplit]; rfl) (List.forall_mem_cons.2 ⟨hc, hu⟩)
        simpa using this
      cases hrun : runMany p next captures (c :: before) rest with
      | none => exact hhere
      | some result =>
        rw [hrun] at hfurther
        exact hfurther
    · exact hhere

theorem runMany_eq_none (h : ∀ u v, rest = u ++ v → (∀ c ∈ u, p c = true) →
    next ⟨u.reverse ++ before, v, captures⟩ = none) :
    runMany p next captures before rest = none :=
  runMany_induction (motive := (· = none)) h

/-- A run ends where the rest of the pattern fits, if there is one such place. -/
theorem runMany_eq (hfront : ∀ c ∈ front, p c = true)
    (h : ∀ u v, front ++ back = u ++ v → (∀ c ∈ u, p c = true) → u ≠ front →
      next ⟨u.reverse ++ before, v, captures⟩ = none) :
    runMany p next captures before (front ++ back) =
      next ⟨front.reverse ++ before, back, captures⟩ := by
  induction front generalizing before with
  | nil =>
    cases back with
    | nil => rfl
    | cons c back =>
      rw [List.nil_append, runMany]
      split
      · rename_i hc
        have hfurther : runMany p next captures (c :: before) back = none := by
          refine runMany_eq_none fun u v hsplit hu => ?_
          have hnone := h (c :: u) v (by rw [hsplit]; rfl) (List.forall_mem_cons.2 ⟨hc, hu⟩)
            (by simp)
          simpa using hnone
        rw [hfurther, Option.none_or]
        rfl
      · rfl
  | cons c front ih =>
    have hhere : next ⟨before, c :: (front ++ back), captures⟩ = none :=
      h [] _ rfl (by simp) (by simp)
    rw [List.cons_append, runMany, if_pos (hfront c List.mem_cons_self), hhere, Option.or_none, ih]
    · simp
    · exact fun d hd => hfront d (List.mem_cons_of_mem c hd)
    · intro u v hsplit hu hne
      have hnone := h (c :: u) v (by rw [List.cons_append, hsplit]; rfl)
        (List.forall_mem_cons.2 ⟨hfront c List.mem_cons_self, hu⟩) (by simpa using hne)
      simpa using hnone

/-- A run goes on to its end, if the rest of the pattern does not fit before. -/
theorem runMany_longest (h : ∀ u c v, rest = u ++ c :: v → (∀ d ∈ u, p d = true) → p c = true →
    next ⟨u.reverse ++ before, c :: v, captures⟩ = none) :
    runMany p next captures before rest =
      next ⟨(rest.takeWhile p).reverse ++ before, rest.dropWhile p, captures⟩ := by
  induction rest generalizing before with
  | nil => rfl
  | cons c rest ih =>
    cases hc : p c with
    | false => simp [runMany, hc]
    | true =>
      have hhere : next ⟨before, c :: rest, captures⟩ = none := h [] c rest rfl (by simp) hc
      rw [runMany, if_pos hc, hhere, Option.or_none, ih]
      · simp [hc]
      · intro u d v hsplit hu hd
        have hnone := h (c :: u) d v (by rw [hsplit]; rfl) (List.forall_mem_cons.2 ⟨hc, hu⟩) hd
        simpa using hnone

end Runs

namespace Pattern

variable {ρ : Type} {next : Cursor → Option ρ} {before rest : List Char} {captures : Captures}

/-! ## Parts of patterns -/

/-- A pattern does not fit if nothing fits behind it. -/
theorem attempt_eq_none (pattern : Pattern) {cursor : Cursor}
    (h : ∀ u v captures, cursor.rest = u ++ v →
      next ⟨u.reverse ++ cursor.before, v, captures⟩ = none) :
    pattern.attempt next cursor = none := by
  have hhere : next cursor = none := h [] cursor.rest cursor.captures rfl
  induction pattern generalizing next cursor with
  | one p =>
    unfold attempt
    split
    · rfl
    · rename_i c rest hrest
      split
      · exact h [c] rest _ hrest
      · rfl
  | many p => exact runMany_eq_none fun u v hsplit _ => h u v _ hsplit
  | start => rw [attempt, hhere, ite_self]
  | stop => rw [attempt, hhere, ite_self]
  | edge => rw [attempt, hhere, ite_self]
  | skip => exact hhere
  | seq first second ihfirst ihsecond =>
    have hsecond : ∀ u v captures, cursor.rest = u ++ v →
        second.attempt next ⟨u.reverse ++ cursor.before, v, captures⟩ = none := by
      intro u v captures hsplit
      refine ihsecond (fun u' v' captures' hsplit' => ?_) (h u v captures hsplit)
      have hrest : cursor.rest = u ++ u' ++ v' := by
        rw [hsplit, List.append_assoc]
        exact congrArg (u ++ ·) hsplit'
      simpa using h (u ++ u') v' captures' hrest
    exact ihfirst hsecond (hsecond [] cursor.rest cursor.captures rfl)
  | either first second ihfirst ihsecond =>
    rw [attempt, ihfirst h hhere, ihsecond h hhere, Option.or_none]
  | capture name inner ih =>
    exact ih (fun u v captures hsplit => h u v _ hsplit) (h [] cursor.rest _ rfl)
  | star inner ih =>
    suffices hstar : ∀ count u v captures, cursor.rest = u ++ v →
        runStar inner.attempt next count ⟨u.reverse ++ cursor.before, v, captures⟩ = none from
      hstar cursor.rest.length [] cursor.rest cursor.captures rfl
    intro count
    induction count with
    | zero => exact h
    | succ count ihcount =>
      intro u v captures hsplit
      rw [runStar, h u v captures hsplit, Option.or_none]
      refine ih (fun u' v' captures' hsplit' => ?_) (ihcount u v captures hsplit)
      have hrest : cursor.rest = u ++ u' ++ v' := by
        rw [hsplit, List.append_assoc]
        exact congrArg (u ++ ·) hsplit'
      simpa using ihcount (u ++ u') v' captures' hrest

/-- One or more characters of a class. -/
def run (p : Char → Bool) : Pattern := seq (one p) (many p)

/-- A run goes on to its end, if the rest of the pattern does not fit before. -/
theorem attempt_run {p : Char → Bool} (h : ∀ u c v, rest = u ++ c :: v → u ≠ [] →
    (∀ d ∈ u, p d = true) → p c = true → next ⟨u.reverse ++ before, c :: v, captures⟩ = none) :
    (run p).attempt next ⟨before, rest, captures⟩ =
      if rest.takeWhile p ≠ [] then
        next ⟨(rest.takeWhile p).reverse ++ before, rest.dropWhile p, captures⟩
      else none := by
  cases rest with
  | nil => rfl
  | cons c rest =>
    show (if p c = true then runMany p next captures (c :: before) rest else none) = _
    cases hc : p c with
    | false => simp [hc]
    | true =>
      rw [if_pos rfl, runMany_longest]
      · simp [hc]
      · intro u d v hsplit hu hd
        have hnone := h (c :: u) d v (by rw [hsplit]; rfl) (List.cons_ne_nil c u)
          (List.forall_mem_cons.2 ⟨hc, hu⟩) hd
        simpa using hnone

theorem attempt_capture_run {p : Char → Bool} {name : String}
    (h : ∀ u c v captures, rest = u ++ c :: v → u ≠ [] → (∀ d ∈ u, p d = true) → p c = true →
      next ⟨u.reverse ++ before, c :: v, captures⟩ = none) :
    (capture name (run p)).attempt next ⟨before, rest, captures⟩ =
      if rest.takeWhile p ≠ [] then
        next ⟨(rest.takeWhile p).reverse ++ before, rest.dropWhile p,
          (name, rest.takeWhile p) :: captures⟩
      else none := by
  rw [attempt, attempt_run, Cursor.passed_eq]
  exact fun u c v => h u c v _

/-- The given characters. -/
def literal (word : List Char) : Pattern := word.foldr (fun c => seq (one (· = c))) skip

theorem attempt_literal (word : List Char) :
    (literal word).attempt next ⟨before, rest, captures⟩ =
      (word.isPrefixOf? rest).bind fun rest => next ⟨word.reverse ++ before, rest, captures⟩ := by
  induction word generalizing before rest with
  | nil => cases rest <;> rfl
  | cons c word ih =>
    cases rest with
    | nil => rfl
    | cons d rest =>
      show (if decide (d = c) then (literal word).attempt next ⟨d :: before, rest, captures⟩
        else none) = _
      by_cases hd : d = c
      · subst hd
        simp [ih, List.isPrefixOf?]
      · have hne : (c == d) = false := by simpa using Ne.symm hd
        simp [List.isPrefixOf?, hd, hne]

/-- Characters of a class up to the end of the text. -/
def toEnd (p : Char → Bool) : Pattern := seq (many p) stop

theorem attempt_toEnd (p : Char → Bool) : (toEnd p).attempt next ⟨before, rest, captures⟩ =
    if rest.all p then next ⟨rest.reverse ++ before, [], captures⟩ else none := by
  have hstop : ∀ before (rest : List Char), rest ≠ [] →
      stop.attempt next ⟨before, rest, captures⟩ = none := fun _ _ hrest => if_neg hrest
  show runMany p (stop.attempt next) captures before rest = _
  split
  · rename_i hall
    have hrun : runMany p (stop.attempt next) captures before (rest ++ []) =
        stop.attempt next ⟨rest.reverse ++ before, [], captures⟩ := by
      refine runMany_eq (List.all_eq_true.1 hall) fun u v hsplit _ hne => hstop _ _ ?_
      rintro rfl
      exact hne (by simpa using hsplit.symm)
    rw [List.append_nil] at hrun
    rw [hrun]
    exact if_pos rfl
  · rename_i hall
    refine runMany_eq_none fun u v hsplit hu => hstop _ _ ?_
    rintro rfl
    rw [List.append_nil] at hsplit
    exact hall (List.all_eq_true.2 (hsplit ▸ hu))

/-- Blanks up to the end of the text. -/
def trailing : Pattern := seq (many isBlank) stop

theorem attempt_trailing : trailing.attempt next ⟨before, rest, captures⟩ =
    if rest.all isBlank then next ⟨rest.reverse ++ before, [], captures⟩ else none :=
  attempt_toEnd isBlank

/-! ## Looking for patterns -/

theorem searchFrom_of_attempt {pattern : Pattern}
    (h : pattern.attempt (some ·.captures) ⟨before, rest, []⟩ = some captures) :
    pattern.searchFrom before rest = some captures := by
  cases rest with
  | nil => exact h
  | cons c rest =>
    rw [searchFrom, h]
    rfl

/-- A pattern is found only where it fits. -/
theorem exists_of_searchFrom {pattern : Pattern} (h : pattern.searchFrom before rest ≠ none) :
    ∃ u v, rest = u ++ v ∧
      pattern.attempt (some ·.captures) ⟨u.reverse ++ before, v, []⟩ ≠ none := by
  induction rest generalizing before with
  | nil => exact ⟨[], [], rfl, h⟩
  | cons c rest ih =>
    by_cases hhere : pattern.attempt (some ·.captures) ⟨before, c :: rest, []⟩ = none
    · rw [searchFrom, hhere, Option.none_or] at h
      obtain ⟨u, v, rfl, hfits⟩ := ih h
      exact ⟨c :: u, v, rfl, by simpa using hfits⟩
    · exact ⟨[], c :: rest, rfl, hhere⟩

/-- A pattern that is bound to the start is looked for there only. -/
theorem search_start (pattern : Pattern) (text : List Char) :
    (seq start pattern).search text = pattern.attempt (some ·.captures) ⟨[], text, []⟩ := by
  cases text with
  | nil => rfl
  | cons c text =>
    have hbehind : (seq start pattern).searchFrom [c] text = none := by
      by_contra hfound
      obtain ⟨u, v, -, hfits⟩ := exists_of_searchFrom hfound
      exact hfits (if_neg (by simp))
    rw [search, searchFrom, hbehind, Option.or_none]
    rfl

end Pattern

end Playthrough.Script
