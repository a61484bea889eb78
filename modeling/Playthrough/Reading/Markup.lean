import Playthrough.Decimal.Literal

/-!
# Markup in spoken lines

The text of a line may hold tags between braces and insertions between brackets. They are not read
on the screen. A tag that waits, such as a `w` or a `p` with a number of seconds, adds to the time
of the line.

* `pieces`: a text cut into plain characters and marked parts.
* `spoken`: what is read on the screen.
* `waits`: the seconds of the waiting tags.
-/

namespace Playthrough.Reading

open Decimal

/-- A part of a text. -/
inductive Piece where
  | char (c : Char)
  /-- A tag, without its braces. -/
  | tag (inner : List Char)
  /-- An insertion, without its brackets. -/
  | insertion (inner : List Char)
  deriving DecidableEq, Repr

/-- The inside of a marked part and what follows it, given the text behind its opening mark. The
    inside has one character at least, and its first character is not a second opening mark. -/
def marked? (opening closing : Char) : List Char → Option (List Char × List Char)
  | [] => none
  | c :: cs =>
    if c = opening then none
    else
      match cs.dropWhile (· ≠ closing) with
      | [] => none
      | _ :: rest => some (c :: cs.takeWhile (· ≠ closing), rest)

theorem length_rest_lt {opening closing : Char} {cs inner rest : List Char}
    (h : marked? opening closing cs = some (inner, rest)) : rest.length < cs.length := by
  unfold marked? at h
  split at h
  · simp at h
  · split at h
    · simp at h
    · split at h
      · simp at h
      · rename_i c cs _ _ d rest' hdrop
        simp only [Option.some.injEq, Prod.mk.injEq] at h
        have hle : (d :: rest').length ≤ cs.length :=
          hdrop ▸ (List.dropWhile_suffix _).length_le
        rw [← h.2]
        simp only [List.length_cons] at hle ⊢
        omega

/-- Cuts a text into plain characters and marked parts. Stands for the pattern `MARKUP`. -/
def pieces (text : List Char) : List Piece :=
  match text with
  | [] => []
  | c :: cs =>
    match _marked : if c = '\x7b' then marked? '\x7b' '\x7d' cs else none with
    | some (inner, rest) => .tag inner :: pieces rest
    | none =>
      match _marked : if c = '[' then marked? '[' ']' cs else none with
      | some (inner, rest) => .insertion inner :: pieces rest
      | none => .char c :: pieces cs
termination_by text.length
decreasing_by
  · split at _marked
    · exact Nat.lt_succ_of_lt (length_rest_lt _marked)
    · simp at _marked
  · split at _marked
    · exact Nat.lt_succ_of_lt (length_rest_lt _marked)
    · simp at _marked
  · exact Nat.lt_succ_self _

/-- The plain character of a piece. -/
def Piece.char? : Piece → Option Char
  | .char c => some c
  | _ => none

/-- Undoes the escapes of quotes. Other escapes stay as they are. -/
def unescapeQuotes : List Char → List Char
  | '\\' :: '"' :: rest => '"' :: unescapeQuotes rest
  | c :: rest => c :: unescapeQuotes rest
  | [] => []

/-- What is read on the screen. -/
def spoken (pieces : List Piece) : List Char := unescapeQuotes (pieces.filterMap Piece.char?)

/-- The duration in a waiting tag. Stands for the pattern `WAIT_TAG`. -/
def waitTag? : Piece → Option Duration
  | .tag (kind :: '=' :: rest) =>
    if kind = 'w' || kind = 'p' then
      match Duration.readPrefix? rest with
      | some (duration, []) => some duration
      | _ => none
    else none
  | _ => none

/-- The seconds of the waiting tags together. A duration that has no value counts as zero. -/
def waits {κ : Type} [Zero κ] [Add κ] [OfScientific κ] (pieces : List Piece) : κ :=
  (pieces.filterMap waitTag?).foldl (fun sum duration => sum + (duration.value?).getD 0) 0

end Playthrough.Reading
