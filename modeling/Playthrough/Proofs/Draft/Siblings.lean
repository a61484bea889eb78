import Playthrough.Proofs.Draft.Choices
import Mathlib

/-!
# What stands next to a line

Which statements stand in the same body as a line can be seen from the lines alone. Going back from
the line, the body reaches as far as the lines carry its indentation, and of these the ones with no
more than that stand directly in it. Lines without code do not count.

A line is given by the part of the script that ends with it, so that what had been read by then is
known as well.

* `beginnings`: the parts of a script that end with a line with code.
* `siblings`: of these, the ones that end in the body that is open at an indentation.
* `Follows`: the last of them ends with a header of a chain of conditions.
* `headers`: the headers of this chain, given that there is one.
* `siblings_concat_same`, `headers_concat`: what one more line changes.
-/

namespace Playthrough.Script

open Text

/-- The last line. -/
def lastText (read : List (String × Nat)) : String := (read.getLast?.map Prod.fst).getD ""

@[simp] theorem lastText_concat (read : List (String × Nat)) (line : String × Nat) :
    lastText (read ++ [line]) = line.1 := by
  simp [lastText]

/-- The parts of a script, from its start on, that end with a line with code. -/
def beginnings (read : List (String × Nat)) : List (List (String × Nat)) :=
  read.inits.filter fun part => !isBlankLine (lastText part).toList

theorem beginnings_nil : beginnings [] = [] := rfl

theorem beginnings_concat (read : List (String × Nat)) (line : String × Nat) :
    beginnings (read ++ [line]) =
      beginnings read ++ if isBlankLine line.1.toList then [] else [read ++ [line]] := by
  cases hblank : isBlankLine line.1.toList <;> simp [beginnings, List.inits_append, hblank]

/-! ## Siblings -/

/-- The statements that stand directly in the body that is open at an indentation. -/
def siblings (indent : List Char) (read : List (String × Nat)) : List (List (String × Nat)) :=
  ((beginnings read).rtakeWhile fun part => indent.isPrefixOf (lastText part).toList).filter
    fun part => margin (lastText part) = indent

section Siblings

variable {indent : List Char} {read : List (String × Nat)} {line : String × Nat}

theorem siblings_nil (indent : List Char) : siblings indent [] = [] := by
  rw [siblings, beginnings_nil, List.rtakeWhile_nil, List.filter_nil]

/-- Lines without code change nothing. -/
theorem siblings_concat_blank (hblank : isBlankLine line.1.toList = true) :
    siblings indent (read ++ [line]) = siblings indent read := by
  rw [siblings, beginnings_concat, if_pos hblank, List.append_nil, siblings]

theorem siblings_concat_code (hcode : isBlankLine line.1.toList = false) :
    siblings indent (read ++ [line]) =
      if indent <+: line.1.toList then
        if margin line.1 = indent then siblings indent read ++ [read ++ [line]]
        else siblings indent read
      else [] := by
  have hend : beginnings (read ++ [line]) = beginnings read ++ [read ++ [line]] := by
    rw [beginnings_concat, if_neg (by simp [hcode])]
  rw [siblings, hend, List.rtakeWhile_concat, lastText_concat]
  simp only [List.isPrefixOf_iff_prefix]
  split
  · rw [List.filter_append]
    by_cases hmargin : margin line.1 = indent <;> simp [siblings, hmargin]
  · rfl

/-- A line stands next to those that stood in its body before. -/
theorem siblings_concat_same (hcode : isBlankLine line.1.toList = false)
    (hmargin : margin line.1 = indent) :
    siblings indent (read ++ [line]) = siblings indent read ++ [read ++ [line]] := by
  have hcarries : indent <+: line.1.toList := hmargin ▸ List.takeWhile_prefix _
  rw [siblings_concat_code hcode, if_pos hcarries, if_pos hmargin]

/-- A line that stands deeper in a body is no statement of its own there. -/
theorem siblings_concat_deeper (hcode : isBlankLine line.1.toList = false)
    (hcarries : indent <+: line.1.toList) (hmargin : margin line.1 ≠ indent) :
    siblings indent (read ++ [line]) = siblings indent read := by
  rw [siblings_concat_code hcode, if_pos hcarries, if_neg hmargin]

/-- A line with less indentation ends a body. -/
theorem siblings_concat_less (hcode : isBlankLine line.1.toList = false)
    (hcarries : ¬ indent <+: line.1.toList) : siblings indent (read ++ [line]) = [] := by
  rw [siblings_concat_code hcode, if_neg hcarries]

end Siblings

/-- There is code on the line of a header. -/
theorem isCode_of_header {line : String} {header : Header} (h : stated line = .header header) :
    isBlankLine line.toList = false := by
  rw [← leading_append_trimStart line.toList,
    isBlankLine_blanks (fun _ => isBlank_of_mem_leading), ← Bool.not_eq_true]
  intro hblank
  -- code that is all blanks has no colon at its end
  have hnone : headerText? (splitComment (trimStart line.toList)).code = none := by
    have hall : ∀ c ∈ (splitComment (trimStart line.toList)).code.reverse, isBlank c = true :=
      fun c hc => List.all_eq_true.1 hblank c (List.mem_reverse.1 hc)
    rw [headerText?, trimEnd, List.reverse_reverse, List.dropWhile_eq_nil_iff.2 hall]
  rw [stated, statement, String.toList_ofList] at h
  simp only [hnone] at h
  split at h
  · cases h
  · split at h <;> cases h

/-! ## Chains of conditions -/

/-- The kind of further branch that a statement is the header of, if it is one. -/
def Statement.branch? : Statement → Option Branch
  | .header (.branch kind) => some kind
  | _ => none

/-- Whether a statement is a header of a chain of conditions. -/
def Statement.inChain (statement : Statement) : Bool :=
  statement == .header .condition || statement.branch?.isSome

/-- The last line is the header of a further branch. -/
def isBranch (part : List (String × Nat)) : Bool := (stated (lastText part)).branch?.isSome

/-- The last line is the header of the branch for the case that no condition holds. -/
def isElse (part : List (String × Nat)) : Bool :=
  (stated (lastText part)).branch? == some .otherwise

/-- The last statement directly in the body that is open at an indentation is a header of a chain of
    conditions. -/
def Follows (indent : List Char) (read : List (String × Nat)) : Prop :=
  ∃ part ∈ (siblings indent read).getLast?, (stated (lastText part)).inChain = true

instance (indent : List Char) (read : List (String × Nat)) : Decidable (Follows indent read) :=
  inferInstanceAs (Decidable (∃ part ∈ (siblings indent read).getLast?, _ = true))

/-- The last statement that is no further branch, and the further branches behind it. -/
def lastChain (parts : List (List (String × Nat))) : List (List (String × Nat)) :=
  (parts.rdropWhile isBranch).getLast?.toList ++ parts.rtakeWhile isBranch

theorem lastChain_concat (parts : List (List (String × Nat))) (part : List (String × Nat)) :
    lastChain (parts ++ [part]) = if isBranch part then lastChain parts ++ [part] else [part] := by
  rw [lastChain, List.rdropWhile_concat, List.rtakeWhile_concat]
  split <;> simp [lastChain]

/-- The headers of the chain of conditions that was last in the body open at an indentation. -/
def headers (indent : List Char) (read : List (String × Nat)) : List (List (String × Nat)) :=
  lastChain (siblings indent read)

section Headers

variable {indent : List Char} {read : List (String × Nat)} {line : String × Nat}

theorem follows_congr {read' : List (String × Nat)}
    (h : siblings indent read' = siblings indent read) :
    Follows indent read' ↔ Follows indent read := by
  rw [Follows, Follows, h]

/-- The last statement of a body is the one on the last line that stands directly in it. -/
theorem follows_concat (hcode : isBlankLine line.1.toList = false)
    (hmargin : margin line.1 = indent) :
    Follows indent (read ++ [line]) ↔ (stated line.1).inChain = true := by
  rw [Follows, siblings_concat_same hcode hmargin, List.getLast?_concat]
  simp

/-- The first line of a body follows nothing. -/
theorem not_follows_of_less (hcode : isBlankLine line.1.toList = false)
    (hcarries : ¬ indent <+: line.1.toList) : ¬ Follows indent (read ++ [line]) := by
  rw [Follows, siblings_concat_less hcode hcarries]
  simp

theorem headers_concat (hcode : isBlankLine line.1.toList = false)
    (hmargin : margin line.1 = indent) :
    headers indent (read ++ [line]) =
      if (stated line.1).branch?.isSome then headers indent read ++ [read ++ [line]]
      else [read ++ [line]] := by
  rw [headers, siblings_concat_same hcode hmargin, lastChain_concat, isBranch, lastText_concat]
  rfl

/-- A chain starts with its first condition. -/
theorem headers_condition {text : String} (number : Nat) (hcode : isBlankLine text.toList = false)
    (hstated : stated text = .header .condition) :
    headers (margin text) (read ++ [(text, number)]) = [read ++ [(text, number)]] := by
  have hheaders : headers (margin text) (read ++ [(text, number)]) = _ := headers_concat hcode rfl
  rw [hheaders, hstated]
  rfl

/-- A further branch goes on with the chain before it. -/
theorem headers_branch {text : String} (number : Nat) (hcode : isBlankLine text.toList = false)
    {kind : Branch} (hstated : stated text = .header (.branch kind)) :
    headers (margin text) (read ++ [(text, number)]) =
      headers (margin text) read ++ [read ++ [(text, number)]] := by
  have hheaders : headers (margin text) (read ++ [(text, number)]) = _ := headers_concat hcode rfl
  rw [hheaders, hstated]
  rfl

end Headers

end Playthrough.Script
