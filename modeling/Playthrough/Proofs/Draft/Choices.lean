import Playthrough.Draft.Align
import Playthrough.Proofs.Draft.Indent
import Playthrough.Script.Statement

/-!
# What stands in a menu

The choices of a menu are the plain headers that stand directly in its body. Which lines these are
can be seen from the lines alone: the body behind a header goes on for as long as the lines carry
the indentation of its first line, and a line stands directly in it if it has no more than that.

* `stated`, `header?`: what a line says, its indentation aside.
* `parts`: the headers directly in a body.
* `menus`: the menus of a script, each with the headers directly in it.
* `HasChoices`, `EndsInChoices`: what all menus of a script may be like.
* `parts_concat`: what one more line adds to a body.
* `parts_ended`: a line with less indentation ends a body.
-/

namespace Playthrough.Script

open Text

/-- The indentation of a line. -/
def margin (line : String) : List Char := leading line.toList

/-- What a line says, its indentation aside. -/
def stated (line : String) : Statement := statement (String.ofList (trimStart line.toList))

/-- Whether play leaves the body that a statement stands in. -/
def Statement.leaves : Statement → Bool
  | .jump _ => true
  | .terminate _ => true
  | _ => false

/-- The header that a statement is, if it is one. -/
def Statement.header? : Statement → Option Header
  | .header kind => some kind
  | _ => none

/-- The headers directly in a body, given the lines behind its own header. -/
def parts : List String → List Header
  | [] => []
  | first :: rest =>
    let body := (first :: rest).takeWhile fun line => (margin first).isPrefixOf line.toList
    (body.filter fun line => margin line = margin first).filterMap fun line => (stated line).header?

/-- The menus of a script, each with the headers directly in it. -/
def menus : List String → List (List Header)
  | [] => []
  | line :: rest =>
    if stated line = .header .menu then parts rest :: menus rest else menus rest

/-- Every menu of a script has a choice. -/
def HasChoices (script : List String) : Prop := ∀ body ∈ menus script, .plain ∈ body

/-- A choice comes last in every menu of a script. -/
def EndsInChoices (script : List String) : Prop :=
  ∀ body ∈ menus script, body.getLast? = some .plain

theorem mem_menus {header : String} {body script : List String}
    (h : header :: body <:+ script) (hmenu : stated header = .header .menu) :
    parts body ∈ menus script := by
  induction script with
  | nil => simp at h
  | cons line rest ih =>
    rw [menus]
    rcases List.suffix_cons_iff.1 h with heq | hrest
    · obtain ⟨rfl, rfl⟩ := List.cons.inj heq
      rw [if_pos hmenu]
      exact List.mem_cons_self
    · split
      · exact List.mem_cons_of_mem _ (ih hrest)
      · exact ih hrest

/-! ## Lines of a body -/

/-- The lines all carry an indentation, which is that of the first. -/
structure Carries (indent : List Char) (lines : List String) : Prop where
  first : ∀ line ∈ lines.head?, margin line = indent
  all : ∀ line ∈ lines, indent <+: line.toList

theorem Carries.of_append {indent : List Char} {front back : List String}
    (h : Carries indent (front ++ back)) : Carries indent front := by
  refine ⟨?_, fun line hline => h.all line (List.mem_append_left _ hline)⟩
  cases front with
  | nil => simp
  | cons first front => exact h.first

/-- In a body that no line ends, every line with the indentation of the first counts. -/
theorem Carries.parts_eq {indent : List Char} {lines : List String} (h : Carries indent lines) :
    parts lines = (lines.filter fun line => margin line = indent).filterMap fun line =>
      (stated line).header? := by
  cases lines with
  | nil => rfl
  | cons first rest =>
    have hfirst : margin first = indent := h.first first rfl
    rw [parts, hfirst]
    rw [List.takeWhile_eq_self_iff.2 fun line hline =>
      List.isPrefixOf_iff_prefix.2 (h.all line hline)]

/-- What one more line adds to a body. -/
theorem parts_concat {indent : List Char} {body : List String} {line : String}
    (h : Carries indent (body ++ [line])) :
    parts (body ++ [line]) =
      parts body ++ if margin line = indent then (stated line).header?.toList else [] := by
  rw [h.parts_eq, h.of_append.parts_eq, List.filter_append, List.filterMap_append]
  congr 1
  by_cases hmargin : margin line = indent
  · simp only [List.filter_cons, hmargin, decide_true, if_true, List.filter_nil]
    cases hheader : (stated line).header? <;> simp [hheader]
  · simp [hmargin]

/-- A line with less indentation ends a body. -/
theorem parts_ended {indent : List Char} {body : List String} (hbody : body ≠ [])
    (h : Carries indent body) {line : String} (hline : ¬ indent <+: line.toList)
    (more : List String) : parts (body ++ line :: more) = parts body := by
  cases body with
  | nil => exact absurd rfl hbody
  | cons first rest =>
    have hfirst : margin first = indent := h.first first rfl
    have hall : ∀ other ∈ first :: rest, indent.isPrefixOf other.toList = true :=
      fun other hother => List.isPrefixOf_iff_prefix.2 (h.all other hother)
    have hfalse : indent.isPrefixOf line.toList = false := by
      rw [← Bool.not_eq_true, List.isPrefixOf_iff_prefix]
      exact hline
    have hbody : ((first :: rest) ++ line :: more).takeWhile
        (fun other => indent.isPrefixOf other.toList) = first :: rest := by
      rw [List.takeWhile_append_of_pos hall, List.takeWhile_cons_of_neg (by simp [hfalse]),
        List.append_nil]
    rw [h.parts_eq, List.cons_append, parts, hfirst, ← List.cons_append, hbody]

end Playthrough.Script
