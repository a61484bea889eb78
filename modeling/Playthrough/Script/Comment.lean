/-!
# Comments

A comment runs from a `#` to the end of the line. A `#` between quotes starts no comment. Single and
double quotes both delimit quoted text, and a backslash inside them takes the next character as it
is.

* `splitComment`: the code of a line and its comment.
* `splitComment_join`: code and comment together are the line.
-/

namespace Playthrough.Script

/-- A line cut in two: its code, and the comment with its `#` if there is one. -/
structure Split where
  code : List Char
  comment : Option (List Char)
  deriving DecidableEq, Repr

/-- Puts a character in front of the code. -/
def Split.cons (c : Char) (split : Split) : Split := { split with code := c :: split.code }

/-- The line that was cut. -/
def Split.join (split : Split) : List Char := split.code ++ split.comment.getD []

/-- Whether a character opens quoted text. -/
def isQuote (c : Char) : Bool := c = '"' || c = '\''

/-- Cuts the rest of a line; `quote` is the quote it starts inside of, if any. -/
def splitFrom : (quote : Option Char) → List Char → Split
  | _, [] => ⟨[], none⟩
  | none, c :: cs =>
    if c = '#' then ⟨[], some (c :: cs)⟩
    else (splitFrom (if isQuote c then some c else none) cs).cons c
  | some quote, c :: cs =>
    if c = '\\' then
      match cs with
      | [] => ⟨[c], none⟩
      | d :: ds => ((splitFrom (some quote) ds).cons d).cons c
    else (splitFrom (if c = quote then none else some quote) cs).cons c

/-- Cuts a line into its code and its comment. Stands for `split_comment`. -/
def splitComment (line : List Char) : Split := splitFrom none line

@[simp] theorem Split.join_cons (c : Char) (split : Split) :
    (split.cons c).join = c :: split.join := rfl

theorem splitFrom_join (quote : Option Char) (line : List Char) :
    (splitFrom quote line).join = line := by
  fun_induction splitFrom quote line <;> simp_all [Split.join, Split.cons]

/-- Code and comment together are the line. -/
theorem splitComment_join (line : List Char) : (splitComment line).join = line :=
  splitFrom_join none line

end Playthrough.Script
