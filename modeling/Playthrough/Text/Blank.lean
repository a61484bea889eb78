import Playthrough.Text.CodeRange

/-!
# Blanks

Blanks are the characters with the Unicode property `White_Space`. Indentation, the gaps between
the words of a statement and the padding around names are all made of them.

* `isBlank`: the class.
* `leading`: the blanks a line starts with; `trimStart`, `trimEnd` and `trim` drop blanks.
* `leading_append_trimStart`: no character is lost between the two halves of a line.
-/

namespace Playthrough.Text

/-- The ranges of `White_Space`. -/
def blankRanges : CodeRanges :=
  [(0x9, 0xd), (0x20, 0x20), (0x85, 0x85), (0xa0, 0xa0), (0x1680, 0x1680), (0x2000, 0x200a),
   (0x2028, 0x2029), (0x202f, 0x202f), (0x205f, 0x205f), (0x3000, 0x3000)]

/-- Whether a character is a blank. -/
def isBlank (c : Char) : Bool := blankRanges.contains c

/-- The blanks that a text starts with. Stands for `leading_whitespace`. -/
def leading (cs : List Char) : List Char := cs.takeWhile isBlank

/-- A text without the blanks it starts with. -/
def trimStart (cs : List Char) : List Char := cs.dropWhile isBlank

/-- A text without the blanks it ends with. -/
def trimEnd (cs : List Char) : List Char := (cs.reverse.dropWhile isBlank).reverse

/-- A text without the blanks at either end. -/
def trim (cs : List Char) : List Char := trimEnd (trimStart cs)

theorem leading_append_trimStart (cs : List Char) : leading cs ++ trimStart cs = cs :=
  List.takeWhile_append_dropWhile

theorem isBlank_of_mem_leading {cs : List Char} {c : Char} (h : c ∈ leading cs) :
    isBlank c = true := by
  induction cs with
  | nil => simp [leading] at h
  | cons d ds ih =>
    by_cases hd : isBlank d = true
    · simp only [leading, List.takeWhile_cons, hd, if_true, List.mem_cons] at h
      rcases h with rfl | h
      · exact hd
      · exact ih h
    · simp [leading, hd] at h

end Playthrough.Text
