import Playthrough.Draft.Basic
import Playthrough.Text.Blank

/-!
# Indentation

The blanks in front of a line say which bodies it ends. The first line of a body sets its
indentation: that of the enclosing body and some more. A later line closes every body whose
indentation it does not carry, and then must carry nothing beyond the indentation of the body it
stands in.

Main statement: `Draft.align` returns the draft with those bodies closed and the line without its
indentation, or tells which of the four indentation faults the line has.
-/

namespace Playthrough.Draft

open Text

variable {κ : Type}

/-- The body around the innermost one. -/
def enclosing (draft : Draft κ) : Frame := draft.stack.tail.headD draft.root

/-- The open bodies whose indentation a line does not carry, from the innermost out to the first
    that it does carry. -/
def ended (line : List Char) (draft : Draft κ) : List Frame :=
  draft.stack.takeWhile fun frame => !frame.margin.isPrefixOf line

/-- The first line of a body sets its indentation. -/
def establish (line : List Char) (draft : Draft κ) :
    Except IndentFault (Draft κ × List Char) :=
  let outer := draft.enclosing.margin
  match outer.isPrefixOf? line with
  | none => .error .dedentedBody
  | some rest =>
    if (leading rest).isEmpty then .error .unindentedBody
    else
      .ok (draft.modifyTop fun frame => { frame with indent := some (outer ++ leading rest) },
        trimStart rest)

/-- Finds the body that a line stands in, closes the bodies that it ends, and takes its indentation
    off. Stands for `align` of the scope machine. -/
def align (line : List Char) (number : Nat) (draft : Draft κ) :
    Except (Fault κ) (Draft κ × List Char) := do
  let fail := Fault.indentation number (String.ofList line)
  match draft.top.indent with
  | none => (draft.establish line).mapError fail
  | some _ =>
    let draft ← draft.closeMany number (draft.ended line).length
    let rest := (draft.top.margin.isPrefixOf? line).getD line
    if (leading rest).isEmpty then return (draft, rest)
    else if draft.stack.isEmpty then throw (fail .indentedTopLevel)
    else throw (fail .unmatchedDedent)

end Playthrough.Draft
