import Playthrough.Decimal.Style
import Playthrough.Fault
import Playthrough.Text.Quoted

/-!
# Messages of faults

What a user is told about a fault: a code, the family, a short summary, a hint at the remedy, and a
message that names the place.
-/

namespace Playthrough

/-- What is wrong with the indentation, in words. -/
def IndentFault.message : IndentFault → String
  | .indentedTopLevel => "top-level statement is indented"
  | .unindentedBody => "block body is not indented past its header"
  | .dedentedBody => "block body is dedented below its header"
  | .unmatchedDedent => "indentation matches no open block"

/-- The word for a family of faults. -/
def FaultKind.word : FaultKind → String
  | .layout => "structure"
  | .reference => "reference"
  | .aggregation => "aggregation"

namespace Fault

variable {κ : Type}

/-- The code of a fault, which stays the same from release to release. -/
def code : Fault κ → String
  | indentation .. => "E1001"
  | duplicateLabel .. => "E2001"
  | selfJump .. => "E2002"
  | noLabelScope .. => "E2003"
  | misplacedBranch .. => "E2004"
  | danglingEdge .. => "E2005"
  | nonFiniteCost .. => "E3001"

/-- The family of a fault. -/
def kind : Fault κ → FaultKind
  | indentation .. => .layout
  | nonFiniteCost .. => .aggregation
  | _ => .reference

/-- A fault in a few words. -/
def summary : Fault κ → String
  | indentation .. => "Inconsistent indentation"
  | duplicateLabel .. => "Label declared twice"
  | selfJump .. => "Block jumps to itself"
  | noLabelScope .. => "Relative label outside any named label"
  | misplacedBranch .. => "elif/else without an open if"
  | danglingEdge .. => "Jump target does not exist"
  | nonFiniteCost .. => "Aggregator returned a non-finite cost"

/-- What to do about a fault. -/
def hint? : Fault κ → Option String
  | indentation .. => some "Indent every block body consistently past its `:` header."
  | duplicateLabel .. => some "Rename one of the labels."
  | selfJump .. => none
  | noLabelScope .. => some "Declare a global label before using `.local` labels or jumps."
  | misplacedBranch .. => some "Place elif/else directly after an if block."
  | danglingEdge .. =>
    some "Pass every file that declares the jumped-to label, or fix the label name."
  | nonFiniteCost .. => some "Check reading speeds: they must be positive."

/-- A fault in full. -/
def message : Fault Float → String
  | indentation line content issue => s!"line {line}: {issue.message}: " ++ Text.quoted content
  | duplicateLabel line label => s!"line {line}: label `{label.display}` is already declared"
  | selfJump line label => s!"line {line}: block `{label.display}` jumps to itself"
  | noLabelScope line name => s!"line {line}: relative label `{name}` has no enclosing global label"
  | misplacedBranch line branch =>
    s!"line {line}: `{branch.keyword}` is not preceded by an if block"
  | danglingEdge source target =>
    s!"block `{source.display}` jumps to unknown label `{target.display}`"
  | nonFiniteCost label cost =>
    s!"block `{label.display}` has non-finite cost " ++ Decimal.Style.plain.format cost

end Fault

end Playthrough
