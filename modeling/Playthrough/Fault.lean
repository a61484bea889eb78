import Playthrough.Label

/-!
# Faults of a script

A script is refused for one of seven reasons, in three families: the indentation of a line makes no
sense, a name or keyword refers to nothing, or a block has no finite cost. A fault holds what the
message needs, so that two faults can be compared without their texts.

* `Fault`: the reasons.
* `bind_eq_ok`, `bind_eq_error`: how steps that can fail are taken apart.
-/

namespace Playthrough

/-- What is wrong with the blanks at the start of a line. -/
inductive IndentFault where
  /-- A line outside every block is indented. -/
  | indentedTopLevel
  /-- The first line of a body is no deeper than its header. -/
  | unindentedBody
  /-- The first line of a body is less deep than its header. -/
  | dedentedBody
  /-- The line matches no open block. -/
  | unmatchedDedent
  deriving DecidableEq, Repr

/-- A header that continues a chain of conditions. -/
inductive Branch where
  /-- A further condition. -/
  | elif
  /-- The branch that is taken when no condition holds. -/
  | otherwise
  deriving DecidableEq, Repr

/-- The keyword of a branch. -/
def Branch.keyword : Branch → String
  | .elif => "elif"
  | .otherwise => "else"

/-- Why a script is refused. -/
inductive Fault (κ : Type) where
  | indentation (line : Nat) (content : String) (issue : IndentFault)
  | duplicateLabel (line : Nat) (label : Label)
  | selfJump (line : Nat) (label : Label)
  | noLabelScope (line : Nat) (name : String)
  | misplacedBranch (line : Nat) (branch : Branch)
  | danglingEdge (source target : Label)
  | nonFiniteCost (label : Label) (cost : κ)
  deriving DecidableEq, Repr

/-- The families of faults. -/
inductive FaultKind where
  | layout
  | reference
  | aggregation
  deriving DecidableEq, Repr

/-- The line at which a fault was noticed. -/
def Fault.line? {κ : Type} : Fault κ → Option Nat
  | .indentation line .. | .duplicateLabel line _ | .selfJump line _ | .noLabelScope line _
  | .misplacedBranch line _ => some line
  | .danglingEdge .. | .nonFiniteCost .. => none

/-- Two steps that can fail succeed together when each of them does. -/
theorem bind_eq_ok {ε α β : Type} {x : Except ε α} {f : α → Except ε β} {result : β} :
    x >>= f = .ok result ↔ ∃ value, x = .ok value ∧ f value = .ok result := by
  cases x with
  | error fault =>
    constructor
    · intro h
      cases h
    · rintro ⟨_, h, _⟩
      cases h
  | ok value =>
    refine ⟨fun h => ⟨value, rfl, h⟩, ?_⟩
    rintro ⟨_, h, hf⟩
    cases h
    exact hf

/-- Two steps that can fail fail together when the first does, or the second after it. -/
theorem bind_eq_error {ε α β : Type} {x : Except ε α} {f : α → Except ε β} {fault : ε} :
    x >>= f = .error fault ↔
      x = .error fault ∨ ∃ value, x = .ok value ∧ f value = .error fault := by
  cases x with
  | error fault' =>
    constructor
    · intro h
      cases h
      exact Or.inl rfl
    · rintro (h | ⟨_, h, _⟩)
      · cases h
        rfl
      · cases h
  | ok value =>
    refine ⟨fun h => Or.inr ⟨value, rfl, h⟩, ?_⟩
    rintro (h | ⟨_, h, hf⟩)
    · cases h
    · cases h
      exact hf

end Playthrough
