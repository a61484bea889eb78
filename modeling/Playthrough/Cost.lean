import Playthrough.Ascending
import Playthrough.Record

/-!
# Costs

The cost of a block is the time it takes, with an optional split by category. A `Tally` computes it
from the records of the block. Costs are numbers of any type `κ` with an addition and an order.

* `Breakdown.credit`: adds time to the account of a category.
* `Breakdown.ascending_credit`: a breakdown stays in the order of the categories.
-/

namespace Playthrough

/-- Number types in which a computation may leave the finite range. -/
class FiniteCheck (κ : Type) where
  /-- Whether a number is finite. -/
  isFinite : κ → Bool

instance instFiniteCheckFloat : FiniteCheck Float := ⟨Float.isFinite⟩

instance instFiniteCheckRat : FiniteCheck Rat := ⟨fun _ => true⟩

/-- Times by category, in the order of the categories. -/
abbrev Breakdown (κ : Type) := List (Category × κ)

namespace Breakdown

variable {κ : Type} [Zero κ] [Add κ]

/-- Adds time to the account of a category; a new account starts at zero. -/
def credit (category : Category) (time : κ) (accounts : Breakdown κ) : Breakdown κ :=
  place Prod.fst (fun _ old => (old.1, old.2 + time)) (category, 0 + time) accounts

/-- Adds the accounts of one breakdown to those of another. -/
def creditAll (entries accounts : Breakdown κ) : Breakdown κ :=
  entries.foldl (fun accounts entry => credit entry.1 entry.2 accounts) accounts

theorem ascending_credit {category : Category} {time : κ} {accounts : Breakdown κ}
    (h : Ascending Prod.fst accounts) : Ascending Prod.fst (credit category time accounts) := by
  refine ascending_place ?_ h
  intro _ _ hkey
  exact hkey.symm

end Breakdown

/-- The cost of a block. -/
structure BlockCost (κ : Type) where
  total : κ
  /-- The total split by category, where the tally keeps accounts. -/
  breakdown : Option (Breakdown κ) := none
  deriving BEq, DecidableEq, Repr

/-- The cost of a block as a function of its records. -/
abbrev Tally (κ : Type) := List (Record κ) → BlockCost κ

/-- The record of a content line, for the lines that take time. -/
abbrev LineReader (κ : Type) := String → Option (Record κ)

end Playthrough
