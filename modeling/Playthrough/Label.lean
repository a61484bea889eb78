/-!
# Labels

Every block of a story has a label. The first block has the entry label, a block that the script
declares has its name, and the blocks that only hold the story together are numbered in the order in
which they were minted.

Labels are ordered: the entry first, then names by code points, then minted labels by number, line
and origin. Lists of blocks follow this order.

* `Label.display`: the text of a label.
* `Label.instTransOrd`, `Label.instLawfulEqOrd`: the order is a linear order.
-/

namespace Playthrough

/-- Why a label was minted. -/
inductive Origin where
  /-- The body under a header that declares no name. -/
  | scope
  /-- The dispatch in front of a chain of conditions. -/
  | cond
  /-- The point where the ends of a closed block come together. -/
  | merge
  deriving DecidableEq, Repr

/-- The position of an origin in the order of labels. -/
def Origin.rank : Origin → Nat
  | .scope => 0
  | .cond => 1
  | .merge => 2

/-- The word that shows an origin. -/
def Origin.word : Origin → String
  | .scope => "scope"
  | .cond => "cond"
  | .merge => "merge"

theorem Origin.rank_inj {a b : Origin} (h : a.rank = b.rank) : a = b := by
  cases a <;> cases b <;> simp_all [Origin.rank]

/-- The identity of a block. -/
inductive Label where
  /-- The block in which every playthrough starts. -/
  | entry
  /-- A block that the script declares, by its full name. -/
  | named (name : String)
  /-- A minted label: its number, the line that caused it, and why. -/
  | synthetic (index line : Nat) (origin : Origin)
  deriving DecidableEq, Repr

namespace Label

/-- Whether a label was minted. Only blocks with such a label can be absorbed by another block.
    Stands for `is_synthetic` of a label. -/
def isSynthetic : Label → Bool
  | synthetic .. => true
  | _ => false

/-- The name that the script declares, if any. Stands for `name` of a label. -/
def name? : Label → Option String
  | named name => some name
  | _ => none

/-- The text of a label. -/
def display : Label → String
  | entry => "<entry>"
  | named name => name
  | synthetic index line origin => s!"#{origin.word}_{line}_{index}"

instance instToString : ToString Label := ⟨Label.display⟩

/-! ## Order -/

/-- The group of a label: entry, named or minted. -/
def group : Label → Nat
  | entry => 0
  | named _ => 1
  | synthetic .. => 2

/-- The name by which named labels are ordered. -/
def nameKey : Label → String
  | named name => name
  | _ => ""

/-- The number, the line and the rank of the origin by which minted labels are ordered. -/
def mintKey : Label → Nat × Nat × Nat
  | synthetic index line origin => (index, line, origin.rank)
  | _ => (0, 0, 0)

/-- The order of labels. -/
def cmp : Label → Label → Ordering :=
  compareLex (compareOn group) <| compareLex (compareOn nameKey) <|
    compareLex (compareOn (·.mintKey.1)) <| compareLex (compareOn (·.mintKey.2.1)) <|
      compareOn (·.mintKey.2.2)

instance instOrd : Ord Label := ⟨cmp⟩

instance instTransOrd : Std.TransOrd Label := by
  show Std.TransCmp cmp
  unfold cmp
  infer_instance

instance instLawfulEqOrd : Std.LawfulEqOrd Label where
  eq_of_compare {a b} h := by
    replace h : cmp a b = .eq := h
    simp only [cmp, compareLex_eq_eq, compareOn, Std.compare_eq_iff_eq] at h
    cases a <;> cases b <;> simp_all [group, nameKey, mintKey]
    exact Origin.rank_inj h.2.2

end Label

end Playthrough
