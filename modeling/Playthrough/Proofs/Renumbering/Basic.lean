import Playthrough.Draft.Basic
import Playthrough.Story.Costed
import Mathlib.Logic.Equiv.Basic

/-!
# Renumbering lines

A minted label holds the line that caused it, for the reader's sake only: its number alone tells it
from other labels. Renumbering moves those lines and leaves everything else of a label alone.

A renumbering is a family of permutations, one for each number. So it can treat every minted label
on its own, and yet tells apart what was apart, whatever labels meet.

* `Label.renumber_injective`: no two labels are confused.
* `Label.compare_renumber`: the order of labels stays, as long as no number stands on two lines.
* `Fault.Alike`: faults that differ in nothing but lines.
* `Alike.bind`: steps that can fail are compared one after the other.
-/

namespace Playthrough

/-- For each number under which a label can be minted, where its line moves. -/
abbrev Renumbering := Nat → Equiv.Perm Nat

variable {κ : Type} {σ : Renumbering}

/-! ## Labels -/

namespace Label

/-- Moves the line of a minted label. -/
def renumber (σ : Renumbering) : Label → Label
  | synthetic index line origin => synthetic index (σ index line) origin
  | label => label

@[simp] theorem renumber_entry (σ : Renumbering) : entry.renumber σ = entry := rfl

@[simp] theorem renumber_named (σ : Renumbering) (name : String) :
    (named name).renumber σ = named name := rfl

@[simp] theorem renumber_synthetic (σ : Renumbering) (index line : Nat) (origin : Origin) :
    (synthetic index line origin).renumber σ = synthetic index (σ index line) origin := rfl

@[simp] theorem isSynthetic_renumber (σ : Renumbering) (label : Label) :
    (label.renumber σ).isSynthetic = label.isSynthetic := by
  cases label <;> rfl

theorem renumber_injective (σ : Renumbering) : Function.Injective (renumber σ) := by
  intro a b h
  cases a <;> cases b <;> simp only [renumber, reduceCtorEq, synthetic.injEq] at h
  · rfl
  · exact h
  · obtain ⟨rfl, hline, rfl⟩ := h
    rw [(σ _).injective hline]

@[simp] theorem renumber_inj {a b : Label} : a.renumber σ = b.renumber σ ↔ a = b :=
  (renumber_injective σ).eq_iff

@[simp] theorem renumber_eq_entry {label : Label} : label.renumber σ = entry ↔ label = entry := by
  exact (renumber_inj (b := entry))

@[simp] theorem mem_map_renumber {label : Label} {labels : List Label} :
    label.renumber σ ∈ labels.map (renumber σ) ↔ label ∈ labels := by
  simp

/-- If two labels share their number only when they share their line, they stay in order. -/
theorem compare_renumber {a b : Label}
    (h : ∀ index line line' origin origin', a = synthetic index line origin →
      b = synthetic index line' origin' → line = line') :
    compare (a.renumber σ) (b.renumber σ) = compare a b := by
  show cmp _ _ = cmp _ _
  cases a with
  | entry => cases b <;> rfl
  | named name => cases b <;> rfl
  | synthetic index line origin =>
    cases b with
    | entry => rfl
    | named name => rfl
    | synthetic index' line' origin' =>
      by_cases hindex : index = index'
      · subst hindex
        obtain rfl := h index line line' origin origin' rfl rfl
        simp [cmp, compareLex, compareOn, renumber, mintKey, group, nameKey]
      · have hne : compare index index' ≠ .eq := by
          rwa [Ne, Std.compare_eq_iff_eq]
        cases hcompare : compare index index' <;>
          simp_all [cmp, compareLex, compareOn, renumber, mintKey, group, nameKey]

/-- Looking a label up. -/
theorem lookup_renumber {α β : Type} (change : α → β) (table : List (Label × α)) (label : Label) :
    (table.map (Prod.map (renumber σ) change)).lookup (label.renumber σ) =
      (table.lookup label).map change := by
  induction table with
  | nil => rfl
  | cons entry table ih =>
    rw [List.map_cons, List.lookup_cons, List.lookup_cons, Prod.map_fst, ih]
    by_cases h : label = entry.1
    · simp [h]
    · have hne : (label == entry.1) = false := by simpa using h
      have hne' : (label.renumber σ == entry.1.renumber σ) = false := by simpa using h
      rw [hne, hne']

end Label

/-! ## Blocks -/

namespace Block

/-- Moves the lines of all labels of a block. -/
def renumber (σ : Renumbering) (block : Block κ) : Block κ :=
  { block with label := block.label.renumber σ, next := block.next.map (·.renumber σ) }

@[simp] theorem label_renumber (σ : Renumbering) (block : Block κ) :
    (block.renumber σ).label = block.label.renumber σ := rfl

@[simp] theorem text_renumber (σ : Renumbering) (block : Block κ) :
    (block.renumber σ).text = block.text := rfl

@[simp] theorem next_renumber (σ : Renumbering) (block : Block κ) :
    (block.renumber σ).next = block.next.map (·.renumber σ) := rfl

@[simp] theorem isTerminal_renumber (σ : Renumbering) (block : Block κ) :
    (block.renumber σ).isTerminal = block.isTerminal := by
  simp [isTerminal, renumber]

theorem say_renumber (record : Record κ) (block : Block κ) :
    (block.renumber σ).say record = (block.say record).renumber σ := rfl

theorem close_renumber (dead : Bool) (block : Block κ) :
    (block.renumber σ).close dead = (block.close dead).renumber σ := by
  cases h : block.disabled <;> simp [close, renumber, h]

theorem exit_renumber (target : Label) (final : Bool) (block : Block κ) :
    (block.renumber σ).exit (target.renumber σ) final = (block.exit target final).renumber σ := by
  cases h : block.disabled <;> simp [exit, renumber, h]

theorem relink_renumber (source target : Label) (block : Block κ) :
    (block.renumber σ).relink (source.renumber σ) (target.renumber σ) =
      (block.relink source target).renumber σ := by
  simp [relink, renumber, Function.comp_def, apply_ite (Label.renumber σ)]

/-- Finding a block by its label. -/
theorem find?_renumber (label : Label) (blocks : List (Block κ)) :
    (blocks.map (renumber σ)).find? (·.label = label.renumber σ) =
      (blocks.find? (·.label = label)).map (renumber σ) := by
  have hsame : (fun block : Block κ => decide (block.label = label.renumber σ)) ∘ renumber σ =
      fun block => decide (block.label = label) := by
    funext block
    simp
  rw [List.find?_map, hsame]

end Block

/-! ## Faults -/

/-- Two faults have the same cause. Only the line at which each was noticed is its own, and the lines
    in the labels that they name. -/
inductive Fault.Alike (σ : Renumbering) : Fault κ → Fault κ → Prop
  | indentation (line line' : Nat) (content : String) (issue : IndentFault) :
      Alike σ (.indentation line content issue) (.indentation line' content issue)
  | duplicateLabel (line line' : Nat) (label : Label) :
      Alike σ (.duplicateLabel line label) (.duplicateLabel line' (label.renumber σ))
  | selfJump (line line' : Nat) (label : Label) :
      Alike σ (.selfJump line label) (.selfJump line' (label.renumber σ))
  | noLabelScope (line line' : Nat) (name : String) :
      Alike σ (.noLabelScope line name) (.noLabelScope line' name)
  | misplacedBranch (line line' : Nat) (branch : Branch) :
      Alike σ (.misplacedBranch line branch) (.misplacedBranch line' branch)
  | danglingEdge (source target : Label) :
      Alike σ (.danglingEdge source target)
        (.danglingEdge (source.renumber σ) (target.renumber σ))
  | nonFiniteCost (label : Label) (cost : κ) :
      Alike σ (.nonFiniteCost label cost) (.nonFiniteCost (label.renumber σ) cost)

/-- Two steps both succeed, with related results, or both fail for the same cause. -/
inductive Alike (σ : Renumbering) {α β : Type} (R : α → β → Prop) :
    Except (Fault κ) α → Except (Fault κ) β → Prop
  | ok {value : α} {value' : β} (h : R value value') : Alike σ R (.ok value) (.ok value')
  | error {fault fault' : Fault κ} (h : fault.Alike σ fault') :
      Alike σ R (.error fault) (.error fault')

theorem Alike.bind {α β γ δ : Type} {R : α → β → Prop} {S : γ → δ → Prop}
    {x : Except (Fault κ) α} {y : Except (Fault κ) β} {f : α → Except (Fault κ) γ}
    {g : β → Except (Fault κ) δ} (h : Alike σ R x y)
    (hrest : ∀ value value', R value value' → Alike σ S (f value) (g value')) :
    Alike σ S (x >>= f) (y >>= g) := by
  cases h with
  | ok hvalue => exact hrest _ _ hvalue
  | error hfault => exact .error hfault

theorem Alike.cases {α β : Type} {R : α → β → Prop} {x : Except (Fault κ) α}
    {y : Except (Fault κ) β} (h : Alike σ R x y) :
    (∃ value value', x = .ok value ∧ y = .ok value' ∧ R value value') ∨
      ∃ fault fault', x = .error fault ∧ y = .error fault' ∧ fault.Alike σ fault' := by
  cases h with
  | ok hvalue => exact Or.inl ⟨_, _, rfl, rfl, hvalue⟩
  | error hfault => exact Or.inr ⟨_, _, rfl, rfl, hfault⟩

end Playthrough
