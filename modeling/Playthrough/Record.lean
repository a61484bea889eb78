/-!
# Records

The lines of a script that take time become records: something is said, the game pauses, the scene
changes, or a picture is shown or hidden. Seconds are numbers of a type `κ`, so that the same story
can be timed in floating point and in exact arithmetic.

A `Category` says on whose account the time of a record goes. Categories are ordered: the narrator,
the other speakers by name, pauses, scenes, images.
-/

namespace Playthrough

/-- Who says a line. -/
inductive Speaker where
  | narrator
  | named (name : String)
  deriving DecidableEq, Repr

/-- The text of a speaker. -/
def Speaker.display : Speaker → String
  | .narrator => "(narrator)"
  | .named name => name

/-- A line that is said. -/
structure Dialogue (κ : Type) where
  speaker : Speaker
  /-- What is read on the screen, without markup. -/
  text : String
  /-- The seconds that tags inside the line make the reader wait. -/
  extraSeconds : κ
  deriving BEq, DecidableEq, Repr

/-- A line of a script that takes time. -/
inductive Record (κ : Type) where
  | dialogue (line : Dialogue κ)
  | pause (seconds : κ)
  | scene
  | image
  deriving BEq, DecidableEq, Repr

/-- The line that a record says, if it says one. -/
def Record.dialogue? {κ : Type} : Record κ → Option (Dialogue κ)
  | .dialogue line => some line
  | _ => none

/-- On whose account the time of a record goes. -/
inductive Category where
  | speaker (who : Speaker)
  | pause
  | scene
  | image
  deriving DecidableEq, Repr

namespace Category

/-- Whether a category is not a speaker. -/
def isBuiltin : Category → Bool
  | speaker _ => false
  | _ => true

/-- The text of a category. -/
def display : Category → String
  | speaker who => who.display
  | pause => "(pause)"
  | scene => "(scene)"
  | image => "(show)"

/-- The position of a category, named speakers being one group. -/
def group : Category → Nat
  | speaker .narrator => 0
  | speaker (.named _) => 1
  | pause => 2
  | scene => 3
  | image => 4

/-- The name by which named speakers are ordered. -/
def nameKey : Category → String
  | speaker (.named name) => name
  | _ => ""

/-- The order of categories. -/
def cmp : Category → Category → Ordering :=
  compareLex (compareOn group) (compareOn nameKey)

instance instOrd : Ord Category := ⟨cmp⟩

instance instTransOrd : Std.TransOrd Category := by
  show Std.TransCmp cmp
  unfold cmp
  infer_instance

instance instLawfulEqOrd : Std.LawfulEqOrd Category where
  eq_of_compare {a b} h := by
    replace h : cmp a b = .eq := h
    simp only [cmp, compareLex_eq_eq, compareOn, Std.compare_eq_iff_eq] at h
    rcases a with (_ | a) | _ | _ | _ <;> rcases b with (_ | b) | _ | _ | _ <;>
      simp_all [group, nameKey]

end Category

end Playthrough
