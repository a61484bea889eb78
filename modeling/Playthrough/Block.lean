import Playthrough.Label
import Playthrough.Record

/-!
# Blocks

A block is a run of records that is always played as a whole, with the labels at which play can
continue. A block that a jump or a return has closed takes no further exits. A dead end is a block
after which the game is lost: it is no ending of the story.

* `Block.isTerminal`: the story can end after this block.
* `Block.exit`, `Block.close`: the first jump or return of a block wins.
* `Block.absorb`, `Block.relink`: the two steps of joining blocks.
-/

namespace Playthrough

/-- A run of records with its possible continuations. Stands for `BasicBlock`. -/
structure Block (κ : Type) where
  label : Label
  /-- The records of the block in script order. -/
  text : List (Record κ) := []
  /-- The labels at which play can continue, in the order in which they were added. -/
  next : List Label := []
  /-- Whether the block takes no further exits. -/
  disabled : Bool := false
  /-- Whether running off the end of the block is no ending. -/
  deadend : Bool := false
  deriving BEq, DecidableEq, Repr

namespace Block

variable {κ : Type}

/-- Whether the story can end after the block. Stands for `is_terminal` of a block. -/
def isTerminal (block : Block κ) : Bool := block.next.isEmpty && !block.deadend

/-- Adds a record at the end. Stands for `say` of a block. -/
def say (record : Record κ) (block : Block κ) : Block κ :=
  { block with text := block.text ++ [record] }

/-- Stops play at the end of the block, unless a jump or a return already has. Stands for `end` of a
    block. -/
def close (dead : Bool) (block : Block κ) : Block κ :=
  if block.disabled then block else { block with disabled := true, deadend := dead }

/-- Adds an exit, unless a jump or a return already closed the block. A final exit closes it. Stands
    for `jump` of a block. -/
def exit (target : Label) (final : Bool) (block : Block κ) : Block κ :=
  if block.disabled then block
  else { block with next := block.next ++ [target], disabled := final }

/-- Plays `tail` right after `block`, as one block. Stands for `absorb` of a block. -/
def absorb (tail block : Block κ) : Block κ :=
  { tail with label := block.label, text := block.text ++ tail.text }

/-- Leads every exit to `source` to `target` instead. Stands for `relink` of a block. -/
def relink (source target : Label) (block : Block κ) : Block κ :=
  { block with next := block.next.map fun label => if label = source then target else label }

@[simp] theorem label_say (record : Record κ) (block : Block κ) :
    (block.say record).label = block.label := rfl

@[simp] theorem label_close (dead : Bool) (block : Block κ) :
    (block.close dead).label = block.label := by
  unfold close; split <;> rfl

@[simp] theorem label_exit (target : Label) (final : Bool) (block : Block κ) :
    (block.exit target final).label = block.label := by
  unfold exit; split <;> rfl

@[simp] theorem label_absorb (tail block : Block κ) : (absorb tail block).label = block.label := rfl

@[simp] theorem label_relink (source target : Label) (block : Block κ) :
    (block.relink source target).label = block.label := rfl

end Block

end Playthrough
