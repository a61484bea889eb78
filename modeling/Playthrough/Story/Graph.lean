import Playthrough.Ascending
import Playthrough.Block
import Playthrough.Fault

/-!
# Story graphs

A story graph holds the blocks of a story by label. Play starts in the entry block, which every
graph has, and moves along the exits. The labels of the exits need not all belong to a block.

* `StoryGraph.ofBlocks`: the graph of a list of blocks, where a later block replaces an earlier one.
* `StoryGraph.resolve`: the block that an exit leads to.
-/

namespace Playthrough

/-- The blocks of a story, in the order of their labels. Stands for `BlockGraph`. -/
structure StoryGraph (κ : Type) where
  blocks : List (Block κ)
  ascending : Ascending Block.label blocks
  /-- Play has somewhere to start. -/
  entry_mem : Label.entry ∈ blocks.map Block.label

namespace StoryGraph

variable {κ : Type}

/-- Adds blocks to a list of blocks; a later block replaces an earlier one with its label. -/
def placeAll (added placed : List (Block κ)) : List (Block κ) :=
  added.foldl (fun placed block => place Block.label (fun new _ => new) block placed) placed

theorem ascending_placeAll {added placed : List (Block κ)} (h : Ascending Block.label placed) :
    Ascending Block.label (placeAll added placed) := by
  induction added generalizing placed with
  | nil => exact h
  | cons block added ih =>
    refine ih (ascending_place ?_ h)
    intro _ _ _
    rfl

theorem mem_labels_placeAll {added placed : List (Block κ)} {label : Label}
    (h : label ∈ placed.map Block.label) : label ∈ (placeAll added placed).map Block.label := by
  induction added generalizing placed with
  | nil => exact h
  | cons block added ih =>
    refine ih ((mem_map_key_place ?_ block placed label).2 (.inr h))
    intro _ _ _
    rfl

/-- The graph of a list of blocks. An empty entry block stands in if the list has none. Stands for
    `from_blocks` of a block graph. -/
def ofBlocks (blocks : List (Block κ)) : StoryGraph κ where
  blocks := placeAll blocks [{ label := .entry }]
  ascending := ascending_placeAll (List.pairwise_singleton _ _)
  entry_mem := mem_labels_placeAll (List.mem_singleton.2 rfl)

/-- The number of blocks. -/
def size (graph : StoryGraph κ) : Nat := graph.blocks.length

/-- The block with a label. -/
def get? (label : Label) (graph : StoryGraph κ) : Option (Block κ) :=
  graph.blocks.find? (·.label = label)

/-- The block that an exit leads to. Stands for `resolve` of a block graph. -/
def resolve (source target : Label) (graph : StoryGraph κ) : Except (Fault κ) (Block κ) :=
  match graph.get? target with
  | some block => .ok block
  | none => .error (.danglingEdge source target)

/-- The given blocks but those with a label. -/
def without (label : Label) (blocks : List (Block κ)) : List (Block κ) :=
  blocks.filter (·.label ≠ label)

end StoryGraph

end Playthrough
