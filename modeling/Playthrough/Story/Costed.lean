import Playthrough.Cost
import Playthrough.Story.Merge

/-!
# Costed graphs

Before routes are sought, a story is reduced: blocks that play cannot reach are dropped, chains of
blocks are joined, and every block gets its cost.

* `StoryGraph.reduce`: the reduction. It fails if an exit in reach leads nowhere, or if a cost is
  not finite.
* `CostedGraph.toGraph`: the story that is left, without the costs.
-/

namespace Playthrough

/-- A block with its cost and the blocks that lead to it. Stands for `OptimizedBlock`. -/
structure CostedBlock (κ : Type) where
  block : Block κ
  /-- The labels of the blocks that lead here, in order. -/
  incoming : List Label
  cost : BlockCost κ
  deriving BEq, DecidableEq, Repr

/-- The label of a costed block. -/
def CostedBlock.label {κ : Type} (costed : CostedBlock κ) : Label := costed.block.label

/-- The blocks of a reduced story, in the order of their labels. Stands for `OptimizedGraph`. -/
structure CostedGraph (κ : Type) where
  blocks : List (CostedBlock κ)
  deriving BEq, DecidableEq, Repr

namespace CostedGraph

variable {κ : Type}

/-- The number of blocks. -/
def size (graph : CostedGraph κ) : Nat := graph.blocks.length

/-- The block with a label. -/
def get? (label : Label) (graph : CostedGraph κ) : Option (CostedBlock κ) :=
  graph.blocks.find? (·.label = label)

/-- The story without costs. Stands for `into_graph` of an optimized graph. -/
def toGraph (graph : CostedGraph κ) : StoryGraph κ :=
  StoryGraph.ofBlocks (graph.blocks.map CostedBlock.block)

end CostedGraph

namespace StoryGraph

variable {κ : Type} [FiniteCheck κ]

/-- The cost of a block, which has to be finite. -/
def costBlock (tally : Tally κ) (block : Block κ) (sources : List Label) :
    Except (Fault κ) (CostedBlock κ) :=
  let cost := tally block.text
  if FiniteCheck.isFinite cost.total then .ok { block, incoming := sources, cost }
  else .error (.nonFiniteCost block.label cost.total)

/-- The blocks in reach of the entry, joined where they are always played together. -/
def joined (graph : StoryGraph κ) : Except (Fault κ) (StoryGraph κ) := do
  let incoming ← graph.incoming
  let kept := graph.blocks.filter fun block => (incoming.lookup block.label).isSome
  return ofBlocks (Merging.start kept incoming).run.blocks

/-- Reduces a story and computes the costs of its blocks. Stands for `optimize`. -/
def reduce (tally : Tally κ) (graph : StoryGraph κ) : Except (Fault κ) (CostedGraph κ) := do
  let story ← graph.joined
  let incoming ← story.incoming
  let sourced := story.blocks.filterMap fun block =>
    (incoming.lookup block.label).map fun sources => (block, sources)
  return { blocks := ← sourced.mapM fun entry => costBlock tally entry.1 entry.2 }

end StoryGraph

end Playthrough
