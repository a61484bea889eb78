import Playthrough.Route.Basic
import Playthrough.Route.Traversal

/-!
# Loops of a story

Blocks from which play can come back to each other form a component. Contracting the components
leaves a graph without loops. Components are numbered in the order in which they are found: a
traversal against the exits finishes the blocks, and from the last finished one on each block
collects what it can still reach.

The neighbours of a block are walked from the newest exit to the oldest, where exits count as added
block by block in the order of the labels.

* `CostedGraph.components`: the components, each with its blocks in order.
* `CostedGraph.condense`: the components with their costs, and the exits between them.
* `Condensation.sort?`, `Condensation.order`: the components, each behind all components that lead
  to it.
-/

namespace Playthrough

variable {κ : Type}

namespace CostedGraph

/-- The labels of the blocks, in order. -/
def labels (graph : CostedGraph κ) : List Label := graph.blocks.map CostedBlock.label

/-- The blocks that a block leads to, in the order of its exits, each once. -/
def targets (graph : CostedGraph κ) (costed : CostedBlock κ) : List Label :=
  (costed.block.next.filter fun target => (graph.get? target).isSome).eraseDups

/-- The exits between blocks, in the order of the blocks and of their exits. -/
def exits (graph : CostedGraph κ) : List (Label × Label) :=
  graph.blocks.flatMap fun costed => (graph.targets costed).map fun target => (costed.label, target)

/-- The blocks that a block leads to, the newest exit first. -/
def successors (graph : CostedGraph κ) (label : Label) : List Label :=
  ((graph.get? label).map fun costed => (graph.targets costed).reverse).getD []

/-- The blocks that lead to a block, the newest exit first. -/
def predecessors (graph : CostedGraph κ) (label : Label) : List Label :=
  ((graph.blocks.filter fun costed => label ∈ costed.block.next).map CostedBlock.label).reverse

/-- Splits off everything in `unseen` that can be reached from `leader`, as the next component. -/
def splitComponent (graph : CostedGraph κ) (state : List Label × List (List Label))
    (leader : Label) : List Label × List (List Label) :=
  let (unseen, found) := state
  if leader ∈ unseen then
    let reached := Traversal.drain graph.successors unseen [] [leader]
    (reached.unseen, found ++ [graph.labels.filter (· ∈ reached.done)])
  else state

/-- The components of a graph, each with its blocks in order. Stands for `kosaraju_scc`. -/
def components (graph : CostedGraph κ) : List (List Label) :=
  let leaders := Traversal.finished graph.predecessors graph.labels
  (leaders.foldl graph.splitComponent (graph.labels, [])).2

end CostedGraph

/-- A component of a story. -/
structure Component (κ : Type) where
  /-- The blocks of the component, in order. -/
  members : List Label
  /-- The time of all its blocks together. -/
  cost : κ
  /-- Whether the story can end in the component. -/
  terminates : Bool

/-- A graph with its components contracted. -/
structure Condensation (κ : Type) where
  /-- The components by number. -/
  nodes : List (Component κ)
  /-- The exits between different components, in the order of the exits they come from, each once.
      -/
  exits : List (Nat × Nat)

namespace Condensation

/-- The components that a component leads to, the newest exit first. -/
def successors (dag : Condensation κ) (node : Nat) : List Nat :=
  ((dag.exits.filter (·.1 = node)).map Prod.snd).reverse

/-- Whether each of the listed components comes behind all that lead to it, where those in `earlier`
    stand in front of the list. -/
def follows (exits : List (Nat × Nat)) (earlier : List Nat) : List Nat → Bool
  | [] => true
  | node :: rest =>
    exits.all (fun exit => exit.2 ≠ node || exit.1 ∈ earlier) && follows exits (node :: earlier) rest

/-- The components, each behind all components that lead to it. There is no such order if the exits
    close a loop. Stands for `toposort`. -/
def sort? (dag : Condensation κ) : Option (List Nat) :=
  let order := Traversal.finished dag.successors (List.range dag.nodes.length)
  if follows dag.exits [] order then some order else none

/-- The order in which components are visited: sorted if that is possible, else by number. -/
def order (dag : Condensation κ) : List Nat := dag.sort?.getD (List.range dag.nodes.length)

/-- The number of the component that a block belongs to. -/
def numberOf (components : List (List Label)) (label : Label) : Option Nat :=
  components.findIdx? (label ∈ ·)

end Condensation

namespace CostedGraph

variable [Zero κ] [Add κ]

/-- A component with its cost. -/
def component (graph : CostedGraph κ) (members : List Label) : Component κ :=
  let blocks := members.filterMap graph.get?
  { members
    cost := blocks.foldl (fun cost costed => cost + costed.cost.total) 0
    terminates := blocks.any (·.block.isTerminal) }

/-- The exit between components that an exit between blocks makes, unless it stays inside one. -/
def exitBetween (components : List (List Label)) (exit : Label × Label) : Option (Nat × Nat) := do
  let source ← Condensation.numberOf components exit.1
  let target ← Condensation.numberOf components exit.2
  if source = target then none else some (source, target)

/-- Contracts the components. Stands for `condense`. -/
def condense (graph : CostedGraph κ) : Condensation κ :=
  let components := graph.components
  { nodes := components.map graph.component
    exits := (graph.exits.filterMap (exitBetween components)).eraseDups }

end CostedGraph

end Playthrough
