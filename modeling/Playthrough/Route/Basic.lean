import Playthrough.Story.Costed

/-!
# Routes

A route is one way through a story, from the entry to an ending, with the time it takes. A loop that
is played counts as one step, with all blocks of the loop.

* `Route.labels`: the blocks of a route.
* `CostedGraph.breakdown`: the time of a route by category.
* `trail`: follows a table of predecessors back from the end of a route.
-/

namespace Playthrough

/-- A step of a route. Stands for `PathStep`. -/
inductive Step where
  | block (label : Label)
  /-- The blocks of a loop, in the order of their labels. -/
  | loop (members : List Label)
  deriving DecidableEq, Repr

/-- The blocks of a step. -/
def Step.labels : Step → List Label
  | .block label => [label]
  | .loop members => members

/-- A way through a story. Stands for `PathResult`. -/
structure Route (κ : Type) where
  /-- The time that the route takes. -/
  total : κ
  /-- The steps from the entry to an ending. -/
  steps : List Step
  deriving BEq, DecidableEq, Repr

/-- The blocks of a route. -/
def Route.labels {κ : Type} (route : Route κ) : List Label := route.steps.flatMap Step.labels

/-- The accounts of a block, if its tally keeps any. -/
def CostedGraph.accounts {κ : Type} (graph : CostedGraph κ) (label : Label) : Breakdown κ :=
  ((graph.get? label).bind (·.cost.breakdown)).getD []

/-- The time of a route by category, over the blocks that keep accounts. Stands for `breakdown` of
    an optimized graph. -/
def CostedGraph.breakdown {κ : Type} [Zero κ] [Add κ] (graph : CostedGraph κ) (route : Route κ) :
    Breakdown κ :=
  route.labels.foldl (fun sum label => Breakdown.creditAll (graph.accounts label) sum) []

/-- Puts in front of `path` the nodes from which `node` was reached, at most `limit` of them. -/
def trail {α : Type} [BEq α] (hops : List (α × α)) : (limit : Nat) → (node : α) → List α → List α
  | 0, _, path => path
  | limit + 1, node, path =>
    match hops.lookup node with
    | none => path
    | some previous => trail hops limit previous (previous :: path)

end Playthrough
