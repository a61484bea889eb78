import Playthrough.Route.Components
import Playthrough.Table

/-!
# The longest route

A story with loops has no longest walk, so a loop counts once, with all its blocks. The longest
route is then the longest path over the components, and one pass over them finds it, each component
coming after those that lead to it.

* `Advance.pass`: takes one component into account.
* `CostedGraph.longest`: the longest route to an ending.
-/

namespace Playthrough

variable {κ : Type}

/-- What the pass knows. -/
structure Advance (κ : Type) where
  /-- The longest known times before a component. -/
  distances : List (Nat × κ)
  /-- From which component that time was reached. -/
  hops : List (Nat × Nat)
  /-- The best ending found, with the time to its end. -/
  best : Option (κ × Nat)

namespace Advance

/-- What is known at the start. -/
def start [Zero κ] (node : Nat) : Advance κ where
  distances := [(node, 0)]
  hops := []
  best := none

/-- Arrives at `target` from `source` after the given time. Only a later arrival counts. -/
def arrive [LE κ] [DecidableLE κ] (source : Nat) (time : κ) (state : Advance κ) (target : Nat) :
    Advance κ :=
  let improved : Advance κ :=
    { state with
      distances := Table.set target time state.distances
      hops := Table.set target source state.hops }
  match state.distances.lookup target with
  | some known => if time ≤ known then state else improved
  | none => improved

/-- Ends the story in `node` after the given time, if no later ending is known. -/
def finishAt [LT κ] [DecidableLT κ] (node : Nat) (time : κ) (state : Advance κ) : Advance κ :=
  match state.best with
  | some (most, _) => if most < time then { state with best := some (time, node) } else state
  | none => { state with best := some (time, node) }

variable [Add κ] [LT κ] [DecidableLT κ] [LE κ] [DecidableLE κ]

/-- Takes a component into account, if it has been reached. -/
def pass (dag : Condensation κ) (state : Advance κ) (node : Nat) : Advance κ :=
  match state.distances.lookup node, dag.nodes[node]? with
  | some distance, some component =>
    let time := distance + component.cost
    let ended := if component.terminates then state.finishAt node time else state
    (dag.successors node).foldl (arrive node time) ended
  | _, _ => state

end Advance

/-- The step that plays a component. -/
def Component.step (component : Component κ) : Step :=
  match component.members with
  | [only] => .block only
  | members => .loop members

variable [Zero κ] [Add κ] [LT κ] [DecidableLT κ] [LE κ] [DecidableLE κ]

/-- The longest path over the components from the one that holds the entry. Stands for the loop of
    `solve` for the maximum. -/
def Condensation.advance (dag : Condensation κ) (start : Nat) : Advance κ :=
  dag.order.foldl (Advance.pass dag) (Advance.start start)

/-- The route that takes the most time, loops played once, if the story can end. Stands for
    `maximum` of an optimized graph. -/
def CostedGraph.longest (graph : CostedGraph κ) : Option (Route κ) := do
  let dag := graph.condense
  let start ← dag.nodes.findIdx? (Label.entry ∈ ·.members)
  let outcome := dag.advance start
  let (total, last) ← outcome.best
  let path := trail outcome.hops dag.order.length last [last]
  return { total, steps := path.filterMap fun node => dag.nodes[node]?.map Component.step }

end Playthrough
