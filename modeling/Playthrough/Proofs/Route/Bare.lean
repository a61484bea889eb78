import Mathlib.Data.List.Basic
import Playthrough.Route.Longest
import Playthrough.Route.Shortest

/-!
# What the searches look at

Both searches for a route look at the labels of the blocks, at their exits, at whether the story can
end after them and at the time that they take. They look neither at the records of a block nor at the
accounts of its time. So a story that has lost these has the same routes.

* `CostedGraph.bare`: the story without records and accounts.
* `CostedGraph.longest_bare`, `CostedGraph.shortest_bare`: its routes.
-/

namespace Playthrough

variable {κ : Type}

/-- The block without its records and without the accounts of its time. -/
def CostedBlock.bare (costed : CostedBlock κ) : CostedBlock κ :=
  { costed with
    block := { costed.block with text := [] }
    cost := { total := costed.cost.total } }

@[simp] theorem CostedBlock.label_bare (costed : CostedBlock κ) :
    costed.bare.label = costed.label := rfl

namespace CostedGraph

/-- The story without records and accounts. -/
def bare (graph : CostedGraph κ) : CostedGraph κ := { blocks := graph.blocks.map CostedBlock.bare }

variable (graph : CostedGraph κ)

theorem get?_bare (label : Label) :
    graph.bare.get? label = (graph.get? label).map CostedBlock.bare :=
  List.find?_map ..

/-! ## The longest route -/

theorem labels_bare : graph.bare.labels = graph.labels := by
  simp [labels, bare]

theorem targets_bare (costed : CostedBlock κ) :
    graph.bare.targets costed.bare = graph.targets costed := by
  simp [targets, get?_bare, CostedBlock.bare]

theorem exits_bare : graph.bare.exits = graph.exits := by
  show (graph.blocks.map _).flatMap _ = _
  rw [List.flatMap_map]
  exact List.flatMap_congr fun costed _ => by rw [targets_bare, CostedBlock.label_bare]

theorem successors_bare : graph.bare.successors = graph.successors := by
  funext label
  unfold successors
  rw [get?_bare, Option.map_map]
  congr 2
  funext costed
  rw [Function.comp_apply, targets_bare]

theorem predecessors_bare : graph.bare.predecessors = graph.predecessors := by
  funext label
  unfold predecessors bare
  rw [List.filter_map, List.map_map]
  rfl

theorem components_bare : graph.bare.components = graph.components := by
  have hsplit : graph.bare.splitComponent = graph.splitComponent := by
    funext state leader
    unfold splitComponent
    rw [successors_bare, labels_bare]
  unfold components
  rw [hsplit, predecessors_bare, labels_bare]

section

variable [Zero κ] [Add κ]

theorem component_bare (members : List Label) :
    graph.bare.component members = graph.component members := by
  have hblocks : members.filterMap graph.bare.get? =
      (members.filterMap graph.get?).map CostedBlock.bare := by
    rw [List.map_filterMap]
    exact List.filterMap_congr fun label _ => graph.get?_bare label
  unfold component
  simp only [hblocks, List.foldl_map, List.any_map]
  rfl

theorem condense_bare : graph.bare.condense = graph.condense := by
  have hcomponent : graph.bare.component = graph.component := funext graph.component_bare
  unfold condense
  rw [components_bare, exits_bare, hcomponent]

end

variable [Add κ] [LT κ] [DecidableLT κ] [LE κ] [DecidableLE κ]

/-- The longest route is found by components, exits and times alone. -/
theorem longest_bare [Zero κ] : graph.bare.longest = graph.longest := by
  unfold longest
  rw [condense_bare]

/-! ## The shortest route -/

theorem step_bare (search : Search κ) : search.step graph.bare = search.step graph := by
  unfold Search.step
  cases search.queue with
  | nil => rfl
  | cons label queue =>
    simp only [get?_bare]
    cases graph.get? label with
    | none => rfl
    | some costed => cases search.distances.lookup label <;> rfl

theorem run_bare (limit : Nat) (search : Search κ) :
    search.run graph.bare limit = search.run graph limit := by
  induction limit generalizing search with
  | zero => rfl
  | succ limit ih => rw [Search.run, Search.run, step_bare, ih]

/-- The shortest route is found by exits, endings and times alone. -/
theorem shortest_bare [Zero κ] : graph.bare.shortest = graph.shortest := by
  have hsize : graph.bare.size = graph.size := List.length_map ..
  have hsearch : graph.bare.search = graph.search := by
    unfold search searchLimit
    rw [hsize, run_bare]
  unfold shortest
  rw [hsearch, hsize]

end CostedGraph

end Playthrough
