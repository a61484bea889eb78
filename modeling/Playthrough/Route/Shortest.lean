import Playthrough.Route.Basic
import Playthrough.Table

/-!
# The shortest route

The distance of a block is the time played before it. The search keeps the least distances found so
far and a queue of blocks whose distance has improved since they were last looked at. Costs are not
negative, so going around a loop improves nothing and the queue runs empty.

* `Search.step`: looks at the first block of the queue.
* `Search.run`: repeats this until the queue is empty, or the given number of times.
* `CostedGraph.shortest`: the shortest route to an ending.
-/

namespace Playthrough

variable {κ : Type}

/-- What the search knows. -/
structure Search (κ : Type) where
  /-- The blocks to look at. -/
  queue : List Label
  /-- The least known distances. -/
  distances : List (Label × κ)
  /-- From which block the distance of a block was reached. -/
  hops : List (Label × Label)
  /-- The best ending found, with the time to its end. -/
  best : Option (κ × Label)

namespace Search

/-- What is known at the start: the entry is right here. -/
def start [Zero κ] : Search κ where
  queue := [.entry]
  distances := [(.entry, 0)]
  hops := []
  best := none

/-- Arrives at `target` from `source` after the given time. Only an earlier arrival counts. -/
def arrive [LE κ] [DecidableLE κ] (source : Label) (time : κ) (search : Search κ) (target : Label) :
    Search κ :=
  let improved : Search κ :=
    { search with
      distances := Table.set target time search.distances
      hops := Table.set target source search.hops
      queue := if target ∈ search.queue then search.queue else search.queue ++ [target] }
  match search.distances.lookup target with
  | some known => if known ≤ time then search else improved
  | none => improved

/-- Ends the story at `label` after the given time, if no earlier ending is known. -/
def finishAt [LT κ] [DecidableLT κ] (label : Label) (time : κ) (search : Search κ) : Search κ :=
  match search.best with
  | some (least, _) => if time < least then { search with best := some (time, label) } else search
  | none => { search with best := some (time, label) }

variable [Add κ] [LT κ] [DecidableLT κ] [LE κ] [DecidableLE κ]

/-- Plays a block whose distance is known. -/
def visit (costed : CostedBlock κ) (distance : κ) (search : Search κ) : Search κ :=
  let time := distance + costed.cost.total
  let ended := if costed.block.isTerminal then search.finishAt costed.label time else search
  costed.block.next.foldl (arrive costed.label time) ended

/-- Looks at the first block of the queue. Stands for one turn of the loop of `solve` for the
    minimum. -/
def step (graph : CostedGraph κ) (search : Search κ) : Search κ :=
  match search.queue with
  | [] => search
  | label :: queue =>
    let search := { search with queue }
    match graph.get? label, search.distances.lookup label with
    | some costed, some distance => search.visit costed distance
    | _, _ => search

/-- Takes steps until the queue is empty, at most `limit` of them. -/
def run (graph : CostedGraph κ) : (limit : Nat) → Search κ → Search κ
  | 0, search => search
  | limit + 1, search =>
    if search.queue.isEmpty then search else run graph limit (search.step graph)

end Search

variable [Zero κ] [Add κ] [LT κ] [DecidableLT κ] [LE κ] [DecidableLE κ]

/-- A number of steps after which no distance can improve: in each of as many rounds as there are
    blocks, each block is looked at once at most. The bound leaves room beyond that. -/
def CostedGraph.searchLimit (graph : CostedGraph κ) : Nat :=
  (graph.size + 1) * (graph.size + 1) * (graph.size + 1)

/-- The outcome of the search. -/
def CostedGraph.search (graph : CostedGraph κ) : Search κ :=
  Search.start.run graph graph.searchLimit

/-- The route that takes the least time, if the story can end. Stands for `minimum` of an optimized
    graph. -/
def CostedGraph.shortest (graph : CostedGraph κ) : Option (Route κ) :=
  let search := graph.search
  search.best.map fun (total, last) =>
    { total, steps := (trail search.hops graph.size last [last]).map .block }

end Playthrough
