import Playthrough.Draft.Feed
import Playthrough.Draft.Finish
import Playthrough.Reading.Minutes
import Playthrough.Route.Longest
import Playthrough.Route.Shortest

/-!
# Reports

What is told about a script: the times of its shortest and its longest route, on request with the
time of each speaker and the blocks along the route.

* `BoundReport.of`: the report on one route, or on the absence of one.
* `reducedStory`: the reduced story of a script under given settings.
* `estimate`: the report on a script.
-/

namespace Playthrough

open Reading

/-- What to tell about a route beside its time. -/
structure Detail where
  labels : Bool := false
  texts : Bool := false
  byCharacters : Bool := false
  deriving DecidableEq, Repr

/-- The time that goes on one account. -/
structure Share (κ : Type) where
  category : Category
  time : κ

/-- A line as it is read. -/
structure SpokenLine where
  speaker : Speaker
  text : String
  deriving DecidableEq, Repr

/-- A block of a route. -/
structure BlockEntry where
  label : Option Label
  texts : Option (List SpokenLine)
  deriving DecidableEq, Repr

/-- A step of a route. -/
inductive PathEntry where
  | block (entry : BlockEntry)
  | loop (members : List BlockEntry)
  deriving DecidableEq, Repr

/-- The report on one route. -/
structure BoundReport (κ : Type) where
  /-- The time of the route, if the story can end. -/
  time : Option κ
  shares : Option (List (Share κ))
  path : Option (List PathEntry)

/-- The report on a script. -/
structure FileReport (κ : Type) where
  file : String
  minimum : Option (BoundReport κ)
  maximum : Option (BoundReport κ)
  settings : Settings κ

variable {κ : Type}

/-- The lines that are read in a block. Stands for `lines`. -/
def spokenLines (costed : CostedBlock κ) : List SpokenLine :=
  (costed.block.text.filterMap Record.dialogue?).filterMap fun line =>
    if line.text.isEmpty then none else some { speaker := line.speaker, text := line.text }

/-- What is told about a block. Stands for `block_entry`. -/
def BlockEntry.of (graph : CostedGraph κ) (detail : Detail) (label : Label) : BlockEntry where
  label := if detail.labels then some label else none
  texts := if detail.texts then some (((graph.get? label).map spokenLines).getD []) else none

/-- What is told about a step. -/
def PathEntry.of (graph : CostedGraph κ) (detail : Detail) : Step → PathEntry
  | .block label => .block (.of graph detail label)
  | .loop members => .loop (members.map (.of graph detail))

/-- The shares of a route, the largest first; equal ones in the order of the categories. Stands for
    `shares`. -/
def CostedGraph.shares [Zero κ] [Add κ] [LE κ] [DecidableLE κ] (graph : CostedGraph κ)
    (route : Route κ) : List (Share κ) :=
  let shares := (graph.breakdown route).map fun entry => Share.mk entry.1 entry.2
  shares.mergeSort fun a b => b.time ≤ a.time

/-- The report on one route, or on the absence of one. Stands for `new` of a bound report. -/
def BoundReport.of [Zero κ] [Add κ] [LE κ] [DecidableLE κ] (graph : CostedGraph κ) (detail : Detail)
    (route : Option (Route κ)) : BoundReport κ where
  time := route.map Route.total
  shares := if detail.byCharacters then some ((route.map graph.shares).getD []) else none
  path :=
    if detail.labels || detail.texts then
      some ((route.map fun route => route.steps.map (.of graph detail)).getD [])
    else none

/-- What to report. -/
structure Request where
  detail : Detail := {}
  /-- Whether the shortest route is asked for. -/
  minimum : Bool := true
  /-- Whether the longest route is asked for. -/
  maximum : Bool := true
  deriving DecidableEq, Repr

section Estimate

variable [Zero κ] [Add κ] [Neg κ] [Div κ] [NatCast κ] [OfScientific κ] [FiniteCheck κ]

/-- The draft of a script under given settings. -/
def draftOf (settings : Settings κ) (lines : List (String × Nat)) : Except (Fault κ) (Draft κ) :=
  Draft.start.feedAll (readLine settings.characters settings.pause) lines

/-- The reduced story of a draft under given settings. -/
def reducedStory (settings : Settings κ) (byCharacters : Bool) (draft : Draft κ) :
    Except (Fault κ) (CostedGraph κ) := do
  (← draft.finish).reduce (settings.tally byCharacters)

variable [LT κ] [DecidableLT κ] [LE κ] [DecidableLE κ]

/-- The report on a script. -/
def estimate (settings : Settings κ) (request : Request) (file : String)
    (lines : List (String × Nat)) : Except (Fault κ) (FileReport κ) := do
  let draft ← draftOf settings lines
  let graph ← reducedStory settings request.detail.byCharacters draft
  let bound := BoundReport.of graph request.detail
  return {
    file
    minimum := if request.minimum then some (bound graph.shortest) else none
    maximum := if request.maximum then some (bound graph.longest) else none
    settings }

end Estimate

end Playthrough
