import Playthrough.Route.Longest
import Playthrough.Route.Shortest
import Playthrough.Proofs.Renumbering.Story

/-!
# Routes that differ only in lines

Both searches for a route tell blocks apart by their labels and order nothing by them. So a reduced
story with other lines has the same routes with other lines, and they take the same time.

* `Traversal.finished_map`: a traversal visits renamed nodes in the same order.
* `components_renumber`, `condense_renumber`: the loops of the story stay.
* `longest_renumber`: the longest route.
* `shortest_renumber`: the shortest route.
-/

namespace Playthrough

variable {κ : Type} {σ : Renumbering}

/-- Moves the lines of the labels of a step. -/
def Step.renumber (σ : Renumbering) : Step → Step
  | .block label => .block (label.renumber σ)
  | .loop members => .loop (members.map (·.renumber σ))

/-- Moves the lines of all labels of a route. The time that it takes stays. -/
def Route.renumber (σ : Renumbering) (route : Route κ) : Route κ :=
  { route with steps := route.steps.map (·.renumber σ) }

/-! ## Traversals -/

namespace Traversal

variable {α β : Type} [DecidableEq α] [DecidableEq β] {rename : α → β}
  {neighbours : α → List α} {neighbours' : β → List β}

/-- Renames all nodes. -/
def map (rename : α → β) (state : Traversal α) : Traversal β :=
  ⟨state.unseen.map rename, state.done.map rename⟩

theorem above_map (hrename : Function.Injective rename)
    (h : ∀ node, neighbours' (rename node) = (neighbours node).map rename)
    (unseen : List α) (node : α) :
    above neighbours' (unseen.map rename) (rename node) =
      (above neighbours unseen node).map rename := by
  simp [above, h, List.filter_map, Function.comp_def, hrename.eq_iff]

theorem finish_map (hrename : Function.Injective rename) (node : α) (done : List α) :
    finish (rename node) (done.map rename) = (finish node done).map rename := by
  unfold finish
  simp only [List.mem_map_of_injective hrename]
  split
  · rfl
  · rfl

theorem drain_map (hrename : Function.Injective rename)
    (h : ∀ node, neighbours' (rename node) = (neighbours node).map rename)
    (unseen done stack : List α) :
    drain neighbours' (unseen.map rename) (done.map rename) (stack.map rename) =
      (drain neighbours unseen done stack).map rename := by
  fun_induction drain neighbours unseen done stack with
  | case1 unseen done => rw [List.map_nil, drain]; rfl
  | case2 unseen done node rest hnode others ih =>
    have hnode' : rename node ∈ unseen.map rename := List.mem_map_of_mem hnode
    rw [List.map_append, List.map_cons, ← above_map hrename h, List.map_erase hrename] at ih
    rw [List.map_cons, drain, dif_pos hnode']
    exact ih
  | case3 unseen done node rest hnode ih =>
    have hnode' : rename node ∉ unseen.map rename := by
      rwa [List.mem_map_of_injective hrename]
    rw [← finish_map hrename] at ih
    rw [List.map_cons, drain, dif_neg hnode']
    exact ih

theorem visit_map (hrename : Function.Injective rename)
    (h : ∀ node, neighbours' (rename node) = (neighbours node).map rename)
    (state : Traversal α) (root : α) :
    visit neighbours' (state.map rename) (rename root) =
      (visit neighbours state root).map rename := by
  unfold visit
  have hroot : rename root ∈ (state.map rename).unseen ↔ root ∈ state.unseen :=
    List.mem_map_of_injective hrename
  simp only [hroot]
  split
  · exact drain_map hrename h state.unseen state.done [root]
  · rfl

/-- A traversal finishes renamed nodes in the same order. -/
theorem finished_map (hrename : Function.Injective rename)
    (h : ∀ node, neighbours' (rename node) = (neighbours node).map rename) (nodes : List α) :
    finished neighbours' (nodes.map rename) = (finished neighbours nodes).map rename := by
  have hfold : (nodes.map rename).foldl (visit neighbours') (map rename ⟨nodes, []⟩) =
      (nodes.foldl (visit neighbours) ⟨nodes, []⟩).map rename := by
    rw [List.foldl_map]
    exact List.foldl_hom (map rename) (visit_map hrename h)
  exact congrArg Traversal.done hfold

end Traversal

/-! ## Components -/

theorem CostedBlock.label_renumber (costed : CostedBlock κ) :
    (costed.renumber σ).label = costed.label.renumber σ := rfl

theorem eraseDups_map {α β : Type} [DecidableEq α] [DecidableEq β] {rename : α → β}
    (hrename : Function.Injective rename) (xs : List α) :
    (xs.map rename).eraseDups = xs.eraseDups.map rename := by
  -- the tail is filtered before the recursion, so the induction is on the length
  induction hlength : xs.length using Nat.strong_induction_on generalizing xs with
  | _ length ih =>
    cases xs with
    | nil => rfl
    | cons x xs =>
      have hlt : (xs.filter fun y => !y == x).length < length := by
        rw [← hlength, List.length_cons]
        exact Nat.lt_succ_of_le (List.length_filter_le _ _)
      have hfilter : (xs.map rename).filter (fun y => !y == rename x) =
          (xs.filter fun y => !y == x).map rename := by
        simp [List.filter_map, Function.comp_def, hrename.beq_eq]
      rw [List.map_cons, List.eraseDups_cons, List.eraseDups_cons, hfilter, ih _ hlt _ rfl,
        List.map_cons]

namespace CostedGraph

theorem get?_renumber (graph : CostedGraph κ) (label : Label) :
    (graph.renumber σ).get? (label.renumber σ) = (graph.get? label).map (·.renumber σ) := by
  simp [get?, renumber, List.find?_map, CostedBlock.label_renumber]

theorem labels_renumber (graph : CostedGraph κ) :
    (graph.renumber σ).labels = graph.labels.map (·.renumber σ) := by
  simp [labels, renumber, CostedBlock.label_renumber]

theorem targets_renumber (graph : CostedGraph κ) (costed : CostedBlock κ) :
    (graph.renumber σ).targets (costed.renumber σ) =
      (graph.targets costed).map (·.renumber σ) := by
  unfold targets
  rw [← eraseDups_map (Label.renumber_injective σ)]
  simp [CostedBlock.renumber, List.filter_map, Function.comp_def, get?_renumber]

theorem exits_renumber (graph : CostedGraph κ) :
    (graph.renumber σ).exits =
      graph.exits.map (Prod.map (Label.renumber σ) (Label.renumber σ)) := by
  unfold exits
  rw [List.map_flatMap]
  show (graph.blocks.map _).flatMap _ = _
  rw [List.flatMap_map]
  refine List.flatMap_congr fun costed _ => ?_
  rw [targets_renumber, List.map_map, List.map_map]
  rfl

theorem successors_renumber (graph : CostedGraph κ) (label : Label) :
    (graph.renumber σ).successors (label.renumber σ) =
      (graph.successors label).map (·.renumber σ) := by
  unfold successors
  rw [get?_renumber]
  cases graph.get? label with
  | none => rfl
  | some costed => simp [targets_renumber]

theorem predecessors_renumber (graph : CostedGraph κ) (label : Label) :
    (graph.renumber σ).predecessors (label.renumber σ) =
      (graph.predecessors label).map (·.renumber σ) := by
  simp [predecessors, renumber, List.filter_map, Function.comp_def, CostedBlock.renumber,
    CostedBlock.label]

/-- Moves the lines of the labels of a splitting under way. -/
def renumberSplit (σ : Renumbering) (state : List Label × List (List Label)) :
    List Label × List (List Label) :=
  (state.1.map (·.renumber σ), state.2.map (List.map (Label.renumber σ)))

theorem splitComponent_renumber (graph : CostedGraph κ) (state : List Label × List (List Label))
    (leader : Label) :
    (graph.renumber σ).splitComponent (renumberSplit σ state) (leader.renumber σ) =
      renumberSplit σ (graph.splitComponent state leader) := by
  obtain ⟨unseen, found⟩ := state
  have hdrain := Traversal.drain_map (Label.renumber_injective σ)
    (fun label => graph.successors_renumber label) unseen [] [leader]
  rw [List.map_nil, List.map_singleton] at hdrain
  show (graph.renumber σ).splitComponent (unseen.map _, found.map _) _ = _
  unfold splitComponent
  simp only [Label.mem_map_renumber]
  split
  · rw [hdrain, labels_renumber]
    simp [renumberSplit, Traversal.map, List.filter_map, Function.comp_def]
  · rfl

/-- The components stay, and so do their numbers. -/
theorem components_renumber (graph : CostedGraph κ) :
    (graph.renumber σ).components = graph.components.map (List.map (Label.renumber σ)) := by
  have hfold : ∀ leaders : List Label,
      (leaders.map (·.renumber σ)).foldl (graph.renumber σ).splitComponent
          (renumberSplit σ (graph.labels, [])) =
        renumberSplit σ (leaders.foldl graph.splitComponent (graph.labels, [])) := by
    intro leaders
    rw [List.foldl_map]
    exact List.foldl_hom (renumberSplit σ) graph.splitComponent_renumber
  unfold components
  rw [labels_renumber, Traversal.finished_map (Label.renumber_injective σ)
    (fun label => graph.predecessors_renumber label)]
  exact congrArg Prod.snd (hfold _)

end CostedGraph

/-- Moves the lines of the members of a component. -/
def Component.renumber (σ : Renumbering) (component : Component κ) : Component κ :=
  { component with members := component.members.map (·.renumber σ) }

/-- Moves the lines of all members of all components. -/
def Condensation.renumber (σ : Renumbering) (dag : Condensation κ) : Condensation κ :=
  { dag with nodes := dag.nodes.map (·.renumber σ) }

theorem Condensation.numberOf_renumber (components : List (List Label)) (label : Label) :
    numberOf (components.map (List.map (Label.renumber σ))) (label.renumber σ) =
      numberOf components label := by
  simp [numberOf, List.findIdx?_map, Function.comp_def]

theorem Component.step_renumber (component : Component κ) :
    (component.renumber σ).step = component.step.renumber σ := by
  unfold Component.step Component.renumber
  cases component.members with
  | nil => rfl
  | cons member members => cases members <;> rfl

namespace CostedGraph

section

variable [Zero κ] [Add κ]

theorem component_renumber (graph : CostedGraph κ) (members : List Label) :
    (graph.renumber σ).component (members.map (·.renumber σ)) =
      (graph.component members).renumber σ := by
  have hblocks : (members.map (·.renumber σ)).filterMap (graph.renumber σ).get? =
      (members.filterMap graph.get?).map (·.renumber σ) := by
    rw [List.filterMap_map, List.map_filterMap]
    exact List.filterMap_congr fun label _ => get?_renumber graph label
  unfold component Component.renumber
  simp only [hblocks, Component.mk.injEq, List.foldl_map, List.any_map, true_and]
  refine ⟨rfl, congrArg (List.any _) ?_⟩
  funext costed
  exact Block.isTerminal_renumber σ costed.block

theorem exitBetween_renumber (components : List (List Label)) (exit : Label × Label) :
    exitBetween (components.map (List.map (Label.renumber σ)))
        (Prod.map (Label.renumber σ) (Label.renumber σ) exit) =
      exitBetween components exit := by
  simp [exitBetween, Condensation.numberOf_renumber]

/-- The exits between components stay, and so do the costs. -/
theorem condense_renumber (graph : CostedGraph κ) :
    (graph.renumber σ).condense = graph.condense.renumber σ := by
  unfold condense Condensation.renumber
  simp only [components_renumber, exits_renumber, Condensation.mk.injEq]
  constructor
  · rw [List.map_map, List.map_map]
    exact List.map_congr_left fun members _ => component_renumber graph members
  · rw [List.filterMap_map]
    congr 2
    funext exit
    exact exitBetween_renumber graph.components exit

end

end CostedGraph

/-! ## The longest route -/

theorem Condensation.getElem?_renumber (dag : Condensation κ) (node : Nat) :
    (dag.renumber σ).nodes[node]? = dag.nodes[node]?.map (·.renumber σ) :=
  List.getElem?_map

theorem Condensation.order_renumber (dag : Condensation κ) :
    (dag.renumber σ).order = dag.order := by
  have hlength : (dag.renumber σ).nodes.length = dag.nodes.length := List.length_map ..
  unfold order sort?
  rw [hlength]
  rfl

section

variable [Zero κ] [Add κ] [LT κ] [DecidableLT κ] [LE κ] [DecidableLE κ]

/-- The pass over the components looks at their costs only. -/
theorem Condensation.advance_renumber (dag : Condensation κ) (start : Nat) :
    (dag.renumber σ).advance start = dag.advance start := by
  have hpass : Advance.pass (dag.renumber σ) = Advance.pass dag := by
    funext state node
    unfold Advance.pass
    rw [getElem?_renumber]
    cases state.distances.lookup node <;> cases dag.nodes[node]? <;> rfl
  unfold advance
  rw [order_renumber, hpass]

/-- The longest route has the same steps and takes the same time. -/
theorem CostedGraph.longest_renumber (graph : CostedGraph κ) :
    (graph.renumber σ).longest = graph.longest.map (·.renumber σ) := by
  have hstart : (graph.condense.renumber σ).nodes.findIdx? (Label.entry ∈ ·.members) =
      graph.condense.nodes.findIdx? (Label.entry ∈ ·.members) := by
    simp [Condensation.renumber, Component.renumber, List.findIdx?_map, Function.comp_def]
  unfold longest
  dsimp only
  rw [condense_renumber, hstart, Condensation.order_renumber]
  cases graph.condense.nodes.findIdx? (Label.entry ∈ ·.members) with
  | none => rfl
  | some start =>
    dsimp only [bind, Option.bind]
    rw [Condensation.advance_renumber]
    cases (graph.condense.advance start).best with
    | none => rfl
    | some best =>
      simp [Route.renumber, Condensation.getElem?_renumber, Function.comp_def,
        Component.step_renumber, List.map_filterMap]

end

/-! ## The shortest route -/

theorem trail_renumber (hops : List (Label × Label)) (limit : Nat) (node : Label)
    (path : List Label) :
    trail (hops.map (Prod.map (Label.renumber σ) (Label.renumber σ))) limit (node.renumber σ)
        (path.map (·.renumber σ)) =
      (trail hops limit node path).map (·.renumber σ) := by
  induction limit generalizing node path with
  | zero => rfl
  | succ limit ih =>
    rw [trail, trail, Label.lookup_renumber]
    cases hops.lookup node with
    | none => rfl
    | some previous => exact ih previous (previous :: path)

theorem Table.set_renumber {α β : Type} (change : α → β) (label : Label) (value : α)
    (table : List (Label × α)) :
    Table.set (label.renumber σ) (change value) (table.map (Prod.map (Label.renumber σ) change)) =
      (Table.set label value table).map (Prod.map (Label.renumber σ) change) := by
  simp [Table.set, List.filter_map, Function.comp_def]

namespace Search

/-- Moves the lines of all labels of a search. -/
def renumber (σ : Renumbering) (search : Search κ) : Search κ where
  queue := search.queue.map (·.renumber σ)
  distances := search.distances.map (Prod.map (Label.renumber σ) id)
  hops := search.hops.map (Prod.map (Label.renumber σ) (Label.renumber σ))
  best := search.best.map (Prod.map id (Label.renumber σ))

theorem lookup_distances_renumber (label : Label) (search : Search κ) :
    (search.renumber σ).distances.lookup (label.renumber σ) = search.distances.lookup label := by
  rw [renumber, Label.lookup_renumber, Option.map_id, id]

theorem arrive_renumber [LE κ] [DecidableLE κ] (source : Label) (time : κ) (search : Search κ)
    (target : Label) :
    (search.renumber σ).arrive (source.renumber σ) time (target.renumber σ) =
      (search.arrive source time target).renumber σ := by
  have hqueue : (if target.renumber σ ∈ (search.renumber σ).queue then (search.renumber σ).queue
      else (search.renumber σ).queue ++ [target.renumber σ]) =
      (if target ∈ search.queue then search.queue else search.queue ++ [target]).map
        (·.renumber σ) := by
    rw [apply_ite (List.map _)]
    simp [renumber]
  have hdistances : Table.set (target.renumber σ) time (search.renumber σ).distances =
      (Table.set target time search.distances).map (Prod.map (Label.renumber σ) id) :=
    Table.set_renumber id target time search.distances
  have hhops : Table.set (target.renumber σ) (source.renumber σ) (search.renumber σ).hops =
      (Table.set target source search.hops).map (Prod.map (Label.renumber σ) (Label.renumber σ)) :=
    Table.set_renumber (Label.renumber σ) target source search.hops
  unfold arrive
  dsimp only
  rw [lookup_distances_renumber, hqueue, hdistances, hhops]
  cases search.distances.lookup target with
  | none => rfl
  | some known =>
    dsimp only
    rw [apply_ite (renumber σ)]
    rfl

theorem finishAt_renumber [LT κ] [DecidableLT κ] (label : Label) (time : κ) (search : Search κ) :
    (search.renumber σ).finishAt (label.renumber σ) time =
      (search.finishAt label time).renumber σ := by
  have hbest : (search.renumber σ).best = search.best.map (Prod.map id (Label.renumber σ)) := rfl
  unfold finishAt
  rw [hbest]
  cases search.best with
  | none => rfl
  | some best =>
    dsimp only [Option.map_some, Prod.map]
    rw [apply_ite (renumber σ)]
    rfl

variable [Add κ] [LT κ] [DecidableLT κ] [LE κ] [DecidableLE κ]

theorem visit_renumber (costed : CostedBlock κ) (distance : κ) (search : Search κ) :
    (search.renumber σ).visit (costed.renumber σ) distance =
      (search.visit costed distance).renumber σ := by
  have hterminal : (costed.renumber σ).block.isTerminal = costed.block.isTerminal :=
    Block.isTerminal_renumber σ costed.block
  have hended : ∀ time : κ, (if (costed.renumber σ).block.isTerminal then
      (search.renumber σ).finishAt (costed.renumber σ).label time else search.renumber σ) =
      (if costed.block.isTerminal then search.finishAt costed.label time
        else search).renumber σ := by
    intro time
    rw [hterminal, apply_ite (renumber σ), ← finishAt_renumber]
    rfl
  unfold visit
  dsimp only
  rw [hended]
  show ((costed.block.next.map _).foldl _ _) = _
  rw [List.foldl_map]
  exact List.foldl_hom (renumber σ) (arrive_renumber costed.label _)

theorem step_renumber (graph : CostedGraph κ) (search : Search κ) :
    (search.renumber σ).step (graph.renumber σ) = (search.step graph).renumber σ := by
  have hqueue : (search.renumber σ).queue = search.queue.map (·.renumber σ) := rfl
  unfold step
  rw [hqueue]
  cases search.queue with
  | nil => rfl
  | cons label queue =>
    have hlookup := lookup_distances_renumber (σ := σ) label search
    rw [List.map_cons]
    dsimp only
    rw [graph.get?_renumber, hlookup]
    cases graph.get? label with
    | none => rfl
    | some costed =>
      cases search.distances.lookup label with
      | none => rfl
      | some distance => exact visit_renumber costed distance { search with queue }

theorem run_renumber (graph : CostedGraph κ) (limit : Nat) (search : Search κ) :
    (search.renumber σ).run (graph.renumber σ) limit = (search.run graph limit).renumber σ := by
  induction limit generalizing search with
  | zero => rfl
  | succ limit ih =>
    have hqueue : (search.renumber σ).queue.isEmpty = search.queue.isEmpty := List.isEmpty_map
    rw [run, run, hqueue, step_renumber, ih]
    split <;> rfl

end Search

/-- The shortest route has the same steps and takes the same time. -/
theorem CostedGraph.shortest_renumber [Zero κ] [Add κ] [LT κ] [DecidableLT κ] [LE κ]
    [DecidableLE κ] (graph : CostedGraph κ) :
    (graph.renumber σ).shortest = graph.shortest.map (·.renumber σ) := by
  have hsize : (graph.renumber σ).size = graph.size := List.length_map ..
  have hsearch : (graph.renumber σ).search = graph.search.renumber σ := by
    unfold search searchLimit
    rw [hsize]
    exact Search.run_renumber graph _ Search.start
  have hbest : (graph.search.renumber σ).best =
      graph.search.best.map (Prod.map id (Label.renumber σ)) := rfl
  unfold shortest
  dsimp only
  rw [hsearch, hsize, hbest, Option.map_map, Option.map_map]
  congr 1
  funext best
  have htrail := trail_renumber (σ := σ) graph.search.hops graph.size best.2 [best.2]
  rw [List.map_singleton] at htrail
  simp [Route.renumber, Search.renumber, htrail, Step.renumber]

end Playthrough
