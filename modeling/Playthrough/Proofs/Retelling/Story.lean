import Playthrough.Proofs.Retelling.Draft
import Playthrough.Proofs.Renumbering.Story

/-!
# Stories whose records are told in another way

What the records of a story are changes neither where play can go nor which blocks are always played
together. So the reduction of the story that is retold has the same blocks, with the records retold.

* `StoryGraph.reachable_retell`: play reaches the same blocks.
* `Merging.run_retell`: the same blocks are joined.
* `StoryGraph.joined_retell`: joining the story that is retold.
* `joined_feedAll_retell`: what a script becomes when its records are told in another way.
-/

namespace Playthrough

variable {κ : Type} (tell : Record κ → Option (Record κ))

namespace StoryGraph

/-- The story with the records of all blocks told in another way. -/
def retell (story : StoryGraph κ) : StoryGraph κ where
  blocks := story.blocks.map (Block.retell tell)
  ascending := List.pairwise_map.2 story.ascending
  entry_mem := by
    rw [List.map_map]
    exact story.entry_mem

theorem eq_of_blocks {first second : StoryGraph κ} (h : first.blocks = second.blocks) :
    first = second := by
  cases first
  cases second
  cases h
  rfl

theorem place_retell (block : Block κ) (placed : List (Block κ)) :
    place Block.label (fun new _ => new) (block.retell tell) (placed.map (Block.retell tell)) =
      (place Block.label (fun new _ => new) block placed).map (Block.retell tell) := by
  induction placed with
  | nil => rfl
  | cons other placed ih =>
    rw [List.map_cons, place, place, Block.label_retell, Block.label_retell]
    cases compare block.label other.label with
    | lt => rfl
    | eq => rfl
    | gt => simp only [ih, List.map_cons]

theorem placeAll_retell (added placed : List (Block κ)) :
    placeAll (added.map (Block.retell tell)) (placed.map (Block.retell tell)) =
      (placeAll added placed).map (Block.retell tell) := by
  induction added generalizing placed with
  | nil => rfl
  | cons block added ih =>
    show placeAll (added.map _) (place _ _ (block.retell tell) (placed.map _)) = _
    rw [place_retell, ih]
    rfl

theorem ofBlocks_retell (blocks : List (Block κ)) :
    ofBlocks (blocks.map (Block.retell tell)) = (ofBlocks blocks).retell tell :=
  eq_of_blocks (placeAll_retell tell blocks [{ label := .entry }])

/-! ## Reach -/

variable (story : StoryGraph κ)

theorem get?_retell (label : Label) :
    (story.retell tell).get? label = (story.get? label).map (Block.retell tell) :=
  Block.find?_retell tell label story.blocks

theorem without_retell (label : Label) (blocks : List (Block κ)) :
    without label (blocks.map (Block.retell tell)) =
      (without label blocks).map (Block.retell tell) :=
  List.filter_map ..

/-- The exploration visits the same blocks. -/
theorem explore_retell (unseen : List (Block κ)) (queue seen : List Label) :
    (story.retell tell).explore (unseen.map (Block.retell tell)) queue seen =
      story.explore unseen queue seen := by
  fun_induction explore story unseen queue seen with
  | case1 unseen seen => rw [explore]
  | case2 unseen seen label queue hfind ih =>
    have hfind' := Block.find?_retell tell label unseen
    rw [hfind] at hfind'
    rw [explore_none hfind', ih]
  | case3 unseen seen label queue block hfind target htarget =>
    have hfind' := Block.find?_retell tell label unseen
    rw [hfind] at hfind'
    simp only [explore_some hfind', Block.next_retell, get?_retell, Option.isNone_map, htarget]
  | case4 unseen seen label queue block hfind hnext ih =>
    have hfind' := Block.find?_retell tell label unseen
    rw [hfind] at hfind'
    simp only [explore_some hfind', Block.next_retell, get?_retell, Option.isNone_map, hnext,
      without_retell, ih]

theorem reachable_retell : (story.retell tell).reachable = story.reachable :=
  explore_retell tell story story.blocks [.entry] []

theorem incomingOf_retell (blocks : List (Block κ)) :
    incomingOf (blocks.map (Block.retell tell)) = incomingOf blocks := by
  unfold incomingOf
  rw [List.map_map]
  refine List.map_congr_left fun block _ => ?_
  rw [Function.comp_apply, List.filter_map, List.map_map]
  rfl

theorem incoming_retell : (story.retell tell).incoming = story.incoming := by
  rw [incoming_eq, incoming_eq, reachable_retell]
  refine bind_congr fun reached => congrArg pure ?_
  rw [retell, List.filter_map, incomingOf_retell]
  rfl

end StoryGraph

/-! ## Joining -/

namespace Merging

open StoryGraph

/-- The state of the pass with the records of all blocks told in another way. -/
def retell (state : Merging κ) : Merging κ :=
  { state with blocks := state.blocks.map (Block.retell tell) }

variable (state : Merging κ)

theorem get?_retell (label : Label) :
    (state.retell tell).get? label = (state.get? label).map (Block.retell tell) :=
  Block.find?_retell tell label state.blocks

theorem follower?_retell (block : Block κ) :
    (state.retell tell).follower? (block.retell tell) =
      (state.follower? block).map (Block.retell tell) := by
  unfold follower?
  rw [Block.next_retell]
  split
  · rw [get?_retell, apply_ite (Option.map _)]
    rfl
  · rfl

theorem absorbForward_retell (head tail : Block κ) :
    (state.retell tell).absorbForward (head.retell tell) (tail.retell tell) =
      (state.absorbForward head tail).retell tell := by
  unfold absorbForward retell
  rw [Merging.mk.injEq]
  refine ⟨?_, rfl, rfl, rfl⟩
  rw [Block.label_retell, without_retell, List.map_map, List.map_map]
  refine List.map_congr_left fun block _ => ?_
  simp only [Function.comp_apply, Block.label_retell, Block.absorb_retell]
  split <;> rfl

theorem absorbBackward_retell (head tail : Block κ) :
    (state.retell tell).absorbBackward (head.retell tell) (tail.retell tell) =
      (state.absorbBackward head tail).retell tell := by
  unfold absorbBackward retell
  rw [Merging.mk.injEq]
  refine ⟨?_, rfl, rfl, rfl⟩
  rw [Block.label_retell, without_retell, List.map_map, List.map_map]
  refine List.map_congr_left fun block _ => ?_
  simp only [Function.comp_apply, Block.label_retell]
  by_cases h : block.label = tail.label
  · simp [h, Block.retell, Block.relink]
  · simp only [h, if_false]
    rfl

theorem advance_retell (block : Block κ) :
    (state.retell tell).advance (block.retell tell) = (state.advance block).retell tell := by
  unfold advance
  rw [follower?_retell]
  cases state.follower? block with
  | none => rfl
  | some tail =>
    simp only [Option.map_some, Block.label_retell, absorbForward_retell, absorbBackward_retell]
    split
    · rfl
    · split <;> rfl

theorem look_retell (label : Label) :
    (state.retell tell).look label = (state.look label).retell tell := by
  unfold look
  rw [get?_retell, show (state.retell tell).settled = state.settled from rfl]
  split
  · rfl
  · cases state.get? label with
    | none => rfl
    | some block => exact advance_retell tell state block

theorem step_retell : (state.retell tell).step = state.step.retell tell := by
  unfold step
  rw [show (state.retell tell).queue = state.queue from rfl]
  cases state.queue with
  | nil => rfl
  | cons label queue => exact look_retell tell { state with queue } label

/-- The pass joins the same blocks. -/
theorem run_retell : (state.retell tell).run = state.run.retell tell := by
  fun_induction run state with
  | case1 state hqueue =>
    have hqueue' : (state.retell tell).queue = [] := hqueue
    rw [run]
    split
    · rfl
    · simp_all
  | case2 state label queue hqueue ih =>
    have hqueue' : (state.retell tell).queue = label :: queue := hqueue
    rw [run]
    split
    · simp_all
    · rw [step_retell, ih]

end Merging

namespace StoryGraph

/-- Joining the blocks of a story that is retold is retelling the joined story. -/
theorem joined_retell [FiniteCheck κ] (story : StoryGraph κ) :
    (story.retell tell).joined = retell tell <$> story.joined := by
  unfold joined
  rw [incoming_retell, map_bind]
  refine bind_congr fun incoming => ?_
  rw [map_pure, ← ofBlocks_retell]
  refine congrArg (fun blocks => pure (ofBlocks blocks)) ?_
  have hkept : ∀ kept : List (Block κ), Merging.start (kept.map (Block.retell tell)) incoming =
      (Merging.start kept incoming).retell tell := fun kept => rfl
  rw [retell, List.filter_map, hkept, Merging.run_retell]
  rfl

end StoryGraph

theorem Draft.finish_retell (draft : Draft κ) :
    (draft.retell tell).finish = StoryGraph.retell tell <$> draft.finish := by
  unfold finish
  rw [map_bind, show (draft.retell tell).lastLine = draft.lastLine from rfl,
    show (draft.retell tell).stack = draft.stack from rfl, closeMany_retell, bind_map_left]
  refine bind_congr fun closed => ?_
  rw [map_pure, ← StoryGraph.ofBlocks_retell]
  rfl

/-! ## Scripts -/

/-- The joined story of a script whose records are told in another way is its joined story with the
    records told in this way. -/
theorem joined_feedAll_retell [FiniteCheck κ] (reader : LineReader κ)
    (lines : List (String × Nat)) :
    (do (← (← Draft.start.feedAll (reader.retell tell) lines).finish).joined) =
      StoryGraph.retell tell <$> (do (← (← Draft.start.feedAll reader lines).finish).joined) := by
  have hfeed := Draft.feedAll_retell tell Draft.start reader lines
  simp only [map_bind, ← StoryGraph.joined_retell]
  rw [show Draft.start.feedAll (reader.retell tell) lines = _ from hfeed, bind_map_left]
  refine bind_congr fun draft => ?_
  rw [Draft.finish_retell, bind_map_left]

end Playthrough
