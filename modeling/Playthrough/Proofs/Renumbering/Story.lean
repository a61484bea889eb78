import Playthrough.Proofs.Renumbering.Basic
import Playthrough.Proofs.Story.Dangling

/-!
# Stories that differ only in lines

A story is explored, joined and reduced in the same way whatever its lines are. Labels are compared
for being equal everywhere, and for their order where the blocks of a story are listed. The order
ignores the lines because each number stands on one line.

* `OneLine`: no number stands on two lines.
* `blocks_ofBlocks_renumber`: the blocks of a story are listed in the same order.
* `Merging.run_renumber`: the pass joins the same blocks.
* `reduce_renumber`: the reduced stories differ only in lines, or both are refused for the same
  cause.
-/

namespace Playthrough

open StoryGraph

variable {κ : Type} {σ : Renumbering}

/-! ## Order -/

/-- No number stands on two lines. -/
def OneLine (labels : List Label) : Prop :=
  ∀ index line line' origin origin', .synthetic index line origin ∈ labels →
    .synthetic index line' origin' ∈ labels → line = line'

theorem OneLine.mono {labels labels' : List Label} (h : OneLine labels) (hsub : labels' ⊆ labels) :
    OneLine labels' := fun index line line' origin origin' hmem hmem' =>
  h index line line' origin origin' (hsub hmem) (hsub hmem')

theorem OneLine.compare_renumber {labels : List Label} (h : OneLine labels) {a b : Label}
    (ha : a ∈ labels) (hb : b ∈ labels) :
    compare (a.renumber σ) (b.renumber σ) = compare a b := by
  refine Label.compare_renumber ?_
  rintro index line line' origin origin' rfl rfl
  exact h index line line' origin origin' ha hb

namespace StoryGraph

theorem place_renumber {block : Block κ} {placed : List (Block κ)}
    (h : OneLine (block.label :: placed.map Block.label)) :
    place Block.label (fun new _ => new) (block.renumber σ) (placed.map (·.renumber σ)) =
      (place Block.label (fun new _ => new) block placed).map (·.renumber σ) := by
  induction placed with
  | nil => rfl
  | cons other placed ih =>
    have hcompare : compare (block.label.renumber σ) (other.label.renumber σ) =
        compare block.label other.label :=
      h.compare_renumber List.mem_cons_self (List.mem_cons_of_mem _ List.mem_cons_self)
    have hrest := ih (h.mono (List.cons_subset_cons _ (List.subset_cons_self _ _)))
    rw [List.map_cons, place, place, Block.label_renumber, Block.label_renumber, hcompare]
    cases compare block.label other.label with
    | lt => rfl
    | eq => rfl
    | gt => simp only [hrest, List.map_cons]

theorem placeAll_renumber {added placed : List (Block κ)}
    (h : OneLine (added.map Block.label ++ placed.map Block.label)) :
    placeAll (added.map (·.renumber σ)) (placed.map (·.renumber σ)) =
      (placeAll added placed).map (·.renumber σ) := by
  induction added generalizing placed with
  | nil => rfl
  | cons block added ih =>
    rw [List.map_cons, List.cons_append] at h
    have hplace := place_renumber (σ := σ) (h.mono
      (List.cons_subset_cons _ (List.subset_append_right _ _)))
    have hrest : OneLine (added.map Block.label ++
        (place Block.label (fun new _ => new) block placed).map Block.label) := by
      refine h.mono fun label hlabel => ?_
      rw [List.mem_append, mem_map_key_place (fun _ _ _ => rfl)] at hlabel
      rw [List.mem_cons, List.mem_append]
      rcases hlabel with hlabel | hlabel | hlabel
      · exact Or.inr (Or.inl hlabel)
      · exact Or.inl hlabel
      · exact Or.inr (Or.inr hlabel)
    show placeAll (added.map _) (place _ _ (block.renumber σ) (placed.map _)) = _
    rw [hplace, ih hrest]
    rfl

/-- The blocks of a story are listed in the same order, whatever their lines. -/
theorem blocks_ofBlocks_renumber {blocks : List (Block κ)} (h : OneLine (blocks.map Block.label)) :
    (ofBlocks (blocks.map (·.renumber σ))).blocks =
      (ofBlocks blocks).blocks.map (·.renumber σ) := by
  have hentry : OneLine (blocks.map Block.label ++
      [({ label := .entry } : Block κ)].map Block.label) := by
    intro index line line' origin origin' hmem hmem'
    simp only [List.map_cons, List.map_nil, List.mem_append, List.mem_singleton, reduceCtorEq,
      or_false] at hmem hmem'
    exact h index line line' origin origin' hmem hmem'
  exact placeAll_renumber hentry

/-! ## Reach -/

section

variable {story story' : StoryGraph κ}

theorem get?_renumber (h : story'.blocks = story.blocks.map (·.renumber σ)) (label : Label) :
    story'.get? (label.renumber σ) = (story.get? label).map (·.renumber σ) := by
  rw [get?, h]
  exact Block.find?_renumber label story.blocks

theorem without_renumber (label : Label) (blocks : List (Block κ)) :
    without (label.renumber σ) (blocks.map (·.renumber σ)) =
      (without label blocks).map (·.renumber σ) := by
  simp [without, List.filter_map, Function.comp_def]

/-- An exit leads nowhere, whatever its line. -/
theorem find?_dangling_renumber (h : story'.blocks = story.blocks.map (·.renumber σ))
    (labels : List Label) :
    ((labels.map (·.renumber σ)).find? fun target => (story'.get? target).isNone) =
      (labels.find? fun target => (story.get? target).isNone).map (·.renumber σ) := by
  simp [List.find?_map, get?_renumber h]

/-- The exploration visits the same blocks. -/
theorem explore_renumber (h : story'.blocks = story.blocks.map (·.renumber σ))
    (unseen : List (Block κ)) (queue seen : List Label) :
    Alike σ (fun reached reached' => reached' = reached.map (·.renumber σ))
      (story.explore unseen queue seen)
      (story'.explore (unseen.map (·.renumber σ)) (queue.map (·.renumber σ))
        (seen.map (·.renumber σ))) := by
  fun_induction explore story unseen queue seen with
  | case1 unseen seen =>
    rw [List.map_nil, explore]
    exact .ok List.map_reverse.symm
  | case2 unseen seen label queue hfind ih =>
    have hfind' := Block.find?_renumber (σ := σ) label unseen
    rw [hfind] at hfind'
    rw [List.map_cons, explore_none hfind']
    exact ih
  | case3 unseen seen label queue block hfind target htarget =>
    have hfind' := Block.find?_renumber (σ := σ) label unseen
    rw [hfind] at hfind'
    rw [List.map_cons, explore_some hfind', Block.next_renumber, find?_dangling_renumber h, htarget]
    exact .error (.danglingEdge label target)
  | case4 unseen seen label queue block hfind hnext ih =>
    have hfind' := Block.find?_renumber (σ := σ) label unseen
    rw [hfind] at hfind'
    rw [List.map_append, List.map_cons, ← without_renumber] at ih
    rw [List.map_cons, explore_some hfind', Block.next_renumber, find?_dangling_renumber h, hnext]
    exact ih

theorem reachable_renumber (h : story'.blocks = story.blocks.map (·.renumber σ)) :
    Alike σ (fun reached reached' => reached' = reached.map (·.renumber σ))
      story.reachable story'.reachable := by
  rw [reachable, reachable, h]
  exact explore_renumber h story.blocks [.entry] []

/-- Moves the lines in a table of the blocks that lead to each label. -/
def Incoming.renumber (σ : Renumbering) (incoming : Incoming) : Incoming :=
  incoming.map (Prod.map (Label.renumber σ) (List.map (Label.renumber σ)))

theorem incomingOf_renumber (blocks : List (Block κ)) :
    incomingOf (blocks.map (·.renumber σ)) = Incoming.renumber σ (incomingOf blocks) := by
  simp [incomingOf, Incoming.renumber, List.filter_map, Function.comp_def]

theorem filter_reached_renumber (blocks : List (Block κ)) (reached : List Label) :
    (blocks.map (·.renumber σ)).filter (·.label ∈ reached.map (·.renumber σ)) =
      (blocks.filter (·.label ∈ reached)).map (·.renumber σ) := by
  simp [List.filter_map, Function.comp_def]

theorem incoming_renumber (h : story'.blocks = story.blocks.map (·.renumber σ)) :
    Alike σ (fun incoming incoming' => incoming' = Incoming.renumber σ incoming)
      story.incoming story'.incoming := by
  rw [incoming_eq, incoming_eq]
  refine (reachable_renumber h).bind ?_
  rintro reached _ rfl
  rw [h, filter_reached_renumber, incomingOf_renumber]
  exact .ok rfl

end

end StoryGraph

/-! ## Joining -/

namespace Merging

/-- Moves the lines of all labels of a state of the pass. -/
def renumber (σ : Renumbering) (state : Merging κ) : Merging κ where
  blocks := state.blocks.map (·.renumber σ)
  incoming := Incoming.renumber σ state.incoming
  queue := state.queue.map (·.renumber σ)
  settled := state.settled.map (·.renumber σ)

theorem get?_renumber (label : Label) (state : Merging κ) :
    (state.renumber σ).get? (label.renumber σ) = (state.get? label).map (·.renumber σ) :=
  Block.find?_renumber label state.blocks

theorem lookup_renumber (label : Label) (incoming : Incoming) :
    (Incoming.renumber σ incoming).lookup (label.renumber σ) =
      (incoming.lookup label).map (List.map (Label.renumber σ)) :=
  Label.lookup_renumber _ incoming label

theorem reachedOnce_renumber (label : Label) (incoming : Incoming) :
    reachedOnce (label.renumber σ) (Incoming.renumber σ incoming) = reachedOnce label incoming := by
  simp [reachedOnce, lookup_renumber, Function.comp_def]

theorem follower?_renumber (block : Block κ) (state : Merging κ) :
    (state.renumber σ).follower? (block.renumber σ) =
      (state.follower? block).map (·.renumber σ) := by
  unfold follower?
  rw [Block.next_renumber]
  cases hnext : block.next with
  | nil => rfl
  | cons target rest =>
    cases rest with
    | cons other rest => rfl
    | nil =>
      simp only [List.map_cons, List.map_nil, Block.label_renumber, ne_eq, Label.renumber_inj,
        Label.renumber_eq_entry, renumber, Label.mem_map_renumber, reachedOnce_renumber]
      split
      · exact get?_renumber target state
      · rfl

theorem replaceSource_renumber (old new : Label) (sources : List Label) :
    replaceSource (old.renumber σ) (new.renumber σ) (sources.map (·.renumber σ)) =
      (replaceSource old new sources).map (·.renumber σ) := by
  simp [replaceSource, List.filter_map, Function.comp_def]

theorem filter_incoming_renumber (label : Label) (incoming : Incoming) :
    (Incoming.renumber σ incoming).filter (·.1 ≠ label.renumber σ) =
      Incoming.renumber σ (incoming.filter (·.1 ≠ label)) := by
  simp [Incoming.renumber, List.filter_map, Function.comp_def]

theorem map_incoming_renumber {change change' : Label × List Label → Label × List Label}
    (h : ∀ label sources, change' (label.renumber σ, sources.map (·.renumber σ)) =
      Prod.map (Label.renumber σ) (List.map (Label.renumber σ)) (change (label, sources)))
    (incoming : Incoming) :
    (Incoming.renumber σ incoming).map change' = Incoming.renumber σ (incoming.map change) := by
  rw [Incoming.renumber, Incoming.renumber, List.map_map, List.map_map]
  exact List.map_congr_left fun entry _ => h entry.1 entry.2

theorem map_blocks_renumber {change change' : Block κ → Block κ}
    (h : ∀ block, change' (block.renumber σ) = (change block).renumber σ)
    (blocks : List (Block κ)) :
    (blocks.map (·.renumber σ)).map change' = (blocks.map change).map (·.renumber σ) := by
  rw [List.map_map, List.map_map]
  exact List.map_congr_left fun block _ => h block

theorem absorbForward_renumber (head tail : Block κ) (state : Merging κ) :
    (state.renumber σ).absorbForward (head.renumber σ) (tail.renumber σ) =
      (state.absorbForward head tail).renumber σ := by
  unfold absorbForward renumber
  rw [Merging.mk.injEq]
  refine ⟨?_, ?_, by simp, rfl⟩
  · show List.map _ (without (tail.label.renumber σ) (state.blocks.map (·.renumber σ))) = _
    rw [without_renumber]
    refine map_blocks_renumber (fun block => ?_) _
    by_cases h : block.label = head.label
    · simp only [Block.label_renumber, h, if_true]
      rfl
    · simp [h]
  · show List.map _ ((Incoming.renumber σ state.incoming).filter (·.1 ≠ tail.label.renumber σ)) = _
    rw [filter_incoming_renumber]
    refine map_incoming_renumber (fun label sources => ?_) _
    by_cases h : label ∈ tail.next
    · simp [h, replaceSource_renumber]
    · simp [h]

theorem absorbBackward_renumber (head tail : Block κ) (state : Merging κ) :
    (state.renumber σ).absorbBackward (head.renumber σ) (tail.renumber σ) =
      (state.absorbBackward head tail).renumber σ := by
  have hsources : ((Incoming.renumber σ state.incoming).lookup (head.label.renumber σ)).getD [] =
      ((state.incoming.lookup head.label).getD []).map (·.renumber σ) := by
    rw [lookup_renumber]
    cases state.incoming.lookup head.label <;> rfl
  unfold absorbBackward renumber
  rw [Merging.mk.injEq]
  refine ⟨?_, ?_, by simp, rfl⟩
  · show List.map _ (without (head.label.renumber σ) (state.blocks.map (·.renumber σ))) = _
    rw [without_renumber]
    refine map_blocks_renumber (fun block => ?_) _
    rw [← Block.relink_renumber]
    by_cases h : block.label = tail.label
    · simp [h, Block.renumber]
    · simp [h]
  · show List.map _ ((Incoming.renumber σ state.incoming).filter (·.1 ≠ head.label.renumber σ)) = _
    rw [filter_incoming_renumber]
    refine map_incoming_renumber (fun label sources => ?_) _
    by_cases h : label = tail.label
    · simpa [h] using hsources
    · simp [h]

theorem settle_renumber (block : Block κ) (state : Merging κ) :
    (state.renumber σ).settle (block.renumber σ) = (state.settle block).renumber σ := by
  have hnext : (block.next.map (·.renumber σ)).filter
      (· ∉ state.settled.map (·.renumber σ)) =
      (block.next.filter (· ∉ state.settled)).map (·.renumber σ) := by
    rw [List.filter_map]
    congr 2
    funext label
    simp only [Function.comp_apply, Label.mem_map_renumber]
  unfold settle renumber
  rw [Merging.mk.injEq]
  refine ⟨rfl, rfl, ?_, rfl⟩
  rw [List.map_append, ← hnext]
  rfl

theorem advance_renumber (block : Block κ) (state : Merging κ) :
    (state.renumber σ).advance (block.renumber σ) = (state.advance block).renumber σ := by
  unfold advance
  rw [follower?_renumber]
  cases state.follower? block with
  | none => exact settle_renumber block state
  | some tail =>
    simp only [Option.map_some, Block.label_renumber, Label.isSynthetic_renumber,
      absorbForward_renumber, absorbBackward_renumber, settle_renumber]
    split
    · rfl
    · split <;> rfl

theorem look_renumber (label : Label) (state : Merging κ) :
    (state.renumber σ).look (label.renumber σ) = (state.look label).renumber σ := by
  unfold look
  rw [get?_renumber]
  have hsettled : label.renumber σ ∈ (state.renumber σ).settled ↔ label ∈ state.settled :=
    Label.mem_map_renumber
  simp only [hsettled]
  split
  · rfl
  · cases state.get? label with
    | none => rfl
    | some block => exact advance_renumber block state

theorem step_renumber (state : Merging κ) : (state.renumber σ).step = state.step.renumber σ := by
  unfold step
  cases hqueue : state.queue with
  | nil => simp [renumber, hqueue]
  | cons label queue =>
    simp only [renumber, hqueue, List.map_cons]
    exact look_renumber label { state with queue }

/-- The pass joins the same blocks. -/
theorem run_renumber (state : Merging κ) : (state.renumber σ).run = state.run.renumber σ := by
  fun_induction run state with
  | case1 state hqueue =>
    rw [run]
    split
    · rfl
    · rename_i label queue hcons
      simp [renumber, hqueue] at hcons
  | case2 state label queue hqueue ih =>
    rw [run]
    split
    · rename_i hnil
      simp [renumber, hqueue] at hnil
    · rw [step_renumber, ih]

/-- The pass makes no labels up. -/
theorem isSome_of_run {state : Merging κ} (hexact : Exact state) {label : Label}
    (hsome : (state.run.atlas label).isSome) : (state.atlas label).isSome := by
  refine (run_induction (motive := fun after =>
    ∀ label, (after.atlas label).isSome → (state.atlas label).isSome) ?_ ?_ ?_ state hexact
    fun _ hsome => hsome).1 label hsome
  · intro after label queue _ h _ _
    exact h
  · intro after block queue _ h _ _ _ _
    exact h
  · intro before after head tail kept queue _ _ h _ hjoins label hsome
    rcases hjoins.isSome_iff.1 hsome with rfl | ⟨-, -, hsome⟩
    · rcases hjoins.kept_eq with rfl | rfl
      · exact h _ (by rw [hjoins.head_eq]; rfl)
      · exact h _ (by rw [hjoins.tail_eq]; rfl)
    · exact h label hsome

end Merging

/-! ## Reducing -/

/-- Moves the lines of all labels of a costed block. -/
def CostedBlock.renumber (σ : Renumbering) (costed : CostedBlock κ) : CostedBlock κ :=
  { costed with
    block := costed.block.renumber σ
    incoming := costed.incoming.map (·.renumber σ) }

/-- Moves the lines of all labels of a reduced story. -/
def CostedGraph.renumber (σ : Renumbering) (graph : CostedGraph κ) : CostedGraph κ where
  blocks := graph.blocks.map (·.renumber σ)

theorem Alike.mapM {α β γ δ : Type} {f : α → Except (Fault κ) β} {g : γ → Except (Fault κ) δ}
    {before : α → γ} {after : β → δ}
    (h : ∀ value, Alike σ (fun result result' => result' = after result) (f value)
      (g (before value))) (values : List α) :
    Alike σ (fun results results' => results' = results.map after) (values.mapM f)
      ((values.map before).mapM g) := by
  induction values with
  | nil => exact .ok rfl
  | cons value values ih =>
    rw [List.map_cons, List.mapM_cons, List.mapM_cons]
    refine (h value).bind ?_
    rintro result _ rfl
    refine ih.bind ?_
    rintro results _ rfl
    exact .ok rfl

namespace StoryGraph

variable {story story' : StoryGraph κ}

theorem unjoined_renumber (h : story'.blocks = story.blocks.map (·.renumber σ))
    (reached : List Label) :
    story'.unjoined (reached.map (·.renumber σ)) = (story.unjoined reached).renumber σ := by
  unfold unjoined
  dsimp only
  rw [h, filter_reached_renumber, incomingOf_renumber]
  rfl

/-- The same blocks are joined. -/
theorem joined_renumber (h : story'.blocks = story.blocks.map (·.renumber σ))
    (hline : OneLine (story.blocks.map Block.label)) :
    Alike σ (fun joined joined' => joined'.blocks = joined.blocks.map (·.renumber σ))
      story.joined story'.joined := by
  rcases (reachable_renumber h).cases with ⟨reached, _, hreached, hreached', rfl⟩ |
    ⟨fault, fault', hfault, hfault', halike⟩
  · rw [joined_of_reachable hreached, joined_of_reachable hreached', unjoined_renumber h,
      Merging.run_renumber]
    -- joining keeps labels of the story only, so they are still listed in the same order
    refine .ok (blocks_ofBlocks_renumber (hline.mono fun label hlabel => ?_))
    rw [← Atlas.isSome_of_iff] at hlabel ⊢
    have hkept := Merging.isSome_of_run (exact_unjoined hreached) hlabel
    rw [isSome_unjoined_iff hreached] at hkept
    exact isSome_of_reachable hreached hkept
  · rw [joined_eq_error_iff.2 hfault, joined_eq_error_iff.2 hfault']
    exact .error halike

variable [FiniteCheck κ]

theorem costBlock_renumber (tally : Tally κ) (block : Block κ) (sources : List Label) :
    Alike σ (fun costed costed' => costed' = costed.renumber σ) (costBlock tally block sources)
      (costBlock tally (block.renumber σ) (sources.map (·.renumber σ))) := by
  unfold costBlock
  dsimp only [Block.text_renumber]
  split
  · exact .ok rfl
  · exact .error (.nonFiniteCost block.label _)

/-- Two stories that differ only in lines are reduced to stories that do, or both are refused for
    the same cause. -/
theorem reduce_renumber (h : story'.blocks = story.blocks.map (·.renumber σ))
    (hline : OneLine (story.blocks.map Block.label)) (tally : Tally κ) :
    Alike σ (fun graph graph' => graph' = graph.renumber σ) (story.reduce tally)
      (story'.reduce tally) := by
  refine (joined_renumber h hline).bind fun joined joined' hjoined => ?_
  refine (incoming_renumber hjoined).bind ?_
  rintro incoming _ rfl
  have hsourced : (joined'.blocks.filterMap fun block =>
      ((Incoming.renumber σ incoming).lookup block.label).map fun sources => (block, sources)) =
      (joined.blocks.filterMap fun block =>
        (incoming.lookup block.label).map fun sources => (block, sources)).map
        (Prod.map (Block.renumber σ) (List.map (Label.renumber σ))) := by
    rw [hjoined, List.filterMap_map, List.map_filterMap]
    refine List.filterMap_congr fun block _ => ?_
    simp [Merging.lookup_renumber, Function.comp_def]
  dsimp only
  rw [hsourced]
  refine (Alike.mapM (fun entry => costBlock_renumber tally entry.1 entry.2) _).bind ?_
  rintro blocks _ rfl
  exact .ok rfl

end StoryGraph

end Playthrough
