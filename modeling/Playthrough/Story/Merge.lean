import Playthrough.Story.Incoming

/-!
# Joining chains of blocks

A block whose only exit leads to a block that nothing else leads to is always played together with
it. The two are joined if one of them has a minted label, so that declared names stay: the joined
block has the label of the first, or of the second if only the first was minted.

The pass works through a queue of labels. Beside the blocks it keeps the table of which blocks lead
to which. A label is settled when its block has nothing left to join with.

* `Merging.step`: one turn of the pass.
* `Merging.run`: the pass. It ends because each turn takes a label off the queue, and all turns but
  those that only do that settle a block or remove one.
-/

namespace Playthrough

open StoryGraph

/-- The state of the pass. -/
structure Merging (κ : Type) where
  blocks : List (Block κ)
  /-- The blocks that lead to each label. -/
  incoming : Incoming
  /-- The labels to look at. -/
  queue : List Label
  /-- The labels that are done. -/
  settled : List Label

namespace Merging

variable {κ : Type}

/-- The block with a label. -/
def get? (label : Label) (state : Merging κ) : Option (Block κ) :=
  state.blocks.find? (·.label = label)

/-- The labels of the blocks that are not settled yet. -/
def pending (state : Merging κ) : List Label :=
  (state.blocks.map Block.label).filter (· ∉ state.settled)

/-- Whether exactly one block leads to a label. -/
def reachedOnce (label : Label) (incoming : Incoming) : Bool :=
  ((incoming.lookup label).map fun sources => sources.length == 1).getD false

/-- The block that is always played right after the given one, and by nothing else. -/
def follower? (block : Block κ) (state : Merging κ) : Option (Block κ) :=
  match block.next with
  | [target] =>
    if target ≠ block.label ∧ target ≠ .entry ∧ target ∉ state.settled
        ∧ reachedOnce target state.incoming then
      state.get? target
    else none
  | _ => none

/-- Puts `new` in place of `old` among the blocks that lead to some label. -/
def replaceSource (old new : Label) (sources : List Label) : List Label :=
  new :: sources.filter fun source => source ≠ old ∧ source ≠ new

/-- `head` swallows its minted follower `tail`. Stands for `absorb_forward`. -/
def absorbForward (head tail : Block κ) (state : Merging κ) : Merging κ :=
  { state with
    blocks := (without tail.label state.blocks).map fun block =>
      if block.label = head.label then tail.absorb block else block
    incoming := (state.incoming.filter (·.1 ≠ tail.label)).map fun entry =>
      if entry.1 ∈ tail.next then (entry.1, replaceSource tail.label head.label entry.2) else entry
    queue := state.queue ++ [head.label] }

/-- The minted `head` swallows its follower `tail` and takes over its label. Stands for
    `absorb_backward`. -/
def absorbBackward (head tail : Block κ) (state : Merging κ) : Merging κ :=
  let sources := (state.incoming.lookup head.label).getD []
  { state with
    blocks := (without head.label state.blocks).map fun block =>
      (if block.label = tail.label then { tail with text := head.text ++ tail.text }
        else block).relink head.label tail.label
    incoming := (state.incoming.filter (·.1 ≠ head.label)).map fun entry =>
      if entry.1 = tail.label then (entry.1, sources) else entry
    queue := state.queue ++ [tail.label] }

/-- Settles a block and queues the labels it leads to. -/
def settle (block : Block κ) (state : Merging κ) : Merging κ :=
  { state with
    queue := state.queue ++ block.next.filter (· ∉ state.settled)
    settled := block.label :: state.settled }

/-- What to do with a block that is not settled. -/
def advance (block : Block κ) (state : Merging κ) : Merging κ :=
  match state.follower? block with
  | some tail =>
    if tail.label.isSynthetic then state.absorbForward block tail
    else if block.label.isSynthetic then state.absorbBackward block tail
    else state.settle block
  | none => state.settle block

/-- Looks at a label: settled labels, and labels without a block, need nothing. -/
def look (label : Label) (state : Merging κ) : Merging κ :=
  if label ∈ state.settled then state
  else
    match state.get? label with
    | none => state
    | some block => state.advance block

/-- One turn: takes a label off the queue and looks at it. Stands for one turn of the loop of
    `merge_chains`. -/
def step (state : Merging κ) : Merging κ :=
  match state.queue with
  | [] => state
  | label :: queue => { state with queue }.look label

/-! ## The pass ends -/

theorem mem_pending {label : Label} {block : Block κ} {state : Merging κ}
    (hfound : state.get? label = some block) (hlabel : label ∉ state.settled) :
    block.label = label ∧ block.label ∈ state.pending := by
  have heq : block.label = label := by simpa using List.find?_some hfound
  refine ⟨heq, List.mem_filter.2 ⟨?_, ?_⟩⟩
  · exact List.mem_map_of_mem (List.mem_of_find?_eq_some hfound)
  · simpa [heq] using hlabel

theorem mem_pending_of_follower {block tail : Block κ} {state : Merging κ}
    (h : state.follower? block = some tail) : tail.label ∈ state.pending := by
  unfold follower? at h
  split at h
  · split at h
    · rename_i hcond
      exact (mem_pending h hcond.2.2.1).2
    · simp at h
  · simp at h

theorem labels_without (label : Label) (blocks : List (Block κ)) :
    (without label blocks).map Block.label = (blocks.map Block.label).filter (· ≠ label) := by
  simp [without, List.filter_map, Function.comp_def]

theorem pending_settle (block : Block κ) (state : Merging κ) :
    (state.settle block).pending = state.pending.filter (· ≠ block.label) := by
  simp [pending, settle, List.filter_filter]

theorem pending_absorbForward (head tail : Block κ) (state : Merging κ) :
    (state.absorbForward head tail).pending = state.pending.filter (· ≠ tail.label) := by
  have hmap : (fun block : Block κ => (if block.label = head.label then tail.absorb block
      else block).label) = Block.label := by
    funext block
    split <;> rfl
  simp [pending, absorbForward, Function.comp_def, hmap, labels_without, List.filter_filter,
    Bool.and_comm]

theorem pending_absorbBackward (head tail : Block κ) (state : Merging κ) :
    (state.absorbBackward head tail).pending = state.pending.filter (· ≠ head.label) := by
  have hmap : (fun block : Block κ => (if block.label = tail.label then
      { tail with text := head.text ++ tail.text } else block).label) = Block.label := by
    funext block
    split
    · rename_i h
      exact h.symm
    · rfl
  simp [pending, absorbBackward, Function.comp_def, hmap, labels_without, List.filter_filter,
    Bool.and_comm]

theorem length_pending_advance {label : Label} {block : Block κ} {state : Merging κ}
    (hfound : state.get? label = some block) (hlabel : label ∉ state.settled) :
    (state.advance block).pending.length < state.pending.length := by
  have hblock := (mem_pending hfound hlabel).2
  have hlt : ∀ label ∈ state.pending,
      (state.pending.filter (· ≠ label)).length < state.pending.length := fun label h =>
    List.length_filter_lt_length_iff_exists.2 ⟨label, h, by simp⟩
  unfold advance
  split
  · rename_i tail htail
    split
    · rw [pending_absorbForward]
      exact hlt _ (mem_pending_of_follower htail)
    · split
      · rw [pending_absorbBackward]
        exact hlt _ hblock
      · rw [pending_settle]
        exact hlt _ hblock
  · rw [pending_settle]
    exact hlt _ hblock

theorem look_eq_or (label : Label) (state : Merging κ) :
    state.look label = state ∨ (state.look label).pending.length < state.pending.length := by
  unfold look
  split
  · exact .inl rfl
  · rename_i hlabel
    split
    · exact .inl rfl
    · rename_i block hfound
      exact .inr (length_pending_advance hfound hlabel)

/-- A turn with a label to look at brings the pass closer to its end. -/
theorem step_decreases {state : Merging κ} {label : Label} {queue : List Label}
    (h : state.queue = label :: queue) :
    Prod.Lex (· < ·) (· < ·) (state.step.pending.length, state.step.queue.length)
      (state.pending.length, state.queue.length) := by
  have hstep : state.step = { state with queue }.look label := by
    unfold step
    rw [h]
  rw [hstep]
  rcases look_eq_or label { state with queue } with heq | hlt
  · rw [heq, h]
    exact Prod.Lex.right _ (Nat.lt_succ_self _)
  · exact Prod.Lex.left _ _ hlt

/-- Takes turns until the queue is empty. Stands for `merge_chains`. -/
def run (state : Merging κ) : Merging κ :=
  match _queue : state.queue with
  | [] => state
  | _ :: _ => run state.step
termination_by (state.pending.length, state.queue.length)
decreasing_by exact step_decreases _queue

/-- The state before the first turn. -/
def start (blocks : List (Block κ)) (incoming : Incoming) : Merging κ :=
  { blocks, incoming, queue := [.entry], settled := [] }

end Merging

end Playthrough
