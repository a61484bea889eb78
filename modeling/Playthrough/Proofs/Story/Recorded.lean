import Playthrough.Proofs.Story.Turns

/-!
# Joining by the table alone

A turn of the pass looks up the follower of a block before it joins the two, and a join leads every
exit to the label that goes to the one that stays. The table of the pass would do: it tells which
label follows, and which blocks have an exit to lead elsewhere. A pass that trusts its table joins
without looking up, puts a label back into the queue when it finds no block to join with, and relinks
the recorded sources only. On a story the two passes take the same turns, because the table is exact
and every exit leads to a block.

* `Merging.recordedStep`: a turn by the table alone.
* `step_eq_recordedStep`: it is the turn of the pass.
* `iterate_recordedStep`: so are all turns of the pass over a story.
-/

namespace Playthrough

open StoryGraph

variable {κ : Type}

namespace Merging

variable {state : Merging κ} {head tail block : Block κ}

/-- The label that is always played right after a block, as far as the table tells. -/
def followerLabel? (block : Block κ) (state : Merging κ) : Option Label :=
  match block.next with
  | [target] =>
    if target ≠ block.label ∧ target ≠ .entry ∧ target ∉ state.settled
        ∧ reachedOnce target state.incoming then
      some target
    else none
  | _ => none

/-- The minted `head` swallows its follower `tail` and takes over its label. Of the other blocks only
    those that are recorded as sources of `head` are relinked. -/
def absorbRecorded (head tail : Block κ) (state : Merging κ) : Merging κ :=
  let sources := (state.incoming.lookup head.label).getD []
  { state with
    blocks := (without head.label state.blocks).map fun block =>
      if block.label = tail.label then
        { tail with text := head.text ++ tail.text }.relink head.label tail.label
      else if block.label ∈ sources then block.relink head.label tail.label
      else block
    incoming := (state.incoming.filter (·.1 ≠ head.label)).map fun entry =>
      if entry.1 = tail.label then (entry.1, sources) else entry
    queue := state.queue ++ [tail.label] }

/-- A block swallows its minted follower, or is looked at again if the follower is not there. -/
def joinForward (head : Block κ) (target : Label) (state : Merging κ) : Merging κ :=
  match state.get? target with
  | some tail => state.absorbForward head tail
  | none => { state with queue := state.queue ++ [head.label] }

/-- A minted block is swallowed by its follower, or gets lost if the follower is not there. -/
def joinBackward (head : Block κ) (target : Label) (state : Merging κ) : Merging κ :=
  match state.get? target with
  | some tail => state.absorbRecorded head tail
  | none =>
    { state with
      blocks := without head.label state.blocks
      queue := state.queue ++ [target] }

/-- What to do with a block that is not settled, by the table alone. -/
def recordedAdvance (block : Block κ) (state : Merging κ) : Merging κ :=
  match state.followerLabel? block with
  | some target =>
    if target.isSynthetic then state.joinForward block target
    else if block.label.isSynthetic then state.joinBackward block target
    else state.settle block
  | none => state.settle block

/-- One turn by the table alone. -/
def recordedStep (state : Merging κ) : Merging κ :=
  match state.queue with
  | [] => state
  | label :: queue =>
    if label ∈ state.settled then { state with queue }
    else
      match state.get? label with
      | none => { state with queue }
      | some block => { state with queue }.recordedAdvance block

/-! ## The same turns -/

theorem follower?_eq (block : Block κ) (state : Merging κ) :
    state.follower? block = (state.followerLabel? block).bind state.get? := by
  unfold follower? followerLabel?
  rcases block.next with _ | ⟨target, _ | ⟨other, rest⟩⟩
  · rfl
  · dsimp only
    split <;> rfl
  · rfl

/-- The block of the label that follows is there. -/
theorem exists_follower (hclosed : state.atlas.Closed)
    (hblock : state.atlas block.label = some block) {target : Label}
    (h : state.followerLabel? block = some target) :
    ∃ tail, state.get? target = some tail ∧ tail.label = target ∧
      state.follower? block = some tail := by
  have hnext : block.next = [target] := by
    unfold followerLabel? at h
    split at h
    · rename_i hnext
      split at h
      · rw [hnext, Option.some.inj h]
      · cases h
    · cases h
  have hleads : state.atlas.Leads block.label target := ⟨block, hblock, by simp [hnext]⟩
  obtain ⟨tail, htail⟩ := Option.isSome_iff_exists.1 (hclosed block.label target hleads)
  refine ⟨tail, htail, (Atlas.label_of_eq_some htail).2, ?_⟩
  rw [follower?_eq, h]
  exact htail

theorem relink_of_not_mem {source target : Label} (h : source ∉ block.next) :
    block.relink source target = block := by
  have hnext : block.next.map (fun label => if label = source then target else label) =
      block.next := by
    refine (List.map_congr_left fun label hlabel => if_neg ?_).trans (List.map_id' _)
    rintro rfl
    exact h hlabel
  rw [Block.relink, hnext]

/-- Only recorded sources have an exit to relink. -/
theorem absorbRecorded_eq (hexact : Exact state) (hhead : state.atlas head.label = some head)
    (tail : Block κ) : state.absorbRecorded head tail = state.absorbBackward head tail := by
  obtain ⟨sources, hlookup, -, hsources⟩ := hexact.sources head.label head hhead
  unfold absorbRecorded absorbBackward
  rw [hlookup, Option.getD_some]
  dsimp only
  congr 1
  refine List.map_congr_left fun block hblock => ?_
  split
  · rfl
  · split
    · rfl
    · rename_i hsource
      rw [relink_of_not_mem]
      intro hmem
      have hblock : block ∈ state.blocks := (List.mem_filter.1 hblock).1
      exact hsource ((hsources block.label).2 (hexact.leads_iff.2 ⟨block, hblock, rfl, hmem⟩))

theorem recordedAdvance_eq (hexact : Exact state) (hclosed : state.atlas.Closed)
    (hblock : state.atlas block.label = some block) :
    state.recordedAdvance block = state.advance block := by
  unfold recordedAdvance advance
  cases htarget : state.followerLabel? block with
  | none =>
    rw [follower?_eq, htarget]
    rfl
  | some target =>
    obtain ⟨tail, htail, rfl, hfollower⟩ := exists_follower hclosed hblock htarget
    simp only [hfollower, joinForward, joinBackward, htail, absorbRecorded_eq hexact hblock]

/-- **Turns by the table.** A turn that trusts the table is the turn that looks up. -/
theorem step_eq_recordedStep (hexact : Exact state) (hclosed : state.atlas.Closed) :
    state.recordedStep = state.step := by
  unfold recordedStep step
  cases hqueue : state.queue with
  | nil => rfl
  | cons label queue =>
    dsimp only [look]
    split
    · rfl
    · have hget : Merging.get? label { state with queue } = state.get? label := rfl
      rw [hget]
      cases hblock : state.get? label with
      | none => rfl
      | some block =>
        obtain ⟨-, rfl⟩ := Atlas.label_of_eq_some hblock
        exact recordedAdvance_eq (hexact.congr rfl rfl) hclosed hblock

theorem Underway.iterate_recordedStep (h : Underway state) (hexact : Exact state)
    (hkeyed : Keyed state) (turns : ℕ) :
    recordedStep^[turns] state = Merging.step^[turns] state := by
  induction turns with
  | zero => rfl
  | succ turns ih =>
    obtain ⟨hunderway, hexact, -⟩ := h.iterate hexact hkeyed turns
    rw [Function.iterate_succ_apply', Function.iterate_succ_apply', ih]
    exact step_eq_recordedStep hexact hunderway.closed

end Merging

/-- **The pass by the table.** Over every story that has a table, the pass takes the turns that its
    table tells: no follower is missing, and no block is left with an exit to a label that is gone. -/
theorem StoryGraph.iterate_recordedStep (story : StoryGraph κ) {incoming : Incoming}
    (h : story.incoming = .ok incoming) (turns : ℕ) :
    Merging.recordedStep^[turns] (story.outset incoming) =
      Merging.step^[turns] (story.outset incoming) := by
  obtain ⟨reached, hreached, -⟩ := incoming_eq_ok h
  rw [outset_eq hreached h]
  exact (underway_unjoined hreached).iterate_recordedStep (exact_unjoined hreached)
    (story.keyed_unjoined reached) turns

end Playthrough
