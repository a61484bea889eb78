import Mathlib
import Playthrough.Proofs.Story.Dangling
import Playthrough.Proofs.Story.Normal

/-!
# The pass from turn to turn

The pass changes its table of which blocks lead to which in a few places only, and puts a joined block
back into the queue. Still the table is exact before every turn, and the turns come to an end: each
one uses up something of the labels in the queue and of the blocks and exits that are not settled.

* `Merging.Accurate`: what holds before every turn.
* `Merging.Keyed`, `Merging.Underway`: what is carried from turn to turn to show it.
* `Merging.effort`: a bound for the turns that are left; `effort_step_lt` shows that a turn lowers it.
* `pass_exact`: the pass over a story, turn by turn and at its end.
-/

namespace Playthrough

open StoryGraph

variable {κ : Type}

namespace Merging

variable {state after : Merging κ} {head tail block : Block κ} {kept label : Label}

/-! ## The keys of the table -/

/-- The table has one entry for each block, in the same order. -/
def Keyed (state : Merging κ) : Prop :=
  state.incoming.map Prod.fst = state.blocks.map Block.label

theorem keyed_without {blocks : List (Block κ)} {incoming : Incoming} {f : Block κ → Block κ}
    {g : Label × List Label → Label × List Label} (hf : ∀ block, (f block).label = block.label)
    (hg : ∀ entry, (g entry).1 = entry.1)
    (h : incoming.map Prod.fst = blocks.map Block.label) (gone : Label) :
    ((incoming.filter (·.1 ≠ gone)).map g).map Prod.fst =
      ((without gone blocks).map f).map Block.label := by
  rw [List.map_map, List.map_map, Function.comp_def, Function.comp_def]
  simp only [hf, hg]
  rw [labels_without, ← h, List.filter_map]
  rfl

theorem Keyed.turn (h : Keyed state) (hturn : Turn state label after) : Keyed after := by
  cases hturn with
  | skip => exact h
  | forward =>
    refine keyed_without (label_swallow _ _) (fun entry => ?_) h _
    split <;> rfl
  | backward =>
    refine keyed_without (label_takeOver _ _) (fun entry => ?_) h _
    split <;> rfl
  | settle => exact h

theorem Keyed.step (h : Keyed state) : Keyed state.step := by
  unfold Merging.step
  split
  · exact h
  · rename_i label queue _
    have hpopped : Keyed { state with queue } := h
    exact hpopped.turn (turn_look label { state with queue })

/-! ## What holds before every turn -/

/-- Before every turn all blocks are in reach, all exits lead to blocks, and the table says exactly
    which blocks lead to which. A settled block was led to by another one, or is the entry. So a block
    with a single source that is looked at is never settled: that source would be settled too. -/
structure Accurate (state : Merging κ) : Prop where
  nodup : (state.blocks.map Block.label).Nodup
  reached : ∀ block ∈ state.blocks, state.atlas.Reaches .entry block.label
  closed : ∀ block ∈ state.blocks, ∀ target ∈ block.next, target ∈ state.blocks.map Block.label
  nodup_keys : (state.incoming.map Prod.fst).Nodup
  mem_keys : ∀ label,
    label ∈ state.incoming.map Prod.fst ↔ label ∈ state.blocks.map Block.label
  sources : ∀ entry ∈ state.incoming, entry.2.Nodup ∧ ∀ source,
    source ∈ entry.2 ↔ ∃ block ∈ state.blocks, block.label = source ∧ entry.1 ∈ block.next
  settled_mem : ∀ label ∈ state.settled, label ∈ state.blocks.map Block.label
  settled_source : ∀ label ∈ state.settled, label ≠ .entry →
    ∃ block ∈ state.blocks, block.label ∈ state.settled ∧ label ∈ block.next
  /-- The test of a follower for being settled makes no difference. -/
  unsettled : ∀ block ∈ state.blocks, block.label ∉ state.settled →
    ∀ target, block.next = [target] → target ≠ .entry →
      reachedOnce target state.incoming = true → target ∉ state.settled

/-- What is carried from turn to turn, beside the table. -/
structure Underway (state : Merging κ) : Prop extends Stable state where
  connected : state.atlas.Connected
  closed : state.atlas.Closed
  present : ∀ label ∈ state.settled, (state.atlas label).isSome

theorem Underway.step (h : Underway state) (hexact : Exact state) : Underway state.step := by
  refine step_induction ?_ ?_ ?_ state hexact h
  · intro state label queue hexact h hqueue hskip
    exact ⟨h.toStable.skip hexact hqueue hskip, h.connected, h.closed, h.present⟩
  · intro state block queue hexact h hqueue hblock hunsettled hfollower
    refine ⟨h.toStable.settle hexact hqueue hblock hunsettled hfollower, h.connected, h.closed, ?_⟩
    intro label hlabel
    rcases List.mem_cons.1 hlabel with rfl | hlabel
    · exact Option.isSome_iff_exists.2 ⟨block, hblock⟩
    · exact h.present label hlabel
  · intro state after head tail kept queue _ _ h hqueue hjoins
    refine ⟨h.toStable.join hqueue hjoins, hjoins.connected h.connected, hjoins.closed h.closed, ?_⟩
    intro label hlabel
    rw [hjoins.settled_eq] at hlabel
    obtain ⟨hhead, htail⟩ := hjoins.ne_of_settled hlabel
    exact hjoins.isSome_iff.2 (Or.inr ⟨hhead, htail, h.present label hlabel⟩)

theorem Exact.leads_iff (h : Exact state) {source target : Label} :
    state.atlas.Leads source target ↔
      ∃ block ∈ state.blocks, block.label = source ∧ target ∈ block.next := by
  constructor
  · rintro ⟨block, hblock, htarget⟩
    obtain ⟨hmem, hlabel⟩ := Atlas.label_of_eq_some hblock
    exact ⟨block, hmem, hlabel, htarget⟩
  · rintro ⟨block, hmem, hlabel, htarget⟩
    exact ⟨block, (Atlas.of_eq_some_iff h.nodup).2 ⟨hmem, hlabel⟩, htarget⟩

theorem Underway.accurate (h : Underway state) (hexact : Exact state) (hkeyed : Keyed state) :
    Accurate state := by
  have hblock : ∀ block ∈ state.blocks, state.atlas block.label = some block := fun block hmem =>
    (Atlas.of_eq_some_iff hexact.nodup).2 ⟨hmem, rfl⟩
  have hkeys : (state.incoming.map Prod.fst).Nodup := hkeyed ▸ hexact.nodup
  refine ⟨hexact.nodup, ?_, ?_, hkeys, fun label => by rw [hkeyed], ?_, ?_, ?_, ?_⟩
  · intro block hmem
    exact h.connected block.label (Option.isSome_iff_exists.2 ⟨block, hblock block hmem⟩)
  · intro block hmem target htarget
    exact Atlas.isSome_of_iff.1 (h.closed block.label target ⟨block, hblock block hmem, htarget⟩)
  · intro entry hentry
    have hlabel : entry.1 ∈ state.blocks.map Block.label := hkeyed ▸ List.mem_map_of_mem hentry
    obtain ⟨block, hfound⟩ := Option.isSome_iff_exists.1 (Atlas.isSome_of_iff.2 hlabel)
    obtain ⟨sources, hlookup, hnodup, hsources⟩ := hexact.sources entry.1 block hfound
    obtain rfl := Option.some.inj ((Table.lookup_of_mem hkeys hentry).symm.trans hlookup)
    exact ⟨hnodup, fun source => (hsources source).trans hexact.leads_iff⟩
  · intro label hlabel
    exact Atlas.isSome_of_iff.1 (h.present label hlabel)
  · intro label hlabel hentry
    rcases h.led label (Or.inl hlabel) (h.present label hlabel) with heq | ⟨source, hsource, hleads⟩
    · exact absurd heq hentry
    · obtain ⟨block, hmem, rfl, htarget⟩ := hexact.leads_iff.1 hleads
      exact ⟨block, hmem, hsource, htarget⟩
  · intro block hmem hunsettled target hnext hentry honce hsettled
    -- the settled source and the block itself would be two sources
    rcases h.led target (Or.inl hsettled) (h.present target hsettled) with
      heq | ⟨source, hsource, hleads⟩
    · exact hentry heq
    · obtain ⟨found, hfound⟩ := Option.isSome_iff_exists.1 (h.present target hsettled)
      obtain ⟨sources, hlookup, -, hsources⟩ := hexact.sources target found hfound
      have hlength : sources.length = 1 := by simpa [reachedOnce, hlookup] using honce
      obtain ⟨only, rfl⟩ := List.length_eq_one_iff.1 hlength
      have hsource' := List.mem_singleton.1 ((hsources source).2 hleads)
      have hblock' := List.mem_singleton.1
        ((hsources block.label).2 ⟨block, hblock block hmem, by simp [hnext]⟩)
      exact hunsettled (hblock' ▸ hsource' ▸ hsource)

/-- What is carried from turn to turn holds after any number of them. -/
theorem Underway.iterate (h : Underway state) (hexact : Exact state) (hkeyed : Keyed state)
    (turns : ℕ) :
    Underway (Merging.step^[turns] state) ∧ Exact (Merging.step^[turns] state) ∧
      Keyed (Merging.step^[turns] state) := by
  induction turns with
  | zero => exact ⟨h, hexact, hkeyed⟩
  | succ turns ih =>
    obtain ⟨hunderway, hexact, hkeyed⟩ := ih
    rw [Function.iterate_succ_apply']
    exact ⟨hunderway.step hexact, hexact.step.1, hkeyed.step⟩

/-! ## The turns come to an end -/

/-- The labels of the blocks that are not settled. -/
def remaining (state : Merging κ) : Finset Label := state.pending.toFinset

/-- What a block can cost: a turn of its own, and one for each label that it puts into the queue. -/
def weight (state : Merging κ) (label : Label) : ℕ :=
  (state.atlas label).elim 0 fun block => block.next.length + 1

/-- A bound for the turns that are left. -/
def effort (state : Merging κ) : ℕ :=
  state.queue.length + ∑ label ∈ state.remaining, state.weight label

theorem mem_remaining : label ∈ state.remaining ↔
    (state.atlas label).isSome ∧ label ∉ state.settled := by
  rw [remaining, List.mem_toFinset, pending, List.mem_filter, decide_eq_true_eq,
    Atlas.isSome_of_iff]

theorem weight_of_eq_some (h : state.atlas label = some block) :
    state.weight label = block.next.length + 1 := by
  rw [weight, h, Option.elim_some]

/-- Settling a block uses it up, with the exits that it puts into the queue. -/
theorem effort_settle {queue : List Label} (hqueue : state.queue = block.label :: queue)
    (hblock : state.atlas block.label = some block) (hunsettled : block.label ∉ state.settled) :
    (settle block { state with queue }).effort < state.effort := by
  have hmem : block.label ∈ state.remaining := mem_remaining.2 ⟨by simp [hblock], hunsettled⟩
  have hremaining : (settle block { state with queue }).remaining =
      state.remaining.erase block.label := by
    ext label
    rw [Finset.mem_erase, mem_remaining, mem_remaining]
    simp only [settle, List.mem_cons, not_or]
    tauto
  have hsum := Finset.add_sum_erase state.remaining state.weight hmem
  rw [weight_of_eq_some hblock] at hsum
  have hqueued : (settle block { state with queue }).queue.length ≤
      queue.length + block.next.length := by
    simp only [settle, List.length_append]
    exact Nat.add_le_add_left (List.length_filter_le _ _) _
  have hweights : ∑ label ∈ state.remaining.erase block.label,
      (settle block { state with queue }).weight label =
        ∑ label ∈ state.remaining.erase block.label, state.weight label := rfl
  rw [effort, effort, hremaining, hweights, hqueue, List.length_cons]
  omega

namespace Joins

variable (h : Joins state after head tail kept)

include h

theorem weight_others (hhead : label ≠ head.label) (htail : label ≠ tail.label) :
    after.weight label = state.weight label := by
  rw [weight, weight, h.others label hhead htail]
  cases state.atlas label with
  | none => rfl
  | some block => simp [Block.next_relink]

/-- Joining uses up a block and the exit between the two. -/
theorem sum_weight : ∑ label ∈ after.remaining, after.weight label + 2 =
    ∑ label ∈ state.remaining, state.weight label := by
  set others := (state.remaining.erase head.label).erase tail.label with hothers
  have hhead : head.label ∈ state.remaining :=
    mem_remaining.2 ⟨by simp [h.head_eq], h.head_unsettled⟩
  have htail : tail.label ∈ state.remaining.erase head.label :=
    Finset.mem_erase.2 ⟨h.ne, mem_remaining.2 ⟨by simp [h.tail_eq], h.tail_unsettled⟩⟩
  have hkept : kept ∉ others := by
    rcases h.kept_eq with rfl | rfl <;> simp [hothers]
  have hunsettled : kept ∉ state.settled := by
    rcases h.kept_eq with heq | heq <;> rw [heq]
    · exact h.head_unsettled
    · exact h.tail_unsettled
  have hremaining : after.remaining = insert kept others := by
    ext label
    rw [Finset.mem_insert, hothers, Finset.mem_erase, Finset.mem_erase, mem_remaining,
      mem_remaining, h.isSome_iff, h.settled_eq]
    constructor
    · rintro ⟨rfl | ⟨hhead, htail, hsome⟩, hlabel⟩
      · exact Or.inl rfl
      · exact Or.inr ⟨htail, hhead, hsome, hlabel⟩
    · rintro (rfl | ⟨htail, hhead, hsome, hlabel⟩)
      · exact ⟨Or.inl rfl, hunsettled⟩
      · exact ⟨Or.inr ⟨hhead, htail, hsome⟩, hlabel⟩
  have hsame : ∑ label ∈ others, after.weight label = ∑ label ∈ others, state.weight label := by
    refine Finset.sum_congr rfl fun label hlabel => ?_
    rw [hothers, Finset.mem_erase, Finset.mem_erase] at hlabel
    exact h.weight_others hlabel.2.1 hlabel.1
  have hfirst := Finset.add_sum_erase _ state.weight hhead
  have hsecond := Finset.add_sum_erase _ state.weight htail
  rw [weight_of_eq_some h.head_eq, h.next_eq, List.length_singleton] at hfirst
  rw [weight_of_eq_some h.tail_eq, ← hothers] at hsecond
  rw [hremaining, Finset.sum_insert hkept, hsame, weight_of_eq_some h.joined, List.length_map]
  omega

end Joins

/-- A turn lowers the bound. -/
theorem effort_step_lt (hexact : Exact state) (hqueue : state.queue ≠ []) :
    state.step.effort < state.effort := by
  obtain ⟨label, queue, hcons⟩ := List.exists_cons_of_ne_nil hqueue
  rcases hexact.step_cases hcons with ⟨hstep, -⟩ | ⟨block, rfl, hblock, hunsettled, -, hstep⟩ |
    ⟨head, tail, kept, rfl, hjoins⟩
  · rw [hstep, effort, effort, hcons, List.length_cons]
    exact Nat.add_lt_add_right (Nat.lt_succ_self _) _
  · rw [hstep]
    exact effort_settle hcons hblock hunsettled
  · have hsum := hjoins.sum_weight
    have hweights : ∑ label ∈ remaining { state with queue }, weight { state with queue } label =
        ∑ label ∈ state.remaining, state.weight label := rfl
    rw [hweights] at hsum
    rw [effort, effort, hjoins.queue_eq, hcons]
    simp only [List.length_append, List.length_cons, List.length_nil]
    omega

theorem step_of_queue_eq_nil (h : state.queue = []) : state.step = state := by
  unfold step
  rw [h]

theorem run_of_queue_eq_nil (h : state.queue = []) : state.run = state := by
  rw [run]
  split
  · rfl
  · rename_i hcons
    rw [h] at hcons
    cases hcons

theorem run_step (state : Merging κ) : state.step.run = state.run := by
  cases hqueue : state.queue with
  | nil => rw [step_of_queue_eq_nil hqueue]
  | cons label queue =>
    rw [run.eq_def state]
    split
    · rename_i hnil
      rw [hqueue] at hnil
      cases hnil
    · rfl

/-- The bound holds: after so many turns the queue is empty, and the pass is over. -/
theorem run_eq_iterate (hexact : Exact state) {turns : ℕ} (h : state.effort ≤ turns) :
    (step^[turns] state).queue = [] ∧ state.run = step^[turns] state := by
  induction turns generalizing state with
  | zero =>
    have hqueue : state.queue = [] := by
      rw [← List.length_eq_zero_iff]
      exact Nat.le_zero.1 ((Nat.le_add_right _ _).trans h)
    exact ⟨hqueue, run_of_queue_eq_nil hqueue⟩
  | succ turns ih =>
    rw [Function.iterate_succ_apply, ← run_step]
    by_cases hqueue : state.queue = []
    · rw [step_of_queue_eq_nil hqueue,
        Function.iterate_fixed (step_of_queue_eq_nil hqueue)]
      exact ⟨hqueue, run_of_queue_eq_nil hqueue⟩
    · exact ih hexact.step.1 (Nat.le_of_lt_succ ((effort_step_lt hexact hqueue).trans_le h))

/-- At the start the bound counts the entry in the queue, the blocks and their exits. -/
theorem effort_start {blocks : List (Block κ)} (incoming : Incoming)
    (hnodup : (blocks.map Block.label).Nodup) : (start blocks incoming).effort =
      blocks.length + (blocks.map fun block => block.next.length).sum + 1 := by
  have hpending : (start blocks incoming).pending = blocks.map Block.label := by
    simp [pending, start]
  have hweights : (blocks.map Block.label).map (start blocks incoming).weight =
      blocks.map fun block => block.next.length + 1 := by
    rw [List.map_map]
    refine List.map_congr_left fun block hblock => ?_
    exact weight_of_eq_some ((Atlas.of_eq_some_iff hnodup).2 ⟨hblock, rfl⟩)
  rw [effort, remaining, hpending, List.sum_toFinset _ hnodup, hweights, List.sum_map_add]
  simp only [start, List.length_singleton, List.map_const', List.sum_replicate, smul_eq_mul]
  omega

end Merging

/-! ## Stories -/

namespace StoryGraph

/-- The state in which the pass over a story starts: the blocks in reach, and the table of the
    story. -/
def outset (story : StoryGraph κ) (incoming : Incoming) : Merging κ :=
  Merging.start (story.blocks.filter fun block => (incoming.lookup block.label).isSome) incoming

theorem outset_eq {story : StoryGraph κ} {reached : List Label} {incoming : Incoming}
    (hreached : story.reachable = .ok reached) (h : story.incoming = .ok incoming) :
    story.outset incoming = story.unjoined reached := by
  obtain ⟨reached', hreached', rfl⟩ := incoming_eq_ok h
  obtain rfl := Except.ok.inj (hreached.symm.trans hreached')
  rw [outset, filter_isSome_lookup]
  rfl

theorem keyed_unjoined (story : StoryGraph κ) (reached : List Label) :
    (story.unjoined reached).Keyed := by
  rw [Merging.Keyed, unjoined, Merging.start, incomingOf, List.map_map]
  rfl

theorem underway_unjoined {story : StoryGraph κ} {reached : List Label}
    (h : story.reachable = .ok reached) : (story.unjoined reached).Underway where
  toStable := Merging.stable_start _ _
  connected := connected_unjoined h
  closed := closed_unjoined h
  present := by simp [unjoined, Merging.start]

/-- **The table of the pass.** Take a story in which no exit in reach leads nowhere. The pass over it
    starts with the blocks in reach and with the table of the story. Before every turn all blocks of
    the pass are in reach, all exits lead to blocks, the table has exactly their labels and lists
    for each exactly the blocks that lead there; every settled label but the entry has a settled
    source, so that no follower is passed over for being settled. The pass ends after at most one
    turn for each block, one for each exit and one for the entry, and then all blocks are settled. -/
theorem pass_exact (story : StoryGraph κ)
    (h : ∀ source target, story.atlas.Reaches .entry source → story.atlas.Leads source target →
      (story.atlas target).isSome) :
    ∃ incoming, story.incoming = .ok incoming ∧
      (∀ block, block ∈ (story.outset incoming).blocks ↔
        block ∈ story.blocks ∧ story.atlas.Reaches .entry block.label) ∧
      (∀ turns, (Merging.step^[turns] (story.outset incoming)).Accurate) ∧
      ∃ turns ≤ (story.outset incoming).blocks.length +
          ((story.outset incoming).blocks.map fun block => block.next.length).sum + 1,
        (Merging.step^[turns] (story.outset incoming)).queue = [] ∧
        (story.outset incoming).run = Merging.step^[turns] (story.outset incoming) ∧
        ∀ block ∈ (story.outset incoming).run.blocks,
          block.label ∈ (story.outset incoming).run.settled := by
  obtain ⟨reached, hreached⟩ := exists_reachable_iff.2 h
  have hincoming := (incoming_eq story).trans (bind_eq_ok.2 ⟨reached, hreached, rfl⟩)
  refine ⟨_, hincoming, ?_⟩
  rw [outset_eq hreached hincoming]
  have hexact := exact_unjoined hreached
  have hunderway := (underway_unjoined hreached).iterate hexact (story.keyed_unjoined reached)
  refine ⟨fun block => ?_, fun turns => ?_, ?_⟩
  · rw [unjoined, Merging.start, List.mem_filter, decide_eq_true_eq, mem_reachable_iff hreached]
  · obtain ⟨hunderway, hexact, hkeyed⟩ := hunderway turns
    exact hunderway.accurate hexact hkeyed
  · obtain ⟨hqueue, hrun⟩ := Merging.run_eq_iterate hexact le_rfl
    refine ⟨_, (Merging.effort_start _ hexact.nodup).le, hqueue, hrun, fun block hblock => ?_⟩
    rw [hrun] at hblock ⊢
    obtain ⟨hunderway, hexact, -⟩ := hunderway (story.unjoined reached).effort
    have hsome := Atlas.isSome_of_iff.2 (List.mem_map_of_mem hblock)
    exact hunderway.mem_settled hqueue (hunderway.connected block.label hsome) hsome

/-- A path leads to a well, which leads back to the path until the player goes home. -/
def wellStory : StoryGraph ℕ := ofBlocks
  [{ label := .entry, next := [.synthetic 0 1 .merge] },
   { label := .synthetic 0 1 .merge, next := [.named "well"] },
   { label := .named "well", next := [.synthetic 0 1 .merge, .named "home"] },
   { label := .named "home" },
   { label := .named "cellar", next := [.named "river"] }]

/-- The second turn joins the path to the well. What led to the path now leads to the well, and the
    way back from the well has become a loop. -/
theorem pass_exact_well :
    ∃ incoming, wellStory.incoming = .ok incoming ∧
      (Merging.step^[2] (wellStory.outset incoming)).incoming =
        [(.entry, []), (.named "home", [.named "well"]),
          (.named "well", [.entry, .named "well"])] ∧
      (Merging.step^[2] (wellStory.outset incoming)).Accurate ∧
      ∃ turns ≤ 9, (Merging.step^[turns] (wellStory.outset incoming)).queue = [] ∧
        ∀ block ∈ (wellStory.outset incoming).run.blocks,
          block.label ∈ (wellStory.outset incoming).run.settled := by
  have hreached : wellStory.reachable =
      .ok [.entry, .synthetic 0 1 .merge, .named "well", .named "home"] := by cbv
  obtain ⟨incoming, hincoming, -, haccurate, turns, hturns, hqueue, -, hsettled⟩ :=
    pass_exact wellStory (exists_reachable_iff.1 ⟨_, hreached⟩)
  have htable : wellStory.incoming = .ok
      [(.entry, []), (.named "home", [.named "well"]),
        (.named "well", [.synthetic 0 1 .merge]),
        (.synthetic 0 1 .merge, [.entry, .named "well"])] := by cbv
  obtain rfl := Except.ok.inj (hincoming.symm.trans htable)
  exact ⟨_, hincoming, by cbv, haccurate 2, turns, hturns.trans (by cbv), hqueue, hsettled⟩

end StoryGraph

end Playthrough
