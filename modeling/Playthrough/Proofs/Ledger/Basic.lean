import Playthrough.Ledger.Feed
import Playthrough.Proofs.Draft.Growth

/-!
# What a ledger stands for

A ledger stands for a draft: put the label of a block in place of its number, and what a fork has
collected in place of the number of its collection. This only works because the ledger is in order.
Its index tells the number of every label, all numbers it uses are in use, and each collection
belongs to one fork: the alternatives that refer to it stand directly in this fork.

* `Holding`: how the open bodies refer to collections.
* `Ledger.draft`: the draft that a ledger stands for.
* `Ledger.Booked`: a ledger in order, with one lemma for each small change that keeps it so.
* `draft_modify`, `draft_allocate`, `draft_modifyTop`, `draft_push`: these changes are those of the
  draft.
-/

namespace Playthrough

variable {κ : Type}

/-! ## Collections -/

/-- The body is a fork, and the collection with this number is its own. -/
def OpenBody.Owns (body : OpenBody) (arms : Nat) : Prop :=
  body.forking ≠ .plain ∧ body.arms = some arms

/-- How open bodies, the innermost first, refer to the first `count` collections: a fork to one that
    no fork around it owns, an alternative to the one of the fork it stands in. -/
inductive Holding (count : Nat) : List OpenBody → Prop
  | root {body : OpenBody} (hplain : body.forking = .plain) (harms : body.arms = none) :
      Holding count [body]
  | body {body : OpenBody} {rest : List OpenBody} (hplain : body.forking = .plain)
      (harms : body.arms = none) (hrest : Holding count rest) : Holding count (body :: rest)
  | arm {body fork : OpenBody} {rest : List OpenBody} {arms : Nat}
      (hplain : body.forking = .plain) (harms : body.arms = some arms) (hfork : fork.Owns arms)
      (hrest : Holding count (fork :: rest)) : Holding count (body :: fork :: rest)
  | fork {body : OpenBody} {rest : List OpenBody} {arms : Nat} (howns : body.Owns arms)
      (hcount : arms < count) (hfree : ∀ other ∈ rest, ¬ other.Owns arms)
      (hrest : Holding count rest) : Holding count (body :: rest)

namespace Holding

variable {count : Nat} {body body' : OpenBody} {rest : List OpenBody}

/-- The bodies around the innermost one refer to collections in the same way. -/
theorem tail (h : Holding count (body :: rest)) (hrest : rest ≠ []) : Holding count rest := by
  cases h with
  | root => exact absurd rfl hrest
  | body _ _ h => exact h
  | arm _ _ _ h => exact h
  | fork _ _ _ h => exact h

theorem mono {count' : Nat} {bodies : List OpenBody} (h : Holding count bodies)
    (hcount : count ≤ count') : Holding count' bodies := by
  induction h with
  | root hplain harms => exact .root hplain harms
  | body hplain harms _ ih => exact .body hplain harms ih
  | arm hplain harms hfork _ ih => exact .arm hplain harms hfork ih
  | fork howns hlt hfree _ ih => exact .fork howns (Nat.lt_of_lt_of_le hlt hcount) hfree ih

/-- Only the collection of the innermost body counts, and whether it is a fork. -/
theorem change (h : Holding count (body :: rest))
    (hforking : body'.forking = .plain ↔ body.forking = .plain) (harms' : body'.arms = body.arms) :
    Holding count (body' :: rest) := by
  have howns' : ∀ arms, body'.Owns arms ↔ body.Owns arms := by
    intro arms
    rw [OpenBody.Owns, OpenBody.Owns, harms', ne_eq, hforking]
  cases h with
  | root hplain harms => exact .root (hforking.2 hplain) (harms'.trans harms)
  | body hplain harms hrest => exact .body (hforking.2 hplain) (harms'.trans harms) hrest
  | arm hplain harms hfork hrest =>
    exact .arm (hforking.2 hplain) (harms'.trans harms) hfork hrest
  | fork howns hcount hfree hrest => exact .fork ((howns' _).2 howns) hcount hfree hrest

/-- Every fork owns one of the collections. -/
theorem lt_of_owns {bodies : List OpenBody} (h : Holding count bodies) {arms : Nat}
    (hbody : body ∈ bodies) (howns : body.Owns arms) : arms < count := by
  induction h with
  | root hplain =>
    obtain rfl := List.mem_singleton.1 hbody
    exact absurd hplain howns.1
  | body hplain _ _ ih =>
    rcases List.mem_cons.1 hbody with rfl | hbody
    · exact absurd hplain howns.1
    · exact ih hbody
  | arm hplain _ _ _ ih =>
    rcases List.mem_cons.1 hbody with rfl | hbody
    · exact absurd hplain howns.1
    · exact ih hbody
  | fork howns' hcount _ _ ih =>
    rcases List.mem_cons.1 hbody with rfl | hbody
    · obtain rfl := Option.some.inj (howns.2.symm.trans howns'.2)
      exact hcount
    · exact ih hbody

/-- No fork around a fork owns its collection. -/
theorem free_of_owns (h : Holding count (body :: rest)) {arms : Nat} (howns : body.Owns arms) :
    ∀ other ∈ rest, ¬ other.Owns arms := by
  cases h with
  | root hplain => exact absurd hplain howns.1
  | body hplain => exact absurd hplain howns.1
  | arm hplain => exact absurd hplain howns.1
  | fork howns' _ hfree =>
    obtain rfl := Option.some.inj (howns.2.symm.trans howns'.2)
    exact hfree

/-- The fork right around an alternative owns the collection that the alternative refers to. -/
theorem exists_fork (h : Holding count (body :: rest)) (hplain : body.forking = .plain) {arms : Nat}
    (harms : body.arms = some arms) : ∃ fork others, rest = fork :: others ∧ fork.Owns arms := by
  cases h with
  | root _ hnone => simp [hnone] at harms
  | body _ hnone => simp [hnone] at harms
  | arm _ harms' hfork =>
    obtain rfl := Option.some.inj (harms.symm.trans harms')
    exact ⟨_, _, rfl, hfork⟩
  | fork howns => exact absurd hplain howns.1

/-- A fork has a collection. -/
theorem exists_owns (h : Holding count (body :: rest)) (hfork : body.forking ≠ .plain) :
    ∃ arms, body.Owns arms := by
  cases h with
  | root hplain => exact absurd hplain hfork
  | body hplain => exact absurd hplain hfork
  | arm hplain => exact absurd hplain hfork
  | fork howns => exact ⟨_, howns⟩

end Holding

/-! ## The draft of a ledger -/

/-- The role of an open body, given the ends in its collection. -/
def OpenBody.role (ends : List Label) (body : OpenBody) : Role :=
  match body.forking, body.arms with
  | .plain, none => .body
  | .plain, some _ => .arm
  | .menu, _ => .menu ends
  | .chain skippable, _ => .chain ends skippable

theorem OpenBody.role_congr {body : OpenBody} {ends ends' : List Label}
    (h : body.forking ≠ .plain → ends = ends') : body.role ends = body.role ends' := by
  unfold role
  cases hforking : body.forking with
  | plain => cases body.arms <;> rfl
  | menu => rw [h (by simp [hforking])]
  | chain skippable => rw [h (by simp [hforking])]

/-- A fork takes in one more end. -/
theorem OpenBody.role_collect {body : OpenBody} (h : body.forking ≠ .plain) (last : Label)
    (ends : List Label) : (body.role ends).collect last = body.role (ends ++ [last]) := by
  unfold role
  cases hforking : body.forking with
  | plain => exact absurd hforking h
  | menu => rfl
  | chain skippable => rfl

namespace Ledger

/-- The labels of the blocks in the order of their numbers. -/
def labels (ledger : Ledger κ) : List Label := ledger.blocks.map Block.label

/-- All open bodies, the innermost first and the top level last. -/
def bodies (ledger : Ledger κ) : List OpenBody := ledger.stack ++ [ledger.root]

/-- The label of a block. -/
def labelOf (ledger : Ledger κ) (block : Nat) : Label := ledger.labels[block]?.getD .entry

/-- What is known of an open body when its numbers are looked up. -/
def frame (ledger : Ledger κ) (body : OpenBody) : Frame where
  block := ledger.labelOf body.block
  indent := body.indent
  role := body.role ((ledger.collected body.arms).map ledger.labelOf)
  scope := body.scope

/-- The draft that a ledger stands for. -/
def draft (ledger : Ledger κ) : Draft κ where
  blocks := ledger.blocks.reverse
  root := ledger.frame ledger.root
  stack := ledger.stack.map ledger.frame
  minted := ledger.minted
  lastLine := ledger.lastLine

/-- A ledger in order. -/
structure Booked (ledger : Ledger κ) : Prop where
  entry_mem : .entry ∈ ledger.labels
  nodup : ledger.labels.Nodup
  minted : ∀ label ∈ ledger.labels, label.MintedBefore ledger.minted
  keys_nodup : (ledger.index.map Prod.fst).Nodup
  /-- The index tells the number of every label. -/
  lookup_iff : ∀ label block,
    ledger.index.lookup label = some block ↔ ledger.labels[block]? = some label
  /-- All blocks that receive content are allocated, -/
  current : ∀ body ∈ ledger.bodies, body.block < ledger.nextBlock
  /-- and so are all collected ends. -/
  collected : ∀ ends ∈ ledger.arms, ∀ block ∈ ends, block < ledger.nextBlock
  holding : Holding ledger.nextArms ledger.bodies

variable {ledger ledger' : Ledger κ} {label : Label}

theorem bodies_eq (ledger : Ledger κ) : ledger.bodies = ledger.top :: ledger.bodies.tail := by
  unfold bodies top
  cases ledger.stack <;> rfl

theorem top_mem (ledger : Ledger κ) : ledger.top ∈ ledger.bodies := by
  rw [bodies_eq]
  exact List.mem_cons_self

theorem bodies_modifyTop (change : OpenBody → OpenBody) (ledger : Ledger κ) :
    (ledger.modifyTop change).bodies = change ledger.top :: ledger.bodies.tail := by
  unfold modifyTop bodies top
  cases ledger.stack <;> simp

theorem length_labels (ledger : Ledger κ) : ledger.labels.length = ledger.nextBlock :=
  List.length_map _

theorem label?_eq (block : Nat) (ledger : Ledger κ) :
    ledger.label? block = ledger.labels[block]? := List.getElem?_map.symm

theorem labels_getElem? {block : Nat} (h : block < ledger.nextBlock) :
    ledger.labels[block]? = some (ledger.labelOf block) := by
  have hlength : block < ledger.labels.length := ledger.length_labels ▸ h
  rw [labelOf, List.getElem?_eq_getElem hlength]
  rfl

theorem frames_draft (ledger : Ledger κ) :
    ledger.draft.frames = ledger.bodies.map ledger.frame := by
  rw [Draft.frames, bodies, List.map_append]
  rfl

theorem top_draft (ledger : Ledger κ) : ledger.draft.top = ledger.frame ledger.top := by
  rw [Draft.top, draft, top]
  cases ledger.stack <;> rfl

/-- A draft is determined by its blocks, its open bodies and its counters. -/
theorem eq_of_frames {first second : Draft κ} (hblocks : first.blocks = second.blocks)
    (hframes : first.frames = second.frames) (hminted : first.minted = second.minted)
    (hline : first.lastLine = second.lastLine) : first = second := by
  obtain ⟨hstack, hroot⟩ := List.append_inj' hframes rfl
  cases first
  cases second
  simp_all

/-- What an open body stands for depends on the label of its block and, for a fork, on the labels of
    what its collection holds. -/
theorem frame_congr {body : OpenBody}
    (hblock : ledger'.labelOf body.block = ledger.labelOf body.block)
    (hends : ∀ arms, body.Owns arms →
      (ledger'.collected (some arms)).map ledger'.labelOf =
        (ledger.collected (some arms)).map ledger.labelOf) :
    ledger'.frame body = ledger.frame body := by
  unfold frame
  rw [hblock, OpenBody.role_congr]
  intro hforking
  cases harms : body.arms with
  | none => rfl
  | some arms => exact hends arms ⟨hforking, harms⟩

/-! ## Changes of a ledger -/

/-- What the exits of blocks lead to has changed, and nothing else. -/
inductive Rewired (ledger : Ledger κ) : Ledger κ → Prop
  | intro {blocks : List (Block κ)} (h : blocks.map Block.label = ledger.labels) :
      Rewired ledger { ledger with blocks }

namespace Rewired

theorem refl (ledger : Ledger κ) : Rewired ledger ledger := .intro rfl

theorem trans {ledger'' : Ledger κ} (h : Rewired ledger ledger') (h' : Rewired ledger' ledger'') :
    Rewired ledger ledger'' := by
  obtain ⟨hblocks⟩ := h
  obtain ⟨hblocks'⟩ := h'
  exact .intro (hblocks'.trans hblocks)

theorem labels_eq (h : Rewired ledger ledger') : ledger'.labels = ledger.labels := by
  obtain ⟨hblocks⟩ := h
  exact hblocks

theorem nextBlock_eq (h : Rewired ledger ledger') : ledger'.nextBlock = ledger.nextBlock := by
  rw [← length_labels, ← length_labels, h.labels_eq]

theorem labelOf_eq (h : Rewired ledger ledger') : ledger'.labelOf = ledger.labelOf := by
  funext block
  rw [labelOf, labelOf, h.labels_eq]

theorem frame_eq (h : Rewired ledger ledger') : ledger'.frame = ledger.frame := by
  funext body
  refine frame_congr (congrFun h.labelOf_eq _) fun arms _ => ?_
  rw [h.labelOf_eq]
  obtain ⟨-⟩ := h
  rfl

theorem booked (h : Rewired ledger ledger') (hbooked : Booked ledger) : Booked ledger' := by
  have hlabels := h.labels_eq
  have hnext := h.nextBlock_eq
  obtain ⟨-⟩ := h
  refine ⟨hlabels ▸ hbooked.entry_mem, hlabels ▸ hbooked.nodup, hlabels ▸ hbooked.minted,
    hbooked.keys_nodup, ?_, ?_, ?_, hbooked.holding⟩
  · exact hlabels ▸ hbooked.lookup_iff
  · exact hnext ▸ hbooked.current
  · exact hnext ▸ hbooked.collected

end Rewired

/-- Changing the block with a label, where no two blocks have the same label. -/
theorem modifyBlock_eq_map {change : Block κ → Block κ} (label : Label) {blocks : List (Block κ)}
    (hnodup : (blocks.map Block.label).Nodup) :
    Draft.modifyBlock label change blocks =
      blocks.map fun block => if block.label = label then change block else block := by
  induction blocks with
  | nil => rfl
  | cons block blocks ih =>
    obtain ⟨hnew, hnodup⟩ := List.nodup_cons.1 hnodup
    rw [Draft.modifyBlock, List.map_cons]
    split
    · rename_i hlabel
      have hrest : ∀ other ∈ blocks,
          (if other.label = label then change other else other) = other := by
        intro other hother
        refine if_neg fun hsame => hnew ?_
        rw [hlabel, ← hsame]
        exact List.mem_map_of_mem hother
      rw [List.map_congr_left hrest, List.map_id']
    · rw [ih hnodup]

/-- Changing the block with a number, where no two blocks have the same label. -/
theorem modify_eq_map {change : Block κ → Block κ} {blocks : List (Block κ)} {number : Nat}
    (hnodup : (blocks.map Block.label).Nodup)
    (hlabel : (blocks.map Block.label)[number]? = some label) :
    blocks.modify number change =
      blocks.map fun block => if block.label = label then change block else block := by
  refine List.ext_getElem? fun other => ?_
  rw [List.getElem?_modify, List.getElem?_map]
  cases hblock : blocks[other]? with
  | none => split <;> rfl
  | some block =>
    have hother : (blocks.map Block.label)[other]? = some block.label := by
      rw [List.getElem?_map, hblock]
      rfl
    by_cases hnumber : number = other
    · obtain rfl : block.label = label := Option.some.inj (hother.symm.trans (hnumber ▸ hlabel))
      simp [hnumber]
    · have hne : block.label ≠ label := by
        rintro rfl
        obtain ⟨hlt, -⟩ := List.getElem?_eq_some_iff.1 hlabel
        exact hnumber ((List.getElem?_inj hlt hnodup).1 (hlabel.trans hother.symm))
      simp [hnumber, hne]

theorem rewired_modify {change : Block κ → Block κ}
    (hchange : ∀ block, (change block).label = block.label) (number : Nat) (ledger : Ledger κ) :
    Rewired ledger (ledger.modify number change) := by
  refine .intro (List.ext_getElem? fun other => ?_)
  rw [labels, List.getElem?_map, List.getElem?_map, List.getElem?_modify]
  cases ledger.blocks[other]? with
  | none => rfl
  | some block => by_cases hnumber : number = other <;> simp [hnumber, hchange]

/-- Changing the block with a number is changing the block with its label. -/
theorem Booked.draft_modify (h : Booked ledger) {change : Block κ → Block κ}
    (hchange : ∀ block, (change block).label = block.label) {number : Nat}
    (hnumber : number < ledger.nextBlock) :
    (ledger.modify number change).draft = ledger.draft.modify (ledger.labelOf number) change := by
  have hrewired := rewired_modify hchange number ledger
  refine eq_of_frames ?_ ?_ rfl rfl
  · have hnodup : (ledger.blocks.reverse.map Block.label).Nodup := by
      rw [List.map_reverse, List.nodup_reverse]
      exact h.nodup
    show (ledger.blocks.modify number change).reverse = _
    rw [modify_eq_map h.nodup (labels_getElem? hnumber), ← List.map_reverse]
    exact (modifyBlock_eq_map (ledger.labelOf number) hnodup).symm
  · rw [frames_draft, hrewired.frame_eq]
    exact ledger.frames_draft.symm

theorem Booked.modify (h : Booked ledger) {change : Block κ → Block κ}
    (hchange : ∀ block, (change block).label = block.label) (number : Nat) :
    Booked (ledger.modify number change) :=
  (rewired_modify hchange number ledger).booked h

theorem Booked.countMint (h : Booked ledger) : Booked ledger.countMint :=
  { h with
    minted := fun label hlabel index line origin heq =>
      Nat.lt_succ_of_lt (h.minted label hlabel index line origin heq) }

/-! ### Blocks -/

theorem labels_allocate (label : Label) (ledger : Ledger κ) :
    (ledger.allocate label).labels = ledger.labels ++ [label] := by
  simp [labels, allocate]

theorem nextBlock_allocate (label : Label) (ledger : Ledger κ) :
    (ledger.allocate label).nextBlock = ledger.nextBlock + 1 := by
  simp [nextBlock, allocate]

theorem labelOf_allocate {block : Nat} (h : block < ledger.nextBlock) :
    (ledger.allocate label).labelOf block = ledger.labelOf block := by
  rw [labelOf, labelOf, labels_allocate, List.getElem?_append_left (ledger.length_labels ▸ h)]

theorem labelOf_nextBlock (label : Label) (ledger : Ledger κ) :
    (ledger.allocate label).labelOf ledger.nextBlock = label := by
  rw [labelOf, labels_allocate, ← length_labels, List.getElem?_concat_length]
  rfl

theorem Booked.lt_of_collected (h : Booked ledger) {arms : Option Nat} {block : Nat}
    (hblock : block ∈ ledger.collected arms) : block < ledger.nextBlock := by
  unfold Ledger.collected at hblock
  cases hends : arms.bind (ledger.arms[·]?) with
  | none => simp [hends] at hblock
  | some ends =>
    rw [hends] at hblock
    obtain ⟨number, -, hnumber⟩ := Option.bind_eq_some_iff.1 hends
    exact h.collected ends (List.mem_of_getElem? hnumber) block hblock

theorem Booked.ends_allocate (h : Booked ledger) (arms : Option Nat) :
    ((ledger.allocate label).collected arms).map (ledger.allocate label).labelOf =
      (ledger.collected arms).map ledger.labelOf :=
  List.map_congr_left fun _ hblock => labelOf_allocate (h.lt_of_collected hblock)

theorem Booked.draft_allocate (h : Booked ledger) (label : Label) :
    (ledger.allocate label).draft = ledger.draft.allocate label := by
  refine eq_of_frames ?_ ?_ rfl rfl
  · exact List.reverse_concat
  · rw [frames_draft]
    refine Eq.trans (List.map_congr_left fun body hbody => ?_) ledger.frames_draft.symm
    exact frame_congr (labelOf_allocate (h.current body hbody)) fun arms _ => h.ends_allocate _

theorem labels_allocate_getElem? {other : Label} {block : Nat} :
    (ledger.allocate label).labels[block]? = some other ↔
      ledger.labels[block]? = some other ∨ block = ledger.nextBlock ∧ label = other := by
  rw [labels_allocate, List.getElem?_append, length_labels]
  split
  · rename_i hlt
    rw [or_iff_left fun hlast => hlt.ne hlast.1]
  · rename_i hge
    have hnone : ledger.labels[block]? = none := by
      rw [List.getElem?_eq_none_iff, length_labels]
      omega
    rw [hnone, List.getElem?_singleton]
    by_cases hlast : block = ledger.nextBlock
    · simp [hlast]
    · simp [hlast, show block - ledger.nextBlock ≠ 0 by omega]

theorem Booked.allocate (h : Booked ledger) (hnew : label ∉ ledger.labels)
    (hminted : label.MintedBefore ledger.minted) : Booked (ledger.allocate label) where
  entry_mem := by
    rw [labels_allocate]
    exact List.mem_append_left _ h.entry_mem
  nodup := by
    rw [labels_allocate, ← List.concat_eq_append]
    exact h.nodup.concat hnew
  minted := by
    intro other hother
    rw [labels_allocate] at hother
    rcases List.mem_append.1 hother with hother | hother
    · exact h.minted other hother
    · exact List.mem_singleton.1 hother ▸ hminted
  keys_nodup := Table.nodup_set label ledger.nextBlock h.keys_nodup
  lookup_iff := by
    intro other block
    rw [labels_allocate_getElem?, ← h.lookup_iff]
    show (Table.set label ledger.nextBlock ledger.index).lookup other = some block ↔ _
    rw [Table.lookup_set]
    split
    · -- a new label has no number yet
      rename_i heq
      have hnone : ledger.index.lookup other ≠ some block := by
        rw [ne_eq, h.lookup_iff, heq]
        exact fun hold => hnew (List.mem_of_getElem? hold)
      rw [or_iff_right hnone, Option.some_inj, heq, and_iff_left rfl, eq_comm]
    · rename_i hne
      rw [or_iff_left fun hlast => hne hlast.2.symm]
  current := by
    intro body hbody
    rw [nextBlock_allocate]
    exact Nat.lt_succ_of_lt (h.current body hbody)
  collected := by
    intro ends hends block hblock
    rw [nextBlock_allocate]
    exact Nat.lt_succ_of_lt (h.collected ends hends block hblock)
  holding := h.holding

/-! ### Bodies -/

/-- Nothing but an open body changes. -/
theorem exists_modifyTop (change : OpenBody → OpenBody) (ledger : Ledger κ) :
    ∃ root stack, ledger.modifyTop change = { ledger with root, stack } := by
  unfold modifyTop
  split
  · exact ⟨_, _, rfl⟩
  · exact ⟨_, _, rfl⟩

/-- The innermost body of the draft has changed, and nothing else. -/
theorem draft_eq_modifyTop {change : Frame → Frame} (hblocks : ledger'.blocks = ledger.blocks)
    (hminted : ledger'.minted = ledger.minted) (hline : ledger'.lastLine = ledger.lastLine)
    (hbodies : ledger'.bodies.map ledger'.frame =
      change (ledger.frame ledger.top) :: ledger.bodies.tail.map ledger.frame) :
    ledger'.draft = ledger.draft.modifyTop change := by
  refine eq_of_frames ?_ ?_ ?_ ?_
  · rw [Draft.blocks_modifyTop, draft, hblocks]
    rfl
  · rw [frames_draft, hbodies, Draft.frames_modifyTop, top_draft, Draft.below, frames_draft,
      List.map_tail]
  · rw [Draft.minted_modifyTop, draft, hminted]
    rfl
  · rw [draft, hline]
    unfold Draft.modifyTop
    split <;> rfl

theorem draft_modifyTop {change : OpenBody → OpenBody} {change' : Frame → Frame}
    (hchange : ledger.frame (change ledger.top) = change' (ledger.frame ledger.top)) :
    (ledger.modifyTop change).draft = ledger.draft.modifyTop change' := by
  have hbodies := bodies_modifyTop change ledger
  obtain ⟨root, stack, hmodify⟩ := ledger.exists_modifyTop change
  rw [hmodify] at hbodies ⊢
  refine draft_eq_modifyTop rfl rfl rfl ?_
  rw [hbodies, List.map_cons, ← hchange]
  rfl

/-- The innermost body may change its block, its indentation and its scope. -/
theorem Booked.modifyTop (h : Booked ledger) {change : OpenBody → OpenBody}
    (hblock : (change ledger.top).block < ledger.nextBlock)
    (hforking : (change ledger.top).forking = .plain ↔ ledger.top.forking = .plain)
    (harms : (change ledger.top).arms = ledger.top.arms) : Booked (ledger.modifyTop change) := by
  have hholding := h.holding
  have hcurrent := h.current
  rw [bodies_eq] at hholding hcurrent
  have hbodies := bodies_modifyTop change ledger
  obtain ⟨root, stack, hmodify⟩ := ledger.exists_modifyTop change
  rw [hmodify] at hbodies ⊢
  refine ⟨h.entry_mem, h.nodup, h.minted, h.keys_nodup, h.lookup_iff, ?_, h.collected, ?_⟩
  · rw [hbodies]
    exact List.forall_mem_cons.2 ⟨hblock, (List.forall_mem_cons.1 hcurrent).2⟩
  · rw [hbodies]
    exact hholding.change hforking harms

theorem draft_push (body : OpenBody) (ledger : Ledger κ) :
    (ledger.push body).draft = ledger.draft.push (ledger.frame body) := rfl

theorem Booked.push (h : Booked ledger) {body : OpenBody} (hblock : body.block < ledger.nextBlock)
    (hholding : Holding ledger.nextArms (body :: ledger.bodies)) : Booked (ledger.push body) :=
  { h with current := List.forall_mem_cons.2 ⟨hblock, h.current⟩, holding := hholding }

/-! ### Collections -/

/-- Only the fork that owns a collection can tell what it holds. -/
theorem frame_of_not_owns {body : OpenBody} {arms : List (List Nat)}
    (h : ∀ number, body.Owns number → arms[number]? = ledger.arms[number]?) :
    ({ ledger with arms } : Ledger κ).frame body = ledger.frame body := by
  refine frame_congr rfl fun number howns => ?_
  have hends : ({ ledger with arms } : Ledger κ).collected (some number) =
      ledger.collected (some number) := congrArg (Option.getD · []) (h number howns)
  rw [hends]
  rfl

theorem draft_of_arms {arms : List (List Nat)}
    (h : ∀ body ∈ ledger.bodies, ∀ number, body.Owns number → arms[number]? = ledger.arms[number]?) :
    ({ ledger with arms } : Ledger κ).draft = ledger.draft := by
  refine eq_of_frames rfl ?_ rfl rfl
  rw [frames_draft, frames_draft]
  exact List.map_congr_left fun body hbody => frame_of_not_owns (h body hbody)

theorem Booked.draft_openArms (h : Booked ledger) : ledger.openArms.draft = ledger.draft :=
  draft_of_arms fun _ hbody _ howns =>
    List.getElem?_append_left (h.holding.lt_of_owns hbody howns)

theorem Booked.openArms (h : Booked ledger) : Booked ledger.openArms := by
  have hcollected : ∀ ends ∈ ledger.openArms.arms, ∀ block ∈ ends, block < ledger.nextBlock := by
    intro ends hends
    rcases List.mem_append.1 hends with hends | hends
    · exact h.collected ends hends
    · obtain rfl := List.mem_singleton.1 hends
      exact fun block hblock => absurd hblock List.not_mem_nil
  exact { h with
    collected := hcollected
    holding := h.holding.mono (by simp [nextArms, Ledger.openArms]) }

theorem draft_clearArms {arms : Nat} (hfree : ∀ body ∈ ledger.bodies, ¬ body.Owns arms) :
    (ledger.clearArms (some arms)).draft = ledger.draft := by
  refine draft_of_arms fun body hbody number howns => ?_
  rw [List.getElem?_set_ne]
  rintro rfl
  exact hfree body hbody howns

theorem Booked.clearArms (h : Booked ledger) (arms : Nat) :
    Booked (ledger.clearArms (some arms)) := by
  have hcollected : ∀ ends ∈ ledger.arms.set arms [], ∀ block ∈ ends,
      block < ledger.nextBlock := by
    intro ends hends
    rcases List.mem_or_eq_of_mem_set hends with hends | rfl
    · exact h.collected ends hends
    · exact fun block hblock => absurd hblock List.not_mem_nil
  have hlength : (ledger.clearArms (some arms)).nextArms = ledger.nextArms := List.length_set
  exact { h with collected := hcollected, holding := hlength ▸ h.holding }

end Ledger

end Playthrough
