import Playthrough.Draft.Feed
import Playthrough.Proofs.Walk
import Mathlib

/-!
# How a draft grows

While a script is read, most blocks of the draft are done. Only the blocks that receive content and
the ends that forks have collected can still change, and these are never taken away: they gain
records and exits. What is known of a block that is done holds for the finished story.

* `Draft.Sound`: labels are distinct, and what is still open is open in one place.
* `Draft.Grows`: one draft is a later stage of another.
* `Draft.Later`: an atlas is that of a later stage.
* `Draft.Within`: what work on the innermost body leaves alone.
* `enter_spec`, `openChain_spec`, `close_arm`, `close_join`: what opening and closing bodies does.
-/

namespace Playthrough

variable {κ : Type}

/-- The ends that a fork has collected. -/
def Role.ends : Role → List Label
  | .menu ends => ends
  | .chain ends _ => ends
  | _ => []

/-- The blocks that a frame can still change. -/
def Frame.labels (frame : Frame) : List Label := frame.block :: frame.role.ends

/-- The blocks that closing a frame leads to a fresh block. -/
def Frame.exits (frame : Frame) : List Label :=
  match frame.role with
  | .arm => []
  | .body => [frame.block]
  | .menu ends => ends
  | .chain ends skippable => if skippable then ends ++ [frame.block] else ends

theorem Frame.exits_subset (frame : Frame) : frame.exits ⊆ frame.labels := by
  unfold exits labels Role.ends
  cases frame.role with
  | arm => simp
  | body => simp
  | menu ends => simp
  | chain ends skippable => cases skippable <;> simp

theorem Frame.nodup_exits {frame : Frame} (h : frame.labels.Nodup) : frame.exits.Nodup := by
  unfold exits
  unfold labels Role.ends at h
  cases hrole : frame.role with
  | arm => simp
  | body => simp
  | menu ends =>
    rw [hrole] at h
    exact (List.nodup_cons.1 h).2
  | chain ends skippable =>
    rw [hrole] at h
    cases skippable with
    | false => exact (List.nodup_cons.1 h).2
    | true => exact (List.perm_append_singleton frame.block ends).nodup_iff.2 h

/-- A minted label is one of the first `count`. -/
def Label.MintedBefore (count : Nat) (label : Label) : Prop :=
  ∀ index line origin, label = .synthetic index line origin → index < count

theorem Block.text_exit (target : Label) (final : Bool) (block : Block κ) :
    (block.exit target final).text = block.text := by
  unfold Block.exit
  split <;> rfl

namespace Draft

/-! ## Frames -/

/-- The atlas of the blocks allocated so far. -/
abbrev atlas (draft : Draft κ) : Atlas κ := Atlas.of draft.blocks

/-- All open bodies, the innermost first and the top level last. -/
def frames (draft : Draft κ) : List Frame := draft.stack ++ [draft.root]

/-- The bodies around the innermost one. -/
def below (draft : Draft κ) : List Frame := draft.frames.tail

/-- The blocks that can still change. -/
def openLabels (draft : Draft κ) : List Label := draft.frames.flatMap Frame.labels

variable {draft draft' draft'' : Draft κ}

theorem frames_eq (draft : Draft κ) : draft.frames = draft.top :: draft.below := by
  unfold frames below top frames
  cases draft.stack <;> rfl

theorem openLabels_eq (draft : Draft κ) :
    draft.openLabels = draft.top.labels ++ draft.below.flatMap Frame.labels := by
  rw [openLabels, frames_eq, List.flatMap_cons]

theorem frames_modifyTop (change : Frame → Frame) (draft : Draft κ) :
    (draft.modifyTop change).frames = change draft.top :: draft.below := by
  unfold modifyTop below frames top
  cases draft.stack <;> simp

theorem blocks_modifyTop (change : Frame → Frame) (draft : Draft κ) :
    (draft.modifyTop change).blocks = draft.blocks := by
  unfold modifyTop
  split <;> rfl

theorem minted_modifyTop (change : Frame → Frame) (draft : Draft κ) :
    (draft.modifyTop change).minted = draft.minted := by
  unfold modifyTop
  split <;> rfl

theorem top_of_frames {frame : Frame} {rest : List Frame} (h : draft.frames = frame :: rest) :
    draft.top = frame ∧ draft.below = rest := by
  rw [frames_eq, List.cons.injEq] at h
  exact h

/-- A body with another one around it is on the stack. -/
theorem stack_of_frames {frame next : Frame} {rest : List Frame}
    (h : draft.frames = frame :: next :: rest) :
    ∃ stack, draft.stack = frame :: stack ∧
      ({ draft with stack } : Draft κ).frames = next :: rest := by
  unfold frames at h ⊢
  cases hstack : draft.stack with
  | nil => simp [hstack] at h
  | cons first stack =>
    rw [hstack, List.cons_append, List.cons.injEq] at h
    exact ⟨stack, by rw [h.1], h.2⟩

/-! ## Changing blocks -/

theorem of_modifyBlock {change : Block κ → Block κ}
    (hchange : ∀ block, (change block).label = block.label) (label other : Label)
    (blocks : List (Block κ)) :
    Atlas.of (modifyBlock label change blocks) other =
      if other = label then (Atlas.of blocks label).map change else Atlas.of blocks other := by
  unfold Atlas.of
  induction blocks with
  | nil => simp [modifyBlock]
  | cons block blocks ih =>
    unfold modifyBlock
    by_cases hblock : block.label = label
    · subst hblock
      by_cases hother : other = block.label
      · simp [hother, hchange]
      · have hne : block.label ≠ other := Ne.symm hother
        simp [hother, hchange, hne]
    · rw [if_neg hblock, List.find?_cons, List.find?_cons, List.find?_cons, ih]
      by_cases hother : other = label
      · subst hother
        simp [hblock]
      · by_cases hsame : block.label = other <;> simp [hother, hsame]

theorem labels_modifyBlock {change : Block κ → Block κ}
    (hchange : ∀ block, (change block).label = block.label) (label : Label)
    (blocks : List (Block κ)) :
    (modifyBlock label change blocks).map Block.label = blocks.map Block.label := by
  induction blocks with
  | nil => rfl
  | cons block blocks ih =>
    unfold modifyBlock
    split
    · simp [hchange]
    · simp [ih]

theorem atlas_modify {change : Block κ → Block κ}
    (hchange : ∀ block, (change block).label = block.label) (label other : Label)
    (draft : Draft κ) :
    (draft.modify label change).atlas other =
      if other = label then (draft.atlas label).map change else draft.atlas other :=
  of_modifyBlock hchange label other draft.blocks

theorem atlas_allocate (label other : Label) (draft : Draft κ) :
    (draft.allocate label).atlas other =
      if other = label then some { label } else draft.atlas other := by
  by_cases h : other = label
  · simp [atlas, allocate, Atlas.of, h]
  · have hne : label ≠ other := Ne.symm h
    simp [atlas, allocate, Atlas.of, h, hne]

/-! ## Sound drafts -/

/-- No two blocks have the same label, no label was minted that is not counted, and what can still
    change is open in one place only. -/
structure Sound (draft : Draft κ) : Prop where
  nodup : (draft.blocks.map Block.label).Nodup
  entry_mem : Label.entry ∈ draft.blocks.map Block.label
  minted : ∀ label ∈ draft.blocks.map Block.label, label.MintedBefore draft.minted
  open_mem : ∀ label ∈ draft.openLabels, label ∈ draft.blocks.map Block.label
  open_nodup : draft.openLabels.Nodup

theorem sound_start : Sound (start : Draft κ) := by
  have hlabels : (start : Draft κ).blocks.map Block.label = [.entry] := rfl
  have hopen : (start : Draft κ).openLabels = [.entry] := rfl
  refine ⟨by simp [hlabels], by simp [hlabels], ?_, by simp [hlabels, hopen], by simp [hopen]⟩
  intro label hlabel index line origin heq
  rw [hlabels, List.mem_singleton] at hlabel
  rw [hlabel] at heq
  cases heq

theorem Sound.fresh (h : Sound draft) (origin : Origin) (line : Nat) :
    draft.atlas (draft.nextLabel origin line) = none := by
  rw [← Option.not_isSome_iff_eq_none, Atlas.isSome_of_iff]
  intro hmem
  exact absurd (h.minted _ hmem _ _ _ rfl) (Nat.lt_irrefl _)

theorem Sound.exists_block (h : Sound draft) {label : Label} (hlabel : label ∈ draft.openLabels) :
    ∃ block, draft.atlas label = some block :=
  Option.isSome_iff_exists.1 (Atlas.isSome_of_iff.2 (h.open_mem label hlabel))

theorem top_mem_openLabels (draft : Draft κ) : draft.top.block ∈ draft.openLabels := by
  rw [openLabels_eq]
  exact List.mem_append_left _ List.mem_cons_self

theorem Sound.top_nodup (h : Sound draft) : draft.top.labels.Nodup := by
  have hnodup := h.open_nodup
  rw [openLabels_eq] at hnodup
  exact (List.nodup_append.1 hnodup).1

theorem Sound.exists_top (h : Sound draft) : ∃ block, draft.atlas draft.top.block = some block :=
  h.exists_block draft.top_mem_openLabels

theorem Sound.ne_of_fresh (h : Sound draft) {label other : Label}
    (hlabel : draft.atlas label = none) (hother : other ∈ draft.openLabels) : other ≠ label := by
  rintro rfl
  obtain ⟨block, hblock⟩ := h.exists_block hother
  rw [hlabel] at hblock
  cases hblock

/-- The number of the last line does not matter. -/
theorem Sound.mark_line (h : Sound draft) (last : Nat) :
    Sound { draft with lastLine := last } :=
  ⟨h.nodup, h.entry_mem, h.minted, h.open_mem, h.open_nodup⟩

theorem Sound.countMint (h : Sound draft) : Sound draft.countMint where
  nodup := h.nodup
  entry_mem := h.entry_mem
  minted := fun label hlabel index line origin heq =>
    Nat.lt_succ_of_lt (h.minted label hlabel index line origin heq)
  open_mem := h.open_mem
  open_nodup := h.open_nodup

theorem Sound.modify (h : Sound draft) {change : Block κ → Block κ}
    (hchange : ∀ block, (change block).label = block.label) (label : Label) :
    Sound (draft.modify label change) := by
  have hlabels := labels_modifyBlock hchange label draft.blocks
  refine ⟨?_, ?_, ?_, ?_, h.open_nodup⟩
  · rw [Draft.modify, hlabels]
    exact h.nodup
  · rw [Draft.modify, hlabels]
    exact h.entry_mem
  · rw [Draft.modify, hlabels]
    exact h.minted
  · rw [Draft.modify, hlabels]
    exact h.open_mem

theorem openLabels_modifyTop {change : Frame → Frame}
    (hlabels : (change draft.top).labels = draft.top.labels) :
    (draft.modifyTop change).openLabels = draft.openLabels := by
  rw [openLabels, frames_modifyTop, List.flatMap_cons, hlabels, openLabels_eq]

/-- The innermost body can be changed as long as it has the same blocks. -/
theorem Sound.modifyTop (h : Sound draft) {change : Frame → Frame}
    (hlabels : (change draft.top).labels = draft.top.labels) :
    Sound (draft.modifyTop change) := by
  have hopen := openLabels_modifyTop hlabels
  refine ⟨?_, ?_, ?_, ?_, ?_⟩
  · rw [blocks_modifyTop]
    exact h.nodup
  · rw [blocks_modifyTop]
    exact h.entry_mem
  · rw [blocks_modifyTop, minted_modifyTop]
    exact h.minted
  · rw [blocks_modifyTop, hopen]
    exact h.open_mem
  · rw [hopen]
    exact h.open_nodup

/-! ## Later stages -/

/-- Blocks stay and gain records at the end; what cannot change does not, and stays so. -/
def Grows (draft draft' : Draft κ) : Prop :=
  ∀ label block, draft.atlas label = some block → ∃ block', draft'.atlas label = some block' ∧
    block.text <+: block'.text ∧
    (label ∉ draft.openLabels → block' = block ∧ label ∉ draft'.openLabels)

/-- The atlas of a later stage. -/
def Later (draft : Draft κ) (atlas : Atlas κ) : Prop :=
  ∀ label block, draft.atlas label = some block → ∃ found, atlas label = some found ∧
    block.text <+: found.text ∧ (label ∉ draft.openLabels → found = block)

theorem Grows.trans (h : Grows draft draft') (h' : Grows draft' draft'') :
    Grows draft draft'' := by
  intro label block hblock
  obtain ⟨block', hblock', htext, hdone⟩ := h label block hblock
  obtain ⟨block'', hblock'', htext', hdone'⟩ := h' label block' hblock'
  refine ⟨block'', hblock'', htext.trans htext', ?_⟩
  intro hlabel
  obtain ⟨rfl, hlabel'⟩ := hdone hlabel
  exact hdone' hlabel'

theorem Later.of_grows {atlas : Atlas κ} (h : Later draft' atlas) (hgrows : Grows draft draft') :
    Later draft atlas := by
  intro label block hblock
  obtain ⟨block', hblock', htext, hdone⟩ := hgrows label block hblock
  obtain ⟨found, hfound, htext', hdone'⟩ := h label block' hblock'
  refine ⟨found, hfound, htext.trans htext', ?_⟩
  intro hlabel
  obtain ⟨rfl, hlabel'⟩ := hdone hlabel
  exact hdone' hlabel'

theorem grows_modifyTop {change : Frame → Frame}
    (hlabels : (change draft.top).labels = draft.top.labels) :
    Grows draft (draft.modifyTop change) := by
  intro label block hblock
  rw [openLabels_modifyTop hlabels, atlas, blocks_modifyTop]
  exact ⟨block, hblock, List.prefix_refl _, fun hlabel => ⟨rfl, hlabel⟩⟩

/-- Labels that are free at a later stage were free before. -/
theorem Grows.fresh (h : Grows draft draft') {label : Label} (hlabel : draft'.atlas label = none) :
    draft.atlas label = none := by
  cases hblock : draft.atlas label with
  | none => rfl
  | some block =>
    obtain ⟨block', hblock', -⟩ := h label block hblock
    rw [hlabel] at hblock'
    cases hblock'

theorem Later.eq_of_done {atlas : Atlas κ} (h : Later draft atlas) {label : Label} {block : Block κ}
    (hblock : draft.atlas label = some block) (hlabel : label ∉ draft.openLabels) :
    atlas label = some block := by
  obtain ⟨found, hfound, -, hdone⟩ := h label block hblock
  rw [hfound, hdone hlabel]

theorem later_atlas (draft : Draft κ) : Later draft draft.atlas :=
  fun _ block hblock => ⟨block, hblock, List.prefix_refl _, fun _ => rfl⟩

/-- What work on the innermost body leaves alone: the bodies around it, and all blocks but the one
    that receives its content. New blocks are minted. -/
structure Within (draft draft' : Draft κ) : Prop where
  below_eq : draft'.below = draft.below
  role_eq : draft'.top.role = draft.top.role
  top_eq : draft'.top.block = draft.top.block ∨ draft.atlas draft'.top.block = none
  others : ∀ label block, label ≠ draft.top.block → draft.atlas label = some block →
    draft'.atlas label = some block
  text : ∀ block, draft.atlas draft.top.block = some block →
    ∃ block', draft'.atlas draft.top.block = some block' ∧ block.text <+: block'.text
  named : ∀ name, draft.atlas (.named name) = none → draft'.atlas (.named name) = none

theorem Within.trans (h : Within draft draft') (h' : Within draft' draft'') :
    Within draft draft'' := by
  have hothers : ∀ label block, label ≠ draft.top.block → draft.atlas label = some block →
      draft''.atlas label = some block := by
    intro label block hlabel hblock
    refine h'.others label block ?_ (h.others label block hlabel hblock)
    rintro rfl
    rcases h.top_eq with htop | htop
    · exact hlabel htop
    · rw [hblock] at htop
      cases htop
  refine ⟨h'.below_eq.trans h.below_eq, h'.role_eq.trans h.role_eq, ?_, hothers, ?_,
    fun name hname => h'.named name (h.named name hname)⟩
  · rcases h'.top_eq with htop' | htop'
    · rw [htop']
      exact h.top_eq
    · by_cases heq : draft''.top.block = draft.top.block
      · exact Or.inl heq
      · refine Or.inr ?_
        cases hblock : draft.atlas draft''.top.block with
        | none => rfl
        | some block => rw [h.others _ block heq hblock] at htop'; cases htop'
  · intro block hblock
    obtain ⟨block', hblock', htext⟩ := h.text block hblock
    by_cases htop : draft'.top.block = draft.top.block
    · obtain ⟨block'', hblock'', htext'⟩ := h'.text block' (htop ▸ hblock')
      exact ⟨block'', htop ▸ hblock'', htext.trans htext'⟩
    · exact ⟨block', h'.others _ block' (Ne.symm htop) hblock', htext⟩

theorem Within.grows (h : Within draft draft') : Grows draft draft' := by
  intro label block hblock
  by_cases hlabel : label = draft.top.block
  · subst hlabel
    obtain ⟨block', hblock', htext⟩ := h.text block hblock
    exact ⟨block', hblock', htext, fun hopen => absurd draft.top_mem_openLabels hopen⟩
  · refine ⟨block, h.others label block hlabel hblock, List.prefix_refl _, fun hopen => ⟨rfl, ?_⟩⟩
    rw [openLabels_eq, h.below_eq, Frame.labels, h.role_eq]
    rw [openLabels_eq, Frame.labels] at hopen
    simp only [List.cons_append, List.mem_cons, not_or] at hopen ⊢
    refine ⟨?_, hopen.2⟩
    rintro rfl
    rcases h.top_eq with htop | htop
    · exact hlabel htop
    · rw [hblock] at htop
      cases htop

/-- The block that receives content was changed, and nothing else. -/
structure Changed (change : Block κ → Block κ) (draft draft' : Draft κ) : Prop where
  frames_eq : draft'.frames = draft.frames
  atlas_eq : ∀ label, draft'.atlas label =
    if label = draft.top.block then (draft.atlas label).map change else draft.atlas label
  sound : Sound draft'

theorem changed_modifyCurrent (h : Sound draft) {change : Block κ → Block κ}
    (hchange : ∀ block, (change block).label = block.label) :
    Changed change draft (draft.modifyCurrent change) := by
  refine ⟨rfl, ?_, h.modify hchange _⟩
  intro label
  rw [modifyCurrent, atlas_modify hchange]
  split
  · rename_i heq
    rw [heq]
  · rfl

theorem changed_id (h : Sound draft) : Changed id draft draft :=
  ⟨rfl, fun label => by simp, h⟩

theorem Changed.mark_line {change : Block κ → Block κ} (h : Changed change draft draft')
    (last : Nat) : Changed change draft { draft' with lastLine := last } :=
  ⟨h.frames_eq, h.atlas_eq, h.sound.mark_line last⟩

theorem Changed.top_eq {change : Block κ → Block κ} (h : Changed change draft draft') :
    draft'.top = draft.top ∧ draft'.below = draft.below :=
  top_of_frames (h.frames_eq.trans draft.frames_eq)

theorem Changed.within {change : Block κ → Block κ} (h : Changed change draft draft')
    (htext : ∀ block, block.text <+: (change block).text) : Within draft draft' := by
  obtain ⟨htop, hbelow⟩ := h.top_eq
  refine ⟨hbelow, by rw [htop], Or.inl (by rw [htop]), ?_, ?_, ?_⟩
  · intro label block hlabel hblock
    rw [h.atlas_eq, if_neg hlabel, hblock]
  · intro block hblock
    rw [h.atlas_eq, if_pos rfl, hblock]
    exact ⟨change block, rfl, htext block⟩
  · intro name hname
    rw [h.atlas_eq, hname]
    split <;> rfl

/-! ## Opening bodies -/

/-- A body was opened: play enters it from the block that received content before. -/
structure Opened (frame : Frame) (final : Bool) (draft draft' : Draft κ) : Prop where
  frames_eq : draft'.frames = frame :: draft.frames
  fresh : draft.atlas frame.block = none
  ends_eq : frame.role.ends = []
  atlas_eq : ∀ label, draft'.atlas label =
    if label = frame.block then some { label := frame.block }
    else if label = draft.top.block then (draft.atlas label).map (·.exit frame.block final)
    else draft.atlas label
  sound : Sound draft'

theorem link_spec (h : Sound draft) (frame : Frame) (final : Bool) (line : Nat)
    (hfresh : draft.atlas frame.block = none)
    (hminted : frame.block.MintedBefore draft.minted) (hends : frame.role.ends = []) :
    ∃ linked, draft.link draft.top.block frame.block final line = .ok linked ∧
      Opened frame final draft ((linked.allocate frame.block).push frame) := by
  have hne : draft.top.block ≠ frame.block := h.ne_of_fresh hfresh draft.top_mem_openLabels
  have hlabel : ∀ block : Block κ, (block.exit frame.block final).label = block.label :=
    Block.label_exit frame.block final
  have hnot : frame.block ∉ draft.blocks.map Block.label := by
    rw [← Atlas.isSome_of_iff]
    change ¬ (draft.atlas frame.block).isSome = true
    rw [hfresh]
    simp
  refine ⟨_, if_neg hne, rfl, hfresh, hends, ?_, ?_⟩
  · intro label
    rw [show ((((draft.modify draft.top.block (·.exit frame.block final)).allocate
      frame.block).push frame).atlas label) = ((draft.modify draft.top.block
      (·.exit frame.block final)).allocate frame.block).atlas label from rfl,
      atlas_allocate, atlas_modify hlabel]
    split
    · rfl
    · split
      · rename_i heq
        rw [heq]
      · rfl
  · have hmodify := h.modify hlabel draft.top.block
    have hlabels : (modifyBlock draft.top.block (fun block => block.exit frame.block final)
        draft.blocks).map Block.label = draft.blocks.map Block.label :=
      labels_modifyBlock hlabel _ _
    have hopen : (((draft.modify draft.top.block (·.exit frame.block final)).allocate
        frame.block).push frame).openLabels = frame.block :: draft.openLabels := by
      change frame.labels ++ draft.openLabels = _
      rw [Frame.labels, hends]
      rfl
    refine ⟨?_, List.mem_cons_of_mem _ hmodify.entry_mem, ?_, ?_, ?_⟩
    · refine List.nodup_cons.2 ⟨?_, hmodify.nodup⟩
      rw [modify, hlabels]
      exact hnot
    · intro label hmem
      rcases List.mem_cons.1 hmem with rfl | hmem
      · exact hminted
      · exact hmodify.minted label hmem
    · rw [hopen]
      intro label hmem
      rcases List.mem_cons.1 hmem with rfl | hmem
      · exact List.mem_cons_self
      · exact List.mem_cons_of_mem _ (hmodify.open_mem label hmem)
    · rw [hopen]
      exact List.nodup_cons.2 ⟨fun hmem => hnot (h.open_mem _ hmem), h.open_nodup⟩

theorem enter_spec (h : Sound draft) (label : Label) (role : Role) (line : Nat)
    (hfresh : draft.atlas label = none) (hminted : label.MintedBefore draft.minted)
    (hends : role.ends = []) :
    ∃ draft', draft.enter label role line = .ok draft' ∧
      Opened { block := label, role } false draft draft' := by
  obtain ⟨linked, hlink, hopened⟩ :=
    link_spec h { block := label, role } false line hfresh hminted hends
  refine ⟨_, ?_, hopened⟩
  have hfind : draft.find? label = none := hfresh
  unfold enter
  rw [hfind]
  simp only [Option.isSome_none, Bool.false_eq_true, if_false]
  rw [hlink]
  rfl

theorem enterFresh_spec (h : Sound draft) (role : Role) (line : Nat) (hends : role.ends = []) :
    ∃ draft', draft.enterFresh role line = .ok draft' ∧
      Opened { block := draft.nextLabel .scope line, role } false draft draft' := by
  have hminted : (draft.nextLabel .scope line).MintedBefore draft.countMint.minted := by
    intro index line origin heq
    cases heq
    exact Nat.lt_succ_self _
  obtain ⟨draft', henter, hopened⟩ :=
    enter_spec h.countMint _ role line (h.fresh .scope line) hminted hends
  exact ⟨draft', henter, hopened.frames_eq, hopened.fresh, hopened.ends_eq, hopened.atlas_eq,
    hopened.sound⟩

theorem openChain_spec (h : Sound draft) (line : Nat) :
    ∃ draft', draft.openChain line = .ok draft' ∧
      Opened
        { block := draft.nextLabel .cond line
          indent := draft.top.indent
          role := .chain [] true } true draft draft' := by
  have hminted : (draft.nextLabel .cond line).MintedBefore draft.countMint.minted := by
    intro index line origin heq
    cases heq
    exact Nat.lt_succ_self _
  obtain ⟨linked, hlink, hopened⟩ := link_spec h.countMint
    { block := draft.nextLabel .cond line
      indent := draft.top.indent
      role := .chain [] true } true line (h.fresh .cond line) hminted rfl
  refine ⟨_, ?_, hopened.frames_eq, hopened.fresh, hopened.ends_eq, hopened.atlas_eq,
    hopened.sound⟩
  have hlink' : draft.countMint.link draft.top.block (draft.nextLabel .cond line) true line =
      .ok linked := hlink
  unfold openChain
  dsimp only
  rw [hlink']
  rfl

theorem Opened.top_eq {frame : Frame} {final : Bool} (h : Opened frame final draft draft') :
    draft'.top = frame ∧ draft'.below = draft.frames :=
  top_of_frames h.frames_eq

theorem Opened.ne_fresh {frame : Frame} {final : Bool} (h : Opened frame final draft draft')
    {label : Label} {block : Block κ} (hblock : draft.atlas label = some block) :
    label ≠ frame.block := by
  rintro rfl
  rw [h.fresh] at hblock
  cases hblock

theorem Opened.others {frame : Frame} {final : Bool} (h : Opened frame final draft draft')
    {label : Label} {block : Block κ} (hlabel : label ≠ draft.top.block)
    (hblock : draft.atlas label = some block) : draft'.atlas label = some block := by
  rw [h.atlas_eq, if_neg (h.ne_fresh hblock), if_neg hlabel, hblock]

theorem Opened.grows {frame : Frame} {final : Bool} (h : Opened frame final draft draft') :
    Grows draft draft' := by
  intro label block hblock
  have hopen : draft'.openLabels = frame.block :: draft.openLabels := by
    rw [openLabels, h.frames_eq, List.flatMap_cons, Frame.labels, h.ends_eq]
    rfl
  have hnot : label ∉ draft.openLabels → label ∉ draft'.openLabels := by
    intro hlabel
    rw [hopen, List.mem_cons, not_or]
    exact ⟨h.ne_fresh hblock, hlabel⟩
  by_cases htop : label = draft.top.block
  · refine ⟨block.exit frame.block final, ?_, ?_, ?_⟩
    · rw [h.atlas_eq, if_neg (h.ne_fresh hblock), if_pos htop, hblock]
      rfl
    · rw [Block.text_exit]
    · intro hlabel
      exact absurd (htop ▸ draft.top_mem_openLabels) hlabel
  · exact ⟨block, h.others htop hblock, List.prefix_refl _, fun hlabel => ⟨rfl, hnot hlabel⟩⟩

theorem Opened.mark_line {frame : Frame} {final : Bool} (h : Opened frame final draft draft')
    (last : Nat) : Opened frame final draft { draft' with lastLine := last } :=
  ⟨h.frames_eq, h.fresh, h.ends_eq, h.atlas_eq, h.sound.mark_line last⟩

/-- The first line of a body tells its indentation. -/
theorem Opened.establish {frame : Frame} {final : Bool} (h : Opened frame final draft draft')
    (indent : Option (List Char)) :
    Opened { frame with indent } final draft
      (draft'.modifyTop fun frame => { frame with indent }) := by
  obtain ⟨htop, hbelow⟩ := h.top_eq
  have hframes : (draft'.modifyTop fun frame => { frame with indent }).frames =
      { frame with indent } :: draft.frames := by rw [frames_modifyTop, htop, hbelow]
  refine ⟨hframes, h.fresh, h.ends_eq, ?_, h.sound.modifyTop rfl⟩
  rw [atlas, blocks_modifyTop]
  exact h.atlas_eq

/-! ## Closing bodies -/

/-- An alternative closes: its end joins those that the fork has collected. -/
theorem close_arm (h : Sound draft) {frame fork : Frame} {rest : List Frame}
    (hframes : draft.frames = frame :: fork :: rest) (hrole : frame.role = .arm)
    (hfork : (fork.role.collect frame.block).ends = fork.role.ends ++ [frame.block])
    (line : Nat) :
    ∃ draft', draft.close line = .ok draft' ∧
      draft'.frames = { fork with role := fork.role.collect frame.block } :: rest ∧
      draft'.atlas = draft.atlas ∧ Sound draft' ∧ Grows draft draft' := by
  obtain ⟨stack, hstack, hbelow⟩ := stack_of_frames hframes
  obtain ⟨htop, hrest⟩ := top_of_frames hbelow
  have hclose : draft.close line = .ok (({ draft with stack } : Draft κ).modifyTop
      fun fork => { fork with role := fork.role.collect frame.block }) := by
    unfold close
    rw [hstack]
    simp only [hrole]
  have hframes' : (({ draft with stack } : Draft κ).modifyTop
      fun fork => { fork with role := fork.role.collect frame.block }).frames =
      { fork with role := fork.role.collect frame.block } :: rest := by
    rw [frames_modifyTop, htop, hrest]
  have hatlas : (({ draft with stack } : Draft κ).modifyTop
      fun fork => { fork with role := fork.role.collect frame.block }).atlas = draft.atlas := by
    rw [atlas, blocks_modifyTop]
  have hperm : (({ draft with stack } : Draft κ).modifyTop
      fun fork => { fork with role := fork.role.collect frame.block }).openLabels.Perm
      draft.openLabels := by
    have hlabels : frame.labels = [frame.block] := by simp [Frame.labels, hrole, Role.ends]
    have hlabels' : ({ fork with role := fork.role.collect frame.block } : Frame).labels =
        fork.block :: (fork.role.ends ++ [frame.block]) := by rw [← hfork]; rfl
    rw [openLabels, openLabels, hframes', hframes, List.flatMap_cons, List.flatMap_cons,
      List.flatMap_cons, hlabels, hlabels', Frame.labels, List.cons_append, List.append_assoc,
      List.singleton_append, List.singleton_append, List.cons_append]
    exact (List.Perm.cons _ List.perm_middle).trans (List.Perm.swap _ _ _)
  refine ⟨_, hclose, hframes', hatlas, ⟨?_, ?_, ?_, ?_, ?_⟩, ?_⟩
  · rw [blocks_modifyTop]
    exact h.nodup
  · rw [blocks_modifyTop]
    exact h.entry_mem
  · rw [blocks_modifyTop, minted_modifyTop]
    exact h.minted
  · rw [blocks_modifyTop]
    exact fun label hlabel => h.open_mem label (hperm.mem_iff.1 hlabel)
  · exact hperm.nodup_iff.2 h.open_nodup
  · intro label block hblock
    rw [hatlas]
    exact ⟨block, hblock, List.prefix_refl _,
      fun hlabel => ⟨rfl, fun hmem => hlabel (hperm.mem_iff.1 hmem)⟩⟩

/-- Play was led from the given blocks to a fresh one, at which the body around continues. -/
structure Joined (sources : List Label) (merge : Label) (draft draft' : Draft κ) : Prop where
  frames_eq : ∃ next rest, draft.below = next :: rest ∧
    draft'.frames = { next with block := merge } :: rest
  fresh : draft.atlas merge = none
  minted : merge.isSynthetic = true
  sources_open : sources ⊆ draft.top.labels
  atlas_eq : ∀ label, draft'.atlas label =
    if label = merge then some { label := merge }
    else if label ∈ sources then (draft.atlas label).map (·.exit merge false)
    else draft.atlas label
  sound : Sound draft'

theorem foldlM_link {sources : List Label} {merge : Label} (hnodup : sources.Nodup)
    (hmerge : merge ∉ sources) (line : Nat) (draft : Draft κ) :
    ∃ blocks, sources.foldlM (fun draft source => draft.link source merge false line) draft =
        .ok { draft with blocks } ∧
      blocks.map Block.label = draft.blocks.map Block.label ∧
      ∀ label, Atlas.of blocks label = if label ∈ sources then
        (draft.atlas label).map (·.exit merge false) else draft.atlas label := by
  induction sources generalizing draft with
  | nil => exact ⟨draft.blocks, rfl, rfl, by simp⟩
  | cons source sources ih =>
    rw [List.mem_cons, not_or] at hmerge
    rw [List.nodup_cons] at hnodup
    have hlabel : ∀ block : Block κ, (block.exit merge false).label = block.label :=
      Block.label_exit merge false
    have hlink : draft.link source merge false line =
        .ok (draft.modify source (·.exit merge false)) := if_neg (Ne.symm hmerge.1)
    obtain ⟨blocks, hfold, hlabels, hatlas⟩ := ih hnodup.2 hmerge.2
      (draft.modify source (·.exit merge false))
    refine ⟨blocks, ?_, ?_, ?_⟩
    · rw [List.foldlM_cons, hlink]
      exact hfold
    · rw [hlabels]
      exact labels_modifyBlock hlabel source draft.blocks
    · intro label
      rw [hatlas, atlas_modify hlabel]
      by_cases hsource : label = source
      · subst hsource
        simp [hnodup.1]
      · simp [hsource]

theorem join_spec {sources : List Label} (hnodup : sources.Nodup) (line : Nat) (draft : Draft κ)
    (hmerge : draft.nextLabel .merge line ∉ sources) :
    ∃ draft', draft.join sources line = .ok draft' ∧
      draft'.frames = { draft.top with block := draft.nextLabel .merge line } :: draft.below ∧
      draft'.minted = draft.minted + 1 ∧
      draft'.blocks.map Block.label =
        draft.nextLabel .merge line :: draft.blocks.map Block.label ∧
      ∀ label, draft'.atlas label =
        if label = draft.nextLabel .merge line then some { label := draft.nextLabel .merge line }
        else if label ∈ sources then
          (draft.atlas label).map (·.exit (draft.nextLabel .merge line) false)
        else draft.atlas label := by
  obtain ⟨blocks, hfold, hlabels, hatlas⟩ := foldlM_link hnodup hmerge line draft.countMint
  refine ⟨({ draft.countMint with blocks }.allocate (draft.nextLabel .merge line)).modifyTop
    fun frame => { frame with block := draft.nextLabel .merge line }, ?_, ?_, ?_, ?_, ?_⟩
  · unfold join
    dsimp only
    rw [hfold]
    rfl
  · rw [frames_modifyTop]
    rfl
  · rw [minted_modifyTop]
    rfl
  · rw [blocks_modifyTop, allocate, List.map_cons, hlabels]
    rfl
  · intro label
    rw [atlas, blocks_modifyTop]
    change ({ draft.countMint with blocks }.allocate (draft.nextLabel .merge line)).atlas label = _
    rw [atlas_allocate]
    split
    · rfl
    · exact hatlas label

theorem close_eq_join {frame : Frame} {stack : List Frame} (hstack : draft.stack = frame :: stack)
    (hrole : frame.role ≠ .arm) (line : Nat) :
    draft.close line = ({ draft with stack } : Draft κ).join frame.exits line := by
  unfold close Frame.exits
  rw [hstack]
  dsimp only
  cases hrole' : frame.role with
  | arm => exact absurd hrole' hrole
  | body => rfl
  | menu ends => rfl
  | chain ends skippable => rfl

/-- Any other body closes: its ends are led to a fresh block. -/
theorem close_join (h : Sound draft) {frame next : Frame} {rest : List Frame}
    (hframes : draft.frames = frame :: next :: rest) (hrole : frame.role ≠ .arm) (line : Nat) :
    ∃ draft', draft.close line = .ok draft' ∧
      Joined frame.exits (draft.nextLabel .merge line) draft draft' := by
  obtain ⟨stack, hstack, hbelow⟩ := stack_of_frames hframes
  obtain ⟨htop, hrest⟩ := top_of_frames hbelow
  obtain ⟨htop', hrest'⟩ := top_of_frames hframes
  have hfresh := h.fresh .merge line
  have hopen : draft.openLabels = frame.labels ++ (next :: rest).flatMap Frame.labels := by
    rw [openLabels, hframes, List.flatMap_cons]
  have hsources : frame.exits ⊆ draft.openLabels := by
    intro label hlabel
    rw [hopen]
    exact List.mem_append_left _ (frame.exits_subset hlabel)
  have hnodup : frame.exits.Nodup := by
    have hnodup := h.open_nodup
    rw [hopen] at hnodup
    exact Frame.nodup_exits (List.nodup_append.1 hnodup).1
  have hmerge : draft.nextLabel .merge line ∉ frame.exits := fun hmem =>
    h.ne_of_fresh hfresh (hsources hmem) rfl
  obtain ⟨draft', hjoin, hframes', hminted, hlabels, hatlas⟩ :=
    join_spec hnodup line { draft with stack } hmerge
  rw [htop, hrest] at hframes'
  have hopen' : draft'.openLabels = draft.nextLabel .merge line ::
      (next.role.ends ++ rest.flatMap Frame.labels) := by
    rw [openLabels, hframes']
    rfl
  have hsub : (next.role.ends ++ rest.flatMap Frame.labels).Sublist draft.openLabels := by
    rw [hopen]
    refine List.Sublist.trans ?_ (List.sublist_append_right _ _)
    exact List.sublist_cons_self next.block _
  refine ⟨draft', by rw [close_eq_join hstack hrole, hjoin],
    ⟨next, rest, hrest', hframes'⟩, hfresh, rfl, ?_, hatlas, ⟨?_, ?_, ?_, ?_, ?_⟩⟩
  · rw [htop']
    exact frame.exits_subset
  · rw [hlabels]
    refine List.nodup_cons.2 ⟨?_, h.nodup⟩
    rw [← Atlas.isSome_of_iff]
    change ¬ (draft.atlas (draft.nextLabel .merge line)).isSome = true
    rw [hfresh]
    simp
  · rw [hlabels]
    exact List.mem_cons_of_mem _ h.entry_mem
  · rw [hlabels, hminted]
    intro label hmem
    rcases List.mem_cons.1 hmem with rfl | hmem
    · intro index line origin heq
      cases heq
      exact Nat.lt_succ_self _
    · intro index line origin heq
      exact Nat.lt_succ_of_lt (h.minted label hmem index line origin heq)
  · rw [hlabels, hopen']
    intro label hmem
    rcases List.mem_cons.1 hmem with rfl | hmem
    · exact List.mem_cons_self
    · exact List.mem_cons_of_mem _ (h.open_mem label (hsub.subset hmem))
  · rw [hopen']
    refine List.nodup_cons.2 ⟨?_, h.open_nodup.sublist hsub⟩
    intro hmem
    exact h.ne_of_fresh hfresh (hsub.subset hmem) rfl

theorem Joined.ne_fresh {sources : List Label} {merge : Label}
    (h : Joined sources merge draft draft') {label : Label} {block : Block κ}
    (hblock : draft.atlas label = some block) : label ≠ merge := by
  rintro rfl
  rw [h.fresh] at hblock
  cases hblock

theorem Joined.grows {sources : List Label} {merge : Label}
    (h : Joined sources merge draft draft') : Grows draft draft' := by
  intro label block hblock
  have hne := h.ne_fresh hblock
  have hatlas := h.atlas_eq label
  rw [if_neg hne, hblock] at hatlas
  by_cases hsource : label ∈ sources
  · rw [if_pos hsource] at hatlas
    refine ⟨_, hatlas, by rw [Block.text_exit], ?_⟩
    intro hlabel
    refine absurd ?_ hlabel
    rw [openLabels_eq]
    exact List.mem_append_left _ (h.sources_open hsource)
  · rw [if_neg hsource] at hatlas
    refine ⟨block, hatlas, List.prefix_refl _, fun hlabel => ⟨rfl, ?_⟩⟩
    obtain ⟨next, rest, hbelow, hframes⟩ := h.frames_eq
    rw [openLabels_eq, hbelow] at hlabel
    rw [openLabels, hframes]
    simp only [List.flatMap_cons, Frame.labels, List.mem_append, List.mem_cons, not_or] at hlabel ⊢
    exact ⟨⟨hne, hlabel.2.1.2⟩, hlabel.2.2⟩

theorem Joined.top_eq {sources : List Label} {merge : Label}
    (h : Joined sources merge draft draft') {next : Frame} {rest : List Frame}
    (hbelow : draft.below = next :: rest) :
    draft'.top = { next with block := merge } ∧ draft'.below = rest := by
  obtain ⟨next', rest', hbelow', hframes⟩ := h.frames_eq
  rw [hbelow, List.cons.injEq] at hbelow'
  obtain ⟨rfl, rfl⟩ := hbelow'
  exact top_of_frames hframes

/-- The blocks of the closed body are done, and so is the block that led into it. -/
theorem Joined.not_mem_openLabels {sources : List Label} {merge : Label}
    (h : Joined sources merge draft draft') (hsound : Sound draft) {next : Frame}
    {rest : List Frame} (hbelow : draft.below = next :: rest) {label : Label}
    (hlabel : label ∈ draft.top.labels ∨ label = next.block) : label ∉ draft'.openLabels := by
  obtain ⟨htop', hbelow'⟩ := h.top_eq hbelow
  have hopen : draft.openLabels =
      draft.top.labels ++ next.block :: (next.role.ends ++ rest.flatMap Frame.labels) := by
    rw [openLabels_eq, hbelow]
    rfl
  have hnodup := hsound.open_nodup
  rw [hopen, List.nodup_append] at hnodup
  obtain ⟨-, hnodup, hdisjoint⟩ := hnodup
  have hmem : label ∈ draft.openLabels := by
    rw [hopen, List.mem_append, List.mem_cons]
    rcases hlabel with hlabel | hlabel
    · exact Or.inl hlabel
    · exact Or.inr (Or.inl hlabel)
  rw [openLabels_eq, htop', hbelow']
  change label ∉ merge :: (next.role.ends ++ rest.flatMap Frame.labels)
  rw [List.mem_cons, not_or]
  refine ⟨hsound.ne_of_fresh h.fresh hmem, fun hrest => ?_⟩
  rcases hlabel with hlabel | rfl
  · exact hdisjoint label hlabel label (List.mem_cons_of_mem _ hrest) rfl
  · exact (List.nodup_cons.1 hnodup).1 hrest

theorem Joined.others {sources : List Label} {merge : Label}
    (h : Joined sources merge draft draft') {label : Label} {block : Block κ}
    (hlabel : label ∉ sources) (hblock : draft.atlas label = some block) :
    draft'.atlas label = some block := by
  rw [h.atlas_eq, if_neg (h.ne_fresh hblock), if_neg hlabel, hblock]

theorem Joined.source {sources : List Label} {merge : Label}
    (h : Joined sources merge draft draft') {label : Label} {block : Block κ}
    (hlabel : label ∈ sources) (hblock : draft.atlas label = some block) :
    draft'.atlas label = some (block.exit merge false) := by
  rw [h.atlas_eq, if_neg (h.ne_fresh hblock), if_pos hlabel, hblock]
  rfl

theorem Joined.named {sources : List Label} {merge : Label}
    (h : Joined sources merge draft draft') {name : String}
    (hname : draft.atlas (.named name) = none) : draft'.atlas (.named name) = none := by
  rw [h.atlas_eq, if_neg, hname]
  · split <;> rfl
  · rintro rfl
    exact absurd h.minted (by simp [Label.isSynthetic])

end Draft

end Playthrough
