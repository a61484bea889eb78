import Playthrough.Proofs.Draft.Dispatch
import Playthrough.Proofs.Renumbering.Script

/-!
# Where further branches go

A further branch belongs to the chain of conditions right before it, in the same body. The draft does
not look back for it: a further branch is accepted if the frame of a chain is the innermost one when
the line has been aligned. Both come to the same, as every other statement in the body closes the
chain first, and lines in the branches or without code do not.

* `Tidy.closeMany_above`: what closing bodies does to the frame below them and to the blocks.
* `Draft.Branching`, `Draft.Meets`, `Draft.Cleared`: what holds between two lines, when a line has
  been aligned, and when no chain is left over.
* `Branching.align`, `Meets.obey`, `branching_feedAll`: the parts of a line, and a script.
* `Draft.Merges`, `Draft.Serves`: a chain closes; what an open chain of a script is like.
* `branches_feedAll`: what a further branch behind a script does.
-/

namespace Playthrough

open Script Text

variable {κ : Type}

namespace Draft

variable {draft draft' : Draft κ} {reader : LineReader κ} {read : List (String × Nat)}
variable {line : String} {number : Nat}

/-! ## Closing bodies -/

/-- Closing a body changes no blocks but its own, and hands no others to the body around it. -/
theorem Tidy.close_above (h : Tidy draft) {inner outer : Frame} {rest : List Frame}
    (hframes : draft.frames = inner :: outer :: rest) (hclose : draft.close number = .ok draft') :
    ∃ outer', draft'.frames = outer' :: rest ∧ outer.Regains (some inner.role.kind) outer' ∧
      ∀ label block, draft.atlas label = some block → label ∉ inner.labels →
        draft'.atlas label = some block ∧ (label ∉ outer.labels → label ∉ outer'.labels) := by
  by_cases hrole : inner.role = .arm
  · have hinside : inner.Inside outer :=
      h.nest.inside (hframes ▸ (List.prefix_append [inner, outer] rest).isInfix)
    have hends := Role.ends_collect (hinside.arm hrole) inner.block
    obtain ⟨closed, hclosed, hframes', hatlas, -⟩ := close_arm h.sound hframes hrole hends number
    obtain rfl := Except.ok.inj (hclosed.symm.trans hclose)
    refine ⟨_, hframes', by rw [hrole]; exact .arm _, fun label block hblock hlabel => ?_⟩
    refine ⟨by rw [hatlas, hblock], ?_⟩
    have hne : label ≠ inner.block := fun heq => hlabel (heq ▸ List.mem_cons_self)
    simp only [Frame.labels, hends, List.mem_cons, List.mem_append, List.not_mem_nil, or_false,
      not_or]
    exact fun houter => ⟨houter.1, houter.2, hne⟩
  · obtain ⟨closed, hclosed, hjoined⟩ := close_join h.sound hframes hrole number
    obtain rfl := Except.ok.inj (hclosed.symm.trans hclose)
    obtain ⟨next, back, hbelow, hframes'⟩ := hjoined.frames_eq
    obtain ⟨rfl, rfl⟩ := List.cons.inj ((top_of_frames hframes).2.symm.trans hbelow)
    have hkind : inner.role.kind ≠ .arm := fun heq => hrole (Role.kind_eq_arm.1 heq)
    refine ⟨_, hframes', .body hkind _, fun label block hblock hlabel => ?_⟩
    refine ⟨hjoined.others (fun hexit => hlabel (inner.exits_subset hexit)) hblock, ?_⟩
    simp only [Frame.labels, List.mem_cons, not_or]
    exact fun houter => ⟨hjoined.ne_fresh hblock, houter.2⟩

/-- Closing the bodies above a frame changes no blocks but theirs. -/
theorem Tidy.closeMany_above (h : Tidy draft) {above below : List Frame} {frame : Frame}
    (hframes : draft.frames = above ++ frame :: below)
    (hclose : draft.closeMany number above.length = .ok draft') :
    ∃ frame', draft'.frames = frame' :: below ∧
      frame.Regains (above.getLast?.map fun inner => inner.role.kind) frame' ∧
      ∀ label block, draft.atlas label = some block → (∀ inner ∈ above, label ∉ inner.labels) →
        draft'.atlas label = some block := by
  -- closing a body may change the one around it, so the induction is on how many are closed
  generalize hcount : above.length = count at hclose
  induction count generalizing draft above with
  | zero =>
    obtain rfl := List.length_eq_zero_iff.1 hcount
    obtain rfl := Except.ok.inj hclose
    exact ⟨frame, hframes, .none, fun _ _ hblock _ => hblock⟩
  | succ count ih =>
    obtain ⟨middle, hmiddle, hrest⟩ := bind_eq_ok.1 hclose
    obtain ⟨middle', hmiddle', -, hready, -⟩ := h.close number
    obtain rfl := Except.ok.inj (hmiddle.symm.trans hmiddle')
    obtain ⟨inner, above, rfl⟩ := List.exists_cons_of_length_eq_add_one hcount
    rw [List.length_cons, Nat.add_right_cancel_iff] at hcount
    cases above with
    | nil =>
      obtain rfl : 0 = count := hcount
      obtain rfl := Except.ok.inj hrest
      obtain ⟨frame', hframes', hregains, hothers⟩ := h.close_above hframes hmiddle
      refine ⟨frame', hframes', hregains, fun label block hblock hlabel => ?_⟩
      exact (hothers label block hblock (hlabel inner List.mem_cons_self)).1
    | cons outer above =>
      obtain ⟨outer', hframes', hregains, hothers⟩ := h.close_above hframes hmiddle
      have hsplit : middle.frames = (outer' :: above) ++ frame :: below := hframes'
      obtain ⟨frame', hlast, hregains', hothers'⟩ := ih hready.toTidy hsplit hcount hrest
      refine ⟨frame', hlast, ?_, fun label block hblock hlabel => ?_⟩
      · -- the body around has changed, but not its kind
        rw [List.getLast?_cons_cons]
        cases above with
        | nil =>
          rw [List.getLast?_singleton, Option.map_some, hregains.kind_eq.1] at hregains'
          exact hregains'
        | cons next above => simpa only [List.getLast?_cons_cons] using hregains'
      · obtain ⟨hmiddle, houter⟩ := hothers label block hblock (hlabel inner List.mem_cons_self)
        refine hothers' label block hmiddle fun other hother => ?_
        rcases List.mem_cons.1 hother with rfl | hother
        · exact houter (hlabel outer (by simp))
        · exact hlabel other (by simp [hother])

/-- No two open bodies share a block. -/
theorem Sound.block_not_mem (h : Sound draft) {above back : List Frame}
    (hframes : draft.frames = above ++ back) {frame inner : Frame} (hframe : frame ∈ back)
    (hinner : inner ∈ above) : frame.block ∉ inner.labels := by
  have hnodup := h.open_nodup
  rw [openLabels, hframes, List.flatMap_append, List.nodup_append] at hnodup
  intro hmem
  exact hnodup.2.2 _ (List.mem_flatMap.2 ⟨inner, hinner, hmem⟩) _
    (List.mem_flatMap.2 ⟨frame, hframe, List.mem_cons_self⟩) rfl

/-! ## Between two lines -/

/-- What holds of a draft between two lines, when the given lines have been read. -/
structure Branching (reader : LineReader κ) (read : List (String × Nat)) (draft : Draft κ) : Prop
    extends Tidy draft where
  branched : Branched reader draft.atlas read none draft.frames

/-- What holds of a draft when a line has been aligned. -/
structure Meets (reader : LineReader κ) (read : List (String × Nat)) (line : String)
    (draft : Draft κ) : Prop extends Branching reader read draft where
  indent : draft.top.indent = some (margin line)

/-- What holds of a draft when a line has been aligned and no chain is left over. -/
structure Cleared (reader : LineReader κ) (read : List (String × Nat)) (line : String)
    (draft : Draft κ) : Prop extends Tidy draft where
  indent : draft.top.indent = some (margin line)
  apart : draft.top.role.isChain = false
  below : Branched reader draft.atlas read (some draft.top.role.kind) draft.below

theorem branching_start : Branching reader [] (start : Draft κ) := by
  refine ⟨tidy_start, .cons ⟨fun _ indent _ => ?_, fun hindent => ?_, fun hchain => ?_⟩ (.nil _)⟩
  · simp [Follows, siblings_nil]
  · cases hindent
  · cases hchain

namespace Branching

theorem mark_line (h : Branching reader read draft) (last : Nat) :
    Branching reader read { draft with lastLine := last } :=
  ⟨h.toTidy.mark_line last, h.branched⟩

theorem branched_top (h : Branching reader read draft) :
    draft.top.Branched reader draft.atlas read none draft.below ∧
      Branched reader draft.atlas read (some draft.top.role.kind) draft.below := by
  have hbranched := h.branched
  rw [frames_eq] at hbranched
  cases hbranched with
  | cons htop hbelow => exact ⟨htop, hbelow⟩

/-- The bodies above a frame close, of which the last is no chain. -/
theorem closeMany (h : Branching reader read draft) {above below : List Frame} {frame : Frame}
    (hframes : draft.frames = above ++ frame :: below)
    (hapart : ∀ inner ∈ above.getLast?, inner.role.isChain = false)
    (hclose : draft.closeMany number above.length = .ok draft') :
    Branching reader read draft' := by
  obtain ⟨closed, hclosed, -, htidy, -⟩ := h.toTidy.closeMany number above.length
  obtain rfl := Except.ok.inj (hclosed.symm.trans hclose)
  obtain ⟨frame', hframes', hregains, hothers⟩ := h.toTidy.closeMany_above hframes hclose
  have hblocks : ∀ other ∈ frame :: below, ∀ block, draft.atlas other.block = some block →
      closed.atlas other.block = some block := fun other hother block hblock =>
    hothers _ block hblock fun inner hinner => h.sound.block_not_mem hframes hother hinner
  have hbranched := h.branched
  rw [hframes] at hbranched
  obtain ⟨hframe, hbelow⟩ := hbranched.of_append
  rw [Option.or_none] at hframe
  refine ⟨htidy, ?_⟩
  rw [hframes']
  refine .cons ((hframe.mono (hblocks frame List.mem_cons_self)).regain hregains ?_) ?_
  · cases hlast : above.getLast? with
    | none => rfl
    | some inner =>
      rw [Option.map_some, Option.any_some, Role.isChain_kind]
      exact hapart inner hlast
  · rw [hregains.kind_eq.1]
    exact hbelow.mono fun other hother => hblocks other (List.mem_cons_of_mem _ hother)

/-- The first line of a body stands next to nothing. -/
theorem establish (h : Branching reader read draft) (hindent : draft.top.indent = none)
    {rest : List Char} (halign : draft.align line.toList number = .ok (draft', rest)) :
    Meets reader read line draft' := by
  have htidy := (h.toTidy.align halign).1.toTidy
  have hnest := h.nest
  rw [frames_eq] at hnest
  obtain ⟨outer, back, hbelow, hchain, -, houter⟩ := hnest.of_unknown hindent
  rw [hbelow] at houter
  have henclosing : draft.enclosing = outer := enclosing_eq (by rw [draft.frames_eq, hbelow])
  rw [align_unknown hindent (by rw [henclosing]) houter.blanks_margin] at halign
  by_cases hcarries : outer.margin <+: leading line.toList
  · by_cases hsame : leading line.toList = outer.margin
    · simp [hsame] at halign
    · rw [if_pos hcarries, if_neg hsame] at halign
      obtain ⟨rfl, -⟩ := Prod.mk.inj (Except.ok.inj halign)
      have hframes := frames_modifyTop
        (fun frame => { frame with indent := some (leading line.toList) }) draft
      obtain ⟨htop, hrest⟩ := h.branched_top
      obtain ⟨more, hmore⟩ := hcarries
      have hnone : ¬ Follows (leading line.toList) read := by
        rw [← hmore]
        refine htop.first hindent outer (by simp [hbelow]) more ?_ fun c hc => ?_
        · rintro rfl
          exact hsame (by rw [← hmore, List.append_nil])
        · exact isBlank_of_mem_leading (hmore ▸ List.mem_append_right _ hc)
      refine ⟨⟨htidy, ?_⟩, by rw [(top_of_frames hframes).1, margin]⟩
      rw [hframes, atlas, blocks_modifyTop]
      refine .cons ⟨fun _ indent hsome => ?_, by simp, by simp [hchain]⟩ hrest
      rw [← Option.some.inj hsome]
      simpa using hnone
  · simp [hcarries] at halign

/-- A line closes the bodies that it ends, and then stands in the innermost one. -/
theorem align (h : Branching reader read draft) {rest : List Char}
    (halign : draft.align line.toList number = .ok (draft', rest)) :
    Meets reader read line draft' := by
  cases hindent : draft.top.indent with
  | none => exact h.establish hindent halign
  | some indent =>
    obtain ⟨-, above, frame, below, hframes, hframe, hother, hclose, htop, -⟩ :=
      (h.toTidy.dedents (by rw [hindent]; rfl) line.toList number).closes _ _ halign
    refine ⟨h.closeMany hframes (fun inner hinner => ?_) hclose, htop⟩
    -- a chain directly in the body would be level with the line
    obtain ⟨front, rfl⟩ := List.getLast?_eq_some_iff.1 hinner
    have hinside : inner.Inside frame := h.nest.inside ⟨front, below, by simp [hframes]⟩
    rw [← Bool.not_eq_true]
    intro hchain
    exact hother inner (by simp) ((hinside.level hchain).1.trans hframe)

end Branching

/-! ## Statements -/

theorem Meets.ready (h : Meets reader read line draft) : Ready draft :=
  ⟨h.toTidy, by rw [h.indent]; rfl⟩

/-- A chain is directly in the innermost body exactly if the last statement there is a header of
    it. -/
theorem Meets.follows_iff (h : Meets reader read line draft) :
    Follows (margin line) read ↔ draft.top.role.isChain = true := by
  cases hchain : draft.top.role.isChain with
  | false => exact (h.branched_top.1.follows hchain _ h.indent).trans (by simp)
  | true =>
    have hbelow := h.branched_top.2
    obtain ⟨outer, back, hframes, hindent, hapart, -⟩ :=
      (draft.frames_eq ▸ h.nest).around_chain hchain
    rw [hframes] at hbelow
    cases hbelow with
    | cons houter _ =>
    rw [houter.follows hapart _ (hindent.trans h.indent), Option.any_some, Role.isChain_kind, hchain]

/-- A chain of conditions that is left over is closed. -/
theorem Meets.closeChain (h : Meets reader read line draft)
    (hclose : draft.closeChain number = .ok draft') : Cleared reader read line draft' := by
  obtain ⟨closed, hclosed, -, hready, hapart⟩ := h.ready.closeChain number
  obtain rfl := Except.ok.inj (hclosed.symm.trans hclose)
  obtain ⟨-, hbelow⟩ := h.branched_top
  cases hrole : draft.top.role with
  | chain ends skippable =>
    rw [Draft.closeChain, hrole] at hclose
    have hchain : draft.top.role.isChain = true := by rw [hrole]; rfl
    obtain ⟨outer, back, hframes, hindent, -⟩ := (draft.frames_eq ▸ h.nest).around_chain hchain
    have hsplit : draft.frames = draft.top :: outer :: back := by rw [draft.frames_eq, hframes]
    obtain ⟨outer', hframes', hregains, hothers⟩ := h.toTidy.close_above hsplit hclose
    obtain ⟨htop, hback⟩ := top_of_frames hframes'
    obtain ⟨hkind, hindent'⟩ := hregains.kind_eq
    refine ⟨hready.toTidy, ?_, hapart, ?_⟩
    · rw [htop, hindent', hindent, h.indent]
    · rw [hframes] at hbelow
      cases hbelow with
      | cons _ hrest =>
      rw [htop, hback, hkind]
      refine hrest.mono fun other hother block hblock => (hothers _ block hblock ?_).1
      have hsplit' : draft.frames = [draft.top] ++ (outer :: back) := hsplit
      exact h.sound.block_not_mem hsplit' (List.mem_cons_of_mem _ hother) (List.mem_singleton_self _)
  | _ =>
    obtain rfl : draft = closed := by
      rw [Draft.closeChain, hrole] at hclose
      exact Except.ok.inj hclose
    exact ⟨h.toTidy, h.indent, hapart, hbelow⟩

theorem Meets.after_closeChain {α : Type} (h : Meets reader read line draft)
    {rest : Draft κ → Except (Fault κ) α} {result : α}
    (hrun : (draft.closeChain number >>= rest) = .ok result) :
    ∃ first, Cleared reader read line first ∧ rest first = .ok result := by
  obtain ⟨first, hfirst, hrest⟩ := bind_eq_ok.1 hrun
  exact ⟨first, h.closeChain hfirst, hrest⟩

theorem Sound.block_ne_top (h : Sound draft) {frame : Frame} (hframe : frame ∈ draft.below) :
    frame.block ≠ draft.top.block := by
  have hframes : draft.frames = [draft.top] ++ draft.below := draft.frames_eq
  intro heq
  exact h.block_not_mem hframes hframe (List.mem_singleton_self _) (heq ▸ List.mem_cons_self)

namespace Cleared

theorem ready (h : Cleared reader read line draft) : Ready draft :=
  ⟨h.toTidy, by rw [h.indent]; rfl⟩

/-- A declared name comes into scope. -/
theorem declare (h : Cleared reader read line draft) (name : String) :
    Cleared reader read line (draft.declare name) := by
  unfold Draft.declare
  split
  · exact h
  · have hframes := frames_modifyTop (fun frame => { frame with scope := some name }) draft
    obtain ⟨htop, hbelow⟩ := top_of_frames hframes
    refine ⟨(h.ready.modifyTop _ rfl rfl rfl).1.toTidy, ?_, ?_, ?_⟩
    · rw [htop]
      exact h.indent
    · rw [htop]
      exact h.apart
    · rw [htop, hbelow, atlas, blocks_modifyTop]
      exact h.below

/-- The line is done with. The bodies around the one it stands in are as before, and a chain is
    directly above that one if the line opens one. -/
theorem frames (h : Cleared reader read line draft) (hcode : isBlankLine line.toList = false)
    {above : Option Role} (habove : (stated line).inChain = above.any Role.isChain)
    (hothers : ∀ label block, label ≠ draft.top.block → draft.atlas label = some block →
      draft'.atlas label = some block) :
    Branched reader draft'.atlas (read ++ [(line, number)]) above draft.frames := by
  have hnest := h.nest
  rw [frames_eq] at hnest ⊢
  refine (h.below.mono fun other hother block => ?_).stand hnest h.apart h.indent hcode habove
  exact hothers _ block (h.sound.block_ne_top hother)

/-- Only the block that receives content has changed. -/
theorem changed (h : Cleared reader read line draft) (hcode : isBlankLine line.toList = false)
    (hstated : (stated line).inChain = false) {change : Block κ → Block κ}
    (hchange : ∀ block, (change block).label = block.label) :
    Branching reader (read ++ [(line, number)]) (draft.modifyCurrent change) := by
  obtain ⟨htidy, hchanged⟩ := h.ready.modifyCurrent hchange
  refine ⟨htidy, ?_⟩
  rw [hchanged.frames_eq]
  refine h.frames hcode hstated fun label block hlabel hblock => ?_
  rw [hchanged.atlas_eq, if_neg hlabel, hblock]

/-- A body is opened that is no chain of conditions. -/
theorem opened (h : Cleared reader read line draft) (hcode : isBlankLine line.toList = false)
    (hstated : (stated line).inChain = false) {label : Label} {role : Role}
    (hopened : Opened { block := label, role } false draft draft') (htidy : Tidy draft')
    (hrole : role.isChain = false) : Branching reader (read ++ [(line, number)]) draft' := by
  have hframes : Branched reader draft'.atlas (read ++ [(line, number)]) (some role.kind)
      draft.frames := by
    refine h.frames hcode ?_ fun label block => hopened.others
    rw [hstated, Option.any_some, Role.isChain_kind, hrole]
  refine ⟨htidy, ?_⟩
  rw [hopened.frames_eq]
  refine .cons ?_ hframes
  rw [frames_eq]
  exact .fresh hcode hrole h.indent

/-- A chain of conditions is opened with its first branch. -/
theorem condition (h : Cleared reader read line draft) (hcode : isBlankLine line.toList = false)
    (hstated : stated line = .header .condition) {middle : Draft κ} {dispatch label : Label}
    (hchain : Opened { block := dispatch, indent := draft.top.indent, role := .chain [] true } true
      draft middle)
    (hbranch : Opened { block := label, role := .arm } false middle draft')
    (hlabel : ∃ index line, label = .synthetic index line .scope) (htidy : Tidy draft')
    (hfed : start.feedAll reader (read ++ [(line, number)]) = .ok draft') :
    Branching reader (read ++ [(line, number)]) draft' := by
  have hframes : draft'.frames = { block := label, role := .arm } ::
      { block := dispatch, indent := draft.top.indent, role := .chain [] true } :: draft.frames := by
    rw [hbranch.frames_eq, hchain.frames_eq]
  have hsource : dispatch ∈ [middle.top.block] := by simp [hchain.top_eq.1]
  have hdispatch := hbranch.allocates.atlas_source hsource hchain.allocates.atlas_new
  have hfirst : isElse (read ++ [(line, number)]) = false := by
    rw [isElse, lastText_concat, hstated]
    rfl
  refine ⟨htidy, ?_⟩
  rw [hframes]
  refine .cons (.fresh hcode rfl h.indent) (.cons ⟨?_, ?_, fun _ => ⟨.inr rfl, ?_⟩⟩ ?_)
  · intro hapart
    cases hapart
  · simp [h.indent]
  · refine ⟨[label], [], ?_, rfl⟩
    rw [Frame.margin, h.indent, Option.getD_some, headers_condition number hcode hstated]
    exact .first rfl hdispatch rfl rfl hfirst hlabel ⟨draft', hfed, h.indent ▸ hframes⟩
  · refine h.frames hcode (by rw [hstated]; rfl) fun other block hother hblock => ?_
    refine hbranch.others ?_ (hchain.others hother hblock)
    rw [hchain.top_eq.1]
    exact hchain.ne_fresh hblock

end Cleared

/-- A further branch is opened. -/
theorem Meets.branch (h : Meets reader read line draft) (hcode : isBlankLine line.toList = false)
    {kind : Branch} (hstated : stated line = .header (.branch kind)) {ends : List Label}
    {skippable : Bool} (hrole : draft.top.role = .chain ends skippable) {label : Label}
    (hopened : Opened { block := label, role := .arm } false
      (draft.modifyTop fun frame => { frame with role := .chain ends (skippable && kind == .elif) })
      draft')
    (hlabel : ∃ index line, label = .synthetic index line .scope) (htidy : Tidy draft')
    (hfed : start.feedAll reader (read ++ [(line, number)]) = .ok draft') :
    Branching reader (read ++ [(line, number)]) draft' := by
  have hchain : draft.top.role.isChain = true := by rw [hrole]; rfl
  obtain ⟨htop, hbelow⟩ := h.branched_top
  obtain ⟨-, arms, ends', hdispatches, hlength⟩ := htop.chain hchain
  obtain ⟨rfl, hskip⟩ := Role.chain.inj (hrole.symm.trans hdispatches.role_eq)
  obtain ⟨outer, back, hback, hindent, hapart, hnest⟩ :=
    (draft.frames_eq ▸ h.nest).around_chain hchain
  have hmarked := frames_modifyTop
    (fun frame => { frame with role := .chain ends (skippable && kind == .elif) }) draft
  have hframes := hopened.frames_eq
  rw [hmarked] at hframes
  have hblock := congrArg Frame.block (top_of_frames hmarked).1
  have hmargin : draft.top.margin = margin line := by rw [Frame.margin, h.indent]; rfl
  rw [hmargin] at hdispatches hskip
  refine ⟨htidy, ?_⟩
  rw [hframes]
  -- the branch, the chain that it is opened in, and the body around the chain, where the line stands
  refine .cons (.fresh hcode rfl h.indent) (.cons ⟨?_, ?_, fun _ => ⟨.inr rfl, ?_⟩⟩ ?_)
  · intro hplain
    cases hplain
  · simp [h.indent]
  · refine ⟨arms ++ [label], ends, ?_, by simpa using hlength⟩
    change Dispatches reader draft'.atlas (headers draft.top.margin _) _ _ _ _
    rw [hmargin, headers_branch number hcode hstated]
    refine hdispatches.further hlength ?_ (fun block hfound => ?_) hlabel ⟨draft', hfed, hframes⟩
    · rw [hskip, List.any_append, List.any_cons, List.any_nil, Bool.or_false, isElse, lastText_concat,
        hstated]
      cases kind <;> simp [Statement.branch?]
    · refine hopened.allocates.atlas_source (by simp [hblock]) ?_
      rw [atlas, blocks_modifyTop]
      exact hfound
  · rw [hback] at hbelow ⊢
    cases hbelow with
    | cons _ hrest =>
    refine (hrest.mono fun other hother block hfound => ?_).stand hnest hapart
      (hindent.trans h.indent) hcode (by rw [hstated]; rfl)
    refine hopened.others ?_ ?_
    · rw [hblock]
      exact h.sound.block_ne_top (by rw [hback]; exact List.mem_cons_of_mem _ hother)
    · rw [atlas, blocks_modifyTop]
      exact hfound

theorem Meets.openHeader (h : Meets reader read line draft)
    (hcode : isBlankLine line.toList = false) {header : Header}
    (hstated : stated line = .header header) (hopen : draft.openHeader header number = .ok draft')
    (hfed : start.feedAll reader (read ++ [(line, number)]) = .ok draft') :
    Branching reader (read ++ [(line, number)]) draft' := by
  have htidy := (h.ready.openHeader hopen).1
  cases header with
  | label written =>
    obtain ⟨first, hfirst, hopen⟩ := h.after_closeChain hopen
    obtain ⟨name, -, henter⟩ := bind_eq_ok.1 hopen
    have hdeclared := hfirst.declare written
    exact hdeclared.opened hcode (by rw [hstated]; rfl) (hdeclared.sound.opened_named henter) htidy
      rfl
  | menu =>
    obtain ⟨first, hfirst, hopen⟩ := h.after_closeChain hopen
    obtain ⟨opened, henter, hopened⟩ := enterFresh_spec hfirst.sound (.menu []) number rfl
    obtain rfl := Except.ok.inj (hopen.symm.trans henter)
    exact hfirst.opened hcode (by rw [hstated]; rfl) hopened htidy rfl
  | condition =>
    obtain ⟨first, hfirst, hopen⟩ := h.after_closeChain hopen
    obtain ⟨middle, hmiddle, hchain⟩ := openChain_spec hfirst.sound number
    obtain ⟨opened, henter, hopened⟩ := enterFresh_spec hchain.sound .arm number rfl
    obtain rfl := Except.ok.inj (hopen.symm.trans (bind_eq_ok.2 ⟨middle, hmiddle, henter⟩))
    exact hfirst.condition hcode hstated hchain hopened ⟨_, _, rfl⟩ htidy hfed
  | branch kind =>
    simp only [Draft.openHeader] at hopen
    split at hopen
    · rename_i ends skippable hrole
      have hready := (h.ready.branch (kind == .elif) hrole).1
      obtain ⟨opened, henter, hopened⟩ := enterFresh_spec hready.sound .arm number rfl
      obtain rfl := Except.ok.inj (hopen.symm.trans henter)
      exact h.branch hcode hstated hrole hopened ⟨_, _, rfl⟩ htidy hfed
    · cases hopen
  | plain =>
    obtain ⟨first, hfirst, hopen⟩ := h.after_closeChain hopen
    obtain ⟨hends, hnochain, -⟩ := plainRole_spec first.top
    obtain ⟨opened, henter, hopened⟩ := enterFresh_spec hfirst.sound _ number hends
    obtain rfl := Except.ok.inj (hopen.symm.trans henter)
    exact hfirst.opened hcode (by rw [hstated]; rfl) hopened htidy hnochain

/-- A statement is carried out. -/
theorem Meets.obey (h : Meets reader read line draft) (hcode : isBlankLine line.toList = false)
    (hobey : draft.obey reader (stated line) number = .ok draft')
    (hfed : start.feedAll reader (read ++ [(line, number)]) = .ok draft') :
    Branching reader (read ++ [(line, number)]) draft' := by
  cases hstated : stated line with
  | header header =>
    rw [hstated] at hobey
    exact h.openHeader hcode hstated hobey hfed
  | jump target =>
    rw [hstated] at hobey
    obtain ⟨first, hfirst, hjump⟩ := h.after_closeChain hobey
    obtain ⟨name, -, hlink⟩ := bind_eq_ok.1 hjump
    obtain ⟨-, rfl⟩ := link_eq_ok hlink
    exact hfirst.changed hcode (by rw [hstated]; rfl) (Block.label_exit (.named name) true)
  | terminate dead =>
    rw [hstated] at hobey
    obtain ⟨first, hfirst, hclose⟩ := h.after_closeChain hobey
    cases hclose
    exact hfirst.changed hcode (by rw [hstated]; rfl) (Block.label_close dead)
  | content text =>
    rw [hstated] at hobey
    obtain ⟨first, hfirst, hsay⟩ := h.after_closeChain hobey
    cases hreader : reader text with
    | none =>
      rw [hreader] at hsay
      cases hsay
      exact ⟨hfirst.toTidy, hfirst.frames hcode (by rw [hstated]; rfl) fun _ _ _ hblock => hblock⟩
    | some record =>
      rw [hreader] at hsay
      cases hsay
      exact hfirst.changed hcode (by rw [hstated]; rfl) (Block.label_say record)

/-! ## Scripts -/

theorem Branching.feed (h : Branching reader read draft)
    (hfeed : draft.feed reader line number = .ok draft')
    (hfed : start.feedAll reader (read ++ [(line, number)]) = .ok draft') :
    Branching reader (read ++ [(line, number)]) draft' := by
  unfold Draft.feed at hfeed
  dsimp only at hfeed
  cases hcode : isBlankLine line.toList with
  | true =>
    rw [if_pos hcode] at hfeed
    cases hfeed
    refine ⟨h.toTidy.mark_line number, h.branched.reread fun _ _ indent _ => ?_⟩
    exact siblings_concat_blank hcode
  | false =>
    rw [if_neg (by simp [hcode])] at hfeed
    obtain ⟨⟨aligned, rest⟩, halign, hobey⟩ := bind_eq_ok.1 hfeed
    obtain rfl := (h.mark_line number).toTidy.align_rest halign
    exact ((h.mark_line number).align halign).obey hcode hobey hfed

/-- Reading a script. -/
theorem branching_feedAll {lines : List (String × Nat)}
    (h : start.feedAll reader lines = .ok draft) : Branching reader lines draft := by
  induction lines using List.reverseRecOn generalizing draft with
  | nil =>
    cases h
    exact branching_start
  | append_singleton lines line ih =>
    have hsplit := h
    rw [feedAll_append] at hsplit
    obtain ⟨middle, hlines, hline⟩ := bind_eq_ok.1 hsplit
    rw [feedAll_cons] at hline
    obtain ⟨last, hfeed, hlast⟩ := bind_eq_ok.1 hline
    obtain rfl := Except.ok.inj hlast
    exact (ih hlines).feed hfeed h

/-- A chain of conditions closes: `middle` is the draft when the bodies above it have closed, and
    `closed` the one when the chain itself has. -/
structure Merges (parts : List (List (String × Nat))) (arms ends : List Label) (chain : Frame)
    (rest : List Frame) (merge : Label) (middle closed : Draft κ) : Prop where
  /-- The chain has collected one end for each branch. -/
  frames_eq : middle.frames = { chain with role := .chain ends (!parts.any isElse) } :: rest
  length_eq : ends.length = arms.length
  /-- The body around continues at a fresh block. -/
  top_eq : closed.top.block = merge
  /-- All ends are led there, as far as play does not leave them. -/
  leads : ∀ last ∈ ends, middle.atlas.Takes last → closed.atlas.Leads last merge
  /-- The block of the chain is led there exactly if no branch covers all other cases. -/
  skips : closed.atlas.Leads chain.block merge ↔ ∀ part ∈ parts, isElse part = false
  /-- It leads to the branches and nowhere else. -/
  dispatch : ∃ block, closed.atlas chain.block = some block ∧
    block.next = arms ++ if parts.any isElse then [] else [merge]

/-- What an open chain of conditions of a script is like. -/
structure Serves (reader : LineReader κ) (parts : List (List (String × Nat))) (arms ends : List Label)
    (draft : Draft κ) (above : List Frame) (chain : Frame) (rest : List Frame) : Prop
    extends Dispatches reader draft.atlas parts arms ends chain rest where
  frames_eq : draft.frames = above ++ chain :: rest
  closes : ∀ number, ∃ more merge middle closed,
    draft.closeMany number above.length = .ok middle ∧ middle.close number = .ok closed ∧
      Merges parts arms (ends ++ more) chain rest merge middle closed

/-- A chain closes when it has the ends of all its branches. -/
theorem Tidy.merges (h : Tidy draft) {parts : List (List (String × Nat))} {arms ends : List Label}
    {chain : Frame} {rest : List Frame} (hframes : draft.frames = chain :: rest)
    (hdispatches : Dispatches reader draft.atlas parts arms ends chain rest)
    (hlength : arms.length = ends.length) (number : Nat) :
    ∃ merge closed, draft.close number = .ok closed ∧
      Merges parts arms ends chain rest merge draft closed := by
  have hrole := hdispatches.role_eq
  have hnest := h.nest
  rw [hframes] at hnest
  obtain ⟨outer, back, rfl, -⟩ := hnest.around_chain (by rw [hrole]; rfl)
  obtain ⟨htop, hbelow⟩ := top_of_frames hframes
  obtain ⟨closed, hclose, hjoined⟩ := close_join h.sound hframes (by rw [hrole]; simp) number
  have hfresh : draft.nextLabel .merge number ∉ arms := by
    intro hmem
    obtain ⟨index, source, heq⟩ := hdispatches.scope _ hmem
    cases heq
  have hexits : chain.exits = if !parts.any isElse then ends ++ [chain.block] else ends := by
    rw [Frame.exits, hrole]
  have hout : chain.block ∉ ends := by
    have hnodup := h.sound.top_nodup
    rw [htop, Frame.labels, hrole] at hnodup
    exact (List.nodup_cons.1 hnodup).1
  obtain ⟨block, hblock, hnext, hdisabled⟩ := hdispatches.dispatch
  have hdispatch : ∃ block, closed.atlas chain.block = some block ∧
      block.next = arms ++ if parts.any isElse then [] else [draft.nextLabel .merge number] := by
    cases helse : parts.any isElse with
    | true =>
      refine ⟨block, hjoined.others ?_ hblock, by simp [hnext]⟩
      simpa [hexits, helse] using hout
    | false =>
      refine ⟨_, hjoined.source (by simp [hexits, helse]) hblock, ?_⟩
      simp [Block.exit, hdisabled, hnext]
  refine ⟨_, closed, hclose, ?_, hlength.symm, ?_, fun last hlast htakes => ?_, ?_, hdispatch⟩
  · rw [hframes, ← hrole]
  · rw [(hjoined.top_eq hbelow).1]
  · refine hjoined.allocates.leads_new ?_ htakes
    rw [hexits]
    split
    · exact List.mem_append_left _ hlast
    · exact hlast
  · obtain ⟨after, hafter, hnext'⟩ := hdispatch
    have hleads : closed.atlas.Leads chain.block (draft.nextLabel .merge number) ↔
        draft.nextLabel .merge number ∈ after.next := by
      simp [Atlas.Leads, hafter]
    have hnone : (∀ part ∈ parts, isElse part = false) ↔ parts.any isElse = false := by simp
    rw [hleads, hnext', hnone]
    cases parts.any isElse <;> simp [hfresh]

theorem Branching.serves (h : Branching reader read draft) {above rest : List Frame} {chain : Frame}
    (hframes : draft.frames = above ++ chain :: rest) (hchain : chain.role.isChain = true) :
    ∃ arms ends, Serves reader (headers chain.margin read) arms ends draft above chain rest := by
  have hbranched := h.branched
  rw [hframes] at hbranched
  obtain ⟨hframe, -⟩ := hbranched.of_append
  rw [Option.or_none] at hframe
  obtain ⟨habove, arms, ends, hdispatches, hlength⟩ := hframe.chain hchain
  refine ⟨arms, ends, hdispatches, hframes, fun number => ?_⟩
  obtain ⟨middle, hmiddle, -, htidy, -⟩ := h.toTidy.closeMany number above.length
  obtain ⟨chain', hframes', hregains, hothers⟩ := h.toTidy.closeMany_above hframes hmiddle
  have hkept : Dispatches reader middle.atlas (headers chain.margin read) arms ends chain rest :=
    hdispatches.mono fun block hblock => hothers _ block hblock fun inner hinner =>
      h.sound.block_not_mem hframes List.mem_cons_self hinner
  obtain ⟨more, hdispatches', hlength', role, rfl⟩ := hkept.regain habove hlength hregains
  obtain ⟨merge, closed, hclose, hmerges⟩ := htidy.merges hframes' hdispatches' hlength' number
  exact ⟨more, merge, middle, closed, hmiddle, hclose, hmerges.frames_eq, hmerges.length_eq,
    hmerges.top_eq, hmerges.leads, hmerges.skips, hmerges.dispatch⟩

/-- What a further branch behind a script comes to. -/
structure Attaches (reader : LineReader κ) (lines : List (String × Nat)) (line : String)
    (number : Nat) (kind : Branch) (draft aligned : Draft κ) : Prop where
  /-- The body that it stands in has its indentation. -/
  indent : aligned.top.indent = some (margin line)
  /-- It is refused unless it follows a header of a chain in the same body. -/
  refused : draft.feed reader line number = .error (.misplacedBranch number kind) ↔
    ¬ Follows (margin line) lines
  /-- Otherwise it is one more branch of that chain. -/
  accepted : Follows (margin line) lines → ∃ after arms arm ends chain rest,
    draft.feed reader line number = .ok after ∧ chain.indent = some (margin line) ∧
      Serves reader (headers (margin line) lines ++ [lines ++ [(line, number)]]) (arms ++ [arm])
        ends after [{ block := arm, role := .arm }] chain rest

/-- The line of a further branch has been aligned. -/
theorem Meets.attaches {lines : List (String × Nat)} (h : start.feedAll reader lines = .ok draft)
    {aligned : Draft κ} (hmeets : Meets reader lines line aligned) {kind : Branch}
    (hstated : stated line = .header (.branch kind))
    (hfeed : draft.feed reader line number = aligned.openHeader (.branch kind) number) :
    Attaches reader lines line number kind draft aligned := by
  have hcode := isCode_of_header hstated
  have hfollows := hmeets.follows_iff
  cases hrole : aligned.top.role with
  | chain ends skippable =>
    rw [hrole] at hfollows
    have hready := (hmeets.ready.branch (kind == .elif) hrole).1
    obtain ⟨after, henter, hopened⟩ := enterFresh_spec hready.sound .arm number rfl
    have hopen : aligned.openHeader (.branch kind) number = .ok after := by
      simp only [Draft.openHeader, hrole]
      exact henter
    rw [hopen] at hfeed
    have hfed := feedAll_snoc h hfeed
    generalize nextLabel .scope number _ = arm at hopened
    obtain ⟨chain, hframes, hindent, hchain⟩ : ∃ chain : Frame, after.frames =
        [{ block := arm, role := .arm }] ++ chain :: aligned.below ∧
        chain.indent = some (margin line) ∧ chain.role.isChain = true := by
      refine ⟨{ aligned.top with role := .chain ends (skippable && kind == .elif) }, ?_,
        hmeets.indent, rfl⟩
      rw [hopened.frames_eq, frames_modifyTop]
      rfl
    obtain ⟨arms, ends, hserves⟩ := (branching_feedAll hfed).serves hframes hchain
    rw [Frame.margin, hindent, Option.getD_some, headers_branch number hcode hstated] at hserves
    obtain ⟨front, rfl⟩ := hserves.toDispatches.exists_concat hfed hframes
    refine ⟨hmeets.indent, iff_of_false ?_ (not_not_intro (hfollows.2 rfl)), fun _ => ?_⟩
    · rw [hfeed]
      simp
    · exact ⟨after, front, arm, ends, chain, _, hfeed, hindent, hserves⟩
  | _ =>
    rw [hrole] at hfollows
    have hnot : ¬ Follows (margin line) lines := fun hmem => Bool.false_ne_true (hfollows.1 hmem)
    refine ⟨hmeets.indent, iff_of_true ?_ hnot, fun hmem => absurd hmem hnot⟩
    rw [hfeed]
    simp only [Draft.openHeader, hrole]

/-- **Further branches.** In the draft of a script all branches of an open chain of conditions are
    entered from the block of the chain, which collects their ends and when it closes is led past
    them exactly if none covers all other cases. A further branch behind the script is refused
    unless the last statement in the same body is a header of a chain, and then it is one more
    branch of that chain. -/
theorem branches_feedAll {lines : List (String × Nat)}
    (h : start.feedAll reader lines = .ok draft) :
    (∀ above chain rest, draft.frames = above ++ chain :: rest → chain.role.isChain = true →
      ∃ arms ends, Serves reader (headers chain.margin lines) arms ends draft above chain rest) ∧
    ∀ line number kind aligned text, stated line = .header (.branch kind) →
      { draft with lastLine := number }.align line.toList number = .ok (aligned, text) →
      Attaches reader lines line number kind draft aligned := by
  have hbranching := branching_feedAll h
  refine ⟨fun above chain rest hframes hchain => hbranching.serves hframes hchain, ?_⟩
  intro line number kind aligned text hstated halign
  have hmarked := hbranching.mark_line number
  obtain rfl := hmarked.toTidy.align_rest halign
  refine (hmarked.align halign).attaches h hstated ?_
  rw [feed_of_align reader (isCode_of_header hstated) halign, ← stated, hstated, obey]

/-- A chain of conditions with another one in its first branch. -/
def lanternLines : List String :=
  ["if lamp:",
   "  if oil:",
   "    scene glow",
   "  # the wick is dry",
   "  else:",
   "    scene smoke",
   "",
   "elif moon:",
   "  scene shore"]

/-- In the second branch the inner chain is over, and what stands there is no chain. At the top level
    the outer chain goes on. -/
theorem branches_feedAll_lantern :
    ∃ draft : Draft ℕ, start.feedAll LineReader.scenes (lanternLines.zipIdx 1) = .ok draft ∧
      draft.feed LineReader.scenes "  else:" 10 = .error (.misplacedBranch 10 .otherwise) ∧
      ∃ after arms arm ends chain rest,
        draft.feed LineReader.scenes "else:" 10 = .ok after ∧ chain.indent = some [] ∧
          Serves LineReader.scenes [(lanternLines.take 1).zipIdx 1, (lanternLines.take 8).zipIdx 1,
              lanternLines.zipIdx 1 ++ [("else:", 10)]] (arms ++ [arm]) ends after
            [{ block := arm, role := .arm }] chain rest := by
  have hread : (do
      let draft ← (start : Draft ℕ).feedAll LineReader.scenes (lanternLines.zipIdx 1)
      let inner ← { draft with lastLine := 10 }.align "  else:".toList 10
      let outer ← { draft with lastLine := 10 }.align "else:".toList 10
      return (inner.2, outer.2)) = Except.ok ("else:".toList, "else:".toList) := by decide +kernel
  obtain ⟨draft, hdraft, hread⟩ := bind_eq_ok.1 hread
  obtain ⟨⟨inner, text⟩, hinner, hread⟩ := bind_eq_ok.1 hread
  obtain ⟨⟨outer, text'⟩, houter, -⟩ := bind_eq_ok.1 hread
  have hattaches := (branches_feedAll hdraft).2
  have hheaders : headers (margin "else:") (lanternLines.zipIdx 1) =
      [(lanternLines.take 1).zipIdx 1, (lanternLines.take 8).zipIdx 1] := by decide +kernel
  obtain ⟨after, arms, arm, ends, chain, rest, hfeed, hindent, hserves⟩ :=
    (hattaches _ _ .otherwise _ _ (by decide +kernel) houter).accepted (by decide +kernel)
  rw [hheaders] at hserves
  refine ⟨draft, hdraft, ?_, after, arms, arm, ends, chain, rest, hfeed, ?_, hserves⟩
  · exact (hattaches _ _ .otherwise _ _ (by decide +kernel) hinner).refused.2 (by decide +kernel)
  · rw [hindent]
    decide +kernel

end Draft

end Playthrough
