import Playthrough.Proofs.Draft.Handover
import Playthrough.Proofs.Draft.Registry
import Playthrough.Proofs.Renumbering.Script

/-!
# Play goes on behind every body

In a script without jumps and returns play can only run from one body into the next. A menu hands on
the ends of its choices and nothing else: without a choice nothing leads on from it, and what else
was opened in it is handed on only if a choice comes behind.

So the blocks of the script are all in reach if every menu has a choice, and only the end of the
script is left without an exit if a choice comes last in every menu.

* `Draft.Linked`: how the blocks of a draft hang together.
* `Draft.Flowing`: what reading a script keeps.
* `Flowing.close`, `Flowing.align`, `Facing.obey`: the parts of a line.
* `flows_feedAll`: the story of a script that play does not leave.
-/

namespace Playthrough

open Script Text

variable {κ : Type}

/-! ## What a body hands on -/

namespace Frame

variable {atlas : Atlas κ} {script read ahead : List String} {frame : Frame}

theorem exits_of_not_isFork (harm : frame.role ≠ .arm) (hfork : frame.role.isFork = false) :
    frame.exits = [frame.block] := by
  unfold exits
  cases hrole : frame.role <;> simp_all [Role.isFork]

/-- A fork hands on all that it has collected. -/
theorem ends_subset_exits (frame : Frame) : frame.role.ends ⊆ frame.exits := by
  unfold exits Role.ends
  cases frame.role with
  | body => simp
  | arm => simp
  | menu ends => simp
  | chain ends skippable => cases skippable <;> simp

/-- What a body hands on can be led on. -/
theorem Kept.exits (h : frame.Kept atlas read ahead none) :
    ∀ label ∈ frame.exits, atlas.Takes label := by
  intro label hlabel
  rcases List.mem_cons.1 (frame.exits_subset hlabel) with rfl | hlabel
  · exact h.takes (by simp)
  · exact h.ends label hlabel

/-- A fork has collected an end, and play goes on into what stood in it last, if the menus of the
    script are as needed. -/
def Complete (script : List String) (atlas : Atlas κ) (frame : Frame) : Prop :=
  frame.role.isFork = true → (HasChoices script → frame.role.ends ≠ []) ∧
    (EndsInChoices script → atlas.GoesOn frame.block)

/-- A fork is complete when all lines of a menu have been read. -/
theorem Kept.complete (h : frame.Kept atlas read ahead none)
    (hended : ∀ ends, frame.role = .menu ends → ∀ header body,
      Tells read ahead frame.indent header body → parts body ∈ menus script) :
    frame.Complete script atlas := by
  intro hfork
  cases hrole : frame.role with
  | body =>
    rw [hrole] at hfork
    cases hfork
  | arm =>
    rw [hrole] at hfork
    cases hfork
  | menu ends =>
    obtain ⟨header, body, htells, hchoice, hlast⟩ := h.menu ends hrole
    have hmem := hended ends hrole header body htells
    refine ⟨fun hscript => ?_, fun hscript => (hlast (hscript _ hmem)).2⟩
    exact (hchoice (hscript _ hmem)).resolve_right (by simp)
  | chain ends skippable =>
    obtain ⟨-, hnext, hends⟩ := h.chain (by rw [hrole]; rfl)
    rw [hrole] at hends
    exact ⟨fun _ => hends rfl, fun _ => hnext⟩

theorem Complete.exits_ne_nil (h : frame.Complete script atlas) (harm : frame.role ≠ .arm)
    (hscript : HasChoices script) : frame.exits ≠ [] := by
  cases hfork : frame.role.isFork with
  | false => simp [exits_of_not_isFork harm hfork]
  | true =>
    obtain ⟨label, hlabel⟩ := List.exists_mem_of_ne_nil _ ((h hfork).1 hscript)
    exact List.ne_nil_of_mem (frame.ends_subset_exits hlabel)

/-- What has no exit is handed on. -/
theorem Complete.mem_exits (h : frame.Complete script atlas) (harm : frame.role ≠ .arm)
    (hscript : EndsInChoices script) {label : Label} (hlabel : label ∈ frame.labels)
    (hidle : atlas.Idle label) : label ∈ frame.exits := by
  rcases List.mem_cons.1 hlabel with rfl | hlabel
  · cases hfork : frame.role.isFork with
    | false => simp [exits_of_not_isFork harm hfork]
    | true => exact absurd ((h hfork).2 hscript) hidle.not_goesOn
  · exact frame.ends_subset_exits hlabel

end Frame

theorem Role.collect_eq_arm {last : Label} {role : Role} :
    role.collect last = .arm ↔ role = .arm := by
  cases role <;> simp [collect]

namespace Draft

variable {draft draft' : Draft κ} {script read ahead : List String} {line : String}

/-! ## Links -/

/-- How the blocks of a draft hang together, if the menus of the script are as needed. -/
structure Linked (script : List String) (draft : Draft κ) : Prop where
  /-- All blocks are in reach. -/
  connected : HasChoices script → draft.atlas.Connected
  /-- Only the block that receives content and the ends of alternatives have no exits yet. -/
  settled : EndsInChoices script → ∀ label, draft.atlas.Idle label →
    label = draft.top.block ∨ ∃ frame ∈ draft.frames, label ∈ frame.role.ends

namespace Linked

theorem opened (h : Linked script draft) {frame : Frame} {final : Bool}
    (hopened : Opened frame final draft draft') (htakes : draft.atlas.Takes draft.top.block) :
    Linked script draft' where
  connected := fun hscript =>
    hopened.allocates.connected (h.connected hscript) (List.mem_singleton_self _) htakes
  settled := by
    intro hscript label hidle
    rcases hopened.allocates.idle_cases hidle with rfl | ⟨hbefore, hnot⟩
    · exact Or.inl (by rw [hopened.top_eq.1])
    · rcases h.settled hscript label hbefore with rfl | ⟨other, hother, hlabel⟩
      · exact absurd htakes (hnot (List.mem_singleton_self _))
      · refine Or.inr ⟨other, ?_, hlabel⟩
        rw [hopened.frames_eq]
        exact List.mem_cons_of_mem _ hother

/-- A body that is no alternative closes and hands on all that has no exit. -/
theorem joined (h : Linked script draft) {frame next : Frame} {rest : List Frame}
    (hframes : draft.frames = frame :: next :: rest) {merge : Label}
    (hjoined : Joined frame.exits merge draft draft')
    (htakes : ∀ label ∈ frame.exits, draft.atlas.Takes label)
    (hcomplete : frame.Complete script draft.atlas) (harm : frame.role ≠ .arm) :
    Linked script draft' where
  connected := by
    intro hscript
    obtain ⟨source, hsource⟩ := List.exists_mem_of_ne_nil _ (hcomplete.exits_ne_nil harm hscript)
    exact hjoined.allocates.connected (h.connected hscript) hsource (htakes source hsource)
  settled := by
    obtain ⟨outer, back, hbelow, hframes'⟩ := hjoined.frames_eq
    obtain ⟨htop, hrest⟩ := top_of_frames hframes
    obtain ⟨rfl, rfl⟩ := List.cons.inj (hrest.symm.trans hbelow)
    intro hscript label hlabel
    rcases hjoined.allocates.idle_cases hlabel with rfl | ⟨hbefore, hnot⟩
    · exact Or.inl (by rw [(top_of_frames hframes').1])
    · -- a block of the closed body would have been handed on
      have hout : label ∉ frame.labels := by
        intro hmem
        have hexit := hcomplete.mem_exits harm hscript hmem hbefore
        exact hnot hexit (htakes label hexit)
      rw [hframes']
      rcases h.settled hscript label hbefore with rfl | ⟨other, hother, hlabel⟩
      · rw [htop] at hout
        exact absurd List.mem_cons_self hout
      · rw [hframes] at hother
        rcases List.mem_cons.1 hother with rfl | hother
        · exact absurd (List.mem_cons_of_mem _ hlabel) hout
        · rcases List.mem_cons.1 hother with rfl | hother
          · exact Or.inr ⟨_, List.mem_cons_self, hlabel⟩
          · exact Or.inr ⟨other, List.mem_cons_of_mem _ hother, hlabel⟩

/-- An alternative closes and leaves its end with the fork. -/
theorem collected (h : Linked script draft) {frame fork : Frame} {rest : List Frame}
    (hframes : draft.frames = frame :: fork :: rest) (hrole : frame.role = .arm)
    (hfork : fork.role.isFork = true) (hatlas : draft'.atlas = draft.atlas)
    (hframes' : draft'.frames = { fork with role := fork.role.collect frame.block } :: rest) :
    Linked script draft' where
  connected := by
    rw [hatlas]
    exact h.connected
  settled := by
    intro hscript label hlabel
    rw [hatlas] at hlabel
    have hends := Role.ends_collect hfork frame.block
    refine Or.inr ?_
    rw [hframes']
    rcases h.settled hscript label hlabel with rfl | ⟨other, hother, hlabel⟩
    · refine ⟨_, List.mem_cons_self, ?_⟩
      rw [hends, (top_of_frames hframes).1]
      exact List.mem_append_right _ (List.mem_singleton_self _)
    · rw [hframes] at hother
      rcases List.mem_cons.1 hother with rfl | hother
      · rw [hrole] at hlabel
        cases hlabel
      · rcases List.mem_cons.1 hother with rfl | hother
        · refine ⟨_, List.mem_cons_self, ?_⟩
          rw [hends]
          exact List.mem_append_left _ hlabel
        · exact ⟨other, List.mem_cons_of_mem _ hother, hlabel⟩

/-- The innermost body may change as long as it keeps its blocks. -/
theorem modifyTop (h : Linked script draft) {change : Frame → Frame}
    (hlabels : (change draft.top).labels = draft.top.labels) :
    Linked script (draft.modifyTop change) where
  connected := by
    rw [atlas, blocks_modifyTop]
    exact h.connected
  settled := by
    obtain ⟨hblock, hends⟩ := List.cons.inj hlabels
    have hframes := frames_modifyTop change draft
    intro hscript label hlabel
    rw [atlas, blocks_modifyTop] at hlabel
    rw [(top_of_frames hframes).1, hframes, hblock]
    refine (h.settled hscript label hlabel).imp_right ?_
    rw [frames_eq]
    rintro ⟨other, hother, hmem⟩
    rcases List.mem_cons.1 hother with rfl | hother
    · exact ⟨_, List.mem_cons_self, hends ▸ hmem⟩
    · exact ⟨other, List.mem_cons_of_mem _ hother, hmem⟩

end Linked

/-- What reading a script keeps. The lines `read` have been carried out, and the lines `ahead` are
    about to be. -/
structure Flowing (script read ahead : List String) (draft : Draft κ) : Prop
    extends Tidy draft, Linked script draft where
  kept : Kept draft.atlas read ahead none draft.frames

namespace Flowing

theorem start (script : List String) : Flowing script [] [] (start : Draft κ) := by
  have hatlas : ∀ label block, (Draft.start : Draft κ).atlas label = some block →
      label = .entry ∧ block = { label := .entry } := by
    intro label block hblock
    obtain ⟨hmem, hlabel⟩ := Atlas.label_of_eq_some hblock
    obtain rfl : block = { label := .entry } := List.mem_singleton.1 hmem
    exact ⟨hlabel.symm, rfl⟩
  have hentry : (Draft.start : Draft κ).atlas .entry = some { label := .entry } := by
    simp [atlas, Draft.start, Atlas.of]
  refine ⟨tidy_start, ⟨fun _ label hsome => ?_, fun _ label hidle => ?_⟩, .cons ?_ (.nil _)⟩
  · obtain ⟨block, hblock⟩ := Option.isSome_iff_exists.1 hsome
    rw [(hatlas label block hblock).1]
    exact .refl
  · obtain ⟨block, hblock, -⟩ := hidle
    exact Or.inl (hatlas label block hblock).1
  · refine ⟨?_, fun _ => ⟨_, hentry, rfl⟩, fun habove => absurd rfl habove, ?_, fun _ _ =>
      ⟨_, hentry, rfl⟩, ?_⟩
    · intro label hlabel
      cases hlabel
    · intro hchain
      cases hchain
    · intro ends hrole
      cases hrole

theorem kept_top (h : Flowing script read ahead draft) :
    draft.top.Kept draft.atlas read ahead none ∧
      Kept draft.atlas read ahead (some (draft.top.role = .arm)) draft.below := by
  have hkept := h.kept
  rw [frames_eq] at hkept
  cases hkept with
  | cons htop hbelow => exact ⟨htop, hbelow⟩

theorem takes_top (h : Flowing script read ahead draft) : draft.atlas.Takes draft.top.block :=
  h.kept_top.1.takes (by simp)

theorem mark_line (h : Flowing script read ahead draft) (last : Nat) :
    Flowing script read ahead { draft with lastLine := last } :=
  ⟨h.toTidy.mark_line last, ⟨h.connected, h.settled⟩, h.kept⟩

/-! ## Closing bodies -/

/-- An alternative closes. -/
theorem closeArm (h : Flowing script read ahead draft) {frame fork : Frame} {rest : List Frame}
    (hframes : draft.frames = frame :: fork :: rest) (hrole : frame.role = .arm) (number : Nat) :
    ∃ draft', draft.close number = .ok draft' ∧ Flowing script read ahead draft' ∧
      draft'.frames = { fork with role := fork.role.collect frame.block } :: rest := by
  have hkept := h.kept
  have hnest := h.nest
  rw [hframes] at hkept hnest
  have hfork : fork.role.isFork = true := by
    cases hnest with
    | body hinside _ => exact hinside.arm hrole
  obtain ⟨draft', hclose, hframes', hatlas, hsound, -⟩ :=
    close_arm h.sound hframes hrole (Role.ends_collect hfork _) number
  have hready := (ready_of_frames hsound hnest hframes' rfl (Role.kind_collect _ _)).1
  have hlinked := h.toLinked.collected hframes hrole hfork hatlas hframes'
  refine ⟨draft', hclose, ⟨hready.toTidy, hlinked, ?_⟩, hframes'⟩
  rw [hframes', hatlas]
  cases hkept with
  | cons hframe hrest =>
  cases hrest with
  | cons houter hrest =>
  simp only [hrole, decide_true] at houter
  refine .cons (houter.collect hfork (hframe.takes (by simp))) ?_
  simpa only [Role.collect_eq_arm] using hrest

/-- Any other body closes. -/
theorem closeJoin (h : Flowing script read ahead draft) {frame outer : Frame} {rest : List Frame}
    (hframes : draft.frames = frame :: outer :: rest) (hrole : frame.role ≠ .arm)
    (hcomplete : frame.Complete script draft.atlas) (number : Nat) :
    ∃ draft' merge, draft.close number = .ok draft' ∧ Flowing script read ahead draft' ∧
      draft'.frames = { outer with block := merge } :: rest := by
  have hkept := h.kept
  have hnest := h.nest
  rw [hframes] at hkept hnest
  cases hkept with
  | cons hframe hrest =>
  cases hrest with
  | cons houter hrest =>
  simp only [hrole, decide_false] at houter
  obtain ⟨draft', hclose, hjoined⟩ := close_join h.sound hframes hrole number
  have hlinked := h.toLinked.joined hframes hjoined hframe.exits hcomplete hrole
  obtain ⟨next, rest', hbelow, hframes'⟩ := hjoined.frames_eq
  obtain ⟨rfl, rfl⟩ := List.cons.inj ((top_of_frames hframes).2.symm.trans hbelow)
  have hready := (ready_of_frames hjoined.sound hnest hframes' rfl rfl).1
  have hnew := hjoined.allocates
  refine ⟨draft', _, hclose, ⟨hready.toTidy, hlinked, ?_⟩, hframes'⟩
  rw [hframes']
  refine .cons (houter.resume ?_ hnew.takes_new hnew.idle_new) (hrest.mono ?_ ?_ (by simp))
  · exact fun label hlabel => hnew.takes (fun _ => rfl) (houter.ends label hlabel)
  · exact fun label _ => hnew.takes fun _ => rfl
  · exact fun label => hnew.goesOn

/-- A body closes, and the one around it keeps its indentation and its kind. -/
theorem close (h : Flowing script read ahead draft) {frame outer : Frame} {rest : List Frame}
    (hframes : draft.frames = frame :: outer :: rest)
    (hended : ∀ ends, frame.role = .menu ends → ∀ header body,
      Tells read ahead frame.indent header body → parts body ∈ menus script) (number : Nat) :
    ∃ draft' outer', draft.close number = .ok draft' ∧ Flowing script read ahead draft' ∧
      draft'.frames = outer' :: rest ∧ outer'.indent = outer.indent ∧
      outer'.role.kind = outer.role.kind := by
  by_cases hrole : frame.role = .arm
  · obtain ⟨draft', hclose, hflowing, hframes'⟩ := h.closeArm hframes hrole number
    exact ⟨draft', _, hclose, hflowing, hframes', rfl, Role.kind_collect _ _⟩
  · have hframe := h.kept_top.1
    rw [(top_of_frames hframes).1] at hframe
    obtain ⟨draft', merge, hclose, hflowing, hframes'⟩ :=
      h.closeJoin hframes hrole (hframe.complete hended) number
    exact ⟨draft', _, hclose, hflowing, hframes', rfl, rfl⟩

/-- Any number of bodies closes, if the menus among them are complete. -/
theorem closeMany (h : Flowing script read [] draft) {deep rest : List (Option (List Char))}
    (hrest : rest ≠ []) (hframes : draft.frames.map Frame.indent = deep ++ rest)
    (hended : ∀ indent ∈ deep, ∀ header body, Tells read [] indent header body →
      parts body ∈ menus script) (number : Nat) :
    ∃ draft', draft.closeMany number deep.length = .ok draft' ∧ Flowing script read [] draft' ∧
      draft'.frames.map Frame.indent = rest := by
  induction deep generalizing draft with
  | nil => exact ⟨draft, rfl, h, hframes⟩
  | cons indent deep ih =>
    obtain ⟨frame, tail, hsplit, rfl, htail⟩ := List.map_eq_cons_iff.1 hframes
    cases tail with
    | nil => simp [hrest] at htail
    | cons outer back =>
      obtain ⟨middle, outer', hclose, hflowing, hframes', hindent, -⟩ :=
        h.close hsplit (fun _ _ => hended _ List.mem_cons_self) number
      -- closing may change the body around, but not its indentation
      have hmiddle : middle.frames.map Frame.indent = deep ++ rest := by
        rw [hframes', List.map_cons, hindent]
        exact htail
      obtain ⟨draft', hmany, hflowing', hlast⟩ :=
        ih hflowing hmiddle fun other hother => hended other (List.mem_cons_of_mem _ hother)
      exact ⟨draft', bind_eq_ok.2 ⟨middle, hclose, hmany⟩, hflowing', hlast⟩

end Flowing

/-! ## Alignment -/

/-- What holds while a line is carried out: it stands directly in the innermost body. -/
structure Facing (script read : List String) (line : String) (draft : Draft κ) : Prop
    extends Flowing script read [line] draft where
  indent : draft.top.indent = some (margin line)

theorem Facing.ready (h : Facing script read line draft) : Ready draft :=
  ⟨h.toTidy, by rw [h.indent]; rfl⟩

theorem Facing.margin_top (h : Facing script read line draft) :
    margin line = draft.top.margin := by
  rw [Frame.margin, h.indent]
  rfl

namespace Flowing

/-- The first line of a body stands in it. -/
theorem establish (h : Flowing script read [] draft) (hindent : draft.top.indent = none)
    {rest : List Char} (hline : draft.establish line.toList = .ok (draft', rest)) :
    Facing script read line draft' ∧ rest = trimStart line.toList := by
  have htidy := (h.toTidy.establish hindent hline).1.toTidy
  obtain ⟨text, hchars, hrest, hdraft⟩ := establish_eq_ok hline
  have hnest := h.nest
  rw [frames_eq] at hnest
  obtain ⟨outer, back, hbelow, -, -, houter⟩ := hnest.of_unknown hindent
  have henclosing : draft.enclosing = outer := enclosing_eq (by rw [draft.frames_eq, hbelow])
  rw [hbelow] at houter
  obtain ⟨hleading, htrim⟩ := leading_append houter.blanks_margin text
  rw [henclosing] at hchars hdraft
  have hmargin : outer.margin ++ leading text = margin line := by rw [margin, hchars, hleading]
  rw [hmargin] at hdraft
  subst hdraft
  have hframes := frames_modifyTop (fun frame => { frame with indent := some (margin line) }) draft
  have hnest' := htidy.nest
  rw [hframes] at hnest'
  refine ⟨⟨⟨htidy, h.toLinked.modifyTop rfl, ?_⟩, ?_⟩, by rw [hrest, hchars, htrim]⟩
  · obtain ⟨htop, hbelow⟩ := h.kept_top
    rw [hframes, atlas, blocks_modifyTop]
    refine .cons (htop.retell fun header body hbody => ?_) (hbelow.await fun other hother => ?_)
    · rw [hindent] at hbody
      exact ⟨body, hbody.establish, id, id⟩
    · refine ⟨hnest'.known hother, (hnest'.margin_prefix rfl hother).trans ?_⟩
      exact List.takeWhile_prefix _
  · rw [(top_of_frames hframes).1]

/-- A line that has just the indentation of the innermost body stands in it. -/
theorem face (h : Flowing script read [] draft) (hknown : draft.top.indent.isSome)
    {text : List Char} (hline : draft.top.margin ++ text = line.toList)
    (hflush : leading text = []) :
    Facing script read line draft ∧ text = trimStart line.toList := by
  have hnest := h.nest
  rw [frames_eq] at hnest
  obtain ⟨hleading, htrim⟩ := leading_append hnest.blanks_margin text
  rw [hline] at hleading htrim
  rw [hflush, List.append_nil] at hleading
  refine ⟨⟨⟨h.toTidy, h.toLinked, h.kept.await ?_⟩, ?_⟩, ?_⟩
  · rw [frames_eq]
    intro other hother
    rcases List.mem_cons.1 hother with rfl | hother
    · exact ⟨hknown, text, hline⟩
    · exact ⟨hnest.known hother, (hnest.margin_prefix hknown hother).trans ⟨text, hline⟩⟩
  · obtain ⟨indent, hindent⟩ := Option.isSome_iff_exists.1 hknown
    rw [margin, hleading, Frame.margin, hindent, Option.getD_some]
  · have hsplit := leading_append_trimStart text
    rw [hflush, List.nil_append] at hsplit
    rw [htrim, hsplit]

/-- The bodies that a line ends are complete, and the line carries what is then the innermost. -/
theorem closeEnded (h : Flowing script read [] draft) (hknown : draft.top.indent.isSome)
    {more : List String} (hscript : script = read ++ line :: more) (number : Nat) :
    ∃ closed, draft.closeMany number (draft.ended line.toList).length = .ok closed ∧
      Flowing script read [] closed ∧ closed.top.indent.isSome ∧
      closed.top.margin <+: line.toList := by
  obtain ⟨frame, back, hframes, hcarried⟩ := h.toTidy.ended_split line.toList
  have hknown : ∀ other ∈ draft.frames, other.indent.isSome := by
    have hnest := h.nest
    rw [frames_eq] at hnest ⊢
    exact List.forall_mem_cons.2 ⟨hknown, fun other hother => hnest.known hother⟩
  have hended : ∀ indent ∈ (draft.ended line.toList).map Frame.indent, ∀ header body,
      Tells read [] indent header body → parts body ∈ menus script := by
    intro indent hmem header body htells
    obtain ⟨other, hother, rfl⟩ := List.mem_map.1 hmem
    rw [hscript]
    refine htells.ended (hknown other ?_) ?_ more
    · rw [hframes]
      exact List.mem_append_left _ hother
    · have hnot := List.mem_takeWhile_imp hother
      rw [← Frame.margin, ← List.isPrefixOf_iff_prefix, Bool.not_eq_true]
      simpa using hnot
  have hsplit : draft.frames.map Frame.indent =
      (draft.ended line.toList).map Frame.indent ++ (frame :: back).map Frame.indent := by
    rw [hframes, List.map_append]
  obtain ⟨closed, hclose, hflowing, hindents⟩ :=
    h.closeMany (List.cons_ne_nil _ _) hsplit hended number
  rw [List.length_map] at hclose
  rw [frames_eq, List.map_cons, List.cons.injEq] at hindents
  refine ⟨closed, hclose, hflowing, ?_, ?_⟩
  · rw [hindents.1]
    exact hknown frame (by rw [hframes]; simp)
  · rw [Frame.margin, hindents.1]
    exact hcarried

/-- A line closes the bodies that it ends, and then stands in the innermost one. -/
theorem align (h : Flowing script read [] draft) {more : List String}
    (hscript : script = read ++ line :: more) {rest : List Char} {number : Nat}
    (hline : draft.align line.toList number = .ok (draft', rest)) :
    Facing script read line draft' ∧ rest = trimStart line.toList := by
  unfold Draft.align at hline
  dsimp only at hline
  split at hline
  · rename_i hindent
    cases hestablish : draft.establish line.toList with
    | error issue =>
      rw [hestablish] at hline
      cases hline
    | ok aligned =>
      rw [hestablish] at hline
      cases hline
      exact h.establish hindent hestablish
  · rename_i indent hindent
    obtain ⟨closed, hclose, hflowing, hknown, text, htext⟩ :=
      h.closeEnded (by rw [hindent]; rfl) hscript number
    obtain ⟨closed', hclose', hline⟩ := bind_eq_ok.1 hline
    obtain rfl := Except.ok.inj (hclose.symm.trans hclose')
    rw [← htext, isPrefixOf?_append, Option.getD_some] at hline
    split at hline
    · rename_i hempty
      cases hline
      exact hflowing.face hknown htext (List.isEmpty_iff.1 hempty)
    · split at hline <;> cases hline

end Flowing

namespace Facing

/-! ## Statements -/

/-- A chain of conditions is closed, and the line stands in the body around it. -/
theorem leaveChain (h : Facing script read line draft) (hchain : draft.top.role.isChain = true)
    {number : Nat} (hclose : draft.close number = .ok draft') :
    Facing script read line draft' ∧ draft'.top.role.isChain = false := by
  have hnest := h.nest
  rw [frames_eq] at hnest
  cases hbelow : draft.below with
  | nil =>
    rw [hbelow] at hnest
    cases hnest with
    | root _ hrole =>
      rw [hrole] at hchain
      cases hchain
  | cons outer rest =>
    have hframes : draft.frames = draft.top :: outer :: rest := by rw [frames_eq, hbelow]
    have hended : ∀ ends, draft.top.role = .menu ends → ∀ header body,
        Tells read [line] draft.top.indent header body → parts body ∈ menus script := by
      intro ends hrole
      rw [hrole] at hchain
      cases hchain
    obtain ⟨closed, outer', hclosed, hflowing, hframes', hindent, hkind⟩ :=
      h.toFlowing.close hframes hended number
    obtain rfl := Except.ok.inj (hclosed.symm.trans hclose)
    rw [hbelow] at hnest
    cases hnest with
    | body hinside _ =>
    obtain ⟨hlevel, houter⟩ := hinside.level hchain
    have htop := (top_of_frames hframes').1
    refine ⟨⟨hflowing, ?_⟩, ?_⟩
    · rw [htop, hindent, ← hlevel]
      exact h.indent
    · rw [htop, ← Role.isChain_kind, hkind, Role.isChain_kind]
      exact houter

/-- A chain of conditions that is left over is closed, and then there is none. -/
theorem closeChain (h : Facing script read line draft) {number : Nat}
    (hclose : draft.closeChain number = .ok draft') :
    Facing script read line draft' ∧ draft'.top.role.isChain = false := by
  unfold Draft.closeChain at hclose
  split at hclose
  · rename_i hrole
    exact h.leaveChain (by rw [hrole]; rfl) hclose
  · rename_i hrole
    cases hclose
    refine ⟨h, ?_⟩
    cases hcase : draft.top.role with
    | chain ends skippable => exact absurd hcase (hrole ends skippable)
    | _ => rfl

/-- A change of the innermost body that keeps its blocks, its indentation and its kind. -/
theorem modifyTop (h : Facing script read line draft) {change : Frame → Frame}
    (hlabels : (change draft.top).labels = draft.top.labels)
    (hindent : (change draft.top).indent = draft.top.indent)
    (hkind : (change draft.top).role.kind = draft.top.role.kind) :
    Facing script read line (draft.modifyTop change) := by
  have htidy := (h.ready.modifyTop change hlabels hindent hkind).1.toTidy
  have hframes := frames_modifyTop change draft
  refine ⟨⟨htidy, h.toLinked.modifyTop hlabels, ?_⟩, ?_⟩
  · obtain ⟨htop, hbelow⟩ := h.kept_top
    rw [hframes, atlas, blocks_modifyTop]
    have harm : (change draft.top).role = .arm ↔ draft.top.role = .arm := by
      rw [← Role.kind_eq_arm, hkind, Role.kind_eq_arm]
    refine .cons (htop.recast hlabels hindent hkind) ?_
    simpa only [harm] using hbelow
  · rw [(top_of_frames hframes).1, hindent]
    exact h.indent

/-- A body is opened under the header on the line. What was open before stays as it was, and the
    innermost body is followed by the new one. -/
theorem cover (h : Facing script read line draft) {frame : Frame} {final arm : Bool}
    (hopened : Opened frame final draft draft') {header : Header}
    (hstated : stated line = .header header) (hfinal : arm = true → final = false)
    (hchain : draft.top.role.isChain = true → arm = true ∧ header ≠ .plain)
    (hchoice : header = .plain → ∀ ends, draft.top.role = .menu ends → arm = true) :
    Kept draft'.atlas (read ++ [line]) [] (some arm) draft.frames := by
  have hheader : (stated line).header? = some header := by rw [hstated]; rfl
  obtain ⟨htop, hbelow⟩ := h.kept_top
  have hnest := h.nest
  have hnodup := h.sound.open_nodup
  rw [openLabels_eq, Frame.labels, List.cons_append, List.nodup_cons] at hnodup
  rw [frames_eq] at hnest ⊢
  have hnew := hopened.allocates
  have hother : ∀ label ∈ draft.top.role.ends ++ draft.below.flatMap Frame.labels,
      draft.atlas.Takes label → draft'.atlas.Takes label := by
    refine fun label hlabel => hnew.takes fun hsource => ?_
    rw [List.mem_singleton.1 hsource] at hlabel
    exact absurd hlabel hnodup.1
  refine .cons (htop.cover hheader h.margin_top (fun hrole => (hchain hrole).1) hchoice ?_ ?_ ?_)
    ((hbelow.pass ?_).mono ?_ (fun _ => hnew.goesOn) (by simp))
  · exact fun label hlabel => hother label (List.mem_append_left _ hlabel) (htop.ends label hlabel)
  · exact fun harm => hnew.takes (fun _ => hfinal harm) h.takes_top
  · exact hnew.goesOn_source (List.mem_singleton_self _) h.takes_top
  · intro other hmem hmargin
    rw [hheader]
    rintro ⟨⟩
    -- only a chain shares its indentation, and there is no choice directly in one
    cases hrole : draft.top.role.isChain with
    | true => exact (hchain hrole).2 rfl
    | false => exact hnest.margin_ne h.ready.known hrole hmem (h.margin_top ▸ hmargin).symm
  · exact fun label hlabel => hother label (List.mem_append_right _ hlabel)

/-- A body is opened that is no chain of conditions. -/
theorem opened (h : Facing script read line draft) {label : Label} {role : Role}
    (hopened : Opened { block := label, role } false draft draft') (htidy : Tidy draft')
    {header : Header} (hstated : stated line = .header header) (hrole : role.isChain = false)
    (hchain : draft.top.role.isChain = true → role = .arm ∧ header ≠ .plain)
    (hchoice : header = .plain → ∀ ends, draft.top.role = .menu ends → role = .arm)
    (hmenu : ∀ ends, role = .menu ends → header = .menu) :
    Flowing script (read ++ [line]) [] draft' := by
  have hnew := hopened.allocates
  refine ⟨htidy, h.toLinked.opened hopened h.takes_top, ?_⟩
  rw [hopened.frames_eq]
  refine .cons (.fresh hnew.takes_new hnew.idle_new hopened.ends_eq hrole fun ends hends => ?_)
    (h.cover hopened hstated (fun _ => rfl) (fun hc => ?_) fun hplain ends hends => ?_)
  · rw [hstated, hmenu ends hends]
  · exact ⟨decide_eq_true (hchain hc).1, (hchain hc).2⟩
  · exact decide_eq_true (hchoice hplain ends hends)

/-- A chain of conditions is opened with its first branch. -/
theorem condition (h : Facing script read line draft) {middle : Draft κ} {dispatch label : Label}
    {indent : Option (List Char)}
    (hchain : Opened { block := dispatch, indent, role := .chain [] true } true draft middle)
    (hbranch : Opened { block := label, role := .arm } false middle draft') (htidy : Tidy draft')
    (hstated : stated line = .header .condition) (hrole : draft.top.role.isChain = false) :
    Flowing script (read ++ [line]) [] draft' := by
  have hnew := hbranch.allocates
  have htakes : middle.atlas.Takes middle.top.block := by
    rw [hchain.top_eq.1]
    exact hchain.allocates.takes_new
  have hlinked := (h.toLinked.opened hchain h.takes_top).opened hbranch htakes
  have hsource := hnew.goesOn_source (List.mem_singleton_self _) htakes
  rw [hchain.top_eq.1] at hsource
  refine ⟨htidy, hlinked, ?_⟩
  rw [hbranch.frames_eq, hchain.frames_eq]
  refine .cons (.fresh hnew.takes_new hnew.idle_new rfl rfl (by simp)) (.cons ?_ ?_)
  · refine ⟨by simp [Role.ends], fun _ => ?_, fun _ => hsource, fun _ => ?_, by simp, by simp⟩
    · exact hnew.takes (fun _ => rfl) hchain.allocates.takes_new
    · exact ⟨by simp, hsource, by simp⟩
  · have hcover : Kept middle.atlas (read ++ [line]) [] (some false) draft.frames :=
      h.cover hchain hstated (by simp) (by simp [hrole]) (by simp)
    exact hcover.mono (fun _ _ => hnew.takes fun _ => rfl) (fun _ => hnew.goesOn) (by simp)

theorem after_closeChain {α : Type} (h : Facing script read line draft) {number : Nat}
    {rest : Draft κ → Except (Fault κ) α} {result : α}
    (hrun : (draft.closeChain number >>= rest) = .ok result) :
    ∃ first, Facing script read line first ∧ first.top.role.isChain = false ∧
      rest first = .ok result := by
  obtain ⟨first, hfirst, hrest⟩ := bind_eq_ok.1 hrun
  obtain ⟨hfacing, hrole⟩ := h.closeChain hfirst
  exact ⟨first, hfacing, hrole, hrest⟩

theorem openHeader (h : Facing script read line draft) {header : Header} {number : Nat}
    (hstated : stated line = .header header) (hopen : draft.openHeader header number = .ok draft') :
    Flowing script (read ++ [line]) [] draft' := by
  have htidy := (h.ready.openHeader hopen).1
  cases header with
  | label written =>
    obtain ⟨first, hfirst, hrole, hopen⟩ := h.after_closeChain hopen
    obtain ⟨name, -, henter⟩ := bind_eq_ok.1 hopen
    have hdeclared : Facing script read line (first.declare written) := by
      unfold declare
      split
      · exact hfirst
      · exact hfirst.modifyTop rfl rfl rfl
    have hrole' : (first.declare written).top.role.isChain = false := by
      unfold declare
      split
      · exact hrole
      · rw [(top_of_frames (frames_modifyTop _ first)).1]
        exact hrole
    exact hdeclared.opened (hdeclared.sound.opened_named henter) htidy hstated rfl
      (by simp [hrole']) (by simp) (by simp)
  | menu =>
    obtain ⟨first, hfirst, hrole, hopen⟩ := h.after_closeChain hopen
    obtain ⟨opened, henter, hopened⟩ := enterFresh_spec hfirst.sound (.menu []) number rfl
    obtain rfl := Except.ok.inj (hopen.symm.trans henter)
    exact hfirst.opened hopened htidy hstated rfl (by simp [hrole]) (by simp) (by simp)
  | condition =>
    obtain ⟨first, hfirst, hrole, hopen⟩ := h.after_closeChain hopen
    obtain ⟨middle, hmiddle, hchain⟩ := openChain_spec hfirst.sound number
    obtain ⟨opened, henter, hopened⟩ := enterFresh_spec hchain.sound .arm number rfl
    obtain rfl := Except.ok.inj (hopen.symm.trans (bind_eq_ok.2 ⟨middle, hmiddle, henter⟩))
    exact hfirst.condition hchain hopened htidy hstated hrole
  | branch kind =>
    simp only [Draft.openHeader] at hopen
    split at hopen
    · rename_i ends skippable hrole
      have hbranch : Facing script read line (draft.modifyTop fun frame =>
          { frame with role := .chain ends (skippable && kind == .elif) }) :=
        h.modifyTop (by simp [Frame.labels, hrole, Role.ends]) rfl (by rw [hrole]; rfl)
      obtain ⟨opened, henter, hopened⟩ := enterFresh_spec hbranch.sound .arm number rfl
      obtain rfl := Except.ok.inj (hopen.symm.trans henter)
      exact hbranch.opened hopened htidy hstated rfl (by simp) (by simp) (by simp)
    · cases hopen
  | plain =>
    obtain ⟨first, hfirst, hrole, hopen⟩ := h.after_closeChain hopen
    obtain ⟨hends, hnochain, -⟩ := plainRole_spec first.top
    obtain ⟨opened, henter, hopened⟩ := enterFresh_spec hfirst.sound _ number hends
    obtain rfl := Except.ok.inj (hopen.symm.trans henter)
    refine hfirst.opened hopened htidy hstated hnochain (by simp [hrole]) ?_ ?_
    · intro _ menu hmenu
      rw [plainRole, hmenu]
    · intro menu hmenu
      unfold plainRole at hmenu
      split at hmenu <;> cases hmenu

/-- A line that is no header leaves all bodies as they are. -/
theorem pass (h : Facing script read line draft) (hline : (stated line).header? = none) :
    Flowing script (read ++ [line]) [] draft :=
  ⟨h.toTidy, h.toLinked, h.kept.pass fun _ _ _ => by simp [hline]⟩

end Facing

/-- What a block says has nothing to do with its exits. -/
theorem Changed.exists_block_iff {record : Record κ} (h : Changed (·.say record) draft draft')
    {motive : Block κ → Prop} (hmotive : ∀ block, motive (block.say record) ↔ motive block)
    (label : Label) : (∃ block, draft'.atlas label = some block ∧ motive block) ↔
      ∃ block, draft.atlas label = some block ∧ motive block := by
  rw [h.atlas_eq]
  split
  · cases draft.atlas label with
    | none => simp
    | some block => simpa using hmotive block
  · exact Iff.rfl

theorem Flowing.say (h : Flowing script read [] draft) {record : Record κ}
    (hchanged : Changed (·.say record) draft draft') (htidy : Tidy draft') :
    Flowing script read [] draft' := by
  have htakes : ∀ label, draft'.atlas.Takes label ↔ draft.atlas.Takes label :=
    hchanged.exists_block_iff fun _ => Iff.rfl
  have hgoesOn : ∀ label, draft'.atlas.GoesOn label ↔ draft.atlas.GoesOn label :=
    hchanged.exists_block_iff fun _ => Iff.rfl
  have hidle : ∀ label, draft'.atlas.Idle label ↔ draft.atlas.Idle label :=
    hchanged.exists_block_iff fun _ => Iff.rfl
  have hleads : ∀ a b, draft.atlas.Leads a b → draft'.atlas.Leads a b := fun a _ =>
    (hchanged.exists_block_iff (fun _ => Iff.rfl) a).2
  refine ⟨htidy, ⟨fun hscript label hsome => ?_, fun hscript label hlabel => ?_⟩, ?_⟩
  · have hreach := h.connected hscript label (hchanged.isSome_iff.1 hsome)
    exact Relation.ReflTransGen.mono hleads _ _ hreach
  · rw [hchanged.top_eq.1, hchanged.frames_eq]
    exact h.settled hscript label ((hidle label).1 hlabel)
  · rw [hchanged.frames_eq]
    exact h.kept.mono (fun label _ => (htakes label).2) (fun label => (hgoesOn label).2)
      fun _ label => (hidle label).2

/-- A statement that does not leave the body it stands in is carried out. -/
theorem Facing.obey (h : Facing script read line draft) {reader : LineReader κ} {number : Nat}
    (hleaves : (stated line).leaves = false)
    (hobey : draft.obey reader (stated line) number = .ok draft') :
    Flowing script (read ++ [line]) [] draft' := by
  cases hstated : stated line with
  | header header =>
    rw [hstated] at hobey
    exact h.openHeader hstated hobey
  | jump target =>
    rw [hstated] at hleaves
    cases hleaves
  | terminate dead =>
    rw [hstated] at hleaves
    cases hleaves
  | content text =>
    rw [hstated] at hobey
    obtain ⟨first, hfirst, -, hsay⟩ := h.after_closeChain hobey
    have hpassed := hfirst.pass (by rw [hstated]; rfl)
    cases hreader : reader text with
    | none =>
      rw [hreader] at hsay
      cases hsay
      exact hpassed
    | some record =>
      rw [hreader] at hsay
      cases hsay
      obtain ⟨htidy, hchanged⟩ := hfirst.ready.modifyCurrent (Block.label_say record)
      exact hpassed.say hchanged htidy

/-! ## Scripts -/

theorem Flowing.feed (h : Flowing script read [] draft) {reader : LineReader κ} {number : Nat}
    {more : List String} (hscript : script = read ++ line :: more)
    (hcode : isBlankLine line.toList = false) (hleaves : (stated line).leaves = false)
    (hfeed : draft.feed reader line number = .ok draft') :
    Flowing script (read ++ [line]) [] draft' := by
  unfold Draft.feed at hfeed
  dsimp only at hfeed
  rw [if_neg (by simp [hcode])] at hfeed
  obtain ⟨⟨aligned, rest⟩, halign, hobey⟩ := bind_eq_ok.1 hfeed
  obtain ⟨hfacing, rfl⟩ := (h.mark_line number).align hscript halign
  exact hfacing.obey hleaves hobey

theorem Flowing.feedAll {reader : LineReader κ} {lines : List (String × Nat)}
    (h : Flowing script read [] draft) (hscript : script = read ++ codeLines lines)
    (hleaves : ∀ line ∈ codeLines lines, (stated line).leaves = false)
    (hfeed : draft.feedAll reader lines = .ok draft') : Flowing script script [] draft' := by
  induction lines generalizing read draft with
  | nil =>
    cases hfeed
    simpa [codeLines, hscript] using h
  | cons entry lines ih =>
    obtain ⟨line, number⟩ := entry
    rw [feedAll_cons] at hfeed
    obtain ⟨middle, hline, hlines⟩ := bind_eq_ok.1 hfeed
    cases hcode : isBlankLine line.toList with
    | true =>
      rw [codeLines_cons_blank hcode] at hscript hleaves
      rw [Draft.feed, if_pos hcode] at hline
      cases hline
      exact ih (h.mark_line number) hscript hleaves hlines
    | false =>
      rw [codeLines_cons_code hcode] at hscript hleaves
      have hnext := h.feed hscript hcode (hleaves line List.mem_cons_self) hline
      refine ih hnext (by rw [hscript, List.append_assoc]; rfl) ?_ hlines
      exact fun other hother => hleaves other (List.mem_cons_of_mem _ hother)

/-- At the end of a script only the top level is open. -/
theorem Flowing.finish (h : Flowing script script [] draft) :
    ∃ closed, draft.finish = .ok (StoryGraph.ofBlocks closed.blocks) ∧
      Flowing script script [] closed ∧ closed.frames = [closed.top] := by
  have hsplit : draft.frames.map Frame.indent =
      draft.stack.map Frame.indent ++ [draft.root.indent] := by
    rw [frames, List.map_append]
    rfl
  have hended : ∀ indent ∈ draft.stack.map Frame.indent, ∀ header body,
      Tells script [] indent header body → parts body ∈ menus script :=
    fun _ _ _ _ htells => mem_menus htells.suffix htells.menu
  obtain ⟨closed, hclose, hflowing, hindents⟩ :=
    h.closeMany (List.cons_ne_nil _ _) hsplit hended draft.lastLine
  rw [List.length_map] at hclose
  refine ⟨closed, bind_eq_ok.2 ⟨closed, hclose, rfl⟩, hflowing, ?_⟩
  rw [frames_eq, List.map_cons, List.cons.injEq] at hindents
  rw [frames_eq, List.map_eq_nil_iff.1 hindents.2]

/-- **Play goes on.** A script that can be read and that play does not leave makes a story. If every
    menu has a choice all blocks of the story are in reach, and if a choice comes last in every menu
    play goes on from all of them but one. -/
theorem flows_feedAll {reader : LineReader κ} {lines : List (String × Nat)} {draft : Draft κ}
    (h : start.feedAll reader lines = .ok draft)
    (hleaves : ∀ line ∈ codeLines lines, (stated line).leaves = false) :
    ∃ story, draft.finish = .ok story ∧
      (HasChoices (codeLines lines) →
        ∀ block ∈ story.blocks, story.atlas.Reaches .entry block.label) ∧
      (EndsInChoices (codeLines lines) → ∃! block, block ∈ story.blocks ∧ block.next = []) := by
  obtain ⟨closed, hfinish, hflowing, hframes⟩ :=
    ((Flowing.start (codeLines lines)).feedAll (List.nil_append _).symm hleaves h).finish
  have hatlas := hflowing.sound.atlas_story
  have hnest := hflowing.nest
  rw [hframes] at hnest
  refine ⟨_, hfinish, fun hscript block hblock => ?_, fun hscript => ?_⟩
  · rw [StoryGraph.mem_blocks_iff, hatlas] at hblock
    rw [hatlas]
    exact hflowing.connected hscript block.label (by rw [hblock]; rfl)
  · cases hnest with
    | root _ hrole =>
    obtain ⟨last, hlast, hidle⟩ := hflowing.kept_top.1.idle rfl (by rw [hrole]; rfl)
    have hlabel := (Atlas.label_of_eq_some hlast).2
    refine ⟨last, ⟨?_, hidle⟩, ?_⟩
    · rw [StoryGraph.mem_blocks_iff, hatlas, hlabel]
      exact hlast
    · rintro other ⟨hother, hnext⟩
      rw [StoryGraph.mem_blocks_iff, hatlas] at hother
      rcases hflowing.settled hscript other.label ⟨other, hother, hnext⟩ with
        heq | ⟨frame, hframe, hmem⟩
      · rw [heq, hlast] at hother
        exact (Option.some.inj hother).symm
      · rw [hframes, List.mem_singleton] at hframe
        rw [hframe, hrole] at hmem
        cases hmem

/-- A menu whose choices come behind another body, with a chain of conditions in one of them. -/
def marketLines : List String :=
  ["menu:",
   "  label stall:",
   "    scene stall",
   "  \"look\":",
   "    if coins:",
   "      scene bargain",
   "  \"leave\":",
   "    scene road",
   "scene home"]

/-- All of the market is in reach, and play ends at home only. -/
theorem flows_feedAll_market :
    ∃ (draft : Draft ℕ) (story : StoryGraph ℕ),
      start.feedAll LineReader.scenes (marketLines.zipIdx 1) = .ok draft ∧
      (∀ line ∈ codeLines (marketLines.zipIdx 1), (stated line).leaves = false) ∧
      HasChoices (codeLines (marketLines.zipIdx 1)) ∧
      EndsInChoices (codeLines (marketLines.zipIdx 1)) ∧
      draft.finish = .ok story ∧ story.size = 10 ∧
      (∀ block ∈ story.blocks, story.atlas.Reaches .entry block.label) ∧
      ∃! block, block ∈ story.blocks ∧ block.next = [] := by
  have hread : (do
      let draft ← (start : Draft ℕ).feedAll LineReader.scenes (marketLines.zipIdx 1)
      let story ← draft.finish
      return story.size) = Except.ok 10 := by decide +kernel
  obtain ⟨draft, hdraft, hrest⟩ := bind_eq_ok.1 hread
  obtain ⟨story, hstory, hsize⟩ := bind_eq_ok.1 hrest
  have hleaves : ∀ line ∈ codeLines (marketLines.zipIdx 1), (stated line).leaves = false := by
    decide +kernel
  have hmenus : menus (codeLines (marketLines.zipIdx 1)) = [[.label "stall", .plain, .plain]] := by
    decide +kernel
  have hchoices : HasChoices (codeLines (marketLines.zipIdx 1)) := by simp [HasChoices, hmenus]
  have hends : EndsInChoices (codeLines (marketLines.zipIdx 1)) := by simp [EndsInChoices, hmenus]
  obtain ⟨story', hstory', hreach, hend⟩ := flows_feedAll hdraft hleaves
  obtain rfl := Except.ok.inj (hstory'.symm.trans hstory)
  exact ⟨draft, _, hdraft, hleaves, hchoices, hends, hstory, Except.ok.inj hsize,
    hreach hchoices, hend hends⟩

/-- A menu without a choice. -/
def hallLines : List String := ["menu:", "    scene a", "scene b"]

/-- The blocks of the script `hallLines`. -/
def hallBlocks : List (Block ℕ) :=
  [{ label := .entry, next := [.synthetic 0 1 .scope] },
   { label := .synthetic 0 1 .scope, text := [.scene] },
   { label := .synthetic 1 3 .merge, text := [.scene] }]

/-- Play does not go on behind a menu without a choice, though nothing in the script leaves it. -/
theorem stranded_hall :
    ∃ (draft : Draft ℕ) (story : StoryGraph ℕ),
      start.feedAll LineReader.scenes (hallLines.zipIdx 1) = .ok draft ∧
      (∀ line ∈ codeLines (hallLines.zipIdx 1), (stated line).leaves = false) ∧
      draft.finish = .ok story ∧
      (∃ block ∈ story.blocks, ¬ story.atlas.Reaches .entry block.label) ∧
      ¬ ∃! block, block ∈ story.blocks ∧ block.next = [] := by
  have hread : (do
      let draft ← (start : Draft ℕ).feedAll LineReader.scenes (hallLines.zipIdx 1)
      let story ← draft.finish
      return story.blocks) = Except.ok hallBlocks := by decide +kernel
  obtain ⟨draft, hdraft, hrest⟩ := bind_eq_ok.1 hread
  obtain ⟨story, hstory, hblocks⟩ := bind_eq_ok.1 hrest
  have hblocks : story.blocks = hallBlocks := Except.ok.inj hblocks
  have hreached : story.reachable = .ok [.entry, .synthetic 0 1 .scope] := by
    rw [← story.ofBlocks_blocks, hblocks]
    cbv
  refine ⟨draft, story, hdraft, by decide +kernel, hstory, ?_, ?_⟩
  · refine ⟨{ label := .synthetic 1 3 .merge, text := [.scene] }, by simp [hblocks, hallBlocks], ?_⟩
    rw [← StoryGraph.mem_reachable_iff hreached]
    decide
  · rintro ⟨last, -, hunique⟩
    have hmenu := hunique { label := .synthetic 0 1 .scope, text := [.scene] }
      ⟨by simp [hblocks, hallBlocks], rfl⟩
    have hmerge := hunique { label := .synthetic 1 3 .merge, text := [.scene] }
      ⟨by simp [hblocks, hallBlocks], rfl⟩
    have hlabels := congrArg Block.label (hmenu.trans hmerge.symm)
    simp at hlabels

end Draft

end Playthrough
