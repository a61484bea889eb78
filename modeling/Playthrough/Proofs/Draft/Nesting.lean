import Playthrough.Proofs.Draft.Indent
import Playthrough.Proofs.Draft.Moves
import Playthrough.Reading.Plain

/-!
# How open bodies are nested

The frames of a draft are nested by their indentation: each body goes beyond the one around it, but
for a chain of conditions, which stands level with the body it is in so that its further branches
find it there. An alternative stands directly in the fork that collects its end. Opening and closing
bodies rely on this without looking.

Reading a line keeps it. On the way the line takes the draft from one move to the next, so what is
known of moves carries over to whole scripts.

* `Nest`: the order of the frames.
* `Draft.Tidy`, `Draft.Ready`: what holds between two lines, and while a statement is carried out.
* `Tidy.feed`, `Tidy.feedAll`: reading a line, and reading a script.
-/

namespace Playthrough

open Script Text

variable {κ : Type}

/-! ## Nested frames -/

namespace Role

/-- Whether a body is a chain of conditions. -/
def isChain : Role → Bool
  | .chain .. => true
  | _ => false

/-- Whether a body collects the ends of alternatives. -/
def isFork : Role → Bool
  | .menu _ => true
  | .chain .. => true
  | _ => false

/-- The role as it was when nothing had been collected. -/
def kind : Role → Role
  | .menu _ => .menu []
  | .chain .. => .chain [] true
  | role => role

theorem isChain_kind (role : Role) : role.kind.isChain = role.isChain := by cases role <;> rfl

theorem kind_eq_arm {role : Role} : role.kind = .arm ↔ role = .arm := by cases role <;> simp [kind]

theorem kind_eq_body {role : Role} : role.kind = .body ↔ role = .body := by
  cases role <;> simp [kind]

theorem kind_collect (last : Label) (role : Role) : (role.collect last).kind = role.kind := by
  cases role <;> rfl

/-- A fork keeps the end of every alternative. -/
theorem ends_collect {role : Role} (h : role.isFork = true) (last : Label) :
    (role.collect last).ends = role.ends ++ [last] := by
  cases role with
  | body => cases h
  | arm => cases h
  | menu ends => rfl
  | chain ends skippable => rfl

end Role

/-- A body is directly in another one. -/
structure Frame.Inside (inner outer : Frame) : Prop where
  known : outer.indent.isSome
  level : inner.role.isChain = true → inner.indent = outer.indent ∧ outer.role.isChain = false
  deeper : inner.role.isChain = false → ∀ indent, inner.indent = some indent →
    ∃ more, more ≠ [] ∧ Blanks more ∧ indent = outer.margin ++ more
  arm : inner.role = .arm → outer.role.isFork = true

/-- Frames that are each in the next one, out to the top level. -/
inductive Nest : List Frame → Prop
  | root {frame : Frame} (hindent : frame.indent = some []) (hrole : frame.role = .body) :
      Nest [frame]
  | body {inner outer : Frame} {rest : List Frame} (h : inner.Inside outer)
      (hrest : Nest (outer :: rest)) : Nest (inner :: outer :: rest)

/-- The innermost body can change as long as it keeps its indentation and its kind. -/
theorem Nest.change {frame frame' : Frame} {rest : List Frame} (h : Nest (frame :: rest))
    (hindent : frame'.indent = frame.indent) (hkind : frame'.role.kind = frame.role.kind) :
    Nest (frame' :: rest) := by
  have hchain : frame'.role.isChain = frame.role.isChain := by
    rw [← Role.isChain_kind, hkind, Role.isChain_kind]
  cases h with
  | root hroot hrole =>
    refine .root (hindent.trans hroot) ?_
    rw [← Role.kind_eq_body, hkind, Role.kind_eq_body]
    exact hrole
  | body hinside hrest =>
    refine .body ⟨hinside.known, ?_, ?_, ?_⟩ hrest
    · rw [hchain, hindent]
      exact hinside.level
    · rw [hchain, hindent]
      exact hinside.deeper
    · rw [← Role.kind_eq_arm, hkind, Role.kind_eq_arm]
      exact hinside.arm

/-- A body without an indentation is in another one, and is no chain of conditions. -/
theorem Nest.of_unknown {frame : Frame} {rest : List Frame} (h : Nest (frame :: rest))
    (hindent : frame.indent = none) :
    ∃ outer back, rest = outer :: back ∧ frame.role.isChain = false ∧ frame.Inside outer ∧
      Nest rest := by
  cases h with
  | root hroot =>
    rw [hindent] at hroot
    cases hroot
  | @body _ outer back hinside hrest =>
    refine ⟨outer, back, rfl, ?_, hinside, hrest⟩
    rw [← Bool.not_eq_true]
    intro hchain
    have hknown := hinside.known
    rw [← (hinside.level hchain).1, hindent] at hknown
    cases hknown

theorem Nest.inside {frames : List Frame} (h : Nest frames) {inner outer : Frame}
    (hframes : [inner, outer] <:+: frames) : inner.Inside outer := by
  induction h with
  | root => simpa using hframes.length_le
  | body hinside _ ih =>
    rcases List.infix_cons_iff.1 hframes with hfront | hrest
    · rw [List.cons_prefix_cons, List.cons_prefix_cons] at hfront
      rw [hfront.1, hfront.2.1]
      exact hinside
    · exact ih hrest

/-- All bodies but the innermost one have their indentation. -/
theorem Nest.known {frame other : Frame} {rest : List Frame} (h : Nest (frame :: rest))
    (hother : other ∈ rest) : other.indent.isSome := by
  induction rest generalizing frame with
  | nil => cases hother
  | cons outer rest ih =>
    cases h with
    | body hinside hrest =>
      rcases List.mem_cons.1 hother with rfl | hother
      · exact hinside.known
      · exact ih hrest hother

/-- The bodies around a body are nested too. -/
theorem Nest.of_append {above rest : List Frame} {frame : Frame}
    (h : Nest (above ++ frame :: rest)) : Nest (frame :: rest) := by
  induction above with
  | nil => exact h
  | cons inner above ih =>
    refine ih ?_
    cases hframes : above ++ frame :: rest with
    | nil => simp at hframes
    | cons outer back =>
      rw [List.cons_append, hframes] at h
      cases h with
      | body _ hrest => exact hrest

theorem Nest.root_indent {frames : List Frame} {root : Frame} (h : Nest (frames ++ [root])) :
    root.indent = some [] := by
  cases h.of_append with
  | root hindent => exact hindent

theorem Nest.blanks {frames : List Frame} (h : Nest frames) :
    ∀ frame ∈ frames, Blanks frame.margin := by
  induction h with
  | root hindent =>
    intro frame hframe
    rw [List.mem_singleton.1 hframe, Frame.margin, hindent]
    exact fun c hc => by cases hc
  | @body inner outer rest hinside _ ih =>
    intro frame hframe
    rcases List.mem_cons.1 hframe with rfl | hframe
    · have houter : Blanks outer.margin := ih outer List.mem_cons_self
      cases hchain : frame.role.isChain with
      | true =>
        rw [Frame.margin, (hinside.level hchain).1]
        exact houter
      | false =>
        cases hindent : frame.indent with
        | none =>
          rw [Frame.margin, hindent]
          exact fun c hc => by cases hc
        | some indent =>
          obtain ⟨more, -, hmore, rfl⟩ := hinside.deeper hchain indent hindent
          rw [Frame.margin, hindent]
          exact houter.append hmore
    · exact ih frame hframe

namespace Draft

variable {draft draft' : Draft κ}

/-- What holds of a draft between two lines. -/
structure Tidy (draft : Draft κ) : Prop where
  sound : Sound draft
  nest : Nest draft.frames

/-- What holds of a draft while a statement is carried out: the innermost body has its
    indentation. -/
structure Ready (draft : Draft κ) : Prop extends Tidy draft where
  known : draft.top.indent.isSome

theorem tidy_start : Tidy (start : Draft κ) := ⟨sound_start, .root rfl rfl⟩

theorem Tidy.mark_line (h : Tidy draft) (last : Nat) : Tidy { draft with lastLine := last } :=
  ⟨h.sound.mark_line last, h.nest⟩

/-- A change of the innermost body that keeps its blocks, its indentation and its kind. -/
theorem Ready.modifyTop (h : Ready draft) (change : Frame → Frame)
    (hlabels : (change draft.top).labels = draft.top.labels)
    (hindent : (change draft.top).indent = draft.top.indent)
    (hkind : (change draft.top).role.kind = draft.top.role.kind) :
    Ready (draft.modifyTop change) ∧ Moves [] draft (draft.modifyTop change) := by
  have hnest := h.nest
  rw [frames_eq] at hnest
  have hsound := h.sound.modifyTop hlabels
  refine ⟨⟨⟨hsound, ?_⟩, ?_⟩, (Move.frames ?_ hsound).moves⟩
  · rw [frames_modifyTop]
    exact hnest.change hindent hkind
  · rw [(top_of_frames (frames_modifyTop change draft)).1, hindent]
    exact h.known
  · rw [atlas, blocks_modifyTop]

/-! ## Closing bodies -/

/-- The body around the innermost one goes on when that one has closed. -/
theorem ready_of_frames {inner outer outer' : Frame} {rest : List Frame}
    (hsound : Sound draft') (hnest : Nest (inner :: outer :: rest))
    (hframes : draft'.frames = outer' :: rest) (hindent : outer'.indent = outer.indent)
    (hkind : outer'.role.kind = outer.role.kind) :
    Ready draft' ∧ (inner.role.isChain = true → draft'.top.role.isChain = false) := by
  cases hnest with
  | body hinside hrest =>
    have htop := (top_of_frames hframes).1
    refine ⟨⟨⟨hsound, ?_⟩, ?_⟩, fun hchain => ?_⟩
    · rw [hframes]
      exact hrest.change hindent hkind
    · rw [htop, hindent]
      exact hinside.known
    · rw [htop, ← Role.isChain_kind, hkind, Role.isChain_kind]
      exact (hinside.level hchain).2

/-- Closing a body always succeeds. -/
theorem Tidy.close (h : Tidy draft) (line : Nat) :
    ∃ draft', draft.close line = .ok draft' ∧ Moves [] draft draft' ∧ Ready draft' ∧
      (draft.top.role.isChain = true → draft'.top.role.isChain = false) := by
  have hnest := h.nest
  cases hframes : draft.frames with
  | nil => simp [frames] at hframes
  | cons frame rest =>
    have htop := (top_of_frames hframes).1
    rw [hframes] at hnest
    cases rest with
    | nil =>
      have hstack : draft.stack = [] := by
        cases hstack : draft.stack with
        | nil => rfl
        | cons first stack => simp [frames, hstack] at hframes
      cases hnest with
      | root hindent hrole =>
        refine ⟨draft, by unfold Draft.close; rw [hstack], .refl draft, ⟨h, ?_⟩, ?_⟩
        · rw [htop, hindent]
          rfl
        · rw [htop, hrole]
          intro hchain
          cases hchain
    | cons outer rest =>
      by_cases hrole : frame.role = .arm
      · have hfork : outer.role.isFork = true := by
          cases hnest with
          | body hinside _ => exact hinside.arm hrole
        obtain ⟨draft', hclose, hframes', hatlas, hsound, -⟩ :=
          close_arm h.sound hframes hrole (Role.ends_collect hfork _) line
        have hready := ready_of_frames hsound hnest hframes' rfl (Role.kind_collect _ _)
        exact ⟨draft', hclose, (Move.frames hatlas hsound).moves, hready.1, htop ▸ hready.2⟩
      · obtain ⟨draft', hclose, hjoined⟩ := close_join h.sound hframes hrole line
        obtain ⟨next, rest', hbelow, hframes'⟩ := hjoined.frames_eq
        rw [(top_of_frames hframes).2, List.cons.injEq] at hbelow
        obtain ⟨rfl, rfl⟩ := hbelow
        have hready := ready_of_frames hjoined.sound hnest hframes' rfl rfl
        exact ⟨draft', hclose, (Move.join hjoined).moves, hready.1, htop ▸ hready.2⟩

theorem Tidy.closeMany (h : Tidy draft) (line count : Nat) :
    ∃ draft', draft.closeMany line count = .ok draft' ∧ Moves [] draft draft' ∧ Tidy draft' ∧
      (draft.top.indent.isSome → draft'.top.indent.isSome) := by
  induction count generalizing draft with
  | zero => exact ⟨draft, rfl, .refl draft, h, id⟩
  | succ count ih =>
    obtain ⟨middle, hclose, hmoves, hready, -⟩ := h.close line
    obtain ⟨draft', hmany, hmoves', htidy, hknown⟩ := ih hready.toTidy
    refine ⟨draft', bind_eq_ok.2 ⟨middle, hclose, hmany⟩, hmoves.trans hmoves', htidy, fun _ => ?_⟩
    exact hknown hready.known

/-- A chain of conditions that is left over is closed, and then there is none. -/
theorem Ready.closeChain (h : Ready draft) (line : Nat) :
    ∃ draft', draft.closeChain line = .ok draft' ∧ Moves [] draft draft' ∧ Ready draft' ∧
      draft'.top.role.isChain = false := by
  cases hrole : draft.top.role with
  | chain ends skippable =>
    obtain ⟨draft', hclose, hmoves, hready, hchain⟩ := h.toTidy.close line
    refine ⟨draft', ?_, hmoves, hready, hchain (by rw [hrole]; rfl)⟩
    rw [Draft.closeChain, hrole]
    exact hclose
  | body => exact ⟨draft, by rw [Draft.closeChain, hrole], .refl draft, h, by rw [hrole]; rfl⟩
  | arm => exact ⟨draft, by rw [Draft.closeChain, hrole], .refl draft, h, by rw [hrole]; rfl⟩
  | menu ends => exact ⟨draft, by rw [Draft.closeChain, hrole], .refl draft, h, by rw [hrole]; rfl⟩

/-! ## Alignment -/

theorem enclosing_eq {frame outer : Frame} {rest : List Frame}
    (h : draft.frames = frame :: outer :: rest) : draft.enclosing = outer := by
  obtain ⟨stack, hstack, hbelow⟩ := stack_of_frames h
  rw [enclosing, hstack]
  exact (top_of_frames hbelow).1

/-- The first line of a body sets an indentation beyond that of the body around it. -/
theorem Tidy.establish (h : Tidy draft) (hindent : draft.top.indent = none) {line rest : List Char}
    (hline : draft.establish line = .ok (draft', rest)) :
    Ready draft' ∧ Moves [] draft draft' := by
  have hnest := h.nest
  rw [frames_eq] at hnest
  obtain ⟨outer, back, hbelow, hchain, hinside, hrest⟩ := hnest.of_unknown hindent
  have hframes : draft.frames = draft.top :: outer :: back := by rw [draft.frames_eq, hbelow]
  unfold Draft.establish at hline
  rw [enclosing_eq hframes] at hline
  dsimp only at hline
  split at hline
  · cases hline
  · rename_i text _
    split at hline
    · cases hline
    · rename_i hleading
      cases hline
      have hsound : Sound (draft.modifyTop fun frame =>
          { frame with indent := some (outer.margin ++ leading text) }) := h.sound.modifyTop rfl
      have hframes' := frames_modifyTop
        (fun frame => { frame with indent := some (outer.margin ++ leading text) }) draft
      refine ⟨⟨⟨hsound, ?_⟩, ?_⟩, (Move.frames ?_ hsound).moves⟩
      · rw [hframes', hbelow]
        rw [hbelow] at hrest
        refine .body ⟨hinside.known, ?_, ?_, hinside.arm⟩ hrest
        · intro hlevel
          rw [hchain] at hlevel
          cases hlevel
        · rintro _ indent ⟨⟩
          exact ⟨leading text, by simpa using hleading, fun _ => isBlank_of_mem_leading, rfl⟩
      · rw [(top_of_frames hframes').1]
        rfl
      · rw [atlas, blocks_modifyTop]

theorem Tidy.align (h : Tidy draft) {line rest : List Char} {number : Nat}
    (hline : draft.align line number = .ok (draft', rest)) :
    Ready draft' ∧ Moves [] draft draft' := by
  unfold Draft.align at hline
  dsimp only at hline
  split at hline
  · rename_i hindent
    cases hestablish : draft.establish line with
    | error issue =>
      rw [hestablish] at hline
      cases hline
    | ok aligned =>
      rw [hestablish] at hline
      cases hline
      exact h.establish hindent hestablish
  · rename_i indent hindent
    -- only the innermost body could lack an indentation, and it has one, so what is on top after
    -- closing has one too
    obtain ⟨closed, hclosed, hline⟩ := bind_eq_ok.1 hline
    obtain ⟨closed', hclosed', hmoves, htidy, hknown⟩ :=
      h.closeMany number (draft.ended line).length
    rw [hclosed, Except.ok.injEq] at hclosed'
    subst hclosed'
    split at hline
    · cases hline
      exact ⟨⟨htidy, hknown (by rw [hindent]; rfl)⟩, hmoves⟩
    · split at hline <;> cases hline

theorem trimStart_of_isPrefixOf? {margin line rest : List Char} (hmargin : Blanks margin)
    (h : margin.isPrefixOf? line = some rest) : trimStart rest = trimStart line := by
  obtain rfl := List.isPrefixOf?_eq_some_iff_append_eq.1 h
  exact (List.dropWhile_append_of_pos hmargin).symm

/-- A line that is aligned has lost the blanks that it starts with, and nothing else. -/
theorem Tidy.align_rest (h : Tidy draft) {line rest : List Char} {number : Nat}
    (hline : draft.align line number = .ok (draft', rest)) : rest = trimStart line := by
  unfold Draft.align at hline
  dsimp only at hline
  split at hline
  · rename_i hindent
    have hnest := h.nest
    rw [frames_eq] at hnest
    obtain ⟨outer, back, hbelow, -⟩ := hnest.of_unknown hindent
    have henclosing : draft.enclosing = outer :=
      enclosing_eq (by rw [draft.frames_eq, hbelow])
    have houter : Blanks outer.margin :=
      hnest.blanks outer (by simp [hbelow])
    unfold Draft.establish at hline
    rw [henclosing] at hline
    dsimp only at hline
    split at hline
    · cases hline
    · rename_i text htext
      split at hline
      · cases hline
      · cases hline
        exact trimStart_of_isPrefixOf? houter htext
  · obtain ⟨closed, hclosed, hline⟩ := bind_eq_ok.1 hline
    obtain ⟨closed', hclosed', -, htidy, -⟩ := h.closeMany number (draft.ended line).length
    rw [hclosed, Except.ok.injEq] at hclosed'
    subst hclosed'
    have hmargin : Blanks closed.top.margin :=
      htidy.nest.blanks _ (by rw [frames_eq]; exact List.mem_cons_self)
    split at hline
    · rename_i hleading
      cases hline
      have hrest := leading_append_trimStart ((draft'.top.margin.isPrefixOf? line).getD line)
      rw [List.isEmpty_iff.1 hleading, List.nil_append] at hrest
      rw [← hrest]
      cases htext : draft'.top.margin.isPrefixOf? line with
      | none => rfl
      | some text => exact trimStart_of_isPrefixOf? hmargin htext
    · split at hline <;> cases hline

/-! ## Opening bodies -/

/-- A new body is tidy when it is no chain, and no alternative outside a fork. -/
theorem Ready.opened (h : Ready draft) {label : Label} {role : Role} {final : Bool}
    (hopened : Opened { block := label, role } final draft draft') (hchain : role.isChain = false)
    (harm : role = .arm → draft.top.role.isFork = true) : Tidy draft' := by
  refine ⟨hopened.sound, ?_⟩
  have hnest := h.nest
  rw [hopened.frames_eq, frames_eq]
  rw [frames_eq] at hnest
  refine .body ⟨h.known, ?_, ?_, harm⟩ hnest
  · intro hlevel
    rw [show role.isChain = true from hlevel] at hchain
    cases hchain
  · intro _ indent hindent
    cases hindent

theorem Ready.enterFresh (h : Ready draft) (role : Role) (line : Nat) (hends : role.ends = [])
    (hchain : role.isChain = false) (harm : role = .arm → draft.top.role.isFork = true) :
    ∃ draft', draft.enterFresh role line = .ok draft' ∧ Moves [] draft draft' ∧ Tidy draft' := by
  obtain ⟨draft', henter, hopened⟩ := enterFresh_spec h.sound role line hends
  exact ⟨draft', henter, (Move.fresh hopened line .scope rfl).moves, h.opened hopened hchain harm⟩

theorem Ready.openChain (h : Ready draft) (hrole : draft.top.role.isChain = false) (line : Nat) :
    ∃ draft', draft.openChain line = .ok draft' ∧ Moves [] draft draft' ∧ Ready draft' ∧
      draft'.top.role.isFork = true := by
  obtain ⟨draft', hopen, hopened⟩ := openChain_spec h.sound line
  have hnest := h.nest
  rw [frames_eq] at hnest
  refine ⟨draft', hopen, (Move.fresh hopened line .cond rfl).moves, ⟨⟨hopened.sound, ?_⟩, ?_⟩, ?_⟩
  · rw [hopened.frames_eq, frames_eq]
    refine .body ⟨h.known, fun _ => ⟨rfl, hrole⟩, ?_, ?_⟩ hnest
    · intro hlevel
      cases hlevel
    · intro harm
      cases harm
  · rw [hopened.top_eq.1]
    exact h.known
  · rw [hopened.top_eq.1]
    rfl

/-- A declared name comes into scope. -/
theorem Ready.declare (h : Ready draft) (name : String) :
    Ready (draft.declare name) ∧ Moves [] draft (draft.declare name) := by
  unfold Draft.declare
  split
  · exact ⟨h, .refl draft⟩
  · exact h.modifyTop _ rfl rfl rfl

/-- A body can be opened under a name that is new. -/
theorem Sound.enter_free (h : Sound draft) {name : String}
    (hfree : draft.atlas (.named name) = none) (line : Nat) :
    ∃ draft', draft.enter (.named name) .body line = .ok draft' ∧
      Opened { block := .named name, role := .body } false draft draft' := by
  have hminted : (Label.named name).MintedBefore draft.minted := by
    intro index line origin heq
    cases heq
  exact enter_spec h (.named name) .body line hfree hminted rfl

/-- A body under a declared name is opened only if the name is new. -/
theorem Sound.opened_named (h : Sound draft) {name : String} {line : Nat}
    (henter : draft.enter (.named name) .body line = .ok draft') :
    Opened { block := .named name, role := .body } false draft draft' := by
  have hfree : draft.atlas (.named name) = none := by
    unfold enter at henter
    split at henter
    · cases henter
    · rename_i hfind
      exact Option.not_isSome_iff_eq_none.1 hfind
  obtain ⟨opened, henter', hopened⟩ := h.enter_free hfree line
  rw [henter, Except.ok.injEq] at henter'
  subst henter'
  exact hopened

theorem Ready.enter_named (h : Ready draft) {name : String} {line : Nat}
    (henter : draft.enter (.named name) .body line = .ok draft') :
    Tidy draft' ∧ Moves [.declares name] draft draft' := by
  have hopened := h.sound.opened_named henter
  exact ⟨h.opened hopened rfl (by simp), (Move.declare hopened).moves⟩

/-- A further branch leaves its chain open, and perhaps no longer skippable. -/
theorem Ready.branch (h : Ready draft) (further : Bool) {ends : List Label} {skippable : Bool}
    (hrole : draft.top.role = .chain ends skippable) :
    let after := draft.modifyTop fun frame =>
      { frame with role := .chain ends (skippable && further) }
    Ready after ∧ after.top.role.isFork = true ∧ Moves [] draft after := by
  obtain ⟨hready, hmoves⟩ := h.modifyTop
    (fun frame => { frame with role := .chain ends (skippable && further) })
    (by simp [Frame.labels, hrole, Role.ends]) rfl (by rw [hrole]; rfl)
  refine ⟨hready, ?_, hmoves⟩
  rw [(top_of_frames (frames_modifyTop _ draft)).1]
  rfl

theorem plainRole_spec (frame : Frame) :
    (plainRole frame).ends = [] ∧ (plainRole frame).isChain = false ∧
      (plainRole frame = .arm → frame.role.isFork = true) := by
  unfold plainRole
  cases frame.role <;> simp [Role.ends, Role.isChain, Role.isFork]

/-! ## Statements -/

/-- What a statement says about names, when it is carried out in a draft. An exit that a block no
    longer takes is not counted. -/
def mentionOf (statement : Statement) (line : Nat) (draft : Draft κ) : Option Mention :=
  match statement with
  | .header (.label written) => do
    let draft ← (draft.closeChain line).toOption
    let name ← (draft.qualify written line).toOption
    return .declares name
  | .jump target => do
    let draft ← (draft.closeChain line).toOption
    let name ← (draft.qualify target line).toOption
    let block ← draft.find? draft.top.block
    if block.disabled then none else return .jumps draft.top.block name
  | _ => none

/-- A statement in front of which a chain that is left over is closed. -/
theorem Ready.after_closeChain {α : Type} (h : Ready draft) {line : Nat}
    {rest : Draft κ → Except (Fault κ) α} {result : α}
    (hrun : (draft.closeChain line >>= rest) = .ok result) :
    ∃ first, draft.closeChain line = .ok first ∧ Moves [] draft first ∧ Ready first ∧
      first.top.role.isChain = false ∧ rest first = .ok result := by
  obtain ⟨first, hfirst, hmoves, hready, hchain⟩ := h.closeChain line
  obtain ⟨first', hfirst', hrest⟩ := bind_eq_ok.1 hrun
  obtain rfl := Except.ok.inj (hfirst.symm.trans hfirst')
  exact ⟨first, hfirst, hmoves, hready, hchain, hrest⟩

theorem Ready.openHeader (h : Ready draft) {header : Header} {line : Nat}
    (hopen : draft.openHeader header line = .ok draft') :
    Tidy draft' ∧ Moves (draft.mentionOf (.header header) line).toList draft draft' := by
  cases header with
  | label written =>
    obtain ⟨first, hfirst, hmoves, hready, -, hopen⟩ := h.after_closeChain hopen
    obtain ⟨name, hname, henter⟩ := bind_eq_ok.1 hopen
    obtain ⟨hready', hmoves'⟩ := hready.declare written
    obtain ⟨htidy, hmoves''⟩ := hready'.enter_named henter
    have hmention : draft.mentionOf (.header (.label written)) line = some (.declares name) := by
      simp only [mentionOf, hfirst, Except.toOption, Option.bind_eq_bind, Option.bind_some, hname]
      rfl
    rw [hmention]
    exact ⟨htidy, hmoves.before (hmoves'.before hmoves'')⟩
  | menu =>
    obtain ⟨first, -, hmoves, hready, -, hopen⟩ := h.after_closeChain hopen
    obtain ⟨opened, henter, hmoves', htidy⟩ := hready.enterFresh (.menu []) line rfl rfl (by simp)
    obtain rfl := Except.ok.inj (hopen.symm.trans henter)
    exact ⟨htidy, hmoves.before hmoves'⟩
  | condition =>
    obtain ⟨first, -, hmoves, hready, hchain, hopen⟩ := h.after_closeChain hopen
    obtain ⟨chain, hchain', hmoves', hready', hfork⟩ := hready.openChain hchain line
    obtain ⟨opened, henter, hmoves'', htidy⟩ := hready'.enterFresh .arm line rfl rfl fun _ => hfork
    obtain rfl := Except.ok.inj (hopen.symm.trans (bind_eq_ok.2 ⟨chain, hchain', henter⟩))
    exact ⟨htidy, hmoves.before (hmoves'.before hmoves'')⟩
  | branch kind =>
    simp only [Draft.openHeader] at hopen
    split at hopen
    · rename_i ends skippable hrole
      obtain ⟨hready', hfork, hmoves'⟩ := h.branch (kind == .elif) hrole
      obtain ⟨opened, henter, hmoves'', htidy⟩ :=
        hready'.enterFresh .arm line rfl rfl fun _ => hfork
      obtain rfl := Except.ok.inj (hopen.symm.trans henter)
      exact ⟨htidy, hmoves'.before hmoves''⟩
    · cases hopen
  | plain =>
    obtain ⟨first, -, hmoves, hready, -, hopen⟩ := h.after_closeChain hopen
    obtain ⟨hends, hnochain, harm⟩ := plainRole_spec first.top
    obtain ⟨opened, henter, hmoves', htidy⟩ := hready.enterFresh _ line hends hnochain harm
    obtain rfl := Except.ok.inj (hopen.symm.trans henter)
    exact ⟨htidy, hmoves.before hmoves'⟩

theorem link_eq_ok {source target : Label} {final : Bool} {line : Nat}
    (h : draft.link source target final line = .ok draft') :
    source ≠ target ∧ draft' = draft.modify source (·.exit target final) := by
  unfold link at h
  split at h
  · cases h
  · rename_i hne
    exact ⟨hne, (Except.ok.inj h).symm⟩

/-- The block that receives content changes, and nothing else. -/
theorem Ready.modifyCurrent (h : Ready draft) {change : Block κ → Block κ}
    (hchange : ∀ block, (change block).label = block.label) :
    Tidy (draft.modifyCurrent change) ∧ Changed change draft (draft.modifyCurrent change) := by
  have hchanged := changed_modifyCurrent h.sound hchange
  refine ⟨⟨hchanged.sound, ?_⟩, hchanged⟩
  rw [hchanged.frames_eq]
  exact h.nest

theorem Ready.jump (h : Ready draft) {target : String} {line : Nat}
    (hjump : draft.jump target line = .ok draft') :
    ∃ name block, draft.qualify target line = .ok name ∧ draft.find? draft.top.block = some block ∧
      Tidy draft' ∧
      Moves (if block.disabled then [] else [.jumps draft.top.block name]) draft draft' := by
  obtain ⟨name, hname, hlink⟩ := bind_eq_ok.1 hjump
  obtain ⟨hself, rfl⟩ := link_eq_ok hlink
  obtain ⟨block, hblock⟩ := h.sound.exists_top
  obtain ⟨htidy, hchanged⟩ := h.modifyCurrent (Block.label_exit (.named name) true)
  exact ⟨name, block, hname, hblock, htidy, (Move.jump hblock hself hchanged).moves⟩

theorem Ready.obey (h : Ready draft) {reader : LineReader κ} {statement : Statement} {line : Nat}
    (hobey : draft.obey reader statement line = .ok draft') :
    Tidy draft' ∧ Moves (draft.mentionOf statement line).toList draft draft' := by
  cases statement with
  | header header => exact h.openHeader hobey
  | jump target =>
    obtain ⟨first, hfirst, hmoves, hready, -, hjump⟩ := h.after_closeChain hobey
    obtain ⟨name, block, hname, hblock, htidy, hmoves'⟩ := hready.jump hjump
    refine ⟨htidy, hmoves.before ?_⟩
    have hmention : (draft.mentionOf (.jump target) line).toList =
        if block.disabled then [] else [.jumps first.top.block name] := by
      simp only [mentionOf, hfirst, Except.toOption, Option.bind_eq_bind, Option.bind_some, hname,
        hblock]
      cases block.disabled <;> rfl
    rwa [hmention]
  | terminate dead =>
    obtain ⟨first, -, hmoves, hready, -, hclose⟩ := h.after_closeChain hobey
    cases hclose
    obtain ⟨htidy, hchanged⟩ := hready.modifyCurrent (Block.label_close dead)
    exact ⟨htidy, hmoves.before (Move.close hchanged).moves⟩
  | content text =>
    obtain ⟨first, -, hmoves, hready, -, hsay⟩ := h.after_closeChain hobey
    cases hreader : reader text with
    | none =>
      rw [hreader] at hsay
      cases hsay
      exact ⟨hready.toTidy, hmoves⟩
    | some record =>
      rw [hreader] at hsay
      cases hsay
      obtain ⟨htidy, hchanged⟩ := hready.modifyCurrent (Block.label_say record)
      exact ⟨htidy, hmoves.before (Move.say hchanged).moves⟩

/-! ## Scripts -/

/-- What a line says about names. -/
def mention? (line : String) (number : Nat) (draft : Draft κ) : Option Mention :=
  if isBlankLine line.toList then none
  else do
    let (draft, rest) ← ({ draft with lastLine := number }.align line.toList number).toOption
    draft.mentionOf (statement (String.ofList rest)) number

/-- What the lines of a script say about names, up to the first fault. -/
def mentions (reader : LineReader κ) : List (String × Nat) → Draft κ → List Mention
  | [], _ => []
  | (line, number) :: lines, draft =>
    (draft.mention? line number).toList ++
      ((draft.feed reader line number).toOption.map (mentions reader lines)).getD []

/-- Reading a line keeps the draft tidy. -/
theorem Tidy.feed (h : Tidy draft) {reader : LineReader κ} {line : String} {number : Nat}
    (hfeed : draft.feed reader line number = .ok draft') :
    Tidy draft' ∧ Moves (draft.mention? line number).toList draft draft' := by
  have hmarked := h.mark_line number
  have hmark : Move draft { draft with lastLine := number } [] := .frames rfl hmarked.sound
  unfold Draft.feed at hfeed
  unfold mention?
  dsimp only at hfeed
  split
  · rename_i hblank
    rw [if_pos hblank] at hfeed
    cases hfeed
    exact ⟨hmarked, hmark.moves⟩
  · rename_i hcode
    rw [if_neg hcode] at hfeed
    obtain ⟨⟨aligned, rest⟩, halign, hobey⟩ := bind_eq_ok.1 hfeed
    obtain ⟨hready, hmoves⟩ := hmarked.align halign
    obtain ⟨htidy, hmoves'⟩ := hready.obey hobey
    rw [halign]
    exact ⟨htidy, hmark.moves.before (hmoves.before hmoves')⟩

/-- Reading a script keeps the draft tidy. -/
theorem Tidy.feedAll (h : Tidy draft) {reader : LineReader κ} {lines : List (String × Nat)}
    (hfeed : draft.feedAll reader lines = .ok draft') :
    Tidy draft' ∧ Moves (draft.mentions reader lines) draft draft' := by
  induction lines generalizing draft with
  | nil =>
    cases hfeed
    exact ⟨h, .refl _⟩
  | cons line lines ih =>
    obtain ⟨middle, hline, hlines⟩ := bind_eq_ok.1 hfeed
    replace hline : draft.feed reader line.1 line.2 = .ok middle := hline
    obtain ⟨htidy, hmoves⟩ := h.feed hline
    obtain ⟨htidy', hmoves'⟩ := ih htidy hlines
    rw [mentions, hline]
    exact ⟨htidy', hmoves.trans hmoves'⟩

/-- No two open bodies, the top level among them, put their content in the same block. -/
theorem Sound.nodup_blocks (h : Sound draft) : (draft.frames.map Frame.block).Nodup := by
  refine h.open_nodup.sublist ?_
  rw [← List.flatMap_pure_eq_map]
  exact List.Sublist.flatMap_right _ fun frame _ => by simp [Frame.labels]

/-- Lines that leave the last branch of a chain open, in a choice of a menu. -/
def harbourLines : List String :=
  ["label harbour:",
   "  menu:",
   "    \"board\":",
   "      if ticket:",
   "        scene deck",
   "      elif coins:",
   "        scene plank",
   "      else:"]

end Draft

end Playthrough
