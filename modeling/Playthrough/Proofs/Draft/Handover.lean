import Playthrough.Proofs.Draft.Alignment
import Playthrough.Proofs.Draft.Choices
import Playthrough.Proofs.Draft.Undeclared
import Playthrough.Proofs.Story.Joined

/-!
# What an open body hands on

A body hands its end to what follows when it closes, a chain of conditions the ends of its branches.
A menu hands on the ends of its choices and nothing else. Whether the blocks of an open body are
still as closing it will need them can be said for each body by itself, given what stands above it.

* `Atlas.Takes`, `Atlas.GoesOn`, `Atlas.Idle`: what the exits of a block can be like.
* `Tells`: the lines of an open menu.
* `Frame.Kept`, `Kept`: what is known of an open body, and of all of them.
* `Kept.mono`, `Kept.pass`, `Kept.await`: what changes of the blocks and further lines do to this.
* `Frame.Kept.cover`, `Frame.Kept.collect`, `Frame.Kept.resume`: a body is opened above or closes.
-/

namespace Playthrough

open Script Text Relation

variable {κ : Type}

/-! ## Exits of a block -/

namespace Atlas

/-- The block takes further exits. -/
def Takes (atlas : Atlas κ) (label : Label) : Prop :=
  ∃ block, atlas label = some block ∧ block.disabled = false

/-- Play goes on from the block. -/
def GoesOn (atlas : Atlas κ) (label : Label) : Prop :=
  ∃ block, atlas label = some block ∧ block.next ≠ []

/-- The block has no exits. -/
def Idle (atlas : Atlas κ) (label : Label) : Prop :=
  ∃ block, atlas label = some block ∧ block.next = []

theorem Idle.not_goesOn {atlas : Atlas κ} {label : Label} (h : atlas.Idle label) :
    ¬ atlas.GoesOn label := by
  rintro ⟨other, hother, hnext⟩
  obtain ⟨block, hblock, hidle⟩ := h
  obtain rfl := Option.some.inj (hblock.symm.trans hother)
  exact hnext hidle

end Atlas

namespace Draft

variable {draft draft' : Draft κ}

namespace Allocates

variable {new : Label} {final : Bool} {sources : List Label}
variable (h : Allocates new final sources draft draft')

include h

theorem ne_new {label : Label} {block : Block κ} (hblock : draft.atlas label = some block) :
    label ≠ new := by
  rintro rfl
  rw [h.fresh] at hblock
  cases hblock

theorem atlas_new : draft'.atlas new = some { label := new } := by
  rw [h.atlas_eq, if_pos rfl]

theorem atlas_source {label : Label} {block : Block κ} (hlabel : label ∈ sources)
    (hblock : draft.atlas label = some block) :
    draft'.atlas label = some (block.exit new final) := by
  rw [h.atlas_eq, if_neg (h.ne_new hblock), if_pos hlabel, hblock]
  rfl

theorem atlas_other {label : Label} {block : Block κ} (hlabel : label ∉ sources)
    (hblock : draft.atlas label = some block) : draft'.atlas label = some block := by
  rw [h.atlas_eq, if_neg (h.ne_new hblock), if_neg hlabel, hblock]

theorem takes_new : draft'.atlas.Takes new := ⟨_, h.atlas_new, rfl⟩

theorem idle_new : draft'.atlas.Idle new := ⟨_, h.atlas_new, rfl⟩

/-- Only a final exit makes a block refuse further ones. -/
theorem takes {label : Label} (hlabel : label ∈ sources → final = false)
    (htakes : draft.atlas.Takes label) : draft'.atlas.Takes label := by
  obtain ⟨block, hblock, hdisabled⟩ := htakes
  by_cases hsource : label ∈ sources
  · refine ⟨_, h.atlas_source hsource hblock, ?_⟩
    rw [Block.exit, hdisabled, hlabel hsource]
    rfl
  · exact ⟨block, h.atlas_other hsource hblock, hdisabled⟩

theorem leads {a b : Label} (hleads : draft.atlas.Leads a b) : draft'.atlas.Leads a b := by
  obtain ⟨block, hblock, hnext⟩ := hleads
  by_cases hsource : a ∈ sources
  · exact ⟨_, h.atlas_source hsource hblock, Block.mem_next_exit.2 (Or.inl hnext)⟩
  · exact ⟨block, h.atlas_other hsource hblock, hnext⟩

/-- A block that takes exits has got one to the new block. -/
theorem leads_new {label : Label} (hlabel : label ∈ sources) (htakes : draft.atlas.Takes label) :
    draft'.atlas.Leads label new := by
  obtain ⟨block, hblock, hdisabled⟩ := htakes
  exact ⟨_, h.atlas_source hlabel hblock, Block.mem_next_exit.2 (Or.inr ⟨rfl, hdisabled⟩)⟩

theorem goesOn {label : Label} (hgoes : draft.atlas.GoesOn label) : draft'.atlas.GoesOn label := by
  obtain ⟨block, hblock, hnext⟩ := hgoes
  obtain ⟨target, htarget⟩ := List.exists_mem_of_ne_nil _ hnext
  obtain ⟨block', hblock', htarget'⟩ := h.leads ⟨block, hblock, htarget⟩
  exact ⟨block', hblock', List.ne_nil_of_mem htarget'⟩

theorem goesOn_source {label : Label} (hlabel : label ∈ sources)
    (htakes : draft.atlas.Takes label) : draft'.atlas.GoesOn label := by
  obtain ⟨block, hblock, htarget⟩ := h.leads_new hlabel htakes
  exact ⟨block, hblock, List.ne_nil_of_mem htarget⟩

/-- A block without exits is the new one, or one that had none before and got none. -/
theorem idle_cases {label : Label} (hidle : draft'.atlas.Idle label) :
    label = new ∨ draft.atlas.Idle label ∧ (label ∈ sources → ¬ draft.atlas.Takes label) := by
  by_cases hlabel : label = new
  · exact Or.inl hlabel
  · refine Or.inr ⟨?_, fun hsource htakes => hidle.not_goesOn (h.goesOn_source hsource htakes)⟩
    obtain ⟨block', hblock', hnext⟩ := hidle
    have hatlas := h.atlas_eq label
    rw [if_neg hlabel, hblock'] at hatlas
    split at hatlas
    · obtain ⟨block, hblock, rfl⟩ := Option.map_eq_some_iff.1 hatlas.symm
      refine ⟨block, hblock, ?_⟩
      rw [Block.next_exit] at hnext
      split at hnext
      · exact hnext
      · simp at hnext
    · exact ⟨block', hatlas.symm, hnext⟩

/-- What is led to from a block in reach is in reach. -/
theorem connected (hconnected : draft.atlas.Connected) {source : Label} (hsource : source ∈ sources)
    (htakes : draft.atlas.Takes source) : draft'.atlas.Connected := by
  have hreaches : ∀ label, draft.atlas.Reaches .entry label → draft'.atlas.Reaches .entry label :=
    fun label hreach => ReflTransGen.mono (fun _ _ => h.leads) _ _ hreach
  intro label hsome
  by_cases hlabel : label = new
  · rw [hlabel]
    have hsome : (draft.atlas source).isSome := by
      obtain ⟨block, hblock, -⟩ := htakes
      rw [hblock]
      rfl
    exact ReflTransGen.tail (hreaches source (hconnected source hsome))
      (h.leads_new hsource htakes)
  · refine hreaches label (hconnected label ?_)
    have hatlas := h.atlas_eq label
    rw [if_neg hlabel] at hatlas
    rw [hatlas] at hsome
    split at hsome
    · simpa using hsome
    · exact hsome

end Allocates

end Draft

/-! ## Open bodies -/

/-- What is known of a menu: the line of its header and the lines of its body so far. The lines
    `ahead` have been found to stand in the body but have not been carried out. -/
structure Tells (read ahead : List String) (indent : Option (List Char)) (header : String)
    (body : List String) : Prop where
  suffix : header :: body <:+ read
  menu : stated header = .header .menu
  indent_eq : indent = (body ++ ahead).head?.map margin
  carries : Carries (indent.getD []) (body ++ ahead)

namespace Tells

variable {read : List String} {indent : Option (List Char)} {header line : String}
variable {body : List String}

/-- The first line of a menu sets its indentation. -/
theorem establish (h : Tells read [] none header body) :
    Tells read [line] (some (margin line)) header body := by
  have hbody : body = [] := by simpa using h.indent_eq.symm
  subst hbody
  refine ⟨h.suffix, h.menu, rfl, fun other hother => ?_, fun other hother => ?_⟩
  · obtain rfl : line = other := by simpa using hother
    rfl
  · rw [List.mem_singleton.1 hother]
    exact List.takeWhile_prefix _

/-- A later line stands in a menu whose indentation it carries. -/
theorem await (h : Tells read [] indent header body) (hindent : indent.isSome)
    (hline : indent.getD [] <+: line.toList) : Tells read [line] indent header body := by
  have hbody := h.indent_eq
  rw [List.append_nil] at hbody
  cases body with
  | nil => simp [hbody] at hindent
  | cons first rest =>
    refine ⟨h.suffix, h.menu, hbody, h.carries.first, fun other hother => ?_⟩
    rcases List.mem_append.1 hother with hother | hother
    · exact h.carries.all other (by simpa using hother)
    · rw [List.mem_singleton.1 hother]
      exact hline

/-- The line has been carried out. -/
theorem pass (h : Tells read [line] indent header body) :
    Tells (read ++ [line]) [] indent header (body ++ [line]) where
  suffix := by
    obtain ⟨front, hfront⟩ := h.suffix
    exact ⟨front, by rw [← hfront, List.append_assoc, List.cons_append]⟩
  menu := h.menu
  indent_eq := by
    rw [List.append_nil]
    exact h.indent_eq
  carries := by
    rw [List.append_nil]
    exact h.carries

/-- A line with less indentation completes a menu. -/
theorem ended (h : Tells read [] indent header body) (hindent : indent.isSome)
    (hline : ¬ indent.getD [] <+: line.toList) (more : List String) :
    parts body ∈ menus (read ++ line :: more) := by
  have hbody : body ≠ [] := by
    rintro rfl
    simp [h.indent_eq] at hindent
  have hcarries := h.carries
  rw [List.append_nil] at hcarries
  rw [← parts_ended hbody hcarries hline more]
  obtain ⟨front, hfront⟩ := h.suffix
  exact mem_menus ⟨front, by rw [← hfront, List.append_assoc, List.cons_append]⟩ h.menu

end Tells

theorem Role.isFork_kind (role : Role) : role.kind.isFork = role.isFork := by cases role <;> rfl

/-- What is known of an open body. `above` says whether there is a body above it, and if so whether
    that is an alternative. -/
structure Frame.Kept (atlas : Atlas κ) (read ahead : List String) (above : Option Bool)
    (frame : Frame) : Prop where
  /-- What a fork has collected can still be led on. -/
  ends : ∀ label ∈ frame.role.ends, atlas.Takes label
  /-- So can the block of the body, but not if something else follows it. -/
  takes : above ≠ some false → atlas.Takes frame.block
  /-- Play goes on into the body above. -/
  goesOn : above ≠ none → atlas.GoesOn frame.block
  /-- Only branches stand directly in a chain of conditions, and there is always one. -/
  chain : frame.role.isChain = true →
    above ≠ some false ∧ atlas.GoesOn frame.block ∧ (above = none → frame.role.ends ≠ [])
  /-- Play has not gone on from the end of a body. -/
  idle : above = none → frame.role.isFork = false → atlas.Idle frame.block
  /-- A menu with a choice has its end or has it above, and goes on into one that comes last. -/
  menu : ∀ ends, frame.role = .menu ends → ∃ header body,
    Tells read ahead frame.indent header body ∧
    (.plain ∈ parts body → ends ≠ [] ∨ above = some true) ∧
    ((parts body).getLast? = some .plain → above ≠ some false ∧ atlas.GoesOn frame.block)

/-- All that is known of some open bodies, the innermost first. -/
inductive Kept (atlas : Atlas κ) (read ahead : List String) : Option Bool → List Frame → Prop
  | nil (above : Option Bool) : Kept atlas read ahead above []
  | cons {above : Option Bool} {frame : Frame} {rest : List Frame}
      (hframe : frame.Kept atlas read ahead above)
      (hrest : Kept atlas read ahead (some (frame.role = .arm)) rest) :
      Kept atlas read ahead above (frame :: rest)

namespace Frame.Kept

variable {atlas atlas' : Atlas κ} {read ahead : List String} {above : Option Bool} {arm : Bool}
variable {frame : Frame} {line : String}

/-- Blocks may gain exits, as long as those that take exits go on taking them and the end of the
    innermost body gets none. -/
theorem mono (h : frame.Kept atlas read ahead above)
    (htakes : ∀ label ∈ frame.labels, atlas.Takes label → atlas'.Takes label)
    (hgoesOn : ∀ label, atlas.GoesOn label → atlas'.GoesOn label)
    (hidle : above = none → ∀ label, atlas.Idle label → atlas'.Idle label) :
    frame.Kept atlas' read ahead above where
  ends := fun label hlabel => htakes label (List.mem_cons_of_mem _ hlabel) (h.ends label hlabel)
  takes := fun habove => htakes _ List.mem_cons_self (h.takes habove)
  goesOn := fun habove => hgoesOn _ (h.goesOn habove)
  chain := by
    intro hchain
    obtain ⟨habove, hnext, hends⟩ := h.chain hchain
    exact ⟨habove, hgoesOn _ hnext, hends⟩
  idle := fun habove hfork => hidle habove _ (h.idle habove hfork)
  menu := by
    intro ends hrole
    obtain ⟨header, body, htells, hchoice, hlast⟩ := h.menu ends hrole
    refine ⟨header, body, htells, hchoice, fun hplain => ?_⟩
    exact ⟨(hlast hplain).1, hgoesOn _ (hlast hplain).2⟩

/-- The body may change as long as it keeps its blocks, its indentation and its kind. -/
theorem recast (h : frame.Kept atlas read ahead above) {frame' : Frame}
    (hlabels : frame'.labels = frame.labels) (hindent : frame'.indent = frame.indent)
    (hkind : frame'.role.kind = frame.role.kind) : frame'.Kept atlas read ahead above := by
  obtain ⟨hblock, hends⟩ := List.cons.inj hlabels
  refine ⟨?_, ?_, ?_, ?_, ?_, ?_⟩
  · rw [hends]
    exact h.ends
  · rw [hblock]
    exact h.takes
  · rw [hblock]
    exact h.goesOn
  · rw [← Role.isChain_kind, hkind, Role.isChain_kind, hends, hblock]
    exact h.chain
  · rw [← Role.isFork_kind, hkind, Role.isFork_kind, hblock]
    exact h.idle
  · intro ends hrole
    rw [hindent, hblock]
    refine h.menu ends ?_
    cases hbefore : frame.role with
    | menu before =>
      rw [hrole, hbefore] at hends
      rw [show ends = before from hends]
    | body => rw [hrole, hbefore] at hkind; cases hkind
    | arm => rw [hrole, hbefore] at hkind; cases hkind
    | chain before skippable => rw [hrole, hbefore] at hkind; cases hkind

/-- The lines known of a menu may change if its choices stay. -/
theorem retell {read' ahead' : List String} {indent : Option (List Char)}
    (h : frame.Kept atlas read ahead above)
    (htells : ∀ header body, Tells read ahead frame.indent header body → ∃ body',
      Tells read' ahead' indent header body' ∧
      (.plain ∈ parts body' → .plain ∈ parts body) ∧
      ((parts body').getLast? = some .plain → (parts body).getLast? = some .plain)) :
    { frame with indent }.Kept atlas read' ahead' above where
  ends := h.ends
  takes := h.takes
  goesOn := h.goesOn
  chain := h.chain
  idle := h.idle
  menu := by
    intro ends hrole
    obtain ⟨header, body, hbody, hchoice, hlast⟩ := h.menu ends hrole
    obtain ⟨body', hbody', hplain, hend⟩ := htells header body hbody
    exact ⟨header, body', hbody', fun h' => hchoice (hplain h'), fun h' => hlast (hend h')⟩

/-- A line that is no choice of its own changes nothing about the choices of a menu. -/
theorem pass (h : frame.Kept atlas read [line] above)
    (hline : Script.margin line = frame.margin → (stated line).header? ≠ some .plain) :
    frame.Kept atlas (read ++ [line]) [] above := by
  refine h.retell fun header body hbody => ⟨body ++ [line], hbody.pass, ?_⟩
  rw [parts_concat hbody.carries]
  split
  · rename_i hmargin
    have hplain := hline hmargin
    cases hheader : (stated line).header? with
    | none => simp
    | some other =>
      rw [hheader] at hplain
      have hne : other ≠ .plain := fun heq => hplain (by rw [heq])
      exact ⟨by simp [hne.symm], by simp [hne]⟩
  · simp

/-- A body that has just been opened. -/
theorem fresh {label : Label} {role : Role} (htakes : atlas.Takes label) (hidle : atlas.Idle label)
    (hends : role.ends = []) (hchain : role.isChain = false)
    (hmenu : ∀ ends, role = .menu ends → stated line = .header .menu) :
    { block := label, role : Frame }.Kept atlas (read ++ [line]) [] none where
  ends := by simp [hends]
  takes := fun _ => htakes
  goesOn := fun habove => absurd rfl habove
  chain := fun h => by simp [hchain] at h
  idle := fun _ _ => hidle
  menu := by
    intro ends hrole
    refine ⟨line, [], ⟨List.suffix_append _ _, hmenu ends hrole, rfl, ?_, ?_⟩, ?_, ?_⟩
    · simp
    · simp
    · simp [parts]
    · simp [parts]

/-- A header opens a body above, which is an alternative if it is a choice of this menu. -/
theorem cover (h : frame.Kept atlas read [line] none) {header : Header}
    (hheader : (stated line).header? = some header) (hmargin : Script.margin line = frame.margin)
    (hchain : frame.role.isChain = true → arm = true)
    (hchoice : header = .plain → ∀ ends, frame.role = .menu ends → arm = true)
    (hends : ∀ label ∈ frame.role.ends, atlas'.Takes label)
    (htakes : arm = true → atlas'.Takes frame.block) (hgoesOn : atlas'.GoesOn frame.block) :
    frame.Kept atlas' (read ++ [line]) [] (some arm) where
  ends := hends
  takes := by simpa using htakes
  goesOn := fun _ => hgoesOn
  chain := fun hrole => ⟨by simp [hchain hrole], hgoesOn, by simp⟩
  idle := by simp
  menu := by
    intro ends hrole
    obtain ⟨start, body, htells, hfound, -⟩ := h.menu ends hrole
    refine ⟨start, body ++ [line], htells.pass, ?_⟩
    rw [parts_concat htells.carries, ← Frame.margin, if_pos hmargin, hheader]
    refine ⟨fun hmem => ?_, fun hlast => ⟨?_, hgoesOn⟩⟩
    · rcases List.mem_append.1 hmem with hmem | hmem
      · exact Or.inl ((hfound hmem).resolve_right (by simp))
      · have hplain : Header.plain = header := by simpa using hmem
        rw [hchoice hplain.symm ends hrole]
        exact Or.inr rfl
    · have hplain : header = .plain := by simpa using hlast
      rw [hchoice hplain ends hrole]
      simp

/-- An alternative above closes and leaves its end with the fork. -/
theorem collect (h : frame.Kept atlas read ahead (some true)) (hfork : frame.role.isFork = true)
    {last : Label} (hlast : atlas.Takes last) :
    { frame with role := frame.role.collect last }.Kept atlas read ahead none where
  ends := by
    intro label hlabel
    rw [Role.ends_collect hfork] at hlabel
    rcases List.mem_append.1 hlabel with hlabel | hlabel
    · exact h.ends label hlabel
    · rw [List.mem_singleton.1 hlabel]
      exact hlast
  takes := fun _ => h.takes (by simp)
  goesOn := fun habove => absurd rfl habove
  chain := fun _ => ⟨by simp, h.goesOn (by simp), by simp [Role.ends_collect hfork]⟩
  idle := by
    intro _ hplain
    cases hrole : frame.role <;> simp [hrole, Role.collect, Role.isFork] at hfork hplain
  menu := by
    intro ends hrole
    cases hbefore : frame.role <;> rw [hbefore] at hrole <;> cases hrole
    rename_i before
    obtain ⟨header, body, htells, -, -⟩ := h.menu before hbefore
    exact ⟨header, body, htells, by simp, fun _ => ⟨by simp, h.goesOn (by simp)⟩⟩

/-- Any other body above closes and is followed by a fresh block. -/
theorem resume (h : frame.Kept atlas read ahead (some false)) {merge : Label}
    (hends : ∀ label ∈ frame.role.ends, atlas'.Takes label) (htakes : atlas'.Takes merge)
    (hidle : atlas'.Idle merge) :
    { frame with block := merge }.Kept atlas' read ahead none where
  ends := hends
  takes := fun _ => htakes
  goesOn := fun habove => absurd rfl habove
  chain := fun hchain => absurd rfl (h.chain hchain).1
  idle := fun _ _ => hidle
  menu := by
    intro ends hrole
    obtain ⟨header, body, htells, hchoice, hlast⟩ := h.menu ends hrole
    exact ⟨header, body, htells, by simpa using hchoice, fun hplain => absurd rfl (hlast hplain).1⟩

end Frame.Kept

namespace Kept

variable {atlas atlas' : Atlas κ} {read ahead : List String} {above : Option Bool}
variable {frames : List Frame} {line : String}

theorem mono (h : Kept atlas read ahead above frames)
    (htakes : ∀ label ∈ frames.flatMap Frame.labels, atlas.Takes label → atlas'.Takes label)
    (hgoesOn : ∀ label, atlas.GoesOn label → atlas'.GoesOn label)
    (hidle : above = none → ∀ label, atlas.Idle label → atlas'.Idle label) :
    Kept atlas' read ahead above frames := by
  induction h with
  | nil => exact .nil _
  | cons hframe hrest ih =>
    rw [List.flatMap_cons] at htakes
    refine .cons (hframe.mono (fun label hlabel => ?_) hgoesOn hidle)
      (ih (fun label hlabel => ?_) (by simp))
    · exact htakes label (List.mem_append_left _ hlabel)
    · exact htakes label (List.mem_append_right _ hlabel)

theorem pass (h : Kept atlas read [line] above frames)
    (hline : ∀ frame ∈ frames, margin line = frame.margin →
      (stated line).header? ≠ some .plain) :
    Kept atlas (read ++ [line]) [] above frames := by
  induction h with
  | nil => exact .nil _
  | cons hframe hrest ih =>
    refine .cons (hframe.pass (hline _ List.mem_cons_self)) (ih fun other hother => ?_)
    exact hline other (List.mem_cons_of_mem _ hother)

/-- All open bodies carry the line. -/
theorem await (h : Kept atlas read [] above frames)
    (hline : ∀ frame ∈ frames, frame.indent.isSome ∧ frame.margin <+: line.toList) :
    Kept atlas read [line] above frames := by
  induction h with
  | nil => exact .nil _
  | cons hframe hrest ih =>
    obtain ⟨hindent, hcarried⟩ := hline _ List.mem_cons_self
    refine .cons (hframe.retell fun header body hbody => ?_) (ih fun other hother => ?_)
    · exact ⟨body, hbody.await hindent hcarried, id, id⟩
    · exact hline other (List.mem_cons_of_mem _ hother)

end Kept

end Playthrough
