import Playthrough.Proofs.Draft.Outline

/-!
# What play gives from the middle of a draft on

The meaning of a part of a script is compared with the blocks it becomes, before these have all
their exits. So the comparison is between two points: from the block that received content in front
of the part, play gives what the part means, and then goes on as from the block that receives content
behind it. The blocks are those of the finished story, of which only the part itself is known.

What play gives is counted in blocks, since jumps can lead back to where play has been.

* `Atlas.TellsIn`: what is told from a label on, within a number of blocks.
* `Atlas.Behaves`: play between two points gives what a part of the script means.
* `Draft.Played`, `Draft.Ended`: a part of a body, or the rest of it, was read.
* `Draft.Forked`: some alternatives of a menu or of a chain were read.
-/

namespace Playthrough

open Outline

variable {κ : Type}

namespace Atlas

variable {atlas : Atlas κ}

/-! ## Counted play -/

/-- What play can give behind a block. -/
def After (tells : Label → List (Record κ) → Prop) (block : Block κ)
    (records : List (Record κ)) : Prop :=
  (block.Stops false ∧ records = []) ∨ ∃ target ∈ block.next, tells target records

/-- What play can give from a label on, within a number of blocks. -/
def TellsIn (atlas : Atlas κ) : Nat → Label → List (Record κ) → Prop
  | 0, _, _ => False
  | steps + 1, label, records => ∃ block rest, atlas label = some block ∧
      records = block.text ++ rest ∧ After (atlas.TellsIn steps) block rest

/-- What play can give behind the first records of a block, within a number of further blocks. -/
def OnwardIn (atlas : Atlas κ) (label : Label) (played steps : Nat)
    (records : List (Record κ)) : Prop :=
  ∃ block rest, atlas label = some block ∧ records = block.text.drop played ++ rest ∧
    After (atlas.TellsIn steps) block rest

theorem After.imp {tells tells' : Label → List (Record κ) → Prop}
    (h : ∀ label records, tells label records → tells' label records) {block : Block κ}
    {records : List (Record κ)} (hafter : After tells block records) :
    After tells' block records := by
  rcases hafter with hstop | ⟨target, htarget, htells⟩
  · exact Or.inl hstop
  · exact Or.inr ⟨target, htarget, h target records htells⟩

theorem TellsIn.succ {steps : Nat} {label : Label} {records : List (Record κ)}
    (h : atlas.TellsIn steps label records) : atlas.TellsIn (steps + 1) label records := by
  induction steps generalizing label records with
  | zero => exact h.elim
  | succ steps ih =>
    obtain ⟨block, rest, hblock, hrecords, hafter⟩ := h
    exact ⟨block, rest, hblock, hrecords, hafter.imp fun _ _ => ih⟩

theorem TellsIn.mono {steps steps' : Nat} (hle : steps ≤ steps') {label : Label}
    {records : List (Record κ)} (h : atlas.TellsIn steps label records) :
    atlas.TellsIn steps' label records := by
  induction hle with
  | refl => exact h
  | step _ ih => exact ih.succ

theorem TellsIn.exists_block {steps : Nat} {label : Label} {records : List (Record κ)}
    (h : atlas.TellsIn steps label records) : ∃ block, atlas label = some block := by
  cases steps with
  | zero => exact h.elim
  | succ steps =>
    obtain ⟨block, rest, hblock, -⟩ := h
    exact ⟨block, hblock⟩

/-- Counting does not matter. -/
theorem exists_tellsIn_iff {label : Label} {records : List (Record κ)} :
    (∃ steps, atlas.TellsIn steps label records) ↔
      ∃ walk, atlas.IsWalk label false walk ∧ records = atlas.spelled walk := by
  constructor
  · rintro ⟨steps, h⟩
    induction steps generalizing label records with
    | zero => exact h.elim
    | succ steps ih =>
      obtain ⟨block, rest, hblock, rfl, hstop | ⟨target, htarget, htells⟩⟩ := h
      · obtain ⟨hstops, rfl⟩ := hstop
        refine ⟨[label], isWalk_singleton hblock hstops, ?_⟩
        simp [spelled_cons, text_eq hblock]
      · obtain ⟨walk, hwalk, rfl⟩ := ih htells
        refine ⟨label :: walk, hwalk.cons ⟨block, hblock, htarget⟩, ?_⟩
        rw [spelled_cons, text_eq hblock]
  · rintro ⟨walk, hwalk, rfl⟩
    have hspells := hwalk.spells
    clear hwalk
    generalize atlas.spelled walk = records at hspells
    generalize declared walk = names at hspells
    induction hspells with
    | @stop label block hblock hstops =>
      exact ⟨1, block, [], hblock, by simp, Or.inl ⟨hstops, rfl⟩⟩
    | @step label target block records names hblock htarget _ ih =>
      obtain ⟨steps, hsteps⟩ := ih
      exact ⟨steps + 1, block, records, hblock, rfl, Or.inr ⟨target, htarget, hsteps⟩⟩

/-! ## Play between two points -/

/-- What play can give from a point on, within a number of blocks. -/
abbrev Reading (κ : Type) := Nat → List (Record κ) → Prop

/-- What play can give behind a part of a script with the given outcome. -/
def Then (atlas : Atlas κ) (next : Reading κ) (steps : Nat) :
    Outcome → List (Record κ) → Prop
  | .falls, records => next steps records
  | .ends, records => records = []
  | .lost, _ => False
  | .jumps target, records => atlas.TellsIn steps (.named target) records

/-- Play from one point gives what a part means, and then goes on as from the other. -/
structure Behaves (atlas : Atlas κ) (start : Reading κ) (meaning : Meaning κ)
    (next : Reading κ) : Prop where
  only : ∀ steps records, start steps records → ∃ front outcome back,
    meaning front outcome ∧ records = front ++ back ∧ atlas.Then next steps outcome back
  all : ∀ steps front outcome back, meaning front outcome → atlas.Then next steps outcome back →
    ∃ steps, start steps (front ++ back)

variable {start start' middle next next' : Reading κ} {first second meaning : Meaning κ}

theorem then_congr {outcome : Outcome} (h : outcome ≠ .falls) (steps : Nat)
    (records : List (Record κ)) :
    atlas.Then next steps outcome records = atlas.Then next' steps outcome records := by
  cases outcome with
  | falls => exact absurd rfl h
  | ends => rfl
  | lost => rfl
  | jumps target => rfl

theorem Then.mono {steps steps' : Nat} (hle : steps ≤ steps')
    (hnext : ∀ records, next steps records → next steps' records) {outcome : Outcome}
    {records : List (Record κ)} (h : atlas.Then next steps outcome records) :
    atlas.Then next steps' outcome records := by
  cases outcome with
  | falls => exact hnext records h
  | ends => exact h
  | lost => exact h
  | jumps target => exact TellsIn.mono hle h

theorem behaves_skip (atlas : Atlas κ) (next : Reading κ) : Behaves atlas next .skip next := by
  constructor
  · intro steps records h
    exact ⟨[], .falls, records, ⟨rfl, rfl⟩, rfl, h⟩
  · rintro steps front outcome back ⟨rfl, rfl⟩ h
    exact ⟨steps, h⟩

theorem Behaves.congr (h : Behaves atlas start first next)
    (hiff : ∀ records outcome, first records outcome ↔ second records outcome) :
    Behaves atlas start second next := by
  obtain rfl : first = second := funext fun records => funext fun outcome =>
    propext (hiff records outcome)
  exact h

theorem Behaves.andThen (h : Behaves atlas start first middle)
    (h' : Behaves atlas middle second next) : Behaves atlas start (first.andThen second) next := by
  constructor
  · intro steps records hstart
    obtain ⟨front, outcome, back, hfirst, rfl, hthen⟩ := h.only steps records hstart
    by_cases hfalls : outcome = .falls
    · subst hfalls
      obtain ⟨front', outcome', back', hsecond, rfl, hthen'⟩ := h'.only steps back hthen
      refine ⟨front ++ front', outcome', back', Or.inl ⟨front, front', hfirst, hsecond, rfl⟩, ?_,
        hthen'⟩
      rw [List.append_assoc]
    · exact ⟨front, outcome, back, Or.inr ⟨hfirst, hfalls⟩, rfl, then_congr hfalls steps back ▸ hthen⟩
  · intro steps records outcome back hmeaning hthen
    rcases hmeaning with ⟨front, front', hfirst, hsecond, rfl⟩ | ⟨hfirst, hfalls⟩
    · obtain ⟨steps', hmiddle⟩ := h'.all steps front' outcome back hsecond hthen
      rw [List.append_assoc]
      exact h.all steps' front .falls (front' ++ back) hfirst hmiddle
    · exact h.all steps records outcome back hfirst (then_congr hfalls steps back ▸ hthen)

theorem Behaves.either (h : Behaves atlas start first next)
    (h' : Behaves atlas start' second next) :
    Behaves atlas (fun steps records => start steps records ∨ start' steps records)
      (first.either second) next := by
  constructor
  · rintro steps records (hstart | hstart)
    · obtain ⟨front, outcome, back, hmeaning, hrest⟩ := h.only steps records hstart
      exact ⟨front, outcome, back, Or.inl hmeaning, hrest⟩
    · obtain ⟨front, outcome, back, hmeaning, hrest⟩ := h'.only steps records hstart
      exact ⟨front, outcome, back, Or.inr hmeaning, hrest⟩
  · rintro steps front outcome back (hmeaning | hmeaning) hthen
    · obtain ⟨steps', hstart⟩ := h.all steps front outcome back hmeaning hthen
      exact ⟨steps', Or.inl hstart⟩
    · obtain ⟨steps', hstart⟩ := h'.all steps front outcome back hmeaning hthen
      exact ⟨steps', Or.inr hstart⟩

/-- Play may pass some blocks without records before the start. -/
theorem Behaves.of_start (h : Behaves atlas start meaning next)
    (hmono : ∀ steps steps' records, steps ≤ steps' → next steps records → next steps' records)
    (honly : ∀ steps records, start' steps records → ∃ fewer ≤ steps, start fewer records)
    (hall : ∀ steps records, start steps records → ∃ steps, start' steps records) :
    Behaves atlas start' meaning next := by
  constructor
  · intro steps records hstart
    obtain ⟨fewer, hle, hstart⟩ := honly steps records hstart
    obtain ⟨front, outcome, back, hmeaning, hrecords, hthen⟩ := h.only fewer records hstart
    exact ⟨front, outcome, back, hmeaning, hrecords,
      hthen.mono hle fun records => hmono fewer steps records hle⟩
  · intro steps front outcome back hmeaning hthen
    obtain ⟨steps, hstart⟩ := h.all steps front outcome back hmeaning hthen
    exact hall steps _ hstart

/-- Play may pass some blocks without records behind the end. -/
theorem Behaves.of_next (h : Behaves atlas start meaning next)
    (honly : ∀ steps records, next steps records → next' steps records)
    (hall : ∀ steps records, next' steps records → ∃ steps, next steps records) :
    Behaves atlas start meaning next' := by
  constructor
  · intro steps records hstart
    obtain ⟨front, outcome, back, hmeaning, hrecords, hthen⟩ := h.only steps records hstart
    refine ⟨front, outcome, back, hmeaning, hrecords, ?_⟩
    by_cases hfalls : outcome = .falls
    · subst hfalls
      exact honly steps back hthen
    · exact then_congr hfalls steps back ▸ hthen
  · intro steps front outcome back hmeaning hthen
    by_cases hfalls : outcome = .falls
    · subst hfalls
      obtain ⟨steps', hnext⟩ := hall steps back hthen
      exact h.all steps' front .falls back hmeaning hnext
    · exact h.all steps front outcome back hmeaning (then_congr hfalls steps back ▸ hthen)

/-- Play that enters a block. -/
theorem Behaves.enter {label target : Label}
    (h : Behaves atlas (fun steps => atlas.TellsIn (steps + 1) label) meaning
      (atlas.TellsIn · target)) :
    Behaves atlas (atlas.TellsIn · label) meaning (atlas.TellsIn · target) := by
  refine h.of_start (fun _ _ _ hle => TellsIn.mono hle) ?_ ?_
  · intro steps records hstart
    cases steps with
    | zero => exact hstart.elim
    | succ steps => exact ⟨steps, Nat.le_succ steps, hstart⟩
  · intro steps records hstart
    exact ⟨steps + 1, hstart⟩

/-- One more way to go on. -/
theorem Behaves.snoc {labels : List Label} {label target : Label}
    (h : Behaves atlas (fun steps records => ∃ label ∈ labels, atlas.TellsIn steps label records)
      first (atlas.TellsIn · target))
    (h' : Behaves atlas (atlas.TellsIn · label) second (atlas.TellsIn · target)) :
    Behaves atlas
      (fun steps records => ∃ other ∈ labels ++ [label], atlas.TellsIn steps other records)
      (first.either second) (atlas.TellsIn · target) := by
  have hstart : (fun steps records => ∃ other ∈ labels ++ [label],
      atlas.TellsIn steps other records) = fun steps records =>
      (∃ other ∈ labels, atlas.TellsIn steps other records) ∨
        atlas.TellsIn steps label records := by
    funext steps records
    simp [or_and_right, exists_or]
  rw [hstart]
  exact h.either h'

/-! ## Blocks -/

theorem onwardIn_zero (atlas : Atlas κ) (label : Label) (steps : Nat)
    (records : List (Record κ)) :
    atlas.OnwardIn label 0 steps records ↔ atlas.TellsIn (steps + 1) label records := Iff.rfl

/-- At the end of a block. -/
theorem onwardIn_length {label : Label} {block : Block κ} (hblock : atlas label = some block)
    (steps : Nat) (records : List (Record κ)) :
    atlas.OnwardIn label block.text.length steps records ↔
      After (atlas.TellsIn steps) block records := by
  constructor
  · rintro ⟨found, rest, hfound, rfl, hafter⟩
    rw [hblock, Option.some.injEq] at hfound
    subst hfound
    rwa [List.drop_length, List.nil_append]
  · intro hafter
    exact ⟨block, records, hblock, by simp, hafter⟩

/-- Behind a block that has exits. -/
theorem after_iff {tells : Label → List (Record κ) → Prop} {block : Block κ}
    (hnext : block.next ≠ []) (records : List (Record κ)) :
    After tells block records ↔ ∃ target ∈ block.next, tells target records := by
  constructor
  · rintro (⟨hstops, -⟩ | h)
    · exact absurd hstops.1 hnext
    · exact h
  · exact Or.inr

end Atlas

namespace Draft

open Atlas

variable {draft draft' draft'' : Draft κ} {margin : List Char}

/-! ## Reading into a body -/

/-- What play can give from the end of the block that receives content, in a later stage. -/
def onward (atlas : Atlas κ) (draft : Draft κ) : Reading κ :=
  atlas.OnwardIn draft.top.block (draft.atlas.text draft.top.block).length

/-- The next statement of a body can be carried out: its block has no exits yet. -/
structure Open (margin : List Char) (draft : Draft κ) : Prop where
  sound : Sound draft
  indent_eq : draft.top.indent = some margin
  role_eq : draft.top.role = .body ∨ draft.top.role = .arm
  block_eq : ∃ text, draft.atlas draft.top.block = some { label := draft.top.block, text }

theorem open_start : Open [] (start : Draft κ) := ⟨sound_start, rfl, Or.inl rfl, [], rfl⟩

theorem Open.role_ne_chain (h : Open margin draft) (ends : List Label) (skippable : Bool) :
    draft.top.role ≠ .chain ends skippable := by
  rcases h.role_eq with hrole | hrole <;> rw [hrole] <;> simp

/-- Play goes on where the block that receives content is led. -/
theorem Open.onward_eq (h : Open margin draft) {atlas : Atlas κ} {block : Block κ}
    {target : Label} {final : Bool} (hblock : draft.atlas draft.top.block = some block)
    (hfound : atlas draft.top.block = some (block.exit target final)) :
    draft.onward atlas = (atlas.TellsIn · target) := by
  obtain ⟨text, htext⟩ := h.block_eq
  rw [hblock, Option.some.injEq] at htext
  subst htext
  funext steps records
  rw [onward, text_eq hblock]
  refine propext ((onwardIn_length hfound steps records).trans ?_)
  rw [after_iff (by simp [Block.exit])]
  simp [Block.exit]

/-- A part of a body was read. -/
structure Played (margin : List Char) (meaning : Meaning κ) (draft draft' : Draft κ) : Prop where
  within : Within draft draft'
  isOpen : Open margin draft'
  behaves : ∀ atlas, Later draft' atlas →
    Behaves atlas (draft.onward atlas) meaning (draft'.onward atlas)

/-- The rest of a body was read. Play goes on at the block to which the end of the body will be
    led. -/
structure Ended (meaning : Meaning κ) (draft draft' : Draft κ) : Prop where
  within : Within draft draft'
  sound : Sound draft'
  behaves : ∀ atlas target block, Later draft' atlas →
    draft'.atlas draft'.top.block = some block →
    atlas draft'.top.block = some (block.exit target false) →
    Behaves atlas (draft.onward atlas) meaning (atlas.TellsIn · target)

theorem Played.congr {first second : Meaning κ} (h : Played margin first draft draft')
    (hiff : ∀ records outcome, first records outcome ↔ second records outcome) :
    Played margin second draft draft' :=
  ⟨h.within, h.isOpen, fun atlas hlater => (h.behaves atlas hlater).congr hiff⟩

theorem Played.andThen {first second : Meaning κ} (h : Played margin first draft draft')
    (h' : Ended second draft' draft'') : Ended (first.andThen second) draft draft'' := by
  refine ⟨h.within.trans h'.within, h'.sound, ?_⟩
  intro atlas target block hlater hblock htarget
  exact (h.behaves atlas (hlater.of_grows h'.within.grows)).andThen
    (h'.behaves atlas target block hlater hblock htarget)

/-- In the end of a body play goes on where the end is led. -/
theorem Played.ended {meaning : Meaning κ} (h : Played margin meaning draft draft') :
    Ended meaning draft draft' := by
  refine ⟨h.within, h.isOpen.sound, ?_⟩
  intro atlas target block hlater hblock htarget
  rw [← h.isOpen.onward_eq hblock htarget]
  exact h.behaves atlas hlater

/-- Content was read. -/
theorem Open.played_content (h : Open margin draft) {added : List (Record κ)}
    (hchanged : Changed (fun block => { block with text := block.text ++ added }) draft draft') :
    Played margin (fun records outcome => records = added ∧ outcome = .falls) draft draft' := by
  obtain ⟨htop, hbelow⟩ := hchanged.top_eq
  obtain ⟨text, htext⟩ := h.block_eq
  have htext' : draft'.atlas draft.top.block =
      some { label := draft.top.block, text := text ++ added } := by
    rw [hchanged.atlas_eq, if_pos rfl, htext]
    rfl
  have hopen : Open margin draft' := by
    refine ⟨hchanged.sound, by rw [htop, h.indent_eq], by rw [htop]; exact h.role_eq, ?_⟩
    rw [htop]
    exact ⟨_, htext'⟩
  refine ⟨hchanged.within fun block => List.prefix_append _ _, hopen, ?_⟩
  intro atlas hlater
  obtain ⟨found, hfound, ⟨more, hmore⟩, -⟩ := hlater _ _ htext'
  have hdrop : found.text.drop text.length = added ++ found.text.drop (text ++ added).length := by
    rw [← hmore, List.drop_left, List.append_assoc, List.drop_left]
  have honward : ∀ steps records, draft.onward atlas steps records ↔
      ∃ rest, records = added ++ rest ∧ draft'.onward atlas steps rest := by
    intro steps records
    rw [onward, onward, htop, text_eq htext, text_eq htext']
    constructor
    · rintro ⟨block, rest, hblock, rfl, hafter⟩
      rw [hfound, Option.some.injEq] at hblock
      subst hblock
      exact ⟨_, by rw [hdrop, List.append_assoc], found, rest, hfound, rfl, hafter⟩
    · rintro ⟨-, rfl, block, rest, hblock, rfl, hafter⟩
      rw [hfound, Option.some.injEq] at hblock
      subst hblock
      exact ⟨found, rest, hfound, by rw [hdrop, List.append_assoc], hafter⟩
  constructor
  · intro steps records hstart
    obtain ⟨rest, rfl, hrest⟩ := (honward steps records).1 hstart
    exact ⟨added, .falls, rest, ⟨rfl, rfl⟩, rfl, hrest⟩
  · rintro steps front outcome back ⟨rfl, rfl⟩ hthen
    exact ⟨steps, (honward steps _).2 ⟨back, rfl, hthen⟩⟩

/-- The block that receives content was closed for good. -/
theorem Open.ended_change (h : Open margin draft) {change : Block κ → Block κ}
    (hchanged : Changed change draft draft') (htext : ∀ block, (change block).text = block.text)
    (hdisabled : ∀ block : Block κ, block.disabled = false → (change block).disabled = true)
    {outcome : Outcome}
    (hafter : ∀ (atlas : Atlas κ) text next steps records,
      After (atlas.TellsIn steps) (change { label := draft.top.block, text }) records ↔
        atlas.Then next steps outcome records) :
    Ended (fun records out => records = [] ∧ out = outcome) draft draft' := by
  obtain ⟨htop, hbelow⟩ := hchanged.top_eq
  refine ⟨hchanged.within fun block => by rw [htext], hchanged.sound, ?_⟩
  intro atlas target block hlater hblock htarget
  obtain ⟨text, hcurrent⟩ := h.block_eq
  have hchange : block = change { label := draft.top.block, text } := by
    rw [htop, hchanged.atlas_eq, if_pos rfl, hcurrent] at hblock
    exact (Option.some.inj hblock).symm
  -- The end of the body is led nowhere: the first jump or return of a block wins.
  have hexit : block.exit target false = block := by
    rw [Block.exit, if_pos]
    rw [hchange]
    exact hdisabled _ rfl
  rw [hexit, htop] at htarget
  have honward : ∀ steps records, draft.onward atlas steps records ↔
      atlas.Then (atlas.TellsIn · target) steps outcome records := by
    intro steps records
    rw [onward, text_eq hcurrent, ← hafter atlas text, ← hchange]
    have hlength : text.length = block.text.length := by rw [hchange, htext]
    rw [hlength]
    exact onwardIn_length htarget steps records
  constructor
  · intro steps records hstart
    exact ⟨[], outcome, records, ⟨rfl, rfl⟩, rfl, (honward steps records).1 hstart⟩
  · rintro steps front out back ⟨rfl, rfl⟩ hthen
    exact ⟨steps, (honward steps _).2 hthen⟩

/-- A return was read. -/
theorem Open.ended_close (h : Open margin draft) {dead : Bool}
    (hchanged : Changed (·.close dead) draft draft') :
    Ended (fun records outcome => records = [] ∧ outcome = if dead then .lost else .ends)
      draft draft' := by
  refine h.ended_change hchanged (fun block => ?_) (fun block hblock => ?_) ?_
  · unfold Block.close
    split <;> rfl
  · simp [Block.close, hblock]
  · intro atlas text next steps records
    cases dead <;> simp [After, Block.close, Block.Stops, Then]

/-- A jump was read. -/
theorem Open.ended_exit (h : Open margin draft) {target : String}
    (hchanged : Changed (·.exit (.named target) true) draft draft') :
    Ended (fun records outcome => records = [] ∧ outcome = .jumps target) draft draft' := by
  refine h.ended_change hchanged (Block.text_exit _ _) (fun block hblock => ?_) ?_
  · simp [Block.exit, hblock]
  · intro atlas text next steps records
    simp [After, Block.exit, Block.Stops, Then]

/-! ## Bodies from header to end -/

variable {final : Bool} {frame : Frame} {first last : Draft κ} {meaning : Meaning κ}

/-- Play enters a body at its first block. -/
theorem Opened.onward_eq (h : Opened frame final draft first) (atlas : Atlas κ) :
    first.onward atlas = fun steps => atlas.TellsIn (steps + 1) frame.block := by
  have hblock : first.atlas frame.block = some { label := frame.block } := by
    rw [h.atlas_eq, if_pos rfl]
  funext steps records
  rw [onward, h.top_eq.1, text_eq hblock]
  exact propext (onwardIn_zero atlas frame.block steps records)

theorem Opened.behaves (h : Opened frame final draft first) (hended : Ended meaning first last)
    {atlas : Atlas κ} {target : Label} {block : Block κ} (hlater : Later last atlas)
    (hblock : last.atlas last.top.block = some block)
    (htarget : atlas last.top.block = some (block.exit target false)) :
    Behaves atlas (fun steps => atlas.TellsIn (steps + 1) frame.block) meaning
      (atlas.TellsIn · target) := by
  rw [← h.onward_eq atlas]
  exact hended.behaves atlas target block hlater hblock htarget

/-- Reading a body leaves the blocks around alone, but for the one that leads to it. -/
theorem Opened.keeps (h : Opened frame final draft first) (hwithin : Within first last)
    {label : Label} {block : Block κ} (hlabel : label ≠ draft.top.block)
    (hblock : draft.atlas label = some block) : last.atlas label = some block := by
  refine hwithin.others label block ?_ (h.others hlabel hblock)
  rw [h.top_eq.1]
  exact h.ne_fresh hblock

theorem Opened.leads (h : Opened frame final draft first) (hwithin : Within first last)
    {block : Block κ} (hblock : draft.atlas draft.top.block = some block) :
    last.atlas draft.top.block = some (block.exit frame.block final) := by
  refine hwithin.others _ _ ?_ ?_
  · rw [h.top_eq.1]
    exact h.ne_fresh hblock
  · rw [h.atlas_eq, if_neg (h.ne_fresh hblock), if_pos rfl, hblock]
    rfl

theorem Opened.end_fresh (h : Opened frame final draft first) (hwithin : Within first last) :
    draft.atlas last.top.block = none := by
  rcases hwithin.top_eq with heq | hfresh
  · rw [heq, h.top_eq.1]
    exact h.fresh
  · exact h.grows.fresh hfresh

theorem Opened.named (h : Opened frame final draft first) (hwithin : Within first last)
    {name : String} (hname : draft.atlas (.named name) = none) (hne : frame.block ≠ .named name) :
    last.atlas (.named name) = none := by
  refine hwithin.named name ?_
  rw [h.atlas_eq, if_neg (Ne.symm hne), hname]
  split <;> rfl

/-! ## Forks -/

/-- A fork was opened and some of its alternatives were read. The block of the fork leads to them,
    and play goes on at the block to which their ends will be led. -/
structure Forked (final : Bool) (next : List Label) (meaning : Meaning κ)
    (draft fork : Draft κ) : Prop where
  below_eq : fork.below = draft.frames
  sound : Sound fork
  fresh : ∀ label ∈ fork.top.labels, draft.atlas label = none
  source : ∃ block, draft.atlas draft.top.block = some block ∧
    fork.atlas draft.top.block = some (block.exit fork.top.block final)
  others : ∀ label block, label ≠ draft.top.block → draft.atlas label = some block →
    fork.atlas label = some block
  named : ∀ name, draft.atlas (.named name) = none → fork.atlas (.named name) = none
  block_eq : fork.atlas fork.top.block = some { label := fork.top.block, next }
  behaves : ∀ atlas target, Later fork atlas →
    (∀ label ∈ fork.top.role.ends, atlas label = (fork.atlas label).map (·.exit target false)) →
    Behaves atlas (fun steps records => ∃ label ∈ next, atlas.TellsIn steps label records) meaning
      (atlas.TellsIn · target)

variable {fork : Draft κ} {next : List Label} {meaning' : Meaning κ}

theorem Forked.openLabels_eq (h : Forked final next meaning draft fork) :
    fork.openLabels = fork.top.labels ++ draft.openLabels := by
  rw [Draft.openLabels_eq, h.below_eq]
  rfl

theorem Forked.labels_subset (h : Forked final next meaning draft fork) :
    fork.top.labels ⊆ fork.openLabels := by
  rw [h.openLabels_eq]
  exact List.subset_append_left _ _

theorem Forked.ne_block (h : Forked final next meaning draft fork) {label : Label} {block : Block κ}
    (hblock : draft.atlas label = some block) : label ≠ fork.top.block := by
  rintro rfl
  rw [h.fresh _ List.mem_cons_self] at hblock
  cases hblock

theorem Forked.grows (h : Forked final next meaning draft fork) : Grows draft fork := by
  intro label block hblock
  by_cases hlabel : label = draft.top.block
  · subst hlabel
    obtain ⟨source, hsource, hfork⟩ := h.source
    rw [hblock, Option.some.injEq] at hsource
    subst hsource
    exact ⟨_, hfork, by rw [Block.text_exit], fun hopen => absurd draft.top_mem_openLabels hopen⟩
  · refine ⟨block, h.others label block hlabel hblock, List.prefix_refl _, fun hopen => ⟨rfl, ?_⟩⟩
    rw [h.openLabels_eq, List.mem_append, not_or]
    refine ⟨fun hmem => ?_, hopen⟩
    rw [h.fresh label hmem] at hblock
    cases hblock

/-- A fork without alternatives. -/
theorem Opened.forked (h : Opened frame final draft fork) (hsound : Sound draft)
    (hsynthetic : frame.block.isSynthetic = true) :
    Forked final [] (fun _ _ => False) draft fork := by
  obtain ⟨htop, hbelow⟩ := h.top_eq
  have hlabels : fork.top.labels = [frame.block] := by rw [htop, Frame.labels, h.ends_eq]
  have hne : draft.top.block ≠ frame.block := hsound.ne_of_fresh h.fresh draft.top_mem_openLabels
  refine ⟨hbelow, h.sound, ?_, ?_, fun label block hlabel => h.others hlabel, ?_, ?_, ?_⟩
  · intro label hlabel
    rw [hlabels, List.mem_singleton] at hlabel
    rw [hlabel, h.fresh]
  · obtain ⟨block, hblock⟩ := hsound.exists_top
    refine ⟨block, hblock, ?_⟩
    rw [h.atlas_eq, if_neg hne, if_pos rfl, htop, hblock]
    rfl
  · intro name hname
    rw [h.atlas_eq, if_neg, hname]
    · split <;> rfl
    · rintro heq
      rw [← heq] at hsynthetic
      cases hsynthetic
  · rw [htop, h.atlas_eq, if_pos rfl]
  · intro atlas target _ _
    constructor
    · rintro steps records ⟨label, hlabel, -⟩
      cases hlabel
    · rintro steps front outcome back ⟨⟩

/-- A fork collects one more alternative. -/
theorem Forked.collect {label : Label} {indent : Option (List Char)}
    (h : Forked final next meaning draft fork)
    (hopened : Opened { block := label, indent, role := .arm } false fork first)
    (hsynthetic : label.isSynthetic = true) (hended : Ended meaning' first last)
    (hends : ∀ last, (fork.top.role.collect last).ends = fork.top.role.ends ++ [last])
    (line : Nat) :
    ∃ after, last.close line = .ok after ∧
      after.top = { fork.top with role := fork.top.role.collect last.top.block } ∧
      Forked final (next ++ [label]) (meaning.either meaning') draft after := by
  have hframes : last.frames = last.top :: fork.top :: draft.frames := by
    rw [last.frames_eq, hended.within.below_eq, hopened.top_eq.2, fork.frames_eq, h.below_eq]
  have hrole : last.top.role = .arm := by rw [hended.within.role_eq, hopened.top_eq.1]
  obtain ⟨after, hclose, hframes', hatlas, hsound, hgrows⟩ :=
    close_arm hended.sound hframes hrole (hends _) line
  obtain ⟨htop', hbelow'⟩ := top_of_frames hframes'
  have hlabels : after.top.labels = fork.top.labels ++ [last.top.block] := by
    rw [htop', Frame.labels, hends]
    rfl
  have hkeeps : ∀ {label block}, label ≠ fork.top.block → fork.atlas label = some block →
      after.atlas label = some block := by
    intro label block hlabel hblock
    rw [hatlas]
    exact hopened.keeps hended.within hlabel hblock
  refine ⟨after, hclose, htop', hbelow', hsound, ?_, ?_, ?_, ?_, ?_, ?_⟩
  · intro other hother
    rw [hlabels, List.mem_append, List.mem_singleton] at hother
    rcases hother with hother | rfl
    · exact h.fresh other hother
    · exact h.grows.fresh (hopened.end_fresh hended.within)
  · obtain ⟨block, hblock, hsource⟩ := h.source
    rw [htop']
    exact ⟨block, hblock, hkeeps (h.ne_block hblock) hsource⟩
  · intro other block hother hblock
    exact hkeeps (h.ne_block hblock) (h.others other block hother hblock)
  · intro name hname
    rw [hatlas]
    refine hopened.named hended.within (h.named name hname) ?_
    rintro rfl
    cases hsynthetic
  · rw [htop', hatlas]
    exact hopened.leads hended.within h.block_eq
  · intro atlas target hlater hlead
    rw [htop', hends] at hlead
    have hgrows' := (hopened.grows.trans hended.within.grows).trans hgrows
    refine (h.behaves atlas target (hlater.of_grows hgrows') ?_).snoc (Behaves.enter ?_)
    · intro other hother
      have hmem : other ∈ fork.top.labels := List.mem_cons_of_mem _ hother
      obtain ⟨block, hblock⟩ := h.sound.exists_block (h.labels_subset hmem)
      rw [hlead other (List.mem_append_left _ hother), hblock, hkeeps ?_ hblock]
      rintro rfl
      exact (List.nodup_cons.1 h.sound.top_nodup).1 hother
    · obtain ⟨block, hblock⟩ := hended.sound.exists_top
      refine hopened.behaves hended (hlater.of_grows hgrows) hblock ?_
      rw [hlead _ (List.mem_append_right _ List.mem_cons_self), hatlas, hblock]
      rfl

/-! ## Behind a fork -/

theorem Joined.onward_iff {sources : List Label} {merge : Label}
    (h : Joined sources merge draft draft') {frame : Frame} {rest : List Frame}
    (hbelow : draft.below = frame :: rest) (atlas : Atlas κ) (steps : Nat)
    (records : List (Record κ)) :
    draft'.onward atlas steps records ↔ atlas.TellsIn (steps + 1) merge records := by
  have hblock : draft'.atlas merge = some { label := merge } := by rw [h.atlas_eq, if_pos rfl]
  rw [onward, (h.top_eq hbelow).1, text_eq hblock]
  exact onwardIn_zero atlas merge steps records

/-- Play goes on in the body around. -/
theorem Joined.continue {sources : List Label} {merge : Label} {start : Reading κ}
    (h : Joined sources merge draft draft') {frame : Frame} {rest : List Frame}
    (hbelow : draft.below = frame :: rest) {atlas : Atlas κ}
    (hbehaves : Behaves atlas start meaning (atlas.TellsIn · merge)) :
    Behaves atlas start meaning (draft'.onward atlas) := by
  refine hbehaves.of_next ?_ ?_
  · intro steps records hnext
    exact (h.onward_iff hbelow atlas steps records).2 hnext.succ
  · intro steps records hnext
    exact ⟨steps + 1, (h.onward_iff hbelow atlas steps records).1 hnext⟩

theorem Joined.isOpen {sources : List Label} {merge : Label}
    (h : Joined sources merge draft draft') {frame : Frame} {rest : List Frame}
    (hbelow : draft.below = frame :: rest) (hindent : frame.indent = some margin)
    (hrole : frame.role = .body ∨ frame.role = .arm) : Open margin draft' := by
  obtain ⟨htop, -⟩ := h.top_eq hbelow
  refine ⟨h.sound, by rw [htop, hindent], by rw [htop]; exact hrole, [], ?_⟩
  rw [htop, h.atlas_eq, if_pos rfl]

theorem Forked.within {merge : Label} (h : Forked final next meaning draft fork)
    (hjoined : Joined fork.top.exits merge fork draft') : Within draft draft' := by
  obtain ⟨htop, hbelow⟩ := hjoined.top_eq (h.below_eq.trans draft.frames_eq)
  have hnot : ∀ {label block}, draft.atlas label = some block → label ∉ fork.top.exits := by
    intro label block hblock hmem
    rw [h.fresh label (fork.top.exits_subset hmem)] at hblock
    cases hblock
  refine ⟨hbelow, by rw [htop], Or.inr ?_, ?_, ?_, fun name hname => hjoined.named (h.named name hname)⟩
  · rw [htop]
    exact h.grows.fresh hjoined.fresh
  · intro label block hlabel hblock
    exact hjoined.others (hnot hblock) (h.others label block hlabel hblock)
  · intro block hblock
    obtain ⟨source, hsource, hfork⟩ := h.source
    rw [hblock, Option.some.injEq] at hsource
    subst hsource
    exact ⟨_, hjoined.others (hnot hblock) hfork, by rw [Block.text_exit]⟩

/-- A fork was closed: play enters its block, goes one of the ways from there, and on. -/
theorem Forked.played {merge : Label} {next' : List Label}
    (h : Forked final next meaning draft fork) (hopen : Open margin draft)
    (hjoined : Joined fork.top.exits merge fork draft') (hends : fork.top.role.ends ⊆ fork.top.exits)
    (hblock : draft'.atlas fork.top.block = some { label := fork.top.block, next := next' })
    (hnext : next' ≠ [])
    (hmeaning : ∀ atlas : Atlas κ,
      Behaves atlas (fun steps records => ∃ label ∈ next, atlas.TellsIn steps label records)
        meaning (atlas.TellsIn · merge) →
      Behaves atlas (fun steps records => ∃ label ∈ next', atlas.TellsIn steps label records)
        meaning' (atlas.TellsIn · merge)) :
    Played margin meaning' draft draft' := by
  have hbelow := h.below_eq.trans draft.frames_eq
  refine ⟨h.within hjoined, hjoined.isOpen hbelow hopen.indent_eq hopen.role_eq, ?_⟩
  intro atlas hlater
  have hdone : ∀ {label block}, label ∈ fork.top.labels ∨ label = draft.top.block →
      draft'.atlas label = some block → atlas label = some block :=
    fun hlabel hblock => hlater.eq_of_done hblock
      (hjoined.not_mem_openLabels h.sound hbelow hlabel)
  -- From the block of the fork on.
  have hways : Behaves atlas (atlas.TellsIn · fork.top.block) meaning' (atlas.TellsIn · merge) := by
    have hfork := hdone (Or.inl List.mem_cons_self) hblock
    refine Behaves.enter ?_
    have hstart : (fun steps => atlas.TellsIn (steps + 1) fork.top.block) =
        fun steps records => ∃ label ∈ next', atlas.TellsIn steps label records := by
      funext steps records
      exact propext ((onwardIn_length hfork steps records).trans (after_iff hnext records))
    rw [hstart]
    refine hmeaning atlas (h.behaves atlas merge (hlater.of_grows hjoined.grows) ?_)
    intro label hlabel
    have hmem : label ∈ fork.top.labels := List.mem_cons_of_mem _ hlabel
    obtain ⟨block, hblock⟩ := h.sound.exists_block (h.labels_subset hmem)
    rw [hblock, hdone (Or.inl hmem) (hjoined.source (hends hlabel) hblock)]
    rfl
  -- Up to the block of the fork.
  have hentry : draft.onward atlas = (atlas.TellsIn · fork.top.block) := by
    obtain ⟨block, hblock, hfork⟩ := h.source
    have hnot : draft.top.block ∉ fork.top.exits := by
      intro hmem
      rw [h.fresh _ (fork.top.exits_subset hmem)] at hblock
      cases hblock
    exact hopen.onward_eq hblock (hdone (Or.inr rfl) (hjoined.others hnot hfork))
  rw [hentry]
  exact hjoined.continue hbelow hways

/-- A fork that one of the alternatives is played of. -/
theorem Forked.close_all (h : Forked final next meaning draft fork) (hopen : Open margin draft)
    (hrole : fork.top.role ≠ .arm) (hexits : fork.top.exits = fork.top.role.ends)
    (hnext : next ≠ []) (line : Nat) :
    ∃ after, fork.close line = .ok after ∧ Played margin meaning draft after := by
  have hframes : fork.frames = fork.top :: draft.top :: draft.below := by
    rw [fork.frames_eq, h.below_eq, draft.frames_eq]
  obtain ⟨after, hclose, hjoined⟩ := close_join h.sound hframes hrole line
  refine ⟨after, hclose, h.played hopen hjoined (by rw [hexits]; exact List.Subset.refl _) ?_ hnext
    fun _ hbehaves => hbehaves⟩
  refine hjoined.others ?_ h.block_eq
  rw [hexits]
  exact (List.nodup_cons.1 h.sound.top_nodup).1

/-- A fork that can be skipped. -/
theorem Forked.close_skip (h : Forked final next meaning draft fork) (hopen : Open margin draft)
    (hrole : fork.top.role ≠ .arm)
    (hexits : fork.top.exits = fork.top.role.ends ++ [fork.top.block]) (line : Nat) :
    ∃ after, fork.close line = .ok after ∧ Played margin (meaning.either .skip) draft after := by
  have hframes : fork.frames = fork.top :: draft.top :: draft.below := by
    rw [fork.frames_eq, h.below_eq, draft.frames_eq]
  obtain ⟨after, hclose, hjoined⟩ := close_join h.sound hframes hrole line
  have hmem : fork.top.block ∈ fork.top.exits := by rw [hexits]; simp
  refine ⟨after, hclose, h.played hopen hjoined (by rw [hexits]; exact List.subset_append_left _ _)
    (hjoined.source hmem h.block_eq) (by simp) ?_⟩
  intro atlas hbehaves
  exact hbehaves.snoc (behaves_skip atlas _)

end Draft

end Playthrough
