import Playthrough.Proofs.Draft.Registry
import Playthrough.Proofs.Story.Dangling

/-!
# Jumps to names that are not declared

A jump may refer to a name before it is declared, so it cannot be checked when its line is read. This
is the only thing that is left to check at the end of a script: closing bodies never fails, every
minted exit has its block, and so only a jump to a name that no line declares can lead nowhere.

* `Draft.Logged`: what the moves so far have said about names, seen in the blocks.
* `leads_nowhere_iff`: the exits that lead nowhere.
* `Tidy.feed_eq_selfJump`: only a jump leads from a block to itself.
* `reduce_feedAll_eq_error_iff`: how the story of a script can fail to be reduced.
-/

namespace Playthrough

open Script

variable {κ : Type}

theorem Block.next_exit (target : Label) (final : Bool) (block : Block κ) :
    (block.exit target final).next =
      if block.disabled then block.next else block.next ++ [target] := by
  unfold Block.exit
  split <;> rfl

theorem Block.mem_next_exit {target other : Label} {final : Bool} {block : Block κ} :
    other ∈ (block.exit target final).next ↔
      other ∈ block.next ∨ other = target ∧ block.disabled = false := by
  rw [Block.next_exit]
  cases block.disabled <;> simp

theorem Block.next_close (dead : Bool) (block : Block κ) :
    (block.close dead).next = block.next := by
  unfold Block.close
  split <;> rfl

theorem Block.Revised.next_subset {known : Label → Prop} {block block' : Block κ}
    (h : block.Revised known block') : block.next ⊆ block'.next := by
  cases h with
  | same => exact List.Subset.refl _
  | say record => exact List.Subset.refl _
  | close dead =>
    rw [Block.next_close]
    exact List.Subset.refl _
  | exit target final =>
    rw [Block.next_exit]
    split
    · exact List.Subset.refl _
    · exact List.subset_append_left _ _

namespace Draft

variable {draft draft' : Draft κ} {mentions more : List Mention}

/-! ## What moves say about names -/

/-- What has been said about names: the declared ones have blocks, the exits that jumps gave are
    there, and there are no other exits to names. -/
structure Logged (mentions : List Mention) (draft : Draft κ) : Prop where
  declared : ∀ name, (draft.atlas (.named name)).isSome ↔ .declares name ∈ mentions
  recorded : ∀ source name, .jumps source name ∈ mentions →
    draft.atlas.Leads source (.named name)
  named : ∀ source name, draft.atlas.Leads source (.named name) →
    .declares name ∈ mentions ∨ .jumps source name ∈ mentions

theorem logged_start : Logged [] (start : Draft κ) := by
  have hblock : ∀ label block, (start : Draft κ).atlas label = some block →
      label = .entry ∧ block.next = [] := by
    intro label block hblock
    obtain ⟨hmem, hlabel⟩ := Atlas.label_of_eq_some hblock
    obtain rfl : block = { label := .entry } := List.mem_singleton.1 hmem
    exact ⟨hlabel.symm, rfl⟩
  refine ⟨fun name => ?_, by simp, ?_⟩
  · simp [Atlas.isSome_of_iff, start]
  · rintro source name ⟨block, hsource, hname⟩
    rw [(hblock source block hsource).2] at hname
    cases hname

theorem Allocates.leads_cases {new : Label} {final : Bool} {sources : List Label}
    (h : Allocates new final sources draft draft') {source target : Label}
    (hleads : draft'.atlas.Leads source target) :
    draft.atlas.Leads source target ∨ target = new := by
  obtain ⟨block', hblock', htarget⟩ := hleads
  rw [h.atlas_eq] at hblock'
  split at hblock'
  · cases hblock'
    cases htarget
  · split at hblock'
    · obtain ⟨block, hblock, rfl⟩ := Option.map_eq_some_iff.1 hblock'
      exact (Block.mem_next_exit.1 htarget).imp (fun hmem => ⟨block, hblock, hmem⟩) And.left
    · exact Or.inl ⟨block', hblock', htarget⟩

theorem Changed.leads_cases {change : Block κ → Block κ} (h : Changed change draft draft')
    {source target : Label} (hleads : draft'.atlas.Leads source target) :
    draft.atlas.Leads source target ∨
      ∃ block, source = draft.top.block ∧ draft.atlas draft.top.block = some block ∧
        target ∈ (change block).next := by
  obtain ⟨block', hblock', htarget⟩ := hleads
  rw [h.atlas_eq] at hblock'
  split at hblock'
  · rename_i heq
    obtain ⟨block, hblock, rfl⟩ := Option.map_eq_some_iff.1 hblock'
    exact Or.inr ⟨block, heq, heq ▸ hblock, htarget⟩
  · exact Or.inl ⟨block', hblock', htarget⟩

/-- A change that keeps the exits. -/
theorem Changed.leads_of_next_eq {change : Block κ → Block κ} (h : Changed change draft draft')
    (hnext : ∀ block, (change block).next = block.next) {source target : Label}
    (hleads : draft'.atlas.Leads source target) : draft.atlas.Leads source target := by
  rcases h.leads_cases hleads with hleads | ⟨block, rfl, hblock, htarget⟩
  · exact hleads
  · rw [hnext] at htarget
    exact ⟨block, hblock, htarget⟩

/-- A new exit to a name comes from a header that declares it, or from a jump. -/
theorem Move.named_cases (h : Move draft draft' more) {source : Label} {name : String}
    (hleads : draft'.atlas.Leads source (.named name)) :
    draft.atlas.Leads source (.named name) ∨ .declares name ∈ more ∨ .jumps source name ∈ more := by
  cases h with
  | frames hatlas =>
    rw [hatlas] at hleads
    exact Or.inl hleads
  | fresh h line origin hblock =>
    refine (h.allocates.leads_cases hleads).imp_right fun hnew => ?_
    rw [hblock] at hnew
    cases hnew
  | declare h =>
    refine (h.allocates.leads_cases hleads).imp_right fun hnew => ?_
    cases hnew
    exact Or.inl List.mem_cons_self
  | join h =>
    refine (h.allocates.leads_cases hleads).imp_right fun hnew => ?_
    cases hnew
  | say h => exact Or.inl (h.leads_of_next_eq (fun _ => rfl) hleads)
  | close h => exact Or.inl (h.leads_of_next_eq (Block.next_close _) hleads)
  | jump hblock _ h =>
    rcases h.leads_cases hleads with hleads | ⟨found, rfl, hfound, htarget⟩
    · exact Or.inl hleads
    · obtain rfl := Option.some.inj (hblock.symm.trans hfound)
      rcases Block.mem_next_exit.1 htarget with htarget | ⟨heq, hopen⟩
      · exact Or.inl ⟨_, hblock, htarget⟩
      · cases heq
        rw [hopen]
        exact Or.inr (Or.inr List.mem_cons_self)

/-- A name gets a block from the header that declares it. -/
theorem Move.isSome_named_iff (h : Move draft draft' more) (hsound : Sound draft) {name : String} :
    (draft'.atlas (.named name)).isSome ↔
      (draft.atlas (.named name)).isSome ∨ .declares name ∈ more := by
  have hsame : ((draft'.atlas (.named name)).isSome ↔ (draft.atlas (.named name)).isSome) →
      .declares name ∉ more → ((draft'.atlas (.named name)).isSome ↔
        (draft.atlas (.named name)).isSome ∨ .declares name ∈ more) := by
    intro hiff hnot
    rw [hiff, or_iff_left hnot]
  have hfresh : ∀ {new final sources}, Allocates new final sources draft draft' →
      new ≠ .named name → ((draft'.atlas (.named name)).isSome ↔
        (draft.atlas (.named name)).isSome) := by
    intro new final sources h hne
    refine ⟨fun hsome => (h.isSome_cases hsome).resolve_left hne.symm, ?_⟩
    exact fun hsome => (h.revision hsound _).isSome hsome
  cases h with
  | frames hatlas => exact hsame (by rw [hatlas]) (by simp)
  | fresh h line origin hblock =>
    exact hsame (hfresh h.allocates (by rw [hblock]; simp [nextLabel])) (by simp)
  | @declare other role h =>
    by_cases hname : other = name
    · subst hname
      simp [h.allocates.atlas_eq]
    · exact hsame (hfresh h.allocates (by simpa using hname)) (by simpa using Ne.symm hname)
  | join h => exact hsame (hfresh h.allocates (by simp [nextLabel])) (by simp)
  | say h => exact hsame h.isSome_iff (by simp)
  | close h => exact hsame h.isSome_iff (by simp)
  | jump _ _ h =>
    refine hsame h.isSome_iff ?_
    split <;> simp

/-- The exits that jumps give are there. -/
theorem Move.leads_of_jumps (h : Move draft draft' more) {source : Label} {name : String}
    (hjump : .jumps source name ∈ more) : draft'.atlas.Leads source (.named name) := by
  cases h with
  | frames => cases hjump
  | fresh => cases hjump
  | declare => simp at hjump
  | join => cases hjump
  | say => cases hjump
  | close => cases hjump
  | @jump name' block hblock _ h =>
    -- a closed block takes no exit, and then no jump is mentioned either
    cases hopen : block.disabled with
    | true => simp [hopen] at hjump
    | false =>
      obtain ⟨rfl, rfl⟩ : source = draft.top.block ∧ name = name' := by simpa [hopen] using hjump
      refine ⟨block.exit (.named name) true, ?_, Block.mem_next_exit.2 (Or.inr ⟨rfl, hopen⟩)⟩
      rw [h.atlas_eq, if_pos rfl, hblock]
      rfl

/-- Exits stay. -/
theorem Moves.leads (h : Moves mentions draft draft') (hsound : Sound draft) {source target : Label}
    (hleads : draft.atlas.Leads source target) : draft'.atlas.Leads source target := by
  obtain ⟨block, hblock, htarget⟩ := hleads
  obtain ⟨block', hblock', hsubset⟩ :=
    h.exists_block (R := fun block block' => block.next ⊆ block'.next) (fun _ => List.Subset.refl _)
      List.Subset.trans Block.Revised.next_subset hsound hblock
  exact ⟨block', hblock', hsubset htarget⟩

theorem Logged.move (h : Logged mentions draft) (hsound : Sound draft)
    (hmove : Move draft draft' more) : Logged (mentions ++ more) draft' := by
  refine ⟨fun name => ?_, ?_, ?_⟩
  · rw [hmove.isSome_named_iff hsound, h.declared, List.mem_append]
  · intro source name hjump
    rcases List.mem_append.1 hjump with hjump | hjump
    · exact hmove.moves.leads hsound (h.recorded source name hjump)
    · exact hmove.leads_of_jumps hjump
  · -- a new exit to a name is a jump, or the way into the body that declares the name
    intro source name hleads
    rw [List.mem_append, List.mem_append]
    rcases hmove.named_cases hleads with hleads | hmore | hmore
    · exact (h.named source name hleads).imp Or.inl Or.inl
    · exact Or.inl (Or.inr hmore)
    · exact Or.inr (Or.inr hmore)

theorem Moves.logged (h : Moves more draft draft') (hsound : Sound draft)
    (hlogged : Logged mentions draft) : Logged (mentions ++ more) draft' := by
  induction h with
  | refl => rwa [List.append_nil]
  | tail hmoves hmove ih =>
    rw [← List.append_assoc]
    exact (ih hsound hlogged).move (hmoves.sound hsound) hmove

/-- An exit leads nowhere when it is a jump to a name that is not declared. -/
theorem Logged.leads_nowhere_iff (h : Logged mentions draft) (hfiled : Filed draft)
    {source target : Label} :
    draft.atlas.Leads source target ∧ draft.atlas target = none ↔
      ∃ name, target = .named name ∧ .jumps source name ∈ mentions ∧ .declares name ∉ mentions := by
  constructor
  · rintro ⟨hleads, hnone⟩
    obtain ⟨block, hblock, htarget⟩ := hleads
    have hproper := hfiled source block hblock
    cases target with
    | entry => exact absurd htarget hproper.entry_not_mem
    | synthetic index line origin =>
      have hsome := hproper.known _ htarget rfl
      rw [hnone] at hsome
      cases hsome
    | named name =>
      have hfree : .declares name ∉ mentions := by
        rw [← h.declared, hnone]
        simp
      have hjump := (h.named source name ⟨block, hblock, htarget⟩).resolve_left hfree
      exact ⟨name, rfl, hjump, hfree⟩
  · rintro ⟨name, rfl, hjump, hfree⟩
    rw [← h.declared] at hfree
    exact ⟨h.recorded source name hjump, Option.not_isSome_iff_eq_none.1 hfree⟩

/-! ## Exits of a block to itself -/

theorem qualify_eq_error {name : String} {line : Nat} {fault : Fault κ}
    (h : draft.qualify name line = .error fault) : fault = .noLabelScope line name := by
  unfold qualify at h
  split at h
  · split at h
    · cases h
    · cases h
      rfl
  · cases h

/-- A body can be opened unless its name has been declared. -/
theorem Sound.enter_eq_error (h : Sound draft) {name : String} {line : Nat} {fault : Fault κ}
    (henter : draft.enter (.named name) .body line = .error fault) :
    fault = .duplicateLabel line (.named name) := by
  cases hfind : draft.find? (.named name) with
  | some block =>
    unfold enter at henter
    rw [hfind] at henter
    cases henter
    rfl
  | none =>
    obtain ⟨opened, hopened, -⟩ := h.enter_free hfind line
    rw [hopened] at henter
    cases henter

/-- Opening a body never makes a block lead to itself. -/
theorem Ready.openHeader_ne_selfJump (h : Ready draft) (header : Header) (line place : Nat)
    (label : Label) : draft.openHeader header line ≠ .error (.selfJump place label) := by
  obtain ⟨first, hfirst, -, hready, hchain⟩ := h.closeChain line
  intro hopen
  cases header with
  | label written =>
    rw [Draft.openHeader, hfirst] at hopen
    obtain ⟨hready', -⟩ := hready.declare written
    rcases bind_eq_error.1 hopen with hclose | ⟨_, hclose, hopen⟩
    · cases hclose
    · cases hclose
      rcases bind_eq_error.1 hopen with hqualify | ⟨name, -, henter⟩
      · cases qualify_eq_error hqualify
      · cases hready'.sound.enter_eq_error henter
  | menu =>
    obtain ⟨opened, henter, -⟩ := hready.enterFresh (.menu []) line rfl rfl (by simp)
    rw [Draft.openHeader, hfirst] at hopen
    cases henter.symm.trans hopen
  | condition =>
    obtain ⟨chain, hchain, -, hready', hfork⟩ := hready.openChain hchain line
    obtain ⟨opened, henter, -⟩ := hready'.enterFresh .arm line rfl rfl fun _ => hfork
    rw [Draft.openHeader, hfirst] at hopen
    cases (bind_eq_ok.2 ⟨chain, hchain, henter⟩).symm.trans hopen
  | branch kind =>
    rw [Draft.openHeader] at hopen
    split at hopen
    · rename_i ends skippable hrole
      obtain ⟨hready', hfork, -⟩ := h.branch (kind == .elif) hrole
      obtain ⟨opened, henter, -⟩ := hready'.enterFresh .arm line rfl rfl fun _ => hfork
      cases henter.symm.trans hopen
    · cases hopen
  | plain =>
    obtain ⟨hends, hnochain, harm⟩ := plainRole_spec first.top
    obtain ⟨opened, henter, -⟩ := hready.enterFresh _ line hends hnochain harm
    rw [Draft.openHeader, hfirst] at hopen
    cases henter.symm.trans hopen

/-- Only indentation can be wrong before a statement is carried out. -/
theorem Tidy.align_eq_error (h : Tidy draft) {line : List Char} {number : Nat} {fault : Fault κ}
    (hline : draft.align line number = .error fault) :
    ∃ issue, fault = .indentation number (String.ofList line) issue := by
  unfold Draft.align at hline
  dsimp only at hline
  split at hline
  · cases hestablish : draft.establish line with
    | error issue =>
      rw [hestablish] at hline
      cases hline
      exact ⟨issue, rfl⟩
    | ok aligned =>
      rw [hestablish] at hline
      cases hline
  · obtain ⟨closed, hclosed, -⟩ := h.closeMany number (draft.ended line).length
    rw [hclosed] at hline
    rcases bind_eq_error.1 hline with hclose | ⟨_, _, hline⟩
    · cases hclose
    · split at hline
      · cases hline
      · split at hline
        · cases hline
          exact ⟨_, rfl⟩
        · cases hline
          exact ⟨_, rfl⟩

/-- A line that makes a block lead to itself is a jump. -/
theorem Tidy.feed_eq_selfJump (h : Tidy draft) {reader : LineReader κ} {line : String}
    {number place : Nat} {label : Label}
    (hfeed : draft.feed reader line number = .error (.selfJump place label)) :
    ∃ aligned rest target ready,
      { draft with lastLine := number }.align line.toList number = .ok (aligned, rest) ∧
      statement (String.ofList rest) = .jump target ∧ aligned.closeChain number = .ok ready ∧
      ready.jump target number = .error (.selfJump place label) := by
  have hmarked := h.mark_line number
  unfold Draft.feed at hfeed
  dsimp only at hfeed
  split at hfeed
  · cases hfeed
  · rcases bind_eq_error.1 hfeed with halign | ⟨⟨aligned, rest⟩, halign, hobey⟩
    · obtain ⟨issue, hissue⟩ := hmarked.align_eq_error halign
      cases hissue
    · obtain ⟨hready, -⟩ := hmarked.align halign
      obtain ⟨ready, hclose, -⟩ := hready.closeChain number
      refine ⟨aligned, rest, ?_⟩
      dsimp only at hobey
      cases hstatement : statement (String.ofList rest) with
      | header header =>
        rw [hstatement] at hobey
        exact absurd hobey (hready.openHeader_ne_selfJump header number place label)
      | jump target =>
        rw [hstatement, obey, hclose] at hobey
        exact ⟨target, ready, halign, rfl, hclose, hobey⟩
      | terminate dead =>
        rw [hstatement, obey, hclose] at hobey
        cases hobey
      | content text =>
        rw [hstatement, obey, hclose] at hobey
        cases hreader : reader text with
        | none =>
          rw [hreader] at hobey
          cases hobey
        | some record =>
          rw [hreader] at hobey
          cases hobey

/-! ## Scripts -/

/-- No two blocks of a draft become one block of its story. -/
theorem Sound.size_story (h : Sound draft) :
    (StoryGraph.ofBlocks draft.blocks).size = draft.blocks.length := by
  have hnodup := (StoryGraph.ofBlocks draft.blocks).nodup_labels.of_map
  refine ((List.perm_ext_iff_of_nodup hnodup h.nodup.of_map).2 fun block => ?_).length_eq
  rw [StoryGraph.mem_blocks_iff, h.atlas_story, Atlas.of_eq_some_iff h.nodup, and_iff_left rfl]

/-- Play can run into a jump to a name that is declared nowhere. -/
structure StrayJump (story : StoryGraph κ) (mentions : List Mention) (source : Label)
    (name : String) : Prop where
  reached : story.atlas.Reaches .entry source
  jumps : .jumps source name ∈ mentions
  undeclared : .declares name ∉ mentions

/-- The exploration of a story fails at a stray jump, and only there. -/
theorem Logged.reachable_eq_error {story : StoryGraph κ} (h : Logged mentions draft)
    (hfiled : Filed draft) (hatlas : story.atlas = draft.atlas) {fault : Fault κ}
    (hfault : story.reachable = .error fault) :
    ∃ source name, StrayJump story mentions source name ∧
      fault = .danglingEdge source (.named name) := by
  obtain ⟨source, target, rfl, hreach, hleads, hnone⟩ := StoryGraph.reachable_eq_error hfault
  rw [hatlas] at hleads hnone
  obtain ⟨name, rfl, hjump, hfree⟩ := (h.leads_nowhere_iff hfiled).1 ⟨hleads, hnone⟩
  exact ⟨source, name, ⟨hreach, hjump, hfree⟩, rfl⟩

theorem Logged.exists_error {story : StoryGraph κ} (h : Logged mentions draft)
    (hfiled : Filed draft) (hatlas : story.atlas = draft.atlas) {source : Label} {name : String}
    (hstray : StrayJump story mentions source name) : ∃ fault, story.reachable = .error fault := by
  cases hrun : story.reachable with
  | error fault => exact ⟨fault, rfl⟩
  | ok reached =>
    obtain ⟨hleads, hnone⟩ :=
      (h.leads_nowhere_iff hfiled).2 ⟨name, rfl, hstray.jumps, hstray.undeclared⟩
    rw [← hatlas] at hleads hnone
    have hsome := StoryGraph.isSome_of_reachable hrun (hstray.reached.tail hleads)
    rw [hnone] at hsome
    cases hsome

/-- **What can fail at the end of a script.** Once all lines of a script have been read, closing its
    bodies succeeds and keeps all blocks apart. If costs are finite, the story can then be reduced
    unless play can run into a jump to a name that no header of the script declares, and the fault
    names such a jump. Opening and closing bodies never makes a block lead to itself, and the joined
    story can always be explored again. -/
theorem reduce_feedAll_eq_error_iff [FiniteCheck κ] {reader : LineReader κ}
    {lines : List (String × Nat)} (h : start.feedAll reader lines = .ok draft) :
    (∃ closed story, draft.closeMany draft.lastLine draft.stack.length = .ok closed ∧
      draft.finish = .ok story ∧ story.size = closed.blocks.length ∧
      (∀ tally : Tally κ, (∀ records, FiniteCheck.isFinite (tally records).total = true) →
        ((∃ fault, story.reduce tally = .error fault) ↔
          ∃ source name, StrayJump story (start.mentions reader lines) source name) ∧
        ∀ fault, story.reduce tally = .error fault →
          ∃ source name, StrayJump story (start.mentions reader lines) source name ∧
            fault = .danglingEdge source (.named name)) ∧
      ∀ joined, story.joined = .ok joined → ∃ incoming, joined.incoming = .ok incoming) ∧
    ∀ line number place label,
      draft.feed reader line number = .error (.selfJump place label) →
      ∃ aligned rest target ready,
        { draft with lastLine := number }.align line.toList number = .ok (aligned, rest) ∧
        statement (String.ofList rest) = .jump target ∧ aligned.closeChain number = .ok ready ∧
        ready.jump target number = .error (.selfJump place label) := by
  obtain ⟨htidy, hmoves⟩ := tidy_start.feedAll h
  obtain ⟨closed, hclosed, hfinish, hclosing, hsound⟩ := htidy.finish
  have hall := hmoves.trans hclosing
  have hfiled := hall.filed sound_start filed_start
  have hlogged := hall.logged sound_start logged_start
  rw [List.nil_append, List.append_nil] at hlogged
  refine ⟨⟨closed, _, hclosed, hfinish, hsound.size_story, fun tally hfinite => ?_,
    fun joined => StoryGraph.exists_incoming_joined⟩, fun _ _ _ _ => htidy.feed_eq_selfJump⟩
  simp only [StoryGraph.reduce_eq_error_iff hfinite]
  refine ⟨⟨?_, ?_⟩, fun fault => hlogged.reachable_eq_error hfiled hsound.atlas_story⟩
  · rintro ⟨fault, hfault⟩
    obtain ⟨source, name, hstray, -⟩ :=
      hlogged.reachable_eq_error hfiled hsound.atlas_story hfault
    exact ⟨source, name, hstray⟩
  · rintro ⟨source, name, hstray⟩
    exact hlogged.exists_error hfiled hsound.atlas_story hstray

/-- Two jumps to names that are not declared yet; the second one never is. -/
def roadLines : List String :=
  ["label road:",
   "  menu:",
   "    \"north\":",
   "      jump hill",
   "    \"south\":",
   "      jump lake",
   "label hill:",
   "  jump road"]

/-- The blocks of the script `roadLines`. -/
def roadBlocks : List (Block Rat) :=
  [{ label := .entry, next := [.named "road"] },
   { label := .named "hill", next := [.named "road"], disabled := true },
   { label := .named "road", next := [.synthetic 0 2 .scope] },
   { label := .synthetic 0 2 .scope, next := [.synthetic 1 3 .scope, .synthetic 2 5 .scope] },
   { label := .synthetic 1 3 .scope, next := [.named "hill"], disabled := true },
   { label := .synthetic 2 5 .scope, next := [.named "lake"], disabled := true },
   { label := .synthetic 3 7 .merge, next := [.synthetic 4 7 .merge] },
   { label := .synthetic 4 7 .merge, next := [.named "hill"] },
   { label := .synthetic 5 8 .merge }]

theorem read_road :
    (do
      let draft ← (start : Draft Rat).feedAll LineReader.scenes (roadLines.zipIdx 1)
      let closed ← draft.closeMany draft.lastLine draft.stack.length
      return (StoryGraph.ofBlocks closed.blocks).blocks) = Except.ok roadBlocks := by
  decide +kernel

/-- The road to the lake leads nowhere, and nothing else is wrong with it. -/
theorem reduce_feedAll_eq_error_iff_road :
    ∃ (draft : Draft Rat) (story : StoryGraph Rat),
      start.feedAll LineReader.scenes (roadLines.zipIdx 1) = .ok draft ∧
      draft.finish = .ok story ∧ story.blocks = roadBlocks ∧
      StrayJump story ((start : Draft Rat).mentions LineReader.scenes (roadLines.zipIdx 1))
        (.synthetic 2 5 .scope) "lake" ∧
      ∃ fault, story.reduce Tally.count = .error fault := by
  obtain ⟨draft, hdraft, hrest⟩ := bind_eq_ok.1 read_road
  obtain ⟨closed, hclosed, hblocks⟩ := bind_eq_ok.1 hrest
  have hblocks : (StoryGraph.ofBlocks closed.blocks).blocks = roadBlocks := Except.ok.inj hblocks
  obtain ⟨⟨-, story, -, hfinish, -, hreduce, -⟩, -⟩ := reduce_feedAll_eq_error_iff hdraft
  have hclose : draft.finish = .ok (StoryGraph.ofBlocks closed.blocks) :=
    bind_eq_ok.2 ⟨closed, hclosed, rfl⟩
  obtain rfl := Except.ok.inj (hfinish.symm.trans hclose)
  have hstray : StrayJump (StoryGraph.ofBlocks closed.blocks)
      ((start : Draft Rat).mentions LineReader.scenes (roadLines.zipIdx 1))
      (.synthetic 2 5 .scope) "lake" := by
    refine ⟨?_, by decide +kernel, by decide +kernel⟩
    rw [StoryGraph.atlas, hblocks]
    have hroad : (Atlas.of roadBlocks).Leads .entry (.named "road") :=
      ⟨_, rfl, List.mem_cons_self⟩
    have hmenu : (Atlas.of roadBlocks).Leads (.named "road") (.synthetic 0 2 .scope) :=
      ⟨_, rfl, List.mem_cons_self⟩
    have hsouth : (Atlas.of roadBlocks).Leads (.synthetic 0 2 .scope) (.synthetic 2 5 .scope) :=
      ⟨_, rfl, List.mem_cons_of_mem _ List.mem_cons_self⟩
    exact .tail (.tail (.single hroad) hmenu) hsouth
  exact ⟨draft, _, hdraft, hfinish, hblocks, hstray,
    (hreduce Tally.count fun _ => rfl).1.2 ⟨_, _, hstray⟩⟩

end Draft

end Playthrough
