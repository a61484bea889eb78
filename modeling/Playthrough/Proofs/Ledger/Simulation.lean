import Playthrough.Draft.Finish
import Playthrough.Proofs.Ledger.Basic
import Playthrough.Proofs.Story.Joined

/-!
# A ledger does what its draft does

Every step of a ledger in order leaves it in order, and does to the draft that it stands for what the
same step of the draft does. So a script can be read into a ledger or into a draft: the same lines
are refused for the same reasons, and the story is the same.

* `Agrees`: computations that fail alike or return related results.
* `Booked.close`, `Booked.align`, `Booked.openHeader`, `Booked.obey`: the steps, one by one.
* `Booked.feedAll`, `Ledger.feedAll_draft`: the lines of a script.
* `Booked.finish`: the story.
-/

namespace Playthrough

open Script Text

variable {κ : Type}

/-! ## Related computations -/

/-- Two computations fail with the same fault or return related results. -/
inductive Agrees {ε α β : Type} (R : α → β → Prop) : Except ε α → Except ε β → Prop
  | error (fault : ε) : Agrees R (.error fault) (.error fault)
  | ok {value : α} {value' : β} (h : R value value') : Agrees R (.ok value) (.ok value')

namespace Agrees

variable {ε α β γ δ : Type} {R : α → β → Prop} {S : γ → δ → Prop} {x : Except ε α} {y : Except ε β}

theorem bind {f : α → Except ε γ} {g : β → Except ε δ} (h : Agrees R x y)
    (hrest : ∀ value value', R value value' → Agrees S (f value) (g value')) :
    Agrees S (x >>= f) (y >>= g) := by
  cases h with
  | error fault => exact .error fault
  | ok h => exact hrest _ _ h

theorem imp {S : α → β → Prop} (h : Agrees R x y)
    (hrest : ∀ value value', R value value' → S value value') : Agrees S x y := by
  cases h with
  | error fault => exact .error fault
  | ok h => exact .ok (hrest _ _ h)

theorem exists_of_ok {value : α} (h : Agrees R x y) (hx : x = .ok value) :
    ∃ value', y = .ok value' ∧ R value value' := by
  cases h with
  | error fault => cases hx
  | ok h =>
    cases hx
    exact ⟨_, rfl, h⟩

theorem bind_eq {f : α → Except ε γ} {g : β → Except ε γ} (h : Agrees R x y)
    (hrest : ∀ value value', R value value' → f value = g value') : x >>= f = y >>= g := by
  cases h with
  | error fault => rfl
  | ok h => exact hrest _ _ h

theorem map_eq {f : α → β} (h : Agrees R x y)
    (hrest : ∀ value value', R value value' → f value = value') : x.map f = y := by
  cases h with
  | error fault => rfl
  | ok h => exact congrArg Except.ok (hrest _ _ h)

end Agrees

namespace Ledger

variable {ledger : Ledger κ} {label : Label}

/-- The ledger is in order and stands for the draft. -/
def Depicts (ledger : Ledger κ) (draft : Draft κ) : Prop := Booked ledger ∧ ledger.draft = draft

/-- What the lines of the open bodies start with. -/
def margins (ledger : Ledger κ) : List (List Char) := ledger.stack.map OpenBody.margin

theorem margins_modifyTop {change : OpenBody → OpenBody}
    (hchange : ∀ body, (change body).indent = body.indent) (ledger : Ledger κ) :
    (ledger.modifyTop change).margins = ledger.margins := by
  unfold margins modifyTop
  split
  · rfl
  · rename_i hstack
    simp [hstack, OpenBody.margin, hchange]

theorem booked_start : Booked (start : Ledger κ) where
  entry_mem := List.mem_singleton.2 rfl
  nodup := List.nodup_singleton _
  minted := by
    intro label hlabel index line origin heq
    obtain rfl : label = .entry := List.mem_singleton.1 hlabel
    cases heq
  keys_nodup := List.nodup_singleton _
  lookup_iff := by
    intro label block
    show List.lookup label [(Label.entry, 0)] = some block ↔ [Label.entry][block]? = some label
    rw [Table.lookup_cons_eq_ite, List.getElem?_singleton]
    by_cases hlabel : label = .entry <;> by_cases hblock : block = 0 <;>
      simp [hlabel, hblock, eq_comm]
  current := by
    intro body hbody
    obtain rfl := List.mem_singleton.1 hbody
    exact Nat.zero_lt_one
  collected := fun ends hends => absurd hends List.not_mem_nil
  holding := .root rfl rfl

theorem draft_start : (start : Ledger κ).draft = .start := rfl

/-- The innermost body changes in both in the same way. -/
theorem Booked.depicts_modifyTop (h : Booked ledger) (change : OpenBody → OpenBody)
    (change' : Frame → Frame) (hblock : (change ledger.top).block < ledger.nextBlock)
    (hforking : (change ledger.top).forking = .plain ↔ ledger.top.forking = .plain)
    (harms : (change ledger.top).arms = ledger.top.arms)
    (hframe : ledger.frame (change ledger.top) = change' (ledger.frame ledger.top)) :
    Depicts (ledger.modifyTop change) (ledger.draft.modifyTop change') :=
  ⟨h.modifyTop hblock hforking harms, draft_modifyTop hframe⟩

/-! ## Links -/

theorem Booked.link (h : Booked ledger) {source : Nat} (hsource : source < ledger.nextBlock)
    (target : Label) (final : Bool) (line : Nat) :
    Agrees (fun linked draft => Rewired ledger linked ∧ linked.draft = draft)
      (ledger.link source target final line)
      (ledger.draft.link (ledger.labelOf source) target final line) := by
  unfold Ledger.link Draft.link
  simp only [label?_eq, labels_getElem? hsource, Option.some_inj]
  split
  · exact .error _
  · have hlabel : ∀ block : Block κ, (block.exit target final).label = block.label :=
      Block.label_exit target final
    exact .ok ⟨rewired_modify hlabel source ledger, h.draft_modify hlabel hsource⟩

theorem Booked.link_all (h : Booked ledger) {sources : List Nat}
    (hsources : ∀ source ∈ sources, source < ledger.nextBlock) (target : Label) (line : Nat) :
    Agrees (fun linked draft => Rewired ledger linked ∧ linked.draft = draft)
      (sources.foldlM (fun ledger source => ledger.link source target false line) ledger)
      ((sources.map ledger.labelOf).foldlM
        (fun draft source => draft.link source target false line) ledger.draft) := by
  induction sources generalizing ledger with
  | nil => exact .ok ⟨.refl ledger, rfl⟩
  | cons source sources ih =>
    obtain ⟨hsource, hsources⟩ := List.forall_mem_cons.1 hsources
    refine (h.link hsource target false line).bind ?_
    rintro linked _ ⟨hlinked, rfl⟩
    rw [← hlinked.labelOf_eq]
    refine (ih (hlinked.booked h) (hlinked.nextBlock_eq ▸ hsources)).imp ?_
    rintro last draft ⟨hlast, hdraft⟩
    exact ⟨hlinked.trans hlast, hdraft⟩

theorem Booked.nextLabel_not_mem (h : Booked ledger) (origin : Origin) (line : Nat) :
    ledger.nextLabel origin line ∉ ledger.labels :=
  fun hmem => Nat.lt_irrefl _ (h.minted _ hmem _ _ _ rfl)

theorem mintedBefore_nextLabel (origin : Origin) (line : Nat) (ledger : Ledger κ) :
    (ledger.nextLabel origin line).MintedBefore ledger.countMint.minted := by
  intro index line' origin' heq
  cases heq
  exact Nat.lt_succ_self _

/-- A block can be allocated for a label that has none, whichever exits were added before. -/
theorem Booked.allocate_rewired (h : Booked ledger) {linked : Ledger κ}
    (hlinked : Rewired ledger linked) (hnew : label ∉ ledger.labels)
    (hminted : label.MintedBefore ledger.minted) : Booked (linked.allocate label) := by
  refine (hlinked.booked h).allocate (hlinked.labels_eq ▸ hnew) ?_
  obtain ⟨-⟩ := hlinked
  exact hminted

/-! ## Closing bodies -/

theorem Booked.join (h : Booked ledger) {sources : List Nat}
    (hsources : ∀ source ∈ sources, source < ledger.nextBlock) (line : Nat) :
    Agrees (fun joined draft => Depicts joined draft ∧ joined.margins = ledger.margins)
      (ledger.join sources line) (ledger.draft.join (sources.map ledger.labelOf) line) := by
  have hmerge := h.nextLabel_not_mem .merge line
  have hminted := mintedBefore_nextLabel .merge line ledger
  refine (h.countMint.link_all hsources (ledger.nextLabel .merge line) line).bind ?_
  rintro linked _ ⟨hlinked, rfl⟩
  have hallocated := h.countMint.allocate_rewired hlinked hmerge hminted
  rw [← (hlinked.booked h.countMint).draft_allocate]
  refine .ok ⟨hallocated.depicts_modifyTop _ _ ?_ Iff.rfl rfl ?_, ?_⟩
  · rw [nextBlock_allocate]
    exact Nat.lt_succ_self _
  · unfold frame
    dsimp only
    rw [labelOf_nextBlock]
    rfl
  · rw [margins_modifyTop]
    · obtain ⟨-⟩ := hlinked
      rfl
    · exact fun _ => rfl

/-- The bodies around the innermost one are in order without it. -/
theorem Booked.pop (h : Booked ledger) {body : OpenBody} {stack : List OpenBody}
    (hstack : ledger.stack = body :: stack) : Booked { ledger with stack } := by
  have hbodies : ledger.bodies = body :: (stack ++ [ledger.root]) := by rw [bodies, hstack]; rfl
  have hcurrent := h.current
  have hholding := h.holding
  rw [hbodies] at hcurrent hholding
  exact { h with
    current := (List.forall_mem_cons.1 hcurrent).2
    holding := hholding.tail (by simp) }

/-- An alternative leaves its end with the fork that it stands in, and with no other. -/
theorem draft_leave {arms block : Nat} (howns : ledger.top.Owns arms)
    (hcount : arms < ledger.nextArms) (hfree : ∀ other ∈ ledger.bodies.tail, ¬ other.Owns arms) :
    ({ ledger with arms := ledger.arms.modify arms (· ++ [block]) } : Ledger κ).draft =
      ledger.draft.modifyTop fun frame =>
        { frame with role := frame.role.collect (ledger.labelOf block) } := by
  refine draft_eq_modifyTop rfl rfl rfl ?_
  refine (congrArg _ ledger.bodies_eq).trans ?_
  rw [List.map_cons]
  congr 1
  · -- the innermost body owns the collection, so it gains an end
    have hends : ({ ledger with arms := ledger.arms.modify arms (· ++ [block]) } :
        Ledger κ).collected (some arms) = ledger.collected (some arms) ++ [block] := by
      have hcount : arms < ledger.arms.length := hcount
      simp [Ledger.collected, hcount]
    have hrole : ledger.top.role ((ledger.collected ledger.top.arms ++ [block]).map ledger.labelOf) =
        (ledger.frame ledger.top).role.collect (ledger.labelOf block) := by
      rw [List.map_append, List.map_singleton, ← OpenBody.role_collect howns.1]
      rfl
    rw [← hrole, howns.2, ← hends, ← howns.2]
    rfl
  · refine List.map_congr_left fun other hother => frame_of_not_owns fun number hnumber => ?_
    have hne : arms ≠ number := by
      rintro rfl
      exact hfree other hother hnumber
    simp [hne]

theorem Booked.leave (h : Booked ledger) {arms block : Nat} (hblock : block < ledger.nextBlock) :
    Booked { ledger with arms := ledger.arms.modify arms (· ++ [block]) } := by
  have hcollected : ∀ ends ∈ ledger.arms.modify arms (· ++ [block]), ∀ other ∈ ends,
      other < ledger.nextBlock := by
    intro ends hends other hother
    obtain ⟨number, hnumber⟩ := List.getElem?_of_mem hends
    rw [List.getElem?_modify] at hnumber
    obtain ⟨old, hold, rfl⟩ := Option.map_eq_some_iff.1 hnumber
    have hold := h.collected old (List.mem_of_getElem? hold)
    split at hother
    · rcases List.mem_append.1 hother with hother | hother
      · exact hold other hother
      · obtain rfl := List.mem_singleton.1 hother
        exact hblock
    · exact hold other hother
  have hlength : nextArms { ledger with arms := ledger.arms.modify arms (· ++ [block]) } =
      ledger.nextArms := List.length_modify ..
  exact { h with collected := hcollected, holding := hlength ▸ h.holding }

/-- An alternative of the ledger's innermost body closes. -/
theorem Booked.depicts_leave (h : Booked ledger) {body : OpenBody} {arms : Nat}
    (hblock : body.block < ledger.nextBlock)
    (hholding : Holding ledger.nextArms (body :: ledger.bodies)) (hplain : body.forking = .plain)
    (harms : body.arms = some arms) :
    Depicts { ledger with arms := ledger.arms.modify arms (· ++ [body.block]) }
      (ledger.draft.modifyTop fun fork =>
        { fork with role := fork.role.collect (ledger.labelOf body.block) }) := by
  obtain ⟨fork, others, hbodies, howns⟩ := hholding.exists_fork hplain harms
  have hrest := h.holding
  rw [hbodies] at hrest
  rw [bodies_eq, List.cons.injEq] at hbodies
  refine ⟨h.leave hblock, draft_leave ?_ (hrest.lt_of_owns List.mem_cons_self howns) ?_⟩
  · rw [hbodies.1]
    exact howns
  · rw [hbodies.2]
    exact hrest.free_of_owns howns

/-- A fork in the ledger's innermost body closes: nobody else refers to its collection. -/
theorem Booked.join_fork (h : Booked ledger) {body : OpenBody}
    (hblock : body.block < ledger.nextBlock)
    (hholding : Holding ledger.nextArms (body :: ledger.bodies)) (hfork : body.forking ≠ .plain)
    (line : Nat) :
    Agrees (fun closed draft => Depicts closed draft ∧ closed.margins = ledger.margins)
      ((ledger.clearArms body.arms).join
        (if body.forking = .chain true then ledger.collected body.arms ++ [body.block]
          else ledger.collected body.arms) line)
      (ledger.draft.join (if body.forking = .chain true
        then (ledger.collected body.arms).map ledger.labelOf ++ [ledger.labelOf body.block]
        else (ledger.collected body.arms).map ledger.labelOf) line) := by
  obtain ⟨arms, howns⟩ := hholding.exists_owns hfork
  have hdraft := draft_clearArms (hholding.free_of_owns howns)
  have hends : ∀ block ∈ ledger.collected body.arms, block < ledger.nextBlock :=
    fun _ => h.lt_of_collected
  rw [howns.2] at hends ⊢
  have hsources : ∀ source ∈ (if body.forking = .chain true
      then ledger.collected (some arms) ++ [body.block] else ledger.collected (some arms)),
      source < ledger.nextBlock := by
    split
    · exact List.forall_mem_append.2 ⟨hends, List.forall_mem_singleton.2 hblock⟩
    · exact hends
  have hjoin := (h.clearArms arms).join hsources line
  rw [hdraft, apply_ite (List.map _), List.map_append] at hjoin
  exact hjoin

/-- **Closing.** The innermost body closes as that of the draft does. -/
theorem Booked.close (h : Booked ledger) (line : Nat) :
    Agrees (fun closed draft => Depicts closed draft ∧ closed.margins = ledger.margins.tail)
      (ledger.close line) (ledger.draft.close line) := by
  unfold Ledger.close Draft.close
  cases hstack : ledger.stack with
  | nil =>
    have hdraft : ledger.draft.stack = [] := by rw [draft, hstack]; rfl
    rw [hdraft]
    exact .ok ⟨⟨h, rfl⟩, by rw [margins, hstack]; rfl⟩
  | cons body stack =>
    have hdraft : ledger.draft.stack = ledger.frame body :: stack.map ledger.frame := by
      rw [draft, hstack]
      rfl
    have hmargins : ledger.margins.tail = ({ ledger with stack } : Ledger κ).margins := by
      rw [margins, hstack]
      rfl
    have hholding : Holding ledger.nextArms (body :: ({ ledger with stack } : Ledger κ).bodies) := by
      have hholding := h.holding
      rwa [bodies, hstack] at hholding
    have hblock : body.block < ledger.nextBlock :=
      h.current body (List.mem_append_left _ (hstack ▸ List.mem_cons_self))
    have hpop := h.pop hstack
    have hframe : (ledger.frame body).role =
        body.role ((ledger.collected body.arms).map ledger.labelOf) := rfl
    rw [hdraft, hmargins]
    cases hforking : body.forking with
    | plain =>
      cases harms : body.arms with
      | none =>
        simp only [hframe, OpenBody.role, hforking, harms]
        exact hpop.join (List.forall_mem_singleton.2 hblock) line
      | some arms =>
        simp only [hframe, OpenBody.role, hforking, harms]
        exact .ok ⟨hpop.depicts_leave hblock hholding hforking harms, rfl⟩
    | menu =>
      have hjoin := hpop.join_fork hblock hholding (by simp [hforking]) line
      simp only [hforking, reduceCtorEq, if_false] at hjoin
      simp only [hframe, OpenBody.role, hforking, reduceCtorEq, if_false]
      exact hjoin
    | chain skippable =>
      have hjoin := hpop.join_fork hblock hholding (by simp [hforking]) line
      simp only [hforking, Forking.chain.injEq] at hjoin
      simp only [hframe, OpenBody.role, hforking, Forking.chain.injEq]
      exact hjoin

theorem Booked.closeChain (h : Booked ledger) (line : Nat) :
    Agrees Depicts (ledger.closeChain line) (ledger.draft.closeChain line) := by
  unfold Ledger.closeChain Draft.closeChain
  rw [top_draft]
  have hframe : (ledger.frame ledger.top).role =
      ledger.top.role ((ledger.collected ledger.top.arms).map ledger.labelOf) := rfl
  cases hforking : ledger.top.forking with
  | plain =>
    cases harms : ledger.top.arms <;>
      simpa only [hframe, OpenBody.role, hforking, harms] using .ok ⟨h, rfl⟩
  | menu => simpa only [hframe, OpenBody.role, hforking] using .ok ⟨h, rfl⟩
  | chain skippable =>
    simp only [hframe, OpenBody.role, hforking]
    exact (h.close line).imp fun _ _ hclosed => hclosed.1

/-- Bodies close one after the other as long as their indentation asks for it, and all those in the
    draft at once. -/
theorem Booked.closeWhile (h : Booked ledger) (test : List Char → Bool) (line : Nat) :
    Agrees Depicts (ledger.closeWhile (test ·.margin) line ledger.stack.length)
      (ledger.draft.closeMany line (ledger.margins.takeWhile test).length) := by
  have hlength : ledger.stack.length = ledger.margins.length := (List.length_map _).symm
  rw [hlength]
  generalize hmargins : ledger.margins = margins
  induction margins generalizing ledger with
  | nil => exact .ok ⟨h, rfl⟩
  | cons margin margins ih =>
    have htop : ledger.top.margin = margin := by
      unfold Ledger.margins at hmargins
      cases hstack : ledger.stack with
      | nil => simp [hstack] at hmargins
      | cons body stack =>
        rw [hstack, List.map_cons, List.cons.injEq] at hmargins
        rw [top, hstack]
        exact hmargins.1
    rw [List.length_cons, Ledger.closeWhile, htop, List.takeWhile_cons]
    split
    · refine (h.close line).bind ?_
      rintro closed _ ⟨⟨hclosed, rfl⟩, htail⟩
      rw [hmargins, List.tail_cons] at htail
      exact ih hclosed ((List.length_map _).symm) htail
    · exact .ok ⟨h, rfl⟩

/-! ## Indentation -/

/-- The outcome of an aligned line: the ledger and its draft, and what is left of the line. -/
def Aligned (first : Ledger κ × List Char) (second : Draft κ × List Char) : Prop :=
  Depicts first.1 second.1 ∧ first.2 = second.2

theorem enclosing_draft (ledger : Ledger κ) :
    ledger.draft.enclosing = ledger.frame ledger.enclosing := by
  unfold Draft.enclosing enclosing draft
  rw [← List.map_tail]
  cases ledger.stack.tail <;> rfl

theorem Booked.establish (h : Booked ledger) (line : List Char) (fail : IndentFault → Fault κ) :
    Agrees Aligned ((ledger.establish line).mapError fail)
      ((ledger.draft.establish line).mapError fail) := by
  unfold Ledger.establish Draft.establish
  have hmargin : (ledger.frame ledger.enclosing).margin = ledger.enclosing.margin := rfl
  rw [enclosing_draft, hmargin]
  dsimp only
  cases ledger.enclosing.margin.isPrefixOf? line with
  | none => exact .error _
  | some rest =>
    dsimp only
    split
    · exact .error _
    · have hblock := h.current ledger.top ledger.top_mem
      refine .ok ⟨?_, rfl⟩
      dsimp only
      exact h.depicts_modifyTop _ _ hblock Iff.rfl rfl rfl

theorem Booked.align (h : Booked ledger) (line : List Char) (number : Nat) :
    Agrees Aligned (ledger.align line number) (ledger.draft.align line number) := by
  unfold Ledger.align Draft.align
  rw [top_draft]
  cases hindent : ledger.top.indent with
  | none => simpa only [frame, hindent] using h.establish line _
  | some indent =>
    have hended : (ledger.draft.ended line).length =
        (ledger.margins.takeWhile (!·.isPrefixOf line)).length := by
      rw [Draft.ended, draft, margins, List.takeWhile_map, List.takeWhile_map, List.length_map,
        List.length_map]
      rfl
    simp only [frame, hindent]
    rw [hended]
    refine (h.closeWhile (!·.isPrefixOf line) number).bind ?_
    rintro closed _ ⟨hclosed, rfl⟩
    have hmargin : closed.draft.top.margin = closed.top.margin := by
      rw [top_draft]
      rfl
    have hempty : closed.draft.stack.isEmpty = closed.stack.isEmpty := List.isEmpty_map ..
    rw [hmargin, hempty]
    split
    · exact .ok ⟨⟨hclosed, rfl⟩, rfl⟩
    · split
      · exact .error _
      · exact .error _

/-! ## Opening bodies -/

theorem scope?_draft (ledger : Ledger κ) : ledger.draft.scope? = ledger.scope? := by
  show ledger.draft.frames.findSome? _ = _
  rw [frames_draft, List.findSome?_map]
  rfl

theorem qualify_draft (name : String) (line : Nat) (ledger : Ledger κ) :
    ledger.draft.qualify name line = ledger.qualify name line := by
  have hscope := scope?_draft ledger
  cases hsome : ledger.scope? <;> simp only [Draft.qualify, qualify, hscope, hsome]

theorem Booked.declare (h : Booked ledger) (name : String) :
    Depicts (ledger.declare name) (ledger.draft.declare name) := by
  unfold Ledger.declare Draft.declare
  split
  · exact ⟨h, rfl⟩
  · have hblock := h.current ledger.top ledger.top_mem
    exact h.depicts_modifyTop _ _ hblock Iff.rfl rfl rfl

/-- The index knows the labels that have a block. -/
theorem Booked.isSome_lookup_iff (h : Booked ledger) (label : Label) :
    (ledger.index.lookup label).isSome ↔ label ∈ ledger.labels := by
  rw [Option.isSome_iff_exists, List.mem_iff_getElem?]
  exact exists_congr fun block => h.lookup_iff label block

/-- The index is right about which labels are taken. -/
theorem Booked.isSome_find?_draft (h : Booked ledger) (label : Label) :
    (ledger.draft.find? label).isSome ↔ (ledger.index.lookup label).isSome := by
  rw [h.isSome_lookup_iff, Draft.find?, List.find?_isSome, labels, List.mem_map]
  simp [draft]

theorem Booked.enter (h : Booked ledger) {forking : Forking} {arms : Option Nat} {role : Role}
    (hminted : label.MintedBefore ledger.minted)
    (hrole : ∀ block, (ledger.frame { block, forking, arms }).role = role)
    (hholding : ∀ block, Holding ledger.nextArms ({ block, forking, arms } :: ledger.bodies))
    (line : Nat) :
    Agrees Depicts (ledger.enter label forking arms line) (ledger.draft.enter label role line) := by
  unfold Ledger.enter Draft.enter
  simp only [h.isSome_find?_draft]
  split
  · exact .error _
  · rename_i hnew
    rw [h.isSome_lookup_iff] at hnew
    rw [top_draft]
    refine (h.link (h.current _ ledger.top_mem) label false line).bind ?_
    rintro linked _ ⟨hlinked, rfl⟩
    have hbooked := hlinked.booked h
    have hallocated := h.allocate_rewired hlinked hnew hminted
    have hframe : (linked.allocate label).frame { block := linked.nextBlock, forking, arms } =
        { block := label, role } := by
      rw [← hrole linked.nextBlock, ← hlinked.frame_eq]
      unfold frame
      dsimp only
      rw [labelOf_nextBlock, hbooked.ends_allocate]
    refine .ok ⟨hallocated.push ?_ ?_, ?_⟩
    · rw [nextBlock_allocate]
      exact Nat.lt_succ_self _
    · obtain ⟨-⟩ := hlinked
      exact hholding _
    · rw [draft_push, hframe, hbooked.draft_allocate]

theorem Booked.enterFresh (h : Booked ledger) {forking : Forking} {arms : Option Nat} {role : Role}
    (hrole : ∀ block, (ledger.frame { block, forking, arms }).role = role)
    (hholding : ∀ block, Holding ledger.nextArms ({ block, forking, arms } :: ledger.bodies))
    (line : Nat) :
    Agrees Depicts (ledger.enterFresh forking arms line) (ledger.draft.enterFresh role line) :=
  h.countMint.enter (mintedBefore_nextLabel .scope line ledger) hrole hholding line

/-- A plain body that is no alternative. -/
theorem Booked.enterFresh_body (h : Booked ledger) (line : Nat) :
    Agrees Depicts (ledger.enterFresh .plain none line) (ledger.draft.enterFresh .body line) :=
  h.enterFresh (fun _ => rfl) (fun _ => .body rfl rfl h.holding) line

/-- An alternative of the innermost body. -/
theorem Booked.enterFresh_arm (h : Booked ledger) (hfork : ledger.top.forking ≠ .plain)
    (line : Nat) :
    Agrees Depicts (ledger.enterFresh .plain ledger.top.arms line)
      (ledger.draft.enterFresh .arm line) := by
  have hholding := h.holding
  rw [bodies_eq] at hholding
  obtain ⟨arms, howns⟩ := hholding.exists_owns hfork
  rw [howns.2]
  refine h.enterFresh (fun _ => rfl) (fun block => ?_) line
  rw [bodies_eq]
  exact .arm rfl rfl howns hholding

/-- A fork opens a collection that nobody refers to yet. -/
theorem Booked.holding_openArms (h : Booked ledger) {body : OpenBody} (hfork : body.forking ≠ .plain)
    (harms : body.arms = some ledger.nextArms) :
    Holding ledger.openArms.nextArms (body :: ledger.bodies) := by
  refine .fork ⟨hfork, harms⟩ (by simp [nextArms, Ledger.openArms]) ?_ h.openArms.holding
  exact fun other hother howns => Nat.lt_irrefl _ (h.holding.lt_of_owns hother howns)

theorem collected_openArms (ledger : Ledger κ) :
    ledger.openArms.collected (some ledger.nextArms) = [] := by
  simp [Ledger.collected, Ledger.openArms, nextArms]

theorem Booked.enterFresh_menu (h : Booked ledger) (line : Nat) :
    Agrees Depicts (ledger.openArms.enterFresh .menu (some ledger.nextArms) line)
      (ledger.draft.enterFresh (.menu []) line) := by
  rw [← h.draft_openArms]
  refine h.openArms.enterFresh (fun block => ?_)
    (fun block => h.holding_openArms Forking.noConfusion rfl) line
  rw [frame, collected_openArms]
  rfl

theorem Booked.openChain (h : Booked ledger) (line : Nat) :
    Agrees (fun opened draft => Depicts opened draft ∧ opened.top.forking = .chain true)
      (ledger.openChain line) (ledger.draft.openChain line) := by
  unfold Ledger.openChain Draft.openChain
  rw [top_draft]
  have hblock := h.current ledger.top ledger.top_mem
  have hnew := h.nextLabel_not_mem .cond line
  have hminted := mintedBefore_nextLabel .cond line ledger
  refine (h.countMint.link hblock (ledger.nextLabel .cond line) true line).bind ?_
  rintro linked _ ⟨hlinked, rfl⟩
  have hbooked := hlinked.booked h.countMint
  have hallocated := h.countMint.allocate_rewired hlinked hnew hminted
  refine .ok ⟨⟨hallocated.openArms.push ?_ (hallocated.holding_openArms Forking.noConfusion rfl),
    ?_⟩, rfl⟩
  · show linked.nextBlock < (linked.allocate _).nextBlock
    rw [nextBlock_allocate]
    exact Nat.lt_succ_self _
  · rw [draft_push, hallocated.draft_openArms, hbooked.draft_allocate, frame]
    dsimp only
    have hends : (linked.allocate (ledger.nextLabel .cond line)).openArms.collected
        (some linked.nextArms) = [] := collected_openArms _
    have hlabel : (linked.allocate (ledger.nextLabel .cond line)).openArms.labelOf
        linked.nextBlock = ledger.nextLabel .cond line := labelOf_nextBlock _ _
    rw [hends, hlabel]
    rfl

/-- The innermost body of the draft tells the kind of the ledger's one. -/
theorem role_top (ledger : Ledger κ) :
    ledger.draft.top.role =
      ledger.top.role ((ledger.collected ledger.top.arms).map ledger.labelOf) := by
  rw [top_draft]
  rfl

theorem top_modifyTop (change : OpenBody → OpenBody) (ledger : Ledger κ) :
    (ledger.modifyTop change).top = change ledger.top := by
  unfold modifyTop top
  cases ledger.stack <;> simp

/-- A further branch of a chain of conditions. -/
theorem Booked.branch (h : Booked ledger) {skippable : Bool}
    (hchain : ledger.top.forking = .chain skippable) (further : Bool) (line : Nat) :
    Agrees Depicts
      ((ledger.modifyTop ({ · with forking := .chain further })).enterFresh .plain
        ledger.top.arms line)
      ((ledger.draft.modifyTop ({ · with
        role := .chain ((ledger.collected ledger.top.arms).map ledger.labelOf) further })).enterFresh
          .arm line) := by
  have hblock := h.current ledger.top ledger.top_mem
  obtain ⟨hbooked, hdraft⟩ := h.depicts_modifyTop ({ · with forking := .chain further })
    ({ · with role := .chain ((ledger.collected ledger.top.arms).map ledger.labelOf) further })
    hblock (by simp [hchain]) rfl rfl
  have htop := top_modifyTop ({ · with forking := .chain further }) ledger
  have henter := hbooked.enterFresh_arm (by rw [htop]; exact Forking.noConfusion) line
  rwa [htop, hdraft] at henter

theorem Booked.openHeader (h : Booked ledger) (header : Header) (line : Nat) :
    Agrees Depicts (ledger.openHeader header line) (ledger.draft.openHeader header line) := by
  cases header with
  | label name =>
    refine (h.closeChain line).bind ?_
    rintro closed _ ⟨hclosed, rfl⟩
    rw [qualify_draft]
    cases closed.qualify name line with
    | error fault => exact .error fault
    | ok full =>
      obtain ⟨hdeclared, hdraft⟩ := hclosed.declare name
      show Agrees Depicts ((closed.declare name).enter (.named full) .plain none line)
        ((closed.draft.declare name).enter (.named full) .body line)
      rw [← hdraft]
      refine hdeclared.enter ?_ (fun _ => rfl) (fun _ => .body rfl rfl hdeclared.holding) line
      exact fun _ _ _ heq => Label.noConfusion heq
  | menu =>
    refine (h.closeChain line).bind ?_
    rintro closed _ ⟨hclosed, rfl⟩
    exact hclosed.enterFresh_menu line
  | condition =>
    refine (h.closeChain line).bind ?_
    rintro closed _ ⟨hclosed, rfl⟩
    refine (hclosed.openChain line).bind ?_
    rintro opened _ ⟨⟨hopened, rfl⟩, htop⟩
    exact hopened.enterFresh_arm (by simp [htop]) line
  | branch kind =>
    unfold Ledger.openHeader Draft.openHeader
    rw [role_top]
    cases hforking : ledger.top.forking with
    | plain =>
      cases harms : ledger.top.arms <;>
        simpa only [OpenBody.role, hforking, harms] using .error _
    | menu => simpa only [OpenBody.role, hforking] using .error _
    | chain skippable =>
      simp only [OpenBody.role, hforking]
      exact h.branch hforking (skippable && kind == .elif) line
  | plain =>
    refine (h.closeChain line).bind ?_
    rintro closed _ ⟨hclosed, rfl⟩
    unfold plainArms Draft.plainRole
    rw [role_top]
    cases hforking : closed.top.forking with
    | plain =>
      cases harms : closed.top.arms <;>
        simpa only [OpenBody.role, hforking, harms] using hclosed.enterFresh_body line
    | menu =>
      simp only [OpenBody.role, hforking]
      exact hclosed.enterFresh_arm (by simp [hforking]) line
    | chain skippable =>
      simpa only [OpenBody.role, hforking] using hclosed.enterFresh_body line

/-! ## Lines -/

theorem Booked.modifyCurrent (h : Booked ledger) {change : Block κ → Block κ}
    (hchange : ∀ block, (change block).label = block.label) :
    Depicts (ledger.modifyCurrent change) (ledger.draft.modifyCurrent change) := by
  refine ⟨h.modify hchange _, ?_⟩
  rw [Draft.modifyCurrent, top_draft]
  exact h.draft_modify hchange (h.current _ ledger.top_mem)

theorem Booked.jump (h : Booked ledger) (target : String) (line : Nat) :
    Agrees Depicts (ledger.jump target line) (ledger.draft.jump target line) := by
  unfold Ledger.jump Draft.jump
  rw [qualify_draft, top_draft]
  cases ledger.qualify target line with
  | error fault => exact .error fault
  | ok full =>
    refine (h.link (h.current _ ledger.top_mem) (.named full) true line).imp ?_
    rintro linked draft ⟨hlinked, hdraft⟩
    exact ⟨hlinked.booked h, hdraft⟩

theorem Booked.obey (h : Booked ledger) (reader : LineReader κ) (statement : Statement)
    (line : Nat) :
    Agrees Depicts (ledger.obey reader statement line)
      (ledger.draft.obey reader statement line) := by
  cases statement with
  | header header => exact h.openHeader header line
  | jump target =>
    refine (h.closeChain line).bind ?_
    rintro closed _ ⟨hclosed, rfl⟩
    exact hclosed.jump target line
  | terminate dead =>
    refine (h.closeChain line).bind ?_
    rintro closed _ ⟨hclosed, rfl⟩
    exact .ok (hclosed.modifyCurrent (Block.label_close dead))
  | content text =>
    refine (h.closeChain line).bind ?_
    rintro closed _ ⟨hclosed, rfl⟩
    cases reader text with
    | none => exact .ok ⟨hclosed, rfl⟩
    | some record => exact .ok (hclosed.modifyCurrent (Block.label_say record))

theorem Booked.mark_line (h : Booked ledger) (last : Nat) :
    Booked { ledger with lastLine := last } := { h with }

/-- **Lines.** A line does to a ledger what it does to the draft. -/
theorem Booked.feed (h : Booked ledger) (reader : LineReader κ) (line : String) (number : Nat) :
    Agrees Depicts (ledger.feed reader line number) (ledger.draft.feed reader line number) := by
  unfold Ledger.feed Draft.feed
  dsimp only
  split
  · exact .ok ⟨h.mark_line number, rfl⟩
  · refine ((h.mark_line number).align line.toList number).bind ?_
    rintro ⟨aligned, rest⟩ ⟨_, _⟩ ⟨⟨haligned, rfl⟩, rfl⟩
    exact haligned.obey reader _ number

theorem Booked.feedAll (h : Booked ledger) (reader : LineReader κ) (lines : List (String × Nat)) :
    Agrees Depicts (ledger.feedAll reader lines) (ledger.draft.feedAll reader lines) := by
  induction lines generalizing ledger with
  | nil => exact .ok ⟨h, rfl⟩
  | cons line lines ih =>
    refine (h.feed reader line.1 line.2).bind ?_
    rintro middle _ ⟨hmiddle, rfl⟩
    exact ih hmiddle

/-- **Scripts.** A script can be read into a ledger or into a draft: the same lines are refused for
    the same reasons, and the ledger stands for the draft. -/
theorem feedAll_draft (reader : LineReader κ) (lines : List (String × Nat)) :
    (start.feedAll reader lines).map draft = Draft.start.feedAll reader lines := by
  rw [← draft_start]
  exact (booked_start.feedAll reader lines).map_eq fun _ _ h => h.2

theorem Booked.of_feedAll (h : Booked ledger) {reader : LineReader κ}
    {lines : List (String × Nat)} {later : Ledger κ}
    (hfeed : ledger.feedAll reader lines = .ok later) :
    Booked later ∧ ledger.draft.feedAll reader lines = .ok later.draft := by
  obtain ⟨_, hdraft, hlater, rfl⟩ := (h.feedAll reader lines).exists_of_ok hfeed
  exact ⟨hlater, hdraft⟩

/-! ## The story -/

/-- The order of the blocks does not matter for the story. -/
theorem Booked.ofBlocks_draft (h : Booked ledger) :
    StoryGraph.ofBlocks ledger.draft.blocks = StoryGraph.ofBlocks ledger.blocks := by
  have hnodup : (ledger.draft.blocks.map Block.label).Nodup := by
    rw [draft, List.map_reverse, List.nodup_reverse]
    exact h.nodup
  have hentry : .entry ∈ ledger.draft.blocks.map Block.label := by
    rw [draft, List.map_reverse, List.mem_reverse]
    exact h.entry_mem
  refine StoryGraph.eq_of_atlas ?_
  rw [StoryGraph.atlas_ofBlocks hnodup hentry, StoryGraph.atlas_ofBlocks h.nodup h.entry_mem]
  funext label
  refine Option.ext fun block => ?_
  rw [Atlas.of_eq_some_iff hnodup, Atlas.of_eq_some_iff h.nodup,
    draft, List.mem_reverse]

/-- **Stories.** A ledger makes the story of its draft. -/
theorem Booked.finish (h : Booked ledger) : ledger.finish = ledger.draft.finish := by
  have hcount : (ledger.margins.takeWhile fun _ => true).length = ledger.draft.stack.length := by
    rw [List.takeWhile_eq_self_iff.2 fun _ _ => rfl, margins, draft, List.length_map,
      List.length_map]
  have hagrees := h.closeWhile (fun _ => true) ledger.lastLine
  rw [hcount] at hagrees
  refine hagrees.bind_eq ?_
  rintro closed _ ⟨hclosed, rfl⟩
  rw [hclosed.ofBlocks_draft]

end Ledger

end Playthrough
