import Playthrough.Draft.Feed
import Playthrough.Proofs.Renumbering.Basic

/-!
# Two drafts, line by line

The same line is read into two drafts that differ only in lines, under a number of its own in each.
The drafts differ only in lines again afterwards, or the line is refused in both for the same cause.

What the two numbers have to do with each other is settled in advance: a renumbering moves the one
to the other for every label that is still to be minted.

* `Draft.Twin`: the drafts differ only in lines.
* `Draft.Twin.close`, `Draft.Twin.openHeader`, `Draft.Twin.align`, `Draft.Twin.obey`: what the parts
  of a line do.
* `Draft.Twin.feed`: what a line does.
-/

namespace Playthrough

open Script Text

variable {κ : Type} {σ : Renumbering}

/-- Moves the lines of the labels that a fork has collected. -/
def Role.renumber (σ : Renumbering) : Role → Role
  | .body => .body
  | .arm => .arm
  | .menu ends => .menu (ends.map (·.renumber σ))
  | .chain ends skippable => .chain (ends.map (·.renumber σ)) skippable

theorem Role.collect_renumber (last : Label) (role : Role) :
    (role.renumber σ).collect (last.renumber σ) = (role.collect last).renumber σ := by
  cases role <;> simp [collect, renumber]

/-- Moves the lines of all labels of a frame. -/
def Frame.renumber (σ : Renumbering) (frame : Frame) : Frame :=
  { frame with block := frame.block.renumber σ, role := frame.role.renumber σ }

theorem Frame.margin_renumber (frame : Frame) : (frame.renumber σ).margin = frame.margin := rfl

namespace Draft

/-- Two drafts differ only in lines. The next label that either mints, the first on `line` and the
    second on `number`, belong together too. Which line was the last does not count. -/
structure Twin (σ : Renumbering) (line number : Nat) (first second : Draft κ) : Prop where
  blocks : second.blocks = first.blocks.map (·.renumber σ)
  root : second.root = first.root.renumber σ
  stack : second.stack = first.stack.map (·.renumber σ)
  minted : second.minted = first.minted
  ahead : ∀ index, first.minted ≤ index → σ index line = number

namespace Twin

variable {line number : Nat} {first second : Draft κ}

/-! ## Parts of a draft -/

theorem top (h : Twin σ line number first second) : second.top = first.top.renumber σ := by
  unfold Draft.top
  rw [h.stack, h.root]
  cases first.stack <;> rfl

theorem enclosing (h : Twin σ line number first second) :
    second.enclosing = first.enclosing.renumber σ := by
  unfold Draft.enclosing
  rw [h.stack, h.root, ← List.map_tail]
  cases first.stack.tail <;> rfl

theorem nextLabel (h : Twin σ line number first second) (origin : Origin) :
    second.nextLabel origin number = (first.nextLabel origin line).renumber σ := by
  rw [Draft.nextLabel, Draft.nextLabel, Label.renumber_synthetic, h.minted,
    h.ahead _ (Nat.le_refl _)]

theorem find? (h : Twin σ line number first second) (label : Label) :
    second.find? (label.renumber σ) = (first.find? label).map (·.renumber σ) := by
  rw [Draft.find?, h.blocks]
  exact Block.find?_renumber label first.blocks

theorem scope? (h : Twin σ line number first second) : second.scope? = first.scope? := by
  unfold Draft.scope?
  rw [h.stack, h.root, ← List.map_singleton, ← List.map_append, List.findSome?_map]
  rfl

/-! ## Changes of a draft -/

theorem modifyTop (h : Twin σ line number first second) {change change' : Frame → Frame}
    (hchange : ∀ frame, change' (frame.renumber σ) = (change frame).renumber σ) :
    Twin σ line number (first.modifyTop change) (second.modifyTop change') := by
  have hstack := h.stack
  cases hfirst : first.stack with
  | nil =>
    rw [hfirst, List.map_nil] at hstack
    simp only [Draft.modifyTop, hfirst, hstack]
    exact ⟨h.blocks, by rw [h.root, hchange], rfl, h.minted, h.ahead⟩
  | cons frame frames =>
    rw [hfirst, List.map_cons] at hstack
    simp only [Draft.modifyTop, hfirst, hstack]
    exact ⟨h.blocks, h.root, by rw [hchange, List.map_cons], h.minted, h.ahead⟩

theorem modifyBlock_renumber (label : Label) {change change' : Block κ → Block κ}
    (hchange : ∀ block, change' (block.renumber σ) = (change block).renumber σ)
    (blocks : List (Block κ)) :
    Draft.modifyBlock (label.renumber σ) change' (blocks.map (·.renumber σ)) =
      (Draft.modifyBlock label change blocks).map (·.renumber σ) := by
  induction blocks with
  | nil => rfl
  | cons block blocks ih =>
    simp only [List.map_cons, Draft.modifyBlock, Block.label_renumber, Label.renumber_inj, ih]
    split
    · rw [hchange, List.map_cons]
    · rw [List.map_cons]

theorem modify (h : Twin σ line number first second) (label : Label)
    {change change' : Block κ → Block κ}
    (hchange : ∀ block, change' (block.renumber σ) = (change block).renumber σ) :
    Twin σ line number (first.modify label change) (second.modify (label.renumber σ) change') := by
  refine ⟨?_, h.root, h.stack, h.minted, h.ahead⟩
  rw [Draft.modify, h.blocks]
  exact modifyBlock_renumber label hchange first.blocks

theorem modifyCurrent (h : Twin σ line number first second) {change : Block κ → Block κ}
    (hchange : ∀ block, change (block.renumber σ) = (change block).renumber σ) :
    Twin σ line number (first.modifyCurrent change) (second.modifyCurrent change) := by
  rw [Draft.modifyCurrent, Draft.modifyCurrent, h.top]
  exact h.modify first.top.block hchange

theorem countMint (h : Twin σ line number first second) :
    Twin σ line number first.countMint second.countMint :=
  ⟨h.blocks, h.root, h.stack, congrArg (· + 1) h.minted,
    fun index hindex => h.ahead index (Nat.le_of_succ_le hindex)⟩

theorem allocate (h : Twin σ line number first second) (label : Label) :
    Twin σ line number (first.allocate label) (second.allocate (label.renumber σ)) :=
  ⟨by rw [Draft.allocate, h.blocks]; rfl, h.root, h.stack, h.minted, h.ahead⟩

theorem push (h : Twin σ line number first second) (frame : Frame) :
    Twin σ line number (first.push frame) (second.push (frame.renumber σ)) :=
  ⟨h.blocks, h.root, by rw [Draft.push, h.stack]; rfl, h.minted, h.ahead⟩

theorem mark_line (h : Twin σ line number first second) (last last' : Nat) :
    Twin σ line number { first with lastLine := last } { second with lastLine := last' } :=
  ⟨h.blocks, h.root, h.stack, h.minted, h.ahead⟩

theorem link (h : Twin σ line number first second) (source target : Label) (final : Bool) :
    Alike σ (Twin σ line number) (first.link source target final line)
      (second.link (source.renumber σ) (target.renumber σ) final number) := by
  unfold Draft.link
  simp only [Label.renumber_inj]
  split
  · exact .error (.selfJump line number target)
  · exact .ok (h.modify source (Block.exit_renumber target final))

/-! ## Closing bodies -/

theorem link_all (h : Twin σ line number first second) (sources : List Label) (target : Label) :
    Alike σ (Twin σ line number)
      (sources.foldlM (fun draft source => draft.link source target false line) first)
      ((sources.map (·.renumber σ)).foldlM
        (fun draft source => draft.link source (target.renumber σ) false number) second) := by
  induction sources generalizing first second with
  | nil => exact .ok h
  | cons source sources ih => exact (h.link source target false).bind fun _ _ hlinked => ih hlinked

theorem join (h : Twin σ line number first second) (sources : List Label) :
    Alike σ (Twin σ line number) (first.join sources line)
      (second.join (sources.map (·.renumber σ)) number) := by
  unfold Draft.join
  rw [h.nextLabel .merge]
  refine (h.countMint.link_all sources _).bind fun linked linked' hlinked => ?_
  exact .ok ((hlinked.allocate _).modifyTop fun _ => rfl)

theorem close (h : Twin σ line number first second) :
    Alike σ (Twin σ line number) (first.close line) (second.close number) := by
  have hstack := h.stack
  unfold Draft.close
  cases hfirst : first.stack with
  | nil =>
    rw [hfirst, List.map_nil] at hstack
    rw [hstack]
    exact .ok h
  | cons frame frames =>
    rw [hfirst, List.map_cons] at hstack
    rw [hstack]
    -- whichever way the innermost body goes on, it goes on in the bodies below
    have hbelow : Twin σ line number { first with stack := frames }
        { second with stack := frames.map (·.renumber σ) } :=
      ⟨h.blocks, h.root, rfl, h.minted, h.ahead⟩
    cases hrole : frame.role with
    | body => simpa [Frame.renumber, hrole, Role.renumber] using hbelow.join [frame.block]
    | arm =>
      simp only [Frame.renumber, hrole, Role.renumber]
      refine .ok (hbelow.modifyTop fun fork => ?_)
      simp [Frame.renumber, Role.collect_renumber]
    | menu ends => simpa [Frame.renumber, hrole, Role.renumber] using hbelow.join ends
    | chain ends skippable =>
      have hjoin := hbelow.join (if skippable then ends ++ [frame.block] else ends)
      rw [apply_ite (List.map _), List.map_append] at hjoin
      simpa [Frame.renumber, hrole, Role.renumber] using hjoin

theorem closeMany (h : Twin σ line number first second) (count : Nat) :
    Alike σ (Twin σ line number) (first.closeMany line count) (second.closeMany number count) := by
  induction count generalizing first second with
  | zero => exact .ok h
  | succ count ih => exact h.close.bind fun _ _ hclosed => ih hclosed

theorem closeChain (h : Twin σ line number first second) :
    Alike σ (Twin σ line number) (first.closeChain line) (second.closeChain number) := by
  unfold Draft.closeChain
  rw [h.top]
  cases hrole : first.top.role with
  | chain ends skippable => simpa [Frame.renumber, hrole, Role.renumber] using h.close
  | _ => simpa [Frame.renumber, hrole, Role.renumber] using Alike.ok h

/-! ## Indentation -/

theorem ended (h : Twin σ line number first second) (text : List Char) :
    (second.ended text).length = (first.ended text).length := by
  unfold Draft.ended
  rw [h.stack, List.takeWhile_map, List.length_map]
  rfl

/-- The outcome of an aligned line: the drafts, and what is left of the line. -/
def Aligned (σ : Renumbering) (line number : Nat) (first second : Draft κ × List Char) : Prop :=
  Twin σ line number first.1 second.1 ∧ second.2 = first.2

theorem establish (h : Twin σ line number first second) (text : List Char)
    (fail fail' : IndentFault → Fault κ)
    (hfail : ∀ issue, (fail issue).Alike σ (fail' issue)) :
    Alike σ (Aligned σ line number) ((first.establish text).mapError fail)
      ((second.establish text).mapError fail') := by
  unfold Draft.establish
  rw [h.enclosing, Frame.margin_renumber]
  dsimp only
  cases first.enclosing.margin.isPrefixOf? text with
  | none => exact .error (hfail .dedentedBody)
  | some rest =>
    dsimp only
    split
    · exact .error (hfail .unindentedBody)
    · have hindented : Twin σ line number
          (first.modifyTop ({ · with indent := some (first.enclosing.margin ++ leading rest) }))
          (second.modifyTop ({ · with indent := some (first.enclosing.margin ++ leading rest) })) :=
        h.modifyTop fun _ => rfl
      exact .ok ⟨hindented, rfl⟩

theorem align (h : Twin σ line number first second) (text : List Char) :
    Alike σ (Aligned σ line number) (first.align text line) (second.align text number) := by
  have hfail : ∀ issue, (Fault.indentation (κ := κ) line (String.ofList text) issue).Alike σ
      (.indentation number (String.ofList text) issue) := fun issue =>
    .indentation line number (String.ofList text) issue
  unfold Draft.align
  rw [h.top]
  cases hindent : first.top.indent with
  | none => simpa [Frame.renumber, hindent] using h.establish text _ _ hfail
  | some indent =>
    simp only [Frame.renumber, hindent]
    rw [h.ended text]
    refine (h.closeMany (first.ended text).length).bind fun closed closed' hclosed => ?_
    rw [hclosed.top, Frame.margin_renumber, hclosed.stack, List.isEmpty_map]
    split
    · exact .ok ⟨hclosed, rfl⟩
    · split
      · exact .error (hfail .indentedTopLevel)
      · exact .error (hfail .unmatchedDedent)

/-! ## Opening bodies -/

theorem qualify (h : Twin σ line number first second) (name : String) :
    Alike σ Eq (first.qualify name line) (second.qualify name number) := by
  unfold Draft.qualify
  rw [h.scope?]
  split
  · split
    · exact .ok rfl
    · exact .error (.noLabelScope line number name)
  · exact .ok rfl

theorem declare (h : Twin σ line number first second) (name : String) :
    Twin σ line number (first.declare name) (second.declare name) := by
  unfold Draft.declare
  split
  · exact h
  · exact h.modifyTop fun _ => rfl

theorem enter (h : Twin σ line number first second) (label : Label) (role : Role) :
    Alike σ (Twin σ line number) (first.enter label role line)
      (second.enter (label.renumber σ) (role.renumber σ) number) := by
  unfold Draft.enter
  rw [h.find?, Option.isSome_map, h.top]
  split
  · exact .error (.duplicateLabel line number label)
  · refine (h.link first.top.block label false).bind fun linked linked' hlinked => ?_
    exact .ok ((hlinked.allocate label).push { block := label, role })

theorem enterFresh (h : Twin σ line number first second) (role : Role) :
    Alike σ (Twin σ line number) (first.enterFresh role line)
      (second.enterFresh (role.renumber σ) number) := by
  unfold Draft.enterFresh
  rw [h.nextLabel .scope]
  exact h.countMint.enter _ role

theorem openChain (h : Twin σ line number first second) :
    Alike σ (Twin σ line number) (first.openChain line) (second.openChain number) := by
  unfold Draft.openChain
  rw [h.nextLabel .cond, h.top]
  refine (h.countMint.link first.top.block _ true).bind fun linked linked' hlinked => ?_
  exact .ok ((hlinked.allocate _).push
    { block := first.nextLabel .cond line, indent := first.top.indent, role := .chain [] true })

theorem plainRole_renumber (frame : Frame) :
    plainRole (frame.renumber σ) = (plainRole frame).renumber σ := by
  cases hrole : frame.role <;> simp [plainRole, Frame.renumber, hrole, Role.renumber]

theorem openHeader (h : Twin σ line number first second) (header : Header) :
    Alike σ (Twin σ line number) (first.openHeader header line)
      (second.openHeader header number) := by
  cases header with
  | label name =>
    refine h.closeChain.bind fun ready ready' hready => ?_
    refine (hready.qualify name).bind fun full full' hfull => ?_
    subst hfull
    exact (hready.declare name).enter (.named full) .body
  | menu => exact h.closeChain.bind fun _ _ hready => hready.enterFresh (.menu [])
  | condition =>
    refine h.closeChain.bind fun _ _ hready => ?_
    exact hready.openChain.bind fun _ _ hopened => hopened.enterFresh .arm
  | branch kind =>
    unfold Draft.openHeader
    rw [h.top]
    cases hrole : first.top.role with
    | chain ends skippable =>
      have hrestated : Twin σ line number
          (first.modifyTop ({ · with role := .chain ends (skippable && kind == .elif) }))
          (second.modifyTop ({ · with
            role := .chain (ends.map (·.renumber σ)) (skippable && kind == .elif) })) :=
        h.modifyTop fun _ => rfl
      simpa only [Frame.renumber, hrole, Role.renumber] using hrestated.enterFresh .arm
    | _ =>
      simp only [Frame.renumber, hrole, Role.renumber]
      exact .error (.misplacedBranch line number kind)
  | plain =>
    refine h.closeChain.bind fun ready ready' hready => ?_
    rw [hready.top, plainRole_renumber]
    exact hready.enterFresh (plainRole ready.top)

/-! ## Lines -/

theorem jump (h : Twin σ line number first second) (target : String) :
    Alike σ (Twin σ line number) (first.jump target line) (second.jump target number) := by
  refine (h.qualify target).bind fun full full' hfull => ?_
  subst hfull
  rw [h.top]
  exact h.link first.top.block (.named full) true

theorem obey (h : Twin σ line number first second) (reader : LineReader κ) (statement : Statement) :
    Alike σ (Twin σ line number) (first.obey reader statement line)
      (second.obey reader statement number) := by
  cases statement with
  | header header => exact h.openHeader header
  | jump target => exact h.closeChain.bind fun _ _ hready => hready.jump target
  | terminate dead =>
    refine h.closeChain.bind fun _ _ hready => ?_
    exact .ok (hready.modifyCurrent (Block.close_renumber dead))
  | content text =>
    refine h.closeChain.bind fun _ _ hready => ?_
    cases reader text with
    | none => exact .ok hready
    | some record => exact .ok (hready.modifyCurrent (Block.say_renumber record))

/-- The same line does the same to two drafts that differ only in lines. -/
theorem feed (h : Twin σ line number first second) (reader : LineReader κ) (text : String) :
    Alike σ (Twin σ line number) (first.feed reader text line)
      (second.feed reader text number) := by
  unfold Draft.feed
  dsimp only
  split
  · exact .ok (h.mark_line line number)
  · refine ((h.mark_line line number).align text.toList).bind ?_
    rintro ⟨aligned, rest⟩ ⟨aligned', rest'⟩ ⟨haligned, hrest⟩
    replace hrest : rest' = rest := hrest
    subst hrest
    exact haligned.obey reader _

end Twin

end Draft

end Playthrough
