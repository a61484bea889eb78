import Playthrough.Proofs.Draft.Onward

/-!
# Reading bodies

By induction on the tree, reading the lines of a body becomes blocks that behave as the body means.
Each kind of tree has its own statement, since each is read from a different state: a body or a part
of it from an open body, the choices of a menu from the menu, and the further branches of a chain
from the chain.

* `Draft.Awaits.feed`: what the next line of a body does.
* `Outline.Body.Reads` and the like: the statement for each kind of tree.
* `Outline.Body.reads`: the induction.
-/

namespace Playthrough

open Script Outline

variable {κ : Type}

namespace Draft

variable {reader : LineReader κ} {draft draft' settled : Draft κ} {margin : List Char}
  {Q Q' : Draft κ → Prop}

/-! ## Single lines -/

theorem Awaits.feed (h : Awaits margin draft Q) (hmargin : Blanks margin) {stated : Statement}
    (line : Line stated) (number : Nat) :
    ∃ aligned, Q aligned ∧
      draft.feed reader (line.under margin) number = aligned.obey reader stated number := by
  obtain ⟨aligned, halign, hQ⟩ := h number line.text.toList line.flush
  refine ⟨aligned, hQ, ?_⟩
  rw [Line.under, feed_eq reader hmargin line.flush halign, line.reads]

/-- The same for a statement in front of which a chain that is left over is closed. -/
theorem Awaits.feed_unchained (h : Awaits margin draft (Unchained Q)) (hmargin : Blanks margin)
    {stated : Statement} (line : Line stated) (number : Nat) :
    ∃ aligned first : Draft κ, Q first ∧ aligned.closeChain number = .ok first ∧
      draft.feed reader (line.under margin) number = aligned.obey reader stated number := by
  obtain ⟨aligned, hunchained, hfeed⟩ := h.feed hmargin line number
  obtain ⟨first, hfirst, hQ⟩ := hunchained number
  exact ⟨aligned, first, hQ, hfirst, hfeed⟩

theorem obey_content {number : Nat} (hsettled : draft.closeChain number = .ok settled)
    (hsound : Sound settled) (said : String) :
    ∃ after, draft.obey reader (.content said) number = .ok after ∧
      Changed (fun block => { block with text := block.text ++ (reader said).toList })
        settled after := by
  cases hreader : reader said with
  | none =>
    refine ⟨settled, ?_, ?_⟩
    · simp only [obey, hsettled, bind, Except.bind, hreader]
      rfl
    · simp only [Option.toList_none, List.append_nil]
      exact changed_id hsound
  | some record =>
    refine ⟨settled.modifyCurrent (·.say record), ?_, changed_modifyCurrent hsound fun _ => rfl⟩
    simp only [obey, hsettled, bind, Except.bind, hreader]
    rfl

theorem obey_terminate {number : Nat} (hsettled : draft.closeChain number = .ok settled)
    (hsound : Sound settled) (dead : Bool) :
    ∃ after, draft.obey reader (.terminate dead) number = .ok after ∧
      Changed (·.close dead) settled after := by
  unfold obey
  rw [hsettled]
  exact ⟨_, rfl, changed_modifyCurrent hsound (Block.label_close dead)⟩

theorem qualify_absolute {name : String} (h : name.toList.head? ≠ some '.') (line : Nat)
    (draft : Draft κ) : draft.qualify name line = .ok name := if_neg h

theorem obey_jump {number : Nat} (hsettled : draft.closeChain number = .ok settled)
    (hsound : Sound settled) {target : String} (habsolute : target.toList.head? ≠ some '.')
    (hne : settled.top.block ≠ .named target) :
    ∃ after, draft.obey reader (.jump target) number = .ok after ∧
      Changed (·.exit (.named target) true) settled after := by
  refine ⟨_, ?_, changed_modifyCurrent hsound (Block.label_exit (.named target) true)⟩
  unfold obey
  rw [hsettled]
  simp only [bind, Except.bind, jump, qualify_absolute habsolute]
  exact if_neg hne

theorem obey_branch {ends : List Label} {skippable : Bool}
    (hrole : draft.top.role = .chain ends skippable) (kind : Branch) (number : Nat) :
    draft.obey reader (.header (.branch kind)) number =
      (draft.modifyTop fun frame =>
        { frame with role := .chain ends (skippable && kind == .elif) }).enterFresh .arm number := by
  unfold obey openHeader
  rw [hrole]

/-- A statement that opens nothing leaves the body as it is. -/
theorem Changed.settles {change : Block κ → Block κ} (h : Changed change settled draft)
    (hopen : Open margin settled) (hQ : ∀ after, Changed change settled after → Q after) :
    Settles margin settled.below draft Q := by
  have hcloses : Closes margin (settled.top :: settled.below) draft (Changed change settled) := by
    rw [← settled.frames_eq, ← h.frames_eq]
    exact closes_self h.mark_line
  refine hcloses.settles hopen.indent_eq ?_
  intro after hafter
  rw [hafter.top_eq.1]
  exact ⟨hopen.indent_eq, hopen.role_ne_chain, hQ after hafter⟩

theorem Opened.isOpen {label : Label} {role : Role} {final : Bool}
    (h : Opened { block := label, indent := some margin, role } final draft draft')
    (hrole : role = .body ∨ role = .arm) : Open margin draft' := by
  obtain ⟨htop, -⟩ := h.top_eq
  refine ⟨h.sound, by rw [htop], by rw [htop]; exact hrole, [], ?_⟩
  rw [htop, h.atlas_eq, if_pos rfl]

/-! ## Forks -/

/-- Back in a fork of the given kind, behind some of its alternatives. -/
structure AtFork (kind : List Label → Role) (final : Bool) (margin : List Char)
    (next : List Label) (meaning : Meaning κ) (draft fork : Draft κ) : Prop where
  forked : Forked final next meaning draft fork
  indent_eq : fork.top.indent = some margin
  role_eq : ∃ ends, fork.top.role = kind ends

/-- The roles of forks. -/
structure IsFork (kind : List Label → Role) : Prop where
  ends_eq : ∀ ends, (kind ends).ends = ends
  collect_eq : ∀ ends last, (kind ends).collect last = kind (ends ++ [last])

theorem isFork_menu : IsFork .menu := ⟨fun _ => rfl, fun _ _ => rfl⟩

theorem isFork_chain (skippable : Bool) : IsFork (.chain · skippable) :=
  ⟨fun _ => rfl, fun _ _ => rfl⟩

variable {kind : List Label → Role} {final : Bool} {next : List Label}
  {meaning meaning' : Meaning κ} {fork fork' : Draft κ}

theorem AtFork.congr (h : AtFork kind final margin next meaning draft fork)
    (hiff : ∀ records outcome, meaning records outcome ↔ meaning' records outcome) :
    AtFork kind final margin next meaning' draft fork := by
  obtain rfl : meaning = meaning' := funext fun records => funext fun outcome =>
    propext (hiff records outcome)
  exact h

/-- A branch that covers all other cases changes the role of the chain. -/
theorem Forked.recast (h : Forked final next meaning draft fork) {role : Role}
    (hends : role.ends = fork.top.role.ends) :
    Forked final next meaning draft (fork.modifyTop fun frame => { frame with role }) := by
  obtain ⟨htop, hbelow⟩ := top_of_frames (frames_modifyTop (fun frame => { frame with role }) fork)
  have hatlas : (fork.modifyTop fun frame => { frame with role }).atlas = fork.atlas := by
    rw [atlas, blocks_modifyTop]
  have hlabels : ({ fork.top with role } : Frame).labels = fork.top.labels := by
    rw [Frame.labels, hends]
    rfl
  refine ⟨hbelow.trans h.below_eq, h.sound.modifyTop hlabels, ?_, ?_, ?_, ?_, ?_, ?_⟩
  · rw [htop, hlabels]
    exact h.fresh
  · rw [htop, hatlas]
    exact h.source
  · rw [hatlas]
    exact h.others
  · rw [hatlas]
    exact h.named
  · rw [htop, hatlas]
    exact h.block_eq
  · intro atlas target hlater hlead
    rw [htop, hatlas] at hlead
    exact h.behaves atlas target (hlater.of_grows (grows_modifyTop hlabels)) (hends ▸ hlead)

theorem AtFork.covers {ends : List Label}
    (h : AtFork (.chain · true) final margin next meaning draft fork)
    (hrole : fork.top.role = .chain ends true) (skippable : Bool) :
    AtFork (.chain · skippable) final margin next meaning draft
      (fork.modifyTop fun frame => { frame with role := .chain ends skippable }) := by
  have htop := (top_of_frames (frames_modifyTop
    (fun frame => { frame with role := .chain ends skippable }) fork)).1
  refine ⟨h.forked.recast (by rw [hrole]; rfl), ?_, ends, by rw [htop]⟩
  rw [htop]
  exact h.indent_eq

end Draft

namespace Outline

open Draft

variable {reader : LineReader κ} {draft draft' fork fork' : Draft κ} {margin : List Char}

/-! ## Statements -/

/-- Reading a body. The only fault a line of it could cause is a jump to the block it stands in. -/
def Body.Reads (reader : LineReader κ) (body : Body) : Prop :=
  ∀ (margin : List Char) (draft : Draft κ) (Q : Draft κ → Prop), Blanks margin →
    (∀ first, Q first → Open margin first ∧
      ∀ target, body.target? = some target → first.top.block ≠ .named target) →
    Awaits margin draft (Unchained Q) →
    Feeds reader (body.lines margin) draft fun after => ∃ first, Q first ∧
      Settles margin first.below after (Ended (body.Plays reader) first)

/-- Reading a part of a body. -/
def Item.Reads (reader : LineReader κ) (item : Item) : Prop :=
  ∀ (margin : List Char) (draft : Draft κ) (Q : Draft κ → Prop), Blanks margin →
    (∀ first, Q first → Open margin first) → Awaits margin draft (Unchained Q) →
    Feeds reader (item.lines margin) draft fun after => ∃ first, Q first ∧
      Settles margin first.below after (Played margin (item.Plays reader) first)

/-- Reading some choices of a menu. -/
def Choices.Reads (reader : LineReader κ) (choices : Choices) : Prop :=
  ∀ (margin : List Char) (draft before : Draft κ) (meaning : Meaning κ), Blanks margin →
    Awaits margin draft (fun fork => ∃ next, AtFork .menu false margin next meaning before fork) →
    Feeds reader (choices.lines margin) draft fun after =>
      ∃ frame, frame.indent = some margin ∧ Closes margin (frame :: before.frames) after fun fork =>
        ∃ next, next ≠ [] ∧
          AtFork .menu false margin next (meaning.either (choices.Plays reader)) before fork

/-- Reading the further branches of a chain. -/
def Branches.Reads (reader : LineReader κ) (branches : Branches) : Prop :=
  ∀ (margin : List Char) (draft before : Draft κ) (frame : Frame) (meaning : Meaning κ),
    Blanks margin → Open margin before → frame.indent = some margin →
    Closes margin (frame :: before.frames) draft (fun fork =>
      ∃ next, next ≠ [] ∧ AtFork (.chain · true) true margin next meaning before fork) →
    Feeds reader (branches.lines margin) draft fun after =>
      Settles margin before.below after
        (Played margin (meaning.either (branches.Plays reader)) before)

/-! ## Bodies under a header -/

/-- The body of a header is read and closed. -/
theorem Body.Reads.opened {body : Body} (hbody : body.Reads reader) {label : Label} {role : Role}
    {Q : Draft κ → Prop} (hopened : Opened { block := label, role } false draft draft')
    (hrole : role = .body ∨ role = .arm) (hindent : draft.top.indent = some margin)
    (hmargin : Blanks margin) (indent : Indent)
    (htarget : ∀ target, body.target? = some target → label ≠ .named target)
    (hclose : ∀ first last,
      Opened { block := label, indent := some (margin ++ indent.blanks), role } false draft first →
      Ended (body.Plays reader) first last →
      ∀ line, ∃ after, last.close line = .ok after ∧ Q after) :
    Feeds reader (body.lines (margin ++ indent.blanks)) draft' fun after =>
      Closes margin draft.frames after Q := by
  have hawaits := hopened.awaits hindent indent.isBlank indent.ne_nil
  have hopen : ∀ first, Opened { block := label, indent := some (margin ++ indent.blanks), role }
      false draft first → Open (margin ++ indent.blanks) first :=
    fun first hfirst => hfirst.isOpen hrole
  refine (hbody _ draft' _ (hmargin.append indent.isBlank) ?_
    (hawaits.unchained fun first hfirst => (hopen first hfirst).role_ne_chain)).imp ?_
  · intro first hfirst
    refine ⟨hopen first hfirst, ?_⟩
    rw [hfirst.top_eq.1]
    exact htarget
  · rintro after ⟨first, hfirst, hsettles⟩
    rw [hfirst.top_eq.2] at hsettles
    exact hsettles.leave indent.isBlank indent.ne_nil fun last hlast =>
      hclose first last hfirst hlast

/-- The body of an alternative is read and joins those that its fork has collected. -/
theorem Body.Reads.arm {body : Body} (hbody : body.Reads reader) {kind : List Label → Role}
    {final : Bool} {next : List Label} {meaning : Meaning κ} {label : Label}
    (hkind : IsFork kind) (h : AtFork kind final margin next meaning draft fork)
    (hopened : Opened { block := label, role := .arm } false fork fork')
    (hsynthetic : label.isSynthetic = true) (hmargin : Blanks margin) (indent : Indent) :
    Feeds reader (body.lines (margin ++ indent.blanks)) fork' fun after =>
      Closes margin (fork.top :: draft.frames) after
        (AtFork kind final margin (next ++ [label]) (meaning.either (body.Plays reader)) draft) := by
  obtain ⟨ends, hends⟩ := h.role_eq
  have hframes : fork.top :: draft.frames = fork.frames := by
    rw [fork.frames_eq, h.forked.below_eq]
  rw [hframes]
  refine hbody.opened hopened (Or.inr rfl) h.indent_eq hmargin indent ?_ ?_
  · rintro target - rfl
    cases hsynthetic
  · intro first last hfirst hlast line
    obtain ⟨after, hclose, htop, hforked⟩ := h.forked.collect hfirst hsynthetic hlast
      (fun last => by rw [hends, hkind.collect_eq, hkind.ends_eq, hkind.ends_eq]) line
    refine ⟨after, hclose, hforked, by rw [htop]; exact h.indent_eq, ends ++ [last.top.block], ?_⟩
    rw [htop, hends, hkind.collect_eq]

/-! ## Content and exits -/

theorem Item.reads_content (said : String) (line : Line (.content said)) :
    (Item.content said line).Reads reader := by
  intro margin draft Q hmargin hQ hawaits
  refine feeds_cons fun number => ?_
  obtain ⟨aligned, first, hQfirst, hfirst, hfeed⟩ := hawaits.feed_unchained hmargin line number
  obtain ⟨after, hobey, hchanged⟩ := obey_content hfirst (hQ first hQfirst).sound said
  refine ⟨after, hfeed.trans hobey, feeds_nil ⟨first, hQfirst, ?_⟩⟩
  exact hchanged.settles (hQ first hQfirst) fun last => (hQ first hQfirst).played_content

theorem Body.reads_leave (exit : Exit) : (Body.leave exit).Reads reader := by
  intro margin draft Q hmargin hQ hawaits
  cases exit with
  | finish dead line =>
    refine feeds_cons fun number => ?_
    obtain ⟨aligned, first, hQfirst, hfirst, hfeed⟩ := hawaits.feed_unchained hmargin line number
    obtain ⟨hopen, -⟩ := hQ first hQfirst
    obtain ⟨after, hobey, hchanged⟩ := obey_terminate hfirst hopen.sound dead
    refine ⟨after, hfeed.trans hobey, feeds_nil ⟨first, hQfirst, ?_⟩⟩
    exact hchanged.settles hopen fun last => hopen.ended_close
  | jump target absolute line =>
    refine feeds_cons fun number => ?_
    obtain ⟨aligned, first, hQfirst, hfirst, hfeed⟩ := hawaits.feed_unchained hmargin line number
    obtain ⟨hopen, htarget⟩ := hQ first hQfirst
    obtain ⟨after, hobey, hchanged⟩ := obey_jump hfirst hopen.sound absolute (htarget target rfl)
    refine ⟨after, hfeed.trans hobey, feeds_nil ⟨first, hQfirst, ?_⟩⟩
    exact hchanged.settles hopen fun last => hopen.ended_exit

/-! ## Sequences -/

theorem Body.reads_last {item : Item} (hitem : item.Reads reader) :
    (Body.last item).Reads reader := by
  intro margin draft Q hmargin hQ hawaits
  refine (hitem margin draft Q hmargin (fun first hfirst => (hQ first hfirst).1) hawaits).imp ?_
  rintro after ⟨first, hfirst, hsettles⟩
  exact ⟨first, hfirst, hsettles.imp fun last => Played.ended⟩

theorem Body.reads_cons {item : Item} {rest : Body} (hitem : item.Reads reader)
    (hrest : rest.Reads reader) : (Body.cons item rest).Reads reader := by
  intro margin draft Q hmargin hQ hawaits
  refine (hitem margin draft Q hmargin (fun first hfirst => (hQ first hfirst).1) hawaits).append ?_
  rintro middle ⟨first, hfirst, hsettles⟩
  refine (hrest margin middle _ hmargin ?_ hsettles.awaits).imp ?_
  · intro second hsecond
    refine ⟨hsecond.isOpen, fun target htarget heq => ?_⟩
    -- The rest stands in the same block as the item, or in one that was minted since.
    rcases hsecond.within.top_eq with hsame | hfresh
    · exact (hQ first hfirst).2 target htarget (hsame ▸ heq)
    · obtain ⟨text, htext⟩ := hsecond.isOpen.block_eq
      rw [heq] at hfresh htext
      rw [hsecond.within.named target hfresh] at htext
      cases htext
  · rintro after ⟨second, hsecond, hsettles⟩
    rw [hsecond.within.below_eq] at hsettles
    exact ⟨first, hfirst, hsettles.imp fun last => hsecond.andThen⟩

/-! ## Menus -/

/-- A choice is opened. -/
theorem obey_choice {next : List Label} {meaning : Meaning κ}
    (h : AtFork .menu false margin next meaning draft fork) (number : Nat) :
    ∃ fork', fork.obey reader (.header .plain) number = .ok fork' ∧
      Opened { block := fork.nextLabel .scope number, role := .arm } false fork fork' := by
  obtain ⟨ends, hends⟩ := h.role_eq
  obtain ⟨fork', henter, hopened⟩ := enterFresh_spec h.forked.sound .arm number rfl
  refine ⟨fork', ?_, hopened⟩
  have hchain : fork.closeChain number = .ok fork := closeChain_of_role (by simp [hends]) number
  simp only [obey, openHeader, hchain, bind, Except.bind, plainRole, hends]
  exact henter

theorem Choices.reads_last (line : Line (.header .plain)) (indent : Indent) {body : Body}
    (hbody : body.Reads reader) : (Choices.last line indent body).Reads reader := by
  intro margin draft before meaning hmargin hawaits
  refine feeds_cons fun number => ?_
  obtain ⟨fork, ⟨next, hfork⟩, hfeed⟩ := hawaits.feed hmargin line number
  obtain ⟨fork', hobey, hopened⟩ := obey_choice hfork number
  refine ⟨fork', hfeed.trans hobey, ?_⟩
  refine (hbody.arm isFork_menu hfork hopened rfl hmargin indent).imp fun after hcloses => ?_
  exact ⟨fork.top, hfork.indent_eq, hcloses.imp fun _ hlast => ⟨_, by simp, hlast⟩⟩

theorem Choices.reads_cons (line : Line (.header .plain)) (indent : Indent) {body : Body}
    {rest : Choices} (hbody : body.Reads reader) (hrest : rest.Reads reader) :
    (Choices.cons line indent body rest).Reads reader := by
  intro margin draft before meaning hmargin hawaits
  refine feeds_cons fun number => ?_
  obtain ⟨fork, ⟨next, hfork⟩, hfeed⟩ := hawaits.feed hmargin line number
  obtain ⟨fork', hobey, hopened⟩ := obey_choice hfork number
  refine ⟨fork', hfeed.trans hobey, ?_⟩
  refine (hbody.arm isFork_menu hfork hopened rfl hmargin indent).append fun middle hcloses => ?_
  have hawaits' := hcloses.awaits hfork.indent_eq fun _ hlast => hlast.indent_eq
  refine (hrest margin middle before _ hmargin (hawaits'.imp fun _ hlast => ⟨_, hlast⟩)).imp ?_
  rintro after ⟨frame, hframe, hcloses⟩
  refine ⟨frame, hframe, hcloses.imp ?_⟩
  rintro last ⟨next, hnext, hlast⟩
  exact ⟨next, hnext, hlast.congr fun records outcome => or_assoc⟩

theorem Item.reads_menu (line : Line (.header .menu)) (indent : Indent) {choices : Choices}
    (hchoices : choices.Reads reader) : (Item.menu line indent choices).Reads reader := by
  intro margin draft Q hmargin hQ hawaits
  refine feeds_cons fun number => ?_
  obtain ⟨aligned, first, hQfirst, hfirst, hfeed⟩ := hawaits.feed_unchained hmargin line number
  have hopen := hQ first hQfirst
  obtain ⟨menu, henter, hopened⟩ := enterFresh_spec hopen.sound (.menu []) number rfl
  have hobey : aligned.obey reader (.header .menu) number = .ok menu := by
    simp only [obey, openHeader, hfirst, bind, Except.bind]
    exact henter
  refine ⟨menu, hfeed.trans hobey, ?_⟩
  have hawaits' := hopened.awaits hopen.indent_eq indent.isBlank indent.ne_nil
  refine (hchoices _ menu first (fun _ _ => False) (hmargin.append indent.isBlank)
    (hawaits'.imp fun fork hfork => ⟨[], hfork.forked hopen.sound rfl, ?_, [], ?_⟩)).imp ?_
  · rw [hfork.top_eq.1]
  · rw [hfork.top_eq.1]
  rintro after ⟨frame, hframe, hcloses⟩
  refine ⟨first, hQfirst, ?_⟩
  have hplayed : Closes margin first.frames after
      (Played margin (choices.Plays reader) first) := by
    refine (hcloses.weaken indent.isBlank).pop ⟨_, hframe, indent.ne_nil, indent.isBlank⟩ ?_
    rintro fork ⟨next, hnext, hfork⟩ line
    obtain ⟨ends, hends⟩ := hfork.role_eq
    obtain ⟨last, hclose, hlast⟩ := hfork.forked.close_all hopen (by simp [hends])
      (by simp [Frame.exits, hends, Role.ends]) hnext line
    exact ⟨last, hclose, hlast.congr fun records outcome => by simp [Meaning.either]⟩
  rw [first.frames_eq] at hplayed
  exact hplayed.settles hopen.indent_eq fun last hlast =>
    ⟨hlast.isOpen.indent_eq, hlast.isOpen.role_ne_chain, hlast⟩

/-! ## Chains -/

/-- A chain that is left is closed before the next statement. -/
theorem settles_chain {before : Draft κ} {frame : Frame} {skippable : Bool}
    {meaning : Meaning κ} {Q : Draft κ → Prop} (hopen : Open margin before)
    (hframe : frame.indent = some margin)
    (hcloses : Closes margin (frame :: before.frames) draft fun fork =>
      ∃ next, next ≠ [] ∧ AtFork (.chain · skippable) true margin next meaning before fork)
    (hclose : ∀ next ends fork, next ≠ [] → Forked true next meaning before fork →
      fork.top.role = .chain ends skippable → ∀ line, ∃ after, fork.close line = .ok after ∧ Q after) :
    Settles margin before.below draft Q := by
  rw [before.frames_eq] at hcloses
  refine hcloses.settles_chain hframe hopen.indent_eq ?_
  rintro fork ⟨next, hnext, hfork⟩
  obtain ⟨ends, hends⟩ := hfork.role_eq
  exact ⟨hfork.indent_eq, ⟨ends, skippable, hends⟩,
    hclose next ends fork hnext hfork.forked hends⟩

theorem Branches.reads_none : Branches.none.Reads reader := by
  intro margin draft before frame meaning hmargin hopen hframe hcloses
  refine feeds_nil (settles_chain hopen hframe hcloses ?_)
  intro next ends fork _ hfork hrole line
  exact hfork.close_skip hopen (by simp [hrole]) (by simp [Frame.exits, hrole, Role.ends]) line

/-- A further branch is opened. -/
theorem obey_further {next : List Label} {meaning : Meaning κ}
    (h : AtFork (.chain · true) true margin next meaning draft fork) (kind : Branch)
    (number : Nat) :
    ∃ covered fork' label, fork.obey reader (.header (.branch kind)) number = .ok fork' ∧
      AtFork (.chain · (kind == .elif)) true margin next meaning draft covered ∧
      label.isSynthetic = true ∧
      Opened { block := label, role := .arm } false covered fork' := by
  obtain ⟨ends, hends⟩ := h.role_eq
  have hcovered := h.covers hends (kind == .elif)
  obtain ⟨fork', henter, hopened⟩ :=
    enterFresh_spec hcovered.forked.sound .arm number rfl
  exact ⟨_, fork', _, (obey_branch hends kind number).trans henter, hcovered, rfl, hopened⟩

theorem Branches.reads_otherwise (line : Line (.header (.branch .otherwise))) (indent : Indent)
    {body : Body} (hbody : body.Reads reader) :
    (Branches.otherwise line indent body).Reads reader := by
  intro margin draft before frame meaning hmargin hopen hframe hcloses
  have hawaits := hcloses.awaits hframe fun _ ⟨_, _, hfork⟩ => hfork.indent_eq
  refine feeds_cons fun number => ?_
  obtain ⟨fork, ⟨next, -, hfork⟩, hfeed⟩ := hawaits.feed hmargin line number
  obtain ⟨covered, fork', label, hobey, hcovered, hsynthetic, hopened⟩ :=
    obey_further hfork .otherwise number
  refine ⟨fork', hfeed.trans hobey, ?_⟩
  refine (hbody.arm (isFork_chain false) hcovered hopened hsynthetic hmargin indent).imp
    fun after hcloses => ?_
  refine settles_chain hopen hcovered.indent_eq
    (hcloses.imp fun _ hlast => ⟨_, by simp, hlast⟩) ?_
  intro next ends fork hnext hfork hrole line
  exact hfork.close_all hopen (by simp [hrole]) (by simp [Frame.exits, hrole, Role.ends]) hnext line

theorem Branches.reads_elif (line : Line (.header (.branch .elif))) (indent : Indent)
    {body : Body} {rest : Branches} (hbody : body.Reads reader) (hrest : rest.Reads reader) :
    (Branches.elif line indent body rest).Reads reader := by
  intro margin draft before frame meaning hmargin hopen hframe hcloses
  have hawaits := hcloses.awaits hframe fun _ ⟨_, _, hfork⟩ => hfork.indent_eq
  refine feeds_cons fun number => ?_
  obtain ⟨fork, ⟨next, -, hfork⟩, hfeed⟩ := hawaits.feed hmargin line number
  obtain ⟨covered, fork', label, hobey, hcovered, hsynthetic, hopened⟩ :=
    obey_further hfork .elif number
  refine ⟨fork', hfeed.trans hobey, ?_⟩
  refine (hbody.arm (isFork_chain true) hcovered hopened hsynthetic hmargin indent).append
    fun middle hcloses => ?_
  refine (hrest margin middle before covered.top _ hmargin hopen hcovered.indent_eq
    (hcloses.imp fun _ hlast => ⟨_, by simp, hlast⟩)).imp fun after hsettles => ?_
  exact hsettles.imp fun last hlast => hlast.congr fun records outcome => or_assoc

theorem Item.reads_chain (line : Line (.header .condition)) (indent : Indent) {body : Body}
    {branches : Branches} (hbody : body.Reads reader) (hbranches : branches.Reads reader) :
    (Item.chain line indent body branches).Reads reader := by
  intro margin draft Q hmargin hQ hawaits
  refine feeds_cons fun number => ?_
  obtain ⟨aligned, first, hQfirst, hfirst, hfeed⟩ := hawaits.feed_unchained hmargin line number
  have hopen := hQ first hQfirst
  obtain ⟨chain, hchain, hopened⟩ := openChain_spec hopen.sound number
  obtain ⟨arm, harm, hopened'⟩ := enterFresh_spec hopened.sound .arm number rfl
  have hobey : aligned.obey reader (.header .condition) number = .ok arm := by
    simp only [obey, openHeader, hfirst, bind, Except.bind, hchain]
    exact harm
  refine ⟨arm, hfeed.trans hobey, ?_⟩
  have hfork : AtFork (.chain · true) true margin [] (fun _ _ => False) first chain := by
    refine ⟨hopened.forked hopen.sound rfl, ?_, [], ?_⟩
    · rw [hopened.top_eq.1]
      exact hopen.indent_eq
    · rw [hopened.top_eq.1]
  refine (hbody.arm (isFork_chain true) hfork hopened' rfl hmargin indent).append
    fun middle hcloses => ?_
  refine (hbranches margin middle first chain.top _ hmargin hopen hfork.indent_eq
    (hcloses.imp fun _ hlast => ⟨_, by simp, hlast⟩)).imp fun after hsettles => ?_
  refine ⟨first, hQfirst, hsettles.imp fun last hlast => hlast.congr fun records outcome => ?_⟩
  simp [Item.Plays, Meaning.either]

/-! ## The induction -/

mutual

theorem Body.reads (reader : LineReader κ) : ∀ body : Body, body.Reads reader
  | .last item => Body.reads_last (Item.reads reader item)
  | .leave exit => Body.reads_leave exit
  | .cons item rest => Body.reads_cons (Item.reads reader item) (Body.reads reader rest)

theorem Item.reads (reader : LineReader κ) : ∀ item : Item, item.Reads reader
  | .content said line => Item.reads_content said line
  | .menu line indent choices => Item.reads_menu line indent (Choices.reads reader choices)
  | .chain line indent body branches =>
    Item.reads_chain line indent (Body.reads reader body) (Branches.reads reader branches)

theorem Choices.reads (reader : LineReader κ) : ∀ choices : Choices, choices.Reads reader
  | .last line indent body => Choices.reads_last line indent (Body.reads reader body)
  | .cons line indent body rest =>
    Choices.reads_cons line indent (Body.reads reader body) (Choices.reads reader rest)

theorem Branches.reads (reader : LineReader κ) : ∀ branches : Branches, branches.Reads reader
  | .none => Branches.reads_none
  | .otherwise line indent body => Branches.reads_otherwise line indent (Body.reads reader body)
  | .elif line indent body rest =>
    Branches.reads_elif line indent (Body.reads reader body) (Branches.reads reader rest)

end

end Outline

end Playthrough
