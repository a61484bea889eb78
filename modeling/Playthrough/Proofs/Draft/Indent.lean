import Playthrough.Proofs.Draft.Growth
import Playthrough.Proofs.Script.Comment
import Playthrough.Draft.Finish

/-!
# Lines and the bodies they close

A body stays open until a line with less indentation ends it, and a chain of conditions until a line
that is no further branch. So after the last line of a body its frame is still there, with all
frames above it. What these frames mean is known only once they are closed, whatever line does it.

* `Draft.Closes`: what holds once the deeper bodies are closed.
* `Draft.Settles`: the same, and a chain of conditions that is left over is closed as well.
* `Draft.Awaits`: what holds when the next line of a body is read, before it is carried out.
* `Draft.Feeds`: what holds after some lines, whatever their numbers.
-/

namespace Playthrough

open Text Script

variable {κ : Type}

/-! ## Blanks in front of a line -/

/-- All characters are blanks. -/
def Blanks (cs : List Char) : Prop := ∀ c ∈ cs, isBlank c = true

theorem Blanks.append {cs ds : List Char} (hcs : Blanks cs) (hds : Blanks ds) :
    Blanks (cs ++ ds) := by
  intro c hc
  rcases List.mem_append.1 hc with hc | hc
  · exact hcs c hc
  · exact hds c hc

/-- Blanks in front of a line belong to its indentation. -/
theorem leading_append {indent : List Char} (h : Blanks indent) (rest : List Char) :
    leading (indent ++ rest) = indent ++ leading rest ∧
      trimStart (indent ++ rest) = trimStart rest := by
  unfold leading trimStart
  exact ⟨List.takeWhile_append_of_pos h, List.dropWhile_append_of_pos h⟩

/-- A line carries some blanks when its indentation does. -/
theorem prefix_leading_iff {indent line : List Char} (h : Blanks indent) :
    indent <+: leading line ↔ indent <+: line := by
  refine ⟨fun hcarries => hcarries.trans (List.takeWhile_prefix _), ?_⟩
  rintro ⟨rest, rfl⟩
  rw [(leading_append h rest).1]
  exact List.prefix_append _ _

/-- A text with code in it that does not start with a blank. -/
structure Flush (text : List Char) : Prop where
  leading_eq : leading text = []
  isCode : isBlankLine text = false

theorem Flush.exists_cons {text : List Char} (h : Flush text) :
    ∃ c cs, text = c :: cs ∧ isBlank c = false := by
  obtain ⟨hleading, hcode⟩ := h
  cases text with
  | nil => cases hcode
  | cons c cs =>
    refine ⟨c, cs, rfl, ?_⟩
    by_contra hblank
    simp [leading, hblank] at hleading

theorem splitComment_blanks {blanks : List Char} (h : Blanks blanks) (text : List Char) :
    splitComment (blanks ++ text) = (splitComment text).prepend blanks :=
  splitComment_unmarked (fun c hc => isBlank_not_mark (h c hc)) text

theorem isBlankLine_blanks {blanks : List Char} (h : Blanks blanks) (text : List Char) :
    isBlankLine (blanks ++ text) = isBlankLine text := by
  have hall : blanks.all isBlank = true := List.all_eq_true.2 h
  rw [isBlankLine, splitComment_blanks h, Split.prepend, List.all_append, hall, Bool.true_and,
    isBlankLine]

theorem leading_blanks {blanks text : List Char} (h : Blanks blanks) (hflush : Flush text) :
    leading (blanks ++ text) = blanks ∧ trimStart (blanks ++ text) = text := by
  obtain ⟨c, cs, rfl, hc⟩ := hflush.exists_cons
  unfold leading trimStart
  rw [List.takeWhile_append_of_pos h, List.dropWhile_append_of_pos h]
  simp [hc]

theorem isPrefixOf?_append (front text : List Char) :
    front.isPrefixOf? (front ++ text) = some text :=
  List.isPrefixOf?_eq_some_iff_append_eq.2 rfl

/-- A line does not carry more blanks than it starts with. -/
theorem not_isPrefixOf_blanks {margin more text : List Char} (hblanks : Blanks more)
    (hmore : more ≠ []) (hflush : Flush text) :
    (margin ++ more).isPrefixOf (margin ++ text) = false := by
  obtain ⟨c, cs, rfl, hc⟩ := hflush.exists_cons
  rw [← Bool.not_eq_true, List.isPrefixOf_iff_prefix, List.prefix_append_right_inj]
  cases more with
  | nil => exact absurd rfl hmore
  | cons d ds =>
    rw [List.cons_prefix_cons]
    rintro ⟨rfl, -⟩
    rw [hblanks d List.mem_cons_self] at hc
    cases hc

namespace Draft

variable {draft : Draft κ} {margin : List Char} {rest : List Frame} {Q Q' : Draft κ → Prop}

/-! ## Closing several bodies -/

theorem closeMany_add (line first second : Nat) (draft : Draft κ) :
    draft.closeMany line (first + second) =
      draft.closeMany line first >>= fun draft => draft.closeMany line second := by
  induction first generalizing draft with
  | zero => rw [Nat.zero_add]; rfl
  | succ first ih =>
    rw [Nat.succ_add, closeMany, closeMany]
    cases draft.close line with
    | error fault => rfl
    | ok closed => exact ih closed

theorem closeMany_trans {line first second : Nat} {middle after : Draft κ}
    (h : draft.closeMany line first = .ok middle)
    (h' : middle.closeMany line second = .ok after) :
    draft.closeMany line (first + second) = .ok after := by
  rw [closeMany_add, h]
  exact h'

theorem closeMany_one {line : Nat} {after : Draft κ} (h : draft.close line = .ok after) :
    draft.closeMany line 1 = .ok after := by
  rw [closeMany, h]
  rfl

/-- The indentation of a body goes beyond a margin. -/
def Deeper (margin : List Char) (frame : Frame) : Prop :=
  ∃ more, frame.indent = some (margin ++ more) ∧ more ≠ [] ∧ Blanks more

/-- `Q` holds once the bodies above `rest` are closed, all of which go beyond the margin. -/
def Closes (margin : List Char) (rest : List Frame) (draft : Draft κ) (Q : Draft κ → Prop) :
    Prop :=
  ∃ deep, draft.frames = deep ++ rest ∧ (∀ frame ∈ deep, Deeper margin frame) ∧
    ∀ line last, ∃ closed,
      closeMany line deep.length { draft with lastLine := last } = .ok closed ∧ Q closed

/-- `Q` holds once a chain of conditions that is left over is closed. -/
def Unchained (Q : Draft κ → Prop) (draft : Draft κ) : Prop :=
  ∀ line, ∃ settled, draft.closeChain line = .ok settled ∧ Q settled

/-- `Q` holds once the body above `rest` is the innermost one again and no chain of conditions is
    left open in it. -/
def Settles (margin : List Char) (rest : List Frame) (draft : Draft κ) (Q : Draft κ → Prop) :
    Prop :=
  ∃ chain frame, (∀ other ∈ chain, other.indent = some margin) ∧ frame.indent = some margin ∧
    Closes margin (chain ++ frame :: rest) draft fun closed =>
      closed.top.indent = some margin ∧ ∀ line, ∃ settled, closed.closeChain line = .ok settled ∧
        closed.closeMany line chain.length = .ok settled ∧ Q settled

/-- `Q` holds when the next line of a body is read, before it is carried out. -/
def Awaits (margin : List Char) (draft : Draft κ) (Q : Draft κ → Prop) : Prop :=
  ∀ line text, Flush text → ∃ aligned,
    { draft with lastLine := line }.align (margin ++ text) line = .ok (aligned, text) ∧ Q aligned

/-! ## Alignment -/

/-- The first line of a body sets its indentation. -/
theorem align_first {frame outer : Frame} (hframes : draft.frames = frame :: outer :: rest)
    (hframe : frame.indent = none) (houter : outer.indent = some margin)
    {more text : List Char} (hblanks : Blanks more) (hmore : more ≠ []) (hflush : Flush text)
    (line : Nat) :
    draft.align (margin ++ more ++ text) line = .ok
      (draft.modifyTop fun frame => { frame with indent := some (margin ++ more) }, text) := by
  obtain ⟨stack, hstack, hbelow⟩ := stack_of_frames hframes
  have htop : draft.top = frame := (top_of_frames hframes).1
  have henclosing : draft.enclosing = outer := by
    have := (top_of_frames hbelow).1
    rw [top] at this
    rw [enclosing, hstack]
    exact this
  obtain ⟨hleading, htrim⟩ := leading_blanks hblanks hflush
  have hempty : more.isEmpty = false := by
    cases more with
    | nil => exact absurd rfl hmore
    | cons c cs => rfl
  unfold align
  rw [htop, hframe, establish, henclosing, Frame.margin, houter, Option.getD_some,
    List.append_assoc, isPrefixOf?_append]
  simp only [hleading, htrim, hempty]
  rfl

theorem ended_eq {deep : List Frame} {frame : Frame} {text : List Char}
    (hframes : draft.frames = deep ++ frame :: rest) (hframe : frame.indent = some margin)
    (hdeep : ∀ frame ∈ deep, Deeper margin frame) (hflush : Flush text) :
    draft.ended (margin ++ text) = deep := by
  have hpos : ∀ frame ∈ deep, (!frame.margin.isPrefixOf (margin ++ text)) = true := by
    intro frame hmem
    obtain ⟨more, hindent, hmore, hblanks⟩ := hdeep frame hmem
    rw [Frame.margin, hindent, Option.getD_some, not_isPrefixOf_blanks hblanks hmore hflush]
    rfl
  have hneg : (!frame.margin.isPrefixOf (margin ++ text)) = false := by
    rw [Frame.margin, hframe, Option.getD_some, Bool.not_eq_false', List.isPrefixOf_iff_prefix]
    exact List.prefix_append _ _
  have hstack : draft.stack = deep ++ (frame :: rest).dropLast := by
    have := congrArg List.dropLast hframes
    rwa [frames, List.dropLast_concat, List.dropLast_append_cons] at this
  rw [ended, hstack, List.takeWhile_append_of_pos hpos]
  cases rest with
  | nil => simp
  | cons next rest => simp [hneg]

/-- A later line closes the bodies that go beyond its indentation. -/
theorem align_later {deep : List Frame} {frame : Frame} {text : List Char} {closed : Draft κ}
    (hframes : draft.frames = deep ++ frame :: rest) (hframe : frame.indent = some margin)
    (hdeep : ∀ frame ∈ deep, Deeper margin frame) (hflush : Flush text) {line : Nat}
    (hclose : draft.closeMany line deep.length = .ok closed)
    (htop : closed.top.indent = some margin) :
    draft.align (margin ++ text) line = .ok (closed, text) := by
  obtain ⟨indent, hindent⟩ : ∃ indent, draft.top.indent = some indent := by
    cases deep with
    | nil =>
      rw [(top_of_frames hframes).1]
      exact ⟨margin, hframe⟩
    | cons first deep =>
      rw [(top_of_frames hframes).1]
      obtain ⟨more, hfirst, -⟩ := hdeep first List.mem_cons_self
      exact ⟨_, hfirst⟩
  have hrest : (closed.top.margin.isPrefixOf? (margin ++ text)).getD (margin ++ text) = text := by
    rw [Frame.margin, htop, Option.getD_some, isPrefixOf?_append, Option.getD_some]
  unfold align
  rw [hindent]
  dsimp only
  rw [ended_eq hframes hframe hdeep hflush, hclose]
  simp only [bind, Except.bind, hrest, hflush.leading_eq]
  rfl

/-- A body was opened, and its first line is next. -/
theorem Opened.awaits {draft' : Draft κ} {label : Label} {role : Role} {final : Bool}
    (h : Opened { block := label, role } final draft draft')
    (hindent : draft.top.indent = some margin) {more : List Char} (hblanks : Blanks more)
    (hmore : more ≠ []) :
    Awaits (margin ++ more) draft'
      (Opened { block := label, indent := some (margin ++ more), role } final draft) := by
  intro line text hflush
  have hframes : ({ draft' with lastLine := line } : Draft κ).frames =
      { block := label, role } :: draft.top :: draft.below :=
    h.frames_eq.trans (by rw [draft.frames_eq])
  refine ⟨_, align_first hframes rfl hindent hblanks hmore hflush line, ?_⟩
  exact (h.mark_line line).establish (some (margin ++ more))

theorem Closes.awaits {frame : Frame} (h : Closes margin (frame :: rest) draft Q)
    (hframe : frame.indent = some margin)
    (hQ : ∀ closed, Q closed → closed.top.indent = some margin) : Awaits margin draft Q := by
  intro line text hflush
  obtain ⟨deep, hframes, hdeep, hclose⟩ := h
  obtain ⟨closed, hclosed, hQclosed⟩ := hclose line line
  change ({ draft with lastLine := line } : Draft κ).frames = _ at hframes
  exact ⟨closed, align_later hframes hframe hdeep hflush hclosed (hQ closed hQclosed), hQclosed⟩

/-- The next line of a body that has been read into. -/
theorem Settles.awaits (h : Settles margin rest draft Q) :
    Awaits margin draft (Unchained Q) := by
  intro line text hflush
  obtain ⟨chain, frame, hchain, hframe, hcloses⟩ := h
  obtain ⟨first, others, hfirst, hindent⟩ : ∃ first others, chain ++ frame :: rest =
      first :: others ∧ first.indent = some margin := by
    cases chain with
    | nil => exact ⟨frame, rest, rfl, hframe⟩
    | cons first chain => exact ⟨first, _, rfl, hchain first List.mem_cons_self⟩
  rw [hfirst] at hcloses
  obtain ⟨aligned, halign, -, hsettle⟩ :=
    hcloses.awaits hindent (fun _ hclosed => hclosed.1) line text hflush
  refine ⟨aligned, halign, fun line => ?_⟩
  obtain ⟨settled, hsettled, -, hQ⟩ := hsettle line
  exact ⟨settled, hsettled, hQ⟩

theorem Awaits.imp (h : Awaits margin draft Q) (hQ : ∀ aligned, Q aligned → Q' aligned) :
    Awaits margin draft Q' := by
  intro line text hflush
  obtain ⟨aligned, halign, haligned⟩ := h line text hflush
  exact ⟨aligned, halign, hQ aligned haligned⟩

theorem Settles.imp (h : Settles margin rest draft Q) (hQ : ∀ settled, Q settled → Q' settled) :
    Settles margin rest draft Q' := by
  obtain ⟨chain, frame, hchain, hframe, deep, hframes, hdeep, hclosed⟩ := h
  refine ⟨chain, frame, hchain, hframe, deep, hframes, hdeep, fun line last => ?_⟩
  obtain ⟨closed, hclosed, hindent, hsettle⟩ := hclosed line last
  refine ⟨closed, hclosed, hindent, fun line => ?_⟩
  obtain ⟨settled, hchain, hmany, hsettled⟩ := hsettle line
  exact ⟨settled, hchain, hmany, hQ settled hsettled⟩

/-- The body of a frame that is no chain has no chain left over. -/
theorem closeChain_of_role (hrole : ∀ ends skippable, draft.top.role ≠ .chain ends skippable)
    (line : Nat) : draft.closeChain line = .ok draft := by
  unfold closeChain
  split
  · rename_i ends skippable hchain
    exact absurd hchain (hrole ends skippable)
  · rfl

theorem Awaits.unchained (h : Awaits margin draft Q)
    (hrole : ∀ aligned, Q aligned → ∀ ends skippable, aligned.top.role ≠ .chain ends skippable) :
    Awaits margin draft (Unchained Q) :=
  h.imp fun aligned haligned line => ⟨aligned, closeChain_of_role (hrole aligned haligned) line,
    haligned⟩

/-! ## Leaving bodies -/

theorem Deeper.weaken {more : List Char} {frame : Frame} (h : Deeper (margin ++ more) frame)
    (hblanks : Blanks more) : Deeper margin frame := by
  obtain ⟨further, hframe, hfurther, hblanks'⟩ := h
  refine ⟨more ++ further, by rw [hframe, List.append_assoc], ?_, hblanks.append hblanks'⟩
  intro hnil
  exact hfurther (List.append_eq_nil_iff.1 hnil).2

theorem Closes.imp (h : Closes margin rest draft Q) (hQ : ∀ closed, Q closed → Q' closed) :
    Closes margin rest draft Q' := by
  obtain ⟨deep, hframes, hdeep, hclosed⟩ := h
  refine ⟨deep, hframes, hdeep, fun line last => ?_⟩
  obtain ⟨closed, hclosed, hQclosed⟩ := hclosed line last
  exact ⟨closed, hclosed, hQ closed hQclosed⟩

theorem Closes.weaken {more : List Char} (h : Closes (margin ++ more) rest draft Q)
    (hblanks : Blanks more) : Closes margin rest draft Q := by
  obtain ⟨deep, hframes, hdeep, hclosed⟩ := h
  exact ⟨deep, hframes, fun frame hframe => (hdeep frame hframe).weaken hblanks, hclosed⟩

/-- Nothing was opened since. -/
theorem closes_self (hQ : ∀ last, Q { draft with lastLine := last }) :
    Closes margin draft.frames draft Q :=
  ⟨[], rfl, by simp, fun _ last => ⟨{ draft with lastLine := last }, rfl, hQ last⟩⟩

/-- Closing one more body. -/
theorem Closes.pop {frame : Frame} (h : Closes margin (frame :: rest) draft Q)
    (hframe : Deeper margin frame)
    (hclose : ∀ closed, Q closed → ∀ line, ∃ after, closed.close line = .ok after ∧ Q' after) :
    Closes margin rest draft Q' := by
  obtain ⟨deep, hframes, hdeep, hclosed⟩ := h
  refine ⟨deep ++ [frame], by rw [hframes, List.append_assoc, List.singleton_append], ?_, ?_⟩
  · intro other hother
    rcases List.mem_append.1 hother with hother | hother
    · exact hdeep other hother
    · rw [List.mem_singleton.1 hother]
      exact hframe
  · intro line last
    obtain ⟨closed, hclosed, hQ⟩ := hclosed line last
    obtain ⟨after, hafter, hQ'⟩ := hclose closed hQ line
    rw [List.length_append, List.length_singleton]
    exact ⟨after, closeMany_trans hclosed (closeMany_one hafter), hQ'⟩

/-- A body ends for good when a line with a smaller margin comes. -/
theorem Settles.leave {more : List Char} (h : Settles (margin ++ more) rest draft Q)
    (hblanks : Blanks more) (hmore : more ≠ [])
    (hclose : ∀ settled, Q settled → ∀ line, ∃ after,
      settled.close line = .ok after ∧ Q' after) :
    Closes margin rest draft Q' := by
  obtain ⟨chain, frame, hchain, hframe, deep, hframes, hdeep, hclosed⟩ := h
  refine ⟨deep ++ (chain ++ [frame]), by simp [hframes], ?_, ?_⟩
  · intro other hother
    have hdeeper : ∀ other : Frame, other.indent = some (margin ++ more) → Deeper margin other :=
      fun other hother => ⟨more, hother, hmore, hblanks⟩
    rcases List.mem_append.1 hother with hother | hother
    · exact (hdeep other hother).weaken hblanks
    · rcases List.mem_append.1 hother with hother | hother
      · exact hdeeper other (hchain other hother)
      · rw [List.mem_singleton.1 hother]
        exact hdeeper frame hframe
  · intro line last
    obtain ⟨closed, hclosed, -, hsettle⟩ := hclosed line last
    obtain ⟨settled, -, hsettled, hQ⟩ := hsettle line
    obtain ⟨after, hafter, hQ'⟩ := hclose settled hQ line
    rw [List.length_append, List.length_append, List.length_singleton]
    exact ⟨after, closeMany_trans hclosed (closeMany_trans hsettled (closeMany_one hafter)), hQ'⟩

/-- Back in a body that is no chain. -/
theorem Closes.settles {frame : Frame} (h : Closes margin (frame :: rest) draft Q)
    (hframe : frame.indent = some margin)
    (hQ : ∀ closed, Q closed → closed.top.indent = some margin ∧
      (∀ ends skippable, closed.top.role ≠ .chain ends skippable) ∧ Q' closed) :
    Settles margin rest draft Q' := by
  obtain ⟨deep, hframes, hdeep, hclosed⟩ := h
  refine ⟨[], frame, by simp, hframe, deep, hframes, hdeep, ?_⟩
  intro line last
  obtain ⟨closed, hclosed, hQclosed⟩ := hclosed line last
  obtain ⟨hindent, hrole, hQ'⟩ := hQ closed hQclosed
  exact ⟨closed, hclosed, hindent, fun line => ⟨closed, closeChain_of_role hrole line, rfl, hQ'⟩⟩

/-- Back in a chain of conditions, which the body around does not keep open. -/
theorem Closes.settles_chain {chain frame : Frame}
    (h : Closes margin (chain :: frame :: rest) draft Q) (hchain : chain.indent = some margin)
    (hframe : frame.indent = some margin)
    (hQ : ∀ closed, Q closed → closed.top.indent = some margin ∧
      (∃ ends skippable, closed.top.role = .chain ends skippable) ∧
      ∀ line, ∃ after, closed.close line = .ok after ∧ Q' after) :
    Settles margin rest draft Q' := by
  obtain ⟨deep, hframes, hdeep, hclosed⟩ := h
  refine ⟨[chain], frame, by simpa using hchain, hframe, deep, hframes, hdeep, ?_⟩
  intro line last
  obtain ⟨closed, hclosed, hQclosed⟩ := hclosed line last
  obtain ⟨hindent, ⟨ends, skippable, hrole⟩, hclose⟩ := hQ closed hQclosed
  refine ⟨closed, hclosed, hindent, fun line => ?_⟩
  obtain ⟨after, hafter, hQ'⟩ := hclose line
  refine ⟨after, ?_, closeMany_one hafter, hQ'⟩
  unfold closeChain
  rw [hrole]
  exact hafter

/-- At the end of the script. -/
theorem Settles.finish (h : Settles margin [] draft Q) :
    ∃ settled, draft.finish = .ok (StoryGraph.ofBlocks settled.blocks) ∧ Q settled := by
  obtain ⟨chain, frame, -, -, deep, hframes, -, hclosed⟩ := h
  obtain ⟨closed, hclosed, -, hsettle⟩ := hclosed draft.lastLine draft.lastLine
  obtain ⟨settled, -, hsettled, hQ⟩ := hsettle draft.lastLine
  refine ⟨settled, ?_, hQ⟩
  have hlength : draft.stack.length = deep.length + chain.length := by
    have := congrArg List.length hframes
    simp only [frames, List.length_append, List.length_singleton] at this
    omega
  unfold Draft.finish
  rw [hlength, closeMany_trans hclosed hsettled]
  rfl

/-! ## Reading lines -/

/-- A line with code is carried out where it is aligned. -/
theorem feed_of_align (reader : LineReader κ) {line : String} {number : Nat} {aligned : Draft κ}
    {rest : List Char} (hcode : isBlankLine line.toList = false)
    (halign : { draft with lastLine := number }.align line.toList number = .ok (aligned, rest)) :
    draft.feed reader line number =
      aligned.obey reader (statement (String.ofList rest)) number := by
  unfold feed
  simp only [hcode, Bool.false_eq_true, if_false, halign]
  rfl

theorem feed_eq (reader : LineReader κ) {text : String} {aligned : Draft κ} {line : Nat}
    (hmargin : Blanks margin) (hflush : Flush text.toList)
    (halign : { draft with lastLine := line }.align (margin ++ text.toList) line =
      .ok (aligned, text.toList)) :
    draft.feed reader (String.ofList (margin ++ text.toList)) line =
      aligned.obey reader (statement text) line := by
  have hline : (String.ofList (margin ++ text.toList)).toList = margin ++ text.toList :=
    String.toList_ofList
  have hcode : isBlankLine (String.ofList (margin ++ text.toList)).toList = false := by
    rw [hline, isBlankLine_blanks hmargin, hflush.isCode]
  rw [← hline] at halign
  rw [feed_of_align reader hcode halign, String.ofList_toList]

/-- `Q` holds after the given lines, whatever their numbers. -/
def Feeds (reader : LineReader κ) (lines : List String) (draft : Draft κ) (Q : Draft κ → Prop) :
    Prop :=
  ∀ numbered : List (String × Nat), numbered.map Prod.fst = lines →
    ∃ after, draft.feedAll reader numbered = .ok after ∧ Q after

variable {reader : LineReader κ}

theorem Feeds.imp {lines : List String} (h : Feeds reader lines draft Q)
    (hQ : ∀ after, Q after → Q' after) : Feeds reader lines draft Q' := by
  intro numbered hnumbered
  obtain ⟨after, hfeed, hafter⟩ := h numbered hnumbered
  exact ⟨after, hfeed, hQ after hafter⟩

theorem feeds_nil (hQ : Q draft) : Feeds reader [] draft Q := by
  intro numbered hnumbered
  obtain rfl := List.map_eq_nil_iff.1 hnumbered
  exact ⟨draft, rfl, hQ⟩

theorem feeds_cons {line : String} {lines : List String}
    (h : ∀ number, ∃ next, draft.feed reader line number = .ok next ∧
      Feeds reader lines next Q) : Feeds reader (line :: lines) draft Q := by
  intro numbered hnumbered
  cases numbered with
  | nil => cases hnumbered
  | cons first numbered =>
    rw [List.map_cons, List.cons.injEq] at hnumbered
    obtain ⟨next, hfeed, hrest⟩ := h first.2
    obtain ⟨after, hafter, hQ⟩ := hrest numbered hnumbered.2
    refine ⟨after, ?_, hQ⟩
    rw [feedAll, List.foldlM_cons, hnumbered.1, hfeed]
    exact hafter

theorem Feeds.append {first second : List String} (h : Feeds reader first draft Q)
    (h' : ∀ middle, Q middle → Feeds reader second middle Q') :
    Feeds reader (first ++ second) draft Q' := by
  intro numbered hnumbered
  obtain ⟨front, back, rfl, hfront, hback⟩ := List.map_eq_append_iff.1 hnumbered
  obtain ⟨middle, hmiddle, hQ⟩ := h front hfront
  obtain ⟨after, hafter, hQ'⟩ := h' middle hQ back hback
  refine ⟨after, ?_, hQ'⟩
  rw [feedAll, List.foldlM_append]
  rw [feedAll] at hmiddle hafter
  rw [hmiddle]
  exact hafter

end Draft

end Playthrough
