import Playthrough.Proofs.Draft.Nesting

/-!
# Which lines are aligned

A line is compared with the open bodies one by one, from the innermost out to the first whose
indentation it carries, and only then it turns out whether some of its blanks are left over. As the
bodies are nested, the indentation of each carries those of the bodies around it, so the comparison
comes down to one question: whether the indentation of the line is that of an open body.

The first line of a body is compared with the body around it alone.

* `Nest.margin_prefix`, `Nest.margin_ne`: the indentations of nested bodies.
* `Tidy.frames_closeMany`: closing bodies leaves the others as they are.
* `Draft.Lands`: the innermost body whose indentation a line carries.
* `Draft.Establishes`, `Draft.Dedents`: what aligning the first line of a body comes to, and what
  aligning a later line does.
* `aligns_feedAll`: this is so in the draft of every script.
-/

namespace Playthrough

open Script Text

variable {κ : Type}

/-! ## Margins of nested bodies -/

namespace Nest

variable {frame other : Frame} {rest : List Frame}

/-- A body carries the indentation of all bodies around it. -/
theorem margin_prefix (h : Nest (frame :: rest)) (hframe : frame.indent.isSome)
    (hother : other ∈ rest) : other.margin <+: frame.margin := by
  induction rest generalizing frame with
  | nil => cases hother
  | cons outer rest ih =>
    cases h with
    | body hinside hrest =>
      have houter : outer.margin <+: frame.margin := by
        cases hchain : frame.role.isChain with
        | true => rw [Frame.margin, Frame.margin, (hinside.level hchain).1]
        | false =>
          obtain ⟨indent, hindent⟩ := Option.isSome_iff_exists.1 hframe
          obtain ⟨more, -, -, heq⟩ := hinside.deeper hchain indent hindent
          exact ⟨more, by rw [← heq, Frame.margin, hindent, Option.getD_some]⟩
      rcases List.mem_cons.1 hother with rfl | hother
      · exact houter
      · exact (ih hrest hinside.known hother).trans houter

/-- Only a chain of conditions has the indentation of a body around it. -/
theorem margin_ne (h : Nest (frame :: rest)) (hframe : frame.indent.isSome)
    (hchain : frame.role.isChain = false) (hother : other ∈ rest) :
    other.margin ≠ frame.margin := by
  cases h with
  | root => cases hother
  | @body _ outer back hinside hrest =>
    obtain ⟨indent, hindent⟩ := Option.isSome_iff_exists.1 hframe
    obtain ⟨more, hmore, -, heq⟩ := hinside.deeper hchain indent hindent
    have hle : other.margin.length ≤ outer.margin.length := by
      rcases List.mem_cons.1 hother with rfl | hother
      · exact le_rfl
      · exact (hrest.margin_prefix hinside.known hother).length_le
    have hlt : 0 < more.length := List.length_pos_iff.2 hmore
    intro hsame
    have hlength : other.margin.length = outer.margin.length + more.length := by
      rw [hsame, Frame.margin, hindent, Option.getD_some, heq, List.length_append]
    omega

theorem blanks_margin (h : Nest (frame :: rest)) : Blanks frame.margin :=
  h.blanks frame List.mem_cons_self

end Nest

namespace Draft

variable {draft draft' : Draft κ} {line : List Char} {number : Nat}

/-! ## Closing bodies -/

/-- Closing a body leaves those around it open, with the indentations they have. -/
theorem Tidy.frames_close (h : Tidy draft) {inner outer : Frame} {rest : List Frame}
    (hframes : draft.frames = inner :: outer :: rest) (hclose : draft.close number = .ok draft') :
    ∃ outer', draft'.frames = outer' :: rest ∧ outer'.indent = outer.indent := by
  by_cases hrole : inner.role = .arm
  · have hfork : outer.role.isFork = true := by
      have hnest := h.nest
      rw [hframes] at hnest
      cases hnest with
      | body hinside _ => exact hinside.arm hrole
    obtain ⟨closed, hclosed, hframes', -⟩ :=
      close_arm h.sound hframes hrole (Role.ends_collect hfork _) number
    obtain rfl := Except.ok.inj (hclosed.symm.trans hclose)
    exact ⟨_, hframes', rfl⟩
  · obtain ⟨closed, hclosed, hjoined⟩ := close_join h.sound hframes hrole number
    obtain rfl := Except.ok.inj (hclosed.symm.trans hclose)
    obtain ⟨next, back, hbelow, hframes'⟩ := hjoined.frames_eq
    obtain ⟨rfl, rfl⟩ := List.cons.inj ((top_of_frames hframes).2.symm.trans hbelow)
    exact ⟨_, hframes', rfl⟩

/-- Closing the bodies above some frame makes it the innermost. -/
theorem Tidy.frames_closeMany (h : Tidy draft) {above below : List Frame} {frame : Frame}
    (hframes : draft.frames = above ++ frame :: below)
    (hclose : draft.closeMany number above.length = .ok draft') :
    ∃ frame', draft'.frames = frame' :: below ∧ frame'.indent = frame.indent := by
  -- closing a body may change the one around it, so the induction is on how many are closed
  generalize hcount : above.length = count at hclose
  induction count generalizing draft above frame with
  | zero =>
    obtain rfl := List.length_eq_zero_iff.1 hcount
    obtain rfl := Except.ok.inj hclose
    exact ⟨frame, hframes, rfl⟩
  | succ count ih =>
    obtain ⟨middle, hmiddle, hrest⟩ := bind_eq_ok.1 hclose
    obtain ⟨middle', hmiddle', -, hready, -⟩ := h.close number
    obtain rfl := Except.ok.inj (hmiddle.symm.trans hmiddle')
    obtain ⟨inner, above, rfl⟩ := List.exists_cons_of_length_eq_add_one hcount
    rw [List.length_cons, Nat.add_right_cancel_iff] at hcount
    cases above with
    | nil =>
      obtain ⟨frame', hframes', hindent⟩ := h.frames_close hframes hmiddle
      have hnone : middle.frames = [] ++ frame' :: below := hframes'
      obtain ⟨frame'', hlast, hindent'⟩ := ih hready.toTidy hnone hcount hrest
      exact ⟨frame'', hlast, hindent'.trans hindent⟩
    | cons outer above =>
      obtain ⟨outer', hframes', -⟩ := h.frames_close hframes hmiddle
      have hsplit : middle.frames = (outer' :: above) ++ frame :: below := hframes'
      exact ih hready.toTidy hsplit hcount hrest

/-! ## The first line of a body -/

theorem establish_eq_ok {chars rest : List Char} (h : draft.establish chars = .ok (draft', rest)) :
    ∃ text, chars = draft.enclosing.margin ++ text ∧ rest = trimStart text ∧
      draft' = draft.modifyTop fun frame =>
        { frame with indent := some (draft.enclosing.margin ++ leading text) } := by
  unfold establish at h
  dsimp only at h
  split at h
  · cases h
  · rename_i text htext
    split at h
    · cases h
    · cases h
      exact ⟨text, (List.isPrefixOf?_eq_some_iff_append_eq.1 htext).symm, rfl, rfl⟩

/-- What aligning the first line of a body comes to, given the indentation of the body around it. -/
structure Establishes (outer line : List Char) (number : Nat) (draft : Draft κ) : Prop where
  dedented : draft.align line number =
      .error (.indentation number (String.ofList line) .dedentedBody) ↔
    ¬ outer <+: leading line
  unindented : draft.align line number =
      .error (.indentation number (String.ofList line) .unindentedBody) ↔
    leading line = outer
  /-- The body takes its indentation from the line, and all bodies stay open. -/
  deeper : outer <+: leading line → leading line ≠ outer → draft.align line number = .ok
    (draft.modifyTop fun frame => { frame with indent := some (leading line) }, trimStart line)

/-- The three ways in which the first line of a body can be indented. -/
theorem align_unknown (hindent : draft.top.indent = none) {outer : List Char}
    (houter : draft.enclosing.margin = outer) (hblanks : Blanks outer) (line : List Char)
    (number : Nat) :
    draft.align line number =
      if outer <+: leading line then
        if leading line = outer then
          .error (.indentation number (String.ofList line) .unindentedBody)
        else .ok (draft.modifyTop fun frame => { frame with indent := some (leading line) },
          trimStart line)
      else .error (.indentation number (String.ofList line) .dedentedBody) := by
  unfold align establish
  rw [hindent, houter]
  dsimp only
  cases htext : outer.isPrefixOf? line with
  | none =>
    have hnot : ¬ outer <+: leading line := by
      rw [prefix_leading_iff hblanks]
      rintro ⟨rest, rfl⟩
      rw [isPrefixOf?_append] at htext
      cases htext
    rw [if_neg hnot]
    rfl
  | some text =>
    obtain rfl := List.isPrefixOf?_eq_some_iff_append_eq.1 htext
    obtain ⟨hleading, htrim⟩ := leading_append hblanks text
    rw [hleading, htrim, if_pos (List.prefix_append _ _)]
    by_cases hempty : leading text = [] <;> simp [hempty, Except.mapError]

theorem Tidy.establishes (h : Tidy draft) (hindent : draft.top.indent = none)
    (line : List Char) (number : Nat) :
    ∃ outer, draft.enclosing.indent = some outer ∧ Establishes outer line number draft := by
  have hnest := h.nest
  rw [frames_eq] at hnest
  obtain ⟨frame, back, hbelow, -, hinside, -⟩ := hnest.of_unknown hindent
  have henclosing : draft.enclosing = frame := enclosing_eq (by rw [draft.frames_eq, hbelow])
  obtain ⟨outer, houter⟩ := Option.isSome_iff_exists.1 hinside.known
  have hmargin : frame.margin = outer := by rw [Frame.margin, houter, Option.getD_some]
  have hblanks : Blanks outer := hmargin ▸ hnest.blanks frame (by simp [hbelow])
  have halign := align_unknown hindent (henclosing ▸ hmargin) hblanks line number
  refine ⟨outer, henclosing ▸ houter, ?_, ?_, ?_⟩
  · rw [halign]
    by_cases hcarries : outer <+: leading line
    · by_cases hsame : leading line = outer <;> simp [hcarries, hsame]
    · simp [hcarries]
  · rw [halign]
    by_cases hcarries : outer <+: leading line
    · by_cases hsame : leading line = outer <;> simp [hcarries, hsame]
    · have hne : leading line ≠ outer := fun hsame => hcarries (hsame ▸ List.prefix_rfl)
      simp [hcarries, hne]
  · intro hcarries hne
    rw [halign, if_pos hcarries, if_neg hne]

/-! ## Later lines -/

/-- The open bodies that a line ends are the innermost ones, out to one that carries it. -/
theorem Tidy.ended_split (h : Tidy draft) (line : List Char) :
    ∃ frame rest, draft.frames = draft.ended line ++ frame :: rest ∧ frame.margin <+: line := by
  have hsplit : draft.ended line ++
      (draft.stack.dropWhile fun frame => !frame.margin.isPrefixOf line) = draft.stack :=
    List.takeWhile_append_dropWhile
  cases hdrop : draft.stack.dropWhile fun frame => !frame.margin.isPrefixOf line with
  | nil =>
    rw [hdrop, List.append_nil] at hsplit
    refine ⟨draft.root, [], ?_, ?_⟩
    · rw [frames, hsplit]
    · rw [Frame.margin, h.nest.root_indent]
      exact List.nil_prefix
  | cons frame rest =>
    refine ⟨frame, rest ++ [draft.root], ?_, ?_⟩
    · rw [frames, ← List.cons_append, ← List.append_assoc, ← hdrop, hsplit]
    · have hcarried :=
        List.head?_dropWhile_not (fun frame => !frame.margin.isPrefixOf line) draft.stack
      rw [hdrop] at hcarried
      simpa using hcarried

/-- A frame is the innermost one whose indentation a line carries. -/
structure Lands (line : List Char) (draft : Draft κ) (above : List Frame) (frame : Frame)
    (below : List Frame) : Prop where
  frames_eq : draft.frames = above ++ frame :: below
  known : ∀ other ∈ draft.frames, other.indent = some other.margin
  carried : frame.margin <+: leading line
  ended : ∀ other ∈ above, ¬ other.margin <+: leading line

theorem Tidy.exists_lands (h : Tidy draft) (hknown : draft.top.indent.isSome)
    (line : List Char) :
    ∃ frame below, draft.Lands line (draft.ended line) frame below := by
  obtain ⟨frame, below, hframes, hcarried⟩ := h.ended_split line
  have hblanks := h.nest.blanks
  refine ⟨frame, below, hframes, ?_, ?_, ?_⟩
  · have hnest := h.nest
    rw [Draft.frames_eq] at hnest ⊢
    have hall : ∀ other ∈ draft.top :: draft.below, other.indent.isSome :=
      List.forall_mem_cons.2 ⟨hknown, fun other hother => hnest.known hother⟩
    intro other hother
    obtain ⟨indent, hindent⟩ := Option.isSome_iff_exists.1 (hall other hother)
    rw [Frame.margin, hindent, Option.getD_some]
  · rwa [prefix_leading_iff (hblanks frame (by simp [hframes]))]
  · intro other hother
    rw [prefix_leading_iff (hblanks other (by simp [hframes, hother])),
      ← List.isPrefixOf_iff_prefix, Bool.not_eq_true]
    simpa using List.mem_takeWhile_imp hother

namespace Lands

variable {above below : List Frame} {frame : Frame}

/-- If a body has just the indentation of the line, then it is this one, or one around it that is
    level with it. -/
theorem margin_eq_iff (h : draft.Lands line above frame below) (hnest : Nest draft.frames) :
    frame.margin = leading line ↔ ∃ other ∈ draft.frames, other.indent = some (leading line) := by
  have hmem : frame ∈ draft.frames := by simp [h.frames_eq]
  constructor
  · intro hmargin
    exact ⟨frame, hmem, hmargin ▸ h.known frame hmem⟩
  · rintro ⟨other, hother, hindent⟩
    have hmargin : other.margin = leading line := by rw [Frame.margin, hindent, Option.getD_some]
    rw [h.frames_eq, List.mem_append, List.mem_cons] at hother
    rcases hother with hother | rfl | hother
    · exact absurd (hmargin ▸ List.prefix_rfl) (h.ended other hother)
    · exact hmargin
    · -- a body around this one has no further blanks than this one, so both have those of the line
      have hinner : Nest (frame :: below) := (h.frames_eq ▸ hnest).of_append
      have hcarries : other.margin <+: frame.margin :=
        hinner.margin_prefix (by rw [h.known frame hmem]; rfl) hother
      exact h.carried.eq_of_length_le (hmargin ▸ hcarries.length_le)

/-- The line carries the indentation of an open body, other than the top level. -/
theorem below_ne_nil_iff (h : draft.Lands line above frame below) :
    below ≠ [] ↔ ∃ other ∈ draft.stack, ∃ indent, other.indent = some indent ∧
      indent <+: leading line := by
  have hstack : draft.stack = above ++ (frame :: below).dropLast := by
    have := congrArg List.dropLast h.frames_eq
    rwa [frames, List.dropLast_concat, List.dropLast_append_cons] at this
  constructor
  · intro hbelow
    refine ⟨frame, ?_, frame.margin, h.known frame (by simp [h.frames_eq]), h.carried⟩
    rw [hstack, List.dropLast_cons_of_ne_nil hbelow]
    simp
  · rintro ⟨other, hother, indent, hindent, hcarries⟩ rfl
    have hmargin : other.margin = indent := by rw [Frame.margin, hindent, Option.getD_some]
    rw [hstack, List.dropLast_singleton, List.append_nil] at hother
    exact h.ended other hother (hmargin ▸ hcarries)

end Lands

/-- The three ways in which a later line can be indented. -/
theorem Tidy.align_known (h : Tidy draft) {below : List Frame} {frame : Frame}
    (hlands : draft.Lands line (draft.ended line) frame below) (number : Nat) :
    ∃ closed, draft.closeMany number (draft.ended line).length = .ok closed ∧
      closed.top.indent = some frame.margin ∧ closed.below = below ∧
      draft.align line number =
        if frame.margin = leading line then .ok (closed, trimStart line)
        else if below = [] then
          .error (.indentation number (String.ofList line) .indentedTopLevel)
        else .error (.indentation number (String.ofList line) .unmatchedDedent) := by
  obtain ⟨closed, hclose, -⟩ := h.closeMany number (draft.ended line).length
  obtain ⟨frame', hframes, hindent⟩ := h.frames_closeMany hlands.frames_eq hclose
  obtain ⟨htop, hbelow⟩ := top_of_frames hframes
  have hmem : frame ∈ draft.frames := by simp [hlands.frames_eq]
  have hknown := hlands.known frame hmem
  have hblanks := h.nest.blanks frame hmem
  have hindent' : closed.top.indent = some frame.margin := by rw [htop, hindent, hknown]
  refine ⟨closed, hclose, hindent', hbelow, ?_⟩
  obtain ⟨text, rfl⟩ := (prefix_leading_iff hblanks).1 hlands.carried
  obtain ⟨hleading, htrim⟩ := leading_append hblanks text
  have hstack : closed.stack = [] ↔ below = [] := by
    rw [← hbelow, Draft.below, Draft.frames]
    cases closed.stack <;> simp
  obtain ⟨indent, htopindent⟩ : ∃ indent, draft.top.indent = some indent :=
    ⟨_, hlands.known draft.top (by rw [Draft.frames_eq]; exact List.mem_cons_self)⟩
  unfold Draft.align
  rw [htopindent, hclose]
  have hmargin : closed.top.margin = frame.margin := by
    rw [Frame.margin, hindent', Option.getD_some]
  simp only [bind, Except.bind, hmargin, isPrefixOf?_append, Option.getD_some, hleading, htrim]
  by_cases hempty : leading text = []
  · have hsplit := leading_append_trimStart text
    rw [hempty, List.nil_append] at hsplit
    simp [hempty, hsplit, pure, Except.pure]
  · by_cases hnil : below = []
    · simp [hempty, hnil, hstack.2 hnil, throw, throwThe, MonadExceptOf.throw]
    · have hne : closed.stack ≠ [] := fun hnone => hnil (hstack.1 hnone)
      simp [hempty, hnil, hne, throw, throwThe, MonadExceptOf.throw]

/-- The indentation of a line is that of an open body, or nothing at all. -/
def Level (line : List Char) (draft : Draft κ) : Prop :=
  leading line = [] ∨ ∃ frame ∈ draft.stack, frame.indent = some (leading line)

/-- A line carries the indentation of an open body, other than the top level. -/
def Carried (line : List Char) (draft : Draft κ) : Prop :=
  ∃ frame ∈ draft.stack, ∃ indent, frame.indent = some indent ∧ indent <+: leading line

/-- What aligning a later line of a body does. -/
structure Dedents (line : List Char) (number : Nat) (draft : Draft κ) : Prop where
  accepted : (∃ result, draft.align line number = .ok result) ↔ draft.Level line
  /-- The bodies above the innermost one with the indentation of the line are closed, and no
      others. -/
  closes : ∀ aligned rest, draft.align line number = .ok (aligned, rest) →
    rest = trimStart line ∧ ∃ above frame below, draft.frames = above ++ frame :: below ∧
      frame.indent = some (leading line) ∧ (∀ other ∈ above, other.indent ≠ some (leading line)) ∧
      draft.closeMany number above.length = .ok aligned ∧
      aligned.top.indent = some (leading line) ∧ aligned.below = below
  topLevel : draft.align line number =
      .error (.indentation number (String.ofList line) .indentedTopLevel) ↔
    ¬ draft.Level line ∧ ¬ draft.Carried line
  unmatched : draft.align line number =
      .error (.indentation number (String.ofList line) .unmatchedDedent) ↔
    ¬ draft.Level line ∧ draft.Carried line

/-- The top level counts as an open body. -/
theorem Tidy.level_iff (h : Tidy draft) (line : List Char) :
    draft.Level line ↔ ∃ frame ∈ draft.frames, frame.indent = some (leading line) := by
  have hroot : draft.root.indent = some [] := h.nest.root_indent
  rw [Level, frames]
  constructor
  · rintro (hnone | ⟨frame, hframe, hindent⟩)
    · exact ⟨draft.root, by simp, by rw [hroot, hnone]⟩
    · exact ⟨frame, by simp [hframe], hindent⟩
  · rintro ⟨frame, hframe, hindent⟩
    rcases List.mem_append.1 hframe with hframe | hframe
    · exact .inr ⟨frame, hframe, hindent⟩
    · rw [List.mem_singleton.1 hframe, hroot] at hindent
      exact .inl (Option.some.inj hindent).symm

theorem Tidy.dedents (h : Tidy draft) (hknown : draft.top.indent.isSome) (line : List Char)
    (number : Nat) : Dedents line number draft := by
  obtain ⟨frame, below, hlands⟩ := h.exists_lands hknown line
  obtain ⟨closed, hclose, hindent, hbelow, halign⟩ := h.align_known hlands number
  have hlevel : draft.Level line ↔ frame.margin = leading line :=
    (h.level_iff line).trans (hlands.margin_eq_iff h.nest).symm
  have hcarried : draft.Carried line ↔ below ≠ [] := hlands.below_ne_nil_iff.symm
  refine ⟨?_, ?_, ?_, ?_⟩
  · rw [halign, hlevel]
    by_cases hmargin : frame.margin = leading line
    · simp [hmargin]
    · by_cases hnil : below = [] <;> simp [hmargin, hnil]
  · intro aligned rest hok
    have hmargin : frame.margin = leading line := by
      by_contra hmargin
      by_cases hnil : below = [] <;> simp [halign, hmargin, hnil] at hok
    rw [halign, if_pos hmargin] at hok
    obtain ⟨rfl, rfl⟩ := Prod.mk.inj (Except.ok.inj hok)
    refine ⟨rfl, draft.ended line, frame, below, hlands.frames_eq, ?_, ?_, hclose,
      hmargin ▸ hindent, hbelow⟩
    · exact hmargin ▸ hlands.known frame (by simp [hlands.frames_eq])
    · intro other hother hsame
      refine hlands.ended other hother ?_
      rw [Frame.margin, hsame, Option.getD_some]
  · rw [halign, hlevel, hcarried]
    by_cases hmargin : frame.margin = leading line
    · simp [hmargin]
    · by_cases hnil : below = [] <;> simp [hmargin, hnil]
  · rw [halign, hlevel, hcarried]
    by_cases hmargin : frame.margin = leading line
    · simp [hmargin]
    · by_cases hnil : below = [] <;> simp [hmargin, hnil]

/-! ## Scripts -/

/-- **Alignment.** In the draft of a script, the first line of a body must go beyond the body around
    it, and a later line is accepted exactly if its indentation is that of an open body. -/
theorem aligns_feedAll {reader : LineReader κ} {lines : List (String × Nat)}
    (h : start.feedAll reader lines = .ok draft) (line : List Char) (number : Nat) :
    (draft.top.indent = none → ∃ outer, draft.enclosing.indent = some outer ∧
      Establishes outer line number draft) ∧
    (draft.top.indent ≠ none → Dedents line number draft) := by
  have htidy := (tidy_start.feedAll h).1
  refine ⟨fun hindent => htidy.establishes hindent line number, fun hindent => ?_⟩
  exact htidy.dedents (Option.isSome_iff_ne_none.2 hindent) line number

/-- The last branch of the harbour has no line yet, and one that is level with its header does not
    go in it. Before that header a choice of the menu could follow as well, with the indentation of
    the first, but no line with three blanks. -/
theorem aligns_feedAll_harbour :
    ∃ whole part : Draft ℕ,
      start.feedAll LineReader.scenes (harbourLines.zipIdx 1) = .ok whole ∧
      start.feedAll LineReader.scenes ((harbourLines.take 7).zipIdx 1) = .ok part ∧
      whole.align "      scene ramp".toList 9 =
        .error (.indentation 9 "      scene ramp" .unindentedBody) ∧
      (∃ aligned, part.align "    \"swim\":".toList 8 = .ok (aligned, "\"swim\":".toList) ∧
        aligned.top.indent = some (List.replicate 4 ' ')) ∧
      part.align "   scene ramp".toList 8 =
        .error (.indentation 8 "   scene ramp" .unmatchedDedent) := by
  have hwhole : (do
      let draft ← (start : Draft ℕ).feedAll LineReader.scenes (harbourLines.zipIdx 1)
      return (draft.top.indent, draft.enclosing.indent)) =
      Except.ok (none, some (List.replicate 6 ' ')) := by decide +kernel
  have hpart : (do
      let draft ← (start : Draft ℕ).feedAll LineReader.scenes ((harbourLines.take 7).zipIdx 1)
      return (draft.top.indent, draft.stack.map Frame.indent)) =
      Except.ok (some (List.replicate 8 ' '),
        [8, 6, 6, 4, 2].map fun count => some (List.replicate count ' ')) := by decide +kernel
  obtain ⟨whole, hread, hindents⟩ := bind_eq_ok.1 hwhole
  obtain ⟨htop, henclosing⟩ := Prod.mk.inj (Except.ok.inj hindents)
  obtain ⟨part, hread', hindents'⟩ := bind_eq_ok.1 hpart
  obtain ⟨htop', hstack⟩ := Prod.mk.inj (Except.ok.inj hindents')
  have hopen : ∀ indent, (∃ frame ∈ part.stack, frame.indent = indent) ↔
      indent ∈ [8, 6, 6, 4, 2].map fun count => some (List.replicate count ' ') := by
    intro indent
    rw [← hstack, List.mem_map]
  refine ⟨whole, part, hread, hread', ?_, ?_, ?_⟩
  · obtain ⟨outer, houter, hfirst⟩ := (aligns_feedAll hread "      scene ramp".toList 9).1 htop
    refine hfirst.unindented.2 ?_
    rw [← Option.some.inj (henclosing.symm.trans houter)]
    decide +kernel
  · have hdedents := (aligns_feedAll hread' "    \"swim\":".toList 8).2 (by simp [htop'])
    obtain ⟨⟨aligned, rest⟩, halign⟩ := hdedents.accepted.2 (.inr ((hopen _).2 (by decide +kernel)))
    obtain ⟨rfl, -, -, -, -, -, -, -, hindent, -⟩ := hdedents.closes aligned rest halign
    exact ⟨aligned, halign, hindent⟩
  · have hdedents := (aligns_feedAll hread' "   scene ramp".toList 8).2 (by simp [htop'])
    obtain ⟨frame, hframe, hindent⟩ := (hopen (some (List.replicate 2 ' '))).2 (by decide +kernel)
    refine hdedents.unmatched.2 ⟨?_, frame, hframe, _, hindent, by decide +kernel⟩
    rw [Level, hopen]
    decide +kernel

end Draft

end Playthrough
