import Playthrough.Proofs.Draft.Handover
import Playthrough.Proofs.Draft.Siblings

/-!
# Open chains of conditions

While a chain of conditions is open its block stays the same, and so do the bodies around it. So all
its branches are entered from one block, and the chain collects all their ends. The chain is a frame
of its own, level with the body it stands in, and it is there exactly if the last statement in that
body is one of its headers.

* `Frame.Regains`: what becomes of a frame when the bodies above it close.
* `Opens`, `Dispatches`: a branch is opened; what is known of an open chain and its branches.
* `Dispatches.first`, `Dispatches.further`, `Dispatches.collect`: a branch is opened or closes.
* `Frame.Branched`, `Branched`: what is known of an open body, and of all of them.
* `Branched.mono`, `Branched.reread`, `Branched.stand`: what changes of the blocks and further lines
  do to this.
-/

namespace Playthrough

open Script Text

variable {κ : Type}

/-- A chain of conditions is level with the body it stands in, which is no chain. -/
theorem Nest.around_chain {chain : Frame} {rest : List Frame} (h : Nest (chain :: rest))
    (hchain : chain.role.isChain = true) :
    ∃ outer back, rest = outer :: back ∧ outer.indent = chain.indent ∧
      outer.role.isChain = false ∧ Nest (outer :: back) := by
  cases h with
  | root _ hrole =>
    rw [hrole] at hchain
    cases hchain
  | body hinside hrest =>
    obtain ⟨hlevel, hapart⟩ := hinside.level hchain
    exact ⟨_, _, rfl, hlevel.symm, hapart, hrest⟩

/-! ## Open chains -/

/-- What becomes of a frame when the bodies above it close, where `above` is the kind of the one
    directly above. -/
inductive Frame.Regains (frame : Frame) : Option Role → Frame → Prop
  | none : Regains frame none frame
  | arm (last : Label) : Regains frame (some .arm) { frame with role := frame.role.collect last }
  | body {kind : Role} (h : kind ≠ .arm) (merge : Label) :
      Regains frame (some kind) { frame with block := merge }

theorem Frame.Regains.kind_eq {frame frame' : Frame} {above : Option Role}
    (h : frame.Regains above frame') :
    frame'.role.kind = frame.role.kind ∧ frame'.indent = frame.indent := by
  cases h with
  | none => exact ⟨rfl, rfl⟩
  | arm last => exact ⟨Role.kind_collect last _, rfl⟩
  | body h merge => exact ⟨rfl, rfl⟩

/-- The last line of a part of a script opens a branch of a chain. -/
def Opens (reader : LineReader κ) (part : List (String × Nat)) (arm : Label) (chain : Frame)
    (rest : List Frame) : Prop :=
  ∃ behind : Draft κ, Draft.start.feedAll reader part = .ok behind ∧
    behind.frames = { block := arm, role := .arm } :: chain :: rest

/-- What an open chain of conditions has gathered of its branches. The parts of the script each end
    with the header of one of them. -/
structure Dispatches (reader : LineReader κ) (atlas : Atlas κ) (parts : List (List (String × Nat)))
    (arms ends : List Label) (chain : Frame) (rest : List Frame) : Prop where
  /-- The chain can be skipped until a branch covers all other cases. -/
  role_eq : chain.role = .chain ends (!parts.any isElse)
  /-- All branches are entered from the block of the chain. -/
  dispatch : ∃ block, atlas chain.block = some block ∧ block.next = arms ∧ block.disabled = false
  length_eq : arms.length = parts.length
  scope : ∀ arm ∈ arms, ∃ index line, arm = .synthetic index line .scope
  /-- Each branch was opened right above this chain, which had the ends of the earlier ones. -/
  branch : ∀ position part arm, parts[position]? = some part → arms[position]? = some arm →
    Opens reader part arm
      { chain with role := .chain (ends.take position) (!(parts.take (position + 1)).any isElse) }
      rest

namespace Dispatches

variable {reader : LineReader κ} {atlas atlas' : Atlas κ} {parts : List (List (String × Nat))}
variable {arms ends : List Label} {chain : Frame} {rest : List Frame}

theorem mono (h : Dispatches reader atlas parts arms ends chain rest)
    (hblock : ∀ block, atlas chain.block = some block → atlas' chain.block = some block) :
    Dispatches reader atlas' parts arms ends chain rest := by
  obtain ⟨block, hdispatch, hnext⟩ := h.dispatch
  exact ⟨h.role_eq, ⟨block, hblock block hdispatch, hnext⟩, h.length_eq, h.scope, h.branch⟩

/-- The last branch closes and leaves its end with the chain. -/
theorem collect (h : Dispatches reader atlas parts arms ends chain rest)
    (hlength : arms.length = ends.length + 1) (last : Label) :
    Dispatches reader atlas parts arms (ends ++ [last])
      { chain with role := chain.role.collect last } rest where
  role_eq := by
    change chain.role.collect last = _
    rw [h.role_eq]
    rfl
  dispatch := h.dispatch
  length_eq := h.length_eq
  scope := h.scope
  branch := by
    intro position part arm hpart harm
    have hlt : position < arms.length := (List.getElem?_eq_some_iff.1 harm).1
    rw [List.take_append_of_le_length (by omega)]
    exact h.branch position part arm hpart harm

/-- When the bodies above it have closed, a chain has the ends of all its branches. -/
theorem regain (h : Dispatches reader atlas parts arms ends chain rest) {above : Option Role}
    {chain' : Frame} (habove : above = none ∨ above = some .arm)
    (hlength : arms.length = ends.length + above.toList.length)
    (hregains : chain.Regains above chain') :
    ∃ more, Dispatches reader atlas parts arms (ends ++ more) chain' rest ∧
      arms.length = (ends ++ more).length ∧ ∃ role, chain' = { chain with role } := by
  cases hregains with
  | none => exact ⟨[], by simpa using h, by simpa using hlength, _, rfl⟩
  | arm last => exact ⟨[last], h.collect hlength last, by simpa using hlength, _, rfl⟩
  | body hkind merge => simp [hkind] at habove

/-- A chain is opened with its first branch. -/
theorem first {part : List (String × Nat)} {arm : Label} {block : Block κ}
    (hrole : chain.role = .chain [] true) (hblock : atlas chain.block = some block)
    (hnext : block.next = [arm]) (hdisabled : block.disabled = false) (hpart : isElse part = false)
    (harm : ∃ index line, arm = .synthetic index line .scope)
    (hopens : Opens reader part arm chain rest) :
    Dispatches reader atlas [part] [arm] [] chain rest where
  role_eq := by simp [hrole, hpart]
  dispatch := ⟨block, hblock, hnext, hdisabled⟩
  length_eq := rfl
  scope := by simpa using harm
  branch := by
    intro position part' arm' hpart' harm'
    obtain ⟨rfl, rfl⟩ : position = 0 ∧ part = part' := by
      cases position with
      | zero => exact ⟨rfl, Option.some.inj hpart'⟩
      | succ position => simp at hpart'
    obtain rfl : arm = arm' := Option.some.inj harm'
    have hchain : { chain with role := .chain [] true } = chain := by rw [← hrole]
    simpa [hpart, hchain] using hopens

/-- A further branch is opened when the others have closed. -/
theorem further (h : Dispatches reader atlas parts arms ends chain rest)
    (hlength : arms.length = ends.length) {part : List (String × Nat)} {arm : Label}
    {skippable : Bool} (hskip : skippable = !(parts ++ [part]).any isElse)
    (hblock : ∀ block, atlas chain.block = some block →
      atlas' chain.block = some (block.exit arm false))
    (harm : ∃ index line, arm = .synthetic index line .scope)
    (hopens : Opens reader part arm { chain with role := .chain ends skippable } rest) :
    Dispatches reader atlas' (parts ++ [part]) (arms ++ [arm]) ends
      { chain with role := .chain ends skippable } rest where
  role_eq := by rw [hskip]
  dispatch := by
    obtain ⟨block, hdispatch, hnext, hdisabled⟩ := h.dispatch
    exact ⟨_, hblock block hdispatch, by simp [Block.exit, hdisabled, hnext],
      by simp [Block.exit, hdisabled]⟩
  length_eq := by simp [h.length_eq]
  scope := by
    intro other hother
    rcases List.mem_append.1 hother with hother | hother
    · exact h.scope other hother
    · rw [List.mem_singleton.1 hother]
      exact harm
  branch := by
    intro position part' arm' hpart' harm'
    have hlengths := h.length_eq
    by_cases hlt : position < parts.length
    · rw [List.getElem?_append_left hlt] at hpart'
      rw [List.getElem?_append_left (by omega)] at harm'
      rw [List.take_append_of_le_length (by omega)]
      exact h.branch position part' arm' hpart' harm'
    · have hposition : position = parts.length := by
        have hbound := (List.getElem?_eq_some_iff.1 hpart').1
        simp only [List.length_append, List.length_singleton] at hbound
        omega
      subst hposition
      obtain rfl : part = part' := by simpa using hpart'
      obtain rfl : arm = arm' := by simpa [← hlengths] using harm'
      rw [List.take_of_length_le (by omega), List.take_of_length_le (by simp), ← hskip]
      exact hopens

/-- The last branch is the one that the last header opens. -/
theorem exists_concat {part : List (String × Nat)}
    (h : Dispatches reader atlas (parts ++ [part]) arms ends chain rest) {behind : Draft κ}
    (hbehind : Draft.start.feedAll reader part = .ok behind) {arm : Frame} {others : List Frame}
    (hframes : behind.frames = arm :: others) : ∃ front, arms = front ++ [arm.block] := by
  have hlength := h.length_eq
  rcases List.eq_nil_or_concat arms with rfl | ⟨front, last, rfl⟩
  · simp at hlength
  · simp only [List.concat_eq_append, List.length_append, List.length_singleton,
      Nat.add_right_cancel_iff] at hlength
    obtain ⟨behind', hbehind', hframes'⟩ :=
      h.branch parts.length part last (by simp) (by simp [← hlength])
    obtain rfl := Except.ok.inj (hbehind.symm.trans hbehind')
    rw [hframes, List.cons.injEq] at hframes'
    exact ⟨front, by rw [hframes'.1, List.concat_eq_append]⟩

end Dispatches

/-! ## Open bodies -/

/-- What is known of an open body, where `above` is the kind of the one directly above. -/
structure Frame.Branched (reader : LineReader κ) (atlas : Atlas κ) (read : List (String × Nat))
    (above : Option Role) (rest : List Frame) (frame : Frame) : Prop where
  /-- A chain is open directly in the body exactly if the last statement there is a header of it. -/
  follows : frame.role.isChain = false → ∀ indent, frame.indent = some indent →
    (Follows indent read ↔ above.any Role.isChain = true)
  /-- No statement stands in a body without an indentation. -/
  first : frame.indent = none → ∀ outer ∈ rest.head?, ∀ more, more ≠ [] → Blanks more →
    ¬ Follows (outer.margin ++ more) read
  /-- Only a branch stands directly in a chain, which has the ends of all the others. -/
  chain : frame.role.isChain = true → (above = none ∨ above = some .arm) ∧
    ∃ arms ends, Dispatches reader atlas (headers frame.margin read) arms ends frame rest ∧
      arms.length = ends.length + above.toList.length

/-- All that is known of some open bodies, the innermost first. -/
inductive Branched (reader : LineReader κ) (atlas : Atlas κ) (read : List (String × Nat)) :
    Option Role → List Frame → Prop
  | nil (above : Option Role) : Branched reader atlas read above []
  | cons {above : Option Role} {frame : Frame} {rest : List Frame}
      (hframe : frame.Branched reader atlas read above rest)
      (hrest : Branched reader atlas read (some frame.role.kind) rest) :
      Branched reader atlas read above (frame :: rest)

namespace Frame.Branched

variable {reader : LineReader κ} {atlas atlas' : Atlas κ} {read read' : List (String × Nat)}
variable {above : Option Role} {rest : List Frame} {frame : Frame} {line : String × Nat}

theorem mono (h : frame.Branched reader atlas read above rest)
    (hblock : ∀ block, atlas frame.block = some block → atlas' frame.block = some block) :
    frame.Branched reader atlas' read above rest where
  follows := h.follows
  first := h.first
  chain := by
    intro hchain
    obtain ⟨habove, arms, ends, hdispatches, hlength⟩ := h.chain hchain
    exact ⟨habove, arms, ends, hdispatches.mono hblock, hlength⟩

/-- More lines change nothing for a body in which no statement is added. -/
theorem reread (h : frame.Branched reader atlas read above rest)
    (hsame : ∀ indent, frame.indent.getD indent = indent →
      siblings indent read' = siblings indent read) :
    frame.Branched reader atlas read' above rest where
  follows := by
    intro hchain indent hindent
    rw [follows_congr (hsame indent (by rw [hindent]; rfl))]
    exact h.follows hchain indent hindent
  first := by
    intro hindent outer houter more hmore hblanks
    rw [follows_congr (hsame _ (by rw [hindent]; rfl))]
    exact h.first hindent outer houter more hmore hblanks
  chain := by
    have hheaders : headers frame.margin read' = headers frame.margin read := by
      rw [headers, headers, hsame]
      rw [Frame.margin]
      cases frame.indent <;> rfl
    rw [hheaders]
    exact h.chain

/-- The bodies above close, and no chain was directly in this one. -/
theorem regain (h : frame.Branched reader atlas read above rest) {frame' : Frame}
    (hregains : frame.Regains above frame') (hapart : above.any Role.isChain = false) :
    frame'.Branched reader atlas read none rest := by
  obtain ⟨hkind, hindent⟩ := hregains.kind_eq
  have hchain : frame'.role.isChain = frame.role.isChain := by
    rw [← Role.isChain_kind, hkind, Role.isChain_kind]
  refine ⟨?_, ?_, ?_⟩
  · intro hplain indent hsome
    rw [h.follows (hchain ▸ hplain) indent (hindent ▸ hsome), hapart]
    rfl
  · rw [hindent]
    exact h.first
  · intro hrole
    obtain ⟨habove, arms, ends, hdispatches, hlength⟩ := h.chain (hchain ▸ hrole)
    obtain ⟨more, hdispatches', hlength', -⟩ := hdispatches.regain habove hlength hregains
    have hmargin : frame'.margin = frame.margin := by rw [Frame.margin, hindent, Frame.margin]
    rw [hmargin]
    exact ⟨.inl rfl, arms, ends ++ more, hdispatches', hlength'⟩

/-- The last line stands directly in the body, and opens a chain there if it is to. -/
theorem stand (hcode : isBlankLine line.1.toList = false) (hchain : frame.role.isChain = false)
    (hindent : frame.indent = some (Script.margin line.1))
    (habove : (stated line.1).inChain = above.any Role.isChain) :
    frame.Branched reader atlas (read ++ [line]) above rest where
  follows := by
    intro _ indent hsome
    obtain rfl := Option.some.inj (hindent.symm.trans hsome)
    rw [follows_concat hcode rfl, habove]
  first := by simp [hindent]
  chain := by simp [hchain]

/-- The last line opens the body. -/
theorem fresh {label : Label} {role : Role} {outer : Frame}
    (hcode : isBlankLine line.1.toList = false) (hchain : role.isChain = false)
    (houter : outer.indent = some (Script.margin line.1)) :
    { block := label, role : Frame }.Branched reader atlas (read ++ [line]) none
      (outer :: rest) where
  follows := by simp
  first := by
    rintro - frame ⟨⟩ more hmore hblanks
    have hmargin : outer.margin = Script.margin line.1 := by rw [Frame.margin, houter]; rfl
    rw [hmargin]
    refine not_follows_of_less hcode fun hcarries => hmore ?_
    have hall : Blanks (Script.margin line.1 ++ more) :=
      Blanks.append (fun _ => isBlank_of_mem_leading) hblanks
    have hle := ((prefix_leading_iff hall).2 hcarries).length_le
    rw [List.length_append, Script.margin] at hle
    exact List.length_eq_zero_iff.1 (by omega)
  chain := by simp [hchain]

end Frame.Branched

namespace Branched

variable {reader : LineReader κ} {atlas atlas' : Atlas κ} {read : List (String × Nat)}
variable {above : Option Role} {frames : List Frame} {line : String × Nat}

theorem mono (h : Branched reader atlas read above frames)
    (hblock : ∀ frame ∈ frames, ∀ block, atlas frame.block = some block →
      atlas' frame.block = some block) : Branched reader atlas' read above frames := by
  induction h with
  | nil => exact .nil _
  | cons hframe hrest ih =>
    refine .cons (hframe.mono (hblock _ List.mem_cons_self)) (ih fun other hother => ?_)
    exact hblock other (List.mem_cons_of_mem _ hother)

theorem reread {read' : List (String × Nat)} (h : Branched reader atlas read above frames)
    (hsame : ∀ frame ∈ frames, ∀ indent, frame.indent.getD indent = indent →
      siblings indent read' = siblings indent read) : Branched reader atlas read' above frames := by
  induction h with
  | nil => exact .nil _
  | cons hframe hrest ih =>
    refine .cons (hframe.reread (hsame _ List.mem_cons_self)) (ih fun other hother => ?_)
    exact hsame other (List.mem_cons_of_mem _ hother)

/-- A line adds no statement to the bodies around the one it stands in. -/
theorem pass (h : Branched reader atlas read above frames) {frame : Frame}
    (hnest : Nest (frame :: frames)) (hchain : frame.role.isChain = false)
    (hindent : frame.indent = some (margin line.1)) (hcode : isBlankLine line.1.toList = false) :
    Branched reader atlas (read ++ [line]) above frames := by
  have hknown : frame.indent.isSome := by rw [hindent]; rfl
  have hmargin : frame.margin = margin line.1 := by rw [Frame.margin, hindent]; rfl
  refine h.reread fun other hother indent heq => ?_
  obtain ⟨indent', hother'⟩ := Option.isSome_iff_exists.1 (hnest.known hother)
  have hsame : other.margin = indent := by
    rw [← heq, Frame.margin, hother']
    rfl
  have hcarries := hnest.margin_prefix hknown hother
  have hne := hnest.margin_ne hknown hchain hother
  rw [hsame, hmargin] at hcarries hne
  exact siblings_concat_deeper hcode (hcarries.trans (List.takeWhile_prefix _)) hne.symm

/-- A line stands directly in a body, and a chain is directly above that if the line opens one. -/
theorem stand {frame : Frame} (h : Branched reader atlas read (some frame.role.kind) frames)
    (hnest : Nest (frame :: frames)) (hchain : frame.role.isChain = false)
    (hindent : frame.indent = some (margin line.1)) (hcode : isBlankLine line.1.toList = false)
    (habove : (stated line.1).inChain = above.any Role.isChain) :
    Branched reader atlas (read ++ [line]) above (frame :: frames) :=
  .cons (.stand hcode hchain hindent habove) (h.pass hnest hchain hindent hcode)

theorem of_append {front back : List Frame} {frame : Frame}
    (h : Branched reader atlas read above (front ++ frame :: back)) :
    frame.Branched reader atlas read ((front.getLast?.map fun inner => inner.role.kind).or above)
      back ∧ Branched reader atlas read (some frame.role.kind) back := by
  induction front generalizing above with
  | nil =>
    cases h with
    | cons hframe hrest => exact ⟨hframe, hrest⟩
  | cons inner front ih =>
    cases h with
    | cons _ hrest =>
      have hsplit := ih hrest
      cases front with
      | nil => exact hsplit
      | cons next front =>
        have hlast := List.getLast?_eq_some_getLast (List.cons_ne_nil next front)
        rw [hlast] at hsplit
        rw [List.getLast?_cons_cons, hlast]
        exact hsplit

end Branched

end Playthrough
