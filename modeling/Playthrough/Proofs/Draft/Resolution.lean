import Playthrough.Proofs.Draft.Scopes
import Playthrough.Proofs.Draft.Undeclared

/-!
# What relative names refer to

A relative name continues the full name that was declared last in a body that is still open. The
draft does not know the order in which names were declared: each open body remembers its own last
name, and the bodies are asked from the innermost outwards. Both come to the same, since a body is
only left by closing it. What was declared in it is newer than what was declared around it before it
was opened, and nothing can be declared around it until it is closed.

* `Place`, `Draft.places`: where the statements of a script stand.
* `InForce`, `Recent`: the full names that count at some depth, and the last of them.
* `recent?`: going back from the last statement finds it.
* `Draft.Remembers`: what the open bodies of a draft remember, said on the places alone.
* `Remembers.feed`, `Remembers.feedAll`: reading a line, and a script.
* `resolves_feedAll`: what a line with a relative name does.
-/

namespace Playthrough

open Script Text

variable {κ : Type}

/-- Where a statement of a script stands: how many bodies are open around it. -/
structure Place where
  depth : Nat
  statement : Statement
  deriving DecidableEq

/-! ## The last name declared in an open body -/

/-- The header at the given position declares a full name, and the body it stands in is still open
    at a depth: neither a statement since then nor the depth itself is outside that body. -/
def InForce (places : List Place) (depth position : Nat) (name : String) : Prop :=
  ∃ place, places[position]? = some place ∧ place.statement.fullName? = some name ∧
    place.depth ≤ depth ∧
    ∀ later other, position < later → places[later]? = some other → place.depth ≤ other.depth

/-- The last of the full names that are in force. -/
def Recent (places : List Place) (depth : Nat) (name : String) : Prop :=
  ∃ position, InForce places depth position name ∧
    ∀ other full, InForce places depth other full → other ≤ position

/-- Goes back from the last statement, and out of the bodies that were opened on the way. -/
def recent? (depth : Nat) : List Place → Option String
  | [] => none
  | place :: past =>
    if place.depth ≤ depth then place.statement.fullName?.or (recent? place.depth past)
    else recent? depth past

theorem getElem?_concat_eq_some_iff {places : List Place} {place other : Place} {position : Nat} :
    (places ++ [place])[position]? = some other ↔
      places[position]? = some other ∨ position = places.length ∧ place = other := by
  rw [List.getElem?_append]
  split
  · rename_i hlt
    simp [hlt.ne]
  · rename_i hge
    have hnone : places[position]? = none := List.getElem?_eq_none (Nat.le_of_not_lt hge)
    rw [List.getElem?_singleton, hnone]
    split <;> simp <;> omega

/-- One more statement can declare a name, and it can leave bodies. -/
theorem inForce_concat {places : List Place} {place : Place} {depth position : Nat}
    {name : String} :
    InForce (places ++ [place]) depth position name ↔
      (position = places.length ∧ place.statement.fullName? = some name ∧ place.depth ≤ depth) ∨
        InForce places (min place.depth depth) position name := by
  have hlast : (places ++ [place])[places.length]? = some place :=
    getElem?_concat_eq_some_iff.2 (.inr ⟨rfl, rfl⟩)
  constructor
  · rintro ⟨header, hheader, hname, hdepth, hlater⟩
    rcases getElem?_concat_eq_some_iff.1 hheader with hheader | ⟨hposition, rfl⟩
    · have hlt : position < places.length := (List.getElem?_eq_some_iff.1 hheader).1
      refine .inr ⟨header, hheader, hname, le_min (hlater _ _ hlt hlast) hdepth, ?_⟩
      exact fun later other hlt hother =>
        hlater later other hlt (getElem?_concat_eq_some_iff.2 (.inl hother))
    · exact .inl ⟨hposition, hname, hdepth⟩
  · rintro (⟨rfl, hname, hdepth⟩ | ⟨header, hheader, hname, hdepth, hlater⟩)
    · refine ⟨place, hlast, hname, hdepth, fun later other hlt hother => ?_⟩
      have hbound := (List.getElem?_eq_some_iff.1 hother).1
      rw [List.length_append, List.length_singleton] at hbound
      omega
    · obtain ⟨hplace, hdepth⟩ := le_min_iff.1 hdepth
      refine ⟨header, getElem?_concat_eq_some_iff.2 (.inl hheader), hname, hdepth, ?_⟩
      intro later other hlt hother
      rcases getElem?_concat_eq_some_iff.1 hother with hother | ⟨-, rfl⟩
      · exact hlater later other hlt hother
      · exact hplace

theorem InForce.lt_length {places : List Place} {depth position : Nat} {name : String}
    (h : InForce places depth position name) : position < places.length := by
  obtain ⟨place, hplace, -⟩ := h
  exact (List.getElem?_eq_some_iff.1 hplace).1

theorem Recent.unique {places : List Place} {depth : Nat} {name other : String}
    (h : Recent places depth name) (h' : Recent places depth other) : name = other := by
  obtain ⟨position, hforce, hlast⟩ := h
  obtain ⟨position', hforce', hlast'⟩ := h'
  obtain rfl : position = position' := le_antisymm (hlast' _ _ hforce) (hlast _ _ hforce')
  obtain ⟨place, hplace, hname, -⟩ := hforce
  obtain ⟨place', hplace', hother, -⟩ := hforce'
  obtain rfl := Option.some.inj (hplace.symm.trans hplace')
  exact Option.some.inj (hname.symm.trans hother)

theorem Recent.exists_inForce {places : List Place} {depth : Nat} {name : String}
    (h : Recent places depth name) : ∃ position name, InForce places depth position name := by
  obtain ⟨position, hforce, -⟩ := h
  exact ⟨position, name, hforce⟩

/-- Going back finds the last name in force, if there is one. -/
theorem recent?_spec (places : List Place) (depth : Nat) :
    (recent? depth places.reverse = none →
      ¬ ∃ position name, InForce places depth position name) ∧
    ∀ name, recent? depth places.reverse = some name → Recent places depth name := by
  induction places using List.reverseRecOn generalizing depth with
  | nil =>
    refine ⟨fun _ => ?_, by simp [recent?]⟩
    rintro ⟨position, name, hforce⟩
    exact absurd hforce.lt_length (Nat.not_lt_zero _)
  | append_singleton places place ih =>
    rw [List.reverse_concat, recent?]
    -- the last statement declares a name that counts, or the names that count are earlier ones, at
    -- the depth of the last statement if that is less
    by_cases hdepth : place.depth ≤ depth
    · rw [if_pos hdepth]
      cases hfull : place.statement.fullName? with
      | some full =>
        refine ⟨by simp, ?_⟩
        rintro name ⟨⟩
        refine ⟨places.length, inForce_concat.2 (.inl ⟨rfl, hfull, hdepth⟩), ?_⟩
        intro other name hforce
        have hlt := hforce.lt_length
        rw [List.length_append, List.length_singleton] at hlt
        exact Nat.le_of_lt_succ hlt
      | none =>
        have hforce : ∀ position name, InForce (places ++ [place]) depth position name ↔
            InForce places place.depth position name := by
          intro position name
          rw [inForce_concat, hfull, min_eq_left hdepth]
          simp
        simp only [Option.none_or, Recent, hforce]
        exact ih place.depth
    · have hforce : ∀ position name, InForce (places ++ [place]) depth position name ↔
          InForce places depth position name := by
        intro position name
        rw [inForce_concat, min_eq_right (Nat.le_of_not_le hdepth)]
        simp [hdepth]
      simp only [if_neg hdepth, Recent, hforce]
      exact ih depth

/-! ## What a body remembers -/

/-- The last full name declared in the body at a depth since it was opened, the latest statement
    first. -/
def lastName (depth : Nat) : List Place → Option String
  | [] => none
  | place :: past =>
    if place.depth < depth then none
    else if place.depth = depth then place.statement.fullName?.or (lastName depth past)
    else lastName depth past

/-- The last names of the bodies below a depth, the innermost first. -/
def lastNames (past : List Place) : Nat → List (Option String)
  | 0 => []
  | depth + 1 => lastName depth past :: lastNames past depth

theorem length_lastNames (past : List Place) (depth : Nat) :
    (lastNames past depth).length = depth := by
  induction depth with
  | zero => rfl
  | succ depth ih => rw [lastNames, List.length_cons, ih]

theorem eq_lastNames_of_suffix {past : List Place} {depth : Nat} {names : List (Option String)}
    (h : names <:+ lastNames past depth) : names = lastNames past names.length := by
  induction depth with
  | zero =>
    obtain rfl := List.suffix_nil.1 h
    rfl
  | succ depth ih =>
    rcases List.suffix_cons_iff.1 h with rfl | h
    · rw [List.length_cons, length_lastNames]
      rfl
    · exact ih h

/-- A statement is of no concern to the bodies around the one it stands in. -/
theorem lastNames_cons_of_le {place : Place} {past : List Place} {depth : Nat}
    (h : depth ≤ place.depth) : lastNames (place :: past) depth = lastNames past depth := by
  induction depth with
  | zero => rfl
  | succ depth ih =>
    rw [lastNames, lastNames, ih (Nat.le_of_succ_le h), lastName, if_neg (by omega),
      if_neg (by omega)]

/-- The body that a statement stands in remembers the name that it declares, and nothing has been
    declared in the bodies that it opens. -/
theorem lastNames_cons (place : Place) (past : List Place) (count : Nat) :
    lastNames (place :: past) (count + (place.depth + 1)) = List.replicate count none ++
      place.statement.remembered (lastNames past (place.depth + 1)) := by
  induction count with
  | zero =>
    rw [Nat.zero_add, lastNames, lastNames_cons_of_le le_rfl, lastName, if_neg (lt_irrefl _),
      if_pos rfl, Statement.remembered]
    cases place.statement.fullName? <;> rfl
  | succ count ih =>
    rw [Nat.succ_add, lastNames, ih, lastName, if_pos (by omega)]
    rfl

/-- Asking the bodies from the innermost outwards finds the last name in force. -/
theorem findSome?_lastNames (past : List Place) (depth : Nat) :
    (lastNames past (depth + 1)).findSome? id = recent? depth past := by
  induction past generalizing depth with
  | nil =>
    induction depth with
    | zero => rfl
    | succ depth ih => exact ih
  | cons place past ih =>
    rw [recent?]
    split
    · -- the bodies opened since remember nothing
      rename_i hdepth
      obtain ⟨count, rfl⟩ := Nat.exists_eq_add_of_le' hdepth
      rw [Nat.add_assoc, lastNames_cons, List.findSome?_append, ← ih, Statement.remembered]
      have hnone : (List.replicate count (none : Option String)).findSome? id = none := by
        simp
      rw [hnone, Option.none_or]
      cases place.statement.fullName? <;> rfl
    · rename_i hdepth
      rw [lastNames_cons_of_le (Nat.lt_of_not_le hdepth), ih]

namespace Draft

variable {draft draft' : Draft κ} {past : List Place}

/-! ## Reading lines -/

/-- Where the statement of a line stands. -/
def place? (line : String) (number : Nat) (draft : Draft κ) : Option Place :=
  if isBlankLine line.toList then none
  else do
    let (draft, rest) ← ({ draft with lastLine := number }.align line.toList number).toOption
    let settled ← (draft.settle (statement (String.ofList rest)) number).toOption
    return ⟨settled.stack.length, statement (String.ofList rest)⟩

/-- Where the statements of a script stand, up to the first fault. -/
def places (reader : LineReader κ) : List (String × Nat) → Draft κ → List Place
  | [], _ => []
  | (line, number) :: lines, draft =>
    (draft.place? line number).toList ++
      ((draft.feed reader line number).toOption.map (places reader lines)).getD []

/-- Each open body remembers the last name that was declared in it. -/
def Remembers (past : List Place) (draft : Draft κ) : Prop :=
  draft.scopes = lastNames past (draft.stack.length + 1)

theorem length_scopes (draft : Draft κ) : draft.scopes.length = draft.stack.length + 1 := by
  rw [scopes, frames, List.length_map, List.length_append, List.length_singleton]

theorem remembers_start : Remembers [] (start : Draft κ) := rfl

/-- Closing bodies does not change what the others remember. -/
theorem Remembers.of_suffix (h : Remembers past draft) (hscopes : draft'.scopes <:+ draft.scopes) :
    Remembers past draft' := by
  unfold Remembers at h ⊢
  rw [h] at hscopes
  rw [← length_scopes]
  exact eq_lastNames_of_suffix hscopes

/-- The name that a relative name continues is the last one in force. -/
theorem Remembers.scope?_eq (h : Remembers past draft) :
    draft.scope? = recent? draft.stack.length past := by
  rw [Draft.scope?_eq, h, findSome?_lastNames]

theorem Remembers.obey (h : Remembers past draft) {reader : LineReader κ} {statement : Statement}
    {line : Nat} {settled : Draft κ} (hsettled : draft.settle statement line = .ok settled)
    (hobey : draft.obey reader statement line = .ok draft') :
    Remembers (⟨settled.stack.length, statement⟩ :: past) draft' := by
  obtain ⟨settled', count, hsettled', hscopes⟩ := scopes_obey hobey
  obtain rfl := Except.ok.inj (hsettled.symm.trans hsettled')
  have hnames := h.of_suffix (scopes_settle hsettled)
  -- only the innermost body changes what it remembers, and `count` bodies are opened
  have hlast : draft'.scopes = lastNames (⟨settled.stack.length, statement⟩ :: past)
      (count + (settled.stack.length + 1)) := by
    rw [hscopes, hnames, lastNames_cons]
  have hlength : draft'.stack.length + 1 = count + (settled.stack.length + 1) := by
    rw [← length_scopes, hlast, length_lastNames]
  rw [Remembers, hlength, hlast]

/-- Reading a line. -/
theorem Remembers.feed (h : Remembers past draft) {reader : LineReader κ} {line : String}
    {number : Nat} (hfeed : draft.feed reader line number = .ok draft') :
    Remembers ((draft.place? line number).toList ++ past) draft' := by
  have hmarked : Remembers past { draft with lastLine := number } := h
  unfold Draft.feed at hfeed
  unfold place?
  dsimp only at hfeed
  split
  · rename_i hblank
    rw [if_pos hblank] at hfeed
    cases hfeed
    exact hmarked
  · rename_i hcode
    rw [if_neg hcode] at hfeed
    obtain ⟨⟨aligned, rest⟩, halign, hobey⟩ := bind_eq_ok.1 hfeed
    obtain ⟨settled, -, hsettled, -⟩ := scopes_obey hobey
    rw [halign]
    simp only [Except.toOption, Option.bind_eq_bind, Option.bind_some, hsettled]
    exact (hmarked.of_suffix (scopes_align halign)).obey hsettled hobey

/-- Reading a script. -/
theorem Remembers.feedAll (h : Remembers past draft) {reader : LineReader κ}
    {lines : List (String × Nat)} (hfeed : draft.feedAll reader lines = .ok draft') :
    Remembers ((draft.places reader lines).reverse ++ past) draft' := by
  induction lines generalizing draft past with
  | nil =>
    cases hfeed
    exact h
  | cons line lines ih =>
    obtain ⟨middle, hline, hlines⟩ := bind_eq_ok.1 hfeed
    replace hline : draft.feed reader line.1 line.2 = .ok middle := hline
    have hrest := ih (h.feed hline) hlines
    have hone : (draft.place? line.1 line.2).toList.reverse =
        (draft.place? line.1 line.2).toList := by
      cases draft.place? line.1 line.2 <;> rfl
    rw [places, hline, List.reverse_append, hone, List.append_assoc]
    exact hrest

/-! ## Lines with relative names -/

/-- What a header with a relative name comes to, given the names before it. -/
structure OpensRelative (places : List Place) (mentions : List Mention) (name : String)
    (number : Nat) (draft : Draft κ) (outcome : Except (Fault κ) (Draft κ)) : Prop where
  unresolved : outcome = .error (.noLabelScope number name) ↔
    ¬ ∃ position scope, InForce places draft.stack.length position scope
  duplicate : ∀ scope, Recent places draft.stack.length scope →
    (outcome = .error (.duplicateLabel number (.named (scope ++ name))) ↔
      .declares (scope ++ name) ∈ mentions)
  opened : ∀ scope, Recent places draft.stack.length scope → .declares (scope ++ name) ∉ mentions →
    ∃ draft', outcome = .ok draft' ∧
      draft'.frames = { block := .named (scope ++ name), role := .body } :: draft.frames

/-- What a jump to a relative name comes to, given the names before it. -/
structure JumpsRelative (places : List Place) (name : String) (number : Nat) (draft : Draft κ)
    (outcome : Except (Fault κ) (Draft κ)) : Prop where
  unresolved : outcome = .error (.noLabelScope number name) ↔
    ¬ ∃ position scope, InForce places draft.stack.length position scope
  linked : ∀ scope, Recent places draft.stack.length scope →
    outcome = draft.link draft.top.block (.named (scope ++ name)) true number

theorem Sound.enter_eq_duplicate_iff (h : Sound draft) {name : String} {line : Nat} :
    draft.enter (.named name) .body line = .error (.duplicateLabel line (.named name)) ↔
      (draft.atlas (.named name)).isSome := by
  refine ⟨fun hduplicate => ?_, fun hdeclared => if_pos hdeclared⟩
  by_contra hfree
  obtain ⟨opened, hopened, -⟩ := h.enter_free (Option.not_isSome_iff_eq_none.1 hfree) line
  rw [hopened] at hduplicate
  cases hduplicate

/-- A relative name continues the last full name in force. -/
theorem Remembers.qualify_eq {places : List Place} (h : Remembers places.reverse draft)
    {name : String} (hname : name.toList.head? = some '.') (line : Nat) :
    draft.qualify name line = (recent? draft.stack.length places.reverse).elim
      (.error (.noLabelScope line name)) fun scope => .ok (scope ++ name) := by
  rw [qualify, if_pos hname, h.scope?_eq]
  cases recent? draft.stack.length places.reverse <;> rfl

theorem Remembers.opensRelative {places : List Place} (h : Remembers places.reverse draft)
    (hsound : Sound draft) {mentions : List Mention} (hlogged : Logged mentions draft)
    {name : String} (hname : name.toList.head? = some '.') (number : Nat) :
    OpensRelative places mentions name number draft
      (draft.qualify name number >>= fun full =>
        (draft.declare name).enter (.named full) .body number) := by
  obtain ⟨hnone, hsome⟩ := recent?_spec places draft.stack.length
  have hdeclare : draft.declare name = draft := if_pos hname
  rw [h.qualify_eq hname, hdeclare]
  cases hrecent : recent? draft.stack.length places.reverse with
  | none =>
    have hforce := hnone hrecent
    refine ⟨iff_of_true rfl hforce, ?_, ?_⟩
    · exact fun scope hscope => absurd hscope.exists_inForce hforce
    · exact fun scope hscope => absurd hscope.exists_inForce hforce
  | some found =>
    have hfound := hsome found hrecent
    refine ⟨iff_of_false ?_ (not_not_intro hfound.exists_inForce), ?_, ?_⟩
    · intro herror
      cases hsound.enter_eq_error herror
    · intro scope hscope
      obtain rfl := hscope.unique hfound
      rw [← hlogged.declared]
      exact hsound.enter_eq_duplicate_iff
    · intro scope hscope hfree
      obtain rfl := hscope.unique hfound
      rw [← hlogged.declared, Option.not_isSome_iff_eq_none] at hfree
      obtain ⟨opened, hopen, hopened⟩ := hsound.enter_free hfree number
      exact ⟨opened, hopen, hopened.frames_eq⟩

theorem Remembers.jumpsRelative {places : List Place} (h : Remembers places.reverse draft)
    {name : String} (hname : name.toList.head? = some '.') (number : Nat) :
    JumpsRelative places name number draft (draft.jump name number) := by
  obtain ⟨hnone, hsome⟩ := recent?_spec places draft.stack.length
  rw [jump, h.qualify_eq hname]
  cases hrecent : recent? draft.stack.length places.reverse with
  | none =>
    have hforce := hnone hrecent
    exact ⟨iff_of_true rfl hforce, fun scope hscope => absurd hscope.exists_inForce hforce⟩
  | some found =>
    have hfound := hsome found hrecent
    refine ⟨iff_of_false ?_ (not_not_intro hfound.exists_inForce), fun scope hscope => ?_⟩
    · intro herror
      simp only [Option.elim_some, bind, Except.bind, link] at herror
      split at herror <;> cases herror
    · obtain rfl := hscope.unique hfound
      rfl

/-- **Relative names.** A relative name on a line behind any script continues the full name that
    was declared last, of those in bodies that are still open around the line. Without one the line
    is refused, and a header is refused if a header of the script has declared the name that
    results. -/
theorem resolves_feedAll {reader : LineReader κ} {lines : List (String × Nat)} {aligned : Draft κ}
    (h : start.feedAll reader lines = .ok draft) {line : String} {number : Nat} {rest : List Char}
    (hcode : isBlankLine line.toList = false)
    (halign : { draft with lastLine := number }.align line.toList number = .ok (aligned, rest))
    {name : String} (hname : name.toList.head? = some '.') :
    ∃ settled, aligned.closeChain number = .ok settled ∧
      (statement (String.ofList rest) = .header (.label name) →
        OpensRelative (start.places reader lines) (start.mentions reader lines) name number settled
          (draft.feed reader line number)) ∧
      (statement (String.ofList rest) = .jump name →
        JumpsRelative (start.places reader lines) name number settled
          (draft.feed reader line number)) := by
  -- the line closes bodies before its statement is carried out, which declares nothing
  obtain ⟨htidy, hmoves⟩ := tidy_start.feedAll h
  have hmarked := htidy.mark_line number
  have hmark : Move draft { draft with lastLine := number } [] := .frames rfl hmarked.sound
  obtain ⟨hready, hmoves'⟩ := hmarked.align halign
  obtain ⟨settled, hsettled, hmoves'', hready', -⟩ := hready.closeChain number
  have hlogged : Logged (start.mentions reader lines) settled := by
    have hall := hmoves.trans (hmark.moves.before (hmoves'.before hmoves''))
    rw [List.append_nil] at hall
    exact hall.logged sound_start logged_start
  have hremembers : Remembers (start.places reader lines).reverse settled := by
    have hdraft := remembers_start.feedAll h
    rw [List.append_nil] at hdraft
    have hcurrent : Remembers _ { draft with lastLine := number } := hdraft
    exact hcurrent.of_suffix ((scopes_closeChain hsettled).trans (scopes_align halign))
  refine ⟨settled, hsettled, fun hsaid => ?_, fun hsaid => ?_⟩
  · rw [feed_of_align reader hcode halign, hsaid, obey, openHeader, hsettled]
    exact hremembers.opensRelative hready'.sound hlogged hname number
  · rw [feed_of_align reader hcode halign, hsaid, obey, hsettled]
    exact hremembers.jumpsRelative hname number

/-- A name declared in one choice of a menu, and another choice behind it. -/
def innLines : List String :=
  ["label town:",
   "  label .square:",
   "    scene fountain",
   "  menu:",
   "    \"rest\":",
   "      label inn:",
   "        scene hall",
   "    \"walk\":"]

/-- In the second choice the inn is no longer in scope, so a relative name refers to the town, where
    the square has been declared before. -/
theorem resolves_feedAll_inn :
    ∃ draft : Draft ℕ, start.feedAll LineReader.scenes (innLines.zipIdx 1) = .ok draft ∧
      draft.feed LineReader.scenes "      label .square:" 9 =
        .error (.duplicateLabel 9 (.named "town.square")) := by
  have hread : (do
      let draft ← (start : Draft ℕ).feedAll LineReader.scenes (innLines.zipIdx 1)
      let (aligned, rest) ←
        { draft with lastLine := 9 }.align "      label .square:".toList 9
      let settled ← aligned.closeChain 9
      return (statement (String.ofList rest), settled.stack.length)) =
      Except.ok (.header (.label ".square"), 3) := by decide +kernel
  have hplaces : (start : Draft ℕ).places LineReader.scenes (innLines.zipIdx 1) =
      [⟨0, .header (.label "town")⟩, ⟨1, .header (.label ".square")⟩,
       ⟨2, .content "scene fountain"⟩, ⟨1, .header .menu⟩, ⟨2, .header .plain⟩,
       ⟨3, .header (.label "inn")⟩, ⟨4, .content "scene hall"⟩, ⟨2, .header .plain⟩] := by
    decide +kernel
  have hmentions : (start : Draft ℕ).mentions LineReader.scenes (innLines.zipIdx 1) =
      [.declares "town", .declares "town.square", .declares "inn"] := by decide +kernel
  obtain ⟨draft, hdraft, hread⟩ := bind_eq_ok.1 hread
  obtain ⟨⟨aligned, rest⟩, halign, hread⟩ := bind_eq_ok.1 hread
  obtain ⟨settled, hsettled, hread⟩ := bind_eq_ok.1 hread
  obtain ⟨hsaid, hdepth⟩ := Prod.mk.inj (Except.ok.inj hread)
  have hdot : ".square".toList.head? = some '.' := by decide +kernel
  obtain ⟨settled', hsettled', hopens, -⟩ :=
    resolves_feedAll hdraft (by decide +kernel) halign hdot
  obtain rfl := Except.ok.inj (hsettled.symm.trans hsettled')
  have hrecent : Recent ((start : Draft ℕ).places LineReader.scenes (innLines.zipIdx 1))
      settled.stack.length "town" := by
    refine (recent?_spec _ _).2 _ ?_
    rw [hplaces, hdepth]
    decide +kernel
  refine ⟨draft, hdraft, ((hopens hsaid).duplicate "town" hrecent).2 ?_⟩
  rw [hmentions]
  decide +kernel

end Draft

end Playthrough
