import Playthrough.Proofs.Draft.Nesting
import Playthrough.Proofs.Script.Statement

/-!
# Names in scope

Each open body remembers the last name that was declared in it, and a relative name continues the
innermost of these. Closing bodies forgets names, opening a body adds one that remembers nothing yet,
and only a header with a full name changes what is remembered.

So no name in scope starts with a `#`, and neither does a full name made of it.

* `Draft.scopes`: the names in scope, and what each part of reading a line does to them.
* `scopes_obey`: what a statement does to them.
* `Draft.Scoped`: the names in scope are plain.
* `Scoped.feed`, `plain_mentions`: what this means for the lines of a script.
-/

namespace Playthrough

open Script

variable {κ : Type}

/-- The name that a header declares or a jump refers to. -/
def Mention.name : Mention → String
  | .declares name => name
  | .jumps _ name => name

namespace Script.Statement

/-- The full name that a statement declares. A relative name is none. -/
def fullName? : Statement → Option String
  | .header (.label name) => if name.toList.head? = some '.' then none else some name
  | _ => none

theorem eq_label_of_fullName? {statement : Statement} {name : String}
    (h : statement.fullName? = some name) :
    statement = .header (.label name) ∧ name.toList.head? ≠ some '.' := by
  unfold fullName? at h
  split at h
  · split at h
    · cases h
    · rename_i hname
      cases h
      exact ⟨rfl, hname⟩
  · cases h

/-- What is remembered behind a statement: the body it stands in remembers the full name that the
    statement declares. -/
def remembered (statement : Statement) (scopes : List (Option String)) : List (Option String) :=
  match statement.fullName? with
  | some name => some name :: scopes.tail
  | none => scopes

theorem mem_remembered {statement : Statement} {scopes : List (Option String)} {name : String}
    (h : some name ∈ statement.remembered scopes) :
    statement.fullName? = some name ∨ some name ∈ scopes := by
  unfold remembered at h
  split at h
  · rename_i full hfull
    rcases List.mem_cons.1 h with heq | hmem
    · exact .inl (heq ▸ hfull)
    · exact .inr (List.mem_of_mem_tail hmem)
  · exact .inr h

end Script.Statement

namespace Draft

variable {draft draft' : Draft κ}

/-! ## The names that bodies remember -/

/-- The names that the open bodies remember, the innermost first. -/
def scopes (draft : Draft κ) : List (Option String) := draft.frames.map Frame.scope

theorem scope?_eq (draft : Draft κ) : draft.scope? = draft.scopes.findSome? id := by
  rw [scopes, List.findSome?_map]
  rfl

theorem scopes_modifyTop {change : Frame → Frame} (h : ∀ frame, (change frame).scope = frame.scope)
    (draft : Draft κ) : (draft.modifyTop change).scopes = draft.scopes := by
  rw [scopes, scopes, frames_modifyTop, frames_eq, List.map_cons, List.map_cons, h]

/-- A full name replaces the one that the innermost body remembers. -/
theorem scopes_declare (name : String) (draft : Draft κ) :
    (draft.declare name).scopes =
      if name.toList.head? = some '.' then draft.scopes else some name :: draft.scopes.tail := by
  unfold declare
  split
  · rfl
  · rw [scopes, scopes, frames_modifyTop, frames_eq]
    rfl

/-! ## Closing bodies -/

theorem frames_foldlM_link {sources : List Label} {target : Label} {line : Nat}
    (h : sources.foldlM (fun draft source => draft.link source target false line) draft =
      .ok draft') : draft'.frames = draft.frames := by
  induction sources generalizing draft with
  | nil =>
    cases h
    rfl
  | cons source sources ih =>
    obtain ⟨linked, hlink, hrest⟩ := bind_eq_ok.1 h
    obtain ⟨-, rfl⟩ := link_eq_ok hlink
    have hframes := ih hrest
    exact hframes

theorem scopes_join {sources : List Label} {line : Nat}
    (h : draft.join sources line = .ok draft') : draft'.scopes = draft.scopes := by
  obtain ⟨linked, hlink, hrest⟩ := bind_eq_ok.1 h
  obtain rfl := Except.ok.inj hrest
  refine (scopes_modifyTop ?_ _).trans ?_
  · exact fun _ => rfl
  · have hframes := frames_foldlM_link hlink
    exact congrArg (List.map Frame.scope) hframes

/-- Closing a body forgets what it remembers. The top level forgets nothing. -/
theorem scopes_close {line : Nat} (h : draft.close line = .ok draft') :
    draft'.scopes <:+ draft.scopes := by
  unfold close at h
  split at h
  · cases h
    exact List.suffix_rfl
  · rename_i frame frames hstack
    have hbelow : ({ draft with stack := frames } : Draft κ).scopes <:+ draft.scopes := by
      rw [scopes, scopes, Draft.frames, Draft.frames, hstack]
      exact (List.suffix_cons _ _).map _
    dsimp only at h
    split at h
    · obtain rfl := Except.ok.inj h
      rw [scopes_modifyTop]
      · exact hbelow
      · exact fun _ => rfl
    all_goals rwa [scopes_join h]

theorem scopes_closeMany {line count : Nat} (h : draft.closeMany line count = .ok draft') :
    draft'.scopes <:+ draft.scopes := by
  induction count generalizing draft with
  | zero =>
    cases h
    exact List.suffix_rfl
  | succ count ih =>
    obtain ⟨closed, hclose, hrest⟩ := bind_eq_ok.1 h
    exact (ih hrest).trans (scopes_close hclose)

theorem scopes_closeChain {line : Nat} (h : draft.closeChain line = .ok draft') :
    draft'.scopes <:+ draft.scopes := by
  unfold closeChain at h
  split at h
  · exact scopes_close h
  · cases h
    exact List.suffix_rfl

/-- Aligning a line closes bodies, or sets an indentation. -/
theorem scopes_align {line rest : List Char} {number : Nat}
    (h : draft.align line number = .ok (draft', rest)) : draft'.scopes <:+ draft.scopes := by
  unfold align at h
  dsimp only at h
  split at h
  · unfold establish at h
    dsimp only at h
    split at h
    · cases h
    · split at h
      · cases h
      · cases h
        rw [scopes_modifyTop]
        exact fun _ => rfl
  · obtain ⟨closed, hclosed, hrest⟩ := bind_eq_ok.1 h
    split at hrest
    · cases hrest
      exact scopes_closeMany hclosed
    · split at hrest <;> cases hrest

/-! ## Opening bodies -/

/-- A new body remembers nothing. -/
theorem scopes_enter {label : Label} {role : Role} {line : Nat}
    (h : draft.enter label role line = .ok draft') : draft'.scopes = none :: draft.scopes := by
  unfold enter at h
  split at h
  · cases h
  · obtain ⟨linked, hlink, hrest⟩ := bind_eq_ok.1 h
    obtain ⟨-, rfl⟩ := link_eq_ok hlink
    cases hrest
    rfl

theorem scopes_enterFresh {role : Role} {line : Nat}
    (h : draft.enterFresh role line = .ok draft') : draft'.scopes = none :: draft.scopes := by
  have hscopes := scopes_enter h
  exact hscopes

theorem scopes_openChain {line : Nat} (h : draft.openChain line = .ok draft') :
    draft'.scopes = none :: draft.scopes := by
  obtain ⟨linked, hlink, hrest⟩ := bind_eq_ok.1 h
  obtain ⟨-, rfl⟩ := link_eq_ok hlink
  cases hrest
  rfl

/-! ## Statements -/

/-- The draft that a statement finds: a chain of conditions is closed before it, unless it goes on
    with the chain. -/
def settle (statement : Statement) (line : Nat) (draft : Draft κ) : Except (Fault κ) (Draft κ) :=
  match statement with
  | .header (.branch _) => .ok draft
  | _ => draft.closeChain line

theorem scopes_settle {statement : Statement} {line : Nat}
    (h : draft.settle statement line = .ok draft') : draft'.scopes <:+ draft.scopes := by
  unfold settle at h
  split at h
  · obtain rfl := Except.ok.inj h
    exact List.suffix_rfl
  · exact scopes_closeChain h

/-- A header opens bodies that remember nothing, and a full name is remembered by the body that the
    header stands in. -/
theorem scopes_openHeader {header : Header} {line : Nat}
    (h : draft.openHeader header line = .ok draft') :
    ∃ settled count, draft.settle (.header header) line = .ok settled ∧
      draft'.scopes = List.replicate count none ++
        (Statement.header header).remembered settled.scopes := by
  cases header with
  | label name =>
    obtain ⟨first, hfirst, hopen⟩ := bind_eq_ok.1 h
    obtain ⟨full, -, henter⟩ := bind_eq_ok.1 hopen
    refine ⟨first, 1, hfirst, (scopes_enter henter).trans (congrArg (List.cons none) ?_)⟩
    rw [scopes_declare, Statement.remembered, Statement.fullName?]
    split <;> rfl
  | menu =>
    obtain ⟨first, hfirst, henter⟩ := bind_eq_ok.1 h
    exact ⟨first, 1, hfirst, scopes_enterFresh henter⟩
  | condition =>
    obtain ⟨first, hfirst, hopen⟩ := bind_eq_ok.1 h
    obtain ⟨chain, hchain, henter⟩ := bind_eq_ok.1 hopen
    refine ⟨first, 2, hfirst, (scopes_enterFresh henter).trans ?_⟩
    rw [scopes_openChain hchain]
    rfl
  | branch kind =>
    simp only [Draft.openHeader] at h
    split at h
    · refine ⟨draft, 1, rfl, (scopes_enterFresh h).trans (congrArg (List.cons none) ?_)⟩
      rw [scopes_modifyTop]
      · rfl
      · exact fun _ => rfl
    · cases h
  | plain =>
    obtain ⟨first, hfirst, henter⟩ := bind_eq_ok.1 h
    exact ⟨first, 1, hfirst, scopes_enterFresh henter⟩

theorem scopes_obey {reader : LineReader κ} {statement : Statement} {line : Nat}
    (h : draft.obey reader statement line = .ok draft') :
    ∃ settled count, draft.settle statement line = .ok settled ∧
      draft'.scopes = List.replicate count none ++ statement.remembered settled.scopes := by
  cases statement with
  | header header => exact scopes_openHeader h
  | jump target =>
    obtain ⟨first, hfirst, hjump⟩ := bind_eq_ok.1 h
    obtain ⟨full, -, hlink⟩ := bind_eq_ok.1 hjump
    obtain ⟨-, rfl⟩ := link_eq_ok hlink
    exact ⟨first, 0, hfirst, rfl⟩
  | terminate dead =>
    obtain ⟨first, hfirst, hclose⟩ := bind_eq_ok.1 h
    cases hclose
    exact ⟨first, 0, hfirst, rfl⟩
  | content text =>
    obtain ⟨first, hfirst, hsay⟩ := bind_eq_ok.1 h
    refine ⟨first, 0, hfirst, ?_⟩
    cases hreader : reader text with
    | none =>
      rw [hreader] at hsay
      cases hsay
      rfl
    | some record =>
      rw [hreader] at hsay
      cases hsay
      rfl

/-! ## Plain names -/

/-- No name in scope starts with a `#`. -/
def Scoped (draft : Draft κ) : Prop := ∀ name, some name ∈ draft.scopes → Plain name

theorem scoped_start : Scoped (start : Draft κ) := by
  intro name hname
  simp [scopes, frames, start] at hname

theorem Scoped.of_suffix (h : Scoped draft) (hscopes : draft'.scopes <:+ draft.scopes) :
    Scoped draft' :=
  fun name hname => h name (hscopes.subset hname)

/-- A name that continues a plain name is plain, and so is a full one. -/
theorem Scoped.qualify (h : Scoped draft) {name full : String} {line : Nat} (hname : Plain name)
    (hfull : draft.qualify name line = .ok full) : Plain full := by
  unfold Draft.qualify at hfull
  split at hfull
  · split at hfull
    · rename_i scope hscope
      cases hfull
      have hplain : Plain scope := by
        rw [scope?_eq] at hscope
        obtain ⟨found, hfound, heq⟩ := List.exists_of_findSome?_eq_some hscope
        exact h scope (heq ▸ hfound)
      unfold Plain at hplain hname ⊢
      rw [String.toList_append, List.head?_append]
      cases hhead : scope.toList.head? with
      | none => exact hname
      | some c =>
        rw [hhead] at hplain
        exact hplain
    · cases hfull
  · cases hfull
    exact hname

/-- Carrying out a statement whose name is plain. -/
theorem Scoped.obey (h : Scoped draft) {reader : LineReader κ} {statement : Statement} {line : Nat}
    (hlabel : ∀ name, statement = .header (.label name) → Plain name)
    (hobey : draft.obey reader statement line = .ok draft') : Scoped draft' := by
  obtain ⟨settled, count, hsettled, hscopes⟩ := scopes_obey hobey
  intro name hname
  rw [hscopes, List.mem_append, List.mem_replicate] at hname
  rcases hname with ⟨-, hnone⟩ | hname
  · cases hnone
  · rcases Statement.mem_remembered hname with hfull | hname
    · exact hlabel name (Statement.eq_label_of_fullName? hfull).1
    · exact h.of_suffix (scopes_settle hsettled) name hname

/-- Reading a line keeps the names in scope plain. -/
theorem Scoped.feed (h : Scoped draft) {reader : LineReader κ} {line : String} {number : Nat}
    (hfeed : draft.feed reader line number = .ok draft') : Scoped draft' := by
  have hmarked : Scoped { draft with lastLine := number } := h
  unfold Draft.feed at hfeed
  dsimp only at hfeed
  split at hfeed
  · cases hfeed
    exact hmarked
  · obtain ⟨⟨aligned, rest⟩, halign, hobey⟩ := bind_eq_ok.1 hfeed
    exact (hmarked.of_suffix (scopes_align halign)).obey (fun name => plain_of_label) hobey

/-! ## The names of a script -/

theorem toOption_eq_some {ε α : Type} {result : Except ε α} {x : α} :
    result.toOption = some x ↔ result = .ok x := by
  cases result <;> simp [Except.toOption]

/-- What a statement says about names, it says about plain ones. -/
theorem Scoped.mentionOf (h : Scoped draft) {statement : Statement} {line : Nat}
    (hlabel : ∀ name, statement = .header (.label name) → Plain name)
    (hjump : ∀ target, statement = .jump target → Plain target) {mention : Mention}
    (hmention : draft.mentionOf statement line = some mention) : Plain mention.name := by
  unfold Draft.mentionOf at hmention
  split at hmention
  · rename_i written
    obtain ⟨first, hfirst, hmention⟩ := Option.bind_eq_some_iff.1 hmention
    obtain ⟨name, hname, hmention⟩ := Option.bind_eq_some_iff.1 hmention
    cases hmention
    exact (h.of_suffix (scopes_closeChain (toOption_eq_some.1 hfirst))).qualify
      (hlabel written rfl) (toOption_eq_some.1 hname)
  · rename_i target
    obtain ⟨first, hfirst, hmention⟩ := Option.bind_eq_some_iff.1 hmention
    obtain ⟨name, hname, hmention⟩ := Option.bind_eq_some_iff.1 hmention
    obtain ⟨block, -, hmention⟩ := Option.bind_eq_some_iff.1 hmention
    split at hmention
    · cases hmention
    · cases hmention
      exact (h.of_suffix (scopes_closeChain (toOption_eq_some.1 hfirst))).qualify
        (hjump target rfl) (toOption_eq_some.1 hname)
  · cases hmention

theorem Scoped.mention? (h : Scoped draft) {line : String} {number : Nat} {mention : Mention}
    (hmention : draft.mention? line number = some mention) : Plain mention.name := by
  have hmarked : Scoped { draft with lastLine := number } := h
  unfold Draft.mention? at hmention
  split at hmention
  · cases hmention
  · obtain ⟨⟨aligned, rest⟩, halign, hmention⟩ := Option.bind_eq_some_iff.1 hmention
    exact (hmarked.of_suffix (scopes_align (toOption_eq_some.1 halign))).mentionOf
      (fun name => plain_of_label) (fun target => plain_of_jump) hmention

/-- The names that the lines of a script mention are plain. -/
theorem plain_mentions (h : Scoped draft) (reader : LineReader κ) (lines : List (String × Nat)) :
    ∀ mention ∈ draft.mentions reader lines, Plain mention.name := by
  induction lines generalizing draft with
  | nil => simp [mentions]
  | cons line lines ih =>
    intro mention hmention
    rw [mentions] at hmention
    rcases List.mem_append.1 hmention with hfirst | hrest
    · exact h.mention? (Option.mem_toList.1 hfirst)
    · cases hfeed : draft.feed reader line.1 line.2 with
      | error fault => simp [hfeed, Except.toOption] at hrest
      | ok next =>
        rw [hfeed] at hrest
        exact ih (h.feed hfeed) mention hrest

end Draft

end Playthrough
