import Playthrough.Proofs.Draft.Nesting
import Playthrough.Proofs.Ledger.Simulation

/-!
# Open bodies and their collections

The open bodies of a ledger are nested like those of its draft: each body goes beyond the indentation
of the one around it, but for a chain of conditions, which stands level with it. On top of this the
ledger has to keep its collections apart. Every fork has one of its own, and what an alternative
leaves when it closes gets to the fork it stands in only because this fork owns the collection that
the alternative refers to.

* `Ledger.Nested`: all this.
* `nested_feedAll`: it holds of the ledgers of scripts.
-/

namespace Playthrough

open Text

variable {κ : Type}

/-- Whether a body is a chain of conditions. -/
def Forking.isChain : Forking → Bool
  | .chain _ => true
  | _ => false

theorem OpenBody.isChain_role (ends : List Label) (body : OpenBody) :
    (body.role ends).isChain = body.forking.isChain := by
  unfold role
  cases body.forking with
  | plain => cases body.arms <;> rfl
  | menu => rfl
  | chain skippable => rfl

namespace Holding

variable {count : Nat} {bodies : List OpenBody}

/-- No two forks own the same collection. -/
theorem nodup_arms (h : Holding count bodies) :
    ((bodies.filter (·.forking ≠ .plain)).map OpenBody.arms).Nodup := by
  induction h with
  | root hplain => simp [hplain]
  | body hplain _ _ ih => simpa [hplain] using ih
  | arm hplain _ _ _ ih =>
    rw [List.filter_cons_of_neg (by simp [hplain])]
    exact ih
  | fork howns _ hfree _ ih =>
    rw [List.filter_cons_of_pos (by simpa using howns.1), List.map_cons, List.nodup_cons]
    refine ⟨?_, ih⟩
    intro hmem
    obtain ⟨other, hother, harms⟩ := List.mem_map.1 hmem
    obtain ⟨hother, hfork⟩ := List.mem_filter.1 hother
    exact hfree other hother ⟨by simpa using hfork, harms.trans howns.2⟩

/-- Innermost bodies can be left out. -/
theorem of_suffix {body : OpenBody} {rest : List OpenBody} (h : Holding count bodies)
    (hsuffix : body :: rest <:+ bodies) : Holding count (body :: rest) := by
  obtain ⟨front, rfl⟩ := hsuffix
  induction front with
  | nil => exact h
  | cons first front ih => exact ih (h.tail (by simp))

end Holding

namespace Ledger

variable {ledger : Ledger κ}

/-- How the open bodies of a ledger are nested, and which collections they refer to. -/
structure Nested (ledger : Ledger κ) : Prop where
  root_indent : ledger.root.indent = some []
  /-- Only the innermost body may lack an indentation. -/
  known : ∀ body ∈ ledger.bodies.tail, body.indent.isSome
  /-- The indentation of a body is that of the body around it and some blanks. -/
  deeper : ∀ inner outer, [inner, outer] <:+: ledger.bodies → inner.forking.isChain = false →
    ∀ indent, inner.indent = some indent →
      ∃ more, more ≠ [] ∧ Blanks more ∧ indent = outer.margin ++ more
  /-- A chain of conditions has exactly the indentation of the body around it. -/
  level : ∀ inner outer, [inner, outer] <:+: ledger.bodies → inner.forking.isChain = true →
    inner.indent = some outer.margin
  /-- No chain of conditions is directly in another one. -/
  apart : ∀ inner outer, [inner, outer] <:+: ledger.bodies → inner.forking.isChain = true →
    outer.forking.isChain = false
  /-- Every fork has a collection, -/
  owned : ∀ fork ∈ ledger.bodies, fork.forking ≠ .plain →
    ∃ arms, fork.arms = some arms ∧ arms < ledger.arms.length
  /-- and no two forks have the same one. -/
  apart_arms : ((ledger.bodies.filter (·.forking ≠ .plain)).map OpenBody.arms).Nodup
  /-- A body that refers to a collection without being a fork is directly in the fork that owns it. -/
  arm : ∀ body rest arms, body :: rest <:+ ledger.bodies → body.forking = .plain →
    body.arms = some arms →
      ∃ fork others, rest = fork :: others ∧ fork.forking ≠ .plain ∧ fork.arms = some arms
  /-- No two bodies, the top level among them, put their content in the same block. -/
  blocks_nodup : (ledger.bodies.map OpenBody.block).Nodup

theorem Booked.nested (h : Booked ledger) (htidy : ledger.draft.Tidy) : Nested ledger := by
  have hnest := htidy.nest
  have hinside : ∀ inner outer, [inner, outer] <:+: ledger.bodies →
      (ledger.frame inner).Inside (ledger.frame outer) := by
    intro inner outer hbodies
    refine hnest.inside ?_
    rw [frames_draft]
    exact hbodies.map ledger.frame
  have hchain : ∀ body, (ledger.frame body).role.isChain = body.forking.isChain :=
    fun body => body.isChain_role _
  refine ⟨hnest.root_indent, ?_, ?_, ?_, ?_, ?_, h.holding.nodup_arms, ?_, ?_⟩
  · intro body hbody
    rw [frames_draft, bodies_eq, List.map_cons] at hnest
    exact hnest.known (List.mem_map_of_mem hbody)
  · intro inner outer hbodies hplain
    exact (hinside inner outer hbodies).deeper ((hchain inner).trans hplain)
  · intro inner outer hbodies hlevel
    have hinside := hinside inner outer hbodies
    obtain ⟨margin, hmargin⟩ := Option.isSome_iff_exists.1 hinside.known
    have hindent : inner.indent = outer.indent := (hinside.level ((hchain inner).trans hlevel)).1
    have hmargin : outer.indent = some margin := hmargin
    rw [hindent, OpenBody.margin, hmargin]
    rfl
  · intro inner outer hbodies hlevel
    rw [← hchain outer]
    exact ((hinside inner outer hbodies).level ((hchain inner).trans hlevel)).2
  · intro fork hfork hforking
    obtain ⟨front, rest, hbodies⟩ := List.append_of_mem hfork
    have hholding := h.holding.of_suffix (hbodies ▸ List.suffix_append front (fork :: rest))
    obtain ⟨arms, howns⟩ := hholding.exists_owns hforking
    exact ⟨arms, howns.2, h.holding.lt_of_owns hfork howns⟩
  · intro body rest arms hsuffix hplain harms
    obtain ⟨fork, others, hrest, howns⟩ := (h.holding.of_suffix hsuffix).exists_fork hplain harms
    exact ⟨fork, others, hrest, howns.1, howns.2⟩
  · have hnodup := htidy.sound.nodup_blocks
    rw [frames_draft, List.map_map] at hnodup
    refine List.Nodup.of_map ledger.labelOf ?_
    rw [List.map_map]
    exact hnodup

/-- **Nesting.** Whatever the lines of a script are, the ledger they are read into stands for the
    draft they are read into, and its open bodies are nested and hold their collections apart. -/
theorem nested_feedAll {reader : LineReader κ} {lines : List (String × Nat)}
    (h : start.feedAll reader lines = .ok ledger) :
    Draft.start.feedAll reader lines = .ok ledger.draft ∧ Nested ledger := by
  obtain ⟨hbooked, hdraft⟩ := booked_start.of_feedAll h
  have htidy := (Draft.tidy_start.feedAll hdraft).1
  exact ⟨hdraft, hbooked.nested htidy⟩

/-- The bodies that the lines of `harbourLines` leave open. The last branch refers to the collection
    of its chain, and the choice around the chain to that of the menu. -/
def harbourBodies : List OpenBody :=
  [{ block := 7, forking := .plain, arms := some 1 },
   { block := 4, indent := some (List.replicate 6 ' '), forking := .chain false, arms := some 1 },
   { block := 3, indent := some (List.replicate 6 ' '), forking := .plain, arms := some 0 },
   { block := 2, indent := some (List.replicate 4 ' '), forking := .menu, arms := some 0 },
   { block := 1, indent := some (List.replicate 2 ' '), forking := .plain, arms := none }]

/-- Two forks are open in the harbour, with a collection each; two branches of the chain have left
    their ends. -/
theorem nested_feedAll_harbour :
    ∃ ledger : Ledger ℕ,
      start.feedAll LineReader.scenes (Draft.harbourLines.zipIdx 1) = .ok ledger ∧
      ledger.stack = harbourBodies ∧ ledger.arms = [[], [5, 6]] ∧
      Draft.start.feedAll LineReader.scenes (Draft.harbourLines.zipIdx 1) = .ok ledger.draft ∧
      Nested ledger := by
  have hread : (do
      let ledger ← (start : Ledger ℕ).feedAll LineReader.scenes (Draft.harbourLines.zipIdx 1)
      return (ledger.stack, ledger.arms)) = Except.ok (harbourBodies, [[], [5, 6]]) := by
    decide +kernel
  obtain ⟨ledger, hledger, hopen⟩ := bind_eq_ok.1 hread
  obtain ⟨hstack, harms⟩ := Prod.mk.inj (Except.ok.inj hopen)
  exact ⟨ledger, hledger, hstack, harms, nested_feedAll hledger⟩

end Ledger

end Playthrough
