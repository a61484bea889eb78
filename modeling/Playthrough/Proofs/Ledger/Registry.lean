import Playthrough.Proofs.Draft.Registry
import Playthrough.Proofs.Ledger.Simulation

/-!
# Blocks and their index

The index of a ledger is written whenever a block is allocated, and read when a body is opened, to
refuse a label that is taken. It is exact: it gives the number of every block under the label of the
block, and nothing else. Exits are often added before the block that they lead to is there, but no
minted label is left without its block.

* `Ledger.Registered`: the blocks of a ledger and its index.
* `registered_feedAll`: the ledgers of scripts, and what stays of a block that has been closed.
-/

namespace Playthrough.Ledger

variable {κ : Type} {ledger later : Ledger κ}

/-- How the blocks of a ledger are filed. -/
structure Registered (ledger : Ledger κ) : Prop where
  /-- No two blocks have the same label, -/
  nodup : (ledger.blocks.map Block.label).Nodup
  /-- and no label is entered twice. -/
  keys_nodup : (ledger.index.map Prod.fst).Nodup
  /-- The index gives the number of a block under its label, and no other number. -/
  lookup_iff : ∀ label number, ledger.index.lookup label = some number ↔
    ∃ block, ledger.blocks[number]? = some block ∧ block.label = label
  /-- An exit to a minted label leads to a block, and the label is one of those that are counted. -/
  minted : ∀ block ∈ ledger.blocks, ∀ index line origin, .synthetic index line origin ∈ block.next →
    (ledger.index.lookup (.synthetic index line origin)).isSome ∧ index < ledger.minted
  /-- No block leads to itself. -/
  self_not_mem : ∀ block ∈ ledger.blocks, block.label ∉ block.next
  /-- No block leads to the entry. -/
  entry_not_mem : ∀ block ∈ ledger.blocks, .entry ∉ block.next
  /-- A dead end takes no further exits. -/
  disabled_of_deadend : ∀ block ∈ ledger.blocks, block.deadend = true → block.disabled = true

theorem mem_blocks_draft {block : Block κ} : block ∈ ledger.draft.blocks ↔ block ∈ ledger.blocks :=
  List.mem_reverse

theorem Booked.registered (h : Booked ledger) (htidy : ledger.draft.Tidy)
    (hfiled : ledger.draft.Filed) : Registered ledger := by
  have hproper : ∀ block ∈ ledger.blocks, block.Proper fun target => target ∈ ledger.labels := by
    intro block hblock
    refine (htidy.sound.proper hfiled block (mem_blocks_draft.2 hblock)).imp fun label hlabel => ?_
    obtain ⟨other, hother, rfl⟩ := List.mem_map.1 hlabel
    exact List.mem_map_of_mem (mem_blocks_draft.1 hother)
  refine ⟨h.nodup, h.keys_nodup, ?_, ?_, fun block hblock => (hproper block hblock).self_not_mem,
    fun block hblock => (hproper block hblock).entry_not_mem,
    fun block hblock => (hproper block hblock).disabled_of_deadend⟩
  · intro label number
    rw [h.lookup_iff, labels, List.getElem?_map, Option.map_eq_some_iff]
  · intro block hblock index line origin htarget
    have hmem := (hproper block hblock).known _ htarget rfl
    exact ⟨(h.isSome_lookup_iff _).2 hmem, h.minted _ hmem index line origin rfl⟩

/-- **The blocks of a script.** Whatever the lines of a script are, the ledger they are read into
    stands for the draft they are read into. Its blocks are well filed, and a block that has been
    closed stays as it is up to the end of the script. -/
theorem registered_feedAll {reader : LineReader κ} {lines more : List (String × Nat)}
    (h : start.feedAll reader lines = .ok ledger)
    (hlater : ledger.feedAll reader more = .ok later) :
    Draft.start.feedAll reader lines = .ok ledger.draft ∧ Registered ledger ∧
      Draft.KeepsClosed ledger.blocks later.blocks ∧
      ∃ story, later.finish = .ok story ∧ Draft.KeepsClosed ledger.blocks story.blocks := by
  obtain ⟨hbooked, hdraft⟩ := booked_start.of_feedAll h
  obtain ⟨hbooked', hdraft'⟩ := hbooked.of_feedAll hlater
  obtain ⟨htidy, hmoves⟩ := Draft.tidy_start.feedAll hdraft
  have hfiled := hmoves.filed Draft.sound_start Draft.filed_start
  obtain ⟨hkept, story, hfinish, hkept'⟩ := htidy.keepsClosed hdraft'
  refine ⟨hdraft, hbooked.registered htidy hfiled, ?_, story, hbooked'.finish.trans hfinish, ?_⟩
  · intro block hblock hclosed
    obtain ⟨block', hblock', hsame⟩ := hkept block (mem_blocks_draft.2 hblock) hclosed
    exact ⟨block', mem_blocks_draft.1 hblock', hsame⟩
  · exact fun block hblock => hkept' block (mem_blocks_draft.2 hblock)

/-- Lines that close two blocks: a jump to a name that is not declared yet, and a return. -/
def pierLines : List String :=
  ["label pier:",
   "  menu:",
   "    \"sail\":",
   "      jump sea",
   "    \"wait\":",
   "      return # dead"]

/-- The labels of the pier with their numbers, the newest first. -/
def pierIndex : List (Label × Nat) :=
  [(.synthetic 2 5 .scope, 4), (.synthetic 1 3 .scope, 3), (.synthetic 0 2 .scope, 2),
   (.named "pier", 1), (.entry, 0)]

/-- The pier has closed blocks, and they stay as they are when the script goes on. -/
theorem registered_feedAll_pier :
    ∃ ledger later : Ledger ℕ,
      start.feedAll LineReader.scenes (pierLines.zipIdx 1) = .ok ledger ∧
      ledger.feedAll LineReader.scenes [("label sea:", 7), ("  jump pier", 8)] = .ok later ∧
      ledger.index = pierIndex ∧
      ledger.blocks.filter (·.disabled) =
        [{ label := .synthetic 1 3 .scope, next := [.named "sea"], disabled := true },
         { label := .synthetic 2 5 .scope, disabled := true, deadend := true }] ∧
      Draft.start.feedAll LineReader.scenes (pierLines.zipIdx 1) = .ok ledger.draft ∧
      Registered ledger ∧ Draft.KeepsClosed ledger.blocks later.blocks ∧
      ∃ story, later.finish = .ok story ∧ Draft.KeepsClosed ledger.blocks story.blocks := by
  have hread : (do
      let ledger ← (start : Ledger ℕ).feedAll LineReader.scenes (pierLines.zipIdx 1)
      let later ← ledger.feedAll LineReader.scenes [("label sea:", 7), ("  jump pier", 8)]
      return (ledger.index, ledger.blocks.filter (·.disabled), later.minted)) = Except.ok
        (pierIndex,
         [{ label := .synthetic 1 3 .scope, next := [.named "sea"], disabled := true },
          { label := .synthetic 2 5 .scope, disabled := true, deadend := true }], 5) := by
    decide +kernel
  obtain ⟨ledger, hledger, hrest⟩ := bind_eq_ok.1 hread
  obtain ⟨later, hlater, hclosed⟩ := bind_eq_ok.1 hrest
  obtain ⟨hindex, hclosed⟩ := Prod.mk.inj (Except.ok.inj hclosed)
  exact ⟨ledger, later, hledger, hlater, hindex, (Prod.mk.inj hclosed).1,
    registered_feedAll hledger hlater⟩

end Playthrough.Ledger
