import Playthrough.Proofs.Draft.Scopes
import Playthrough.Proofs.Draft.Undeclared
import Playthrough.Proofs.Text.Trim

/-!
# Minted labels as they are shown

A minted label is shown by a `#`, the reason for which it was minted, a line and a number. Names are
shown as they are, and nothing checks them. Still the text of a minted label tells which label it is:
a name in a script never starts with a `#`, and neither the reasons nor the numbers have an underscore
in them that could be taken for one between them.

* `Label.display_synthetic_inj`: the texts of minted labels.
* `StoryGraph.Shows`: the labels that occur in a story.
* `Draft.display_unique`: the stories of scripts.
-/

namespace Playthrough

open Script

namespace Label

theorem toList_display_synthetic (index line : Nat) (origin : Origin) :
    (synthetic index line origin).display.toList =
      '#' :: (origin.word.toList ++
        '_' :: ((Nat.repr line).toList ++ '_' :: (Nat.repr index).toList)) := by
  simp [display, toString]

theorem underscore_notMem_repr (n : Nat) : '_' ∉ (Nat.repr n).toList := by
  rw [Nat.repr_eq_ofList_toDigits, String.toList_ofList]
  exact Nat.underscore_not_in_toDigits

theorem underscore_notMem_word (origin : Origin) : '_' ∉ origin.word.toList := by
  cases origin <;> decide

theorem word_inj {first second : Origin} (h : first.word.toList = second.word.toList) :
    first = second := by
  revert h
  cases first <;> cases second <;> decide

/-- Different minted labels have different texts. -/
theorem display_synthetic_inj {index line index' line' : Nat} {origin origin' : Origin}
    (h : (synthetic index line origin).display = (synthetic index' line' origin').display) :
    synthetic index line origin = synthetic index' line' origin' := by
  have hchars := congrArg String.toList h
  rw [toList_display_synthetic, toList_display_synthetic, List.cons.injEq] at hchars
  obtain ⟨hword, hnumbers⟩ := Text.eq_of_first_eq (underscore_notMem_word origin)
    (underscore_notMem_word origin') hchars.2
  obtain ⟨hline, hindex⟩ := Text.eq_of_first_eq (underscore_notMem_repr line)
    (underscore_notMem_repr line') hnumbers
  rw [word_inj hword, Nat.repr_inj.1 (String.toList_inj.1 hline),
    Nat.repr_inj.1 (String.toList_inj.1 hindex)]

/-- A label that is neither minted nor named with a `#` has a text of its own. -/
theorem display_ne_synthetic {label other : Label} (hlabel : label.isSynthetic = true)
    (hplain : ∀ name, other = .named name → Plain name) (hne : other ≠ label) :
    other.display ≠ label.display := by
  cases label with
  | entry => cases hlabel
  | named name => cases hlabel
  | synthetic index line origin =>
    intro heq
    have hhead : other.display.toList.head? = some '#' := by
      rw [heq, toList_display_synthetic]
      rfl
    cases other with
    | entry => revert hhead; decide
    | named name => exact hplain name rfl hhead
    | synthetic index' line' origin' => exact hne (display_synthetic_inj heq)

end Label

variable {κ : Type}

/-- A label occurs in a story, as that of a block or as an exit. -/
def StoryGraph.Shows (story : StoryGraph κ) (label : Label) : Prop :=
  ∃ block ∈ story.blocks, label = block.label ∨ label ∈ block.next

namespace Draft

variable {draft : Draft κ}

/-- The names that occur in the blocks of a script are mentioned in it. -/
theorem Logged.mentions_of_shows {mentions : List Mention} {story : StoryGraph κ}
    (h : Logged mentions draft) (hatlas : story.atlas = draft.atlas) {name : String}
    (hname : story.Shows (.named name)) : ∃ mention ∈ mentions, mention.name = name := by
  obtain ⟨block, hblock, hname⟩ := hname
  rw [StoryGraph.mem_blocks_iff, hatlas] at hblock
  rcases hname with hname | hname
  · have hsome : (draft.atlas (.named name)).isSome := by rw [hname, hblock]; rfl
    exact ⟨_, (h.declared name).1 hsome, rfl⟩
  · rcases h.named block.label name ⟨block, hblock, hname⟩ with hdeclared | hjump
    · exact ⟨_, hdeclared, rfl⟩
    · exact ⟨_, hjump, rfl⟩

/-- **Minted labels are shown apart.** Whatever the lines of a script are, once they have been read
    the story can be finished, and the text of a minted label that occurs in it is the text of no
    other label that does: not of the entry, of no other minted label, and of no name that a header
    declares or a jump refers to. -/
theorem display_unique {reader : LineReader κ} {lines : List (String × Nat)}
    (h : start.feedAll reader lines = .ok draft) :
    ∃ story, draft.finish = .ok story ∧
      ∀ label other, story.Shows label → story.Shows other → label.isSynthetic = true →
        other ≠ label → other.display ≠ label.display := by
  obtain ⟨htidy, hmoves⟩ := tidy_start.feedAll h
  obtain ⟨closed, -, hfinish, hclosing, hsound⟩ := htidy.finish
  have hlogged := (hmoves.trans hclosing).logged sound_start logged_start
  rw [List.nil_append, List.append_nil] at hlogged
  refine ⟨_, hfinish, fun label other _ hother hlabel hne => ?_⟩
  refine Label.display_ne_synthetic hlabel ?_ hne
  rintro name rfl
  obtain ⟨mention, hmention, rfl⟩ := hlogged.mentions_of_shows hsound.atlas_story hother
  exact plain_mentions scoped_start reader lines mention hmention

/-- A choice, a name and the target of a jump that all look like a minted label, between quotes, and
    a name that continues another one. -/
def bazaarLines : List String :=
  ["label bazaar:",
   "  menu:",
   "    \"#scope_2_0\":",
   "      jump .stall",
   "label .stall:",
   "  jump '#scope_2_0'",
   "label \"#merge_5_2\":",
   "  jump bazaar"]

/-- The labels and exits of the blocks of the script `bazaarLines`, as they are shown. -/
def bazaarTexts : List (String × List String) :=
  [("<entry>", ["bazaar"]),
   ("\"#merge_5_2\"", ["bazaar"]),
   ("bazaar", ["#scope_2_0"]),
   ("bazaar.stall", ["'#scope_2_0'"]),
   ("#scope_2_0", ["#scope_3_1"]),
   ("#scope_3_1", ["bazaar.stall"]),
   ("#merge_5_2", ["#merge_5_3"]),
   ("#merge_5_3", ["bazaar.stall"]),
   ("#merge_7_4", ["\"#merge_5_2\""]),
   ("#merge_8_5", [])]

/-- The bazaar has names that differ from minted labels by their quotes only. -/
theorem display_unique_bazaar :
    ∃ (draft : Draft ℕ) (story : StoryGraph ℕ),
      start.feedAll LineReader.scenes (bazaarLines.zipIdx 1) = .ok draft ∧
      draft.finish = .ok story ∧
      story.blocks.map (fun block => (block.label.display, block.next.map Label.display)) =
        bazaarTexts ∧
      ∀ label other, story.Shows label → story.Shows other → label.isSynthetic = true →
        other ≠ label → other.display ≠ label.display := by
  have hread : (do
      let draft ← (start : Draft ℕ).feedAll LineReader.scenes (bazaarLines.zipIdx 1)
      let closed ← draft.closeMany draft.lastLine draft.stack.length
      return (StoryGraph.ofBlocks closed.blocks).blocks.map fun block =>
        (block.label.display, block.next.map Label.display)) = Except.ok bazaarTexts := by
    decide +kernel
  obtain ⟨draft, hdraft, hrest⟩ := bind_eq_ok.1 hread
  obtain ⟨closed, hclosed, htexts⟩ := bind_eq_ok.1 hrest
  obtain ⟨story, hfinish, hunique⟩ := display_unique hdraft
  have hclose : draft.finish = .ok (StoryGraph.ofBlocks closed.blocks) :=
    bind_eq_ok.2 ⟨closed, hclosed, rfl⟩
  obtain rfl := Except.ok.inj (hfinish.symm.trans hclose)
  exact ⟨draft, _, hdraft, hfinish, Except.ok.inj htexts, hunique⟩

end Draft

end Playthrough
