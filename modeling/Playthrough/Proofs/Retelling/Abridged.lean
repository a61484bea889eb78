import Playthrough.Proofs.Retelling.Story

/-!
# Reading only some records

A reader that passes over some of its records tells the others as they are. So the story that it
tells is the same story with these records left out.

* `Block.abridge`, `Draft.abridge`, `StoryGraph.abridge`: leaving records out.
* `Draft.feedAll_abridge`, `Draft.finish_abridge`: what a script does.
* `StoryGraph.reachable_abridge`: play reaches the same blocks.
* `joined_feedAll_abridge`: what a script becomes when some of its lines are passed over.
* `keeps_joined`: what the reader makes sure of its records holds of the records of the joined blocks.
-/

namespace Playthrough

variable {κ : Type}

/-- The block without the records that are not kept. -/
def Block.abridge (keep : Record κ → Bool) (block : Block κ) : Block κ :=
  { block with text := block.text.filter keep }

/-- The line reader that passes over the records that are not kept. -/
def LineReader.abridge (keep : Record κ → Bool) (reader : LineReader κ) : LineReader κ :=
  fun line => (reader line).filter keep

/-- The draft without the records that are not kept. -/
def Draft.abridge (keep : Record κ → Bool) (draft : Draft κ) : Draft κ :=
  { draft with blocks := draft.blocks.map (Block.abridge keep) }

variable (keep : Record κ → Bool)

/-- The story without the records that are not kept. -/
def StoryGraph.abridge (story : StoryGraph κ) : StoryGraph κ where
  blocks := story.blocks.map (Block.abridge keep)
  ascending := List.pairwise_map.2 story.ascending
  entry_mem := by
    rw [List.map_map]
    exact story.entry_mem

/-! ## To leave records out is to tell the others as they are -/

theorem Block.abridge_eq : Block.abridge keep = Block.retell (Option.guard keep) := by
  funext block
  rw [abridge, retell, List.filterMap_eq_filter]

theorem LineReader.abridge_eq (reader : LineReader κ) :
    reader.abridge keep = reader.retell (Option.guard keep) := by
  funext line
  exact (Option.bind_guard (reader line) keep).symm

theorem Draft.abridge_eq : Draft.abridge keep = Draft.retell (Option.guard keep) := by
  funext draft
  rw [abridge, retell, Block.abridge_eq]

theorem StoryGraph.abridge_eq : StoryGraph.abridge keep = StoryGraph.retell (Option.guard keep) := by
  funext story
  exact eq_of_blocks (congrArg (List.map · story.blocks) (Block.abridge_eq keep))

/-! ## Blocks -/

@[simp] theorem Block.next_abridge (block : Block κ) : (block.abridge keep).next = block.next := rfl

/-- A block is found by its label, whatever is left out of it. -/
theorem Block.find?_abridge (label : Label) (blocks : List (Block κ)) :
    (blocks.map (abridge keep)).find? (·.label = label) =
      (blocks.find? (·.label = label)).map (abridge keep) := by
  rw [abridge_eq]
  exact find?_retell _ label blocks

/-! ## Scripts -/

/-- The draft of the lines that are not passed over is the draft of all lines with the records of
    the others left out. -/
theorem Draft.feedAll_abridge (draft : Draft κ) (reader : LineReader κ)
    (lines : List (String × Nat)) :
    (draft.abridge keep).feedAll (reader.abridge keep) lines =
      abridge keep <$> draft.feedAll reader lines := by
  rw [abridge_eq, LineReader.abridge_eq]
  exact feedAll_retell _ draft reader lines

theorem Draft.finish_abridge (draft : Draft κ) :
    (draft.abridge keep).finish = StoryGraph.abridge keep <$> draft.finish := by
  rw [abridge_eq, StoryGraph.abridge_eq]
  exact finish_retell _ draft

theorem StoryGraph.reachable_abridge (story : StoryGraph κ) :
    (story.abridge keep).reachable = story.reachable := by
  rw [abridge_eq]
  exact reachable_retell _ story

/-- The joined story of the lines that are not passed over is that of all lines, with the records of
    the others left out. -/
theorem joined_feedAll_abridge [FiniteCheck κ] (reader : LineReader κ)
    (lines : List (String × Nat)) :
    (do (← (← Draft.start.feedAll (reader.abridge keep) lines).finish).joined) =
      StoryGraph.abridge keep <$> (do (← (← Draft.start.feedAll reader lines).finish).joined) := by
  rw [StoryGraph.abridge_eq, LineReader.abridge_eq]
  exact joined_feedAll_retell _ reader lines

/-- What the reader makes sure of its records holds of the records of the joined blocks. -/
theorem keeps_joined [FiniteCheck κ] {reader : LineReader κ} {lines : List (String × Nat)}
    {joined : StoryGraph κ} (hreader : ∀ line record, reader line = some record → keep record)
    (h : (do (← (← Draft.start.feedAll reader lines).finish).joined) = Except.ok joined) :
    ∀ block ∈ joined.blocks, ∀ record ∈ block.text, keep record := by
  -- Passing over the records that are not kept passes over nothing, so nothing is left out.
  have hsame : reader.abridge keep = reader := by
    funext line
    cases hread : reader line with
    | none => simp [LineReader.abridge, hread]
    | some record => simp [LineReader.abridge, hread, hreader line record hread]
  have hjoined := joined_feedAll_abridge keep reader lines
  rw [hsame, h] at hjoined
  have hblocks : joined.blocks.map id = joined.blocks.map (Block.abridge keep) :=
    (List.map_id _).trans (congrArg StoryGraph.blocks (Except.ok.inj hjoined))
  intro block hblock
  have hself : block.abridge keep = block := (List.map_inj_left.1 hblocks block hblock).symm
  exact List.filter_eq_self.1 (congrArg Block.text hself)

end Playthrough
