import Mathlib.Control.Basic
import Playthrough.Draft.Feed
import Playthrough.Draft.Finish

/-!
# Telling the records of a story in another way

A reader can be made to pass over some of the lines that take time, or to record them in another way.
The story is then the same story with the records of these lines left out or replaced: the records of
a block decide nothing about the bodies that open and close around it, nor about which line is
refused.

* `Block.retell`, `Draft.retell`: replacing records, or leaving them out.
* `Draft.align_retell`, `Draft.obey_retell`, `Draft.feed_retell`: what a line does.
* `Draft.feedAll_retell`: what a script does.
-/

namespace Playthrough

open Script Text

variable {κ : Type}

/-! ## Blocks -/

/-- The block with each record replaced by what is told of it, if anything. -/
def Block.retell (tell : Record κ → Option (Record κ)) (block : Block κ) : Block κ :=
  { block with text := block.text.filterMap tell }

namespace Block

variable (tell : Record κ → Option (Record κ))

@[simp] theorem label_retell (block : Block κ) : (block.retell tell).label = block.label := rfl

@[simp] theorem next_retell (block : Block κ) : (block.retell tell).next = block.next := rfl

theorem exit_retell (target : Label) (final : Bool) (block : Block κ) :
    (block.retell tell).exit target final = (block.exit target final).retell tell := by
  unfold exit
  split <;> rename_i h
  · rw [if_pos (show block.disabled = true from h)]
  · rw [if_neg (show ¬ block.disabled = true from h)]
    rfl

theorem close_retell (dead : Bool) (block : Block κ) :
    (block.retell tell).close dead = (block.close dead).retell tell := by
  unfold close
  split <;> rename_i h
  · rw [if_pos (show block.disabled = true from h)]
  · rw [if_neg (show ¬ block.disabled = true from h)]
    rfl

theorem say_retell {record told : Record κ} (h : tell record = some told) (block : Block κ) :
    (block.retell tell).say told = (block.say record).retell tell := by
  simp [say, retell, h]

theorem retell_say {record : Record κ} (h : tell record = none) (block : Block κ) :
    (block.say record).retell tell = block.retell tell := by
  simp [say, retell, h]

theorem absorb_retell (tail block : Block κ) :
    (tail.retell tell).absorb (block.retell tell) = (tail.absorb block).retell tell := by
  simp [absorb, retell]

/-- A block is found by its label, whatever is told of its records. -/
theorem find?_retell (label : Label) (blocks : List (Block κ)) :
    (blocks.map (retell tell)).find? (·.label = label) =
      (blocks.find? (·.label = label)).map (retell tell) :=
  List.find?_map ..

end Block

/-- The line reader that records what is told of the records. -/
def LineReader.retell (tell : Record κ → Option (Record κ)) (reader : LineReader κ) :
    LineReader κ :=
  fun line => (reader line).bind tell

namespace Draft

/-- The draft with the records of all blocks told in another way. -/
def retell (tell : Record κ → Option (Record κ)) (draft : Draft κ) : Draft κ :=
  { draft with blocks := draft.blocks.map (Block.retell tell) }

variable (tell : Record κ → Option (Record κ)) (draft : Draft κ)

/-! ## Changes of a draft -/

theorem modifyTop_retell (change : Frame → Frame) :
    (draft.retell tell).modifyTop change = (draft.modifyTop change).retell tell := by
  unfold modifyTop
  cases h : draft.stack with
  | nil => simp [retell, h]
  | cons frame frames => simp [retell, h]

theorem find?_retell (label : Label) :
    (draft.retell tell).find? label = (draft.find? label).map (Block.retell tell) :=
  Block.find?_retell tell label draft.blocks

theorem modifyBlock_retell (label : Label) {change change' : Block κ → Block κ}
    (hchange : ∀ block, change' (block.retell tell) = (change block).retell tell)
    (blocks : List (Block κ)) :
    modifyBlock label change' (blocks.map (Block.retell tell)) =
      (modifyBlock label change blocks).map (Block.retell tell) := by
  induction blocks with
  | nil => rfl
  | cons block blocks ih =>
    simp only [List.map_cons, modifyBlock, Block.label_retell, ih]
    split
    · rw [List.map_cons, hchange]
    · rfl

theorem modify_retell (label : Label) {change change' : Block κ → Block κ}
    (hchange : ∀ block, change' (block.retell tell) = (change block).retell tell) :
    (draft.retell tell).modify label change' = (draft.modify label change).retell tell := by
  unfold modify
  rw [retell, modifyBlock_retell tell label hchange]
  rfl

theorem modifyCurrent_retell {change change' : Block κ → Block κ}
    (hchange : ∀ block, change' (block.retell tell) = (change block).retell tell) :
    (draft.retell tell).modifyCurrent change' = (draft.modifyCurrent change).retell tell :=
  modify_retell tell draft draft.top.block hchange

theorem modifyCurrent_id : draft.modifyCurrent id = draft := by
  have hblocks : ∀ blocks : List (Block κ), modifyBlock draft.top.block id blocks = blocks := by
    intro blocks
    induction blocks with
    | nil => rfl
    | cons block blocks ih =>
      rw [modifyBlock, ih]
      split <;> rfl
  unfold modifyCurrent modify
  rw [hblocks]

theorem link_retell (source target : Label) (final : Bool) (line : Nat) :
    (draft.retell tell).link source target final line =
      retell tell <$> draft.link source target final line := by
  unfold link
  split
  · rfl
  · rw [modify_retell tell draft source (Block.exit_retell tell target final)]
    rfl

/-- Steps that are taken alike in the retold draft are taken alike one after the other. -/
theorem foldlM_retell {α : Type} {step step' : Draft κ → α → Except (Fault κ) (Draft κ)}
    (h : ∀ draft a, step' (retell tell draft) a = retell tell <$> step draft a) (list : List α) :
    list.foldlM step' (draft.retell tell) = retell tell <$> list.foldlM step draft := by
  induction list generalizing draft with
  | nil => rfl
  | cons a list ih => simp only [List.foldlM_cons, h, bind_map_left, map_bind, ih]

/-! ## Closing -/

theorem join_retell (sources : List Label) (line : Nat) :
    (draft.retell tell).join sources line = retell tell <$> draft.join sources line := by
  let lead (linked : Draft κ) (source : Label) :=
    linked.link source (draft.nextLabel .merge line) false line
  have hlinks : sources.foldlM lead (draft.countMint.retell tell) =
      retell tell <$> sources.foldlM lead draft.countMint :=
    foldlM_retell tell _ (fun linked source => link_retell tell linked source _ false line) _
  unfold join
  simp only [map_bind, map_pure]
  refine Eq.trans (congrArg (· >>= _) hlinks) ?_
  rw [bind_map_left]
  refine bind_congr fun linked => ?_
  rw [← modifyTop_retell]
  rfl

theorem close_retell (line : Nat) :
    (draft.retell tell).close line = retell tell <$> draft.close line := by
  unfold close
  cases hstack : draft.stack with
  | nil =>
    rw [show (draft.retell tell).stack = [] from hstack]
    rfl
  | cons frame frames =>
    have hbelow : ({ draft.retell tell with stack := frames } : Draft κ) =
        ({ draft with stack := frames } : Draft κ).retell tell := rfl
    have hstack' : (draft.retell tell).stack = frame :: frames := hstack
    simp only [hstack', hbelow]
    cases frame.role with
    | arm => exact congrArg Except.ok (modifyTop_retell tell _ _)
    | body => exact join_retell tell _ _ line
    | menu ends => exact join_retell tell _ _ line
    | chain ends skippable => exact join_retell tell _ _ line

theorem closeMany_retell (line count : Nat) :
    closeMany line count (draft.retell tell) = retell tell <$> closeMany line count draft := by
  induction count generalizing draft with
  | zero => rfl
  | succ count ih => simp only [closeMany, close_retell, bind_map_left, map_bind, ih]

theorem closeChain_retell (line : Nat) :
    (draft.retell tell).closeChain line = retell tell <$> draft.closeChain line := by
  unfold closeChain
  rw [show (draft.retell tell).top = draft.top from rfl]
  cases draft.top.role with
  | chain ends skippable => exact close_retell tell draft line
  | body => rfl
  | arm => rfl
  | menu ends => rfl

/-! ## Indentation -/

theorem establish_retell (line : List Char) :
    (draft.retell tell).establish line =
      Prod.map (retell tell) id <$> draft.establish line := by
  unfold establish
  rw [show (draft.retell tell).enclosing = draft.enclosing from rfl]
  simp only
  split
  · rfl
  · split
    · rfl
    · rw [modifyTop_retell]
      rfl

theorem align_retell (line : List Char) (number : Nat) :
    (draft.retell tell).align line number =
      Prod.map (retell tell) id <$> draft.align line number := by
  unfold align
  rw [show (draft.retell tell).top = draft.top from rfl,
    show (draft.retell tell).ended line = draft.ended line from rfl]
  simp only
  cases draft.top.indent with
  | none =>
    simp only [establish_retell]
    cases draft.establish line <;> rfl
  | some indent =>
    simp only [closeMany_retell, bind_map_left, map_bind]
    refine bind_congr fun closed => ?_
    rw [apply_ite (Functor.map _), apply_ite (Functor.map _)]
    rfl

/-! ## Opening bodies -/

theorem declare_retell (name : String) :
    (draft.retell tell).declare name = (draft.declare name).retell tell := by
  unfold declare
  split
  · rfl
  · exact modifyTop_retell tell draft _

theorem enter_retell (label : Label) (role : Role) (line : Nat) :
    (draft.retell tell).enter label role line = retell tell <$> draft.enter label role line := by
  unfold enter
  rw [find?_retell, Option.isSome_map, show (draft.retell tell).top = draft.top from rfl]
  split
  · rfl
  · simp only [link_retell, bind_map_left, map_bind, map_pure]
    rfl

theorem enterFresh_retell (role : Role) (line : Nat) :
    (draft.retell tell).enterFresh role line = retell tell <$> draft.enterFresh role line :=
  enter_retell tell draft.countMint _ role line

theorem openChain_retell (line : Nat) :
    (draft.retell tell).openChain line = retell tell <$> draft.openChain line := by
  unfold openChain
  rw [show (draft.retell tell).countMint = draft.countMint.retell tell from rfl]
  simp only [link_retell, bind_map_left, map_bind, map_pure]
  rfl

theorem openHeader_retell (header : Header) (line : Nat) :
    (draft.retell tell).openHeader header line =
      retell tell <$> draft.openHeader header line := by
  cases header with
  | label name =>
    simp only [openHeader, closeChain_retell, bind_map_left, map_bind, declare_retell,
      enter_retell]
    rfl
  | menu => simp only [openHeader, closeChain_retell, bind_map_left, map_bind, enterFresh_retell]
  | condition =>
    simp only [openHeader, closeChain_retell, openChain_retell, bind_map_left, map_bind,
      enterFresh_retell]
  | branch kind =>
    simp only [openHeader]
    rw [show (draft.retell tell).top = draft.top from rfl]
    cases draft.top.role with
    | chain ends skippable =>
      simp only [modifyTop_retell]
      exact enterFresh_retell tell _ .arm line
    | body => rfl
    | arm => rfl
    | menu ends => rfl
  | plain =>
    simp only [openHeader, closeChain_retell, bind_map_left, map_bind, enterFresh_retell]
    rfl

/-! ## Lines -/

theorem jump_retell (target : String) (line : Nat) :
    (draft.retell tell).jump target line = retell tell <$> draft.jump target line := by
  simp only [jump, link_retell, map_bind]
  rfl

theorem obey_retell (reader : LineReader κ) (statement : Statement) (line : Nat) :
    (draft.retell tell).obey (reader.retell tell) statement line =
      retell tell <$> draft.obey reader statement line := by
  cases statement with
  | header header => exact openHeader_retell tell draft header line
  | jump target => simp only [obey, closeChain_retell, bind_map_left, map_bind, jump_retell]
  | terminate dead =>
    simp only [obey, closeChain_retell, bind_map_left, map_bind, map_pure,
      modifyCurrent_retell tell _ (Block.close_retell tell dead)]
  | content text =>
    simp only [obey, closeChain_retell, bind_map_left, map_bind]
    refine bind_congr fun closed => ?_
    cases hread : reader text with
    | none => simp [LineReader.retell, hread]
    | some record =>
      cases htell : tell record with
      | some told =>
        simp only [LineReader.retell, hread, Option.bind_some, htell, map_pure,
          modifyCurrent_retell tell _ (Block.say_retell tell htell)]
      | none =>
        -- To leave the record out of the block it went into is to change nothing.
        have hsame : (closed.retell tell).modifyCurrent id =
            (closed.modifyCurrent (Block.say record)).retell tell :=
          modifyCurrent_retell tell closed fun block => (Block.retell_say tell htell block).symm
        simp only [LineReader.retell, hread, Option.bind_some, htell, map_pure, ← hsame,
          modifyCurrent_id]

theorem feed_retell (reader : LineReader κ) (line : String) (number : Nat) :
    (draft.retell tell).feed (reader.retell tell) line number =
      retell tell <$> draft.feed reader line number := by
  unfold feed
  simp only
  split
  · rfl
  · rw [show ({ draft.retell tell with lastLine := number } : Draft κ) =
      ({ draft with lastLine := number } : Draft κ).retell tell from rfl, align_retell]
    simp only [bind_map_left, map_bind]
    exact bind_congr fun aligned => obey_retell tell _ reader _ number

/-- The draft of a script for the reader that tells its records in another way is its draft with the
    records told in this way. -/
theorem feedAll_retell (reader : LineReader κ) (lines : List (String × Nat)) :
    (draft.retell tell).feedAll (reader.retell tell) lines =
      retell tell <$> draft.feedAll reader lines :=
  foldlM_retell tell draft (fun draft line => feed_retell tell draft reader line.1 line.2) lines

end Draft

end Playthrough
