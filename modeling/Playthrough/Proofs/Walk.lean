import Playthrough.Story.Costed
import Mathlib.Data.List.Chain
import Mathlib.Data.List.Nodup
import Mathlib.Logic.Relation
import Mathlib.Data.Set.Basic

/-!
# Walks through a story

A walk is what a player does: it starts in a block, follows exits, and stops in a block that has
none. Blocks may repeat. A walk that stops in a dead end is a lost game, any other one is an ending
of the story.

Graphs with and without costs, and lists of blocks, are all seen through the same window here: an
`Atlas` gives the block that a label stands for.

* `Path`: a list in which each entry leads to the next.
* `Atlas.of`: the atlas of a list of blocks.
* `Atlas.IsWalk`: the walks of a story, as lists of labels.
* `Atlas.stories`: what the walks of a story spell, records and declared names.
* `Atlas.Spells`: the same by the rules of play, one block at a time; `spells_iff` joins the two.
* `StoryGraph.atlas_ofBlocks`: the atlas of a graph made of blocks.
-/

namespace Playthrough

open Relation

variable {κ : Type}

/-! ## Paths -/

/-- A path from `a` to `b` along a relation, as the list of all its points. -/
structure Path {α : Type} (step : α → α → Prop) (a b : α) (path : List α) : Prop where
  starts : path.head? = some a
  steps : path.IsChain step
  ends : path.getLast? = some b

namespace Path

variable {α : Type} {step : α → α → Prop} {a b c : α} {path : List α}

theorem single (step : α → α → Prop) (a : α) : Path step a a [a] :=
  ⟨rfl, List.isChain_singleton _, rfl⟩

theorem cons (hstep : step a b) (h : Path step b c path) : Path step a c (a :: path) := by
  obtain ⟨hstarts, hsteps, hends⟩ := h
  cases path with
  | nil => simp at hstarts
  | cons first path =>
    obtain rfl : first = b := by simpa using hstarts
    exact ⟨rfl, List.isChain_cons_cons.2 ⟨hstep, hsteps⟩, by rwa [List.getLast?_cons_cons]⟩

theorem snoc (h : Path step a b path) (hstep : step b c) : Path step a c (path ++ [c]) := by
  obtain ⟨hstarts, hsteps, hends⟩ := h
  refine ⟨?_, ?_, by simp⟩
  · rw [List.head?_append, hstarts]
    rfl
  · refine List.isChain_append.2 ⟨hsteps, List.isChain_singleton _, ?_⟩
    intro last hlast next hnext
    rw [hends, Option.mem_some_iff] at hlast
    obtain rfl : c = next := by simpa using hnext
    exact hlast ▸ hstep

/-- A path is a single point, or a step and a path. -/
theorem cases_cons (h : Path step a b path) :
    (path = [a] ∧ a = b) ∨
      ∃ next rest, path = a :: rest ∧ step a next ∧ Path step next b rest := by
  obtain ⟨hstarts, hsteps, hends⟩ := h
  match path with
  | [] => simp at hstarts
  | [first] =>
    obtain rfl : first = a := by simpa using hstarts
    exact Or.inl ⟨rfl, by simpa using hends⟩
  | first :: next :: rest =>
    obtain rfl : first = a := by simpa using hstarts
    rw [List.isChain_cons_cons] at hsteps
    rw [List.getLast?_cons_cons] at hends
    exact Or.inr ⟨next, next :: rest, rfl, hsteps.1, rfl, hsteps.2, hends⟩

/-- A path is a single point, or a path and a step. -/
theorem cases_snoc (h : Path step a b path) :
    (path = [a] ∧ a = b) ∨
      ∃ previous front, path = front ++ [b] ∧ Path step a previous front ∧ step previous b := by
  induction path generalizing a with
  | nil => simpa using h.starts
  | cons first path ih =>
    rcases h.cases_cons with hsingle | ⟨next, rest, heq, hstep, hrest⟩
    · exact Or.inl hsingle
    · obtain ⟨rfl, rfl⟩ := List.cons.inj heq
      rcases ih hrest with ⟨rfl, rfl⟩ | ⟨previous, front, rfl, hfront, hlast⟩
      · exact Or.inr ⟨first, [first], rfl, single step first, hstep⟩
      · exact Or.inr ⟨previous, first :: front, rfl, hfront.cons hstep, hlast⟩

/-- Two paths that meet make one. -/
theorem trans {rest : List α} (h : Path step a b path) (hrest : Path step b c (b :: rest)) :
    Path step a c (path ++ rest) := by
  induction path generalizing a with
  | nil => simpa using h.starts
  | cons first path ih =>
    rcases h.cases_cons with ⟨heq, rfl⟩ | ⟨next, tail, heq, hstep, htail⟩
    · obtain ⟨rfl, rfl⟩ := List.cons.inj heq
      exact hrest
    · obtain ⟨rfl, rfl⟩ := List.cons.inj heq
      exact (ih htail).cons hstep

/-- A path up to one of its points. -/
theorem upTo {x : α} {front back : List α} (h : Path step a b (front ++ x :: back)) :
    Path step a x (front ++ [x]) := by
  obtain ⟨hstarts, hsteps, -⟩ := h
  rw [List.append_cons] at hstarts hsteps
  refine ⟨?_, hsteps.left_of_append, by simp⟩
  rwa [List.head?_append_of_ne_nil _ (by simp)] at hstarts

theorem reach (h : Path step a b path) : ReflTransGen step a b := by
  induction path generalizing a with
  | nil => simpa using h.starts
  | cons first path ih =>
    rcases h.cases_cons with ⟨-, rfl⟩ | ⟨next, tail, heq, hstep, htail⟩
    · exact .refl
    · obtain ⟨rfl, rfl⟩ := List.cons.inj heq
      exact .head hstep (ih htail)

/-- Every point of a path is reached from its start and reaches its end. -/
theorem reach_of_mem (h : Path step a b path) {x : α} (hx : x ∈ path) :
    ReflTransGen step a x ∧ ReflTransGen step x b := by
  induction path generalizing a with
  | nil => cases hx
  | cons first path ih =>
    rcases h.cases_cons with ⟨heq, rfl⟩ | ⟨next, tail, heq, hstep, htail⟩
    · obtain ⟨rfl, rfl⟩ := List.cons.inj heq
      obtain rfl := List.mem_singleton.1 hx
      exact ⟨.refl, .refl⟩
    · obtain ⟨rfl, rfl⟩ := List.cons.inj heq
      rcases List.mem_cons.1 hx with rfl | hx
      · exact ⟨.refl, h.reach⟩
      · obtain ⟨hto, hfrom⟩ := ih htail hx
        exact ⟨.head hstep hto, hfrom⟩

end Path

theorem exists_path {α : Type} {step : α → α → Prop} {a b : α} (h : ReflTransGen step a b) :
    ∃ rest, Path step a b (a :: rest) := by
  induction h using ReflTransGen.head_induction_on with
  | refl => exact ⟨[], Path.single step b⟩
  | head hstep _ ih =>
    obtain ⟨rest, hrest⟩ := ih
    exact ⟨_, hrest.cons hstep⟩

/-! ## Definitions -/

/-- The block that each label stands for. -/
abbrev Atlas (κ : Type) := Label → Option (Block κ)

/-- Play stops at the end of the block; the game is lost there if `dead`. -/
def Block.Stops (dead : Bool) (block : Block κ) : Prop := block.next = [] ∧ block.deadend = dead

theorem Block.stops_false_iff (block : Block κ) : block.Stops false ↔ block.isTerminal = true := by
  simp [Block.Stops, Block.isTerminal]

namespace Atlas

/-- The atlas of a list of blocks. -/
def of (blocks : List (Block κ)) : Atlas κ := fun label => blocks.find? (·.label = label)

/-- Play can go on from one label to another. -/
def Leads (atlas : Atlas κ) (source target : Label) : Prop :=
  ∃ block, atlas source = some block ∧ target ∈ block.next

/-- Play can get from one label to another, in any number of steps. -/
def Reaches (atlas : Atlas κ) : Label → Label → Prop := ReflTransGen atlas.Leads

/-- A walk from `start` to a block in which play stops. -/
def IsWalk (atlas : Atlas κ) (start : Label) (dead : Bool) (walk : List Label) : Prop :=
  ∃ last block, Path atlas.Leads start last walk ∧ atlas last = some block ∧ block.Stops dead

/-- The records of the block with a label. -/
def text (atlas : Atlas κ) (label : Label) : List (Record κ) :=
  ((atlas label).map Block.text).getD []

/-- The records of a walk. -/
def spelled (atlas : Atlas κ) (walk : List Label) : List (Record κ) := walk.flatMap atlas.text

end Atlas

/-- The atlas of a story. -/
abbrev StoryGraph.atlas (graph : StoryGraph κ) : Atlas κ := Atlas.of graph.blocks

/-- The atlas of a reduced story. -/
abbrev CostedGraph.atlas (graph : CostedGraph κ) : Atlas κ :=
  Atlas.of (graph.blocks.map CostedBlock.block)

/-- The declared names among labels. -/
def declared (walk : List Label) : List String := walk.filterMap Label.name?

namespace Atlas

/-- What the walks from the entry spell: their records, and the names they pass. -/
def stories (atlas : Atlas κ) (dead : Bool) : Set (List (Record κ) × List String) :=
  {story | ∃ walk, atlas.IsWalk .entry dead walk ∧ story = (atlas.spelled walk, declared walk)}

/-- What can be spelled from a label on. -/
inductive Spells (atlas : Atlas κ) (dead : Bool) : Label → List (Record κ) → List String → Prop
  | stop {label : Label} {block : Block κ} :
      atlas label = some block → block.Stops dead →
      Spells atlas dead label block.text label.name?.toList
  | step {label target : Label} {block : Block κ} {records : List (Record κ)}
      {names : List String} :
      atlas label = some block → target ∈ block.next → Spells atlas dead target records names →
      Spells atlas dead label (block.text ++ records) (label.name?.toList ++ names)

/-! ## Blocks of an atlas -/

theorem label_of_eq_some {blocks : List (Block κ)} {label : Label} {block : Block κ}
    (h : of blocks label = some block) : block ∈ blocks ∧ block.label = label :=
  ⟨List.mem_of_find?_eq_some h, by simpa using List.find?_some h⟩

theorem of_eq_some_iff {blocks : List (Block κ)} (hnodup : (blocks.map Block.label).Nodup)
    {label : Label} {block : Block κ} :
    of blocks label = some block ↔ block ∈ blocks ∧ block.label = label := by
  refine ⟨label_of_eq_some, ?_⟩
  rintro ⟨hmem, rfl⟩
  obtain ⟨found, hfound⟩ : ∃ found, of blocks block.label = some found := by
    refine Option.isSome_iff_exists.1 (List.find?_isSome.2 ⟨block, hmem, ?_⟩)
    simp
  obtain ⟨hin, hlabel⟩ := label_of_eq_some hfound
  rw [hfound, List.inj_on_of_nodup_map hnodup hin hmem hlabel]

theorem isSome_of_iff {blocks : List (Block κ)} {label : Label} :
    (of blocks label).isSome ↔ label ∈ blocks.map Block.label := by
  simp [of]

theorem of_filter (blocks : List (Block κ)) (keep : Label → Bool) (label : Label) :
    of (blocks.filter fun block => keep block.label) label =
      if keep label then of blocks label else none := by
  induction blocks with
  | nil => simp [of]
  | cons block blocks ih =>
    unfold of at ih ⊢
    rw [List.filter_cons, List.find?_cons]
    by_cases hlabel : block.label = label
    · subst hlabel
      by_cases hkeep : keep block.label = true
      · simp [hkeep]
      · simpa [hkeep] using ih
    · by_cases hkeep : keep block.label = true
      · simpa [hkeep, hlabel] using ih
      · simpa [hkeep, hlabel] using ih

theorem of_map {f : Block κ → Block κ} (hlabel : ∀ block, (f block).label = block.label)
    (blocks : List (Block κ)) (label : Label) :
    of (blocks.map f) label = (of blocks label).map f := by
  unfold of
  rw [List.find?_map]
  congr 2
  funext block
  simp [hlabel]

/-! ## Walks and rules -/

variable {atlas : Atlas κ} {dead : Bool} {start : Label} {walk : List Label}

theorem text_eq {label : Label} {block : Block κ} (h : atlas label = some block) :
    atlas.text label = block.text := by
  simp [text, h]

@[simp] theorem spelled_nil (atlas : Atlas κ) : atlas.spelled [] = [] := rfl

@[simp] theorem declared_nil : declared [] = [] := rfl

theorem spelled_cons (atlas : Atlas κ) (label : Label) (walk : List Label) :
    atlas.spelled (label :: walk) = atlas.text label ++ atlas.spelled walk := by
  simp [spelled]

theorem declared_cons (label : Label) (walk : List Label) :
    declared (label :: walk) = label.name?.toList ++ declared walk := by
  unfold declared
  rw [List.filterMap_cons]
  cases label.name? <;> rfl

theorem isWalk_singleton {block : Block κ} (hblock : atlas start = some block)
    (hstops : block.Stops dead) : atlas.IsWalk start dead [start] :=
  ⟨start, block, Path.single _ start, hblock, hstops⟩

theorem IsWalk.cons {label : Label} (hleads : atlas.Leads label start)
    (h : atlas.IsWalk start dead walk) : atlas.IsWalk label dead (label :: walk) := by
  obtain ⟨last, block, hpath, hblock, hstops⟩ := h
  exact ⟨last, block, hpath.cons hleads, hblock, hstops⟩

theorem IsWalk.spells (h : atlas.IsWalk start dead walk) :
    atlas.Spells dead start (atlas.spelled walk) (declared walk) := by
  obtain ⟨last, block, hpath, hblock, hstops⟩ := h
  induction walk generalizing start with
  | nil => simpa using hpath.starts
  | cons first walk ih =>
    rcases hpath.cases_cons with ⟨heq, rfl⟩ | ⟨target, rest, heq, hleads, hrest⟩
    · obtain ⟨rfl, rfl⟩ := List.cons.inj heq
      rw [spelled_cons, declared_cons, text_eq hblock]
      simpa using Spells.stop hblock hstops
    · obtain ⟨rfl, rfl⟩ := List.cons.inj heq
      obtain ⟨source, hsource, htarget⟩ := hleads
      rw [spelled_cons, declared_cons, text_eq hsource]
      exact .step hsource htarget (ih hrest)

/-- The rules of play spell what the walks spell. -/
theorem spells_iff {records : List (Record κ)} {names : List String} :
    atlas.Spells dead start records names ↔
      ∃ walk, atlas.IsWalk start dead walk ∧ records = atlas.spelled walk ∧
        names = declared walk := by
  constructor
  · intro h
    induction h with
    | @stop label block hblock hstops =>
      refine ⟨[label], isWalk_singleton hblock hstops, ?_, ?_⟩
      · simp [spelled_cons, text_eq hblock]
      · simp [declared_cons]
    | @step label target block records names hblock htarget _ ih =>
      obtain ⟨walk, hwalk, rfl, rfl⟩ := ih
      refine ⟨label :: walk, hwalk.cons ⟨block, hblock, htarget⟩, ?_, ?_⟩
      · rw [spelled_cons, text_eq hblock]
      · rw [declared_cons]
  · rintro ⟨walk, hwalk, rfl, rfl⟩
    exact hwalk.spells

theorem mem_stories_iff {records : List (Record κ)} {names : List String} :
    (records, names) ∈ atlas.stories dead ↔ atlas.Spells dead .entry records names := by
  rw [spells_iff]
  simp [stories]

/-! ## Atlases that agree in reach -/

variable {atlas' : Atlas κ}

theorem Reaches.transfer (h : ∀ label, atlas.Reaches start label → atlas' label = atlas label)
    {label : Label} (hreach : atlas.Reaches start label) : atlas'.Reaches start label := by
  induction hreach with
  | refl => exact .refl
  | tail hreach hleads ih =>
    obtain ⟨block, hblock, htarget⟩ := hleads
    exact ih.tail ⟨block, by rw [h _ hreach, hblock], htarget⟩

theorem reaches_congr (h : ∀ label, atlas.Reaches start label → atlas' label = atlas label)
    {label : Label} : atlas'.Reaches start label ↔ atlas.Reaches start label := by
  refine ⟨?_, Reaches.transfer h⟩
  intro hreach
  induction hreach with
  | refl => exact .refl
  | tail _ hleads ih =>
    obtain ⟨block, hblock, htarget⟩ := hleads
    exact ih.tail ⟨block, by rw [← h _ ih, hblock], htarget⟩

theorem Spells.transfer {records : List (Record κ)} {names : List String}
    (hspells : atlas.Spells dead start records names)
    (h : ∀ label, atlas.Reaches start label → atlas' label = atlas label) :
    atlas'.Spells dead start records names := by
  induction hspells with
  | @stop label block hblock hstops => exact .stop (by rw [h label .refl, hblock]) hstops
  | @step label target block records names hblock htarget _ ih =>
    refine .step (by rw [h label .refl, hblock]) htarget (ih ?_)
    intro other hreach
    exact h other (.head ⟨block, hblock, htarget⟩ hreach)

/-- What is spelled from a label depends only on the blocks in reach of it. -/
theorem spells_congr (h : ∀ label, atlas.Reaches start label → atlas' label = atlas label)
    {records : List (Record κ)} {names : List String} :
    atlas'.Spells dead start records names ↔ atlas.Spells dead start records names := by
  refine ⟨fun hspells => hspells.transfer ?_, fun hspells => hspells.transfer h⟩
  intro label hreach
  exact (h label ((reaches_congr h).1 hreach)).symm

end Atlas

/-! ## Graphs of blocks -/

namespace StoryGraph

theorem of_place (block : Block κ) (placed : List (Block κ)) (label : Label) :
    Atlas.of (place Block.label (fun new _ => new) block placed) label =
      if label = block.label then some block else Atlas.of placed label := by
  unfold Atlas.of
  induction placed with
  | nil => by_cases h : label = block.label <;> simp [place, h, eq_comm]
  | cons first placed ih =>
    rw [place]
    split
    · by_cases h : label = block.label
      · simp [h]
      · rw [List.find?_cons_of_neg (by simpa using Ne.symm h), if_neg h]
    · rename_i hcompare
      have heq : block.label = first.label := Std.LawfulEqOrd.eq_of_compare hcompare
      by_cases h : label = block.label
      · simp [h]
      · rw [List.find?_cons_of_neg (by simpa using Ne.symm h), if_neg h,
          List.find?_cons_of_neg (by simpa [← heq] using Ne.symm h)]
    · rename_i hcompare
      by_cases hfirst : first.label = label
      · have hne : label ≠ block.label := by
          rintro rfl
          rw [hfirst, Std.compare_self] at hcompare
          cases hcompare
        rw [List.find?_cons_of_pos (by simpa using hfirst), if_neg hne,
          List.find?_cons_of_pos (by simpa using hfirst)]
      · rw [List.find?_cons_of_neg (by simpa using hfirst), ih,
          List.find?_cons_of_neg (by simpa using hfirst)]

theorem of_placeAll {added : List (Block κ)} (hnodup : (added.map Block.label).Nodup)
    (placed : List (Block κ)) (label : Label) :
    Atlas.of (placeAll added placed) label =
      if label ∈ added.map Block.label then Atlas.of added label else Atlas.of placed label := by
  induction added generalizing placed with
  | nil => simp [placeAll]
  | cons block added ih =>
    rw [List.map_cons, List.nodup_cons] at hnodup
    have hplace : placeAll (block :: added) placed =
        placeAll added (place Block.label (fun new _ => new) block placed) := rfl
    rw [hplace, ih hnodup.2, of_place]
    by_cases hlabel : label = block.label
    · subst hlabel
      simp [hnodup.1, Atlas.of]
    · have hne : block.label ≠ label := Ne.symm hlabel
      simp [hlabel, hne, Atlas.of]

/-- The graph of blocks with distinct labels, the entry among them, has these blocks. -/
theorem atlas_ofBlocks {blocks : List (Block κ)} (hnodup : (blocks.map Block.label).Nodup)
    (hentry : Label.entry ∈ blocks.map Block.label) :
    (ofBlocks blocks).atlas = Atlas.of blocks := by
  funext label
  rw [atlas, ofBlocks, of_placeAll hnodup]
  split
  · rfl
  · rename_i hlabel
    have hne : Label.entry ≠ label := fun h => hlabel (h ▸ hentry)
    have hnone : Atlas.of blocks label = none := by
      rw [← Option.not_isSome_iff_eq_none, Atlas.isSome_of_iff]
      exact hlabel
    rw [hnone]
    simp [Atlas.of, hne]

end StoryGraph

end Playthrough
