import Mathlib
import Playthrough.Proofs.Reading.Costs
import Playthrough.Proofs.Route.Bare

/-!
# Names and details change no bound

The names by which speakers are shown stand in the records of every block, and with accounts the cost
of every block is computed in another way than without. Neither reaches the bounds: a reader with
names tells the records of a reader without them in another way, both ways to compute a cost come to
the same total, and the searches look at nothing else of a cost. What is told about a route beside its
time is added when the route has been found.

* `readLine_eq_retell`: names replace the speakers of records, and nothing else.
* `Settings.total_tally_rename`: the time of a block depends neither on names nor on accounts.
* `StoryGraph.bare_reduce`: stories with the same times become the same bare story.
* `bare_reducedStory`: so does a script, whatever the names and the accounts.
* `bounds_unaffected`: the reports on a script.
-/

namespace Playthrough

open Reading

/-! ## Names -/

/-- The speaker under the name by which it is shown. -/
def Speaker.rename (aliases : Aliases) : Speaker → Speaker
  | .narrator => .narrator
  | .named name => .named ((aliases.lookup name).getD name)

/-- The record with its speaker under the name by which it is shown. -/
def Record.rename {κ : Type} (aliases : Aliases) : Record κ → Record κ
  | .dialogue line => .dialogue { line with speaker := line.speaker.rename aliases }
  | .pause seconds => .pause seconds
  | .scene => .scene
  | .image => .image

namespace Reading

theorem speakerOf_eq_rename (aliases : Aliases) (name : Option (List Char)) :
    speakerOf aliases name = (speakerOf [] name).rename aliases := by
  cases name <;> rfl

/-- Names replace the speakers of records, and nothing else. -/
theorem readLine_eq_retell (aliases : Aliases) (pauses : Bool) :
    (readLine aliases pauses : LineReader Rat) =
      LineReader.retell (some ∘ Record.rename aliases) (readLine [] pauses) := by
  funext line
  unfold LineReader.retell readLine
  cases hspoken : spokenLine? line.toList with
  | some spoken =>
    simp only [hspoken, dialogueOf, speakerOf_eq_rename aliases spoken.1]
    rfl
  | none =>
    cases hpause : pause? line.toList with
    | some duration =>
      simp only [hspoken, hpause]
      cases pauses
      · rfl
      · cases (duration.value? : Option Rat) <;> rfl
    | none =>
      simp only [hspoken, hpause]
      split
      · rfl
      · split <;> rfl

namespace Settings

/-- The settings under which speakers are shown by the names that the script gives them. -/
def unnamed (settings : Settings Rat) : Settings Rat := { settings with characters := [] }

theorem recordTime_rename (settings : Settings Rat) (aliases : Aliases) (record : Record Rat) :
    settings.recordTime (record.rename aliases) = settings.unnamed.recordTime record := by
  cases record with
  | dialogue line =>
    unfold recordTime recordMinutes? Record.rename
    dsimp only
    split <;> rfl
  | pause seconds => rfl
  | scene => rfl
  | image => rfl

/-- The time of a block depends neither on names nor on accounts. -/
theorem total_tally_rename (settings : Settings Rat) (byCharacters : Bool) (aliases : Aliases)
    (records : List (Record Rat)) :
    (settings.tally byCharacters (records.filterMap (some ∘ Record.rename aliases))).total =
      (settings.unnamed.tally false records).total := by
  rw [total_tally, total_tally, List.filterMap_eq_map, List.map_map]
  refine congrArg List.sum (List.map_congr_left fun record _ => ?_)
  exact settings.recordTime_rename aliases record

end Settings

end Reading

/-! ## Stories with the same times -/

/-- Two runs over a list whose steps look alike give results that look alike. -/
theorem map_mapM_congr {ε α β γ : Type} {view : β → γ} {f g : α → Except ε β} {xs : List α}
    (h : ∀ x ∈ xs, view <$> f x = view <$> g x) :
    List.map view <$> xs.mapM f = List.map view <$> xs.mapM g := by
  have hcons : ∀ (run : α → Except ε β) (x : α) (xs : List α),
      List.map view <$> (x :: xs).mapM run =
        (do return (← view <$> run x) :: (← List.map view <$> xs.mapM run)) := by
    intro run x xs
    simp only [List.mapM_cons, map_bind, map_pure, bind_map_left, List.map_cons]
  induction xs with
  | nil => rfl
  | cons x xs ih =>
    rw [hcons, hcons, h x List.mem_cons_self, ih fun y hy => h y (List.mem_cons_of_mem x hy)]

namespace StoryGraph

variable {κ : Type} [FiniteCheck κ] {tell : Record κ → Option (Record κ)} {tally tally' : Tally κ}
  (htotal : ∀ records, (tally' (records.filterMap tell)).total = (tally records).total)

include htotal

theorem bare_costBlock (block : Block κ) (sources : List Label) :
    CostedBlock.bare <$> costBlock tally' (block.retell tell) sources =
      CostedBlock.bare <$> costBlock tally block sources := by
  have htext : (tally' (block.retell tell).text).total = (tally block.text).total :=
    htotal block.text
  unfold costBlock
  simp only [htext]
  split
  · refine congrArg Except.ok ?_
    simp only [CostedBlock.bare, htext]
    rfl
  · rfl

/-- Stories whose blocks take the same times, told in two ways, become the same bare story, or are
    refused for the same reason. -/
theorem bare_reduce (story : StoryGraph κ) :
    CostedGraph.bare <$> (story.retell tell).reduce tally' =
      CostedGraph.bare <$> story.reduce tally := by
  unfold reduce
  rw [joined_retell]
  simp only [map_bind, bind_map_left, incoming_retell, map_pure]
  refine bind_congr fun joined => bind_congr fun incoming => ?_
  have hsourced : (joined.retell tell).blocks.filterMap (fun block =>
        (incoming.lookup block.label).map fun sources => (block, sources)) =
      (joined.blocks.filterMap fun block =>
        (incoming.lookup block.label).map fun sources => (block, sources)).map
          (Prod.map (Block.retell tell) id) := by
    show List.filterMap _ (joined.blocks.map _) = _
    rw [List.filterMap_map, List.map_filterMap]
    refine List.filterMap_congr fun block _ => ?_
    rw [Function.comp_apply, Option.map_map, Block.label_retell]
    rfl
  rw [hsourced, List.mapM_map]
  generalize joined.blocks.filterMap _ = sourced
  have hcosts : ∀ entry ∈ sourced,
      CostedBlock.bare <$> costBlock tally' (entry.1.retell tell) entry.2 =
        CostedBlock.bare <$> costBlock tally entry.1 entry.2 :=
    fun entry _ => bare_costBlock htotal entry.1 entry.2
  have hgraphs := congrArg (CostedGraph.mk <$> ·) (map_mapM_congr hcosts)
  simp only [map_eq_pure_bind, bind_assoc, pure_bind] at hgraphs
  exact hgraphs

end StoryGraph

/-! ## Scripts -/

theorem bare_reducedStory (settings : Settings Rat) (byCharacters : Bool)
    (lines : List (String × Nat)) :
    CostedGraph.bare <$> (draftOf settings lines >>= reducedStory settings byCharacters) =
      CostedGraph.bare <$>
        (draftOf settings.unnamed lines >>= reducedStory settings.unnamed false) := by
  have hdraft : draftOf settings lines =
      Draft.retell (some ∘ Record.rename settings.characters) <$> draftOf settings.unnamed lines := by
    unfold draftOf
    rw [readLine_eq_retell]
    exact Draft.feedAll_retell _ Draft.start _ lines
  rw [hdraft, bind_map_left, map_bind, map_bind]
  refine bind_congr fun draft => ?_
  unfold reducedStory
  rw [Draft.finish_retell, bind_map_left, map_bind, map_bind]
  exact bind_congr fun story =>
    story.bare_reduce (settings.total_tally_rename byCharacters settings.characters)

/-- Two runs that look alike fail for the same reason, or both give results that look alike. -/
theorem map_eq_map {ε α β : Type} {view : α → β} {first second : Except ε α}
    (h : view <$> first = view <$> second) :
    (∃ fault, first = .error fault ∧ second = .error fault) ∨
      ∃ x y, first = .ok x ∧ second = .ok y ∧ view x = view y := by
  cases first <;> cases second <;> simp_all [Functor.map, Except.map]

/-- The report on a script is made from its reduced story. -/
theorem estimate_eq_bind (settings : Settings Rat) (request : Request) (file : String)
    (lines : List (String × Nat)) :
    estimate settings request file lines =
      (draftOf settings lines >>= reducedStory settings request.detail.byCharacters) >>=
        fun graph => Except.ok {
          file
          minimum :=
            if request.minimum then some (.of graph request.detail graph.shortest) else none
          maximum :=
            if request.maximum then some (.of graph request.detail graph.longest) else none
          settings } :=
  (bind_assoc ..).symm

/-- **Names and details change no bound.** Take two runs over the same lines, under settings and
    requests that may differ in the names by which speakers are shown, and in whether labels, texts
    and the times of speakers are told. Either both runs fail for the same reason, or both give a
    report, with the same times for the shortest and the longest route, and the stories in which
    the routes are sought have the same routes, step by step. -/
theorem bounds_unaffected (settings : Settings Rat) (aliases aliases' : Aliases) (request : Request)
    (detail detail' : Detail) (file : String) (lines : List (String × Nat)) :
    let first := { settings with characters := aliases }
    let second := { settings with characters := aliases' }
    (∃ fault, estimate first { request with detail } file lines = .error fault ∧
      estimate second { request with detail := detail' } file lines = .error fault) ∨
    ∃ report report' graph graph',
      estimate first { request with detail } file lines = .ok report ∧
      estimate second { request with detail := detail' } file lines = .ok report' ∧
      report.minimum.map BoundReport.time = report'.minimum.map BoundReport.time ∧
      report.maximum.map BoundReport.time = report'.maximum.map BoundReport.time ∧
      (do reducedStory first detail.byCharacters (← draftOf first lines)) = .ok graph ∧
      (do reducedStory second detail'.byCharacters (← draftOf second lines)) = .ok graph' ∧
      graph.shortest.map Route.steps = graph'.shortest.map Route.steps ∧
      graph.longest.map Route.steps = graph'.longest.map Route.steps := by
  intro first second
  have hbare := (bare_reducedStory first detail.byCharacters lines).trans
    (bare_reducedStory second detail'.byCharacters lines).symm
  rcases map_eq_map hbare with ⟨fault, hfirst, hsecond⟩ | ⟨graph, graph', hfirst, hsecond, hgraph⟩
  · refine Or.inl ⟨fault, ?_, ?_⟩
    · rw [estimate_eq_bind, hfirst]
      rfl
    · rw [estimate_eq_bind, hsecond]
      rfl
  · have hshortest : graph.shortest = graph'.shortest := by
      rw [← graph.shortest_bare, hgraph, graph'.shortest_bare]
    have hlongest : graph.longest = graph'.longest := by
      rw [← graph.longest_bare, hgraph, graph'.longest_bare]
    refine Or.inr ⟨_, _, graph, graph', by rw [estimate_eq_bind, hfirst]; rfl,
      by rw [estimate_eq_bind, hsecond]; rfl, ?_, ?_, hfirst, hsecond, by rw [hshortest],
      by rw [hlongest]⟩
    · simp only [hshortest]
      split <;> rfl
    · simp only [hlongest]
      split <;> rfl

/-- With names, labels, texts and the times of speakers, and without all of these: the times of the
    tavern are the same. -/
theorem bounds_unaffected_tavern :
    ∃ report report',
      estimate tavernSettings { detail := ⟨true, true, true⟩ } "tavern"
        (tavernLines.zipIdx 1) = .ok report ∧
      estimate tavernSettings.unnamed {} "tavern" (tavernLines.zipIdx 1) = .ok report' ∧
      report.minimum.map BoundReport.time = report'.minimum.map BoundReport.time ∧
      report.maximum.map BoundReport.time = report'.maximum.map BoundReport.time := by
  rcases bounds_unaffected tavernSettings [("e", "Eileen")] [] {} ⟨true, true, true⟩ {} "tavern"
    (tavernLines.zipIdx 1) with ⟨fault, hfault, -⟩ | ⟨report, report', -, -, h, h', hmin, hmax, -⟩
  · obtain ⟨draft, hdraft, hgraph⟩ := reduce_tavern
    have hok : estimate tavernSettings { detail := ⟨true, true, true⟩ } "tavern"
        (tavernLines.zipIdx 1) = .ok _ :=
      bind_eq_ok.2 ⟨draft, hdraft, bind_eq_ok.2 ⟨tavernGraph, hgraph, rfl⟩⟩
    cases hok.symm.trans hfault
  · exact ⟨report, report', h, h', hmin, hmax⟩

end Playthrough
