import Mathlib
import Playthrough.Proofs.Reading.Costs
import Playthrough.Proofs.Story.Dangling

/-!
# Slower readers take longer

Two readers of the same script may take different routes, and one of them may pass over the pauses
that the other one waits for. What they share is where play can go: pauses are records, and records
decide nothing about that. So the two reduced stories have the same walks, and every walk takes the
slower reader at least as long. The bounds are the best of these times, and compare alike.

* `Settings.Outpaces`: one reader is nowhere slower than another.
* `readLine_eq_abridge`: the faster reader passes over pauses, and over nothing else.
* `Outpaces.total_tally_le`: the cost of a block for either reader.
* `CostedGraph.Outpaces.shortest`, `CostedGraph.Outpaces.longest`: the routes through two stories of
  the same shape.
* `estimate_outpaces`: the reports on a script.
-/

namespace Playthrough

open Reading

/-! ## Two stories of the same shape -/

theorem rel_of_exists {α β : Type} {R : α → β → Prop} {x : Option α} {y : Option β}
    (h : ∀ b, y = some b → ∃ a, x = some a ∧ R a b) (hsome : x.isSome → y.isSome) :
    Option.Rel R x y := by
  cases y with
  | none =>
    cases x with
    | none => exact .none
    | some a => exact absurd (hsome rfl) (by simp)
  | some b =>
    obtain ⟨a, rfl, hab⟩ := h b rfl
    exact .some hab

namespace CostedGraph

/-- Play can go the same ways in both stories, and no block of the first takes longer. -/
structure Outpaces (fast slow : CostedGraph Rat) : Prop where
  walks : ∀ walk, fast.atlas.IsWalk .entry false walk ↔ slow.atlas.IsWalk .entry false walk
  time : ∀ label, fast.time label ≤ slow.time label

namespace Outpaces

variable {fast slow : CostedGraph Rat} (h : fast.Outpaces slow)

include h

theorem sum_time_le (walk : List Label) :
    (walk.map fast.time).sum ≤ (walk.map slow.time).sum :=
  List.sum_le_sum fun label _ => h.time label

variable (hfast : fast.Trim) (hslow : slow.Trim)
variable (hfastCost : ∀ costed ∈ fast.blocks, 0 ≤ costed.cost.total)
variable (hslowCost : ∀ costed ∈ slow.blocks, 0 ≤ costed.cost.total)

include hfast hslow hfastCost hslowCost

/-- The shortest route of the slower story is a walk of the faster one, and no longer there. -/
theorem shortest : Option.Rel (fun route route' => route.total ≤ route'.total)
    fast.shortest slow.shortest := by
  have hfastTime := timePasses_of_nonneg hfastCost
  have hslowTime := timePasses_of_nonneg hslowCost
  refine rel_of_exists ?_ ?_
  · intro route hroute
    obtain ⟨walk, -, hwalk, -, htotal⟩ := shortest_sound hslow hslowTime hroute
    obtain ⟨least, hleast, hle⟩ := shortest_le hfast hfastTime ((h.walks walk).2 hwalk)
    refine ⟨least, hleast, hle.trans ?_⟩
    rw [← htotal, arrival_eq_sum, arrival_eq_sum]
    exact h.sum_time_le walk
  · intro hsome
    obtain ⟨route, hroute⟩ := Option.isSome_iff_exists.1 hsome
    obtain ⟨walk, -, hwalk, -⟩ := shortest_sound hfast hfastTime hroute
    obtain ⟨least, hleast, -⟩ := shortest_le hslow hslowTime ((h.walks walk).1 hwalk)
    simp [hleast]

/-- A walk that collects all that the longest route of the faster story plays collects no less in
    the slower one. -/
theorem longest : Option.Rel (fun route route' => route.total ≤ route'.total)
    fast.longest slow.longest := by
  obtain ⟨start, hstart⟩ := hfast.exists_numberOf_entry
  have hle : ∀ route, fast.longest = some route →
      ∃ most, slow.longest = some most ∧ route.total ≤ most.total := by
    intro route hroute
    obtain ⟨last, path, hterminates, hpath, htotal⟩ := (hfast.longest_spec hstart).1 route hroute
    obtain ⟨walk, hwalk, hcollects⟩ := hfast.le_sum_dedup hfastCost hstart hterminates hpath
    obtain ⟨most, hmost, hmostLe⟩ := hslow.exists_longest_ge hslowCost ((h.walks walk).1 hwalk)
    refine ⟨most, hmost, ?_⟩
    calc route.total
      _ = (path.map fast.condense.time).sum := htotal
      _ ≤ (walk.dedup.map fast.time).sum := hcollects
      _ ≤ (walk.dedup.map slow.time).sum := h.sum_time_le walk.dedup
      _ ≤ most.total := hmostLe
  refine rel_of_exists ?_ ?_
  · intro most hmost
    obtain ⟨walk, hwalk⟩ := hslow.exists_walk_of_longest hmost
    obtain ⟨route, hroute, -⟩ := hfast.exists_longest_ge hfastCost ((h.walks walk).2 hwalk)
    obtain ⟨most', hmost', hmostLe⟩ := hle route hroute
    obtain rfl := Option.some.inj (hmost.symm.trans hmost')
    exact ⟨route, hroute, hmostLe⟩
  · intro hsome
    obtain ⟨route, hroute⟩ := Option.isSome_iff_exists.1 hsome
    obtain ⟨most, hmost, -⟩ := hle route hroute
    simp [hmost]

end Outpaces

end CostedGraph

/-! ## Two readers -/

/-- Whether a record is a pause. -/
def Record.isPause {κ : Type} : Record κ → Bool
  | .pause _ => true
  | _ => false

namespace Reading

/-- One reader is nowhere slower than another: reads no slower, waits no longer, and waits for pauses
    only if the other one does. Speakers have the same names for both. -/
structure Settings.Outpaces (fast slow : Settings Rat) : Prop where
  characters : fast.characters = slow.characters
  speed : slow.speed ≤ fast.speed
  cjkSpeed : slow.cjkSpeed ≤ fast.cjkSpeed
  scene : fast.scene ≤ slow.scene
  image : fast.image ≤ slow.image
  next : fast.next ≤ slow.next
  pause : fast.pause = true → slow.pause = true

/-- The records for which a reader stays. -/
def Settings.keeps (settings : Settings Rat) (record : Record Rat) : Bool :=
  settings.pause || !record.isPause

/-- A reader who does not wait for pauses passes over them, and over nothing else. -/
theorem readLine_eq_filter (aliases : Aliases) (pauses : Bool) (line : String) :
    (readLine aliases pauses line : Option (Record Rat)) =
      (readLine aliases true line).filter fun record => pauses || !record.isPause := by
  unfold readLine
  simp only
  split
  · simp [Option.filter, Record.isPause]
  · split
    · rename_i duration _
      cases pauses <;> cases (duration.value? : Option Rat) <;> rfl
    · split
      · simp [Option.filter, Record.isPause]
      · split
        · simp [Option.filter, Record.isPause]
        · rfl

namespace Settings.Outpaces

variable {fast slow : Settings Rat} (h : fast.Outpaces slow)

include h

theorem readLine_eq_abridge :
    (readLine fast.characters fast.pause : LineReader Rat) =
      LineReader.abridge fast.keeps (readLine slow.characters slow.pause) := by
  funext line
  unfold LineReader.abridge
  rw [readLine_eq_filter slow.characters slow.pause, readLine_eq_filter, h.characters,
    Option.filter_filter]
  congr 1
  funext record
  have hpause := h.pause
  cases hfast : fast.pause with
  | false => cases hrecord : record.isPause <;> simp [keeps, hfast, hrecord]
  | true => simp [keeps, hfast, hpause hfast]

theorem dialogueMinutes_le (hslow : slow.Sane) (line : Dialogue Rat) :
    fast.dialogueMinutes line ≤ slow.dialogueMinutes line := by
  have hspeed := h.speed
  have hcjkSpeed := h.cjkSpeed
  have hnext := h.next
  have hslowSpeed := hslow.speed
  have hslowCjkSpeed := hslow.cjkSpeed
  simp only [dialogueMinutes, minutes]
  gcongr

theorem recordTime_le (hslow : slow.Sane) (record : Record Rat) :
    fast.recordTime record ≤ slow.recordTime record := by
  have hminutes : ∀ {a b : Rat}, a ≤ b → minutes a ≤ minutes b := by
    intro a b hab
    unfold minutes
    gcongr
  cases record with
  | dialogue line =>
    have hline := h.dialogueMinutes_le hslow line
    by_cases hempty : line.text.isEmpty = true
    · simp [recordTime, recordMinutes?, hempty]
    · simpa [recordTime, recordMinutes?, hempty] using hline
  | pause seconds => exact le_rfl
  | scene => exact hminutes h.scene
  | image => exact hminutes h.image

/-- What is passed over costs the faster reader nothing, and the rest no more than the other. -/
theorem total_tally_le (hslow : slow.Sane) (byCharacters : Bool) {records : List (Record Rat)}
    (hrecords : ∀ record ∈ records, 0 ≤ record.waiting) :
    (fast.tally byCharacters (records.filter fast.keeps)).total ≤
      (slow.tally byCharacters records).total := by
  rw [total_tally, total_tally]
  induction records with
  | nil => exact le_rfl
  | cons record records ih =>
    have hrest := ih fun other hother => hrecords other (List.mem_cons_of_mem record hother)
    rw [List.filter_cons, List.map_cons, List.sum_cons]
    split
    · rw [List.map_cons, List.sum_cons]
      exact add_le_add (h.recordTime_le hslow record) hrest
    · have hrecord := recordTime_nonneg hslow (hrecords record List.mem_cons_self)
      exact hrest.trans (le_add_of_nonneg_left hrecord)

end Settings.Outpaces

end Reading

/-! ## Scripts -/

/-- A walk is a walk, whatever records are left out along it. -/
theorem Atlas.isWalk_abridge {κ : Type} {keep : Record κ → Bool} {atlas atlas' : Atlas κ}
    (h : ∀ label, atlas' label = (atlas label).map (Block.abridge keep)) (start : Label)
    (dead : Bool) (walk : List Label) :
    atlas'.IsWalk start dead walk ↔ atlas.IsWalk start dead walk := by
  have hleads : atlas'.Leads = atlas.Leads := by
    funext source target
    simp [Leads, h]
  unfold IsWalk
  rw [hleads]
  simp [h, Block.Stops, Block.abridge]

section

variable {fast slow : Settings Rat} {lines : List (String × Nat)} {byCharacters : Bool}

theorem draftOf_outpaces (h : fast.Outpaces slow) (lines : List (String × Nat)) :
    draftOf fast lines = Draft.abridge fast.keeps <$> draftOf slow lines := by
  unfold draftOf
  rw [h.readLine_eq_abridge]
  exact Draft.feedAll_abridge fast.keeps Draft.start _ lines

theorem finite_tally (settings : Settings Rat) (byCharacters : Bool) (records : List (Record Rat)) :
    FiniteCheck.isFinite (settings.tally byCharacters records).total = true := rfl

/-- Two computations fail for the same reason, or both succeed. -/
def SameFate {α β : Type} (x : Except (Fault Rat) α) (y : Except (Fault Rat) β) : Prop :=
  (∃ fault, x = .error fault ∧ y = .error fault) ∨ ∃ a b, x = .ok a ∧ y = .ok b

theorem sameFate_reduce (keep : Record Rat → Bool) (byCharacters : Bool) (story : StoryGraph Rat) :
    SameFate ((story.abridge keep).reduce (fast.tally byCharacters))
      (story.reduce (slow.tally byCharacters)) := by
  have hreachable := StoryGraph.reachable_abridge keep story
  have hfast := finite_tally fast byCharacters
  have hslow := finite_tally slow byCharacters
  cases hreached : story.reachable with
  | error fault =>
    rw [hreached] at hreachable
    exact Or.inl ⟨fault, (StoryGraph.reduce_eq_error_iff hfast).2 hreachable,
      (StoryGraph.reduce_eq_error_iff hslow).2 hreached⟩
  | ok reached =>
    rw [hreached] at hreachable
    obtain ⟨fastGraph, hfastGraph⟩ :=
      StoryGraph.exists_reduce_of_joined hfast (StoryGraph.joined_of_reachable hreachable)
    obtain ⟨slowGraph, hslowGraph⟩ :=
      StoryGraph.exists_reduce_of_joined hslow (StoryGraph.joined_of_reachable hreached)
    exact Or.inr ⟨fastGraph, slowGraph, hfastGraph, hslowGraph⟩

theorem sameFate_reducedStory (keep : Record Rat → Bool) (byCharacters : Bool) (draft : Draft Rat) :
    SameFate (reducedStory fast byCharacters (draft.abridge keep))
      (reducedStory slow byCharacters draft) := by
  unfold reducedStory
  rw [Draft.finish_abridge]
  cases draft.finish with
  | error fault => exact Or.inl ⟨fault, rfl, rfl⟩
  | ok story => exact sameFate_reduce keep byCharacters story

/-- The reduced stories have the same shape, and no block takes the faster reader longer. -/
theorem graph_outpaces (h : fast.Outpaces slow) (hsane : slow.Sane)
    {fastDraft slowDraft : Draft Rat} {fastGraph slowGraph : CostedGraph Rat}
    (hfastDraft : draftOf fast lines = .ok fastDraft)
    (hslowDraft : draftOf slow lines = .ok slowDraft)
    (hfastGraph : reducedStory fast byCharacters fastDraft = .ok fastGraph)
    (hslowGraph : reducedStory slow byCharacters slowDraft = .ok slowGraph) :
    fastGraph.Outpaces slowGraph := by
  obtain ⟨fastJoined, hfastJoined, hfastBlocks, hfastCosts⟩ :=
    joined_of_reducedStory hfastDraft hfastGraph
  obtain ⟨slowJoined, hslowJoined, hslowBlocks, hslowCosts⟩ :=
    joined_of_reducedStory hslowDraft hslowGraph
  have hblocks : fastJoined.blocks = slowJoined.blocks.map (Block.abridge fast.keeps) := by
    have hjoined := joined_feedAll_abridge fast.keeps (readLine slow.characters slow.pause) lines
    rw [← h.readLine_eq_abridge] at hjoined
    exact congrArg StoryGraph.blocks
      (Except.ok.inj (hfastJoined.symm.trans (hjoined.trans (congrArg _ hslowJoined))))
  have hatlas : ∀ label, fastGraph.atlas label =
      (slowGraph.atlas label).map (Block.abridge fast.keeps) := by
    intro label
    unfold CostedGraph.atlas
    rw [hfastBlocks, hslowBlocks, hblocks]
    exact Block.find?_abridge fast.keeps label slowJoined.blocks
  refine ⟨Atlas.isWalk_abridge hatlas .entry false, ?_⟩
  intro label
  have hlabel := hatlas label
  rw [CostedGraph.atlas_eq, CostedGraph.atlas_eq] at hlabel
  unfold CostedGraph.time
  cases hslow : slowGraph.get? label with
  | none =>
    rw [hslow] at hlabel
    rw [Option.map_eq_none_iff.1 hlabel]
  | some slowCosted =>
    rw [hslow] at hlabel
    obtain ⟨fastCosted, hfast, hblock⟩ := Option.map_eq_some_iff.1 hlabel
    have hslowMem := List.mem_of_find?_eq_some hslow
    rw [hfast, Option.map_some, Option.map_some, Option.getD_some, Option.getD_some,
      hfastCosts _ (List.mem_of_find?_eq_some hfast), hslowCosts _ hslowMem, hblock]
    exact h.total_tally_le hsane byCharacters
      (waiting_of_reducedStory hslowDraft hslowGraph slowCosted hslowMem)

end

/-! ## Reports -/

/-- Both routes are absent, or both are present and the first takes no longer. -/
def BoundReport.AtMost (first second : BoundReport Rat) : Prop :=
  Option.Rel (· ≤ ·) first.time second.time

theorem BoundReport.atMost_of {fast slow : CostedGraph Rat} {detail : Detail}
    {first second : Option (Route Rat)} (wanted : Bool)
    (h : Option.Rel (fun route route' => route.total ≤ route'.total) first second) :
    Option.Rel BoundReport.AtMost (if wanted then some (BoundReport.of fast detail first) else none)
      (if wanted then some (BoundReport.of slow detail second) else none) := by
  cases wanted with
  | false => exact .none
  | true =>
    refine .some ?_
    cases h with
    | none => exact .none
    | some hle => exact .some hle

/-- **Slower readers take longer.** Two readers of the same script, under accepted settings, with the
    first nowhere slower than the second: the script is refused for both for the same reason, or it is
    reported on for both. Then each bound is absent for both, or present for both and no larger for
    the first. -/
theorem estimate_outpaces {fast slow : Settings Rat} (hfast : fast.validate = .ok ())
    (hslow : slow.validate = .ok ()) (h : fast.Outpaces slow) (request : Request) (file : String)
    (lines : List (String × Nat)) :
    (∃ fault, estimate fast request file lines = .error fault ∧
      estimate slow request file lines = .error fault) ∨
    ∃ first second, estimate fast request file lines = .ok first ∧
      estimate slow request file lines = .ok second ∧
      Option.Rel BoundReport.AtMost first.minimum second.minimum ∧
      Option.Rel BoundReport.AtMost first.maximum second.maximum := by
  have hfastSane := Settings.sane_of_validate hfast
  have hslowSane := Settings.sane_of_validate hslow
  have hdraft := draftOf_outpaces h lines
  cases hslowDraft : draftOf slow lines with
  | error fault =>
    rw [hslowDraft] at hdraft
    exact Or.inl ⟨fault, bind_eq_error.2 (Or.inl hdraft), bind_eq_error.2 (Or.inl hslowDraft)⟩
  | ok draft =>
    rw [hslowDraft] at hdraft
    have hfastDraft : draftOf fast lines = .ok (draft.abridge fast.keeps) := hdraft
    rcases sameFate_reducedStory fast.keeps request.detail.byCharacters draft with
      ⟨fault, hfastFault, hslowFault⟩ | ⟨fastGraph, slowGraph, hfastGraph, hslowGraph⟩
    · exact Or.inl ⟨fault,
        bind_eq_error.2 (Or.inr ⟨_, hfastDraft, bind_eq_error.2 (Or.inl hfastFault)⟩),
        bind_eq_error.2 (Or.inr ⟨_, hslowDraft, bind_eq_error.2 (Or.inl hslowFault)⟩)⟩
    · have houtpaces := graph_outpaces h hslowSane hfastDraft hslowDraft hfastGraph hslowGraph
      have hfastTrim := trim_of_reducedStory hfastGraph
      have hslowTrim := trim_of_reducedStory hslowGraph
      have hfastCost := fun costed hcosted =>
        (costs_of_reducedStory hfastSane hfastDraft hfastGraph costed hcosted).1
      have hslowCost := fun costed hcosted =>
        (costs_of_reducedStory hslowSane hslowDraft hslowGraph costed hcosted).1
      refine Or.inr ⟨_, _, bind_eq_ok.2 ⟨_, hfastDraft, bind_eq_ok.2 ⟨_, hfastGraph, rfl⟩⟩,
        bind_eq_ok.2 ⟨_, hslowDraft, bind_eq_ok.2 ⟨_, hslowGraph, rfl⟩⟩, ?_, ?_⟩
      · exact BoundReport.atMost_of _ (houtpaces.shortest hfastTrim hslowTrim hfastCost hslowCost)
      · exact BoundReport.atMost_of _ (houtpaces.longest hfastTrim hslowTrim hfastCost hslowCost)

/-- A guest of the tavern who reads fast and does not wait. -/
def hastySettings : Settings Rat :=
  { tavernSettings with speed := 22, scene := 60, pause := false }

/-- The hasty guest spends no more time in the tavern than the patient one. -/
theorem estimate_outpaces_tavern :
    hastySettings.validate = .ok () ∧ tavernSettings.validate = .ok () ∧
    hastySettings.Outpaces tavernSettings ∧
    ∃ first second,
      estimate hastySettings { detail := { byCharacters := true } } "tavern"
        (tavernLines.zipIdx 1) = .ok first ∧
      estimate tavernSettings { detail := { byCharacters := true } } "tavern"
        (tavernLines.zipIdx 1) = .ok second ∧
      Option.Rel BoundReport.AtMost first.minimum second.minimum ∧
      Option.Rel BoundReport.AtMost first.maximum second.maximum := by
  have hfast : hastySettings.validate = .ok () := by cbv
  have hslow : tavernSettings.validate = .ok () := by cbv
  have h : hastySettings.Outpaces tavernSettings := by
    constructor <;> norm_num [hastySettings, tavernSettings]
  have hestimate := estimate_outpaces hfast hslow h { detail := { byCharacters := true } } "tavern"
    (tavernLines.zipIdx 1)
  refine ⟨hfast, hslow, h, hestimate.resolve_left ?_⟩
  rintro ⟨fault, -, hfault⟩
  obtain ⟨draft, hdraft, hgraph⟩ := reduce_tavern
  have hok : estimate tavernSettings { detail := { byCharacters := true } } "tavern"
      (tavernLines.zipIdx 1) = .ok _ :=
    bind_eq_ok.2 ⟨draft, hdraft, bind_eq_ok.2 ⟨tavernGraph, hgraph, rfl⟩⟩
  rw [hok] at hfault
  cases hfault

end Playthrough
