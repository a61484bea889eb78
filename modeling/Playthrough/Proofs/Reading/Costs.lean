import Mathlib
import Playthrough.Proofs.Retelling.Abridged
import Playthrough.Proofs.Route.Bounds
import Playthrough.Report.Basic

/-!
# No time runs backwards

The search for the shortest route ends because no block takes negative time. Nothing checks this when
the search starts: it follows from the way in which numbers are read and settings are accepted. A
duration in a script has no sign, accepted settings have positive speeds and no negative seconds, and
the time of a record is made of these by addition and by division by positive numbers.

* `Reading.waiting_readLine`: the records of a script.
* `Settings.Sane`: what accepted settings are like.
* `Settings.total_tally`: the cost of a block is the sum of the costs of its records.
* `search_ends`: the costs of a script, and the end of the search.
-/

namespace Playthrough

open Reading Decimal

/-! ## Durations in a script -/

/-- The seconds for which a record itself makes the reader wait. -/
def Record.waiting {κ : Type} [Zero κ] : Record κ → κ
  | .dialogue line => line.extraSeconds
  | .pause seconds => seconds
  | .scene => 0
  | .image => 0

theorem Decimal.Duration.value?_nonneg {duration : Duration} {seconds : Rat}
    (h : duration.value? = some seconds) : 0 ≤ seconds := by
  unfold Duration.value? at h
  simp only at h
  split at h
  · obtain rfl := Option.some.inj h
    show 0 ≤ Rat.ofScientific _ true _
    rw [Rat.ofScientific_true_def, Rat.mkRat_eq_div]
    positivity
  · cases h

namespace Reading

theorem waits_nonneg (pieces : List Piece) : 0 ≤ (waits pieces : Rat) := by
  unfold waits
  rw [foldl_add_eq_sum, zero_add]
  refine List.sum_nonneg fun seconds hseconds => ?_
  obtain ⟨duration, -, rfl⟩ := List.mem_map.1 hseconds
  cases hvalue : (duration.value? : Option Rat) with
  | none => exact le_rfl
  | some value => exact Duration.value?_nonneg hvalue

/-- No line of a script makes the reader wait for less than nothing. -/
theorem waiting_readLine {aliases : Aliases} {pauses : Bool} {line : String} {record : Record Rat}
    (h : readLine aliases pauses line = some record) : 0 ≤ record.waiting := by
  unfold readLine at h
  simp only at h
  split at h
  · rename_i name inner hspoken
    obtain rfl := Option.some.inj h
    exact waits_nonneg (pieces inner)
  · split at h
    · rename_i duration hpause
      split at h
      · obtain ⟨seconds, hseconds, rfl⟩ := Option.map_eq_some_iff.1 h
        exact Duration.value?_nonneg hseconds
      · cases h
    · split at h
      · obtain rfl := Option.some.inj h
        exact le_rfl
      · split at h
        · obtain rfl := Option.some.inj h
          exact le_rfl
        · cases h

/-! ## Accepted settings -/

/-- Speeds are positive, and nothing takes negative time. -/
structure Settings.Sane (settings : Settings Rat) : Prop where
  speed : 0 < settings.speed
  cjkSpeed : 0 < settings.cjkSpeed
  scene : 0 ≤ settings.scene
  image : 0 ≤ settings.image
  next : 0 ≤ settings.next

theorem checkSpeed_eq_ok {name : String} {value : Rat} (h : checkSpeed name value = .ok ()) :
    0 < value := by
  unfold checkSpeed at h
  split at h
  · rename_i hcheck
    simpa [FiniteCheck.isFinite] using hcheck
  · cases h

theorem checkDuration_eq_ok {name : String} {value : Rat}
    (h : checkDuration name value = .ok ()) : 0 ≤ value := by
  unfold checkDuration at h
  split at h
  · rename_i hcheck
    simpa [FiniteCheck.isFinite] using hcheck
  · cases h

namespace Settings

theorem sane_of_validate {settings : Settings Rat} (h : settings.validate = .ok ()) :
    settings.Sane := by
  obtain ⟨⟨⟩, hspeed, h⟩ := bind_eq_ok.1 h
  obtain ⟨⟨⟩, hcjkSpeed, h⟩ := bind_eq_ok.1 h
  obtain ⟨⟨⟩, hscene, h⟩ := bind_eq_ok.1 h
  obtain ⟨⟨⟩, himage, hnext⟩ := bind_eq_ok.1 h
  exact ⟨checkSpeed_eq_ok hspeed, checkSpeed_eq_ok hcjkSpeed, checkDuration_eq_ok hscene,
    checkDuration_eq_ok himage, checkDuration_eq_ok hnext⟩

/-! ## The cost of a block -/

/-- The time of a record, which is none for a record that does not count. -/
def recordTime (settings : Settings Rat) (record : Record Rat) : Rat :=
  ((settings.recordMinutes? record).map Prod.snd).getD 0

theorem dialogueMinutes_nonneg {settings : Settings Rat} (h : settings.Sane) {line : Dialogue Rat}
    (hline : 0 ≤ line.extraSeconds) : 0 ≤ settings.dialogueMinutes line := by
  have hspeed := h.speed
  have hcjkSpeed := h.cjkSpeed
  have hnext := h.next
  unfold dialogueMinutes minutes
  positivity

theorem recordMinutes?_nonneg {settings : Settings Rat} (h : settings.Sane) {record : Record Rat}
    (hrecord : 0 ≤ record.waiting) {entry : Category × Rat}
    (hentry : settings.recordMinutes? record = some entry) : 0 ≤ entry.2 := by
  have hminutes : ∀ seconds : Rat, 0 ≤ seconds → 0 ≤ minutes seconds := by
    intro seconds hseconds
    unfold minutes
    positivity
  cases record with
  | dialogue line =>
    rw [recordMinutes?] at hentry
    split at hentry
    · cases hentry
    · obtain rfl := Option.some.inj hentry
      exact dialogueMinutes_nonneg h hrecord
  | pause seconds =>
    obtain rfl := Option.some.inj hentry
    exact hminutes seconds hrecord
  | scene =>
    obtain rfl := Option.some.inj hentry
    exact hminutes _ h.scene
  | image =>
    obtain rfl := Option.some.inj hentry
    exact hminutes _ h.image

theorem recordTime_nonneg {settings : Settings Rat} (h : settings.Sane) {record : Record Rat}
    (hrecord : 0 ≤ record.waiting) : 0 ≤ settings.recordTime record := by
  unfold recordTime
  cases hentry : settings.recordMinutes? record with
  | none => exact le_rfl
  | some entry => exact recordMinutes?_nonneg h hrecord hentry

theorem sum_filterMap_recordMinutes? (settings : Settings Rat) (records : List (Record Rat)) :
    ((records.filterMap settings.recordMinutes?).map Prod.snd).sum =
      (records.map settings.recordTime).sum := by
  induction records with
  | nil => rfl
  | cons record records ih =>
    rw [List.filterMap_cons, List.map_cons, List.sum_cons, ← ih, recordTime]
    cases settings.recordMinutes? record <;> simp

/-- The cost of a block is the sum of the costs of its records, with accounts or without. -/
theorem total_tally (settings : Settings Rat) (byCharacters : Bool) (records : List (Record Rat)) :
    (settings.tally byCharacters records).total = (records.map settings.recordTime).sum := by
  have hsum := sum_filterMap_recordMinutes? settings records
  cases byCharacters with
  | false =>
    show List.foldl _ (-0) _ = _
    rw [foldl_add_eq_sum, hsum, neg_zero, zero_add]
  | true =>
    show List.foldl _ 0 _ = _
    rw [foldl_add_eq_sum, hsum, zero_add]

end Settings

end Reading

/-! ## Accounts -/

/-- What is placed in a list is the new entry, one that was there, or the two combined. -/
theorem mem_place {α κ : Type} [Ord κ] {key : α → κ} {combine : α → α → α} {x z : α} {xs : List α}
    (h : z ∈ place key combine x xs) : z = x ∨ z ∈ xs ∨ ∃ y ∈ xs, z = combine x y := by
  induction xs with
  | nil => exact Or.inl (List.mem_singleton.1 h)
  | cons y ys ih =>
    rw [place] at h
    split at h
    · rcases List.mem_cons.1 h with rfl | h
      · exact Or.inl rfl
      · exact Or.inr (Or.inl h)
    · rcases List.mem_cons.1 h with rfl | h
      · exact Or.inr (Or.inr ⟨y, List.mem_cons_self, rfl⟩)
      · exact Or.inr (Or.inl (List.mem_cons_of_mem y h))
    · rcases List.mem_cons.1 h with rfl | h
      · exact Or.inr (Or.inl List.mem_cons_self)
      · rcases ih h with h | h | ⟨w, hw, h⟩
        · exact Or.inl h
        · exact Or.inr (Or.inl (List.mem_cons_of_mem y h))
        · exact Or.inr (Or.inr ⟨w, List.mem_cons_of_mem y hw, h⟩)

namespace Breakdown

/-- No account is overdrawn. -/
def Nonneg (accounts : Breakdown Rat) : Prop := ∀ entry ∈ accounts, 0 ≤ entry.2

theorem nonneg_credit {category : Category} {time : Rat} {accounts : Breakdown Rat}
    (h : accounts.Nonneg) (htime : 0 ≤ time) : (credit category time accounts).Nonneg := by
  intro entry hentry
  rcases mem_place hentry with rfl | hold | ⟨old, hold, rfl⟩
  · exact (zero_add time).symm ▸ htime
  · exact h entry hold
  · exact add_nonneg (h old hold) htime

theorem nonneg_creditAll {entries accounts : Breakdown Rat} (h : accounts.Nonneg)
    (hentries : entries.Nonneg) : (creditAll entries accounts).Nonneg := by
  unfold creditAll
  induction entries generalizing accounts with
  | nil => exact h
  | cons entry entries ih =>
    have hcredit : (credit entry.1 entry.2 accounts).Nonneg :=
      nonneg_credit h (hentries entry List.mem_cons_self)
    exact ih hcredit fun other hother => hentries other (List.mem_cons_of_mem entry hother)

end Breakdown

namespace Reading.Settings

theorem nonneg_emptyAccounts (settings : Settings Rat) : settings.emptyAccounts.Nonneg := by
  intro entry hentry
  unfold emptyAccounts at hentry
  split at hentry <;> aesop

/-- Records that do not wait for less than nothing cost no negative time, on no account. -/
theorem tally_nonneg {settings : Settings Rat} (h : settings.Sane) (byCharacters : Bool)
    {records : List (Record Rat)} (hrecords : ∀ record ∈ records, 0 ≤ record.waiting) :
    0 ≤ (settings.tally byCharacters records).total ∧
      ∀ accounts, (settings.tally byCharacters records).breakdown = some accounts →
        accounts.Nonneg := by
  constructor
  · rw [total_tally]
    refine List.sum_nonneg fun time htime => ?_
    obtain ⟨record, hrecord, rfl⟩ := List.mem_map.1 htime
    exact recordTime_nonneg h (hrecords record hrecord)
  · intro accounts haccounts
    cases byCharacters with
    | false => cases haccounts
    | true =>
      obtain rfl := Option.some.inj haccounts
      refine Breakdown.nonneg_creditAll settings.nonneg_emptyAccounts fun entry hentry => ?_
      obtain ⟨record, hrecord, hminutes⟩ := List.mem_filterMap.1 hentry
      exact recordMinutes?_nonneg h (hrecords record hrecord) hminutes

end Reading.Settings

/-! ## Scripts -/

section

variable {settings : Settings Rat} {lines : List (String × Nat)} {draft : Draft Rat}
  {byCharacters : Bool} {graph : CostedGraph Rat}

/-- The blocks of a reduced script are those of the joined story, and each costs what its records
    do. -/
theorem joined_of_reducedStory (hdraft : draftOf settings lines = .ok draft)
    (hgraph : reducedStory settings byCharacters draft = .ok graph) :
    ∃ joined : StoryGraph Rat,
      (do (← (← draftOf settings lines).finish).joined) = Except.ok joined ∧
      graph.blocks.map CostedBlock.block = joined.blocks ∧
      ∀ costed ∈ graph.blocks, costed.cost = settings.tally byCharacters costed.block.text := by
  obtain ⟨story, hstory, hreduce⟩ := bind_eq_ok.1 hgraph
  obtain ⟨joined, hjoined, hblocks⟩ := StoryGraph.blocks_reduce hreduce
  obtain ⟨-, -, -, -, -, hcosts⟩ := StoryGraph.reduce_spec hreduce
  exact ⟨joined, bind_eq_ok.2 ⟨draft, hdraft, bind_eq_ok.2 ⟨story, hstory, hjoined⟩⟩, hblocks, hcosts⟩

/-- No record of a reduced script waits for less than nothing. -/
theorem waiting_of_reducedStory (hdraft : draftOf settings lines = .ok draft)
    (hgraph : reducedStory settings byCharacters draft = .ok graph) :
    ∀ costed ∈ graph.blocks, ∀ record ∈ costed.block.text, 0 ≤ record.waiting := by
  obtain ⟨joined, hjoined, hblocks, -⟩ := joined_of_reducedStory hdraft hgraph
  have hkeeps := keeps_joined (fun record => decide (0 ≤ record.waiting))
    (fun _ _ hread => decide_eq_true (waiting_readLine hread)) hjoined
  intro costed hcosted record hrecord
  have hblock : costed.block ∈ joined.blocks := hblocks ▸ List.mem_map_of_mem hcosted
  exact of_decide_eq_true (hkeeps costed.block hblock record hrecord)

theorem costs_of_reducedStory (hsane : settings.Sane) (hdraft : draftOf settings lines = .ok draft)
    (hgraph : reducedStory settings byCharacters draft = .ok graph) :
    ∀ costed ∈ graph.blocks, 0 ≤ costed.cost.total ∧
      ∀ accounts, costed.cost.breakdown = some accounts → accounts.Nonneg := by
  obtain ⟨-, -, -, hcosts⟩ := joined_of_reducedStory hdraft hgraph
  intro costed hcosted
  rw [hcosts costed hcosted]
  exact Settings.tally_nonneg hsane byCharacters
    (waiting_of_reducedStory hdraft hgraph costed hcosted)

theorem trim_of_reducedStory (hgraph : reducedStory settings byCharacters draft = .ok graph) :
    graph.Trim := by
  obtain ⟨story, -, hreduce⟩ := bind_eq_ok.1 hgraph
  exact CostedGraph.trim_of_reduce hreduce

end

/-- **No time runs backwards.** Under accepted settings, whatever the names of the speakers: no line
    of a script becomes a record that waits for less than nothing, and no block of a reduced script
    costs negative time, in total or on any account. So time passes along every route, which is what
    the search for the shortest route relies on, and the search runs until it has nothing left to
    look at. -/
theorem search_ends {settings : Settings Rat} (hvalid : settings.validate = .ok ()) :
    (∀ aliases pauses line record,
      readLine aliases pauses line = some record → (0 : Rat) ≤ record.waiting) ∧
    ∀ byCharacters lines draft graph, draftOf settings lines = .ok draft →
      reducedStory settings byCharacters draft = .ok graph →
        (∀ costed ∈ graph.blocks, 0 ≤ costed.cost.total ∧
          ∀ accounts, costed.cost.breakdown = some accounts → accounts.Nonneg) ∧
        graph.TimePasses ∧ graph.search.queue = [] := by
  refine ⟨fun _ _ _ _ => waiting_readLine, ?_⟩
  intro byCharacters lines draft graph hdraft hgraph
  have hcosts := costs_of_reducedStory (Settings.sane_of_validate hvalid) hdraft hgraph
  have htime : graph.TimePasses :=
    CostedGraph.timePasses_of_nonneg fun costed hcosted => (hcosts costed hcosted).1
  exact ⟨hcosts, htime, (CostedGraph.search_spec (trim_of_reducedStory hgraph) htime).2⟩

/-! ## An evening in the tavern -/

/-- The evening starts over and over until the guest leaves. -/
def tavernLines : List String :=
  ["label tavern:",
   "  e \"Hello\x7bw=29.5\x7d there\"",
   "  pause 60",
   "  menu:",
   "    \"stay\":",
   "      scene bar",
   "      jump tavern",
   "    \"leave\":",
   "      show door"]

/-- A guest who reads slowly and waits. -/
def tavernSettings : Settings Rat where
  speed := 11
  cjkSpeed := 1
  scene := 120
  image := 60
  next := 30.5
  pause := true
  characters := [("e", "Eileen")]

/-- The blocks of the script `tavernLines`. -/
def tavernBlocks : List (Block Rat) :=
  [{ label := .entry, next := [.named "tavern"] },
   { label := .named "tavern",
     text := [.dialogue ⟨.named "Eileen", "Hello there", 29.5⟩, .pause 60],
     next := [.synthetic 0 4 .scope] },
   { label := .synthetic 0 4 .scope, next := [.synthetic 1 5 .scope, .synthetic 2 8 .scope] },
   { label := .synthetic 1 5 .scope, text := [.scene], next := [.named "tavern"],
     disabled := true },
   { label := .synthetic 2 8 .scope, text := [.image], next := [.synthetic 3 9 .merge] },
   { label := .synthetic 3 9 .merge, next := [.synthetic 4 9 .merge] },
   { label := .synthetic 4 9 .merge }]

/-- The story of the script `tavernLines` when it is reduced, with accounts. -/
def tavernGraph : CostedGraph Rat where
  blocks :=
    [{ block := { label := .entry, next := [.named "tavern"] }
       incoming := []
       cost := { total := 0, breakdown := some [(.pause, 0), (.scene, 0), (.image, 0)] } },
     { block :=
         { label := .named "tavern",
           text := [.dialogue ⟨.named "Eileen", "Hello there", 29.5⟩, .pause 60],
           next := [.synthetic 1 5 .scope, .synthetic 2 8 .scope] }
       incoming := [.entry, .synthetic 1 5 .scope]
       cost :=
         { total := 3
           breakdown :=
             some [(.speaker (.named "Eileen"), 2), (.pause, 1), (.scene, 0), (.image, 0)] } },
     { block :=
         { label := .synthetic 1 5 .scope, text := [.scene], next := [.named "tavern"],
           disabled := true }
       incoming := [.named "tavern"]
       cost := { total := 2, breakdown := some [(.pause, 0), (.scene, 2), (.image, 0)] } },
     { block := { label := .synthetic 2 8 .scope, text := [.image] }
       incoming := [.named "tavern"]
       cost := { total := 1, breakdown := some [(.pause, 0), (.scene, 0), (.image, 1)] } }]

theorem read_tavern :
    (do
      let draft ← draftOf tavernSettings (tavernLines.zipIdx 1)
      let closed ← draft.closeMany draft.lastLine draft.stack.length
      return (StoryGraph.ofBlocks closed.blocks).blocks) = Except.ok tavernBlocks := by
  decide +kernel

theorem reduce_tavern : ∃ draft, draftOf tavernSettings (tavernLines.zipIdx 1) = .ok draft ∧
    reducedStory tavernSettings true draft = .ok tavernGraph := by
  obtain ⟨draft, hdraft, hrest⟩ := bind_eq_ok.1 read_tavern
  obtain ⟨closed, hclosed, hblocks⟩ := bind_eq_ok.1 hrest
  have hstory : StoryGraph.ofBlocks closed.blocks = StoryGraph.ofBlocks tavernBlocks := by
    rw [← StoryGraph.ofBlocks_blocks (StoryGraph.ofBlocks closed.blocks), Except.ok.inj hblocks]
  have hfinish : draft.finish = .ok (StoryGraph.ofBlocks tavernBlocks) := by
    rw [← hstory]
    exact bind_eq_ok.2 ⟨closed, hclosed, rfl⟩
  have hreduce : (StoryGraph.ofBlocks tavernBlocks).reduce (tavernSettings.tally true) =
      .ok tavernGraph := by
    cbv
  exact ⟨draft, hdraft, bind_eq_ok.2 ⟨_, hfinish, hreduce⟩⟩

/-- The tavern has a loop, and the search still ends. -/
theorem search_ends_tavern :
    tavernSettings.validate = .ok () ∧
    (∃ draft, draftOf tavernSettings (tavernLines.zipIdx 1) = .ok draft ∧
      reducedStory tavernSettings true draft = .ok tavernGraph) ∧
    tavernGraph.TimePasses ∧ tavernGraph.search.queue = [] := by
  have hvalid : tavernSettings.validate = .ok () := by cbv
  obtain ⟨draft, hdraft, hgraph⟩ := reduce_tavern
  have hends := (search_ends hvalid).2 true _ draft tavernGraph hdraft hgraph
  exact ⟨hvalid, reduce_tavern, hends.2⟩

end Playthrough
