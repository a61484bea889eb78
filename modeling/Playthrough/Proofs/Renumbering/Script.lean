import Playthrough.Proofs.Draft.Registry
import Playthrough.Proofs.Renumbering.Draft
import Playthrough.Proofs.Renumbering.Route
import Playthrough.Proofs.Route.Bounds

/-!
# Scripts with the same code

Two scripts with the same lines of code, whatever their numbers and whatever comments and blank
lines stand between them, are refused at the same line of code or tell the same story. The stories
have the same blocks, routes and times, up to the lines in minted labels.

The renumbering is found on the way. When a line of code is read, every label of the drafts has a
number that was minted before, so the renumbering can still be chosen for the numbers to come: it
moves the number of the line in the one script to that in the other. The end of the script, which
closes bodies on the last line, comment or not, is one more such line.

* `codeLines`: the lines of code.
* `Draft.Twin.rechoose`: the choice of a renumbering for a line.
* `Draft.feedAll_twin`: reading two scripts with the same code.
* `exists_renumbering`: what follows for their stories and routes.
-/

namespace Playthrough

open Script

variable {κ : Type} {σ τ : Renumbering}

/-! ## Lines of code -/

/-- The lines that hold code, without their numbers. -/
def codeLines (lines : List (String × Nat)) : List String :=
  (lines.map Prod.fst).filter fun line => !isBlankLine line.toList

theorem codeLines_append (front back : List (String × Nat)) :
    codeLines (front ++ back) = codeLines front ++ codeLines back := by
  simp [codeLines]

theorem codeLines_cons_blank {line : String} (h : isBlankLine line.toList = true) (number : Nat)
    (lines : List (String × Nat)) : codeLines ((line, number) :: lines) = codeLines lines := by
  simp [codeLines, h]

theorem codeLines_cons_code {line : String} (h : isBlankLine line.toList = false) (number : Nat)
    (lines : List (String × Nat)) :
    codeLines ((line, number) :: lines) = line :: codeLines lines := by
  simp [codeLines, h]

/-- In front of the first line of code there is none. -/
theorem exists_of_codeLines_eq_cons {line : String} {rest : List String}
    {lines : List (String × Nat)} (h : codeLines lines = line :: rest) :
    ∃ front number back, lines = front ++ (line, number) :: back ∧ codeLines front = [] ∧
      codeLines back = rest := by
  induction lines with
  | nil => cases h
  | cons entry lines ih =>
    obtain ⟨text, number⟩ := entry
    cases hblank : isBlankLine text.toList with
    | true =>
      rw [codeLines_cons_blank hblank] at h
      obtain ⟨front, number', back, rfl, hfront, hback⟩ := ih h
      refine ⟨(text, number) :: front, number', back, rfl, ?_, hback⟩
      rw [codeLines_cons_blank hblank, hfront]
    | false =>
      rw [codeLines_cons_code hblank, List.cons.injEq] at h
      obtain ⟨rfl, h⟩ := h
      exact ⟨[], number, lines, rfl, rfl, h⟩

/-! ## Choosing a renumbering -/

/-- Keeps a renumbering of the first `count` labels, and moves `line` to `number` for all further
    ones. -/
def Renumbering.after (σ : Renumbering) (count line number : Nat) : Renumbering := fun index =>
  if index < count then σ index else Equiv.swap line number

theorem Label.renumber_after {count : Nat} {label : Label} (h : label.MintedBefore count)
    (line number : Nat) : label.renumber (σ.after count line number) = label.renumber σ := by
  cases label with
  | entry => rfl
  | named name => rfl
  | synthetic index place origin =>
    rw [renumber_synthetic, renumber_synthetic, Renumbering.after,
      if_pos (h index place origin rfl)]

theorem Block.renumber_congr {block : Block κ}
    (hlabel : block.label.renumber σ = block.label.renumber τ)
    (hnext : ∀ target ∈ block.next, target.renumber σ = target.renumber τ) :
    block.renumber σ = block.renumber τ := by
  unfold renumber
  rw [hlabel, List.map_congr_left hnext]

theorem Frame.renumber_congr {frame : Frame}
    (h : ∀ label ∈ frame.labels, label.renumber σ = label.renumber τ) :
    frame.renumber σ = frame.renumber τ := by
  have hblock : frame.block.renumber σ = frame.block.renumber τ := h _ List.mem_cons_self
  have hends : frame.role.ends.map (·.renumber σ) = frame.role.ends.map (·.renumber τ) :=
    List.map_congr_left fun label hlabel => h label (List.mem_cons_of_mem _ hlabel)
  have hrole : frame.role.renumber σ = frame.role.renumber τ := by
    cases hrole : frame.role <;> simp only [hrole, Role.ends, Role.renumber] at hends ⊢
    · rw [hends]
    · rw [hends]
  unfold Frame.renumber
  rw [hblock, hrole]

namespace Draft

variable {first second : Draft κ} {line number : Nat}

/-- All labels of a draft were minted before, so the renumbering can be chosen anew for the labels
    that are still to come. -/
theorem Twin.rechoose (h : Twin σ line number first second) (hsound : Sound first)
    (hfiled : Filed first) (line' number' : Nat) :
    Twin (σ.after first.minted line' number') line' number' first second := by
  have hknown : ∀ label ∈ first.blocks.map Block.label,
      label.renumber σ = label.renumber (σ.after first.minted line' number') := fun label hlabel =>
    (Label.renumber_after (hsound.minted label hlabel) line' number').symm
  have hblock : ∀ block ∈ first.blocks,
      block.renumber σ = block.renumber (σ.after first.minted line' number') := by
    intro block hblock
    have hatlas : first.atlas block.label = some block :=
      (Atlas.of_eq_some_iff hsound.nodup).2 ⟨hblock, rfl⟩
    -- a name may stand among the exits before it is declared, a minted label never does
    refine Block.renumber_congr (hknown _ (List.mem_map_of_mem hblock)) fun target htarget => ?_
    cases hminted : target.isSynthetic with
    | true =>
      exact hknown _ (Atlas.isSome_of_iff.1 ((hfiled _ _ hatlas).known target htarget hminted))
    | false => cases target <;> first | rfl | cases hminted
  have hframe : ∀ frame ∈ first.frames,
      frame.renumber σ = frame.renumber (σ.after first.minted line' number') := fun frame hframe =>
    Frame.renumber_congr fun label hlabel =>
      hknown label (hsound.open_mem label (List.mem_flatMap.2 ⟨frame, hframe, hlabel⟩))
  refine ⟨?_, ?_, ?_, h.minted, ?_⟩
  · rw [h.blocks, List.map_congr_left hblock]
  · rw [h.root, hframe _ (List.mem_append_right _ (List.mem_singleton.2 rfl))]
  · rw [h.stack, List.map_congr_left fun frame hmem => hframe frame (List.mem_append_left _ hmem)]
  · intro index hindex
    rw [Renumbering.after, if_neg (Nat.not_lt.2 hindex), Equiv.swap_apply_left]

/-- Two drafts differ only in lines, under some renumbering. -/
def Twins (first second : Draft κ) : Prop := ∃ σ line number, Twin σ line number first second

theorem twins_start : Twins (start : Draft κ) start :=
  ⟨fun _ => Equiv.refl _, 0, 0, rfl, rfl, rfl, rfl, fun _ _ => rfl⟩

theorem Twins.mark_line (h : Twins first second) (last last' : Nat) :
    Twins { first with lastLine := last } { second with lastLine := last' } := by
  obtain ⟨σ, line, number, htwin⟩ := h
  exact ⟨σ, line, number, htwin.mark_line last last'⟩

theorem Twins.exists_twin (h : Twins first second) (hsound : Sound first) (hfiled : Filed first)
    (line number : Nat) : ∃ σ, Twin σ line number first second := by
  obtain ⟨σ, _, _, htwin⟩ := h
  exact ⟨_, htwin.rechoose hsound hfiled line number⟩

/-! ## Reading -/

theorem feedAll_append (reader : LineReader κ) (front back : List (String × Nat))
    (draft : Draft κ) :
    draft.feedAll reader (front ++ back) = draft.feedAll reader front >>= feedAll reader back :=
  List.foldlM_append

theorem feedAll_cons (reader : LineReader κ) (line : String) (number : Nat)
    (lines : List (String × Nat)) (draft : Draft κ) :
    draft.feedAll reader ((line, number) :: lines) =
      draft.feed reader line number >>= feedAll reader lines :=
  List.foldlM_cons

theorem feedAll_snoc {reader : LineReader κ} {lines : List (String × Nat)}
    {draft middle last : Draft κ} {line : String} {number : Nat}
    (hlines : draft.feedAll reader lines = .ok middle)
    (hline : middle.feed reader line number = .ok last) :
    draft.feedAll reader (lines ++ [(line, number)]) = .ok last := by
  rw [feedAll_append, hlines]
  show middle.feedAll reader [(line, number)] = _
  rw [feedAll_cons, hline]
  rfl

/-- Lines without code only count. -/
theorem feedAll_blank (reader : LineReader κ) {lines : List (String × Nat)}
    (h : codeLines lines = []) (draft : Draft κ) :
    ∃ last, draft.feedAll reader lines = .ok { draft with lastLine := last } := by
  induction lines generalizing draft with
  | nil => exact ⟨draft.lastLine, rfl⟩
  | cons entry lines ih =>
    obtain ⟨line, number⟩ := entry
    cases hblank : isBlankLine line.toList with
    | true =>
      rw [codeLines_cons_blank hblank] at h
      obtain ⟨last, hlast⟩ := ih h { draft with lastLine := number }
      refine ⟨last, ?_⟩
      rw [feedAll_cons, feed, if_pos hblank]
      exact hlast
    | false =>
      rw [codeLines_cons_code hblank] at h
      cases h

/-- Reading stops at a line, after the lines before it were read. -/
def StopsAt (reader : LineReader κ) (draft : Draft κ) (lines before : List (String × Nat))
    (line : String) (fault : Fault κ) : Prop :=
  ∃ number after middle, lines = before ++ (line, number) :: after ∧
    draft.feedAll reader before = .ok middle ∧ middle.feed reader line number = .error fault

theorem StopsAt.feedAll_eq_error {reader : LineReader κ} {draft : Draft κ}
    {lines before : List (String × Nat)} {text : String} {fault : Fault κ}
    (h : StopsAt reader draft lines before text fault) :
    draft.feedAll reader lines = .error fault := by
  obtain ⟨number, after, middle, rfl, hbefore, hfault⟩ := h
  rw [feedAll_append, hbefore]
  show middle.feedAll reader _ = _
  rw [feedAll_cons, hfault]
  rfl

theorem StopsAt.append {reader : LineReader κ} {draft middle : Draft κ}
    {front lines before : List (String × Nat)} {text : String} {fault : Fault κ}
    (hfront : draft.feedAll reader front = .ok middle)
    (h : StopsAt reader middle lines before text fault) :
    StopsAt reader draft (front ++ lines) (front ++ before) text fault := by
  obtain ⟨number, after, last, rfl, hbefore, hfault⟩ := h
  refine ⟨number, after, last, (List.append_assoc ..).symm, ?_, hfault⟩
  rw [feedAll_append, hfront]
  exact hbefore

/-- Two scripts are refused at the same line of code, for the same cause. -/
def StopAlike (reader : LineReader κ) (draft draft' : Draft κ)
    (lines lines' : List (String × Nat)) : Prop :=
  ∃ σ before before' line fault fault', StopsAt reader draft lines before line fault ∧
    StopsAt reader draft' lines' before' line fault' ∧ codeLines before = codeLines before' ∧
    Fault.Alike σ fault fault'

theorem StopAlike.append {reader : LineReader κ} {draft draft' middle middle' : Draft κ}
    {front front' lines lines' : List (String × Nat)}
    (hfront : draft.feedAll reader front = .ok middle)
    (hfront' : draft'.feedAll reader front' = .ok middle')
    (hcode : codeLines front = codeLines front')
    (h : StopAlike reader middle middle' lines lines') :
    StopAlike reader draft draft' (front ++ lines) (front' ++ lines') := by
  obtain ⟨σ, before, before', line, fault, fault', hstops, hstops', hbefore, halike⟩ := h
  refine ⟨σ, _, _, line, fault, fault', .append hfront hstops, .append hfront' hstops', ?_, halike⟩
  rw [codeLines_append, codeLines_append, hcode, hbefore]

/-- Two scripts with the same code are read into drafts that differ only in lines, or both stop at
    the same line of code for the same cause. -/
theorem feedAll_twin (reader : LineReader κ) {draft draft' : Draft κ}
    {lines lines' : List (String × Nat)} (hcode : codeLines lines = codeLines lines')
    (htidy : Tidy draft) (hfiled : Filed draft) (htwins : Twins draft draft') :
    (∃ last last', draft.feedAll reader lines = .ok last ∧
      draft'.feedAll reader lines' = .ok last' ∧ Twins last last') ∨
    StopAlike reader draft draft' lines lines' := by
  -- the induction is on the code that is left, so that each script drops its own blank lines
  generalize hlines : codeLines lines = code at hcode
  have hlines' : codeLines lines' = code := hcode.symm
  clear hcode
  induction code generalizing lines lines' draft draft' with
  | nil =>
    obtain ⟨last, hread⟩ := feedAll_blank reader hlines draft
    obtain ⟨last', hread'⟩ := feedAll_blank reader hlines' draft'
    exact Or.inl ⟨_, _, hread, hread', htwins.mark_line last last'⟩
  | cons text code ih =>
    obtain ⟨front, line, back, rfl, hfront, hback⟩ := exists_of_codeLines_eq_cons hlines
    obtain ⟨front', number, back', rfl, hfront', hback'⟩ := exists_of_codeLines_eq_cons hlines'
    have hfronts : codeLines front = codeLines front' := hfront.trans hfront'.symm
    obtain ⟨last, hread⟩ := feedAll_blank reader hfront draft
    obtain ⟨last', hread'⟩ := feedAll_blank reader hfront' draft'
    have hmarked := htidy.mark_line last
    obtain ⟨σ, htwin⟩ := (htwins.mark_line last last').exists_twin hmarked.sound hfiled line number
    rcases (htwin.feed reader text).cases with ⟨next, next', hfeed, hfeed', hnext⟩ |
      ⟨fault, fault', hfault, hfault', halike⟩
    · obtain ⟨htidy', hmoves⟩ := hmarked.feed hfeed
      have hfiled' := hmoves.filed hmarked.sound hfiled
      have hhead := feedAll_snoc hread hfeed
      have hhead' := feedAll_snoc hread' hfeed'
      rw [List.append_cons front, List.append_cons front']
      rcases ih htidy' hfiled' ⟨σ, line, number, hnext⟩ hback hback' with
        ⟨after, after', hrest, hrest', htwins'⟩ | hstop
      · refine Or.inl ⟨after, after', ?_, ?_, htwins'⟩
        · rw [feedAll_append, hhead]
          exact hrest
        · rw [feedAll_append, hhead']
          exact hrest'
      · refine Or.inr (.append hhead hhead' ?_ hstop)
        rw [codeLines_append, codeLines_append, hfronts]
        rfl
    · exact Or.inr ⟨σ, front, front', text, fault, fault', ⟨line, back, _, rfl, hread, hfault⟩,
        ⟨number, back', _, rfl, hread', hfault'⟩, hfronts, halike⟩

/-! ## The end of a script -/

theorem Indexed.oneLine {draft : Draft κ} (h : Indexed draft) :
    OneLine (draft.blocks.map Block.label) := by
  intro index line line' origin origin' hmem hmem'
  exact (h index line line' origin origin' (Atlas.isSome_of_iff.2 hmem)
    (Atlas.isSome_of_iff.2 hmem')).1

/-- Two drafts of scripts that differ only in lines become stories that do. -/
theorem finish_twin {draft draft' : Draft κ} (htidy : Tidy draft) (hfiled : Filed draft)
    (hindexed : Indexed draft) (htwins : Twins draft draft') :
    ∃ σ story story', draft.finish = .ok story ∧ draft'.finish = .ok story' ∧
      OneLine (story.blocks.map Block.label) ∧ story'.blocks = story.blocks.map (·.renumber σ) := by
  obtain ⟨σ, htwin⟩ := htwins.exists_twin htidy.sound hfiled draft.lastLine draft'.lastLine
  obtain ⟨closed, hclosed, hfinish, hmoves, hsound⟩ := htidy.finish
  have hone := (hmoves.indexed htidy.sound hindexed).oneLine
  have hlength : draft'.stack.length = draft.stack.length := by rw [htwin.stack, List.length_map]
  rcases (htwin.closeMany draft.stack.length).cases with ⟨other, closed', hother, hclosed', hlast⟩ |
    ⟨fault, _, hfault, _⟩
  · obtain rfl := Except.ok.inj (hclosed.symm.trans hother)
    refine ⟨σ, _, StoryGraph.ofBlocks closed'.blocks, hfinish, ?_, ?_, ?_⟩
    · rw [← hlength] at hclosed'
      exact bind_eq_ok.2 ⟨closed', hclosed', rfl⟩
    · refine hone.mono fun label hlabel => ?_
      rw [← Atlas.isSome_of_iff] at hlabel ⊢
      show (closed.atlas label).isSome
      rw [← hsound.atlas_story]
      exact hlabel
    · rw [hlast.blocks]
      exact StoryGraph.blocks_ofBlocks_renumber hone
  · rw [hclosed] at hfault
    cases hfault

end Draft

/-- **Lines carry no meaning.** Two scripts with the same code are refused at the same line of code
    for the same cause, or there is a renumbering of lines that moves the story of the first to that
    of the second. Then both are refused for the same cause when they are reduced, or the
    renumbering moves the reduced story, its shortest route and its longest route as well, and the
    times of the routes stay. -/
theorem exists_renumbering [FiniteCheck κ] [Zero κ] [Add κ] [LT κ] [DecidableLT κ] [LE κ]
    [DecidableLE κ] (reader : LineReader κ) {lines lines' : List (String × Nat)}
    (hcode : codeLines lines = codeLines lines') :
    (∃ σ before before' line fault fault',
      Draft.start.feedAll reader lines = .error fault ∧
      Draft.start.feedAll reader lines' = .error fault' ∧
      Draft.StopsAt reader .start lines before line fault ∧
      Draft.StopsAt reader .start lines' before' line fault' ∧
      codeLines before = codeLines before' ∧ Fault.Alike σ fault fault') ∨
    ∃ σ draft draft' story story',
      Draft.start.feedAll reader lines = .ok draft ∧
      Draft.start.feedAll reader lines' = .ok draft' ∧
      draft.finish = .ok story ∧ draft'.finish = .ok story' ∧
      story'.blocks = story.blocks.map (·.renumber σ) ∧
      ∀ tally : Tally κ,
        (∃ fault fault', story.reduce tally = .error fault ∧ story'.reduce tally = .error fault' ∧
          Fault.Alike σ fault fault') ∨
        ∃ graph graph', story.reduce tally = .ok graph ∧ story'.reduce tally = .ok graph' ∧
          graph' = graph.renumber σ ∧
          graph'.shortest = graph.shortest.map (·.renumber σ) ∧
          graph'.longest = graph.longest.map (·.renumber σ) := by
  rcases Draft.feedAll_twin reader hcode Draft.tidy_start Draft.filed_start Draft.twins_start with
    ⟨draft, draft', hread, hread', htwins⟩ |
    ⟨σ, before, before', line, fault, fault', hstops, hstops', hbefore, halike⟩
  · obtain ⟨htidy, hmoves⟩ := Draft.tidy_start.feedAll hread
    obtain ⟨σ, story, story', hfinish, hfinish', hone, hblocks⟩ := Draft.finish_twin htidy
      (hmoves.filed Draft.sound_start Draft.filed_start)
      (hmoves.indexed Draft.sound_start Draft.indexed_start) htwins
    refine Or.inr ⟨σ, draft, draft', story, story', hread, hread', hfinish, hfinish', hblocks, ?_⟩
    intro tally
    rcases (StoryGraph.reduce_renumber hblocks hone tally).cases with
      ⟨graph, _, hgraph, hgraph', rfl⟩ | ⟨fault, fault', hfault, hfault', halike⟩
    · exact Or.inr ⟨graph, _, hgraph, hgraph', rfl, graph.shortest_renumber,
        graph.longest_renumber⟩
    · exact Or.inl ⟨fault, fault', hfault, hfault', halike⟩
  · exact Or.inl ⟨σ, before, before', line, fault, fault', hstops.feedAll_eq_error,
      hstops'.feedAll_eq_error, hstops, hstops', hbefore, halike⟩

/-- The script of the park with notes between its lines, and other numbers. -/
def parkNotes : List (String × Nat) :=
  ("# a walk", 90) :: CostedGraph.parkLines.flatMap fun line =>
    [(line, 7), ("", 3), ("    # later", 12)]

/-- The notes change neither the routes through the park nor their times. -/
theorem exists_renumbering_park :
    codeLines (CostedGraph.parkLines.zipIdx 1) = codeLines parkNotes ∧
    ∃ σ,
      (do
        let draft ← Draft.start.feedAll LineReader.scenes parkNotes
        let story ← draft.finish
        story.reduce Tally.count) = .ok (CostedGraph.parkGraph.renumber σ) ∧
      (CostedGraph.parkGraph.renumber σ).shortest = some ⟨2, [.block .entry, .block (.named "park"),
        .block ((Label.synthetic 2 7 .scope).renumber σ)]⟩ ∧
      (CostedGraph.parkGraph.renumber σ).longest =
        CostedGraph.parkGraph.longest.map (·.renumber σ) := by
  have hcode : codeLines (CostedGraph.parkLines.zipIdx 1) = codeLines parkNotes := by decide +kernel
  obtain ⟨draft, hdraft, hrest⟩ := bind_eq_ok.1 CostedGraph.reduce_park
  obtain ⟨story, hstory, hreduce⟩ := bind_eq_ok.1 hrest
  have hshortest : CostedGraph.parkGraph.shortest = some ⟨2, [.block .entry, .block (.named "park"),
      .block (.synthetic 2 7 .scope)]⟩ := by cbv
  refine ⟨hcode, ?_⟩
  rcases exists_renumbering (LineReader.scenes : LineReader Rat) hcode with
    ⟨_, _, _, _, fault, _, hfault, _⟩ |
    ⟨σ, read, draft', told, story', hread, hdraft', hfinish, hstory', -, hgraph⟩
  · rw [hdraft] at hfault
    cases hfault
  · obtain rfl := Except.ok.inj (hdraft.symm.trans hread)
    obtain rfl := Except.ok.inj (hstory.symm.trans hfinish)
    rcases hgraph Tally.count with ⟨fault, _, hfault, _⟩ |
      ⟨graph, _, hreduced, hreduced', rfl, hshort, hlong⟩
    · rw [hreduce] at hfault
      cases hfault
    · obtain rfl := Except.ok.inj (hreduce.symm.trans hreduced)
      refine ⟨σ, bind_eq_ok.2 ⟨draft', hdraft', bind_eq_ok.2 ⟨story', hstory', hreduced'⟩⟩, ?_,
        hlong⟩
      rw [hshort, hshortest]
      rfl

end Playthrough
