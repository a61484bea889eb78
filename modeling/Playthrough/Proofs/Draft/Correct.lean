import Playthrough.Proofs.Draft.Bodies
import Playthrough.Reading.Plain

/-!
# Scripts tell what they say

The sections of an outline are read one after the other at the top level. Each leaves the block that
receives content behind it, from which the next section is entered or, behind the last one, the story
ends. Jumps lead to the blocks with the names of sections. So the walks through the finished story
spell what the outline tells, by induction on the number of blocks that a walk passes.

* `Outline.Section.reads`: reading a section.
* `Outline.Runs`: the blocks of some sections behave as these mean.
* `Outline.walks_eq_tells`: the walks of an outline spell what it tells.
-/

namespace Playthrough

open Script

variable {κ : Type}

namespace Outline

open Draft Atlas

variable {reader : LineReader κ} {draft draft' : Draft κ}

/-! ## Sections -/

/-- A section was read at the top level. -/
structure Section.Written (reader : LineReader κ) (part : Section) (draft draft' : Draft κ) :
    Prop where
  isOpen : Open [] draft'
  below_eq : draft'.below = []
  grows : Grows draft draft'
  named : ∀ name, name ≠ part.name → draft.atlas (.named name) = none →
    draft'.atlas (.named name) = none
  enters : ∀ atlas, Later draft' atlas →
    draft.onward atlas = (atlas.TellsIn · (.named part.name))
  behaves : ∀ atlas, Later draft' atlas →
    Behaves atlas (fun steps => atlas.TellsIn (steps + 1) (.named part.name))
      (part.body.Plays reader) (draft'.onward atlas)

/-- The top level, where a section is about to be read. -/
structure AtTop (names : List String) (draft : Draft κ) : Prop where
  isOpen : Open [] draft
  below_eq : draft.below = []
  free : ∀ name ∈ names, draft.atlas (.named name) = none

/-- Declaring a name changes nothing but what relative names refer to. -/
theorem declare_spec (draft : Draft κ) {name : String} (habsolute : name.toList.head? ≠ some '.') :
    (draft.declare name).top = { draft.top with scope := some name } ∧
      (draft.declare name).below = draft.below ∧ (draft.declare name).atlas = draft.atlas ∧
      Grows draft (draft.declare name) ∧ (Sound draft → Sound (draft.declare name)) := by
  have hdeclare : draft.declare name =
      draft.modifyTop fun frame => { frame with scope := some name } := if_neg habsolute
  obtain ⟨htop, hbelow⟩ :=
    top_of_frames (frames_modifyTop (fun frame => { frame with scope := some name }) draft)
  rw [hdeclare]
  exact ⟨htop, hbelow, by rw [Draft.atlas, blocks_modifyTop], grows_modifyTop rfl,
    fun hsound => hsound.modifyTop rfl⟩

/-- The body of a section closes. -/
theorem Section.close {part : Section} {first last : Draft κ} {indent : Option (List Char)}
    (hopen : Open [] draft) (hbelow : draft.below = [])
    (hopened : Opened { block := .named part.name, indent, role := .body } false
      (draft.declare part.name) first)
    (hended : Ended (part.body.Plays reader) first last) (line : Nat) :
    ∃ after, last.close line = .ok after ∧ part.Written reader draft after := by
  obtain ⟨block, hblock⟩ := hopen.sound.exists_top
  obtain ⟨hdeclared, hdeclared', hatlas, hgrows, -⟩ := declare_spec draft part.absolute
  have hlast : last.below = [(draft.declare part.name).top] := by
    rw [hended.within.below_eq, hopened.top_eq.2, frames_eq, hdeclared', hbelow]
  have hrole : last.top.role = .body := by rw [hended.within.role_eq, hopened.top_eq.1]
  obtain ⟨after, hclose, hjoined⟩ := close_join hended.sound
    (last.frames_eq.trans (by rw [hlast])) (by simp [hrole]) line
  have hexits : last.top.exits = [last.top.block] := by simp [Frame.exits, hrole]
  rw [hexits] at hjoined
  refine ⟨after, hclose, hjoined.isOpen hlast ?_ ?_, (hjoined.top_eq hlast).2,
    ((hgrows.trans hopened.grows).trans hended.within.grows).trans hjoined.grows, ?_, ?_, ?_⟩
  · rw [hdeclared]
    exact hopen.indent_eq
  · rw [hdeclared]
    exact hopen.role_eq
  · intro name hname hfree
    rw [← hatlas] at hfree
    exact hjoined.named (hopened.named hended.within hfree (by simpa using Ne.symm hname))
  · intro atlas hlater
    have hfound : after.atlas draft.top.block = some (block.exit (.named part.name) false) := by
      have hdeclaredBlock : (draft.declare part.name).atlas
          (draft.declare part.name).top.block = some block := by rw [hdeclared, hatlas, hblock]
      have hleads := hopened.leads hended.within hdeclaredBlock
      rw [hdeclared] at hleads
      refine hjoined.others ?_ hleads
      rw [List.mem_singleton]
      intro heq
      have hfresh := hopened.end_fresh hended.within
      rw [← heq, hatlas, hblock] at hfresh
      cases hfresh
    refine hopen.onward_eq hblock (hlater.eq_of_done hfound ?_)
    exact hjoined.not_mem_openLabels hended.sound hlast (Or.inr (by rw [hdeclared]))
  · intro atlas hlater
    obtain ⟨block, hblock⟩ := hended.sound.exists_top
    refine hjoined.continue hlast
      (hopened.behaves hended (hlater.of_grows hjoined.grows) hblock ?_)
    exact hlater.eq_of_done (hjoined.source List.mem_cons_self hblock)
      (hjoined.not_mem_openLabels hended.sound hlast (Or.inl List.mem_cons_self))

/-- The step lemma: a section is read from the top level back to it. -/
theorem Section.reads (part : Section) {Q : Draft κ → Prop}
    (hQ : ∀ first, Q first → AtTop [part.name] first)
    (hawaits : Awaits [] draft (Unchained Q)) :
    Feeds reader part.lines draft fun after => ∃ first, Q first ∧
      Settles [] [] after (part.Written reader first) := by
  refine feeds_cons fun number => ?_
  obtain ⟨aligned, first, hQfirst, hfirst, hfeed⟩ :=
    hawaits.feed_unchained (by simp [Blanks]) part.line number
  obtain ⟨hopen, hbelow, hfree⟩ := hQ first hQfirst
  obtain ⟨hdeclared, hdeclared', hatlas, -, hsound⟩ := declare_spec first part.absolute
  obtain ⟨body, henter, hopened⟩ := enter_spec (hsound hopen.sound) (.named part.name) .body number
    (by rw [hatlas]; exact hfree _ List.mem_cons_self) (by rintro _ _ _ ⟨⟩) rfl
  have hobey : aligned.obey reader (.header (.label part.name)) number = .ok body := by
    simp only [obey, openHeader, hfirst, bind, Except.bind, qualify_absolute part.absolute]
    exact henter
  refine ⟨body, hfeed.trans hobey, ?_⟩
  have hindent : (first.declare part.name).top.indent = some [] := by
    rw [hdeclared]
    exact hopen.indent_eq
  refine ((Body.reads reader part.body).opened hopened (Or.inl rfl) hindent (by simp [Blanks])
    part.indent ?_ fun inner last hinner hlast => Section.close hopen hbelow hinner hlast).imp ?_
  · rintro target htarget heq
    cases heq
    exact part.noLoop htarget
  · intro after hcloses
    rw [frames_eq, hdeclared', hbelow] at hcloses
    refine ⟨first, hQfirst, hcloses.settles hindent fun last hlast => ?_⟩
    exact ⟨hlast.isOpen.indent_eq, hlast.isOpen.role_ne_chain, hlast⟩

/-! ## Scripts -/

/-- From a point on, play goes through the given sections as these mean. -/
def Runs (reader : LineReader κ) (atlas : Atlas κ) : List Section → Reading κ → Prop
  | [], start => ∀ steps records, start steps records ↔ records = []
  | part :: rest, start => start = (atlas.TellsIn · (.named part.name)) ∧
      ∃ next, Behaves atlas (fun steps => atlas.TellsIn (steps + 1) (.named part.name))
        (part.body.Plays reader) next ∧ Runs reader atlas rest next

/-- Some sections were read at the top level. The last block still receives content, so what is
    known of the story is known under the condition that it gets no exits any more. -/
structure Written (reader : LineReader κ) (parts : List Section) (draft draft' : Draft κ) :
    Prop where
  isOpen : Open [] draft'
  grows : Grows draft draft'
  named : ∀ name, name ∉ parts.map Section.name → draft.atlas (.named name) = none →
    draft'.atlas (.named name) = none
  runs : ∀ atlas, Later draft' atlas → atlas draft'.top.block = draft'.atlas draft'.top.block →
    Runs reader atlas parts (draft.onward atlas)

theorem written_nil (h : Open [] draft) : Written reader [] draft draft := by
  refine ⟨h, fun label block hblock => ⟨block, hblock, List.prefix_refl _, fun hopen => ⟨rfl, hopen⟩⟩,
    fun _ _ hname => hname, ?_⟩
  intro atlas _ hlast steps records
  obtain ⟨text, htext⟩ := h.block_eq
  rw [htext] at hlast
  rw [onward, text_eq htext]
  refine (onwardIn_length hlast steps records).trans ?_
  simp [After, Block.Stops]

theorem Section.Written.cons {part : Section} {parts : List Section} {middle : Draft κ}
    (h : part.Written reader draft middle) (h' : Outline.Written reader parts middle draft') :
    Outline.Written reader (part :: parts) draft draft' := by
  refine ⟨h'.isOpen, h.grows.trans h'.grows, ?_, ?_⟩
  · intro name hname hfree
    rw [List.map_cons, List.mem_cons, not_or] at hname
    exact h'.named name hname.2 (h.named name hname.1 hfree)
  · intro atlas hlater hlast
    have hmiddle := hlater.of_grows h'.grows
    exact ⟨h.enters atlas hmiddle, _, h.behaves atlas hmiddle, h'.runs atlas hlater hlast⟩

/-- The run lemma: sections are read one after the other. -/
theorem reads_sections (parts : List Section) (hdistinct : (parts.map Section.name).Nodup)
    {Q : Draft κ → Prop} (hQ : ∀ first, Q first → AtTop (parts.map Section.name) first)
    (hsettles : Settles [] [] draft Q) :
    Feeds reader (parts.flatMap Section.lines) draft fun after =>
      Settles [] [] after fun last => ∃ first, Q first ∧ Written reader parts first last := by
  induction parts generalizing draft Q with
  | nil =>
    exact feeds_nil (hsettles.imp fun first hfirst =>
      ⟨first, hfirst, written_nil (hQ first hfirst).isOpen⟩)
  | cons part parts ih =>
    rw [List.map_cons, List.nodup_cons] at hdistinct
    rw [List.flatMap_cons]
    refine (part.reads ?_ hsettles.awaits).append ?_
    · intro first hfirst
      obtain ⟨hopen, hbelow, hfree⟩ := hQ first hfirst
      exact ⟨hopen, hbelow, fun name hname => hfree name (by simp_all)⟩
    · rintro middle ⟨first, hfirst, hsettles⟩
      refine (ih hdistinct.2 ?_ hsettles).imp fun after hafter => hafter.imp ?_
      · intro second hsecond
        refine ⟨hsecond.isOpen, hsecond.below_eq, fun name hname => ?_⟩
        refine hsecond.named name ?_ ((hQ first hfirst).free name (List.mem_cons_of_mem _ hname))
        rintro rfl
        exact hdistinct.1 hname
      · rintro last ⟨second, hsecond, hlast⟩
        exact ⟨first, hfirst, hsecond.cons hlast⟩

/-! ## Walks -/

variable {atlas : Atlas κ} {sections : List Section} {start : Reading κ}

theorem Runs.suffix {earlier later : List Section} (h : Runs reader atlas (earlier ++ later) start) :
    ∃ start, Runs reader atlas later start := by
  induction earlier generalizing start with
  | nil => exact ⟨start, h⟩
  | cons part earlier ih =>
    obtain ⟨-, next, -, hnext⟩ := h
    exact ih hnext

/-- Play gives nothing that the outline does not tell. -/
theorem Runs.tellsFrom (h : Runs reader atlas sections start)
    (hfree : ∀ name, name ∉ sections.map Section.name → atlas (.named name) = none)
    {later : List Section} {from' : Reading κ} (hlater : Runs reader atlas later from')
    {steps : Nat} {records : List (Record κ)} (hrecords : from' steps records) :
    TellsFrom reader sections later records := by
  -- A section is left with fewer blocks to go than it was entered with, whether play falls into the
  -- next one or jumps back.
  induction steps using Nat.strong_induction_on generalizing later from' records with
  | _ steps ih =>
    cases later with
    | nil =>
      rw [(hlater steps records).1 hrecords]
      exact .done
    | cons part rest =>
      obtain ⟨rfl, next, hbehaves, hrest⟩ := hlater
      cases steps with
      | zero => exact hrecords.elim
      | succ steps =>
        obtain ⟨front, outcome, back, hfront, rfl, hthen⟩ := hbehaves.only steps records hrecords
        cases outcome with
        | falls => exact .falls hfront (ih steps (Nat.lt_succ_self steps) hrest hthen)
        | ends =>
          obtain rfl : back = [] := hthen
          rw [List.append_nil]
          exact .ends hfront
        | lost => exact hthen.elim
        | jumps name =>
          -- Nothing is told behind a jump to a name that no section has.
          obtain ⟨block, hblock⟩ := TellsIn.exists_block hthen
          have hmem : name ∈ sections.map Section.name := by
            by_contra hnot
            rw [hfree name hnot] at hblock
            cases hblock
          obtain ⟨target, htarget, rfl⟩ := List.mem_map.1 hmem
          obtain ⟨earlier, later, rfl⟩ := List.append_of_mem htarget
          obtain ⟨entry, hentry⟩ := h.suffix
          have hback : entry steps back := by
            rw [hentry.1]
            exact hthen
          exact .jumps hfront rfl (ih steps (Nat.lt_succ_self steps) hentry hback)

/-- Play gives all that the outline tells. -/
theorem TellsFrom.runs {later : List Section} {records : List (Record κ)}
    (htells : TellsFrom reader sections later records) (h : Runs reader atlas sections start)
    {from' : Reading κ} (hlater : Runs reader atlas later from') :
    ∃ steps, from' steps records := by
  induction htells generalizing from' with
  | done => exact ⟨0, (hlater 0 []).2 rfl⟩
  | falls hfront _ ih =>
    obtain ⟨rfl, next, hbehaves, hrest⟩ := hlater
    obtain ⟨steps, hback⟩ := ih hrest
    obtain ⟨steps, hsteps⟩ := hbehaves.all steps _ .falls _ hfront hback
    exact ⟨steps + 1, hsteps⟩
  | ends hrecords =>
    obtain ⟨rfl, next, hbehaves, -⟩ := hlater
    obtain ⟨steps, hsteps⟩ := hbehaves.all 0 _ .ends [] hrecords rfl
    rw [List.append_nil] at hsteps
    exact ⟨steps + 1, hsteps⟩
  | jumps hfront hsections _ ih =>
    obtain ⟨rfl, next, hbehaves, -⟩ := hlater
    subst hsections
    obtain ⟨target, htarget⟩ := h.suffix
    obtain ⟨steps, hback⟩ := ih htarget
    obtain ⟨rfl, -⟩ := htarget
    obtain ⟨steps, hsteps⟩ := hbehaves.all steps _ (.jumps _) _ hfront hback
    exact ⟨steps + 1, hsteps⟩

/-! ## Whole scripts -/

/-- The entry block, before the first line. -/
theorem changed_start {first : Draft κ} (h : Changed id Draft.start first) (names : List String) :
    AtTop names first ∧ first.top.block = .entry ∧ first.atlas = Draft.start.atlas := by
  obtain ⟨htop, hbelow⟩ := h.top_eq
  have hatlas : first.atlas = Draft.start.atlas := by
    funext label
    rw [h.atlas_eq, Option.map_id, id, ite_self]
  have hopen : Open [] first := by
    refine ⟨h.sound, by rw [htop]; rfl, by rw [htop]; exact Or.inl rfl, [], ?_⟩
    rw [htop, hatlas]
    rfl
  exact ⟨⟨hopen, hbelow, fun name _ => by rw [hatlas]; rfl⟩, by rw [htop]; rfl, hatlas⟩

/-- The walks through the story of an outline spell what the outline tells. No line of it is at
    fault, and neither is its end. -/
theorem walks_eq_tells (outline : Outline) (reader : LineReader κ)
    (numbered : List (String × Nat)) (hlines : numbered.map Prod.fst = outline.lines) :
    ∃ draft graph, Draft.start.feedAll reader numbered = .ok draft ∧ draft.finish = .ok graph ∧
      {records | ∃ walk, graph.atlas.IsWalk .entry false walk ∧
        records = graph.atlas.spelled walk} = {records | outline.Tells reader records} := by
  have hsettles : Settles [] [] (Draft.start : Draft κ) (Changed id Draft.start) :=
    (changed_id sound_start).settles open_start fun _ hfirst => hfirst
  obtain ⟨draft, hfeed, hdraft⟩ :=
    reads_sections outline.sections outline.distinct
      (fun _ hfirst => (changed_start hfirst _).1) hsettles numbered hlines
  obtain ⟨last, hfinish, first, hfirst, hlast⟩ := hdraft.finish
  obtain ⟨-, hentry, hatlas⟩ := changed_start hfirst []
  refine ⟨draft, _, hfeed, hfinish, ?_⟩
  rw [StoryGraph.atlas_ofBlocks hlast.isOpen.sound.nodup hlast.isOpen.sound.entry_mem]
  have hruns := hlast.runs last.atlas last.later_atlas rfl
  have hfree : ∀ name, name ∉ outline.sections.map Section.name →
      last.atlas (.named name) = none := by
    intro name hname
    refine hlast.named name hname ?_
    rw [hatlas]
    rfl
  have honward : ∀ steps records, first.onward last.atlas steps records ↔
      last.atlas.TellsIn (steps + 1) .entry records := by
    intro steps records
    rw [onward, hentry, hatlas]
    exact onwardIn_zero last.atlas .entry steps records
  ext records
  change (∃ walk, last.atlas.IsWalk .entry false walk ∧ records = last.atlas.spelled walk) ↔
    outline.Tells reader records
  rw [← exists_tellsIn_iff]
  constructor
  · rintro ⟨steps, hsteps⟩
    exact hruns.tellsFrom hfree hruns ((honward steps records).2 hsteps.succ)
  · intro htells
    obtain ⟨steps, hsteps⟩ := TellsFrom.runs htells hruns hruns
    exact ⟨steps + 1, (honward steps records).1 hsteps⟩

/-- Two blanks. -/
def twoBlanks : Indent := ⟨[' ', ' '], by decide, List.all_eq_true.1 (by decide)⟩

/-- A fork in the road: one way leads on, and the other one is lost without a map. -/
def crossroads : Outline where
  sections :=
    [{ name := "start"
       absolute := by decide
       line := .read "label start:" (by decide +kernel)
       indent := twoBlanks
       body := .cons (.content "\"a\"" (.read "\"a\"" (by decide +kernel))) <|
         .last <| .menu (.read "menu:" (by decide +kernel)) twoBlanks <|
           .cons (.read "\"left\":" (by decide +kernel)) twoBlanks
             (.cons (.content "\"b\"" (.read "\"b\"" (by decide +kernel))) <|
               .leave <| .jump "end" (by decide) (.read "jump end" (by decide +kernel))) <|
           .last (.read "\"right\":" (by decide +kernel)) twoBlanks <|
             .last <| .chain (.read "if map:" (by decide +kernel)) twoBlanks
               (.last <| .content "\"c\"" (.read "\"c\"" (by decide +kernel))) <|
               .otherwise (.read "else:" (by decide +kernel)) twoBlanks <|
                 .leave <| .finish true (.read "return # dead" (by decide +kernel))
       noLoop := by simp [Body.target?] },
     { name := "end"
       absolute := by decide
       line := .read "label end:" (by decide +kernel)
       indent := twoBlanks
       body := .last <| .content "\"d\"" (.read "\"d\"" (by decide +kernel))
       noLoop := by simp [Body.target?] }]
  distinct := by decide

example : crossroads.lines =
    ["label start:", "  \"a\"", "  menu:", "    \"left\":", "      \"b\"", "      jump end",
      "    \"right\":", "      if map:", "        \"c\"", "      else:", "        return # dead",
      "label end:", "  \"d\""] := by decide +kernel

/-- The walks of the crossroads. One of them goes left. -/
theorem walks_eq_tells_crossroads :
    (∃ draft graph, Draft.start.feedAll (LineReader.quotedLines : LineReader ℕ)
        (crossroads.lines.zipIdx 1) = .ok draft ∧ draft.finish = .ok graph ∧
      {records | ∃ walk, graph.atlas.IsWalk .entry false walk ∧
        records = graph.atlas.spelled walk} =
          {records | crossroads.Tells LineReader.quotedLines records}) ∧
      crossroads.Tells (LineReader.quotedLines : LineReader ℕ)
        (["\"a\"", "\"b\"", "\"d\""].filterMap LineReader.quotedLines) := by
  refine ⟨walks_eq_tells crossroads _ (crossroads.lines.zipIdx 1) (by simp), ?_⟩
  have hsections : crossroads.sections = [crossroads.sections[0]] ++ [crossroads.sections[1]] := rfl
  have hleft : (crossroads.sections[0]).body.Plays (LineReader.quotedLines : LineReader ℕ)
      (["\"a\"", "\"b\""].filterMap LineReader.quotedLines) (.jumps "end") :=
    Or.inl ⟨_, _, ⟨rfl, rfl⟩, Or.inl (Or.inl ⟨_, _, ⟨rfl, rfl⟩, ⟨rfl, rfl⟩, rfl⟩), by decide +kernel⟩
  have hright : (crossroads.sections[1]).body.Plays (LineReader.quotedLines : LineReader ℕ)
      (["\"d\""].filterMap LineReader.quotedLines) .falls := ⟨by decide +kernel, rfl⟩
  exact .jumps hleft hsections (.falls hright .done)

end Outline

end Playthrough
