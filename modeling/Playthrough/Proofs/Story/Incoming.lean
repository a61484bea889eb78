import Playthrough.Proofs.Story.Reach
import Mathlib

/-!
# The blocks that lead to a label

The table of what leads to what is found without a list of visited blocks: a block joins the queue
again for every block that turns out to lead to it. Whenever a block has its turn a second time, all
its exits are noted already and the turn changes nothing. Up to such turns the search is the
breadth-first exploration, so it notes the exits of the blocks in reach and stops at the same exit
if one leads nowhere.

* `fresh`: the labels of a queue that come up for the first time.
* `Tracing.Shadows`: the search beside an exploration that has seen the same blocks.
* `incoming_eq`: the table in terms of the exploration.
* `Tracing.Loops`: the search turn by turn; `exists_loops` bounds the turns.
* `incoming_exact`: what the table holds, and when there is none.
-/

namespace Playthrough

open Relation

variable {κ : Type}

/-! ## Labels that come up for the first time -/

/-- The labels of a queue that are not seen yet, each where it comes up first. -/
def fresh (seen : List Label) : List Label → List Label
  | [] => []
  | label :: queue =>
    if label ∈ seen then fresh seen queue else label :: fresh (label :: seen) queue

theorem fresh_cons_of_mem {label : Label} {seen : List Label} (h : label ∈ seen)
    (queue : List Label) : fresh seen (label :: queue) = fresh seen queue :=
  if_pos h

theorem fresh_cons_of_not_mem {label : Label} {seen : List Label} (h : label ∉ seen)
    (queue : List Label) : fresh seen (label :: queue) = label :: fresh (label :: seen) queue :=
  if_neg h

theorem fresh_congr {seen seen' : List Label} (h : ∀ label, label ∈ seen ↔ label ∈ seen')
    (queue : List Label) : fresh seen queue = fresh seen' queue := by
  induction queue generalizing seen seen' with
  | nil => rfl
  | cons label queue ih =>
    by_cases hlabel : label ∈ seen
    · rw [fresh_cons_of_mem hlabel, fresh_cons_of_mem ((h label).1 hlabel), ih h]
    · rw [fresh_cons_of_not_mem hlabel, fresh_cons_of_not_mem fun hnot => hlabel ((h label).2 hnot),
        ih fun other => ?_]
      rw [List.mem_cons, List.mem_cons, h]

theorem mem_fresh {seen queue : List Label} {label : Label} :
    label ∈ fresh seen queue ↔ label ∈ queue ∧ label ∉ seen := by
  induction queue generalizing seen with
  | nil => simp [fresh]
  | cons first queue ih =>
    by_cases hfirst : first ∈ seen
    · rw [fresh_cons_of_mem hfirst, ih]
      grind
    · rw [fresh_cons_of_not_mem hfirst, List.mem_cons, ih]
      grind

theorem fresh_append (seen front back : List Label) :
    fresh seen (front ++ back) = fresh seen front ++ fresh (fresh seen front ++ seen) back := by
  induction front generalizing seen with
  | nil => rfl
  | cons label front ih =>
    by_cases hlabel : label ∈ seen
    · rw [List.cons_append, fresh_cons_of_mem hlabel, fresh_cons_of_mem hlabel, ih]
    · rw [List.cons_append, fresh_cons_of_not_mem hlabel, fresh_cons_of_not_mem hlabel, ih,
        List.cons_append]
      have hseen : ∀ other, other ∈ fresh (label :: seen) front ++ label :: seen ↔
          other ∈ label :: (fresh (label :: seen) front ++ seen) := by
        grind
      rw [fresh_congr hseen]
      rfl

/-- A label that came up before does not come up for the first time. -/
theorem fresh_append_cons {seen front : List Label} {label : Label} (back : List Label)
    (h : label ∈ front ∨ label ∈ seen) :
    fresh seen (front ++ label :: back) = fresh seen (front ++ back) := by
  have hmem : label ∈ fresh seen front ++ seen := by
    rw [List.mem_append, mem_fresh]
    tauto
  rw [fresh_append, fresh_append, fresh_cons_of_mem hmem]

/-! ## The exploration passes over what it has seen -/

namespace StoryGraph

variable {graph : StoryGraph κ} {unseen : List (Block κ)} {queue seen more : List Label}
  {label : Label}

theorem Explored.find?_eq_none (h : graph.Explored unseen queue seen) (hlabel : label ∈ seen) :
    unseen.find? (·.label = label) = none := by
  rw [h.rest]
  refine List.find?_eq_none.2 fun block hblock => ?_
  have hnot := (List.mem_filter.1 hblock).2
  rintro heq
  rw [of_decide_eq_true heq] at hnot
  simp [hlabel] at hnot

theorem Explored.find?_eq_some (h : graph.Explored unseen queue seen) (hlabel : label ∉ seen)
    {block : Block κ} (hblock : graph.atlas label = some block) :
    unseen.find? (·.label = label) = some block := by
  have hof : Atlas.of unseen label = some block := by
    rw [h.rest, Atlas.of_filter graph.blocks (· ∉ seen), if_pos (by simpa using hlabel)]
    exact hblock
  exact hof

theorem Explored.explore_eq_ok (h : graph.Explored unseen queue seen)
    (hfresh : fresh seen queue = []) :
    graph.explore unseen queue seen = .ok seen.reverse := by
  induction queue with
  | nil => rw [explore]
  | cons label queue ih =>
    by_cases hlabel : label ∈ seen
    · have hnone := h.find?_eq_none hlabel
      rw [fresh_cons_of_mem hlabel] at hfresh
      rw [explore_none hnone, ih (h.skip hnone) hfresh]
    · rw [fresh_cons_of_not_mem hlabel] at hfresh
      cases hfresh

theorem Explored.explore_eq_explore (h : graph.Explored unseen queue seen)
    (hfresh : fresh seen queue = label :: more) :
    ∃ rest, graph.Explored unseen (label :: rest) seen ∧ fresh (label :: seen) rest = more ∧
      graph.explore unseen queue seen = graph.explore unseen (label :: rest) seen := by
  induction queue with
  | nil => cases hfresh
  | cons first queue ih =>
    by_cases hfirst : first ∈ seen
    · have hnone := h.find?_eq_none hfirst
      rw [fresh_cons_of_mem hfirst] at hfresh
      rw [explore_none hnone]
      exact ih (h.skip hnone) hfresh
    · rw [fresh_cons_of_not_mem hfirst] at hfresh
      obtain ⟨rfl, hmore⟩ := List.cons.inj hfresh
      exact ⟨queue, h, hmore, rfl⟩

end StoryGraph

/-! ## The exits of a block -/

namespace Tracing

variable {graph : StoryGraph κ} {tracing : Tracing} {source : Label}

/-- Notes that a block leads to each of some labels. -/
def noteAll (source : Label) (targets : List Label) (tracing : Tracing) : Tracing :=
  targets.foldl (fun tracing target => tracing.note source target) tracing

theorem follow_eq (graph : StoryGraph κ) (block : Block κ) (tracing : Tracing) :
    tracing.follow graph block =
      (block.next.find? fun target => (graph.get? target).isNone).elim
        (.ok (tracing.noteAll block.label block.next))
        fun target => .error (.danglingEdge block.label target) := by
  unfold follow noteAll
  induction block.next generalizing tracing with
  | nil => rfl
  | cons target targets ih =>
    rw [List.foldlM_cons, List.find?_cons, List.foldl_cons, StoryGraph.resolve]
    cases graph.get? target with
    | none => rfl
    | some _ => exact ih _

theorem mem_sources_noteAll (targets : List Label) (tracing : Tracing) (other label : Label) :
    other ∈ (tracing.noteAll source targets).sources label ↔
      (other = source ∧ label ∈ targets) ∨ other ∈ tracing.sources label := by
  induction targets generalizing tracing with
  | nil => simp [noteAll]
  | cons target targets ih =>
    have hstep : tracing.noteAll source (target :: targets) =
        (tracing.note source target).noteAll source targets := rfl
    rw [hstep, ih, mem_sources_note, List.mem_cons]
    tauto

theorem mem_keys_of_mem_sources {target : Label} (h : source ∈ tracing.sources target) :
    target ∈ tracing.found.map Prod.fst := by
  rw [← Table.isSome_lookup_iff]
  unfold sources at h
  cases hlookup : tracing.found.lookup target with
  | none => simp [hlookup] at h
  | some sources => rfl

theorem mem_keys_note (target label : Label) (tracing : Tracing) :
    label ∈ (tracing.note source target).found.map Prod.fst ↔
      label = target ∨ label ∈ tracing.found.map Prod.fst := by
  unfold note
  split
  · rename_i hmem
    refine ⟨Or.inr, ?_⟩
    rintro (rfl | hlabel)
    · exact mem_keys_of_mem_sources hmem
    · exact hlabel
  · exact mem_map_key_place (fun _ _ => fst_addSource) _ _ label

theorem mem_keys_noteAll (targets : List Label) (tracing : Tracing) (label : Label) :
    label ∈ (tracing.noteAll source targets).found.map Prod.fst ↔
      label ∈ targets ∨ label ∈ tracing.found.map Prod.fst := by
  induction targets generalizing tracing with
  | nil => simp [noteAll]
  | cons target targets ih =>
    have hstep : tracing.noteAll source (target :: targets) =
        (tracing.note source target).noteAll source targets := rfl
    rw [hstep, ih, mem_keys_note, List.mem_cons]
    tauto

/-- The sources of every label are listed in order. -/
def Sorted (tracing : Tracing) : Prop := ∀ target, Ascending id (tracing.sources target)

theorem Sorted.note (h : tracing.Sorted) (target : Label) : (tracing.note source target).Sorted := by
  intro label
  unfold Tracing.note
  split
  · exact h label
  · unfold sources
    rw [lookup_place (fun _ _ => fst_addSource) _ tracing.ascending]
    split
    · have hold := h label
      unfold sources at hold
      cases hlookup : tracing.found.lookup label with
      | none => exact List.pairwise_singleton _ _
      | some sources =>
        rw [hlookup, Option.getD_some] at hold
        exact ascending_place (fun _ _ _ => rfl) hold
    · exact h label

theorem Sorted.noteAll (h : tracing.Sorted) (targets : List Label) :
    (tracing.noteAll source targets).Sorted := by
  induction targets generalizing tracing with
  | nil => exact h
  | cons target targets ih => exact ih (h.note target)

/-- Noting exits whose targets are all known already changes nothing. -/
theorem noteAll_of_mem_sources {targets : List Label}
    (h : ∀ target ∈ targets, source ∈ tracing.sources target) :
    tracing.noteAll source targets = tracing := by
  induction targets with
  | nil => rfl
  | cons target targets ih =>
    have hnote : tracing.note source target = tracing := if_pos (h target List.mem_cons_self)
    have hstep : tracing.noteAll source (target :: targets) =
        (tracing.note source target).noteAll source targets := rfl
    rw [hstep, hnote, ih fun other hother => h other (List.mem_cons_of_mem target hother)]

/-- Noting the exits of a block that was not traced before queues all its targets. -/
theorem fresh_queue_noteAll (tracing : Tracing) {seen : List Label} (targets : List Label)
    (h : ∀ target, source ∈ tracing.sources target → target ∈ tracing.queue) :
    fresh seen (tracing.noteAll source targets).queue =
      fresh seen (tracing.queue ++ targets) := by
  induction targets generalizing tracing with
  | nil => rw [List.append_nil]; rfl
  | cons target targets ih =>
    have hstep : tracing.noteAll source (target :: targets) =
        (tracing.note source target).noteAll source targets := rfl
    rw [hstep]
    by_cases hmem : source ∈ tracing.sources target
    · have hnote : tracing.note source target = tracing := if_pos hmem
      rw [hnote, ih tracing h, fresh_append_cons targets (Or.inl (h target hmem))]
    · have hqueue : (tracing.note source target).queue = tracing.queue ++ [target] := by
        rw [note, if_neg hmem]
      rw [ih, hqueue, List.append_assoc, List.singleton_append]
      intro other hother
      rw [hqueue, List.mem_append, List.mem_singleton]
      rcases (mem_sources_note source target source other tracing).1 hother with ⟨-, rfl⟩ | hother
      · exact Or.inr rfl
      · exact Or.inl (h other hother)

/-! ## The search beside the exploration -/

/-- The search beside an exploration with the given queue that has seen the given labels: the exits
    of these are noted, and the same labels come up next. -/
structure Shadows (graph : StoryGraph κ) (queue seen : List Label) (tracing : Tracing) : Prop where
  queue_eq : fresh seen tracing.queue = fresh seen queue
  mem_sources : ∀ source target, source ∈ tracing.sources target ↔
    source ∈ seen ∧ graph.atlas.Leads source target
  mem_keys : ∀ label, label ∈ tracing.found.map Prod.fst ↔
    label = .entry ∨ ∃ source ∈ seen, graph.atlas.Leads source label
  sorted : tracing.Sorted

theorem sources_start (target : Label) : start.sources target = [] := by
  rw [sources, start, Table.lookup_cons_eq_ite]
  split <;> rfl

theorem shadows_start (graph : StoryGraph κ) : Shadows graph [.entry] [] start where
  queue_eq := rfl
  mem_sources := by simp [sources_start]
  mem_keys := by simp [start]
  sorted := by simp [Sorted, sources_start, Ascending]

variable {unseen : List (Block κ)} {queue seen rest : List Label} {label : Label}

theorem step_of_get? {block : Block κ} (hqueue : tracing.queue = label :: rest)
    (hblock : graph.atlas label = some block) :
    tracing.step graph =
      (block.next.find? fun target => (graph.get? target).isNone).elim
        (.ok ({ tracing with queue := rest }.noteAll label block.next))
        fun target => .error (.danglingEdge label target) := by
  have hget : graph.get? label = some block := hblock
  obtain rfl := (Atlas.label_of_eq_some hblock).2
  rw [step, hqueue]
  simp only [hget]
  exact follow_eq graph block _

/-- A block that has its turn again is passed over. -/
theorem Shadows.revisit (h : Shadows graph queue seen tracing)
    (hexplored : graph.Explored unseen queue seen) (hqueue : tracing.queue = label :: rest)
    (hlabel : label ∈ seen) :
    tracing.step graph = .ok { tracing with queue := rest } ∧
      Shadows graph queue seen { tracing with queue := rest } := by
  obtain ⟨block, hblock⟩ := Option.isSome_iff_exists.1 (hexplored.known label (Or.inl hlabel)).2
  have hleads : ∀ target ∈ block.next, graph.atlas.Leads label target := fun _ htarget =>
    ⟨block, hblock, htarget⟩
  have hfind : (block.next.find? fun target => (graph.get? target).isNone) = none := by
    refine List.find?_eq_none.2 fun target htarget => ?_
    have hclosed := hexplored.closed label hlabel target (hleads target htarget)
    have hsome : (graph.get? target).isSome := (hexplored.known target hclosed).2
    simpa [Option.isSome_iff_ne_none] using hsome
  refine ⟨?_, ?_, h.mem_sources, h.mem_keys, h.sorted⟩
  · rw [step_of_get? hqueue hblock, hfind]
    refine congrArg Except.ok (noteAll_of_mem_sources fun target htarget => ?_)
    exact (h.mem_sources label target).2 ⟨hlabel, hleads target htarget⟩
  · rw [← h.queue_eq, hqueue, fresh_cons_of_mem hlabel]

/-- A block that has its first turn is visited by both. -/
theorem Shadows.visit {block : Block κ} (h : Shadows graph (label :: queue) seen tracing)
    (hqueue : tracing.queue = label :: rest) (hlabel : label ∉ seen)
    (hblock : graph.atlas label = some block) :
    Shadows graph (queue ++ block.next) (label :: seen)
      ({ tracing with queue := rest }.noteAll label block.next) := by
  have hnew : ∀ target, label ∉ tracing.sources target := fun target hmem =>
    hlabel ((h.mem_sources label target).1 hmem).1
  have hleads : ∀ target, graph.atlas.Leads label target ↔ target ∈ block.next := by
    intro target
    constructor
    · rintro ⟨found, hfound, htarget⟩
      rw [hblock] at hfound
      cases hfound
      exact htarget
    · exact fun htarget => ⟨block, hblock, htarget⟩
  refine ⟨?_, ?_, ?_, ?_⟩
  · have hrest := h.queue_eq
    rw [hqueue, fresh_cons_of_not_mem hlabel, fresh_cons_of_not_mem hlabel] at hrest
    rw [fresh_queue_noteAll { tracing with queue := rest } block.next
      fun target hmem => absurd hmem (hnew target), fresh_append, fresh_append,
      (List.cons.inj hrest).2]
  · intro source target
    have hold : source ∈ Tracing.sources target { tracing with queue := rest } ↔ _ :=
      h.mem_sources source target
    rw [mem_sources_noteAll, hold, List.mem_cons, ← hleads]
    constructor
    · rintro (⟨rfl, htarget⟩ | ⟨hseen, htarget⟩)
      · exact ⟨Or.inl rfl, htarget⟩
      · exact ⟨Or.inr hseen, htarget⟩
    · rintro ⟨rfl | hseen, htarget⟩
      · exact Or.inl ⟨rfl, htarget⟩
      · exact Or.inr ⟨hseen, htarget⟩
  · intro target
    rw [mem_keys_noteAll, ← hleads]
    refine (or_congr_right (h.mem_keys target)).trans ?_
    simp only [List.mem_cons, exists_eq_or_imp]
    tauto
  · have hsorted : Sorted { tracing with queue := rest } := h.sorted
    exact hsorted.noteAll block.next

end Tracing

/-! ## The table -/

namespace StoryGraph

variable {graph : StoryGraph κ} {tracing : Tracing} {unseen : List (Block κ)}
  {queue seen : List Label}

/-- The given blocks by label, each with those of them that lead to it. -/
def incomingOf (blocks : List (Block κ)) : Incoming :=
  blocks.map fun block =>
    (block.label, (blocks.filter fun source => block.label ∈ source.next).map Block.label)

theorem lookup_incomingOf (blocks : List (Block κ)) (label : Label) :
    (incomingOf blocks).lookup label = if label ∈ blocks.map Block.label then
      some ((blocks.filter fun source => label ∈ source.next).map Block.label) else none := by
  unfold incomingOf
  generalize hsources : (fun label : Label =>
    (blocks.filter fun source => label ∈ source.next).map Block.label) = sources
  have hsources' : ∀ label : Label,
      (blocks.filter fun source => label ∈ source.next).map Block.label = sources label := by
    intro label
    rw [← hsources]
  simp only [hsources']
  clear hsources hsources'
  induction blocks with
  | nil => simp
  | cons block blocks ih =>
    rw [List.map_cons, Table.lookup_cons_eq_ite, ih, List.map_cons]
    by_cases hlabel : label = block.label <;> simp [hlabel]

theorem isSome_lookup_incomingOf (blocks : List (Block κ)) (label : Label) :
    ((incomingOf blocks).lookup label).isSome ↔ label ∈ blocks.map Block.label := by
  rw [Table.isSome_lookup_iff, incomingOf, List.map_map]
  rfl

/-- The labels of the blocks kept, where every label to keep has one. -/
theorem mem_labels_kept {kept : List Label} (h : ∀ label ∈ kept, (graph.atlas label).isSome)
    (label : Label) :
    label ∈ (graph.blocks.filter (·.label ∈ kept)).map Block.label ↔ label ∈ kept := by
  rw [← Atlas.isSome_of_iff, Atlas.of_filter graph.blocks (· ∈ kept)]
  by_cases hlabel : label ∈ kept
  · simpa [hlabel] using h label hlabel
  · simp [hlabel]

theorem mem_sources_kept {kept : List Label} {source target : Label} :
    source ∈ ((graph.blocks.filter (·.label ∈ kept)).filter
      fun block => target ∈ block.next).map Block.label ↔
        source ∈ kept ∧ graph.atlas.Leads source target := by
  constructor
  · intro hsource
    obtain ⟨block, hblock, rfl⟩ := List.mem_map.1 hsource
    obtain ⟨hblock, htarget⟩ := List.mem_filter.1 hblock
    obtain ⟨hmem, hkept⟩ := List.mem_filter.1 hblock
    refine ⟨of_decide_eq_true hkept, block, ?_, of_decide_eq_true htarget⟩
    exact (Atlas.of_eq_some_iff graph.nodup_labels).2 ⟨hmem, rfl⟩
  · rintro ⟨hkept, block, hblock, htarget⟩
    obtain ⟨hmem, rfl⟩ := Atlas.label_of_eq_some hblock
    exact List.mem_map_of_mem (List.mem_filter.2
      ⟨List.mem_filter.2 ⟨hmem, decide_eq_true hkept⟩, decide_eq_true htarget⟩)

/-- When nothing new is queued, the search has found the table of the blocks in reach. -/
theorem found_eq (hshadows : tracing.Shadows graph queue seen)
    (hexplored : graph.Explored unseen queue seen) (hqueue : ∀ label ∈ queue, label ∈ seen) :
    tracing.found = incomingOf (graph.blocks.filter (·.label ∈ seen)) := by
  have hreach := hexplored.mem_iff hqueue
  have hkept : Ascending Block.label (graph.blocks.filter (·.label ∈ seen)) :=
    graph.ascending.sublist List.filter_sublist
  have hlabels := mem_labels_kept fun label hlabel => (hexplored.known label (Or.inl hlabel)).2
  have hkeys : ∀ label, label ∈ tracing.found.map Prod.fst ↔ label ∈ seen := by
    intro label
    rw [hshadows.mem_keys, hreach]
    constructor
    · rintro (rfl | ⟨source, hsource, hleads⟩)
      · exact .refl
      · exact ((hreach source).1 hsource).tail hleads
    · intro hlabel
      rcases hlabel.cases_tail with rfl | ⟨source, hsource, hleads⟩
      · exact Or.inl rfl
      · exact Or.inr ⟨source, (hreach source).2 hsource, hleads⟩
  refine tracing.ascending.eq_of_lookup ?_ fun label => ?_
  · exact List.pairwise_map.2 hkept
  · rw [lookup_incomingOf]
    simp only [hlabels]
    split
    · rename_i hlabel
      obtain ⟨entry, hentry, rfl⟩ := List.mem_map.1 ((hkeys label).2 hlabel)
      have hlookup := tracing.ascending.lookup_eq_some_iff.2 hentry
      have hsources : tracing.sources entry.1 = entry.2 := by
        rw [Tracing.sources, hlookup, Option.getD_some]
      rw [hlookup, Option.some.injEq, ← hsources]
      refine (hshadows.sorted entry.1).ext
        (List.pairwise_map.2 (hkept.sublist List.filter_sublist)) fun source => ?_
      rw [hshadows.mem_sources, mem_sources_kept]
    · rename_i hlabel
      rw [← Option.not_isSome_iff_eq_none, Table.isSome_lookup_iff, hkeys]
      exact hlabel

/-- When a block has its first turn, the exploration visits it next. -/
theorem exists_visit {label : Label} {rest : List Label}
    (hshadows : tracing.Shadows graph queue seen) (hexplored : graph.Explored unseen queue seen)
    (hqueue : tracing.queue = label :: rest) (hlabel : label ∉ seen) :
    ∃ block more, graph.atlas label = some block ∧
      unseen.find? (·.label = label) = some block ∧
      graph.Explored unseen (label :: more) seen ∧ tracing.Shadows graph (label :: more) seen ∧
      graph.explore unseen queue seen = graph.explore unseen (label :: more) seen := by
  have hfresh := hshadows.queue_eq
  rw [hqueue, fresh_cons_of_not_mem hlabel] at hfresh
  obtain ⟨more, hmore, hrest, heq⟩ := hexplored.explore_eq_explore hfresh.symm
  obtain ⟨block, hblock⟩ := Option.isSome_iff_exists.1 (hmore.known label (by simp)).2
  refine ⟨block, more, hblock, hmore.find?_eq_some hlabel hblock, hmore, ?_, heq⟩
  refine ⟨?_, hshadows.mem_sources, hshadows.mem_keys, hshadows.sorted⟩
  rw [hqueue, fresh_cons_of_not_mem hlabel, fresh_cons_of_not_mem hlabel, hrest]

/-- The search finds what the exploration does, and fails as it does. -/
theorem run_eq (hshadows : tracing.Shadows graph queue seen)
    (hexplored : graph.Explored unseen queue seen) :
    (tracing.run graph).map Tracing.found = (graph.explore unseen queue seen).map fun reached =>
      incomingOf (graph.blocks.filter (·.label ∈ reached)) := by
  fun_induction Tracing.run graph tracing generalizing unseen queue seen with
  | case1 tracing hqueue =>
    have hfresh : fresh seen queue = [] := by
      rw [← hshadows.queue_eq, hqueue]
      rfl
    have hall : ∀ label ∈ queue, label ∈ seen := by
      intro label hlabel
      by_contra hnot
      have hmem := mem_fresh.2 ⟨hlabel, hnot⟩
      rw [hfresh] at hmem
      cases hmem
    rw [hexplored.explore_eq_ok hfresh]
    simpa [Except.map] using found_eq hshadows hexplored hall
  | case2 tracing label rest hqueue fault hstep =>
    by_cases hlabel : label ∈ seen
    · rw [(hshadows.revisit hexplored hqueue hlabel).1] at hstep
      cases hstep
    · obtain ⟨block, more, hblock, hfind, -, -, heq⟩ :=
        exists_visit hshadows hexplored hqueue hlabel
      rw [Tracing.step_of_get? hqueue hblock] at hstep
      rw [heq, explore_some hfind]
      cases htarget : block.next.find? fun target => (graph.get? target).isNone with
      | none =>
        rw [htarget] at hstep
        cases hstep
      | some target =>
        rw [htarget] at hstep
        cases hstep
        rfl
  | case3 tracing label rest hqueue after hstep ih =>
    by_cases hlabel : label ∈ seen
    · obtain ⟨hskip, hshadows⟩ := hshadows.revisit hexplored hqueue hlabel
      rw [hskip] at hstep
      cases hstep
      exact ih hshadows hexplored
    · obtain ⟨block, more, hblock, hfind, hexplored, hshadows, heq⟩ :=
        exists_visit hshadows hexplored hqueue hlabel
      rw [Tracing.step_of_get? hqueue hblock] at hstep
      rw [heq, explore_some hfind]
      cases htarget : block.next.find? fun target => (graph.get? target).isNone with
      | none =>
        rw [htarget] at hstep
        cases hstep
        refine ih (hshadows.visit hqueue hlabel hblock) (hexplored.visit hfind fun target hnext => ?_)
        have hnot := List.find?_eq_none.1 htarget target hnext
        simpa [get?, Atlas.of] using hnot
      | some target =>
        rw [htarget] at hstep
        cases hstep

/-- The table holds the blocks that the exploration visits. -/
theorem incoming_eq (graph : StoryGraph κ) :
    graph.incoming = do
      let reached ← graph.reachable
      return incomingOf (graph.blocks.filter (·.label ∈ reached)) := by
  have hrun := run_eq (Tracing.shadows_start graph) graph.explored_start
  rw [incoming, reachable]
  cases hexplore : graph.explore graph.blocks [.entry] [] <;> rw [hexplore] at hrun <;> exact hrun

theorem incoming_eq_ok {incoming : Incoming} (h : graph.incoming = .ok incoming) :
    ∃ reached, graph.reachable = .ok reached ∧
      incoming = incomingOf (graph.blocks.filter (·.label ∈ reached)) := by
  rw [incoming_eq] at h
  obtain ⟨reached, hreached, hincoming⟩ := bind_eq_ok.1 h
  cases hincoming
  exact ⟨reached, hreached, rfl⟩

theorem incoming_eq_error_iff {fault : Fault κ} :
    graph.incoming = .error fault ↔ graph.reachable = .error fault := by
  rw [incoming_eq, bind_eq_error]
  refine ⟨?_, Or.inl⟩
  rintro (h | ⟨reached, -, h⟩)
  · exact h
  · cases h

end StoryGraph

/-! ## The turns of the search -/

namespace Tracing

variable {graph other : StoryGraph κ} {tracing : Tracing} {source label : Label}
  {rest : List Label}

/-- The search leads to a result in the given number of turns: a turn is taken while the queue holds
    a label, and one that fails is the last. -/
inductive Loops (graph : StoryGraph κ) :
    (turns : Nat) → Tracing → Except (Fault κ) Tracing → Prop
  | done {tracing : Tracing} (hqueue : tracing.queue = []) : Loops graph 0 tracing (.ok tracing)
  | fail {tracing : Tracing} {fault : Fault κ} (hqueue : tracing.queue ≠ [])
      (hstep : tracing.step graph = .error fault) : Loops graph 1 tracing (.error fault)
  | turn {turns : Nat} {tracing after : Tracing} {result : Except (Fault κ) Tracing}
      (hqueue : tracing.queue ≠ []) (hstep : tracing.step graph = .ok after)
      (hrest : Loops graph turns after result) : Loops graph (turns + 1) tracing result

/-- Every turn takes from what is left to do. -/
theorem exists_loops (graph : StoryGraph κ) (tracing : Tracing) :
    ∃ turns ≤ size graph tracing, Loops graph turns tracing (tracing.run graph) := by
  fun_induction run graph tracing with
  | case1 tracing hqueue => exact ⟨0, Nat.zero_le _, .done hqueue⟩
  | case2 tracing label rest hqueue fault hstep =>
    refine ⟨1, ?_, .fail (by simp [hqueue]) hstep⟩
    rw [size, hqueue, List.length_cons]
    omega
  | case3 tracing label rest hqueue after hstep ih =>
    obtain ⟨turns, hturns, hloops⟩ := ih
    have hlt := size_step_lt hqueue hstep
    exact ⟨turns + 1, by omega, .turn (by simp [hqueue]) hstep hloops⟩

theorem size_start (graph : StoryGraph κ) : size graph start = graph.exits.length + 1 := by
  have hqueue : start.queue.length = 1 := rfl
  simp [size, missing, sources_start, hqueue]

theorem run_of_queue (hqueue : tracing.queue = label :: rest) :
    tracing.run graph = tracing.step graph >>= run graph := by
  rw [run]
  split
  · rename_i hnil
    rw [hqueue] at hnil
    cases hnil
  · split
    · rename_i hstep
      rw [hstep]
      rfl
    · rename_i hstep
      rw [hstep]
      rfl

theorem mem_queue_noteAll {targets : List Label}
    (h : label ∈ (tracing.noteAll source targets).queue) :
    label ∈ tracing.queue ∨ label ∈ targets := by
  induction targets generalizing tracing with
  | nil => exact Or.inl h
  | cons target targets ih =>
    rcases @ih (tracing.note source target) h with hqueue | htargets
    · unfold note at hqueue
      split at hqueue
      · exact Or.inl hqueue
      · simpa [or_assoc] using Or.inl hqueue
    · exact Or.inr (List.mem_cons_of_mem target htargets)

/-- A turn looks at labels in reach only, and queues no others. -/
theorem step_congr
    (hagree : ∀ label, graph.atlas.Reaches .entry label → other.atlas label = graph.atlas label)
    (hreach : ∀ label ∈ tracing.queue, graph.atlas.Reaches .entry label)
    (hqueue : tracing.queue = label :: rest) :
    tracing.step other = tracing.step graph ∧
      ∀ after, tracing.step graph = .ok after →
        ∀ label ∈ after.queue, graph.atlas.Reaches .entry label := by
  rw [hqueue] at hreach
  have hlabel := hreach label List.mem_cons_self
  have hrest : ∀ other ∈ rest, graph.atlas.Reaches .entry other := fun other hother =>
    hreach other (List.mem_cons_of_mem label hother)
  cases hblock : graph.atlas label with
  | none =>
    have hget : graph.get? label = none := hblock
    have hget' : other.get? label = none := (hagree label hlabel).trans hblock
    refine ⟨by simp only [step, hqueue, hget, hget'], ?_⟩
    intro after hafter
    simp only [step, hqueue, hget] at hafter
    cases hafter
    exact hrest
  | some block =>
    have htarget : ∀ target ∈ block.next, graph.atlas.Reaches .entry target := fun target hnext =>
      hlabel.tail ⟨block, hblock, hnext⟩
    have hfind : (block.next.find? fun target => (other.get? target).isNone) =
        block.next.find? fun target => (graph.get? target).isNone :=
      List.find?_congr fun target hnext =>
        congrArg Option.isNone (hagree target (htarget target hnext))
    rw [step_of_get? hqueue ((hagree label hlabel).trans hblock), step_of_get? hqueue hblock, hfind]
    refine ⟨rfl, ?_⟩
    intro after hafter
    cases hdangling : block.next.find? fun target => (graph.get? target).isNone with
    | none =>
      rw [hdangling] at hafter
      cases hafter
      intro label hmem
      exact (mem_queue_noteAll hmem).elim (hrest label) (htarget label)
    | some target =>
      rw [hdangling] at hafter
      cases hafter

/-- The search depends only on the blocks in reach. -/
theorem run_congr
    (hagree : ∀ label, graph.atlas.Reaches .entry label → other.atlas label = graph.atlas label)
    (hreach : ∀ label ∈ tracing.queue, graph.atlas.Reaches .entry label) :
    tracing.run other = tracing.run graph := by
  fun_induction run graph tracing with
  | case1 tracing hqueue =>
    rw [run]
    split
    · rfl
    · rename_i hcons
      rw [hqueue] at hcons
      cases hcons
  | case2 tracing label rest hqueue fault hstep =>
    rw [run_of_queue hqueue, (step_congr hagree hreach hqueue).1, hstep]
    rfl
  | case3 tracing label rest hqueue after hstep ih =>
    obtain ⟨heq, hafter⟩ := step_congr hagree hreach hqueue
    rw [run_of_queue hqueue, heq, hstep]
    exact ih (hafter after hstep)

end Tracing

namespace StoryGraph

variable {graph : StoryGraph κ}

/-- What the table of a story holds. -/
theorem mem_incoming {incoming : Incoming} (h : graph.incoming = .ok incoming) :
    Ascending Prod.fst incoming ∧
      (∀ label, label ∈ incoming.map Prod.fst ↔ graph.atlas.Reaches .entry label) ∧
      ∀ entry ∈ incoming, Ascending id entry.2 ∧ ∀ source,
        source ∈ entry.2 ↔
          graph.atlas.Reaches .entry source ∧ graph.atlas.Leads source entry.1 := by
  obtain ⟨reached, hreached, rfl⟩ := incoming_eq_ok h
  have hkept : Ascending Block.label (graph.blocks.filter (·.label ∈ reached)) :=
    graph.ascending.sublist List.filter_sublist
  have hlabels := mem_labels_kept fun label hlabel =>
    isSome_of_reachable hreached ((mem_reachable_iff hreached label).1 hlabel)
  have hkeys : (incomingOf (graph.blocks.filter (·.label ∈ reached))).map Prod.fst =
      (graph.blocks.filter (·.label ∈ reached)).map Block.label := by
    rw [incomingOf, List.map_map]
    rfl
  refine ⟨List.pairwise_map.2 hkept, fun label => ?_, fun entry hentry => ?_⟩
  · rw [hkeys, hlabels, mem_reachable_iff hreached]
  · obtain ⟨block, -, rfl⟩ := List.mem_map.1 hentry
    refine ⟨List.pairwise_map.2 (hkept.sublist List.filter_sublist), fun source => ?_⟩
    rw [mem_sources_kept, mem_reachable_iff hreached]

/-- **The table of what leads to what is exact.** For every story the search takes at most one turn
    for each exit of a block, and one for the entry. It fails exactly if a block in reach of the
    entry has an exit that leads nowhere, and then the fault names such a block and such an exit.
    Otherwise the labels of the table are those in reach, and the labels listed for each of them are
    those of the blocks in reach that lead to it; none is listed twice. A story in which the same
    blocks are in reach has the same table, or the same fault, whatever its other blocks are. -/
theorem incoming_exact (graph : StoryGraph κ) :
    (∃ turns ≤ graph.exits.length + 1, ∃ result, Tracing.Loops graph turns .start result ∧
      graph.incoming = result.map Tracing.found) ∧
    ((∃ fault, graph.incoming = .error fault) ↔ ∃ source target,
      graph.atlas.Reaches .entry source ∧ graph.atlas.Leads source target ∧
        graph.atlas target = none) ∧
    (∀ fault, graph.incoming = .error fault → ∃ source target,
      fault = .danglingEdge source target ∧ graph.atlas.Reaches .entry source ∧
        graph.atlas.Leads source target ∧ graph.atlas target = none) ∧
    (∀ incoming, graph.incoming = .ok incoming →
      (incoming.map Prod.fst).Nodup ∧
      (∀ label, label ∈ incoming.map Prod.fst ↔ graph.atlas.Reaches .entry label) ∧
      ∀ entry ∈ incoming, entry.2.Nodup ∧ ∀ source,
        source ∈ entry.2 ↔
          graph.atlas.Reaches .entry source ∧ graph.atlas.Leads source entry.1) ∧
    ∀ other : StoryGraph κ,
      (∀ label, graph.atlas.Reaches .entry label → other.atlas label = graph.atlas label) →
        other.incoming = graph.incoming := by
  refine ⟨?_, ?_, ?_, ?_, ?_⟩
  · obtain ⟨turns, hturns, hloops⟩ := Tracing.exists_loops graph .start
    rw [Tracing.size_start] at hturns
    refine ⟨turns, hturns, _, hloops, ?_⟩
    rw [incoming]
    cases Tracing.start.run graph <;> rfl
  · constructor
    · rintro ⟨fault, h⟩
      obtain ⟨source, target, -, hdangling⟩ := reachable_eq_error (incoming_eq_error_iff.1 h)
      exact ⟨source, target, hdangling⟩
    · rintro ⟨source, target, hreach, hleads, hnone⟩
      cases hrun : graph.incoming with
      | error fault => exact ⟨fault, rfl⟩
      | ok incoming =>
        obtain ⟨reached, hreached, -⟩ := incoming_eq_ok hrun
        have hsome := isSome_of_reachable hreached (hreach.tail hleads)
        rw [hnone] at hsome
        cases hsome
  · intro fault h
    exact reachable_eq_error (incoming_eq_error_iff.1 h)
  · intro incoming h
    obtain ⟨hascending, hkeys, hsources⟩ := mem_incoming h
    refine ⟨hascending.nodup, hkeys, fun entry hentry => ?_⟩
    obtain ⟨hsorted, hmem⟩ := hsources entry hentry
    exact ⟨by simpa using hsorted.nodup, hmem⟩
  · intro other hagree
    have hrun : Tracing.start.run other = Tracing.start.run graph := by
      refine Tracing.run_congr hagree fun label hlabel => ?_
      rw [List.mem_singleton.1 hlabel]
      exact .refl
    rw [incoming, incoming, hrun]

/-- A maze: the gate leads to the hall twice and back to itself, the hall to itself and to the
    tower, and the tower back to the gate. -/
def mazeBlocks : List (Block ℕ) :=
  [{ label := .entry, next := [.named "hall", .named "hall", .entry] },
   { label := .named "hall", next := [.named "tower", .named "hall"] },
   { label := .named "tower", next := [.entry] }]

/-- A dungeon that nothing in the maze leads to. Its own exit leads nowhere. -/
def dungeon : Block ℕ := { label := .named "dungeon", next := [.named "river"] }

/-- The dungeon changes nothing in the table of the maze. A maze whose hall leads to the dungeon has
    no table. -/
theorem incoming_maze :
    (ofBlocks mazeBlocks).incoming = .ok
      [(.entry, [.entry, .named "tower"]), (.named "hall", [.entry, .named "hall"]),
        (.named "tower", [.named "hall"])] ∧
    (ofBlocks (dungeon :: mazeBlocks)).incoming = (ofBlocks mazeBlocks).incoming ∧
    ∃ fault, (ofBlocks (dungeon :: mazeBlocks ++
      [{ label := .named "hall", next := [.named "dungeon"] }])).incoming = .error fault := by
  refine ⟨by cbv, ?_, ?_⟩
  · refine (incoming_exact (ofBlocks mazeBlocks)).2.2.2.2 _ fun label hlabel => ?_
    have hreached : (ofBlocks mazeBlocks).reachable =
        .ok [.entry, .named "hall", .named "tower"] := by cbv
    have hmem := (mem_reachable_iff hreached label).2 hlabel
    simp only [List.mem_cons, List.not_mem_nil, or_false] at hmem
    rcases hmem with rfl | rfl | rfl <;> cbv
  · refine (incoming_exact _).2.1.2 ⟨.named "dungeon", .named "river", ?_, ?_, by cbv⟩
    · exact (ReflTransGen.refl.tail ⟨_, rfl, List.mem_cons_self⟩).tail
        ⟨_, rfl, List.mem_cons_self⟩
    · exact ⟨_, rfl, List.mem_cons_self⟩

end StoryGraph

end Playthrough
