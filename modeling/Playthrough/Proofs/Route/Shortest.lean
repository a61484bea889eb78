import Playthrough.Proofs.Route.Basic
import Playthrough.Route.Shortest

/-!
# The shortest route

The search never loses what it needs: every known time is that of a path, every hop is part of the
way to an earlier time, and a block that is not in the queue has passed its time on to its exits.
When the queue is empty nothing can improve, so the known times are the least ones and the hops
spell a path that takes exactly the time of the best ending.

The queue does run empty. It holds the blocks of the present round and those of the next one. After
as many rounds as a path can have steps all least times are known, since a path that takes the least
time need not pass a block twice.

* `TimePasses`: all that is asked of the times. The search asks no more of their order than that any
  two times compare; only exact totals need that times which compare equal are the same.
* `Search.Visited`: what looking at one block changes.
* `Search.Inv`: what the search knows between two steps.
* `Search.Round`: how far it has come.
* `search_spec`: the search ends, and with what.
* `isLeast_shortest`: the shortest route of a reduced story.
-/

namespace Playthrough

open Relation

variable {κ : Type}

/-- The story can end in the block with a label. -/
def Atlas.Ends (atlas : Atlas κ) (label : Label) : Prop :=
  ∃ block, atlas label = some block ∧ block.Stops false

/-! ## Times of paths -/

namespace CostedGraph

variable [Zero κ] [Add κ] {graph : CostedGraph κ}

/-- The time that the blocks of a path take, one after the other. -/
def arrival (graph : CostedGraph κ) (path : List Label) : κ :=
  path.foldl (fun time label => time + graph.time label) 0

@[simp] theorem arrival_concat (graph : CostedGraph κ) (path : List Label) (label : Label) :
    graph.arrival (path ++ [label]) = graph.arrival path + graph.time label := by
  simp [arrival]

/-- No block takes the player back in time, and who is ahead of another stays so. -/
structure TimePasses [LE κ] (graph : CostedGraph κ) : Prop where
  le_add : ∀ (label : Label) (time : κ), time ≤ time + graph.time label
  add_le_add : ∀ (label : Label) (early late : κ), early ≤ late →
    early + graph.time label ≤ late + graph.time label

variable [Preorder κ]

theorem TimePasses.arrival_le_append (h : graph.TimePasses) (front back : List Label) :
    graph.arrival front ≤ graph.arrival (front ++ back) := by
  induction back using List.reverseRecOn with
  | nil => rw [List.append_nil]
  | append_singleton back label ih =>
    rw [← List.append_assoc, arrival_concat]
    exact ih.trans (h.le_add label _)

theorem TimePasses.arrival_nonneg (h : graph.TimePasses) (path : List Label) :
    0 ≤ graph.arrival path :=
  h.arrival_le_append [] path

/-- Leaving out the loops of a path costs no time. -/
theorem TimePasses.exists_simple (h : graph.TimePasses) {label : Label} {front : List Label}
    (hpath : Path graph.atlas.Leads .entry label (front ++ [label])) :
    ∃ simple, Path graph.atlas.Leads .entry label (simple ++ [label]) ∧
      (simple ++ [label]).Nodup ∧ graph.arrival simple ≤ graph.arrival front := by
  induction front using List.reverseRecOn generalizing label with
  | nil => exact ⟨[], hpath, by simp, le_rfl⟩
  | append_singleton front last ih =>
    rcases hpath.cases_snoc with ⟨heq, -⟩ | ⟨previous, front', heq, hfront, hleads⟩
    · have hlength := congrArg List.length heq
      simp at hlength
    · obtain rfl : front ++ [last] = front' := List.append_cancel_right heq
      obtain rfl : last = previous := by simpa using hfront.ends
      obtain ⟨simple, hsimple, hnodup, hle⟩ := ih hfront
      have hle' : graph.arrival (simple ++ [last]) ≤ graph.arrival (front ++ [last]) := by
        rw [arrival_concat, arrival_concat]
        exact h.add_le_add last _ _ hle
      by_cases hmem : label ∈ simple ++ [last]
      · -- the path has been here before: stop there
        obtain ⟨before, after, hsplit⟩ := List.append_of_mem hmem
        rw [hsplit] at hsimple hnodup hle'
        refine ⟨before, hsimple.upTo, ?_, (h.arrival_le_append before _).trans hle'⟩
        rw [List.append_cons] at hnodup
        exact (List.nodup_append.1 hnodup).1
      · refine ⟨simple ++ [last], hsimple.snoc hleads, ?_, hle'⟩
        refine List.nodup_append.2 ⟨hnodup, List.nodup_singleton label, ?_⟩
        rintro x hx _ hlabel rfl
        exact hmem (List.mem_singleton.1 hlabel ▸ hx)

omit [Zero κ] [Add κ] [Preorder κ] in
/-- A path without repetition has no more points than there are blocks. -/
theorem Trim.length_le_size (h : graph.Trim) {label : Label} {path : List Label}
    (hpath : Path graph.atlas.Leads .entry label path) (hnodup : path.Nodup) :
    path.length ≤ graph.size := by
  have hsub : path ⊆ graph.labels := by
    intro x hx
    exact h.mem_labels_iff_reaches.2 (hpath.reach_of_mem hx).1
  have hlength := (hnodup.subperm hsub).length_le
  rwa [labels, List.length_map] at hlength

end CostedGraph

/-! ## What one step changes -/

/-- Times are comparable, so what is not earlier is at least as late. -/
theorem le_of_not_lt [Preorder κ] [@Std.Total κ (· ≤ ·)] {early late : κ} (h : ¬ late < early) :
    early ≤ late := by
  by_contra hle
  exact h (lt_of_le_not_ge (Std.Total.rel_of_not_rel_swap hle) hle)

namespace Search

variable [Preorder κ]

/-- What is known of a block stays. -/
def Same (before after : Search κ) (label : Label) : Prop :=
  after.distances.lookup label = before.distances.lookup label ∧
    after.hops.lookup label = before.hops.lookup label

/-- A block is now reached earlier, from `source`. -/
structure Sooner (source : Label) (time : κ) (before after : Search κ) (label : Label) :
    Prop where
  distance : after.distances.lookup label = some time
  hop : after.hops.lookup label = some source
  lt : ∀ known, before.distances.lookup label = some known → time < known
  queued : label ∈ after.queue

/-- What arriving at each of the given blocks changes. -/
structure Arrived (source : Label) (time : κ) (targets : List Label) (before after : Search κ) :
    Prop where
  best_eq : after.best = before.best
  changes : ∀ label, Same before after label ∨
    label ∈ targets ∧ Sooner source time before after label
  reached : ∀ label ∈ targets, ∃ known, after.distances.lookup label = some known ∧ known ≤ time
  queue : ∃ added, after.queue = before.queue ++ added ∧
    ∀ label ∈ added, Sooner source time before after label
  nodup : before.queue.Nodup → after.queue.Nodup

theorem arrive_cases [@Std.Total κ (· ≤ ·)] [DecidableLE κ] (source : Label) (time : κ)
    (search : Search κ) (target : Label) :
    (∃ known, search.distances.lookup target = some known ∧ known ≤ time ∧
      search.arrive source time target = search) ∨
    ((∀ known, search.distances.lookup target = some known → time < known) ∧
      search.arrive source time target =
        { search with
          distances := Table.set target time search.distances
          hops := Table.set target source search.hops
          queue := if target ∈ search.queue then search.queue
            else search.queue ++ [target] }) := by
  unfold arrive
  cases hlookup : search.distances.lookup target with
  | none => simp
  | some known =>
    by_cases hle : known ≤ time
    · simp [hle]
    · simp only [hle, if_false]
      refine Or.inr ⟨?_, trivial⟩
      intro other hother
      cases hother
      exact lt_of_le_not_ge (Std.Total.rel_of_not_rel_swap hle) hle

theorem arrived_nil (source : Label) (time : κ) (search : Search κ) :
    Arrived source time [] search search :=
  ⟨rfl, fun _ => Or.inl ⟨rfl, rfl⟩, by simp, ⟨[], by simp⟩, id⟩

theorem arrived_arrive [@Std.Total κ (· ≤ ·)] [DecidableLE κ] (source : Label) (time : κ)
    (search : Search κ) (target : Label) :
    Arrived source time [target] search (search.arrive source time target) := by
  rcases arrive_cases source time search target with ⟨known, hknown, hle, h⟩ | ⟨hlt, h⟩
  · rw [h]
    refine ⟨rfl, fun _ => Or.inl ⟨rfl, rfl⟩, ?_, ⟨[], by simp⟩, id⟩
    intro label hlabel
    obtain rfl := List.mem_singleton.1 hlabel
    exact ⟨known, hknown, hle⟩
  · have hsooner : Sooner source time search (search.arrive source time target) target := by
      rw [h]
      refine ⟨by simp [Table.lookup_set], by simp [Table.lookup_set], hlt, ?_⟩
      by_cases hmem : target ∈ search.queue <;> simp [hmem]
    refine ⟨by rw [h], ?_, ?_, ?_, ?_⟩
    · intro label
      by_cases hlabel : label = target
      · subst hlabel
        exact Or.inr ⟨List.mem_singleton_self label, hsooner⟩
      · rw [h]
        exact Or.inl ⟨by simp [Table.lookup_set, hlabel], by simp [Table.lookup_set, hlabel]⟩
    · intro label hlabel
      obtain rfl := List.mem_singleton.1 hlabel
      exact ⟨time, hsooner.distance, le_rfl⟩
    · by_cases hmem : target ∈ search.queue
      · exact ⟨[], by simp [h, hmem], by simp⟩
      · exact ⟨[target], by simp [h, hmem], by simpa using hsooner⟩
    · intro hnodup
      rw [h]
      by_cases hmem : target ∈ search.queue
      · simpa [hmem] using hnodup
      · simp only [hmem, if_false]
        refine List.nodup_append.2 ⟨hnodup, List.nodup_singleton target, ?_⟩
        rintro x hx _ htarget rfl
        exact hmem (List.mem_singleton.1 htarget ▸ hx)

theorem Arrived.subset {source : Label} {time : κ} {targets : List Label}
    {before after : Search κ} (h : Arrived source time targets before after) :
    before.queue ⊆ after.queue := by
  obtain ⟨added, heq, -⟩ := h.queue
  rw [heq]
  exact List.subset_append_left _ _

/-- A block that is reached sooner stays so for the rest of the step. -/
theorem Sooner.trans_arrived {source : Label} {time : κ} {targets : List Label}
    {before middle after : Search κ} {label : Label}
    (h : Sooner source time before middle label) (h' : Arrived source time targets middle after) :
    Sooner source time before after label := by
  rcases h'.changes label with ⟨hdistance, hhop⟩ | ⟨-, hsooner⟩
  · exact ⟨hdistance.trans h.distance, hhop.trans h.hop, h.lt, h'.subset h.queued⟩
  · exact ⟨hsooner.distance, hsooner.hop, h.lt, hsooner.queued⟩

/-- A block that is reached sooner later in the step was not reached sooner before. -/
theorem Sooner.of_arrived {source : Label} {time : κ} {targets : List Label}
    {before middle after : Search κ} {label : Label}
    (h : Arrived source time targets before middle) (h' : Sooner source time middle after label) :
    Sooner source time before after label := by
  refine ⟨h'.distance, h'.hop, ?_, h'.queued⟩
  rcases h.changes label with ⟨hdistance, -⟩ | ⟨-, hsooner⟩
  · rw [← hdistance]
    exact h'.lt
  · exact hsooner.lt

theorem Arrived.trans {source : Label} {time : κ} {first second : List Label}
    {before middle after : Search κ} (h : Arrived source time first before middle)
    (h' : Arrived source time second middle after) :
    Arrived source time (first ++ second) before after := by
  refine ⟨h'.best_eq.trans h.best_eq, ?_, ?_, ?_, fun hnodup => h'.nodup (h.nodup hnodup)⟩
  · intro label
    rcases h'.changes label with hsame' | ⟨hmem, hsooner⟩
    · rcases h.changes label with hsame | ⟨hmem, hsooner⟩
      · exact Or.inl ⟨hsame'.1.trans hsame.1, hsame'.2.trans hsame.2⟩
      · exact Or.inr ⟨List.mem_append_left _ hmem, hsooner.trans_arrived h'⟩
    · exact Or.inr ⟨List.mem_append_right _ hmem, .of_arrived h hsooner⟩
  · intro label hlabel
    rcases List.mem_append.1 hlabel with hlabel | hlabel
    · obtain ⟨known, hknown, hle⟩ := h.reached label hlabel
      rcases h'.changes label with hsame | ⟨-, hsooner⟩
      · exact ⟨known, hsame.1.trans hknown, hle⟩
      · exact ⟨time, hsooner.distance, le_rfl⟩
    · exact h'.reached label hlabel
  · obtain ⟨added, heq, hadded⟩ := h.queue
    obtain ⟨added', heq', hadded'⟩ := h'.queue
    refine ⟨added ++ added', by rw [heq', heq, List.append_assoc], ?_⟩
    intro label hlabel
    rcases List.mem_append.1 hlabel with hlabel | hlabel
    · exact (hadded label hlabel).trans_arrived h'
    · exact .of_arrived h (hadded' label hlabel)

theorem arrived_foldl [@Std.Total κ (· ≤ ·)] [DecidableLE κ] (source : Label) (time : κ)
    (targets : List Label) (search : Search κ) :
    Arrived source time targets search (targets.foldl (arrive source time) search) := by
  induction targets generalizing search with
  | nil => exact arrived_nil source time search
  | cons target targets ih =>
    exact (arrived_arrive source time search target).trans (ih (search.arrive source time target))

/-- The best ending after another ending was found. -/
structure Finished (label : Label) (time : κ) (before after : Option (κ × Label)) : Prop where
  source : ∀ least last, after = some (least, last) →
    before = some (least, last) ∨ least = time ∧ last = label
  kept : ∀ old other, before = some (old, other) →
    ∃ least last, after = some (least, last) ∧ least ≤ old
  here : ∃ least last, after = some (least, last) ∧ least ≤ time

theorem finishAt_eq [DecidableLT κ] (label : Label) (time : κ) (search : Search κ) :
    search.finishAt label time =
      { search with best := (search.finishAt label time).best } := by
  unfold finishAt
  cases search.best with
  | none => rfl
  | some best => by_cases hlt : time < best.1 <;> simp [hlt]

theorem finished_finishAt [@Std.Total κ (· ≤ ·)] [DecidableLT κ] (label : Label) (time : κ)
    (search : Search κ) :
    Finished label time search.best (search.finishAt label time).best := by
  unfold finishAt
  cases hbest : search.best with
  | none => exact ⟨by simp, by simp, time, label, rfl, le_rfl⟩
  | some best =>
    obtain ⟨least, last⟩ := best
    by_cases hlt : time < least
    · simp only [hlt, if_true]
      refine ⟨?_, ?_, time, label, rfl, le_rfl⟩
      · rintro _ _ ⟨⟩
        exact Or.inr ⟨rfl, rfl⟩
      · rintro _ _ ⟨⟩
        exact ⟨time, label, rfl, hlt.le⟩
    · simp only [hlt, if_false, hbest]
      refine ⟨fun _ _ h => Or.inl h, ?_, least, last, rfl, le_of_not_lt hlt⟩
      rintro _ _ ⟨⟩
      exact ⟨least, last, rfl, le_rfl⟩

variable [Zero κ] [Add κ] {graph : CostedGraph κ} {before after search : Search κ}
variable {label : Label} {distance : κ} {rest : List Label}

/-- What looking at the first block of the queue changes, where `distance` is its time and `rest`
    the queue behind it. -/
structure Visited (graph : CostedGraph κ) (label : Label) (distance : κ) (rest : List Label)
    (before after : Search κ) : Prop where
  changes : ∀ other, Same before after other ∨ graph.atlas.Leads label other ∧
    Sooner label (distance + graph.time label) before after other
  reached : ∀ other, graph.atlas.Leads label other → ∃ known,
    after.distances.lookup other = some known ∧ known ≤ distance + graph.time label
  queue : ∃ added, after.queue = rest ++ added ∧
    ∀ other ∈ added, Sooner label (distance + graph.time label) before after other
  nodup : rest.Nodup → after.queue.Nodup
  best : (graph.atlas.Ends label ∧
      Finished label (distance + graph.time label) before.best after.best) ∨
    ¬ graph.atlas.Ends label ∧ after.best = before.best

theorem visited_step [@Std.Total κ (· ≤ ·)] [DecidableLE κ] [DecidableLT κ] {costed : CostedBlock κ}
    (hqueue : search.queue = label :: rest)
    (hget : graph.get? label = some costed)
    (hdistance : search.distances.lookup label = some distance) :
    Visited graph label distance rest search (search.step graph) := by
  have htime : graph.time label = costed.cost.total := by simp [CostedGraph.time, hget]
  have hlabel : costed.label = label := by simpa using List.find?_some hget
  have hatlas : graph.atlas label = some costed.block := by rw [CostedGraph.atlas_eq, hget]; rfl
  have hleads : ∀ other, graph.atlas.Leads label other ↔ other ∈ costed.block.next := by
    intro other
    simp [Atlas.Leads, hatlas]
  have hends : graph.atlas.Ends label ↔ costed.block.isTerminal = true := by
    simp [Atlas.Ends, hatlas, Block.stops_false_iff]
  have hstep : search.step graph =
      ({ search with queue := rest } : Search κ).visit costed distance := by
    simp only [step, hqueue, hget, hdistance]
  rw [hstep, visit, hlabel, ← htime]
  -- ending the story here changes nothing but the best ending
  obtain ⟨best, hbest, hended⟩ : ∃ best, (if costed.block.isTerminal = true then
      ({ search with queue := rest } : Search κ).finishAt label (distance + graph.time label)
      else { search with queue := rest }) = { search with queue := rest, best } ∧
      ((graph.atlas.Ends label ∧ Finished label (distance + graph.time label) search.best best) ∨
        ¬ graph.atlas.Ends label ∧ best = search.best) := by
    by_cases hterminal : costed.block.isTerminal = true
    · rw [if_pos hterminal, finishAt_eq]
      exact ⟨_, rfl, Or.inl ⟨hends.2 hterminal,
        finished_finishAt label _ { search with queue := rest }⟩⟩
    · rw [if_neg hterminal]
      exact ⟨search.best, rfl, Or.inr ⟨fun h => hterminal (hends.1 h), rfl⟩⟩
  rw [hbest]
  have harrived := arrived_foldl label (distance + graph.time label) costed.block.next
    { search with queue := rest, best }
  generalize costed.block.next.foldl (arrive label (distance + graph.time label))
    { search with queue := rest, best } = after at harrived
  have hsooner : ∀ {other}, Sooner label (distance + graph.time label)
      { search with queue := rest, best } after other →
      Sooner label (distance + graph.time label) search after other :=
    fun h => ⟨h.distance, h.hop, h.lt, h.queued⟩
  refine ⟨?_, ?_, ?_, harrived.nodup, ?_⟩
  · intro other
    rcases harrived.changes other with hsame | ⟨hmem, h⟩
    · exact Or.inl hsame
    · exact Or.inr ⟨(hleads other).2 hmem, hsooner h⟩
  · intro other hother
    exact harrived.reached other ((hleads other).1 hother)
  · obtain ⟨added, heq, hadded⟩ := harrived.queue
    exact ⟨added, heq, fun other hother => hsooner (hadded other hother)⟩
  · rw [harrived.best_eq]
    exact hended

theorem Visited.sooner (h : Visited graph label distance rest before after) {other : Label}
    {known : κ} (hknown : before.distances.lookup other = some known) :
    ∃ known', after.distances.lookup other = some known' ∧ known' ≤ known := by
  rcases h.changes other with hsame | ⟨-, hsooner⟩
  · exact ⟨known, hsame.1.trans hknown, le_rfl⟩
  · exact ⟨_, hsooner.distance, (hsooner.lt known hknown).le⟩

/-- Looking at a block does not change its own time, even if it leads to itself. -/
theorem Visited.same (h : Visited graph label distance rest before after)
    (htime : graph.TimePasses) (hdistance : before.distances.lookup label = some distance) :
    Same before after label := by
  rcases h.changes label with hsame | ⟨-, hsooner⟩
  · exact hsame
  · exact absurd (hsooner.lt distance hdistance) (not_lt_of_ge (htime.le_add label distance))

theorem Visited.rest_subset (h : Visited graph label distance rest before after) :
    rest ⊆ after.queue := by
  obtain ⟨added, heq, -⟩ := h.queue
  rw [heq]
  exact List.subset_append_left _ _

/-! ## What the search knows -/

/-- What holds between two steps of the search. -/
structure Inv (graph : CostedGraph κ) (search : Search κ) : Prop where
  nodup : search.queue.Nodup
  queued : ∀ label ∈ search.queue, ∃ distance, search.distances.lookup label = some distance
  entry_time : search.distances.lookup .entry = some 0
  entry_hop : search.hops.lookup .entry = none
  /-- Known times are those of paths. -/
  sound : ∀ label distance, search.distances.lookup label = some distance →
    ∃ front, Path graph.atlas.Leads .entry label (front ++ [label]) ∧
      distance = graph.arrival front
  /-- The block that a hop comes from may since be reached earlier, never later. -/
  hop : ∀ source label, Hop search.hops source label → graph.atlas.Leads source label ∧
    ∃ early distance, search.distances.lookup source = some early ∧
      search.distances.lookup label = some distance ∧ early + graph.time source ≤ distance
  rooted : ∀ label distance, search.distances.lookup label = some distance →
    ReflTransGen (Hop search.hops) .entry label
  /-- Blocks outside the queue have passed on their times. -/
  relaxed : ∀ label distance target, label ∉ search.queue →
    search.distances.lookup label = some distance → graph.atlas.Leads label target →
    ∃ later, search.distances.lookup target = some later ∧ later ≤ distance + graph.time label
  best_sound : ∀ least last, search.best = some (least, last) → graph.atlas.Ends last ∧
    ∃ distance, search.distances.lookup last = some distance ∧ distance + graph.time last ≤ least
  best_least : ∀ label distance, label ∉ search.queue →
    search.distances.lookup label = some distance → graph.atlas.Ends label →
    ∃ least last, search.best = some (least, last) ∧ least ≤ distance + graph.time label

omit [Preorder κ] [Add κ] in
theorem lookup_start {label : Label} {distance : κ}
    (h : (start : Search κ).distances.lookup label = some distance) :
    label = .entry ∧ distance = 0 := by
  rw [start, List.lookup_cons] at h
  split at h
  · rename_i hlabel
    cases h
    exact ⟨by simpa using hlabel, rfl⟩
  · cases h

theorem inv_start (graph : CostedGraph κ) : Inv graph (start : Search κ) := by
  refine ⟨by simp [start], ?_, by simp [start], by simp [start], ?_, ?_, ?_, ?_, ?_, ?_⟩
  · intro label hlabel
    obtain rfl := List.mem_singleton.1 hlabel
    exact ⟨0, by simp [start]⟩
  · intro label distance h
    obtain ⟨rfl, rfl⟩ := lookup_start h
    exact ⟨[], Path.single _ Label.entry, rfl⟩
  · intro source label h
    cases h
  · intro label distance h
    obtain ⟨rfl, -⟩ := lookup_start h
    exact .refl
  · intro label distance target hqueue h
    obtain ⟨rfl, -⟩ := lookup_start h
    exact absurd (List.mem_singleton_self _) hqueue
  · intro least last h
    cases h
  · intro label distance hqueue h
    obtain ⟨rfl, -⟩ := lookup_start h
    exact absurd (List.mem_singleton_self _) hqueue

/-- Along hops times do not decrease. -/
theorem Inv.le_of_hops (h : Inv graph search) (htime : graph.TimePasses) {a b : Label}
    (hhops : ReflTransGen (Hop search.hops) a b) {late : κ}
    (hlate : search.distances.lookup b = some late) :
    ∃ early, search.distances.lookup a = some early ∧ early ≤ late := by
  induction hhops using ReflTransGen.head_induction_on with
  | refl => exact ⟨late, hlate, le_rfl⟩
  | @head a c hhop _ ih =>
    obtain ⟨-, early, distance, hearly, hdistance, hle⟩ := h.hop a c hhop
    obtain ⟨distance', hdistance', hle'⟩ := ih
    rw [hdistance, Option.some.injEq] at hdistance'
    subst hdistance'
    exact ⟨early, hearly, (htime.le_add a early).trans (hle.trans hle')⟩

section Visit

variable (h : Inv graph before) (htime : graph.TimePasses)
  (hqueue : before.queue = label :: rest)
  (hdistance : before.distances.lookup label = some distance)
  (hvisit : Visited graph label distance rest before after)

include h hdistance hvisit

theorem Inv.sound_visit (other : Label) (known : κ)
    (hknown : after.distances.lookup other = some known) :
    ∃ front, Path graph.atlas.Leads .entry other (front ++ [other]) ∧
      known = graph.arrival front := by
  rcases hvisit.changes other with hsame | ⟨hleads, hsooner⟩
  · exact h.sound other known (hsame.1.symm.trans hknown)
  · obtain ⟨front, hpath, rfl⟩ := h.sound label distance hdistance
    rw [hsooner.distance, Option.some.injEq] at hknown
    exact ⟨front ++ [label], hpath.snoc hleads, by rw [← hknown, CostedGraph.arrival_concat]⟩

include hqueue in
theorem Inv.relaxed_visit (other : Label) (known : κ) (target : Label)
    (hother : other ∉ after.queue) (hknown : after.distances.lookup other = some known)
    (hleads : graph.atlas.Leads other target) :
    ∃ later, after.distances.lookup target = some later ∧ later ≤ known + graph.time other := by
  rcases hvisit.changes other with hsame | ⟨-, hsooner⟩
  · rw [hsame.1] at hknown
    by_cases hlabel : other = label
    · subst hlabel
      rw [hdistance, Option.some.injEq] at hknown
      subst hknown
      exact hvisit.reached target hleads
    · have hbefore : other ∉ before.queue := by
        rw [hqueue, List.mem_cons, not_or]
        exact ⟨hlabel, fun hmem => hother (hvisit.rest_subset hmem)⟩
      obtain ⟨later, hlater, hle⟩ := h.relaxed other known target hbefore hknown hleads
      obtain ⟨later', hlater', hle'⟩ := hvisit.sooner hlater
      exact ⟨later', hlater', hle'.trans hle⟩
  · exact absurd hsooner.queued hother

include hqueue in
theorem Inv.best_least_visit (other : Label) (known : κ) (hother : other ∉ after.queue)
    (hknown : after.distances.lookup other = some known) (hends : graph.atlas.Ends other) :
    ∃ least last, after.best = some (least, last) ∧ least ≤ known + graph.time other := by
  rcases hvisit.changes other with hsame | ⟨-, hsooner⟩
  · rw [hsame.1] at hknown
    by_cases hlabel : other = label
    · subst hlabel
      rw [hdistance, Option.some.injEq] at hknown
      subst hknown
      rcases hvisit.best with ⟨-, hfinished⟩ | ⟨hnot, -⟩
      · exact hfinished.here
      · exact absurd hends hnot
    · have hbefore : other ∉ before.queue := by
        rw [hqueue, List.mem_cons, not_or]
        exact ⟨hlabel, fun hmem => hother (hvisit.rest_subset hmem)⟩
      obtain ⟨least, last, hbest, hle⟩ := h.best_least other known hbefore hknown hends
      rcases hvisit.best with ⟨-, hfinished⟩ | ⟨-, heq⟩
      · obtain ⟨least', last', hbest', hle'⟩ := hfinished.kept least last hbest
        exact ⟨least', last', hbest', hle'.trans hle⟩
      · exact ⟨least, last, heq.trans hbest, hle⟩
  · exact absurd hsooner.queued hother

include htime

theorem Inv.entry_same : Same before after .entry := by
  rcases hvisit.changes .entry with hsame | ⟨-, hsooner⟩
  · exact hsame
  · obtain ⟨front, -, rfl⟩ := h.sound label distance hdistance
    have hlt := hsooner.lt 0 h.entry_time
    rw [← CostedGraph.arrival_concat] at hlt
    exact absurd hlt (not_lt_of_ge (htime.arrival_nonneg _))

theorem Inv.hop_visit (source other : Label) (hhop : Hop after.hops source other) :
    graph.atlas.Leads source other ∧
      ∃ early known, after.distances.lookup source = some early ∧
        after.distances.lookup other = some known ∧ early + graph.time source ≤ known := by
  rcases hvisit.changes other with hsame | ⟨hleads, hsooner⟩
  · obtain ⟨hleads, early, known, hearly, hknown, hle⟩ :=
      h.hop source other (hsame.2.symm.trans hhop)
    obtain ⟨early', hearly', hle'⟩ := hvisit.sooner hearly
    exact ⟨hleads, early', known, hearly', hsame.1.trans hknown,
      (htime.add_le_add source _ _ hle').trans hle⟩
  · obtain rfl : label = source := by
      rw [Hop, hsooner.hop, Option.some.injEq] at hhop
      exact hhop
    exact ⟨hleads, distance, _, (hvisit.same htime hdistance).1.trans hdistance,
      hsooner.distance, le_rfl⟩

/-- No hop is replaced on the way to the block that the search looks at: the blocks on this way are
    reached at least as early. -/
theorem Inv.rooted_visit (other : Label) (known : κ)
    (hknown : after.distances.lookup other = some known) :
    ReflTransGen (Hop after.hops) .entry other := by
  have hsource := h.rooted label distance hdistance
  have hchange : ∀ x, after.hops.lookup x = before.hops.lookup x ∨
      after.hops.lookup x = some label ∧ ¬ ReflTransGen (Hop before.hops) x label := by
    intro x
    rcases hvisit.changes x with hsame | ⟨-, hsooner⟩
    · exact Or.inl hsame.2
    · refine Or.inr ⟨hsooner.hop, fun hreach => ?_⟩
      obtain ⟨early, hearly, hle⟩ := h.le_of_hops htime hreach hdistance
      exact absurd (hsooner.lt early hearly)
        (not_lt_of_ge (hle.trans (htime.le_add label distance)))
  rcases hvisit.changes other with hsame | ⟨-, hsooner⟩
  · exact Hop.reach_of_changes hsource hchange (h.rooted other known (hsame.1.symm.trans hknown))
  · exact (Hop.reach_of_changes hsource hchange hsource).tail hsooner.hop

theorem Inv.best_sound_visit (least : κ) (last : Label) (hbest : after.best = some (least, last)) :
    graph.atlas.Ends last ∧ ∃ known, after.distances.lookup last = some known ∧
      known + graph.time last ≤ least := by
  have hold : before.best = some (least, last) → graph.atlas.Ends last ∧
      ∃ known, after.distances.lookup last = some known ∧ known + graph.time last ≤ least := by
    intro hbest
    obtain ⟨hends, known, hknown, hle⟩ := h.best_sound least last hbest
    obtain ⟨known', hknown', hle'⟩ := hvisit.sooner hknown
    exact ⟨hends, known', hknown', (htime.add_le_add last _ _ hle').trans hle⟩
  rcases hvisit.best with ⟨hends, hfinished⟩ | ⟨-, heq⟩
  · rcases hfinished.source least last hbest with hbest | ⟨rfl, rfl⟩
    · exact hold hbest
    · exact ⟨hends, distance, (hvisit.same htime hdistance).1.trans hdistance, le_rfl⟩
  · exact hold (heq ▸ hbest)

include hqueue in
theorem Inv.visit : Inv graph after where
  nodup := by
    have hnodup := h.nodup
    rw [hqueue, List.nodup_cons] at hnodup
    exact hvisit.nodup hnodup.2
  queued := by
    obtain ⟨added, heq, hadded⟩ := hvisit.queue
    intro other hother
    rw [heq, List.mem_append] at hother
    rcases hother with hother | hother
    · obtain ⟨known, hknown⟩ := h.queued other (hqueue ▸ List.mem_cons_of_mem label hother)
      obtain ⟨known', hknown', -⟩ := hvisit.sooner hknown
      exact ⟨known', hknown'⟩
    · exact ⟨_, (hadded other hother).distance⟩
  entry_time := (h.entry_same htime hdistance hvisit).1.trans h.entry_time
  entry_hop := (h.entry_same htime hdistance hvisit).2.trans h.entry_hop
  sound := h.sound_visit hdistance hvisit
  hop := h.hop_visit htime hdistance hvisit
  rooted := h.rooted_visit htime hdistance hvisit
  relaxed := h.relaxed_visit hqueue hdistance hvisit
  best_sound := h.best_sound_visit htime hdistance hvisit
  best_least := h.best_least_visit hqueue hdistance hvisit

end Visit

/-- The first block of the queue is a block of the graph, and its time is known. -/
theorem Inv.exists_visited [@Std.Total κ (· ≤ ·)] [DecidableLE κ] [DecidableLT κ]
    (h : Inv graph search) (htrim : graph.Trim)
    (hqueue : search.queue = label :: rest) :
    ∃ distance, search.distances.lookup label = some distance ∧
      Visited graph label distance rest search (search.step graph) := by
  obtain ⟨distance, hdistance⟩ := h.queued label (hqueue ▸ List.mem_cons_self)
  obtain ⟨front, hpath, -⟩ := h.sound label distance hdistance
  have hsome : (graph.get? label).isSome := by
    have := (htrim.isSome_iff label).2 hpath.reach
    rw [CostedGraph.atlas_eq] at this
    simpa using this
  obtain ⟨costed, hget⟩ := Option.isSome_iff_exists.1 hsome
  exact ⟨distance, hdistance, visited_step hqueue hget hdistance⟩

theorem Inv.step [@Std.Total κ (· ≤ ·)] [DecidableLE κ] [DecidableLT κ]
    (h : Inv graph search) (htrim : graph.Trim) (htime : graph.TimePasses) :
    Inv graph (search.step graph) := by
  cases hqueue : search.queue with
  | nil =>
    unfold Search.step
    rw [hqueue]
    exact h
  | cons label rest =>
    obtain ⟨distance, hdistance, hvisit⟩ := h.exists_visited htrim hqueue
    exact h.visit htime hqueue hdistance hvisit

theorem Inv.run [@Std.Total κ (· ≤ ·)] [DecidableLE κ] [DecidableLT κ]
    (limit : Nat) (h : Inv graph search) (htrim : graph.Trim)
    (htime : graph.TimePasses) : Inv graph (search.run graph limit) := by
  induction limit generalizing search with
  | zero => exact h
  | succ limit ih =>
    unfold Search.run
    split
    · exact h
    · exact ih (h.step htrim htime)

/-! ## The search ends -/

variable {round : Nat} {current next : List Label}

/-- How far the search is in a round: the queue holds the blocks `current` that this round has yet
    to look at, and those that it leaves to the `next` one. No path of at most `round` steps beats
    the known times, and those that were left to the next round beat all such paths. -/
structure Round (graph : CostedGraph κ) (round : Nat) (current next : List Label)
    (search : Search κ) : Prop where
  queue_eq : search.queue = current ++ next
  known : ∀ label front, Path graph.atlas.Leads .entry label (front ++ [label]) →
    front.length ≤ round → ∃ distance, search.distances.lookup label = some distance ∧
      distance ≤ graph.arrival front
  better : ∀ label ∈ next, ∀ front, Path graph.atlas.Leads .entry label (front ++ [label]) →
    front.length ≤ round → ∀ distance, search.distances.lookup label = some distance →
      distance < graph.arrival front
  passed : ∀ label front target, label ∉ current →
    Path graph.atlas.Leads .entry label (front ++ [label]) → front.length ≤ round →
    graph.atlas.Leads label target → ∃ distance,
      search.distances.lookup target = some distance ∧
        distance ≤ graph.arrival front + graph.time label

theorem round_start (graph : CostedGraph κ) : Round graph 0 [.entry] [] (start : Search κ) := by
  have hfirst : ∀ label front, Path graph.atlas.Leads .entry label (front ++ [label]) →
      front.length ≤ 0 → front = [] ∧ label = .entry := by
    intro label front hpath hlength
    obtain rfl : front = [] := List.length_eq_zero_iff.1 (Nat.le_zero.1 hlength)
    exact ⟨rfl, by simpa using hpath.starts⟩
  refine ⟨rfl, ?_, by simp, ?_⟩
  · intro label front hpath hlength
    obtain ⟨rfl, rfl⟩ := hfirst label front hpath hlength
    exact ⟨0, by simp [start], le_rfl⟩
  · intro label front target hnot hpath hlength
    obtain ⟨rfl, rfl⟩ := hfirst label front hpath hlength
    exact absurd (List.mem_singleton_self _) hnot

/-- Looking at one more block of the round. -/
theorem Round.visit (h : Round graph round (label :: current) next before)
    (htime : graph.TimePasses) (hdistance : before.distances.lookup label = some distance)
    (hvisit : Visited graph label distance (current ++ next) before after) :
    ∃ added, Round graph round current (next ++ added) after := by
  obtain ⟨added, hqueue, hadded⟩ := hvisit.queue
  refine ⟨added, by rw [hqueue, List.append_assoc], ?_, ?_, ?_⟩
  · intro other front hpath hlength
    obtain ⟨known, hknown, hle⟩ := h.known other front hpath hlength
    obtain ⟨known', hknown', hle'⟩ := hvisit.sooner hknown
    exact ⟨known', hknown', hle'.trans hle⟩
  · intro other hother front hpath hlength known' hknown'
    obtain ⟨known, hknown, hle⟩ := h.known other front hpath hlength
    rcases List.mem_append.1 hother with hother | hother
    · have hlt := h.better other hother front hpath hlength known hknown
      obtain ⟨known'', hknown'', hle''⟩ := hvisit.sooner hknown
      rw [hknown', Option.some.injEq] at hknown''
      exact (hknown'' ▸ hle'').trans_lt hlt
    · -- only blocks that are now reached sooner join the queue
      have hsooner := hadded other hother
      rw [hsooner.distance, Option.some.injEq] at hknown'
      exact hknown' ▸ (hsooner.lt known hknown).trans_le hle
  · intro other front target hother hpath hlength hleads
    by_cases hlabel : other = label
    · subst hlabel
      obtain ⟨known, hknown, hle⟩ := h.known other front hpath hlength
      rw [hdistance, Option.some.injEq] at hknown
      subst hknown
      obtain ⟨later, hlater, hle'⟩ := hvisit.reached target hleads
      exact ⟨later, hlater, hle'.trans (htime.add_le_add other _ _ hle)⟩
    · have hnot : other ∉ label :: current := by
        rw [List.mem_cons, not_or]
        exact ⟨hlabel, hother⟩
      obtain ⟨later, hlater, hle⟩ := h.passed other front target hnot hpath hlength hleads
      obtain ⟨later', hlater', hle'⟩ := hvisit.sooner hlater
      exact ⟨later', hlater', hle'.trans hle⟩

/-- When a round is over, the next one begins. -/
theorem Round.turn (h : Round graph round [] next search) (hinv : Inv graph search)
    (htime : graph.TimePasses) : Round graph (round + 1) next [] search := by
  have hknown : ∀ label front, Path graph.atlas.Leads .entry label (front ++ [label]) →
      front.length ≤ round + 1 → ∃ distance, search.distances.lookup label = some distance ∧
        distance ≤ graph.arrival front := by
    intro label front hpath hlength
    rcases hpath.cases_snoc with ⟨heq, rfl⟩ | ⟨previous, front', heq, hfront, hleads⟩
    · obtain rfl : front = [] := by simpa using heq
      exact ⟨0, hinv.entry_time, le_rfl⟩
    · obtain rfl : front = front' := List.append_cancel_right heq
      obtain ⟨before, rfl⟩ := List.getLast?_eq_some_iff.1 hfront.ends
      rw [List.length_append, List.length_singleton] at hlength
      rw [CostedGraph.arrival_concat]
      exact h.passed previous before label (by simp) hfront (by omega) hleads
  refine ⟨by simpa using h.queue_eq, hknown, by simp, ?_⟩
  intro label front target hnot hpath hlength hleads
  obtain ⟨distance, hdistance, hle⟩ := hknown label front hpath hlength
  have hqueue : label ∉ search.queue := by rwa [h.queue_eq, List.nil_append]
  obtain ⟨later, hlater, hle'⟩ := hinv.relaxed label distance target hqueue hdistance hleads
  exact ⟨later, hlater, hle'.trans (htime.add_le_add label _ _ hle)⟩

/-- After as many rounds as a path without repetition can have steps, none is left to do. -/
theorem Round.next_eq_nil (h : Round graph round [] next search) (hinv : Inv graph search)
    (htrim : graph.Trim) (htime : graph.TimePasses) (hround : graph.size ≤ round + 1) :
    next = [] := by
  refine List.eq_nil_iff_forall_not_mem.2 fun label hlabel => ?_
  have hqueue : label ∈ search.queue := by rwa [h.queue_eq, List.nil_append]
  obtain ⟨distance, hdistance⟩ := hinv.queued label hqueue
  obtain ⟨front, hpath, rfl⟩ := hinv.sound label distance hdistance
  obtain ⟨simple, hsimple, hnodup, hle⟩ := htime.exists_simple hpath
  have hlength := htrim.length_le_size hsimple hnodup
  rw [List.length_append, List.length_singleton] at hlength
  have hlt := h.better label hlabel simple hsimple (by omega) _ hdistance
  exact absurd hlt (not_lt_of_ge hle)

theorem Inv.length_queue_le (h : Inv graph search) (htrim : graph.Trim) :
    search.queue.length ≤ graph.size := by
  have hsub : search.queue ⊆ graph.labels := by
    intro label hlabel
    obtain ⟨distance, hdistance⟩ := h.queued label hlabel
    obtain ⟨front, hpath, -⟩ := h.sound label distance hdistance
    exact htrim.mem_labels_iff_reaches.2 hpath.reach
  have hlength := (h.nodup.subperm hsub).length_le
  rwa [CostedGraph.labels, List.length_map] at hlength

/-- The queue is empty, or some round has a block to look at. -/
theorem Round.exists_current (h : Round graph round current next search) (hinv : Inv graph search)
    (htrim : graph.Trim) (htime : graph.TimePasses) {rounds : Nat}
    (hrounds : graph.size ≤ round + rounds + 1) :
    search.queue = [] ∨ ∃ label current' next' round' rounds',
      Round graph round' (label :: current') next' search ∧
      graph.size ≤ round' + rounds' + 1 ∧
      (label :: current').length + rounds' * graph.size ≤
        current.length + rounds * graph.size := by
  cases hcurrent : current with
  | cons label current' =>
    subst hcurrent
    exact Or.inr ⟨label, current', next, round, rounds, h, hrounds, le_rfl⟩
  | nil =>
    subst hcurrent
    cases hnext : next with
    | nil => exact Or.inl (by rw [h.queue_eq, hnext, List.append_nil])
    | cons label next' =>
      cases rounds with
      | zero => exact absurd (h.next_eq_nil hinv htrim htime (by omega)) (by simp [hnext])
      | succ rounds =>
        have hlength := hinv.length_queue_le htrim
        rw [h.queue_eq, List.nil_append] at hlength
        refine Or.inr ⟨label, next', [], round + 1, rounds, hnext ▸ h.turn hinv htime, by omega, ?_⟩
        rw [← hnext, Nat.add_mul, Nat.one_mul, List.length_nil]
        omega

theorem queue_run [@Std.Total κ (· ≤ ·)] [DecidableLE κ] [DecidableLT κ]
    (htrim : graph.Trim) (htime : graph.TimePasses) (limit rounds : Nat)
    (hinv : Inv graph search) (h : Round graph round current next search)
    (hrounds : graph.size ≤ round + rounds + 1)
    (hlimit : current.length + rounds * graph.size ≤ limit) :
    (search.run graph limit).queue = [] := by
  induction limit generalizing search round current next rounds with
  | zero =>
    rcases h.exists_current hinv htrim htime hrounds with
      hqueue | ⟨label, current', next', round', rounds', -, -, hle⟩
    · exact hqueue
    · rw [List.length_cons] at hle
      omega
  | succ limit ih =>
    unfold Search.run
    split
    · rename_i hqueue
      exact List.isEmpty_iff.1 hqueue
    · rename_i hqueue
      rcases h.exists_current hinv htrim htime hrounds with
        hempty | ⟨label, current', next', round', rounds', hround, hrounds', hle⟩
      · exact absurd (List.isEmpty_iff.2 hempty) hqueue
      · obtain ⟨distance, hdistance, hvisit⟩ := hinv.exists_visited htrim hround.queue_eq
        obtain ⟨added, hstep⟩ := hround.visit htime hdistance hvisit
        rw [List.length_cons] at hle
        exact ih rounds' (hinv.step htrim htime) hstep hrounds' (by omega)

end Search

/-! ## The outcome -/

namespace CostedGraph

section

variable [Zero κ] [Add κ] {graph : CostedGraph κ}

/-- The search ends within its limit: there are at most as many rounds as blocks, and each of them
    looks at each block once at most. -/
theorem search_spec [Preorder κ] [@Std.Total κ (· ≤ ·)] [DecidableLE κ] [DecidableLT κ]
    (htrim : graph.Trim) (htime : graph.TimePasses) :
    Search.Inv graph graph.search ∧ graph.search.queue = [] := by
  have hinv := Search.inv_start graph
  refine ⟨hinv.run graph.searchLimit htrim htime, ?_⟩
  refine Search.queue_run htrim htime graph.searchLimit graph.size hinv
    (Search.round_start graph) (by omega) ?_
  rw [searchLimit, List.length_singleton]
  nlinarith [Nat.zero_le graph.size]

variable [LinearOrder κ]

/-- No path is shorter than the known time. -/
theorem exists_distance_le (htrim : graph.Trim) (htime : graph.TimePasses) {label : Label}
    {front : List Label} (hpath : Path graph.atlas.Leads .entry label (front ++ [label])) :
    ∃ distance, graph.search.distances.lookup label = some distance ∧
      distance ≤ graph.arrival front := by
  obtain ⟨hinv, hqueue⟩ := search_spec htrim htime
  induction front using List.reverseRecOn generalizing label with
  | nil =>
    obtain rfl : label = .entry := by simpa using hpath.starts
    exact ⟨0, hinv.entry_time, le_rfl⟩
  | append_singleton front last ih =>
    rcases hpath.cases_snoc with ⟨heq, -⟩ | ⟨previous, front', heq, hfront, hleads⟩
    · have hlength := congrArg List.length heq
      simp at hlength
    · obtain rfl : front ++ [last] = front' := List.append_cancel_right heq
      obtain rfl : last = previous := by simpa using hfront.ends
      obtain ⟨distance, hdistance, hle⟩ := ih hfront
      obtain ⟨later, hlater, hle'⟩ :=
        hinv.relaxed last distance label (by simp [hqueue]) hdistance hleads
      rw [arrival_concat]
      exact ⟨later, hlater, hle'.trans (htime.add_le_add last _ _ hle)⟩

/-- The hops to a block spell a path that takes exactly the known time. -/
theorem exists_hops (htrim : graph.Trim) (htime : graph.TimePasses) {label : Label}
    {distance : κ} (hdistance : graph.search.distances.lookup label = some distance) :
    ∃ front, Path (Hop graph.search.hops) .entry label (front ++ [label]) ∧
      Path graph.atlas.Leads .entry label (front ++ [label]) ∧
      graph.arrival front = distance := by
  obtain ⟨hinv, hqueue⟩ := search_spec htrim htime
  have hrooted := hinv.rooted label distance hdistance
  induction hrooted generalizing distance with
  | refl =>
    rw [hinv.entry_time, Option.some.injEq] at hdistance
    exact ⟨[], Path.single _ Label.entry, Path.single _ Label.entry, hdistance⟩
  | @tail source label _ hhop ih =>
    obtain ⟨hleads, early, distance', hearly, hdistance', hle⟩ := hinv.hop source label hhop
    obtain ⟨later, hlater, hle'⟩ :=
      hinv.relaxed source early label (by simp [hqueue]) hearly hleads
    obtain ⟨front, hhops, hpath, rfl⟩ := ih hearly
    rw [hdistance, Option.some.injEq] at hdistance' hlater
    subst hdistance' hlater
    refine ⟨front ++ [source], hhops.snoc hhop, hpath.snoc hleads, ?_⟩
    rw [arrival_concat]
    exact le_antisymm hle hle'

/-- The shortest route is a walk without repetition, and takes exactly the time of its blocks. -/
theorem shortest_sound (htrim : graph.Trim) (htime : graph.TimePasses) {route : Route κ}
    (hroute : graph.shortest = some route) :
    ∃ walk, route.steps = walk.map .block ∧ graph.atlas.IsWalk .entry false walk ∧
      walk.Nodup ∧ graph.arrival walk = route.total := by
  obtain ⟨hinv, hqueue⟩ := search_spec htrim htime
  obtain ⟨⟨total, last⟩, hbest, rfl⟩ := Option.map_eq_some_iff.1 hroute
  obtain ⟨hends, distance, hdistance, hle⟩ := hinv.best_sound total last hbest
  obtain ⟨least, last', hbest', hle'⟩ :=
    hinv.best_least last distance (by simp [hqueue]) hdistance hends
  rw [hbest, Option.some.injEq, Prod.mk.injEq] at hbest'
  obtain ⟨rfl, rfl⟩ := hbest'
  obtain ⟨front, hhops, hpath, rfl⟩ := exists_hops htrim htime hdistance
  obtain ⟨block, hblock, hstops⟩ := hends
  have hnodup := Hop.nodup hinv.entry_hop hhops
  have hlength := htrim.length_le_size hpath hnodup
  rw [List.length_append, List.length_singleton] at hlength
  refine ⟨front ++ [last], ?_, ⟨last, block, hpath, hblock, hstops⟩, hnodup, ?_⟩
  · dsimp only
    rw [Hop.trail_eq hinv.entry_hop graph.size hhops (by omega)]
  · rw [arrival_concat]
    exact le_antisymm hle hle'

/-- Every walk to an ending takes at least as long as the shortest route. -/
theorem shortest_le (htrim : graph.Trim) (htime : graph.TimePasses) {walk : List Label}
    (hwalk : graph.atlas.IsWalk .entry false walk) :
    ∃ route, graph.shortest = some route ∧ route.total ≤ graph.arrival walk := by
  obtain ⟨hinv, hqueue⟩ := search_spec htrim htime
  obtain ⟨last, block, hpath, hblock, hstops⟩ := hwalk
  obtain ⟨front, rfl⟩ := List.getLast?_eq_some_iff.1 hpath.ends
  obtain ⟨distance, hdistance, hle⟩ := exists_distance_le htrim htime hpath
  obtain ⟨least, last', hbest, hle'⟩ :=
    hinv.best_least last distance (by simp [hqueue]) hdistance ⟨block, hblock, hstops⟩
  refine ⟨_, by rw [shortest, hbest]; rfl, ?_⟩
  rw [arrival_concat]
  exact hle'.trans (htime.add_le_add last _ _ hle)

end

variable [AddCommMonoid κ] [LinearOrder κ] [IsOrderedAddMonoid κ] {graph : CostedGraph κ}

theorem timePasses_of_nonneg (hcost : ∀ costed ∈ graph.blocks, 0 ≤ costed.cost.total) :
    graph.TimePasses where
  le_add := fun label _ => le_add_of_nonneg_right (time_nonneg hcost label)
  add_le_add := fun label _ _ hle => add_le_add_left hle (graph.time label)

omit [LinearOrder κ] [IsOrderedAddMonoid κ] in
theorem arrival_eq_sum (graph : CostedGraph κ) (path : List Label) :
    graph.arrival path = (path.map graph.time).sum := by
  rw [arrival, foldl_add_eq_sum, zero_add]

/-- **Shortest route.** A reduced story whose costs are not negative has a shortest route exactly
    when play can reach an ending. The route takes the least time of all walks from the entry to an
    ending, and it is such a walk itself: it passes no block twice, and its blocks take exactly the
    time of the route. -/
theorem isLeast_shortest [FiniteCheck κ] {tally : Tally κ} {story : StoryGraph κ}
    (h : story.reduce tally = .ok graph)
    (hcost : ∀ costed ∈ graph.blocks, 0 ≤ costed.cost.total) :
    (graph.shortest.isSome ↔ ∃ costed ∈ graph.blocks, costed.block.isTerminal = true ∧
      graph.atlas.Reaches .entry costed.label) ∧
    ∀ route, graph.shortest = some route →
      IsLeast {time | ∃ walk, graph.atlas.IsWalk .entry false walk ∧
        time = (walk.map graph.time).sum} route.total ∧
      ∃ walk, route.steps = walk.map .block ∧ graph.atlas.IsWalk .entry false walk ∧
        walk.Nodup ∧ (walk.map graph.time).sum = route.total := by
  have htrim := trim_of_reduce h
  have htime := timePasses_of_nonneg hcost
  have hsound : ∀ route, graph.shortest = some route → ∃ walk, route.steps = walk.map .block ∧
      graph.atlas.IsWalk .entry false walk ∧ walk.Nodup ∧
      (walk.map graph.time).sum = route.total := by
    intro route hroute
    obtain ⟨walk, hsteps, hwalk, hnodup, htotal⟩ := shortest_sound htrim htime hroute
    exact ⟨walk, hsteps, hwalk, hnodup, by rw [← arrival_eq_sum, htotal]⟩
  refine ⟨⟨?_, ?_⟩, fun route hroute => ⟨⟨?_, ?_⟩, hsound route hroute⟩⟩
  · intro hsome
    obtain ⟨route, hroute⟩ := Option.isSome_iff_exists.1 hsome
    obtain ⟨walk, -, ⟨last, block, hpath, hblock, hstops⟩, -⟩ := hsound route hroute
    rw [atlas_eq, Option.map_eq_some_iff] at hblock
    obtain ⟨costed, hget, rfl⟩ := hblock
    obtain ⟨hmem, hlabel⟩ := htrim.get?_eq_some_iff.1 hget
    exact ⟨costed, hmem, (Block.stops_false_iff _).1 hstops, hlabel ▸ hpath.reach⟩
  · rintro ⟨costed, hmem, hterminal, hreach⟩
    obtain ⟨rest, hpath⟩ := exists_path hreach
    have hblock : graph.atlas costed.label = some costed.block := by
      rw [atlas_eq, htrim.get?_eq_some_iff.2 ⟨hmem, rfl⟩]
      rfl
    obtain ⟨route, hroute, -⟩ := shortest_le htrim htime
      ⟨costed.label, costed.block, hpath, hblock, (Block.stops_false_iff _).2 hterminal⟩
    simp [hroute]
  · obtain ⟨walk, -, hwalk, -, htotal⟩ := hsound route hroute
    exact ⟨walk, hwalk, htotal.symm⟩
  · rintro time ⟨walk, hwalk, rfl⟩
    obtain ⟨route', hroute', hle⟩ := shortest_le htrim htime hwalk
    rw [hroute, Option.some.injEq] at hroute'
    rw [← arrival_eq_sum]
    exact hroute' ▸ hle

/-- Going home on the first evening takes the least. -/
theorem isLeast_shortest_loop :
    loopStory.reduce pauses = .ok loopGraph ∧
    (∀ costed ∈ loopGraph.blocks, 0 ≤ costed.cost.total) ∧
    loopGraph.shortest = some ⟨10, [.block .entry, .block (.named "morning"),
      .block (.named "evening"), .block (.named "home")]⟩ ∧
    IsLeast {time | ∃ walk, loopGraph.atlas.IsWalk .entry false walk ∧
      time = (walk.map loopGraph.time).sum} (10 : Rat) := by
  have hshortest : loopGraph.shortest = some ⟨10, [.block .entry, .block (.named "morning"),
      .block (.named "evening"), .block (.named "home")]⟩ := by cbv
  exact ⟨reduce_loopStory, cost_loopGraph_nonneg, hshortest,
    ((isLeast_shortest reduce_loopStory cost_loopGraph_nonneg).2 _ hshortest).1⟩

end CostedGraph

end Playthrough
