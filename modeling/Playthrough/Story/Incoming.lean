import Playthrough.Story.Graph

/-!
# Which blocks lead to which

The blocks that lead to each label are found by tracing the exits from the entry. A block is queued
again for every block that turns out to lead to it. No list of visited blocks is kept: a block that
was traced before has no exit left that is not noted, so its turn changes nothing.

* `Tracing`: the state of the search. `Tracing.note` notes an exit.
* `Tracing.step`: one turn. It notes all exits of a block.
* `Tracing.run`: the search. It ends because every label that joins the queue has a noted exit to
  pay for it, and an exit is noted once.
* `StoryGraph.incoming`: the labels that play can reach, each with the blocks that lead to it.
-/

namespace Playthrough

/-- The blocks that lead to each label. -/
abbrev StoryGraph.Incoming := List (Label × List Label)

namespace StoryGraph

variable {κ : Type} {graph : StoryGraph κ}

/-- The exits of a story, each with the block that has it. -/
def exits (graph : StoryGraph κ) : List (Label × Label) :=
  graph.blocks.flatMap fun block => block.next.map (block.label, ·)

theorem mem_exits {block : Block κ} (hblock : block ∈ graph.blocks) {target : Label}
    (htarget : target ∈ block.next) : (block.label, target) ∈ graph.exits :=
  List.mem_flatMap.2 ⟨block, hblock, List.mem_map_of_mem htarget⟩

end StoryGraph

open StoryGraph

/-- The state of the search. -/
structure Tracing where
  /-- The exits noted so far, by target. -/
  found : Incoming
  ascending : Ascending Prod.fst found
  /-- The labels of the blocks to trace. -/
  queue : List Label

namespace Tracing

variable {κ : Type} {graph : StoryGraph κ} {tracing : Tracing}

/-- Before the first turn only the entry is known, and nothing leads to it. -/
def start : Tracing where
  found := [(.entry, [])]
  ascending := List.pairwise_singleton _ _
  queue := [.entry]

/-- The blocks that are known to lead to a label. -/
def sources (target : Label) (tracing : Tracing) : List Label :=
  (tracing.found.lookup target).getD []

/-- Adds a source to those of a label. -/
def addSource (source : Label) (entry : Label × List Label) : Label × List Label :=
  (entry.1, place id (fun new _ => new) source entry.2)

theorem fst_addSource {source : Label} {new entry : Label × List Label} (h : new.1 = entry.1) :
    (addSource source entry).1 = new.1 :=
  h.symm

/-- Notes that a block leads to a label. If that is news, the label is queued. -/
def note (source target : Label) (tracing : Tracing) : Tracing :=
  if source ∈ tracing.sources target then tracing
  else
    { found := place Prod.fst (fun _ => addSource source) (target, [source]) tracing.found
      ascending := ascending_place (fun _ _ => fst_addSource) tracing.ascending
      queue := tracing.queue ++ [target] }

/-- Notes the exits of a block in turn, and stops at one that leads nowhere. -/
def follow (graph : StoryGraph κ) (block : Block κ) (tracing : Tracing) :
    Except (Fault κ) Tracing :=
  block.next.foldlM (fun tracing target => do
    let _ ← graph.resolve block.label target
    return tracing.note block.label target) tracing

/-- One turn: takes a label off the queue and follows the exits of its block. Stands for one turn of
    the loop of `incoming`. -/
def step (graph : StoryGraph κ) (tracing : Tracing) : Except (Fault κ) Tracing :=
  match tracing.queue with
  | [] => .ok tracing
  | label :: queue =>
    match graph.get? label with
    | none => .ok { tracing with queue }
    | some block => { tracing with queue }.follow graph block

/-! ## The search ends -/

theorem mem_sources_note (source target other label : Label) (tracing : Tracing) :
    other ∈ (tracing.note source target).sources label ↔
      (other = source ∧ label = target) ∨ other ∈ tracing.sources label := by
  unfold note
  split
  · rename_i hmem
    refine ⟨Or.inr, ?_⟩
    rintro (⟨rfl, rfl⟩ | hother)
    · exact hmem
    · exact hother
  · unfold sources
    rw [lookup_place (fun _ _ => fst_addSource) _ tracing.ascending]
    by_cases hlabel : label = target
    · subst hlabel
      rw [if_pos rfl, Option.getD_some]
      cases tracing.found.lookup label with
      | none => simp
      | some sources =>
        have hplace : other ∈ (place id (fun new _ => new) source sources).map id ↔ _ :=
          mem_map_key_place (fun _ _ _ => rfl) source sources other
        simpa [addSource] using hplace
    · simp [hlabel]

/-- The exits that are not noted yet. -/
def missing (graph : StoryGraph κ) (tracing : Tracing) : List (Label × Label) :=
  graph.exits.filter fun exit => exit.1 ∉ tracing.sources exit.2

/-- What is left to do: the labels in the queue, and those that the missing exits can add to it. -/
def size (graph : StoryGraph κ) (tracing : Tracing) : Nat :=
  (missing graph tracing).length + tracing.queue.length

theorem missing_note (source target : Label) (tracing : Tracing) :
    missing graph (tracing.note source target) =
      (missing graph tracing).filter fun exit => exit ≠ (source, target) := by
  rw [missing, missing, List.filter_filter]
  refine List.filter_congr fun exit _ => ?_
  simp only [mem_sources_note, not_or, ← Prod.ext_iff (y := (source, target)), ne_eq,
    Bool.decide_and]

/-- What noting an exit adds to the queue it takes from the missing exits. -/
theorem size_note_le {source target : Label} (hexit : (source, target) ∈ graph.exits) :
    size graph (tracing.note source target) ≤ size graph tracing := by
  by_cases hmem : source ∈ tracing.sources target
  · exact Nat.le_of_eq (by rw [note, if_pos hmem])
  · have hmissing : (source, target) ∈ missing graph tracing :=
      List.mem_filter.2 ⟨hexit, by simpa using hmem⟩
    have hlt : (missing graph (tracing.note source target)).length <
        (missing graph tracing).length := by
      rw [missing_note]
      exact List.length_filter_lt_length_iff_exists.2 ⟨_, hmissing, by simp⟩
    have hqueue : (tracing.note source target).queue = tracing.queue ++ [target] := by
      rw [note, if_neg hmem]
    rw [size, size, hqueue, List.length_append, List.length_singleton]
    omega

theorem size_follow_le {block : Block κ} {after : Tracing} (hblock : block ∈ graph.blocks)
    (h : tracing.follow graph block = .ok after) : size graph after ≤ size graph tracing := by
  have hall : ∀ target ∈ block.next, (block.label, target) ∈ graph.exits := fun _ =>
    mem_exits hblock
  unfold follow at h
  generalize block.next = targets at h hall
  induction targets generalizing tracing with
  | nil =>
    cases h
    exact Nat.le_refl _
  | cons target targets ih =>
    rw [List.foldlM_cons] at h
    obtain ⟨noted, hnoted, h⟩ := bind_eq_ok.1 h
    obtain ⟨_, -, hnoted⟩ := bind_eq_ok.1 hnoted
    cases hnoted
    have hle := ih h fun other hother => hall other (List.mem_cons_of_mem target hother)
    exact Nat.le_trans hle (size_note_le (hall target List.mem_cons_self))

/-- A turn with a label in the queue brings the search closer to its end. -/
theorem size_step_lt {label : Label} {queue : List Label} {after : Tracing}
    (hqueue : tracing.queue = label :: queue) (h : tracing.step graph = .ok after) :
    size graph after < size graph tracing := by
  have hpopped : size graph { tracing with queue } < size graph tracing := by
    unfold size
    rw [hqueue, List.length_cons]
    exact Nat.lt_succ_self _
  unfold step at h
  rw [hqueue] at h
  dsimp only at h
  split at h
  · cases h
    exact hpopped
  · rename_i block hblock
    exact Nat.lt_of_le_of_lt (size_follow_le (List.mem_of_find?_eq_some hblock) h) hpopped

/-- Takes turns until the queue is empty. -/
def run (graph : StoryGraph κ) (tracing : Tracing) : Except (Fault κ) Tracing :=
  match _queue : tracing.queue with
  | [] => .ok tracing
  | _ :: _ =>
    match _step : tracing.step graph with
    | .error fault => .error fault
    | .ok after => run graph after
termination_by size graph tracing
decreasing_by exact size_step_lt _queue _step

end Tracing

/-- The labels that play can reach, in order, each with the blocks that lead to it in play. Fails at
    an exit in reach that leads nowhere. Stands for `incoming` of a block graph. -/
def StoryGraph.incoming {κ : Type} (graph : StoryGraph κ) : Except (Fault κ) Incoming := do
  let traced ← Tracing.start.run graph
  return traced.found

end Playthrough
