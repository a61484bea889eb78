import Playthrough.Proofs.Story.Reduce
import Playthrough.Table

/-!
# Joining keeps the stories

When a block and the only block that follows it are joined, every walk through the two becomes a
walk through the joined block, which has the records of both and loses no declared name. Which of the
two labels the joined block gets makes no difference: the exits to the first block follow it.

* `Atlas.Contracts`: two blocks joined into one, under either label.
* `Atlas.Contracts.stories_eq`: this changes no story.
* `Merging.Exact`: the table of the pass says exactly which blocks lead to which.
* `Merging.Turn`: all that a turn of the pass can do.
* `Merging.run_spec`: the pass keeps its table exact and the stories as they are.
* `stories_reduce`: a reduced story tells what the story told.
-/

namespace Playthrough

variable {κ : Type}

/-! ## Joining two blocks -/

/-- The label itself, but `target` for `source`. -/
def Label.moved (source target label : Label) : Label := if label = source then target else label

theorem Label.moved_self (source label : Label) : Label.moved source source label = label := by
  unfold moved
  split
  · rename_i h
    exact h.symm
  · rfl

theorem Label.ne_entry_of_isSynthetic {label : Label} (h : label.isSynthetic = true) :
    label ≠ .entry := by
  rintro rfl
  cases h

theorem Label.name?_of_isSynthetic {label : Label} (h : label.isSynthetic = true) :
    label.name? = none := by
  cases label with
  | entry => rfl
  | named name => cases h
  | synthetic => rfl

theorem Block.next_relink (source target : Label) (block : Block κ) :
    (block.relink source target).next = block.next.map (Label.moved source target) := rfl

theorem Block.relink_self (source : Label) (block : Block κ) :
    block.relink source source = block := by
  have hnext := Block.next_relink source source block
  rw [funext (Label.moved_self source), List.map_id'] at hnext
  calc block.relink source source
    _ = { block with next := (block.relink source source).next } := rfl
    _ = block := by rw [hnext]

namespace Atlas

variable {atlas atlas' : Atlas κ} {head tail : Block κ} {kept : Label} {dead : Bool}

/-- `head` is always followed by `tail`, and `tail` by nothing else preceded; the two become one
    block with the label `kept` of either. -/
structure Contracts (atlas atlas' : Atlas κ) (head tail : Block κ) (kept : Label) : Prop where
  head_eq : atlas head.label = some head
  tail_eq : atlas tail.label = some tail
  next_eq : head.next = [tail.label]
  ne : tail.label ≠ head.label
  only : ∀ source, atlas.Leads source tail.label → source = head.label
  kept_eq : kept = head.label ∨ kept = tail.label
  names_eq : kept.name?.toList = head.label.name?.toList ++ tail.label.name?.toList
  tail_ne_entry : tail.label ≠ .entry
  entry_kept : Label.moved head.label kept .entry = .entry
  joined : atlas' kept = some
    { tail with
      label := kept
      text := head.text ++ tail.text
      next := tail.next.map (Label.moved head.label kept) }
  others : ∀ label, label ≠ head.label → label ≠ tail.label →
    atlas' label = (atlas label).map (Block.relink head.label kept)
  gone : ∀ label, label = head.label ∨ label = tail.label → label ≠ kept → atlas' label = none

namespace Contracts

variable (h : Contracts atlas atlas' head tail kept)

include h

theorem ne_tail_of_mem {label target : Label} {block : Block κ} (hblock : atlas label = some block)
    (hlabel : label ≠ head.label) (htarget : target ∈ block.next) : target ≠ tail.label := by
  rintro rfl
  exact hlabel (h.only label ⟨block, hblock, htarget⟩)

theorem ne_tail_of_mem_tail {target : Label} (htarget : target ∈ tail.next) :
    target ≠ tail.label :=
  h.ne_tail_of_mem h.tail_eq h.ne htarget

/-- The blocks after joining: the joined one, and the others with their exits moved. -/
theorem block_cases {label : Label} {block : Block κ} (hblock : atlas' label = some block) :
    (label = kept ∧ block = { tail with
      label := kept
      text := head.text ++ tail.text
      next := tail.next.map (Label.moved head.label kept) }) ∨
    label ≠ head.label ∧ label ≠ tail.label ∧ ∃ old, atlas label = some old ∧
      block = old.relink head.label kept := by
  by_cases hkept : label = kept
  · subst hkept
    rw [h.joined] at hblock
    cases hblock
    exact Or.inl ⟨rfl, rfl⟩
  · have hhead : label ≠ head.label := by
      intro hhead
      rw [h.gone label (Or.inl hhead) hkept] at hblock
      cases hblock
    have htail : label ≠ tail.label := by
      intro htail
      rw [h.gone label (Or.inr htail) hkept] at hblock
      cases hblock
    rw [h.others label hhead htail, Option.map_eq_some_iff] at hblock
    obtain ⟨old, hold, heq⟩ := hblock
    exact Or.inr ⟨hhead, htail, old, hold, heq.symm⟩

/-- What leads to what after joining: the exits of `tail` become those of the joined block, and
    exits to `head` lead there. -/
theorem leads_iff {source target : Label} :
    atlas'.Leads source target ↔ ∃ source' target', atlas.Leads source' target' ∧
      target' ≠ tail.label ∧ source = Label.moved tail.label kept source' ∧
      target = Label.moved head.label kept target' := by
  constructor
  · rintro ⟨block, hblock, htarget⟩
    rcases h.block_cases hblock with ⟨rfl, rfl⟩ | ⟨hhead, htail, old, hold, rfl⟩
    · obtain ⟨target', hmem, heq⟩ := List.mem_map.1 htarget
      exact ⟨tail.label, target', ⟨tail, h.tail_eq, hmem⟩, h.ne_tail_of_mem_tail hmem,
        by rw [Label.moved, if_pos rfl], heq.symm⟩
    · rw [Block.next_relink] at htarget
      obtain ⟨target', hmem, heq⟩ := List.mem_map.1 htarget
      exact ⟨source, target', ⟨old, hold, hmem⟩, h.ne_tail_of_mem hold hhead hmem,
        by rw [Label.moved, if_neg htail], heq.symm⟩
  · rintro ⟨source', target', ⟨block, hblock, hmem⟩, htarget, rfl, rfl⟩
    by_cases htail : source' = tail.label
    · subst htail
      rw [h.tail_eq] at hblock
      cases hblock
      rw [Label.moved, if_pos rfl]
      exact ⟨_, h.joined, List.mem_map_of_mem hmem⟩
    · have hhead : source' ≠ head.label := by
        rintro rfl
        rw [h.head_eq] at hblock
        cases hblock
        rw [h.next_eq, List.mem_singleton] at hmem
        exact htarget hmem
      rw [Label.moved, if_neg htail]
      refine ⟨block.relink head.label kept, by rw [h.others source' hhead htail, hblock]; rfl, ?_⟩
      rw [Block.next_relink]
      exact List.mem_map_of_mem hmem

/-- A label that is moved along with its block is found again. -/
theorem moved_moved {label : Label} (hlabel : label ≠ tail.label) :
    Label.moved kept head.label (Label.moved head.label kept label) = label := by
  unfold Label.moved
  by_cases hhead : label = head.label
  · simp [hhead]
  · have hkept : label ≠ kept := by
      rcases h.kept_eq with hkept | hkept <;> rw [hkept]
      · exact hhead
      · exact hlabel
    simp [hhead, hkept]

omit h in
theorem stops_of_map {block : Block κ} {f : Label → Label} {next : List Label}
    (hnext : block.next = next.map f) (hstops : block.Stops dead) : next = [] := by
  rw [hstops.1] at hnext
  exact List.map_eq_nil_iff.1 hnext.symm

/-- What is spelled after joining was spelled before. -/
theorem spells_before {label : Label} {records : List (Record κ)} {names : List String}
    (hspells : atlas'.Spells dead label records names) :
    atlas.Spells dead (Label.moved kept head.label label) records names := by
  have hfollow : tail.label ∈ head.next := by simp [h.next_eq]
  induction hspells with
  | @stop label block hblock hstops =>
    rcases h.block_cases hblock with ⟨rfl, rfl⟩ | ⟨hhead, htail, old, hold, rfl⟩
    · have hnil := stops_of_map rfl hstops
      have htail := Spells.stop h.tail_eq ⟨hnil, hstops.2⟩
      rw [h.names_eq, Label.moved, if_pos rfl]
      exact .step h.head_eq hfollow htail
    · have hnil := stops_of_map (Block.next_relink _ _ old) hstops
      have hmoved := h.moved_moved htail
      rw [Label.moved.eq_def head.label, if_neg hhead] at hmoved
      have hstop := Spells.stop hold ⟨hnil, hstops.2⟩
      rwa [hmoved]
  | @step label target block records names hblock htarget _ ih =>
    rcases h.block_cases hblock with ⟨rfl, rfl⟩ | ⟨hhead, htail, old, hold, rfl⟩
    · obtain ⟨target', hmem, rfl⟩ := List.mem_map.1 htarget
      rw [h.moved_moved (h.ne_tail_of_mem_tail hmem)] at ih
      rw [h.names_eq, Label.moved, if_pos rfl, List.append_assoc, List.append_assoc]
      exact .step h.head_eq hfollow (.step h.tail_eq hmem ih)
    · rw [Block.next_relink] at htarget
      obtain ⟨target', hmem, rfl⟩ := List.mem_map.1 htarget
      rw [h.moved_moved (h.ne_tail_of_mem hold hhead hmem)] at ih
      have hmoved := h.moved_moved htail
      rw [Label.moved.eq_def head.label, if_neg hhead] at hmoved
      have hstep := Spells.step hold hmem ih
      rwa [hmoved]

/-- What was spelled before joining is spelled after. A walk that starts in the middle of the joined
    block is one that starts at its beginning and has the records of `head` in front. -/
theorem spells_after {label : Label} {records : List (Record κ)} {names : List String}
    (hspells : atlas.Spells dead label records names) :
    (label = tail.label → atlas'.Spells dead kept (head.text ++ records)
      (head.label.name?.toList ++ names)) ∧
    (label ≠ tail.label →
      atlas'.Spells dead (Label.moved head.label kept label) records names) := by
  induction hspells with
  | @stop label block hblock hstops =>
    constructor
    · rintro rfl
      rw [h.tail_eq] at hblock
      cases hblock
      rw [← h.names_eq]
      exact .stop h.joined ⟨by simp [hstops.1], hstops.2⟩
    · intro htail
      by_cases hhead : label = head.label
      · subst hhead
        rw [h.head_eq] at hblock
        cases hblock
        have hnil := hstops.1
        rw [h.next_eq] at hnil
        cases hnil
      · have hblock' : atlas' label = some (block.relink head.label kept) := by
          rw [h.others label hhead htail, hblock]
          rfl
        have hstop := Spells.stop hblock' ⟨by rw [Block.next_relink, hstops.1]; rfl, hstops.2⟩
        rwa [Label.moved, if_neg hhead]
  | @step label target block records names hblock htarget _ ih =>
    constructor
    · rintro rfl
      rw [h.tail_eq] at hblock
      cases hblock
      rw [← List.append_assoc, ← List.append_assoc, ← h.names_eq]
      exact .step h.joined (List.mem_map_of_mem htarget) (ih.2 (h.ne_tail_of_mem_tail htarget))
    · intro htail
      by_cases hhead : label = head.label
      · subst hhead
        rw [h.head_eq] at hblock
        cases hblock
        rw [h.next_eq, List.mem_singleton] at htarget
        rw [Label.moved, if_pos rfl]
        exact ih.1 htarget
      · have hblock' : atlas' label = some (block.relink head.label kept) := by
          rw [h.others label hhead htail, hblock]
          rfl
        have hmem : Label.moved head.label kept target ∈ (block.relink head.label kept).next := by
          rw [Block.next_relink]
          exact List.mem_map_of_mem htarget
        have hstep := Spells.step hblock' hmem (ih.2 (h.ne_tail_of_mem hblock hhead htarget))
        rwa [Label.moved, if_neg hhead]

/-- Joining two blocks changes no story. -/
theorem stories_eq (dead : Bool) : atlas'.stories dead = atlas.stories dead := by
  ext ⟨records, names⟩
  rw [mem_stories_iff, mem_stories_iff]
  constructor
  · intro hspells
    have hbefore := h.spells_before hspells
    have hentry := h.moved_moved h.tail_ne_entry.symm
    rw [h.entry_kept] at hentry
    rwa [hentry] at hbefore
  · intro hspells
    have hafter := (h.spells_after hspells).2 h.tail_ne_entry.symm
    rwa [h.entry_kept] at hafter

end Contracts

end Atlas

/-! ## The table of the pass -/

namespace Merging

variable {state : Merging κ} {head tail : Block κ}

/-- The atlas of the blocks in the pass. -/
abbrev atlas (state : Merging κ) : Atlas κ := Atlas.of state.blocks

/-- The table lists, for each block, each of the blocks that lead to it once. -/
structure Exact (state : Merging κ) : Prop where
  nodup : (state.blocks.map Block.label).Nodup
  entry_mem : Label.entry ∈ state.blocks.map Block.label
  sources : ∀ label block, state.atlas label = some block →
    ∃ sources, state.incoming.lookup label = some sources ∧ sources.Nodup ∧
      ∀ source, source ∈ sources ↔ state.atlas.Leads source label

theorem Exact.congr {other : Merging κ} (h : Exact state) (hblocks : other.blocks = state.blocks)
    (hincoming : other.incoming = state.incoming) : Exact other := by
  obtain ⟨hnodup, hentry, hsources⟩ := h
  refine ⟨by rwa [hblocks], by rwa [hblocks], ?_⟩
  rwa [atlas, hblocks, hincoming]

/-- A follower is the only exit of its block, and nothing else leads to it. -/
theorem follower_spec (h : Exact state) (hhead : state.atlas head.label = some head)
    (hfollower : state.follower? head = some tail) :
    state.atlas tail.label = some tail ∧ head.next = [tail.label] ∧ tail.label ≠ head.label ∧
      tail.label ≠ .entry ∧
      ∀ source, state.atlas.Leads source tail.label → source = head.label := by
  unfold follower? at hfollower
  split at hfollower
  · rename_i target hnext
    split at hfollower
    · rename_i hcond
      obtain ⟨hne, hentry, -, honce⟩ := hcond
      obtain rfl : tail.label = target := by simpa using List.find?_some hfollower
      refine ⟨hfollower, hnext, hne, hentry, ?_⟩
      obtain ⟨sources, hlookup, -, hsources⟩ := h.sources tail.label tail hfollower
      have hlength : sources.length = 1 := by simpa [reachedOnce, hlookup] using honce
      obtain ⟨only, rfl⟩ := List.length_eq_one_iff.1 hlength
      have honly : head.label = only := by
        have := (hsources head.label).2 ⟨head, hhead, by simp [hnext]⟩
        simpa using this
      intro source hleads
      have := (hsources source).2 hleads
      rw [honly]
      simpa using this
    · cases hfollower
  · cases hfollower

theorem nodup_without {blocks : List (Block κ)} {label : Label} {f : Block κ → Block κ}
    (hlabel : ∀ block, (f block).label = block.label)
    (hnodup : (blocks.map Block.label).Nodup) :
    (((StoryGraph.without label blocks).map f).map Block.label).Nodup := by
  rw [List.map_map, Function.comp_def]
  simp only [hlabel]
  rw [labels_without]
  exact hnodup.filter _

theorem of_without {f : Block κ → Block κ} (hlabel : ∀ block, (f block).label = block.label)
    (blocks : List (Block κ)) (gone label : Label) :
    Atlas.of ((StoryGraph.without gone blocks).map f) label =
      if label = gone then none else (Atlas.of blocks label).map f := by
  rw [Atlas.of_map hlabel, StoryGraph.without,
    Atlas.of_filter blocks (fun label => decide (label ≠ gone))]
  by_cases h : label = gone <;> simp [h]

theorem mem_replaceSource {old new : Label} {sources : List Label} (hold : old ∈ sources)
    (source : Label) : source ∈ replaceSource old new sources ↔
      ∃ source' ∈ sources, source = Label.moved old new source' := by
  rw [replaceSource, List.mem_cons, List.mem_filter, decide_eq_true_eq]
  constructor
  · rintro (rfl | ⟨hmem, hne, -⟩)
    · exact ⟨old, hold, by rw [Label.moved, if_pos rfl]⟩
    · exact ⟨source, hmem, by rw [Label.moved, if_neg hne]⟩
  · rintro ⟨source', hmem, rfl⟩
    unfold Label.moved
    split
    · exact Or.inl rfl
    · rename_i hne
      by_cases hnew : source' = new
      · exact Or.inl hnew
      · exact Or.inr ⟨hmem, hne, hnew⟩

theorem nodup_replaceSource {old new : Label} {sources : List Label} (h : sources.Nodup) :
    (replaceSource old new sources).Nodup := by
  refine List.nodup_cons.2 ⟨?_, h.filter _⟩
  simp

/-! ## Absorbing forward -/

theorem label_swallow (head tail block : Block κ) :
    (if block.label = head.label then tail.absorb block else block).label = block.label := by
  split <;> rfl

theorem atlas_absorbForward (hhead : state.atlas head.label = some head) (label : Label) :
    (state.absorbForward head tail).atlas label =
      if label = tail.label then none
      else if label = head.label then some (tail.absorb head)
      else state.atlas label := by
  rw [atlas, absorbForward, of_without (label_swallow head tail)]
  split
  · rfl
  · by_cases heq : label = head.label
    · subst heq
      rw [if_pos rfl]
      change (state.atlas head.label).map _ = _
      rw [hhead]
      simp
    · rw [if_neg heq]
      change (state.atlas label).map _ = _
      cases hblock : state.atlas label with
      | none => rfl
      | some block =>
        have hne : block.label ≠ head.label := by
          rw [(Atlas.label_of_eq_some hblock).2]
          exact heq
        simp [hne]

theorem contracts_absorbForward (h : Exact state) (hhead : state.atlas head.label = some head)
    (hfollower : state.follower? head = some tail) (hminted : tail.label.isSynthetic = true) :
    Atlas.Contracts state.atlas (state.absorbForward head tail).atlas head tail head.label := by
  obtain ⟨htail, hnext, hne, hentry, honly⟩ := follower_spec h hhead hfollower
  refine ⟨hhead, htail, hnext, hne, honly, Or.inl rfl, ?_, hentry, Label.moved_self _ _, ?_, ?_,
    ?_⟩
  · simp [Label.name?_of_isSynthetic hminted]
  · rw [atlas_absorbForward hhead, if_neg hne.symm, if_pos rfl,
      funext (Label.moved_self head.label), List.map_id']
    rfl
  · intro label hlabel hlabel'
    rw [atlas_absorbForward hhead, if_neg hlabel', if_neg hlabel,
      funext (Block.relink_self head.label), Option.map_id']
  · intro label hlabel hkept
    rw [atlas_absorbForward hhead, if_pos (hlabel.resolve_left hkept)]

theorem lookup_absorbForward {label : Label} (hlabel : label ≠ tail.label) :
    (state.absorbForward head tail).incoming.lookup label =
      (state.incoming.lookup label).map fun sources =>
        if label ∈ tail.next then replaceSource tail.label head.label sources else sources := by
  rw [Merging.absorbForward, Table.lookup_map, Table.lookup_filter_ne _ hlabel]
  · congr 1
    funext sources
    dsimp only
    split <;> rfl
  · intro entry
    split <;> rfl

theorem Exact.absorbForward (h : Exact state) (hhead : state.atlas head.label = some head)
    (hfollower : state.follower? head = some tail) (hminted : tail.label.isSynthetic = true) :
    Exact (state.absorbForward head tail) := by
  have hjoin := contracts_absorbForward h hhead hfollower hminted
  refine ⟨nodup_without (label_swallow head tail) h.nodup, ?_, ?_⟩
  · rw [← Atlas.isSome_of_iff]
    have hentry := Atlas.isSome_of_iff.2 h.entry_mem
    show ((state.absorbForward head tail).atlas .entry).isSome
    rw [atlas_absorbForward hhead, if_neg hjoin.tail_ne_entry.symm]
    split
    · rfl
    · exact hentry
  · intro label block hblock
    have hne : label ≠ tail.label := by
      rintro rfl
      rw [atlas_absorbForward hhead, if_pos rfl] at hblock
      cases hblock
    obtain ⟨old, hold⟩ : ∃ old, state.atlas label = some old := by
      rw [atlas_absorbForward hhead, if_neg hne] at hblock
      split at hblock
      · rename_i heq
        exact ⟨head, heq ▸ hhead⟩
      · exact ⟨block, hblock⟩
    obtain ⟨sources, hlookup, hnodup, hsources⟩ := h.sources label old hold
    have htail : tail.label ∈ sources ↔ label ∈ tail.next := by
      rw [hsources]
      simp [Atlas.Leads, hjoin.tail_eq]
    have hleads : ∀ source, (state.absorbForward head tail).atlas.Leads source label ↔
        ∃ source' ∈ sources, source = Label.moved tail.label head.label source' := by
      intro source
      rw [hjoin.leads_iff]
      simp only [Label.moved_self, hsources]
      constructor
      · rintro ⟨source', target', hleads, -, rfl, rfl⟩
        exact ⟨source', hleads, rfl⟩
      · rintro ⟨source', hleads, rfl⟩
        exact ⟨source', label, hleads, hne, rfl, rfl⟩
    rw [lookup_absorbForward hne, hlookup]
    refine ⟨_, rfl, ?_, ?_⟩
    · split
      · exact nodup_replaceSource hnodup
      · exact hnodup
    · intro source
      rw [hleads]
      split
      · rename_i hmem
        exact mem_replaceSource (htail.2 hmem) source
      · -- `tail` was no source, so no source moves
        rename_i hmem
        have hmoved : ∀ source' ∈ sources,
            Label.moved tail.label head.label source' = source' := by
          intro source' hsource'
          rw [Label.moved, if_neg]
          rintro rfl
          exact hmem (htail.1 hsource')
        constructor
        · intro hsource
          exact ⟨source, hsource, (hmoved source hsource).symm⟩
        · rintro ⟨source', hsource', rfl⟩
          rwa [hmoved source' hsource']

/-! ## Absorbing backward -/

theorem label_takeOver (head tail block : Block κ) : ((if block.label = tail.label then
    { tail with text := head.text ++ tail.text } else block).relink head.label tail.label).label =
      block.label := by
  split
  · rename_i h
    exact h.symm
  · rfl

theorem atlas_absorbBackward (htail : state.atlas tail.label = some tail) (label : Label) :
    (state.absorbBackward head tail).atlas label =
      if label = head.label then none
      else if label = tail.label then
        some (({ tail with text := head.text ++ tail.text } : Block κ).relink head.label tail.label)
      else (state.atlas label).map (Block.relink head.label tail.label) := by
  rw [atlas, absorbBackward, of_without (label_takeOver head tail)]
  split
  · rfl
  · by_cases heq : label = tail.label
    · subst heq
      rw [if_pos rfl]
      change (state.atlas tail.label).map _ = _
      rw [htail]
      simp
    · rw [if_neg heq]
      change (state.atlas label).map _ = _
      cases hblock : state.atlas label with
      | none => rfl
      | some block =>
        have hne : block.label ≠ tail.label := by
          rw [(Atlas.label_of_eq_some hblock).2]
          exact heq
        simp [hne]

theorem contracts_absorbBackward (h : Exact state) (hhead : state.atlas head.label = some head)
    (hfollower : state.follower? head = some tail) (hminted : head.label.isSynthetic = true) :
    Atlas.Contracts state.atlas (state.absorbBackward head tail).atlas head tail tail.label := by
  obtain ⟨htail, hnext, hne, hentry, honly⟩ := follower_spec h hhead hfollower
  refine ⟨hhead, htail, hnext, hne, honly, Or.inr rfl, ?_, hentry, ?_, ?_, ?_, ?_⟩
  · simp [Label.name?_of_isSynthetic hminted]
  · rw [Label.moved, if_neg (Label.ne_entry_of_isSynthetic hminted).symm]
  · rw [atlas_absorbBackward htail, if_neg hne, if_pos rfl]
    rfl
  · intro label hlabel hlabel'
    rw [atlas_absorbBackward htail, if_neg hlabel, if_neg hlabel']
  · intro label hlabel hkept
    rw [atlas_absorbBackward htail, if_pos (hlabel.resolve_right hkept)]

theorem lookup_absorbBackward {label : Label} (hlabel : label ≠ head.label) :
    (state.absorbBackward head tail).incoming.lookup label =
      (state.incoming.lookup label).map fun sources =>
        if label = tail.label then (state.incoming.lookup head.label).getD [] else sources := by
  rw [Merging.absorbBackward]
  dsimp only
  rw [Table.lookup_map, Table.lookup_filter_ne _ hlabel]
  · congr 1
    funext sources
    dsimp only
    split <;> rfl
  · intro entry
    split <;> rfl

/-- What led to `head` leads to the joined block; all else stays. -/
theorem leads_absorbBackward (h : Exact state) (hhead : state.atlas head.label = some head)
    (hfollower : state.follower? head = some tail) (hminted : head.label.isSynthetic = true)
    {label : Label} (hlabel : label ≠ head.label) (source : Label) :
    (state.absorbBackward head tail).atlas.Leads source label ↔
      state.atlas.Leads source (if label = tail.label then head.label else label) := by
  have hjoin := contracts_absorbBackward h hhead hfollower hminted
  rw [hjoin.leads_iff]
  simp only [Label.moved_self]
  constructor
  · rintro ⟨source', target, hleads, htarget, rfl, rfl⟩
    by_cases htarget' : target = head.label
    · rwa [Label.moved, if_pos htarget', if_pos rfl, ← htarget']
    · rwa [Label.moved, if_neg htarget', if_neg htarget]
  · intro hleads
    split at hleads
    · rename_i htail
      exact ⟨source, head.label, hleads, hjoin.ne.symm, rfl, by rw [Label.moved, if_pos rfl, htail]⟩
    · rename_i htail
      exact ⟨source, label, hleads, htail, rfl, by rw [Label.moved, if_neg hlabel]⟩

theorem Exact.absorbBackward (h : Exact state) (hhead : state.atlas head.label = some head)
    (hfollower : state.follower? head = some tail) (hminted : head.label.isSynthetic = true) :
    Exact (state.absorbBackward head tail) := by
  have hjoin := contracts_absorbBackward h hhead hfollower hminted
  refine ⟨nodup_without (label_takeOver head tail) h.nodup, ?_, ?_⟩
  · rw [← Atlas.isSome_of_iff]
    have hentry := Atlas.isSome_of_iff.2 h.entry_mem
    show ((state.absorbBackward head tail).atlas .entry).isSome
    rw [atlas_absorbBackward hjoin.tail_eq,
      if_neg (Label.ne_entry_of_isSynthetic hminted).symm, if_neg hjoin.tail_ne_entry.symm,
      Option.isSome_map]
    exact hentry
  · intro label block hblock
    have hne : label ≠ head.label := by
      rintro rfl
      rw [atlas_absorbBackward hjoin.tail_eq, if_pos rfl] at hblock
      cases hblock
    obtain ⟨old, hold⟩ : ∃ old, state.atlas label = some old := by
      by_cases htail : label = tail.label
      · exact ⟨tail, htail ▸ hjoin.tail_eq⟩
      · rw [atlas_absorbBackward hjoin.tail_eq, if_neg hne, if_neg htail,
          Option.map_eq_some_iff] at hblock
        obtain ⟨old, hold, -⟩ := hblock
        exact ⟨old, hold⟩
    obtain ⟨sources, hlookup, hnodup, hsources⟩ := h.sources label old hold
    obtain ⟨sources', hlookup', hnodup', hsources'⟩ := h.sources head.label head hhead
    rw [lookup_absorbBackward hne, hlookup, hlookup']
    refine ⟨_, rfl, ?_, ?_⟩
    · split
      · exact hnodup'
      · exact hnodup
    · intro source
      rw [leads_absorbBackward h hhead hfollower hminted hne]
      split
      · exact hsources' source
      · exact hsources source

/-! ## The pass -/

/-- What looking at a label can do. -/
inductive Turn (state : Merging κ) : Label → Merging κ → Prop
  /-- The label is done, or its block is gone. -/
  | skip {label : Label} : label ∈ state.settled ∨ state.atlas label = none →
      Turn state label state
  | forward {head tail : Block κ} : state.atlas head.label = some head →
      head.label ∉ state.settled → state.follower? head = some tail →
      tail.label.isSynthetic = true → Turn state head.label (state.absorbForward head tail)
  | backward {head tail : Block κ} : state.atlas head.label = some head →
      head.label ∉ state.settled → state.follower? head = some tail →
      head.label.isSynthetic = true → tail.label.isSynthetic = false →
      Turn state head.label (state.absorbBackward head tail)
  /-- The block has no follower, or a follower that is declared like the block itself. -/
  | settle {block : Block κ} : state.atlas block.label = some block →
      block.label ∉ state.settled →
      (∀ tail, state.follower? block = some tail →
        block.label.isSynthetic = false ∧ tail.label.isSynthetic = false) →
      Turn state block.label (state.settle block)

theorem turn_look (label : Label) (state : Merging κ) : Turn state label (state.look label) := by
  unfold look
  split
  · rename_i hsettled
    exact .skip (Or.inl hsettled)
  · rename_i hsettled
    split
    · rename_i hnone
      exact .skip (Or.inr hnone)
    · rename_i block hblock
      obtain rfl := (Atlas.label_of_eq_some hblock).2
      unfold advance
      split
      · rename_i tail htail
        split
        · rename_i hminted
          exact .forward hblock hsettled htail hminted
        · rename_i hdeclared
          rw [Bool.not_eq_true] at hdeclared
          split
          · rename_i hminted
            exact .backward hblock hsettled htail hminted hdeclared
          · rename_i hhead
            rw [Bool.not_eq_true] at hhead
            refine .settle hblock hsettled fun other hother => ⟨hhead, ?_⟩
            rw [htail, Option.some.injEq] at hother
            rwa [← hother]
      · rename_i hnone
        refine .settle hblock hsettled fun other hother => ?_
        rw [hnone] at hother
        cases hother

/-- A turn keeps the table exact and the stories as they are. -/
theorem Exact.turn (h : Exact state) {label : Label} {after : Merging κ}
    (hturn : Turn state label after) :
    Exact after ∧ ∀ dead, after.atlas.stories dead = state.atlas.stories dead := by
  cases hturn with
  | skip => exact ⟨h, fun _ => rfl⟩
  | forward hhead _ hfollower hminted =>
    exact ⟨h.absorbForward hhead hfollower hminted,
      (contracts_absorbForward h hhead hfollower hminted).stories_eq⟩
  | backward hhead _ hfollower hminted =>
    exact ⟨h.absorbBackward hhead hfollower hminted,
      (contracts_absorbBackward h hhead hfollower hminted).stories_eq⟩
  | settle => exact ⟨h.congr rfl rfl, fun _ => rfl⟩

theorem Exact.step (h : Exact state) :
    Exact state.step ∧ ∀ dead, state.step.atlas.stories dead = state.atlas.stories dead := by
  unfold Merging.step
  split
  · exact ⟨h, fun _ => rfl⟩
  · rename_i label queue _
    have hqueue : Exact { state with queue } := h.congr rfl rfl
    exact hqueue.turn (turn_look label { state with queue })

theorem run_spec (state : Merging κ) (h : Exact state) :
    Exact state.run ∧ ∀ dead, state.run.atlas.stories dead = state.atlas.stories dead := by
  fun_induction run state with
  | case1 state => exact ⟨h, fun _ => rfl⟩
  | case2 state _ _ _ ih =>
    obtain ⟨hstep, hstories⟩ := h.step
    obtain ⟨hrun, hrun_stories⟩ := ih hstep
    exact ⟨hrun, fun dead => (hrun_stories dead).trans (hstories dead)⟩

theorem exact_start {blocks : List (Block κ)} (hnodup : (blocks.map Block.label).Nodup)
    (hentry : Label.entry ∈ blocks.map Block.label) :
    Exact (start blocks (StoryGraph.incomingOf blocks)) := by
  refine ⟨hnodup, hentry, ?_⟩
  intro label block hblock
  have hmem : label ∈ blocks.map Block.label := by
    rw [← Atlas.isSome_of_iff]
    exact Option.isSome_iff_exists.2 ⟨block, hblock⟩
  refine ⟨_, by rw [start, StoryGraph.lookup_incomingOf, if_pos hmem], ?_, ?_⟩
  · exact (hnodup.sublist ((List.filter_sublist).map Block.label))
  · intro source
    rw [List.mem_map]
    constructor
    · rintro ⟨found, hfound, rfl⟩
      obtain ⟨hin, hleads⟩ := List.mem_filter.1 hfound
      exact ⟨found, (Atlas.of_eq_some_iff hnodup).2 ⟨hin, rfl⟩, by simpa using hleads⟩
    · rintro ⟨found, hfound, hleads⟩
      obtain ⟨hin, hlabel⟩ := Atlas.label_of_eq_some hfound
      exact ⟨found, List.mem_filter.2 ⟨hin, by simpa using hleads⟩, hlabel⟩

end Merging

/-! ## The graph of a list of blocks -/

namespace StoryGraph

/-- Blocks out of reach tell no story. -/
theorem stories_reached {story : StoryGraph κ} {reached : List Label}
    (h : story.reachable = .ok reached) (dead : Bool) :
    (Atlas.of (story.blocks.filter (·.label ∈ reached))).stories dead =
      story.atlas.stories dead := by
  ext ⟨records, names⟩
  rw [Atlas.mem_stories_iff, Atlas.mem_stories_iff]
  refine Atlas.spells_congr ?_
  intro label hreach
  rw [Atlas.of_filter story.blocks (· ∈ reached)]
  simp [(mem_reachable_iff h label).2 hreach]

/-- The blocks of a story with the given labels, before any of them are joined. -/
def unjoined (story : StoryGraph κ) (reached : List Label) : Merging κ :=
  let kept := story.blocks.filter (·.label ∈ reached)
  Merging.start kept (incomingOf kept)

/-- The pass starts with an exact table. -/
theorem exact_unjoined {story : StoryGraph κ} {reached : List Label}
    (h : story.reachable = .ok reached) : (story.unjoined reached).Exact := by
  refine Merging.exact_start ?_ ?_
  · exact story.nodup_labels.sublist (List.filter_sublist.map Block.label)
  · obtain ⟨block, hblock, hlabel⟩ := List.mem_map.1 story.entry_mem
    refine List.mem_map.2 ⟨block, List.mem_filter.2 ⟨hblock, ?_⟩, hlabel⟩
    rw [hlabel]
    exact decide_eq_true ((mem_reachable_iff h .entry).2 .refl)

/-- The pass runs over the blocks in reach. -/
theorem joined_of_reachable {story : StoryGraph κ} {reached : List Label}
    (h : story.reachable = .ok reached) :
    story.joined = .ok (ofBlocks (story.unjoined reached).run.blocks) := by
  have hincoming : story.incoming =
      .ok (incomingOf (story.blocks.filter (·.label ∈ reached))) := by
    rw [incoming_eq, h]
    rfl
  unfold joined
  rw [hincoming]
  show Except.ok (ofBlocks (Merging.start (story.blocks.filter fun block =>
    ((incomingOf (story.blocks.filter (·.label ∈ reached))).lookup block.label).isSome)
    _).run.blocks) = _
  rw [filter_isSome_lookup]
  rfl

theorem joined_eq_ok {story joined : StoryGraph κ} (h : story.joined = .ok joined) :
    ∃ reached, story.reachable = .ok reached ∧
      joined = ofBlocks (story.unjoined reached).run.blocks := by
  obtain ⟨incoming, hincoming, -⟩ := bind_eq_ok.1 h
  obtain ⟨reached, hreached, -⟩ := incoming_eq_ok hincoming
  rw [joined_of_reachable hreached, Except.ok.injEq] at h
  exact ⟨reached, hreached, h.symm⟩

theorem stories_joined {story joined : StoryGraph κ} (h : story.joined = .ok joined)
    (dead : Bool) : joined.atlas.stories dead = story.atlas.stories dead := by
  obtain ⟨reached, hreached, rfl⟩ := joined_eq_ok h
  obtain ⟨hrun, hstories⟩ := Merging.run_spec _ (exact_unjoined hreached)
  rw [atlas_ofBlocks hrun.nodup hrun.entry_mem, ← stories_reached hreached]
  exact hstories dead

/-- **Reduction keeps the stories.** The walks from the entry to an ending of a reduced story spell
    the same records, with the same declared names on the way, as those of the story itself, and so
    do the walks to a dead end. -/
theorem stories_reduce [FiniteCheck κ] {tally : Tally κ} {story : StoryGraph κ} {graph : CostedGraph κ}
    (h : story.reduce tally = .ok graph) (dead : Bool) :
    graph.atlas.stories dead = story.atlas.stories dead := by
  obtain ⟨joined, reached, hjoined, hreached, hblocks, -⟩ := reduce_spec h
  rw [CostedGraph.atlas, hblocks, stories_reached hreached, stories_joined hjoined]

/-- Joining the minted block to the entry leaves the ways home and the ways to get lost. -/
theorem stories_reduce_loop : loopStory.reduce pauses = .ok loopGraph ∧
    loopGraph.atlas.stories false = loopStory.atlas.stories false ∧
    loopGraph.atlas.stories true = loopStory.atlas.stories true :=
  ⟨reduce_loopStory, stories_reduce reduce_loopStory false, stories_reduce reduce_loopStory true⟩

end StoryGraph

end Playthrough
