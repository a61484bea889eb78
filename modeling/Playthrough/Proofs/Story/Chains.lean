import Playthrough.Proofs.Story.Joined

/-!
# Every block of a reduced story is a chain

Joining loses nothing and doubles nothing. The blocks that play can reach fall into chains, one for
each block of the reduced story, in which each block is always played right after the one before.
The block of a chain has the records of all of them in order, and the exits of the last one. It has
the declared label of the chain, if there is one.

* `Atlas.Follows`: two blocks that are always played together.
* `keptLabel`: the label of a chain.
* `Gathers`, `Chained`: a block as a chain, and a story as chains.
* `Chained.join`: one turn of the pass puts two chains one after the other.
* `chains_reduce`: the chains of a reduced story.
-/

namespace Playthrough

open Relation

variable {κ : Type}

/-! ## Chains -/

/-- In play `second` is all that comes after `first`, and it comes after nothing else. -/
structure Atlas.Follows (atlas : Atlas κ) (first second : Block κ) : Prop where
  next_eq : first.next = [second.label]
  ne_entry : second.label ≠ .entry
  only : ∀ source, atlas.Reaches .entry source → atlas.Leads source second.label →
    source = first.label

/-- The label that a chain keeps: the one that was not minted, or else the first. -/
def keptLabel (chain : List (Block κ)) : Option Label :=
  ((chain.map Block.label).find? (!·.isSynthetic)).or (chain.map Block.label).head?

/-- How many labels of a chain were not minted. -/
def declaredIn (chain : List (Block κ)) : Nat :=
  (chain.map Block.label).countP (!·.isSynthetic)

/-- A block that stands for a chain of blocks of a story. `home` tells where the exits of the story
    lead now. -/
structure Gathers (atlas : Atlas κ) (home : Label → Label) (chain : List (Block κ))
    (block : Block κ) : Prop where
  linked : chain.IsChain atlas.Follows
  text_eq : block.text = chain.flatMap Block.text
  last : ∃ last, chain.getLast? = some last ∧ block.disabled = last.disabled ∧
    block.deadend = last.deadend ∧ block.next = last.next.map home
  declared_le : declaredIn chain ≤ 1
  label_eq : keptLabel chain = some block.label

/-- The blocks of a story in reach are split into chains, one for each of the joined blocks, and each
    exit leads to the block whose chain starts where the exit led in the story. -/
structure Chained (story : StoryGraph κ) (joined : List (Block κ))
    (chain : Label → List (Block κ)) (home : Label → Label) : Prop where
  nodup : ((joined.map Block.label).flatMap chain).Nodup
  mem_iff : ∀ block, block ∈ (joined.map Block.label).flatMap chain ↔
    block ∈ story.blocks ∧ story.atlas.Reaches .entry block.label
  gathers : ∀ block ∈ joined, Gathers story.atlas home (chain block.label) block
  starts : ∀ block ∈ joined, ∀ last, (chain block.label).getLast? = some last →
    ∀ target ∈ last.next, home target ∈ joined.map Block.label ∧
      (chain (home target)).head?.map Block.label = some target

/-! ## The label of a chain -/

section Labels

variable {chain front back : List (Block κ)} {label : Label} {block : Block κ}

/-- A chain with a minted label has only minted ones. -/
theorem minted_of_keptLabel (h : keptLabel chain = some label) (hminted : label.isSynthetic = true) :
    ∀ block ∈ chain, block.label.isSynthetic = true := by
  intro block hblock
  by_contra hdeclared
  have hsome : ((chain.map Block.label).find? (!·.isSynthetic)).isSome := by
    rw [List.find?_isSome]
    exact ⟨block.label, List.mem_map_of_mem hblock, by simpa using hdeclared⟩
  obtain ⟨found, hfound⟩ := Option.isSome_iff_exists.1 hsome
  have hnot : found.isSynthetic = false := by simpa using List.find?_some hfound
  rw [keptLabel, hfound, Option.some_or, Option.some.injEq] at h
  rw [h, hminted] at hnot
  cases hnot

theorem find?_of_minted (h : ∀ block ∈ chain, block.label.isSynthetic = true) :
    (chain.map Block.label).find? (!·.isSynthetic) = none := by
  rw [List.find?_eq_none]
  intro label hlabel
  obtain ⟨block, hblock, rfl⟩ := List.mem_map.1 hlabel
  simp [h block hblock]

theorem declaredIn_of_minted (h : ∀ block ∈ chain, block.label.isSynthetic = true) :
    declaredIn chain = 0 := by
  rw [declaredIn, List.countP_eq_zero]
  intro label hlabel
  obtain ⟨block, hblock, rfl⟩ := List.mem_map.1 hlabel
  simp [h block hblock]

theorem declaredIn_append (front back : List (Block κ)) :
    declaredIn (front ++ back) = declaredIn front + declaredIn back := by
  simp [declaredIn]

/-- The declared label of a chain is the one it keeps. -/
theorem eq_of_declared (h : keptLabel chain = some label) (hle : declaredIn chain ≤ 1)
    (hblock : block ∈ chain) (hdeclared : block.label.isSynthetic = false) :
    block.label = label := by
  have hmem : block.label ∈ (chain.map Block.label).filter (!·.isSynthetic) :=
    List.mem_filter.2 ⟨List.mem_map_of_mem hblock, by simp [hdeclared]⟩
  obtain ⟨rest, hrest⟩ : ∃ rest, (chain.map Block.label).filter (!·.isSynthetic) =
      label :: rest := by
    cases hfilter : (chain.map Block.label).filter (!·.isSynthetic) with
    | nil => simp [hfilter] at hmem
    | cons first rest =>
      rw [keptLabel, ← List.head?_filter, hfilter] at h
      exact ⟨rest, by simpa using h⟩
  have hnil : rest = [] := by
    rw [declaredIn, List.countP_eq_length_filter, hrest, List.length_cons] at hle
    exact List.length_eq_zero_iff.1 (by omega)
  rw [hrest, hnil] at hmem
  exact List.mem_singleton.1 hmem

theorem keptLabel_append_left (hfront : front ≠ [])
    (hback : ∀ block ∈ back, block.label.isSynthetic = true) :
    keptLabel (front ++ back) = keptLabel front := by
  have hhead : ((front ++ back).map Block.label).head? = (front.map Block.label).head? := by
    rw [List.map_append, List.head?_append_of_ne_nil]
    simpa using hfront
  rw [keptLabel, keptLabel, hhead, List.map_append, List.find?_append, find?_of_minted hback,
    Option.or_none]

theorem keptLabel_append_right (hfront : ∀ block ∈ front, block.label.isSynthetic = true)
    (hback : keptLabel back = some label) (hdeclared : label.isSynthetic = false) :
    keptLabel (front ++ back) = some label := by
  have hfind : (back.map Block.label).find? (!·.isSynthetic) = some label := by
    cases hfind : (back.map Block.label).find? (!·.isSynthetic) with
    | some found =>
      rw [keptLabel, hfind, Option.some_or] at hback
      exact hback
    | none =>
      -- without a declared label the chain keeps a minted one
      rw [keptLabel, hfind, Option.none_or] at hback
      have hmem := List.mem_of_head? hback
      have hminted := List.find?_eq_none.1 hfind label hmem
      simp [hdeclared] at hminted
  rw [keptLabel, List.map_append, List.find?_append, find?_of_minted hfront, Option.none_or, hfind,
    Option.some_or]

end Labels

/-! ## Chains of a story -/

/-- A block is a chain of its own. -/
theorem gathers_singleton (atlas : Atlas κ) (block : Block κ) : Gathers atlas id [block] block where
  linked := List.isChain_singleton _
  text_eq := by simp
  last := ⟨block, rfl, rfl, rfl, by simp⟩
  declared_le := List.countP_le_length
  label_eq := by cases hminted : block.label.isSynthetic <;> simp [keptLabel, hminted]

theorem exists_next_of_isChain {α : Type} {step : α → α → Prop} {xs : List α}
    (h : xs.IsChain step) {x : α} (hx : x ∈ xs) :
    xs.getLast? = some x ∨ ∃ y ∈ xs.tail, step x y := by
  induction xs with
  | nil => cases hx
  | cons first rest ih =>
    cases rest with
    | nil =>
      obtain rfl := List.mem_singleton.1 hx
      exact Or.inl rfl
    | cons second rest =>
      rw [List.isChain_cons_cons] at h
      rcases List.mem_cons.1 hx with rfl | hx
      · exact Or.inr ⟨second, List.mem_cons_self, h.1⟩
      · rw [List.getLast?_cons_cons]
        rcases ih h.2 hx with hlast | ⟨y, hy, hstep⟩
        · exact Or.inl hlast
        · exact Or.inr ⟨y, List.mem_cons_of_mem second hy, hstep⟩

namespace Chained

variable {story : StoryGraph κ} {joined : List (Block κ)} {chain : Label → List (Block κ)}
  {home : Label → Label} {a b : Label}

theorem mem_story (h : Chained story joined chain home) (ha : a ∈ joined.map Block.label)
    {block : Block κ} (hblock : block ∈ chain a) :
    story.atlas block.label = some block ∧ story.atlas.Reaches .entry block.label := by
  obtain ⟨hmem, hreach⟩ := (h.mem_iff block).1 (List.mem_flatMap.2 ⟨a, ha, hblock⟩)
  exact ⟨story.mem_blocks_iff.1 hmem, hreach⟩

theorem nodup_chain (h : Chained story joined chain home) (ha : a ∈ joined.map Block.label) :
    (chain a).Nodup :=
  (List.nodup_flatMap.1 h.nodup).1 a ha

theorem exists_chain (h : Chained story joined chain home) {label : Label} {block : Block κ}
    (hblock : story.atlas label = some block) (hreach : story.atlas.Reaches .entry label) :
    ∃ a ∈ joined.map Block.label, block ∈ chain a := by
  obtain ⟨hmem, rfl⟩ := Atlas.label_of_eq_some hblock
  exact List.mem_flatMap.1 ((h.mem_iff block).2 ⟨hmem, hreach⟩)

/-- A block of the story is in one chain only. -/
theorem unique (h : Chained story joined chain home) (ha : a ∈ joined.map Block.label)
    (hb : b ∈ joined.map Block.label) {block : Block κ} (hblock : block ∈ chain a)
    (hblock' : block ∈ chain b) : a = b := by
  by_contra hne
  have hsymm : Std.Symm (Function.onFun List.Disjoint chain) := ⟨fun _ _ hab => hab.symm⟩
  exact (List.nodup_flatMap.1 h.nodup).2.forall ha hb hne hblock hblock'

/-- Chains have distinct first blocks. -/
theorem eq_of_head (h : Chained story joined chain home) (ha : a ∈ joined.map Block.label)
    (hb : b ∈ joined.map Block.label) {first : Block κ} (hfirst : (chain a).head? = some first)
    (hlabel : (chain b).head?.map Block.label = some first.label) : b = a := by
  obtain ⟨other, hother, heq⟩ := Option.map_eq_some_iff.1 hlabel
  have hmem := List.mem_of_head? hfirst
  have hmem' := List.mem_of_head? hother
  have hsame : other = first := by
    have hblock := (h.mem_story hb hmem').1
    rw [heq, (h.mem_story ha hmem).1, Option.some.injEq] at hblock
    exact hblock.symm
  rw [hsame] at hmem'
  exact h.unique hb ha hmem' hmem

/-- No declared label in reach is lost. -/
theorem mem_of_declared (h : Chained story joined chain home) {label : Label} {block : Block κ}
    (hblock : story.atlas label = some block) (hreach : story.atlas.Reaches .entry label)
    (hdeclared : label.isSynthetic = false) : label ∈ joined.map Block.label := by
  obtain ⟨a, ha, hmem⟩ := h.exists_chain hblock hreach
  obtain ⟨present, hpresent, rfl⟩ := List.mem_map.1 ha
  have hgathers := h.gathers present hpresent
  obtain ⟨-, rfl⟩ := Atlas.label_of_eq_some hblock
  rw [eq_of_declared hgathers.label_eq hgathers.declared_le hmem hdeclared]
  exact ha

theorem perm (h : Chained story joined chain home) {other : List (Block κ)}
    (hperm : joined.Perm other) : Chained story other chain home := by
  have hlabels := hperm.map Block.label
  have hflat := hlabels.flatMap_right chain
  refine ⟨hflat.nodup_iff.1 h.nodup, ?_, ?_, ?_⟩
  · intro block
    rw [← hflat.mem_iff, h.mem_iff]
  · intro block hblock
    exact h.gathers block (hperm.mem_iff.2 hblock)
  · intro block hblock last hlast target htarget
    rw [← hlabels.mem_iff]
    exact h.starts block (hperm.mem_iff.2 hblock) last hlast target htarget

end Chained

/-! ## Joining two chains -/

/-- Joining puts one label in the place of two. -/
theorem Merging.Joins.exists_rest {state after : Merging κ} {head tail : Block κ} {kept : Label}
    (h : Joins state after head tail kept) (hexact : state.Exact) (hexact' : after.Exact) :
    ∃ rest, kept ∉ rest ∧
      (state.blocks.map Block.label).Perm (head.label :: tail.label :: rest) ∧
      (after.blocks.map Block.label).Perm (kept :: rest) := by
  let rest := (state.blocks.map Block.label).filter fun label =>
    label ≠ head.label ∧ label ≠ tail.label
  have hrest : ∀ label, label ∈ rest ↔ (state.atlas label).isSome ∧ label ≠ head.label ∧
      label ≠ tail.label := by
    intro label
    rw [List.mem_filter, decide_eq_true_iff, ← Atlas.isSome_of_iff]
  have hnodup : rest.Nodup := hexact.nodup.filter _
  have hkept : kept ∉ rest := by
    intro hmem
    obtain ⟨-, hhead, htail⟩ := (hrest kept).1 hmem
    exact h.ne_kept hhead htail rfl
  refine ⟨rest, hkept, ?_, ?_⟩
  · have hnodup' : (head.label :: tail.label :: rest).Nodup := by
      simp [hnodup, hrest, h.ne.symm]
    refine (List.perm_ext_iff_of_nodup hexact.nodup hnodup').2 ?_
    intro label
    rw [List.mem_cons, List.mem_cons, hrest, ← Atlas.isSome_of_iff]
    by_cases hhead : label = head.label
    · simp [hhead, h.head_eq]
    · by_cases htail : label = tail.label
      · simp [htail, h.tail_eq]
      · simp [hhead, htail]
  · refine (List.perm_ext_iff_of_nodup hexact'.nodup (List.nodup_cons.2 ⟨hkept, hnodup⟩)).2 ?_
    intro label
    rw [← Atlas.isSome_of_iff, h.isSome_iff, List.mem_cons, hrest]
    tauto

/-- A block that is not joined keeps its chain; its exits move along with the blocks they led to. -/
theorem Gathers.relink {atlas : Atlas κ} {home : Label → Label} {chain : List (Block κ)}
    {block : Block κ}
    (h : Gathers atlas home chain block) (source target : Label) :
    Gathers atlas (Label.moved source target ∘ home) chain (block.relink source target) := by
  obtain ⟨last, hlast, hdisabled, hdeadend, hnext⟩ := h.last
  refine ⟨h.linked, h.text_eq, ⟨last, hlast, hdisabled, hdeadend, ?_⟩, h.declared_le, h.label_eq⟩
  rw [Block.next_relink, hnext, List.map_map]

namespace Chained

variable {story : StoryGraph κ} {state after : Merging κ} {chain : Label → List (Block κ)}
  {home : Label → Label} {head tail : Block κ} {kept : Label}

theorem gathers_of_atlas (h : Chained story state.blocks chain home) {label : Label}
    {block : Block κ} (hblock : state.atlas label = some block) :
    label ∈ state.blocks.map Block.label ∧ Gathers story.atlas home (chain label) block := by
  obtain ⟨hmem, rfl⟩ := Atlas.label_of_eq_some hblock
  exact ⟨List.mem_map_of_mem hmem, h.gathers block hmem⟩

/-- The chain of a joined block starts at the entry only if the block is the entry. -/
theorem head_ne_entry (h : Chained story state.blocks chain home) {label : Label} {block : Block κ}
    (hblock : state.atlas label = some block) (hne : label ≠ .entry) {first : Block κ}
    (hfirst : (chain label).head? = some first) : first.label ≠ .entry := by
  intro hentry
  have hgathers := (h.gathers_of_atlas hblock).2
  have heq := eq_of_declared hgathers.label_eq hgathers.declared_le (List.mem_of_head? hfirst)
    (by rw [hentry]; rfl)
  rw [hentry, (Atlas.label_of_eq_some hblock).2] at heq
  exact hne heq.symm

/-- What leads to the first block of a chain is the last block of a chain whose block leads there. -/
theorem leads_head (h : Chained story state.blocks chain home) {label : Label}
    (hlabel : label ∈ state.blocks.map Block.label) {first : Block κ}
    (hfirst : (chain label).head? = some first) {source : Label}
    (hreach : story.atlas.Reaches .entry source) (hleads : story.atlas.Leads source first.label) :
    ∃ a last, state.atlas.Leads a label ∧ (chain a).getLast? = some last ∧
      source = last.label := by
  obtain ⟨block, hblock, hmem⟩ := hleads
  obtain rfl := (Atlas.label_of_eq_some hblock).2
  obtain ⟨a, ha, hin⟩ := h.exists_chain hblock hreach
  obtain ⟨present, hpresent⟩ := Option.isSome_iff_exists.1 (Atlas.isSome_of_iff.2 ha)
  obtain ⟨hpresent_mem, hpresent_label⟩ := Atlas.label_of_eq_some hpresent
  have hgathers := (h.gathers_of_atlas hpresent).2
  rcases exists_next_of_isChain hgathers.linked hin with hlast | ⟨next, hnext, hfollows⟩
  · refine ⟨a, block, ⟨present, hpresent, ?_⟩, hlast, rfl⟩
    obtain ⟨last, hlast', -, -, hexits⟩ := hgathers.last
    rw [hlast, Option.some.injEq] at hlast'
    obtain ⟨hhome, hstart⟩ := h.starts present hpresent_mem block
      (by rw [hpresent_label]; exact hlast) first.label hmem
    rw [hexits, ← hlast', ← h.eq_of_head hlabel hhome hfirst hstart]
    exact List.mem_map_of_mem hmem
  · -- the first block of a chain cannot also follow another block in one
    exfalso
    rw [hfollows.next_eq, List.mem_singleton] at hmem
    have hin' := List.mem_of_head? hfirst
    have hsame : next = first := by
      have hnext' := (h.mem_story ha (List.mem_of_mem_tail hnext)).1
      rw [← hmem, (h.mem_story hlabel hin').1, Option.some.injEq] at hnext'
      exact hnext'.symm
    rw [hsame] at hnext
    have heq := h.unique ha hlabel (List.mem_of_mem_tail hnext) hin'
    rw [heq] at hnext
    have hnodup := h.nodup_chain hlabel
    obtain ⟨rest, hrest⟩ := List.head?_eq_some_iff.1 hfirst
    rw [hrest, List.nodup_cons] at hnodup
    rw [hrest, List.tail_cons] at hnext
    exact hnodup.1 hnext

/-- The chains of two blocks that are joined follow each other. -/
theorem follows (h : Chained story state.blocks chain home)
    (hjoins : Merging.Joins state after head tail kept) {last first : Block κ}
    (hlast : (chain head.label).getLast? = some last)
    (hfirst : (chain tail.label).head? = some first) : story.atlas.Follows last first := by
  obtain ⟨hhead_mem, hhead⟩ := h.gathers_of_atlas hjoins.head_eq
  obtain ⟨htail_mem, -⟩ := h.gathers_of_atlas hjoins.tail_eq
  refine ⟨?_, h.head_ne_entry hjoins.tail_eq hjoins.tail_ne_entry hfirst, ?_⟩
  · obtain ⟨last', hlast', -, -, hexits⟩ := hhead.last
    rw [hlast, Option.some.injEq] at hlast'
    rw [← hlast', hjoins.next_eq] at hexits
    obtain ⟨target, htarget, hhome⟩ := List.map_eq_singleton_iff.1 hexits.symm
    obtain ⟨-, hstart⟩ := h.starts head (Atlas.label_of_eq_some hjoins.head_eq).1 last hlast target
      (by simp [htarget])
    rw [hhome, hfirst, Option.map_some, Option.some.injEq] at hstart
    rw [htarget, hstart]
  · intro source hreach hleads
    obtain ⟨a, last', hleads', hlast', rfl⟩ := h.leads_head htail_mem hfirst hreach hleads
    rw [hjoins.only a hleads', hlast, Option.some.injEq] at hlast'
    rw [hlast']

/-- The chains when the chain of `tail` is put behind that of `head`. -/
def spliced (chain : Label → List (Block κ)) (head tail : Block κ) (kept : Label) :
    Label → List (Block κ) :=
  Function.update chain kept (chain head.label ++ chain tail.label)

@[simp] theorem spliced_kept (chain : Label → List (Block κ)) (head tail : Block κ) (kept : Label) :
    spliced chain head tail kept kept = chain head.label ++ chain tail.label :=
  Function.update_self ..

theorem spliced_of_ne {label : Label} (h : label ≠ kept) :
    spliced chain head tail kept label = chain label :=
  Function.update_of_ne h ..

/-- Splicing moves no block into or out of the chains. -/
theorem spliced_perm (hexact : state.Exact) (hexact' : after.Exact)
    (hjoins : Merging.Joins state after head tail kept) (chain : Label → List (Block κ)) :
    ((after.blocks.map Block.label).flatMap (spliced chain head tail kept)).Perm
      ((state.blocks.map Block.label).flatMap chain) := by
  obtain ⟨rest, hkept, hbefore, hafter⟩ := hjoins.exists_rest hexact hexact'
  have hsame : rest.flatMap (spliced chain head tail kept) = rest.flatMap chain := by
    refine List.flatMap_congr fun label hlabel => spliced_of_ne ?_
    rintro rfl
    exact hkept hlabel
  have hjoined : (kept :: rest).flatMap (spliced chain head tail kept) =
      (head.label :: tail.label :: rest).flatMap chain := by
    simp [hsame]
  refine (hafter.flatMap_right _).trans ?_
  rw [hjoined]
  exact hbefore.symm.flatMap_right chain

/-- The chain of the joined block. -/
theorem gathers_kept (h : Chained story state.blocks chain home)
    (hjoins : Merging.Joins state after head tail kept) :
    Gathers story.atlas (Label.moved head.label kept ∘ home) (chain head.label ++ chain tail.label)
      { tail with
        label := kept
        text := head.text ++ tail.text
        next := tail.next.map (Label.moved head.label kept) } := by
  have hhead := (h.gathers_of_atlas hjoins.head_eq).2
  have htail := (h.gathers_of_atlas hjoins.tail_eq).2
  obtain ⟨last, hlast, hdisabled, hdeadend, hnext⟩ := htail.last
  have hfront : chain head.label ≠ [] := by
    obtain ⟨front, hfront, -⟩ := hhead.last
    rintro hnil
    simp [hnil] at hfront
  refine ⟨?_, ?_, ⟨last, ?_, hdisabled, hdeadend, ?_⟩, ?_, ?_⟩
  · refine List.isChain_append.2 ⟨hhead.linked, htail.linked, ?_⟩
    intro x hx y hy
    exact h.follows hjoins hx hy
  · rw [List.flatMap_append, ← hhead.text_eq, ← htail.text_eq]
  · rw [List.getLast?_append, hlast, Option.some_or]
  · rw [← List.map_map, ← hnext]
  · rw [declaredIn_append]
    rcases hjoins.kept_rule with ⟨-, hminted⟩ | ⟨-, hminted, -⟩
    · have hnone := declaredIn_of_minted (minted_of_keptLabel htail.label_eq hminted)
      have hle := hhead.declared_le
      omega
    · have hnone := declaredIn_of_minted (minted_of_keptLabel hhead.label_eq hminted)
      have hle := htail.declared_le
      omega
  · rcases hjoins.kept_rule with ⟨rfl, hminted⟩ | ⟨rfl, hminted, hdeclared⟩
    · rw [keptLabel_append_left hfront (minted_of_keptLabel htail.label_eq hminted)]
      exact hhead.label_eq
    · exact keptLabel_append_right (minted_of_keptLabel hhead.label_eq hminted) htail.label_eq
        hdeclared

/-- An exit to the start of a chain still leads there. -/
theorem starts_moved (hjoins : Merging.Joins state after head tail kept) {target label : Label}
    (hlabel : label ∈ state.blocks.map Block.label) (hne : label ≠ tail.label)
    (hstart : (chain label).head?.map Block.label = some target) :
    Label.moved head.label kept label ∈ after.blocks.map Block.label ∧
      (spliced chain head tail kept (Label.moved head.label kept label)).head?.map Block.label =
        some target := by
  rw [← Atlas.isSome_of_iff] at hlabel ⊢
  by_cases hhead : label = head.label
  · rw [Label.moved, if_pos hhead, spliced_kept, ← hhead]
    refine ⟨hjoins.isSome_iff.2 (Or.inl rfl), ?_⟩
    obtain ⟨first, hfirst, hfirst_label⟩ := Option.map_eq_some_iff.1 hstart
    rw [List.head?_append, hfirst, Option.some_or, Option.map_some, hfirst_label]
  · rw [Label.moved, if_neg hhead, spliced_of_ne (hjoins.ne_kept hhead hne)]
    exact ⟨hjoins.isSome_iff.2 (Or.inr ⟨hhead, hne, hlabel⟩), hstart⟩

/-- The exits of the last block of a chain lead to chains other than that of `tail`. -/
theorem starts_last (h : Chained story state.blocks chain home)
    (hjoins : Merging.Joins state after head tail kept) {label : Label} {block last : Block κ}
    (hblock : state.atlas label = some block) (hlabel : label ≠ head.label)
    (hlast : (chain label).getLast? = some last) {target : Label} (htarget : target ∈ last.next) :
    Label.moved head.label kept (home target) ∈ after.blocks.map Block.label ∧
      (spliced chain head tail kept (Label.moved head.label kept (home target))).head?.map
        Block.label = some target := by
  obtain ⟨last', hlast', -, -, hnext⟩ := (h.gathers_of_atlas hblock).2.last
  rw [hlast, Option.some.injEq] at hlast'
  have hmem : home target ∈ block.next := by
    rw [hnext, ← hlast']
    exact List.mem_map_of_mem htarget
  obtain ⟨hin, rfl⟩ := Atlas.label_of_eq_some hblock
  obtain ⟨hhome, hstart⟩ := h.starts block hin last hlast target htarget
  exact starts_moved hjoins hhome (hjoins.ne_tail_of_mem hblock hlabel hmem) hstart

/-- One turn that joins two blocks puts their chains one after the other. -/
theorem join (h : Chained story state.blocks chain home) (hexact : state.Exact)
    (hexact' : after.Exact) (hjoins : Merging.Joins state after head tail kept) :
    Chained story after.blocks (spliced chain head tail kept)
      (Label.moved head.label kept ∘ home) := by
  have hperm := spliced_perm hexact hexact' hjoins chain
  have hatlas : ∀ block ∈ after.blocks, after.atlas block.label = some block := fun block hblock =>
    (Atlas.of_eq_some_iff hexact'.nodup).2 ⟨hblock, rfl⟩
  refine ⟨hperm.nodup_iff.2 h.nodup, ?_, ?_, ?_⟩
  · intro block
    rw [hperm.mem_iff, h.mem_iff]
  · intro block hblock
    rcases hjoins.block_cases (hatlas block hblock) with ⟨hkept, rfl⟩ |
      ⟨hhead, htail, old, hold, rfl⟩
    · rw [spliced_kept]
      exact h.gathers_kept hjoins
    · rw [spliced_of_ne (hjoins.ne_kept hhead htail)]
      exact ((h.gathers_of_atlas hold).2).relink head.label kept
  · intro block hblock last hlast target htarget
    rcases hjoins.block_cases (hatlas block hblock) with ⟨hkept, -⟩ |
      ⟨hhead, htail, old, hold, -⟩
    · -- the exits of the joined block are those of `tail`
      have hlast_tail : (chain tail.label).getLast? = some last := by
        obtain ⟨last', hlast', -⟩ := (h.gathers_of_atlas hjoins.tail_eq).2.last
        rw [hkept, spliced_kept, List.getLast?_append, hlast', Option.some_or] at hlast
        rw [hlast', hlast]
      exact h.starts_last hjoins hjoins.tail_eq hjoins.ne hlast_tail htarget
    · rw [spliced_of_ne (hjoins.ne_kept hhead htail)] at hlast
      exact h.starts_last hjoins hold hhead hlast htarget

end Chained

/-! ## The chains of a reduced story -/

namespace StoryGraph

variable {story joined : StoryGraph κ}

/-- Before any blocks are joined, each block is a chain of its own. -/
theorem chained_unjoined {reached : List Label} (h : story.reachable = .ok reached) :
    Chained story (story.unjoined reached).blocks
      (fun label => ((story.unjoined reached).atlas label).toList) id := by
  have hexact := exact_unjoined h
  have hmem : ∀ block, block ∈ (story.unjoined reached).blocks ↔
      block ∈ story.blocks ∧ story.atlas.Reaches .entry block.label := by
    intro block
    rw [← mem_reachable_iff h]
    simp [unjoined, Merging.start]
  have hatlas : ∀ block ∈ (story.unjoined reached).blocks,
      (story.unjoined reached).atlas block.label = some block := fun block hblock =>
    (Atlas.of_eq_some_iff hexact.nodup).2 ⟨hblock, rfl⟩
  refine ⟨?_, ?_, ?_, ?_⟩
  · refine List.nodup_flatMap.2 ⟨fun label _ => Option.toList_nodup _, ?_⟩
    refine hexact.nodup.imp fun {a b} hne => ?_
    intro block ha hb
    rw [Option.mem_toList] at ha hb
    rw [← (Atlas.label_of_eq_some ha).2, (Atlas.label_of_eq_some hb).2] at hne
    exact hne rfl
  · intro block
    rw [← hmem, List.mem_flatMap]
    constructor
    · rintro ⟨label, -, hblock⟩
      exact (Atlas.label_of_eq_some (Option.mem_toList.1 hblock)).1
    · intro hblock
      exact ⟨block.label, List.mem_map_of_mem hblock, by simp [hatlas block hblock]⟩
  · intro block hblock
    rw [hatlas block hblock, Option.toList_some]
    exact gathers_singleton story.atlas block
  · intro block hblock last hlast target htarget
    rw [hatlas block hblock, Option.toList_some, List.getLast?_singleton, Option.some.injEq] at hlast
    subst hlast
    have hreach : story.atlas.Reaches .entry target := by
      obtain ⟨hin, hreach⟩ := (hmem block).1 hblock
      exact hreach.tail ⟨block, story.mem_blocks_iff.1 hin, htarget⟩
    obtain ⟨next, hnext⟩ := Option.isSome_iff_exists.1 ((isSome_unjoined_iff h).2 hreach)
    obtain ⟨hin, rfl⟩ := Atlas.label_of_eq_some hnext
    refine ⟨List.mem_map_of_mem hin, ?_⟩
    rw [id, hnext]
    rfl

theorem exists_chained_run {state : Merging κ} (hexact : state.Exact)
    (h : ∃ chain home, Chained story state.blocks chain home) :
    ∃ chain home, Chained story state.run.blocks chain home := by
  refine (Merging.run_induction (motive := fun state =>
    ∃ chain home, Chained story state.blocks chain home) ?_ ?_ ?_ state hexact h).1
  · intro state label queue _ h _ _
    exact h
  · intro state block queue _ h _ _ _ _
    exact h
  · rintro state after head tail kept queue hexact hexact' ⟨chain, home, h⟩ - hjoins
    have hchained : Chained story ({ state with queue } : Merging κ).blocks chain home := h
    exact ⟨_, _, hchained.join hexact hexact' hjoins⟩

theorem exists_chained_joined (h : story.joined = .ok joined) :
    ∃ chain home, Chained story joined.blocks chain home := by
  obtain ⟨reached, hreached, rfl⟩ := joined_eq_ok h
  have hexact := exact_unjoined hreached
  have hrun := (Merging.run_spec _ hexact).1
  obtain ⟨chain, home, hchained⟩ := exists_chained_run hexact ⟨_, _, chained_unjoined hreached⟩
  refine ⟨chain, home, hchained.perm ?_⟩
  refine (List.perm_ext_iff_of_nodup hrun.nodup.of_map (nodup_labels _).of_map).2 ?_
  intro block
  rw [mem_blocks_iff, atlas_joined hreached, Atlas.of_eq_some_iff hrun.nodup, and_iff_left rfl]

/-- **Chains.** The blocks of a story that play can reach fall into chains, one for each block of the
    reduced story. In a chain each block is the only one that follows the block before it, and
    follows no other. The block of the reduced story has the records of the whole chain in order, the
    flags and the exits of its last block, where each exit leads to the block whose chain starts
    there, and the label of the chain that was not minted, of which there is one at most. So no
    declared label in reach is lost. -/
theorem chains_reduce [FiniteCheck κ] {tally : Tally κ} {graph : CostedGraph κ}
    (h : story.reduce tally = .ok graph) :
    (∃ chain home, Chained story (graph.blocks.map CostedBlock.block) chain home) ∧
      ∀ label, label.isSynthetic = false → story.atlas.Reaches .entry label →
        (graph.atlas label).isSome := by
  obtain ⟨joined, hjoined, hblocks⟩ := blocks_reduce h
  obtain ⟨chain, home, hchained⟩ := exists_chained_joined hjoined
  rw [CostedGraph.atlas, hblocks]
  refine ⟨⟨chain, home, hchained⟩, ?_⟩
  intro label hdeclared hreach
  obtain ⟨reached, hreached, -⟩ := joined_eq_ok hjoined
  obtain ⟨block, hblock⟩ := Option.isSome_iff_exists.1 (isSome_of_reachable hreached hreach)
  exact Atlas.isSome_of_iff.2 (hchained.mem_of_declared hblock hreach hdeclared)

/-- The nine blocks of the town in reach fall into six chains. -/
theorem chains_reduce_town :
    townStory.reduce pauses = .ok townGraph ∧
      (∃ chain home, Chained townStory (townGraph.blocks.map CostedBlock.block) chain home) ∧
      ∀ label, label.isSynthetic = false → townStory.atlas.Reaches .entry label →
        (townGraph.atlas label).isSome :=
  ⟨reduce_townStory, chains_reduce reduce_townStory⟩

end StoryGraph

end Playthrough
