import Mathlib
import Playthrough.Proofs.Reading.Costs
import Playthrough.Proofs.Route.Itinerary

/-!
# The accounts of a route

The time of a route and its accounts are computed apart: the time while the route is sought, by two
searches of which one adds up whole components, and the accounts afterwards, over the blocks of the
route. Both come to the sum of the times of these blocks.

* `Breakdown.sum_creditAll`: crediting loses no time.
* `CostedGraph.sum_breakdown`: the accounts of a route add up to the times of its blocks.
* `total_shortest`, `Trim.total_longest`: so does the time of either route.
* `pairwise_shares`: the shares are sorted, and equal ones stay in the order of the categories.
* `accounts_estimate`: the shares in the report on a script.
-/

namespace Playthrough

open Reading

/-! ## Crediting -/

namespace Breakdown

/-- The time on all accounts together. -/
def sum (accounts : Breakdown Rat) : Rat := (accounts.map Prod.snd).sum

theorem sum_credit (category : Category) (time : Rat) (accounts : Breakdown Rat) :
    (credit category time accounts).sum = accounts.sum + time := by
  unfold credit sum
  induction accounts with
  | nil => simp [place]
  | cons entry accounts ih =>
    rw [place]
    split
    · simp only [List.map_cons, List.sum_cons]
      ring
    · simp only [List.map_cons, List.sum_cons]
      ring
    · simp only [List.map_cons, List.sum_cons, ih]
      ring

/-- Crediting loses no time. -/
theorem sum_creditAll (entries accounts : Breakdown Rat) :
    (creditAll entries accounts).sum = accounts.sum + entries.sum := by
  unfold creditAll
  induction entries generalizing accounts with
  | nil => simp [sum]
  | cons entry entries ih =>
    rw [List.foldl_cons, ih, sum_credit]
    simp only [sum, List.map_cons, List.sum_cons]
    ring

theorem ascending_creditAll (entries : Breakdown Rat) {accounts : Breakdown Rat}
    (h : Ascending Prod.fst accounts) : Ascending Prod.fst (creditAll entries accounts) := by
  unfold creditAll
  induction entries generalizing accounts with
  | nil => exact h
  | cons entry entries ih => exact ih (ascending_credit h)

end Breakdown

/-- The accounts of a block add up to its cost. -/
theorem Reading.Settings.sum_tally (settings : Settings Rat) (records : List (Record Rat)) :
    ∃ accounts, (settings.tally true records).breakdown = some accounts ∧
      accounts.sum = (settings.tally true records).total := by
  refine ⟨_, rfl, ?_⟩
  have hempty : settings.emptyAccounts.sum = 0 := by
    unfold emptyAccounts Breakdown.sum
    split <;> simp
  rw [Breakdown.sum_creditAll, hempty, zero_add, total_tally, ← sum_filterMap_recordMinutes?]
  rfl

/-! ## Routes -/

namespace CostedGraph

variable {graph : CostedGraph Rat}

/-- All blocks keep accounts, and these add up to the cost of the block. -/
def Accounted (graph : CostedGraph Rat) : Prop :=
  ∀ costed ∈ graph.blocks, ∃ accounts, costed.cost.breakdown = some accounts ∧
    accounts.sum = costed.cost.total

theorem Accounted.sum_accounts (h : graph.Accounted) (label : Label) :
    (graph.accounts label).sum = graph.time label := by
  unfold accounts time
  cases hget : graph.get? label with
  | none => rfl
  | some costed =>
    obtain ⟨accounts, haccounts, hsum⟩ := h costed (List.mem_of_find?_eq_some hget)
    rw [Option.bind_some, haccounts]
    exact hsum

/-- The accounts of a route add up to the times of its blocks. -/
theorem Accounted.sum_breakdown (h : graph.Accounted) (route : Route Rat) :
    (graph.breakdown route).sum = (route.labels.map graph.time).sum := by
  have hfold : ∀ (labels : List Label) (start : Breakdown Rat),
      Breakdown.sum (labels.foldl (fun sum label => Breakdown.creditAll (graph.accounts label) sum)
        start) = start.sum + (labels.map graph.time).sum := by
    intro labels
    induction labels with
    | nil => simp
    | cons label labels ih =>
      intro start
      rw [List.foldl_cons, ih, Breakdown.sum_creditAll, h.sum_accounts, List.map_cons,
        List.sum_cons, add_assoc]
  rw [breakdown, hfold]
  exact zero_add _

theorem ascending_breakdown (graph : CostedGraph Rat) (route : Route Rat) :
    Ascending Prod.fst (graph.breakdown route) := by
  unfold breakdown
  generalize hstart : ([] : Breakdown Rat) = start
  have hascending : Ascending Prod.fst start := hstart ▸ List.Pairwise.nil
  clear hstart
  induction route.labels generalizing start with
  | nil => exact hascending
  | cons label labels ih => exact ih _ (Breakdown.ascending_creditAll _ hascending)

/-- The shortest route takes the time of its blocks. -/
theorem total_shortest (htrim : graph.Trim) (htime : graph.TimePasses) {route : Route Rat}
    (hroute : graph.shortest = some route) :
    route.total = (route.labels.map graph.time).sum := by
  obtain ⟨walk, hsteps, -, -, htotal⟩ := shortest_sound htrim htime hroute
  have hlabels : route.labels = walk := by
    rw [Route.labels, hsteps, List.flatMap_map]
    exact List.flatMap_singleton' walk
  rw [← htotal, arrival_eq_sum, hlabels]

/-- The longest route takes the time of its blocks, those of its loops included. -/
theorem Trim.total_longest (htrim : graph.Trim) {route : Route Rat}
    (hroute : graph.longest = some route) :
    route.total = (route.labels.map graph.time).sum := by
  obtain ⟨start, hstart⟩ := htrim.exists_numberOf_entry
  obtain ⟨last, path, -, -, -, hsteps, htotal⟩ := htrim.longest_path hstart hroute
  have hlabels : route.labels = path.flatMap graph.members := by
    simp only [Route.labels, hsteps, List.flatMap_map, labels_stepAt]
  rw [htotal, htrim.sum_time_condense, hlabels]

end CostedGraph

/-! ## Shares -/

/-- The order of shares: the larger first, equal ones in the order of the categories. -/
def Share.Before (a b : Share Rat) : Prop :=
  b.time < a.time ∨ b.time = a.time ∧ compare a.category b.category = .lt

/-- In a list without repetition, two entries stand in one order only. -/
theorem not_sublist_swap {α : Type} {a b : α} {list : List α} (h : list.Nodup)
    (hab : [a, b].Sublist list) : ¬ [b, a].Sublist list := by
  intro hba
  induction list with
  | nil => cases hab
  | cons x list ih =>
    obtain ⟨hx, hlist⟩ := List.nodup_cons.1 h
    cases hab with
    | cons _ hab =>
      cases hba with
      | cons _ hba => exact ih hlist hab hba
      | cons_cons _ _ => exact hx (hab.subset (by simp))
    | cons_cons _ hb =>
      cases hba with
      | cons _ hba => exact hx (hba.subset (by simp))
      | cons_cons _ _ => exact hx (List.singleton_sublist.1 hb)

theorem sublist_or_swap {α : Type} {a b : α} {list : List α} (ha : a ∈ list) (hb : b ∈ list)
    (hne : a ≠ b) : [a, b].Sublist list ∨ [b, a].Sublist list := by
  induction list with
  | nil => cases ha
  | cons x list ih =>
    rcases List.mem_cons.1 ha with rfl | ha'
    · have hb' : b ∈ list := (List.mem_cons.1 hb).resolve_left hne.symm
      exact Or.inl ((List.singleton_sublist.2 hb').cons_cons a)
    · rcases List.mem_cons.1 hb with rfl | hb'
      · exact Or.inr ((List.singleton_sublist.2 ha').cons_cons b)
      · exact (ih ha' hb').imp (·.cons x) (·.cons x)

namespace CostedGraph

variable (graph : CostedGraph Rat) (route : Route Rat)

/-- The accounts of a route as shares, in the order of the categories. -/
def entries : List (Share Rat) := (graph.breakdown route).map fun entry => ⟨entry.1, entry.2⟩

theorem shares_perm : (graph.shares route).Perm (graph.entries route) :=
  List.mergeSort_perm _ _

/-- Every category has one share. -/
theorem nodup_categories : ((graph.shares route).map Share.category).Nodup := by
  refine (((graph.shares_perm route).map Share.category).nodup_iff).2 ?_
  rw [entries, List.map_map]
  exact (graph.ascending_breakdown route).nodup

/-- The shares are sorted, and equal ones stay in the order of the categories. -/
theorem pairwise_shares : (graph.shares route).Pairwise Share.Before := by
  have htrans : ∀ a b c : Share Rat, decide (b.time ≤ a.time) = true →
      decide (c.time ≤ b.time) = true → decide (c.time ≤ a.time) = true := by
    intro a b c hab hbc
    rw [decide_eq_true_eq] at hab hbc ⊢
    exact hbc.trans hab
  have htotal : ∀ a b : Share Rat,
      (decide (b.time ≤ a.time) || decide (a.time ≤ b.time)) = true := by
    intro a b
    rw [Bool.or_eq_true, decide_eq_true_eq, decide_eq_true_eq]
    exact le_total b.time a.time
  have hentries : (graph.entries route).Pairwise fun a b => compare a.category b.category = .lt :=
    List.pairwise_map.2 (graph.ascending_breakdown route)
  have hcategories := graph.nodup_categories route
  refine List.pairwise_iff_forall_sublist.2 fun {a b} hsub => ?_
  have hle : b.time ≤ a.time :=
    of_decide_eq_true (List.pairwise_iff_forall_sublist.1
      (List.pairwise_mergeSort htrans htotal (graph.entries route)) hsub)
  refine hle.lt_or_eq.imp_right fun heq => ⟨heq, ?_⟩
  have hne : a ≠ b := fun hab =>
    List.pairwise_iff_forall_sublist.1 (List.pairwise_map.1 hcategories) hsub (by rw [hab])
  have hmem : ∀ share ∈ [a, b], share ∈ graph.entries route := fun share hshare =>
    (graph.shares_perm route).mem_iff.1 (hsub.subset hshare)
  -- had the two been listed the other way round, sorting would not have swapped them
  rcases sublist_or_swap (hmem a (by simp)) (hmem b (by simp)) hne with hbefore | hafter
  · exact List.pairwise_iff_forall_sublist.1 hentries hbefore
  · have hkept := List.pair_sublist_mergeSort htrans htotal (decide_eq_true heq.ge) hafter
    exact absurd hkept (not_sublist_swap hcategories.of_map hsub)

end CostedGraph

/-! ## Reports -/

/-- The report on a route gives its time and its accounts: these add up to the time, and the shares
    are the accounts, one for each category, sorted. Without a route there is nothing to share. -/
structure BoundReport.Accounts (graph : CostedGraph Rat) (found : Option (Route Rat))
    (bound : BoundReport Rat) : Prop where
  time : bound.time = found.map Route.total
  absent : found = none → bound.shares = some []
  present : ∀ route, found = some route → ∃ shares, bound.shares = some shares ∧
    ((graph.breakdown route).map Prod.snd).sum = route.total ∧
    (shares.map fun share => (share.category, share.time)).Perm (graph.breakdown route) ∧
    (shares.map Share.category).Nodup ∧ shares.Pairwise Share.Before

theorem BoundReport.accounts_of {graph : CostedGraph Rat} (haccounted : graph.Accounted)
    {detail : Detail} (hdetail : detail.byCharacters = true) {found : Option (Route Rat)}
    (htotal : ∀ route, found = some route → route.total = (route.labels.map graph.time).sum) :
    (BoundReport.of graph detail found).Accounts graph found := by
  refine ⟨rfl, ?_, ?_⟩
  · rintro rfl
    simp [BoundReport.of, hdetail]
  · rintro route rfl
    refine ⟨graph.shares route, by simp [BoundReport.of, hdetail], ?_, ?_,
      graph.nodup_categories route, graph.pairwise_shares route⟩
    · rw [htotal route rfl]
      exact haccounted.sum_breakdown route
    · have hperm := (graph.shares_perm route).map fun share => (share.category, share.time)
      rw [CostedGraph.entries, List.map_map] at hperm
      exact hperm.trans (List.Perm.of_eq (List.map_id _))

theorem accounted_of_reducedStory {settings : Settings Rat} {lines : List (String × Nat)}
    {draft : Draft Rat} {graph : CostedGraph Rat} (hdraft : draftOf settings lines = .ok draft)
    (hgraph : reducedStory settings true draft = .ok graph) : graph.Accounted := by
  obtain ⟨-, -, -, hcosts⟩ := joined_of_reducedStory hdraft hgraph
  intro costed hcosted
  rw [hcosts costed hcosted]
  exact settings.sum_tally costed.block.text

/-- **The accounts of a script.** Under accepted settings, a report with accounts gives for each
    bound that is asked for the time of the route, accounts that add up to this time, and as shares
    these accounts, one for each category, the larger ones first and equal ones in the order of the
    categories. -/
theorem accounts_estimate {settings : Settings Rat} {request : Request} {file : String}
    {lines : List (String × Nat)} {report : FileReport Rat} (hvalid : settings.validate = .ok ())
    (hdetail : request.detail.byCharacters = true)
    (h : estimate settings request file lines = .ok report) :
    ∃ draft graph, draftOf settings lines = .ok draft ∧
      reducedStory settings true draft = .ok graph ∧
      report.minimum.isSome = request.minimum ∧ report.maximum.isSome = request.maximum ∧
      (∀ bound, report.minimum = some bound → bound.Accounts graph graph.shortest) ∧
      ∀ bound, report.maximum = some bound → bound.Accounts graph graph.longest := by
  obtain ⟨draft, hdraft, h⟩ := bind_eq_ok.1 h
  obtain ⟨graph, hgraph, h⟩ := bind_eq_ok.1 h
  obtain rfl := Except.ok.inj h
  rw [hdetail] at hgraph
  have haccounted := accounted_of_reducedStory hdraft hgraph
  have htrim := trim_of_reducedStory hgraph
  have htime : graph.TimePasses := CostedGraph.timePasses_of_nonneg fun costed hcosted =>
    (costs_of_reducedStory (Settings.sane_of_validate hvalid) hdraft hgraph costed hcosted).1
  refine ⟨draft, graph, hdraft, hgraph, ?_, ?_, ?_, ?_⟩
  · cases request.minimum <;> rfl
  · cases request.maximum <;> rfl
  · intro bound hbound
    obtain ⟨-, hbound⟩ := Option.ite_none_right_eq_some.1 hbound
    obtain rfl := Option.some.inj hbound
    exact BoundReport.accounts_of haccounted hdetail fun _ =>
      CostedGraph.total_shortest htrim htime
  · intro bound hbound
    obtain ⟨-, hbound⟩ := Option.ite_none_right_eq_some.1 hbound
    obtain rfl := Option.some.inj hbound
    exact BoundReport.accounts_of haccounted hdetail fun _ => htrim.total_longest

/-- The longest evening in the tavern: Eileen and the scenes take two minutes each, the pause and the
    pictures one. -/
theorem accounts_estimate_tavern :
    tavernSettings.validate = .ok () ∧
    ∃ report, estimate tavernSettings { detail := { byCharacters := true } } "tavern"
        (tavernLines.zipIdx 1) = .ok report ∧
      ∃ bound, report.maximum = some bound ∧ bound.Accounts tavernGraph tavernGraph.longest ∧
        bound.time = some 6 ∧
        bound.shares.map (List.map fun share => (share.category, share.time)) =
          some [(.speaker (.named "Eileen"), 2), (.scene, 2), (.pause, 1), (.image, 1)] := by
  have hvalid : tavernSettings.validate = .ok () := by cbv
  obtain ⟨draft, hdraft, hgraph⟩ := reduce_tavern
  have hestimate : estimate tavernSettings { detail := { byCharacters := true } } "tavern"
      (tavernLines.zipIdx 1) = .ok _ :=
    bind_eq_ok.2 ⟨draft, hdraft, bind_eq_ok.2 ⟨tavernGraph, hgraph, rfl⟩⟩
  obtain ⟨draft', graph', hdraft', hgraph', -, -, -, hmaximum⟩ :=
    accounts_estimate hvalid rfl hestimate
  obtain rfl := Except.ok.inj (hdraft.symm.trans hdraft')
  obtain rfl := Except.ok.inj (hgraph.symm.trans hgraph')
  refine ⟨hvalid, _, hestimate, _, rfl, hmaximum _ rfl, ?_, ?_⟩
  · cbv
  · cbv

end Playthrough
