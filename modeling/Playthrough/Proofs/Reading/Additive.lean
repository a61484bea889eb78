import Mathlib
import Playthrough.Proofs.Reading.Accounts

/-!
# Costs add up

The cost of a block is computed from its records in one go, and blocks are joined before that. Since
costs add up, it makes no difference where a block was cut: the records of two blocks together cost
what they cost apart. This holds of the time and of every account.

* `Breakdown.account`: the time on one account, none if there is no such account.
* `Breakdown.account_creditAll`: what crediting adds to it.
* `Settings.HasAccount`: the accounts that records have.
* `Settings.tally_additive`: the costs of records.
-/

namespace Playthrough

open Reading

namespace Breakdown

/-- The time on the account of a category. -/
def account (category : Category) (accounts : Breakdown Rat) : Rat :=
  (accounts.lookup category).getD 0

theorem account_credit {accounts : Breakdown Rat} (h : Ascending Prod.fst accounts)
    (category : Category) (time : Rat) (other : Category) :
    account other (credit category time accounts) =
      account other accounts + if category = other then time else 0 := by
  have hkey : ∀ a b : Category × Rat, a.1 = b.1 → (b.1, b.2 + time).1 = a.1 := fun _ _ hkey =>
    hkey.symm
  unfold account credit
  rw [lookup_place hkey _ h]
  by_cases hother : other = category
  · subst hother
    cases accounts.lookup other <;> simp
  · simp [hother, Ne.symm hother]

/-- Crediting adds to each account the times that go on it. -/
theorem account_creditAll (entries : Breakdown Rat) {accounts : Breakdown Rat}
    (h : Ascending Prod.fst accounts) (category : Category) :
    account category (creditAll entries accounts) =
      account category accounts +
        ((entries.filter (·.1 = category)).map Prod.snd).sum := by
  unfold creditAll
  induction entries generalizing accounts with
  | nil => simp
  | cons entry entries ih =>
    rw [List.foldl_cons, ih (ascending_credit h), account_credit h, List.filter_cons]
    by_cases hcategory : entry.1 = category
    · simp [hcategory, add_assoc]
    · simp [hcategory]

theorem mem_keys_creditAll (entries accounts : Breakdown Rat) (category : Category) :
    category ∈ (creditAll entries accounts).map Prod.fst ↔
      category ∈ entries.map Prod.fst ∨ category ∈ accounts.map Prod.fst := by
  unfold creditAll
  induction entries generalizing accounts with
  | nil => simp
  | cons entry entries ih =>
    have hcredit : category ∈ (credit entry.1 entry.2 accounts).map Prod.fst ↔
        category = entry.1 ∨ category ∈ accounts.map Prod.fst := by
      refine mem_map_key_place ?_ _ accounts category
      intro _ _ hkey
      exact hkey.symm
    rw [List.foldl_cons, ih, hcredit, List.map_cons, List.mem_cons]
    tauto

/-- Breakdowns with the same accounts are the same. -/
theorem eq_of_account {first second : Breakdown Rat} (hfirst : Ascending Prod.fst first)
    (hsecond : Ascending Prod.fst second)
    (hkeys : ∀ category, category ∈ first.map Prod.fst ↔ category ∈ second.map Prod.fst)
    (h : ∀ category, first.account category = second.account category) : first = second := by
  refine hfirst.eq_of_lookup hsecond fun category => ?_
  have hiff := hkeys category
  rw [← Table.isSome_lookup_iff, ← Table.isSome_lookup_iff] at hiff
  have htime := h category
  unfold account at htime
  cases hone : first.lookup category <;> cases htwo : second.lookup category <;> simp_all

end Breakdown

namespace Reading.Settings

variable (settings : Settings Rat)

/-- The accounts that records have: those for scenes and images always, that for pauses if pauses
    count or one is among the records, and that of each speaker who says something. -/
def HasAccount (records : List (Record Rat)) : Category → Prop
  | .speaker who => ∃ line, .dialogue line ∈ records ∧ line.speaker = who ∧ line.text ≠ ""
  | .pause => settings.pause = true ∨ ∃ seconds, .pause seconds ∈ records
  | .scene => True
  | .image => True

/-- The accounts of records. -/
def accounts (records : List (Record Rat)) : Breakdown Rat :=
  Breakdown.creditAll (records.filterMap settings.recordMinutes?) settings.emptyAccounts

theorem ascending_emptyAccounts : Ascending Prod.fst settings.emptyAccounts := by
  unfold emptyAccounts
  split <;> simp [Ascending] <;> decide

theorem account_emptyAccounts (category : Category) : settings.emptyAccounts.account category = 0 := by
  unfold emptyAccounts Breakdown.account
  cases category <;> split <;> rfl

/-- The time on an account is that of the records that go on it. -/
theorem account_accounts (records : List (Record Rat)) (category : Category) :
    (settings.accounts records).account category =
      (((records.filterMap settings.recordMinutes?).filter (·.1 = category)).map Prod.snd).sum := by
  rw [accounts, Breakdown.account_creditAll _ settings.ascending_emptyAccounts,
    account_emptyAccounts, zero_add]

/-- On whose account a record goes, if it takes time. -/
theorem recordMinutes?_eq_some_iff (record : Record Rat) (category : Category) :
    (∃ time, settings.recordMinutes? record = some (category, time)) ↔
      (∃ line, record = .dialogue line ∧ line.text ≠ "" ∧ .speaker line.speaker = category) ∨
      (∃ seconds, record = .pause seconds ∧ .pause = category) ∨
      (record = .scene ∧ .scene = category) ∨ (record = .image ∧ .image = category) := by
  cases record with
  | dialogue line => by_cases htext : line.text = "" <;> simp [recordMinutes?, htext]
  | pause seconds => simp [recordMinutes?]
  | scene => simp [recordMinutes?]
  | image => simp [recordMinutes?]

theorem mem_keys_emptyAccounts (category : Category) :
    category ∈ settings.emptyAccounts.map Prod.fst ↔
      (category = .pause ∧ settings.pause = true) ∨ category = .scene ∨ category = .image := by
  unfold emptyAccounts
  split <;> simp_all

/-- The accounts of records are those that they have. -/
theorem mem_keys_accounts (records : List (Record Rat)) (category : Category) :
    category ∈ (settings.accounts records).map Prod.fst ↔ settings.HasAccount records category := by
  have hcosts : category ∈ (records.filterMap settings.recordMinutes?).map Prod.fst ↔
      ∃ record ∈ records, ∃ time, settings.recordMinutes? record = some (category, time) := by
    simp only [List.mem_map, List.mem_filterMap, Prod.exists, exists_and_right, exists_eq_right]
    exact ⟨fun ⟨time, record, hrecord, heq⟩ => ⟨record, hrecord, time, heq⟩,
      fun ⟨record, hrecord, time, heq⟩ => ⟨time, record, hrecord, heq⟩⟩
  rw [accounts, Breakdown.mem_keys_creditAll, hcosts, mem_keys_emptyAccounts]
  simp only [recordMinutes?_eq_some_iff]
  cases category with
  | speaker who =>
    simp only [HasAccount, reduceCtorEq, and_false, exists_false, or_false, false_and]
    constructor
    · rintro ⟨_, hrecord, line, rfl, htext, hwho⟩
      exact ⟨line, hrecord, Category.speaker.inj hwho, htext⟩
    · rintro ⟨line, hrecord, rfl, htext⟩
      exact ⟨_, hrecord, line, rfl, htext, rfl⟩
  | pause =>
    simp only [HasAccount, reduceCtorEq, and_false, exists_false, or_false, false_or, and_true,
      true_and]
    constructor
    · rintro (⟨_, hrecord, seconds, rfl⟩ | hpause)
      · exact Or.inr ⟨seconds, hrecord⟩
      · exact Or.inl hpause
    · rintro (hpause | ⟨seconds, hrecord⟩)
      · exact Or.inr hpause
      · exact Or.inl ⟨_, hrecord, seconds, rfl⟩
  | scene => simp [HasAccount]
  | image => simp [HasAccount]

theorem ascending_accounts (records : List (Record Rat)) :
    Ascending Prod.fst (settings.accounts records) :=
  Breakdown.ascending_creditAll _ settings.ascending_emptyAccounts

theorem account_append (xs ys : List (Record Rat)) (category : Category) :
    (settings.accounts (xs ++ ys)).account category =
      (settings.accounts xs).account category + (settings.accounts ys).account category := by
  simp only [account_accounts, List.filterMap_append, List.filter_append, List.map_append,
    List.sum_append]

/-- The order of the records makes no difference to their accounts. -/
theorem accounts_perm {xs ys : List (Record Rat)} (h : xs.Perm ys) :
    settings.accounts xs = settings.accounts ys := by
  refine Breakdown.eq_of_account (settings.ascending_accounts xs) (settings.ascending_accounts ys)
    (fun category => ?_) fun category => ?_
  · rw [accounts, accounts, Breakdown.mem_keys_creditAll, Breakdown.mem_keys_creditAll,
      ((h.filterMap settings.recordMinutes?).map Prod.fst).mem_iff]
  · rw [account_accounts, account_accounts]
    exact (((h.filterMap _).filter _).map _).sum_eq

theorem total_append (byCharacters : Bool) (xs ys : List (Record Rat)) :
    (settings.tally byCharacters (xs ++ ys)).total =
      (settings.tally byCharacters xs).total + (settings.tally byCharacters ys).total := by
  simp only [total_tally, List.map_append, List.sum_append]

theorem tally_perm (byCharacters : Bool) {xs ys : List (Record Rat)} (h : xs.Perm ys) :
    settings.tally byCharacters xs = settings.tally byCharacters ys := by
  have htotal : (settings.tally byCharacters xs).total = (settings.tally byCharacters ys).total := by
    rw [total_tally, total_tally]
    exact (h.map settings.recordTime).sum_eq
  cases byCharacters with
  | false => exact congrArg (BlockCost.mk · none) htotal
  | true => exact congrArg₂ BlockCost.mk htotal (congrArg some (settings.accounts_perm h))

/-- **Costs are additive.** The time of two lists of records together is the sum of their times,
    it is the same with accounts and without, and the order of the records makes no difference to
    it. With accounts, the time on every account is the sum of the times on it, where a missing
    account counts as empty, and all accounts together have the whole time. There is one account for
    scenes, one for images, one for pauses if pauses count or there is one, and one for each speaker
    of a line with some text; there are no others. -/
theorem tally_additive (settings : Settings Rat) :
    (∀ byCharacters xs ys, (settings.tally byCharacters (xs ++ ys)).total =
      (settings.tally byCharacters xs).total + (settings.tally byCharacters ys).total) ∧
    (∀ records, (settings.tally true records).total = (settings.tally false records).total) ∧
    (∀ byCharacters (xs ys : List (Record Rat)), xs.Perm ys →
      settings.tally byCharacters xs = settings.tally byCharacters ys) ∧
    (∀ byCharacters record,
      (settings.tally byCharacters [record]).total = settings.recordTime record) ∧
    ∃ accounts : List (Record Rat) → Breakdown Rat,
      (∀ records, (settings.tally true records).breakdown = some (accounts records)) ∧
      (∀ xs ys category, (accounts (xs ++ ys)).account category =
        (accounts xs).account category + (accounts ys).account category) ∧
      ∀ records, (accounts records).sum = (settings.tally true records).total ∧
        ((accounts records).map Prod.fst).Nodup ∧
        ∀ category, category ∈ (accounts records).map Prod.fst ↔
          settings.HasAccount records category := by
  refine ⟨settings.total_append, ?_, fun byCharacters _ _ => settings.tally_perm byCharacters, ?_,
    settings.accounts, fun _ => rfl, settings.account_append, fun records => ⟨?_, ?_, ?_⟩⟩
  · intro records
    rw [total_tally, total_tally]
  · intro byCharacters record
    rw [total_tally, List.map_singleton, List.sum_singleton]
  · obtain ⟨accounts, haccounts, hsum⟩ := settings.sum_tally records
    obtain rfl := Option.some.inj haccounts
    exact hsum
  · exact (settings.ascending_accounts records).nodup
  · exact settings.mem_keys_accounts records

/-- A guest comes in; the host does not greet back. -/
def comingIn : List (Record Rat) :=
  [.scene, .dialogue ⟨.named "Eileen", "Hello there", 29.5⟩, .dialogue ⟨.named "Host", "", 5⟩]

/-- The guest waits and goes out. -/
def goingOut : List (Record Rat) := [.pause 60, .image]

/-- Coming in takes four minutes and going out takes two. The host, who says nothing, has no account,
    and the pause has one although pauses do not count. -/
theorem tally_additive_tavern :
    (comingIn ++ goingOut).Perm (goingOut ++ comingIn) ∧
    ({ tavernSettings with pause := false }.tally true (goingOut ++ comingIn)).total = 2 + 4 ∧
    ({ tavernSettings with pause := false }.tally true (goingOut ++ comingIn)).breakdown =
      some [(.speaker (.named "Eileen"), 2), (.pause, 1), (.scene, 2), (.image, 1)] := by
  have hperm : (comingIn ++ goingOut).Perm (goingOut ++ comingIn) := List.perm_append_comm
  obtain ⟨hadd, -, horder, -⟩ := tally_additive { tavernSettings with pause := false }
  refine ⟨hperm, (hadd true goingOut comingIn).trans ?_, ?_⟩
  · cbv
  · rw [← horder true _ _ hperm]
    cbv

end Reading.Settings

end Playthrough
