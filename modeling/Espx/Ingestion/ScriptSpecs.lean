import Espx.Ingestion.Scripts
import Mathlib.Tactic.Ring

/-!
# What the debit scripts do

An execution either refuses the event, and then at most the ingress counter has changed, or it performs
the writes of acceptance. Their effect on a counter is a sum of contributions, one for each key the
counter could be, so that no statement here asks for keys to be different from each other.
-/

namespace Espx.Ingestion

open Espx.Foundation Redis

section

variable (k : DebitKeys) (amount : ℤ) (camp customerID : String) (r : Redis)

variable (syncKey dirtySet idStr : String)

theorem addToSync_num :
    (addToSync syncKey dirtySet amount idStr r).num = (r.incrBy syncKey amount).num := by
  unfold addToSync
  dsimp only
  split <;> rfl

theorem addToSync_frame :
    let next := addToSync syncKey dirtySet amount idStr r
    next.text = r.text ∧ next.streams = r.streams ∧ next.hashes = r.hashes := by
  unfold addToSync
  dsimp only
  split <;> exact ⟨rfl, rfl, rfl⟩

theorem addToSync_mem_of_empty (h : r.count syncKey = 0) :
    idStr ∈ (addToSync syncKey dirtySet amount idStr r).sets dirtySet := by
  unfold addToSync
  dsimp only
  rw [incrBy_count_self, h, zero_add, if_pos rfl, sadd_sets_self]
  exact Finset.mem_insert_self _ _

/-- Adding to a sync counter never makes an id clean. -/
theorem addToSync_sets_mono {set member : String} (h : member ∈ r.sets set) :
    member ∈ (addToSync syncKey dirtySet amount idStr r).sets set := by
  unfold addToSync
  dsimp only
  split
  · by_cases hset : set = dirtySet
    · rw [hset, sadd_sets_self]
      exact Finset.mem_insert_of_mem (hset ▸ h)
    · rw [sadd_sets_of_ne _ _ hset]
      exact h
  · exact h

theorem recordDualWrite_frame (spendKey : String) :
    let next := recordDualWrite spendKey camp amount r
    next.num = r.num ∧ next.text = r.text ∧ next.sets = r.sets ∧ next.hashes = r.hashes := by
  unfold recordDualWrite
  split <;> exact ⟨rfl, rfl, rfl, rfl⟩

theorem debit_num :
    (debit k amount camp customerID r).num =
      (((r.incrBy k.spendKey (-amount)).incrBy k.campaignSyncKey amount).incrBy
        k.customerSyncKey amount).num := by
  unfold debit
  rw [(recordDualWrite_frame ..).1, addToSync_num]
  simp only [incrBy, setNum, count, addToSync_num]

theorem debit_num_of_ne {key : String} (hs : key ≠ k.spendKey) (hc : key ≠ k.campaignSyncKey)
    (hu : key ≠ k.customerSyncKey) : (debit k amount camp customerID r).num key = r.num key := by
  rw [debit_num, incrBy_num_of_ne _ _ hu, incrBy_num_of_ne _ _ hc, incrBy_num_of_ne _ _ hs]

theorem debit_writes {keys : List String} {before : Redis} (h : Writes keys before r)
    (hkeys : [k.spendKey, k.campaignSyncKey, k.customerSyncKey] ⊆ keys) :
    Writes keys before (debit k amount camp customerID r) := by
  simp only [List.cons_subset, List.nil_subset, and_true] at hkeys
  obtain ⟨hs, hc, hu⟩ := hkeys
  intro key
  rw [debit_num]
  exact ((h.setNum hs _).setNum hc _).setNum hu _ key

/-- A counter after a debit. -/
def DebitKeys.counted (key : String) (count : ℤ) : ℤ :=
  count + (if key = k.spendKey then -amount else 0) + (if key = k.campaignSyncKey then amount else 0) +
    (if key = k.customerSyncKey then amount else 0)

theorem debit_count (key : String) :
    (debit k amount camp customerID r).count key = k.counted amount key (r.count key) := by
  rw [count, debit_num]
  change count _ key = _
  rw [incrBy_count, incrBy_count, incrBy_count]
  rfl

theorem DebitKeys.counted_zero (key : String) (count : ℤ) : k.counted 0 key count = count := by
  simp [counted]

/-- A debit touches neither texts nor hashes. -/
theorem debit_frame :
    (debit k amount camp customerID r).text = r.text ∧
      (debit k amount camp customerID r).hashes = r.hashes := by
  unfold debit
  rw [(recordDualWrite_frame ..).2.1, (recordDualWrite_frame ..).2.2.2, (addToSync_frame ..).1,
    (addToSync_frame ..).1, (addToSync_frame ..).2.2, (addToSync_frame ..).2.2]
  exact ⟨rfl, rfl⟩

theorem debit_mem_of_empty (hne : k.campaignSyncKey ≠ k.spendKey) (h : r.count k.campaignSyncKey = 0) :
    camp ∈ (debit k amount camp customerID r).sets k.dirtyCampaigns := by
  unfold debit
  rw [(recordDualWrite_frame ..).2.2.1]
  apply addToSync_sets_mono
  apply addToSync_mem_of_empty
  rw [incrBy_count_of_ne _ _ hne, h]

theorem debit_sets_mono {set member : String} (h : member ∈ r.sets set) :
    member ∈ (debit k amount camp customerID r).sets set := by
  unfold debit
  rw [(recordDualWrite_frame ..).2.2.1]
  exact addToSync_sets_mono _ _ _ _ _ (addToSync_sets_mono _ _ _ _ _ h)

/-- The streams after a debit: one more entry for a running slot migration. -/
theorem debit_streams :
    (debit k amount camp customerID r).streams =
      if (r.text dualWriteFlag).isSome then
        (r.xadd dualWriteStream (dualWriteEntry k.spendKey camp amount)).streams
      else r.streams := by
  unfold debit recordDualWrite
  simp only [(addToSync_frame ..).1, incrBy_text]
  split
  · simp only [xadd, (addToSync_frame ..).2.1, incrBy_streams]
  · rw [(addToSync_frame ..).2.1, (addToSync_frame ..).2.1, incrBy_streams]

end

namespace Precheck

variable (p : Precheck) (r : Redis) {key : String}

theorem countIngress_writes {keys : List String} (h : p.ingressKey ∈ keys) :
    Writes keys r (p.countIngress r) := by
  unfold countIngress
  split
  · exact Writes.refl.setNum h _
  · exact .refl

theorem countIngress_count_of_ne (h : key ≠ p.ingressKey) :
    (p.countIngress r).count key = r.count key := by
  rw [count, (p.countIngress_writes r (List.mem_singleton_self _)).num (by simpa using h), count]

theorem countIngress_frame :
    (p.countIngress r).text = r.text ∧ (p.countIngress r).sets = r.sets ∧
      (p.countIngress r).hashes = r.hashes ∧ (p.countIngress r).streams = r.streams := by
  unfold countIngress
  split <;> exact ⟨rfl, rfl, rfl, rfl⟩

end Precheck

/-- The codes with which the scripts refuse an event. -/
def refusalCodes : List ℤ := [-1, 2, 3, 4, 5, 6, 7, 11, 12, 14]

/-- The state after a refused event: at most the ingress was counted. -/
def Refused (p : Precheck) (before after : Redis) : Prop := after = before ∨ after = p.countIngress before

/-- The prechecks refuse the event, or count it and let it pass. -/
theorem Precheck.run_cases (p : Precheck) (r : Redis) :
    (∃ code after, p.run r = (some code, after) ∧ code ∈ refusalCodes ∧ Refused p r after) ∨
      p.run r = (none, p.countIngress r) := by
  unfold Precheck.run
  split
  · exact .inl ⟨11, r, rfl, by decide, .inl rfl⟩
  split
  · exact .inl ⟨14, r, rfl, by decide, .inl rfl⟩
  · split
    · exact .inl ⟨12, p.countIngress r, rfl, by decide, .inr rfl⟩
    · exact .inr rfl

variable {before after : Redis}

section

variable {p : Precheck} (h : Refused p before after)
include h

theorem Refused.writes {keys : List String} (hkey : p.ingressKey ∈ keys) : Writes keys before after := by
  rcases h with rfl | rfl
  · exact .refl
  · exact p.countIngress_writes before hkey

theorem Refused.num {key : String} (hkey : key ≠ p.ingressKey) : after.num key = before.num key :=
  (h.writes (List.mem_singleton_self _)).num (by simpa using hkey)

theorem Refused.frame :
    after.text = before.text ∧ after.sets = before.sets ∧ after.hashes = before.hashes ∧
      after.streams = before.streams := by
  rcases h with rfl | rfl
  · exact ⟨rfl, rfl, rfl, rfl⟩
  · exact p.countIngress_frame before

end

namespace BudgetFastCall

variable (c : BudgetFastCall) (r : Redis) {key : String}

/-- `budget-fast.lua` refuses the event, or finds it charged already, or accepts it. -/
theorem run_cases :
    (((c.run r).1 ∈ refusalCodes ∨ ((c.run r).1 = 0 ∧ (r.num c.idempotencyKey).isSome)) ∧
        Refused c.precheck r (c.run r).2) ∨
      ((c.run r).1 ∉ refusalCodes ∧ r.num c.idempotencyKey = none ∧
        (∃ spend, r.num c.keys.spendKey = some spend ∧ (c.skipBudget = false → c.amount ≤ spend)) ∧
        (c.run r).2 = c.accept (c.precheck.countIngress r)) := by
  unfold run
  split
  · exact .inl ⟨.inl (by simp [refusalCodes]), .inl rfl⟩
  rename_i spend hspend
  split
  · rename_i hidem
    exact .inl ⟨.inr ⟨rfl, hidem⟩, .inl rfl⟩
  rename_i hidem
  obtain ⟨code, after, hrun, hcode, href⟩ | hrun := c.precheck.run_cases r
  · rw [hrun]
    exact .inl ⟨.inl hcode, href⟩
  rw [hrun]
  dsimp only
  split
  · exact .inl ⟨.inl (by simp [refusalCodes]), .inr rfl⟩
  rename_i hbudget
  refine .inr ⟨?_, by simpa using hidem, ⟨spend, hspend, ?_⟩, rfl⟩
  · split <;> simp [refusalCodes]
  · intro hskip
    by_contra hlt
    exact hbudget ⟨by simp [hskip], by omega⟩

theorem accept_num :
    (c.accept r).num = ((if c.skipBudget then r
      else debit c.keys c.amount c.event.campaignID c.customerID r).setNum c.idempotencyKey 1).num :=
  rfl

/-- The integer keys that an execution writes. -/
theorem run_writes :
    Writes [c.precheck.ingressKey, c.idempotencyKey, c.keys.spendKey, c.keys.campaignSyncKey,
      c.keys.customerSyncKey] r (c.run r).2 := by
  rcases c.run_cases r with ⟨-, href⟩ | ⟨-, -, -, hrun⟩
  · exact href.writes (by simp)
  intro key
  rw [hrun, accept_num]
  refine Writes.setNum ?_ (by simp) 1 key
  split
  · exact c.precheck.countIngress_writes r (by simp)
  · exact debit_writes _ _ _ _ _ (c.precheck.countIngress_writes r (by simp)) (by simp)

theorem accept_idempotency : (c.accept r).num c.idempotencyKey = some 1 := by
  rw [accept_num, setNum_num_self]

/-- Acceptance appends the event to the event stream, after the entry of a slot migration. -/
theorem accept_streams :
    (c.accept r).streams = ((if c.skipBudget then r
      else debit c.keys c.amount c.event.campaignID c.customerID r).xadd c.streamKey
        c.event.entry).streams :=
  rfl

/-- What acceptance takes from the spend key. -/
def price : ℤ := if c.skipBudget then 0 else c.amount

/-- What an execution takes from the spend key. -/
def charged : ℤ :=
  if (c.run r).1 ∈ refusalCodes ∨ (r.num c.idempotencyKey).isSome then 0 else c.price

/-- What acceptance adds to a counter that holds money. -/
theorem accept_count (hidem : key ≠ c.idempotencyKey) :
    (c.accept r).count key = c.keys.counted c.price key (r.count key) := by
  rw [count, accept_num, setNum_num_of_ne _ _ hidem]
  unfold price
  split
  · exact (DebitKeys.counted_zero ..).symm
  · exact debit_count ..

/-- What an execution adds to a counter that holds money. -/
theorem run_count (hin : key ≠ c.precheck.ingressKey) (hidem : key ≠ c.idempotencyKey) :
    (c.run r).2.count key = c.keys.counted (c.charged r) key (r.count key) := by
  rcases c.run_cases r with ⟨hcode, href⟩ | ⟨hcode, hnone, -, hrun⟩
  · have hzero : c.charged r = 0 := if_pos (hcode.imp id And.right)
    rw [hzero, count, href.num hin, count, DebitKeys.counted_zero]
  · have hprice : c.charged r = c.price := if_neg (by simp [hcode, hnone])
    rw [hprice, hrun, c.accept_count _ hidem, c.precheck.countIngress_count_of_ne r hin]

end BudgetFastCall

namespace UnifiedCall

variable (c : UnifiedCall) (r : Redis) {before : Redis} {keys : List String} {key : String}

/-- An event that the budget check lets pass is covered, and on pace where it is paced. -/
theorem budgetReject_eq_none {budget dailySpent : ℤ} (h : c.budgetReject budget dailySpent = none)
    (hskip : c.skipBudget = false) :
    c.amount ≤ budget ∧ (c.paced = true → dailySpent + c.amount ≤ c.cumulativeLimit) := by
  simp only [budgetReject, hskip, Bool.false_eq_true, if_false] at h
  split at h
  · exact absurd h (by simp)
  split at h
  · exact absurd h (by simp)
  rename_i hpace
  refine ⟨by omega, fun hpaced => ?_⟩
  by_contra hlt
  exact hpace ⟨hpaced, by omega⟩

/-- The codes of the checks after the prechecks. -/
theorem reject_mem {budget code : ℤ} {before : Redis} (h : c.reject r budget before = some code) :
    code ∈ refusalCodes := by
  have httc : ∀ code, c.ttcReject r = some code → code ∈ refusalCodes := by
    intro code hcode
    unfold ttcReject at hcode
    split at hcode
    · split at hcode <;> split at hcode <;> cases hcode <;> decide
    · cases hcode
  have hbudget : ∀ code, c.budgetReject budget (before.count c.dailySpendKey) = some code →
      code ∈ refusalCodes := by
    intro code hcode
    unfold budgetReject at hcode
    split at hcode
    · cases hcode
    · split at hcode
      · cases hcode; decide
      · split at hcode <;> cases hcode; decide
  rcases Option.or_eq_some_iff.mp h with h | ⟨-, h⟩
  · exact httc code h
  rcases Option.or_eq_some_iff.mp h with h | ⟨-, h⟩
  · exact hbudget code h
  split at h
  · cases h; decide
  · split at h <;> cases h; decide

/-- An event that no check refuses was not seen before and passed the budget check. -/
theorem reject_eq_none {budget : ℤ} {before : Redis} (h : c.reject r budget before = none) :
    r.num c.dupKey = none ∧ c.budgetReject budget (before.count c.dailySpendKey) = none := by
  obtain ⟨-, h⟩ := Option.or_eq_none_iff.mp h
  obtain ⟨hbudget, h⟩ := Option.or_eq_none_iff.mp h
  refine ⟨?_, hbudget⟩
  split at h
  · cases h
  split at h
  · cases h
  · rename_i hdup
    simpa using hdup

theorem acceptCode_not_mem (before : Redis) : c.acceptCode r before ∉ refusalCodes := by
  unfold acceptCode
  split
  · decide
  · split
    · decide
    · split <;> decide

/-- `unified-filter.lua` refuses the event, or finds it charged already, or accepts it. -/
theorem run_cases :
    (((c.run r).1 ∈ refusalCodes ∨ ((c.run r).1 = 0 ∧ (r.num c.idempotencyKey).isSome)) ∧
        Refused c.precheck r (c.run r).2) ∨
      ((c.run r).1 ∉ refusalCodes ∧ r.num c.idempotencyKey = none ∧
        ∃ budget, r.num c.spendKey = some budget ∧ c.reject (c.precheck.countIngress r) budget r = none ∧
          (c.run r).2 = c.accept (c.precheck.countIngress r) budget) := by
  unfold run
  split
  · exact .inl ⟨.inl (by simp [refusalCodes]), .inl rfl⟩
  rename_i budget hbudget
  split
  · rename_i hidem
    exact .inl ⟨.inr ⟨rfl, hidem⟩, .inl rfl⟩
  rename_i hidem
  obtain ⟨code, after, hrun, hcode, href⟩ | hrun := c.precheck.run_cases r
  · rw [hrun]
    exact .inl ⟨.inl hcode, href⟩
  rw [hrun]
  dsimp only
  split
  · rename_i code hcode
    exact .inl ⟨.inl (c.reject_mem _ hcode), .inr rfl⟩
  · rename_i hnone
    exact .inr ⟨c.acceptCode_not_mem _ _, by simpa using hidem, budget, hbudget, hnone, rfl⟩

/-- The integer keys that keep the books of the checks and hold no money. -/
def bookKeys : List String :=
  [c.precheck.ingressKey, c.dupKey, c.idempotencyKey, c.dailySpendKey, c.fcapKey, c.impTSKey,
    c.refillLockKey]

/-- Counting the event writes three integer keys. -/
theorem countEvent_writes (h : Writes keys before r) (hd : c.dailySpendKey ∈ keys) (hf : c.fcapKey ∈ keys)
    (hi : c.impTSKey ∈ keys) : Writes keys before (c.countEvent r) := by
  have hcount : ∀ {s : Redis} (condition : Prop) [Decidable condition] {counter : String} (n : ℤ),
      Writes keys before s → counter ∈ keys →
      Writes keys before (if condition then s.incrBy counter n else s) := by
    intro s condition _ counter n hs hkey
    split
    · exact hs.setNum hkey _
    · exact hs
  have hfcap := hcount c.capped 1 (hcount (¬ c.skipBudget ∧ c.paced) c.amount h hd) hf
  unfold countEvent
  dsimp only
  split
  · exact hfcap.setNum hi _
  · exact hfcap

/-- Counting a paced event adds its amount to the spend of the day. -/
theorem countEvent_daily (hskip : c.skipBudget = false) (hpaced : c.paced = true)
    (hf : c.dailySpendKey ≠ c.fcapKey) (hi : c.dailySpendKey ≠ c.impTSKey) :
    (c.countEvent r).count c.dailySpendKey = r.count c.dailySpendKey + c.amount := by
  have hfcap : ∀ s : Redis, (if c.capped then s.incrBy c.fcapKey 1 else s).count c.dailySpendKey =
      s.count c.dailySpendKey := by
    intro s
    split
    · exact incrBy_count_of_ne _ _ hf
    · rfl
  unfold countEvent
  dsimp only
  rw [if_pos (⟨by simp [hskip], hpaced⟩ : ¬ c.skipBudget ∧ c.paced)]
  split
  · rw [setNum_count_of_ne _ _ hi, hfcap, incrBy_count_self]
  · rw [hfcap, incrBy_count_self]

theorem countEvent_frame :
    (c.countEvent r).text = r.text ∧ (c.countEvent r).sets = r.sets ∧
      (c.countEvent r).hashes = r.hashes ∧ (c.countEvent r).streams = r.streams := by
  unfold countEvent
  split <;> split <;> split <;> exact ⟨rfl, rfl, rfl, rfl⟩

theorem requestRefill_writes (budget : ℤ) (h : Writes keys before r) (hlock : c.refillLockKey ∈ keys) :
    Writes keys before (c.requestRefill r budget) := by
  unfold requestRefill
  split
  · exact h.setNum hlock _
  · exact h

theorem requestRefill_streams (budget : ℤ) : (c.requestRefill r budget).streams = r.streams := by
  unfold requestRefill
  split <;> rfl

/-- What acceptance takes from the spend key. -/
def price : ℤ := if c.skipBudget then 0 else c.amount

/-- The debit of an accepted event, none when budgets are skipped. -/
def debited : Redis :=
  if c.skipBudget then r.setNum c.dupKey 1
  else debit c.debitKeys c.amount c.event.campaignID c.customerID (r.setNum c.dupKey 1)

/-- Acceptance, in terms of the debit. -/
theorem accept_eq (budget : ℤ) :
    c.accept r budget =
      c.requestRefill ((c.countEvent ((c.debited r).setNum c.idempotencyKey 1)).xadd c.streamKey
        (c.streamEntry (c.countEvent ((c.debited r).setNum c.idempotencyKey 1)))) budget := rfl

/-- The writes after the idempotency key. -/
theorem accept_writes (budget : ℤ) (h : Writes keys before ((c.debited r).setNum c.idempotencyKey 1))
    (hkeys : [c.dailySpendKey, c.fcapKey, c.impTSKey, c.refillLockKey] ⊆ keys) :
    Writes keys before (c.accept r budget) := by
  simp only [List.cons_subset, List.nil_subset, and_true] at hkeys
  obtain ⟨hd, hf, hi, hlock⟩ := hkeys
  exact c.requestRefill_writes _ budget (c.countEvent_writes _ h hd hf hi) hlock

/-- What the debit of an accepted event adds to a counter. -/
theorem debited_count (hdup : key ≠ c.dupKey) :
    (c.debited r).count key = c.debitKeys.counted c.price key (r.count key) := by
  unfold debited price
  split
  · rw [setNum_count_of_ne _ _ hdup, DebitKeys.counted_zero]
  · rw [debit_count, setNum_count_of_ne _ _ hdup]

/-- What acceptance adds to a counter that holds money. -/
theorem accept_count (budget : ℤ) (hkey : key ∉ c.bookKeys) :
    (c.accept r budget).count key = c.debitKeys.counted c.price key (r.count key) := by
  simp only [bookKeys, List.mem_cons, List.not_mem_nil, or_false, not_or] at hkey
  obtain ⟨-, hdup, hidem, hdaily, hfcap, himp, hlock⟩ := hkey
  have hwrites := c.accept_writes r budget (Writes.refl.setNum (List.mem_cons_self ..) 1)
    (List.subset_cons_self _ _)
  rw [← c.debited_count r hdup, count, hwrites.num (by simp [hidem, hdaily, hfcap, himp, hlock]), count]

/-- An execution writes no other integer key than those of the debit and of the bookkeeping. -/
theorem run_writes :
    Writes (c.bookKeys ++ [c.spendKey, c.campaignSyncKey, c.customerSyncKey]) r (c.run r).2 := by
  rcases c.run_cases r with ⟨-, href⟩ | ⟨-, -, budget, -, -, hrun⟩
  · exact href.writes (by simp [bookKeys])
  have hseen : Writes (c.bookKeys ++ [c.spendKey, c.campaignSyncKey, c.customerSyncKey]) r
      ((c.precheck.countIngress r).setNum c.dupKey 1) :=
    (c.precheck.countIngress_writes r (by simp [bookKeys])).setNum (by simp [bookKeys]) 1
  rw [hrun]
  apply c.accept_writes _ _ (Writes.setNum ?_ (by simp [bookKeys]) 1) (by simp [bookKeys])
  unfold debited
  split
  · exact hseen
  · exact debit_writes _ _ _ _ _ hseen (by simp [debitKeys])

theorem accept_idempotency (budget : ℤ) (hd : c.idempotencyKey ≠ c.dailySpendKey)
    (hf : c.idempotencyKey ≠ c.fcapKey) (hi : c.idempotencyKey ≠ c.impTSKey)
    (hl : c.idempotencyKey ≠ c.refillLockKey) : (c.accept r budget).num c.idempotencyKey = some 1 := by
  rw [(c.accept_writes r budget .refl (List.Subset.refl _)).num (by simp [hd, hf, hi, hl]),
    setNum_num_self]

/-- Acceptance of a paced event adds its amount to the spend of the day. -/
theorem accept_daily (budget : ℤ) (hskip : c.skipBudget = false) (hpaced : c.paced = true)
    (hkey : c.dailySpendKey ∉ [c.dupKey, c.spendKey, c.campaignSyncKey, c.customerSyncKey,
      c.idempotencyKey, c.fcapKey, c.impTSKey, c.refillLockKey]) :
    (c.accept r budget).count c.dailySpendKey = r.count c.dailySpendKey + c.amount := by
  simp only [List.mem_cons, List.not_mem_nil, or_false, not_or] at hkey
  obtain ⟨hdup, hs, hc, hu, hidem, hfcap, himp, hlock⟩ := hkey
  have hdebit : (c.debited r).count c.dailySpendKey = r.count c.dailySpendKey := by
    rw [c.debited_count r hdup]
    simp [DebitKeys.counted, debitKeys, hs, hc, hu]
  rw [accept_eq, count, (c.requestRefill_writes _ budget .refl (List.mem_singleton_self _)).num
    (by simpa using hlock), xadd_num]
  change count _ _ = _
  rw [c.countEvent_daily _ hskip hpaced hfcap himp, setNum_count_of_ne _ _ hidem, hdebit]

/-- The entry that an accepted event leaves in the stream of the slot migration. -/
def migrationEntry : List (String × String) :=
  dualWriteEntry c.spendKey c.event.campaignID c.amount

/-- Acceptance appends the event to the event stream, after the entry of a slot migration. -/
theorem accept_streams (budget : ℤ) :
    (c.accept r budget).streams =
      ((if c.skipBudget = false ∧ (r.text dualWriteFlag).isSome then
        r.xadd dualWriteStream c.migrationEntry else r).xadd c.streamKey (c.streamEntry r)).streams := by
  have htext : (c.debited r).text = r.text := by
    unfold debited
    split
    · rfl
    · rw [(debit_frame ..).1, setNum_text]
  have hentry : c.streamEntry (c.countEvent ((c.debited r).setNum c.idempotencyKey 1)) =
      c.streamEntry r := by
    simp only [streamEntry, streamPayload, (c.countEvent_frame _).1, setNum_text, htext]
  have hstr : (c.debited r).streams =
      (if c.skipBudget = false ∧ (r.text dualWriteFlag).isSome then
        r.xadd dualWriteStream c.migrationEntry else r).streams := by
    unfold debited
    cases hskip : c.skipBudget with
    | true => simp
    | false =>
      simp only [Bool.false_eq_true, if_false, true_and, debit_streams]
      by_cases hdual : (r.text dualWriteFlag).isSome
      · have hseen : ((r.setNum c.dupKey 1).text dualWriteFlag).isSome := hdual
        rw [if_pos hseen, if_pos hdual]
        rfl
      · have hseen : ¬ ((r.setNum c.dupKey 1).text dualWriteFlag).isSome := hdual
        rw [if_neg hseen, if_neg hdual]
        rfl
  rw [accept_eq, requestRefill_streams, hentry]
  simp only [xadd, (c.countEvent_frame _).2.2.2, setNum_streams, hstr]

/-- What an execution takes from the spend key. -/
def charged : ℤ :=
  if (c.run r).1 ∈ refusalCodes ∨ (r.num c.idempotencyKey).isSome then 0 else c.price

/-- What an execution adds to a counter that holds money. -/
theorem run_count (hkey : key ∉ c.bookKeys) :
    (c.run r).2.count key = c.debitKeys.counted (c.charged r) key (r.count key) := by
  have hin : key ≠ c.precheck.ingressKey := fun h => hkey (by simp [bookKeys, h])
  rcases c.run_cases r with ⟨hcode, href⟩ | ⟨hcode, hidem, budget, -, -, hrun⟩
  · have hzero : c.charged r = 0 := if_pos (hcode.imp id And.right)
    rw [hzero, count, href.num hin, count, DebitKeys.counted_zero]
  · have hprice : c.charged r = c.price := if_neg (by simp [hcode, hidem])
    rw [hprice, hrun, c.accept_count _ budget hkey, c.precheck.countIngress_count_of_ne r hin]

end UnifiedCall

end Espx.Ingestion
