import Espx.Foundation.Redis
import Mathlib.Tactic.Ring

/-!
# The settlement scripts of the sync worker

`prepareSyncScript` moves the sync counter of one entity into its inflight counter under a lock and a
transaction id that survives retries; `commitSyncScript` takes a settled amount out of the inflight
counter and releases both. Each script is one atomic step of Redis. Later modules use the specification
lemmas and never unfold the scripts.
-/

namespace Espx.Domain

open Espx.Foundation Redis

/-- `budgetEntityKeys`. -/
structure BudgetEntityKeys where
  syncKey : String
  inFlightKey : String
  lockKey : String
  txKey : String
  dirtySet : String

/-- The keys that `prepareBudgetEntity` builds for a "campaign" or a "customer". -/
def budgetEntityKeys (entity idStr : String) : BudgetEntityKeys where
  syncKey := "budget:sync:" ++ entity ++ ":" ++ idStr
  inFlightKey := "budget:inflight:" ++ entity ++ ":" ++ idStr
  lockKey := "budget:lock:" ++ entity ++ ":" ++ idStr
  txKey := "budget:txid:" ++ entity ++ ":" ++ idStr
  dirtySet := "budget:dirty_" ++ entity ++ "s"

/-- The transaction id that the script answers with: the stored one, or the fresh one. -/
def syncTxID (keys : BudgetEntityKeys) (newTxID : String) (r : Redis) : String :=
  if (r.text keys.txKey).getD "" = "" then newTxID else (r.text keys.txKey).getD ""

/-- The part of `prepareSyncScript` that moves the current counter into the inflight one. -/
def moveToInFlight (keys : BudgetEntityKeys) (r : Redis) : Redis :=
  let cur := r.count keys.syncKey
  if 0 < cur then
    let remaining := r.count keys.syncKey - cur
    let moved := (r.incrBy keys.syncKey (-cur)).incrBy keys.inFlightKey cur
    if remaining ≤ 0 then moved.delNum keys.syncKey else moved
  else if (r.num keys.syncKey).isSome then r.delNum keys.syncKey else r

/-- `prepareSyncScript`: the amount and transaction id to settle, or `"0"` and `""`. -/
def prepareSyncScript (keys : BudgetEntityKeys) (newTxID : String) (r : Redis) : (ℤ × String) × Redis :=
  if (r.num keys.lockKey).isSome then ((0, ""), r)
  else
    let txID := syncTxID keys newTxID r
    let stored := if (r.text keys.txKey).getD "" = "" then r.setText keys.txKey newTxID else r
    let total := r.count keys.inFlightKey + r.count keys.syncKey
    if total ≤ 0 then
      let cleared := match r.num keys.syncKey with
        | some cur => if cur ≤ 0 then stored.delNum keys.syncKey else stored
        | none => stored
      ((0, ""), cleared.delText keys.txKey)
    else ((total, txID), (moveToInFlight keys stored).setNum keys.lockKey 1)

/-- `commitSyncScript`: the amount left inflight, and the entity without lock and id. -/
def commitSyncScript (keys : BudgetEntityKeys) (amount : ℤ) (idStr : String) (r : Redis) : ℤ × Redis :=
  let remaining := r.count keys.inFlightKey - amount
  let taken := r.incrBy keys.inFlightKey (-amount)
  let settled := if remaining ≤ 0 then taken.delNum keys.inFlightKey else taken
  let marked :=
    if settled.count keys.syncKey ≤ 0 ∧ settled.count keys.inFlightKey ≤ 0 then
      settled.srem keys.dirtySet idStr
    else settled
  (remaining, (marked.delNum keys.lockKey).delText keys.txKey)

namespace BudgetEntityKeys

/-- The integer keys of the entity are three different keys. -/
structure Distinct (keys : BudgetEntityKeys) : Prop where
  inFlight_sync : keys.inFlightKey ≠ keys.syncKey
  lock_sync : keys.lockKey ≠ keys.syncKey
  lock_inFlight : keys.lockKey ≠ keys.inFlightKey

end BudgetEntityKeys

theorem budgetEntityKeys_distinct (entity idStr : String) : (budgetEntityKeys entity idStr).Distinct := by
  constructor <;>
  · intro h
    have hlist := congrArg String.toList h
    simp [budgetEntityKeys] at hlist

section

variable {keys : BudgetEntityKeys} (hkeys : keys.Distinct) (newTxID : String) {r : Redis}

theorem prepareSyncScript_locked (hlock : (r.num keys.lockKey).isSome) :
    prepareSyncScript keys newTxID r = ((0, ""), r) := by
  simp [prepareSyncScript, hlock]

theorem prepareSyncScript_amount (hlock : r.num keys.lockKey = none) :
    (prepareSyncScript keys newTxID r).1.1 = max 0 (r.count keys.inFlightKey + r.count keys.syncKey) := by
  simp only [prepareSyncScript, hlock, Option.isSome_none, Bool.false_eq_true, if_false]
  split
  · rename_i h; rw [max_eq_left h]
  · rename_i h; rw [max_eq_right (by omega)]

/-- Moving the counter empties it. -/
theorem moveToInFlight_count_sync : (moveToInFlight keys r).count keys.syncKey = 0 := by
  unfold moveToInFlight
  dsimp only
  split
  · rw [if_pos (by omega)]
    exact delNum_count_self _ _
  split
  · exact delNum_count_self _ _
  · rename_i hnone
    simp only [Bool.not_eq_true, Option.isSome_eq_false_iff, Option.isNone_iff_eq_none] at hnone
    simp [count, hnone]

include hkeys

/-- Moving a counter that is not negative adds it to the inflight counter. -/
theorem moveToInFlight_count_inFlight (hsync : 0 ≤ r.count keys.syncKey) :
    (moveToInFlight keys r).count keys.inFlightKey = r.count keys.inFlightKey + r.count keys.syncKey := by
  unfold moveToInFlight
  dsimp only
  split
  · rw [if_pos (by omega), delNum_count_of_ne _ hkeys.inFlight_sync,
      incrBy_count_self, incrBy_count_of_ne _ _ hkeys.inFlight_sync]
  have hzero : r.count keys.syncKey = 0 := by omega
  rw [hzero, add_zero]
  split
  · exact delNum_count_of_ne _ hkeys.inFlight_sync
  · rfl

omit hkeys

theorem moveToInFlight_num_of_ne {k : String} (hs : k ≠ keys.syncKey) (hi : k ≠ keys.inFlightKey) :
    (moveToInFlight keys r).num k = r.num k := by
  unfold moveToInFlight
  dsimp only
  split
  · rw [if_pos (by omega), delNum_num_of_ne _ hs, incrBy_num_of_ne _ _ hi, incrBy_num_of_ne _ _ hs]
  · split
    · exact delNum_num_of_ne _ hs
    · rfl

theorem moveToInFlight_frame :
    (moveToInFlight keys r).text = r.text ∧ (moveToInFlight keys r).sets = r.sets ∧
      (moveToInFlight keys r).streams = r.streams := by
  unfold moveToInFlight
  dsimp only
  split
  · split <;> exact ⟨rfl, rfl, rfl⟩
  · split <;> exact ⟨rfl, rfl, rfl⟩

/-- The state after a prepare that found work, before its lock. -/
theorem prepareSyncScript_state (hlock : r.num keys.lockKey = none)
    (htotal : 0 < r.count keys.inFlightKey + r.count keys.syncKey) :
    (prepareSyncScript keys newTxID r).2 =
      (moveToInFlight keys (if (r.text keys.txKey).getD "" = "" then
        r.setText keys.txKey newTxID else r)).setNum keys.lockKey 1 := by
  simp [prepareSyncScript, hlock, not_le.mpr htotal]

/-- The state after a prepare that found no work. -/
theorem prepareSyncScript_idle (hlock : r.num keys.lockKey = none)
    (htotal : r.count keys.inFlightKey + r.count keys.syncKey ≤ 0) :
    let prepared := prepareSyncScript keys newTxID r
    prepared.1 = (0, "") ∧ prepared.2.text keys.txKey = none ∧ prepared.2.num keys.syncKey =
        (if r.count keys.syncKey ≤ 0 then none else r.num keys.syncKey) ∧
      ∀ k, k ≠ keys.syncKey → prepared.2.num k = r.num k := by
  have hstored : (if (r.text keys.txKey).getD "" = "" then r.setText keys.txKey newTxID else r).num =
      r.num := by
    split <;> rfl
  simp only [prepareSyncScript, hlock, Option.isSome_none, Bool.false_eq_true, if_false, htotal,
    if_true, delText_text_self, delText_num, true_and]
  cases hsync : r.num keys.syncKey with
  | none =>
    refine ⟨?_, fun k _ => congrFun hstored k⟩
    rw [hstored, hsync]
    split <;> rfl
  | some cur =>
    have hcount : r.count keys.syncKey = cur := by rw [count, hsync, Option.getD_some]
    dsimp only
    rw [hcount]
    by_cases hcur : cur ≤ 0
    · rw [if_pos hcur, if_pos hcur]
      exact ⟨delNum_num_self _ _, fun k hk => by rw [delNum_num_of_ne _ hk, hstored]⟩
    · rw [if_neg hcur, if_neg hcur, hstored]
      exact ⟨hsync, fun k _ => rfl⟩

theorem storeTx_count (k : String) :
    (if (r.text keys.txKey).getD "" = "" then r.setText keys.txKey newTxID else r).count k =
      r.count k := by
  split <;> rfl

include hkeys

/-- The four keys after a prepare without a lock on counters that are not negative. -/
theorem prepareSyncScript_spec (hlock : r.num keys.lockKey = none)
    (hsync : 0 ≤ r.count keys.syncKey) (hflight : 0 ≤ r.count keys.inFlightKey) :
    let next := (prepareSyncScript keys newTxID r).2
    let total := r.count keys.inFlightKey + r.count keys.syncKey
    next.count keys.syncKey = 0 ∧ next.count keys.inFlightKey = total ∧
      next.num keys.lockKey = (if 0 < total then some 1 else none) ∧
      next.text keys.txKey = (if 0 < total then some (syncTxID keys newTxID r) else none) := by
  dsimp only
  by_cases htotal : 0 < r.count keys.inFlightKey + r.count keys.syncKey
  · rw [prepareSyncScript_state newTxID hlock htotal, if_pos htotal, if_pos htotal]
    refine ⟨?_, ?_, setNum_num_self _ _ _, ?_⟩
    · rw [setNum_count_of_ne _ _ hkeys.lock_sync.symm, moveToInFlight_count_sync]
    · rw [setNum_count_of_ne _ _ hkeys.lock_inFlight.symm,
        moveToInFlight_count_inFlight hkeys (by rw [storeTx_count]; exact hsync), storeTx_count,
        storeTx_count]
    · rw [setNum_text, moveToInFlight_frame.1, syncTxID]
      split
      · exact setText_text_self _ _ _
      rename_i hstored
      cases htx : r.text keys.txKey with
      | none => exact absurd (by rw [htx]; rfl) hstored
      | some tx => rfl
  · obtain ⟨-, htx, hsyncNum, hother⟩ := prepareSyncScript_idle newTxID hlock (not_lt.mp htotal)
    have hzero : r.count keys.syncKey = 0 := by omega
    rw [if_neg htotal, if_neg htotal]
    refine ⟨?_, ?_, ?_, htx⟩
    · rw [count, hsyncNum, if_pos (by omega), Option.getD_none]
    · rw [count, hother _ hkeys.inFlight_sync, hzero, add_zero, count]
    · rw [hother _ hkeys.lock_sync, hlock]

omit hkeys

/-- A prepare touches no other integer key than its three. -/
theorem prepareSyncScript_num_of_ne {k : String} (hs : k ≠ keys.syncKey)
    (hi : k ≠ keys.inFlightKey) (hl : k ≠ keys.lockKey) :
    (prepareSyncScript keys newTxID r).2.num k = r.num k := by
  cases hlock : r.num keys.lockKey with
  | some v => rw [prepareSyncScript_locked newTxID (by rw [hlock]; rfl)]
  | none =>
    by_cases htotal : 0 < r.count keys.inFlightKey + r.count keys.syncKey
    · rw [prepareSyncScript_state newTxID hlock htotal, setNum_num_of_ne _ _ hl,
        moveToInFlight_num_of_ne hs hi]
      split <;> rfl
    · exact (prepareSyncScript_idle newTxID hlock (not_lt.mp htotal)).2.2.2 k hs

/-- A prepare touches no set and no stream. -/
theorem prepareSyncScript_frame :
    (prepareSyncScript keys newTxID r).2.sets = r.sets ∧
      (prepareSyncScript keys newTxID r).2.streams = r.streams := by
  have hmove := fun s : Redis => (@moveToInFlight_frame keys s).2
  unfold prepareSyncScript
  dsimp only
  split
  · exact ⟨rfl, rfl⟩
  split
  · split
    · split <;> split <;> exact ⟨rfl, rfl⟩
    · split <;> exact ⟨rfl, rfl⟩
  refine ⟨?_, ?_⟩
  · rw [setNum_sets, (hmove _).1]
    split <;> rfl
  · rw [setNum_streams, (hmove _).2]
    split <;> rfl

end

section

variable {keys : BudgetEntityKeys} (hkeys : keys.Distinct) (amount : ℤ) (idStr : String) (r : Redis)

/-- The inflight counter after a settled amount was taken out. -/
def takeSettled (keys : BudgetEntityKeys) (amount : ℤ) (r : Redis) : Redis :=
  if r.count keys.inFlightKey - amount ≤ 0 then
    (r.incrBy keys.inFlightKey (-amount)).delNum keys.inFlightKey
  else r.incrBy keys.inFlightKey (-amount)

theorem takeSettled_count :
    (takeSettled keys amount r).count keys.inFlightKey = max 0 (r.count keys.inFlightKey - amount) := by
  unfold takeSettled
  split
  · rename_i h
    rw [delNum_count_self, max_eq_left h]
  · rw [incrBy_count_self, max_eq_right (by omega)]
    ring

theorem takeSettled_num_of_ne {k : String} (h : k ≠ keys.inFlightKey) :
    (takeSettled keys amount r).num k = r.num k := by
  unfold takeSettled
  split
  · rw [delNum_num_of_ne _ h, incrBy_num_of_ne _ _ h]
  · rw [incrBy_num_of_ne _ _ h]

/-- The script in terms of the amount taken out. -/
theorem commitSyncScript_state :
    (commitSyncScript keys amount idStr r).2 =
      (((if (takeSettled keys amount r).count keys.syncKey ≤ 0 ∧
          (takeSettled keys amount r).count keys.inFlightKey ≤ 0 then
        (takeSettled keys amount r).srem keys.dirtySet idStr
      else takeSettled keys amount r).delNum keys.lockKey).delText keys.txKey) := rfl

theorem commitSyncScript_num_of_ne_lock {k : String} (h : k ≠ keys.lockKey) :
    (commitSyncScript keys amount idStr r).2.num k = (takeSettled keys amount r).num k := by
  rw [commitSyncScript_state, delText_num, delNum_num_of_ne _ h]
  split <;> rfl

include hkeys

/-- The four keys after a commit. -/
theorem commitSyncScript_spec :
    let next := (commitSyncScript keys amount idStr r).2
    next.count keys.syncKey = r.count keys.syncKey ∧
      next.count keys.inFlightKey = max 0 (r.count keys.inFlightKey - amount) ∧
      next.num keys.lockKey = none ∧ next.text keys.txKey = none := by
  refine ⟨?_, ?_, ?_, ?_⟩
  · rw [count, commitSyncScript_num_of_ne_lock _ _ _ hkeys.lock_sync.symm,
      takeSettled_num_of_ne _ _ hkeys.inFlight_sync.symm, count]
  · rw [count, commitSyncScript_num_of_ne_lock _ _ _ hkeys.lock_inFlight.symm]
    exact takeSettled_count amount r
  · rw [commitSyncScript_state, delText_num, delNum_num_self]
  · rw [commitSyncScript_state, delText_text_self]

/-- A commit forgets the id only when both counters are used up. -/
theorem commitSyncScript_dirty {member : String} (hmem : member ∈ r.sets keys.dirtySet)
    (hleft : 0 < r.count keys.syncKey ∨ 0 < r.count keys.inFlightKey - amount) :
    member ∈ (commitSyncScript keys amount idStr r).2.sets keys.dirtySet := by
  have hsets : (takeSettled keys amount r).sets = r.sets := by
    unfold takeSettled
    split <;> rfl
  have hsync : (takeSettled keys amount r).count keys.syncKey = r.count keys.syncKey := by
    rw [count, takeSettled_num_of_ne _ _ hkeys.inFlight_sync.symm, count]
  have hkeep : ¬ ((takeSettled keys amount r).count keys.syncKey ≤ 0 ∧
      (takeSettled keys amount r).count keys.inFlightKey ≤ 0) := by
    rw [hsync, takeSettled_count]
    omega
  rw [commitSyncScript_state, delText_sets, delNum_sets, if_neg hkeep, hsets]
  exact hmem

end

end Espx.Domain
