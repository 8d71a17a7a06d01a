import Espx.Domain.SyncWorker
import Espx.Ingestion.FilterCalls

/-!
# Settlement of one campaign, as a system

One campaign on one Redis shard: accepted debits, the steps of any number of workers, lost replies,
crashes at any point and the expiry of the lock. A settlement is half done from its Postgres commit to its
commit in Redis; its amount then stands both in `current_spend` and in the inflight counter.
-/

namespace Espx.Settlement

open Espx.Foundation Espx.Domain Espx.Ingestion

section

/-- The worker's keys of a campaign. -/
def campaignKeys (id : UUID) : BudgetEntityKeys := budgetEntityKeys "campaign" (uuidString id)

/-- Where a debit is taken from: the budget key, or under quota the key of a debit sub-slot. -/
abbrev Slot := Option (Fin Campaign.highVolumeDebitSubShards)

/-- The spend key of a slot. -/
def slotKey (id : UUID) : Slot → String
  | none => budgetCampaignKey id
  | some sub => budgetQuotaKeySub id sub

/-- The keys of a debit whose counters are those that the worker reads. -/
def sharedDebitKeys (id customerID : UUID) (slot : Slot) : DebitKeys where
  spendKey := slotKey id slot
  campaignSyncKey := (campaignKeys id).syncKey
  customerSyncKey := (budgetEntityKeys "customer" (uuidString customerID)).syncKey
  dirtyCampaigns := (campaignKeys id).dirtySet
  dirtyCustomers := (budgetEntityKeys "customer" (uuidString customerID)).dirtySet

/-- The debit of either script, or nothing when the budget is missing or does not cover it. -/
def acceptDebit (id customerID : UUID) (slot : Slot) (amount : ℕ) (r : Redis) : Option Redis :=
  match r.num (slotKey id slot) with
  | none => none
  | some budget =>
    if budget < amount then none
    else some (debit (sharedDebitKeys id customerID slot) amount (uuidString id)
      (uuidString customerID) r)

variable {id customerID : UUID} {slot : Slot} {amount : ℕ} {r after : Redis}

/-- An accepted debit is covered, and is the debit block of the scripts. -/
theorem acceptDebit_eq_some (h : acceptDebit id customerID slot amount r = some after) :
    (amount : ℤ) ≤ r.count (slotKey id slot) ∧
      after = debit (sharedDebitKeys id customerID slot) amount (uuidString id)
        (uuidString customerID) r := by
  unfold acceptDebit at h
  split at h
  · exact absurd h (by simp)
  rename_i budget hbudget
  split at h
  · exact absurd h (by simp)
  rename_i hcover
  refine ⟨?_, (Option.some.inj h).symm⟩
  rw [Redis.count, hbudget, Option.getD_some]
  exact not_lt.mp hcover

theorem slotKey_spendKey (id : UUID) (slot : Slot) : SpendKey id (slotKey id slot) := by
  cases slot with
  | none => exact SpendKey.budget
  | some sub => exact SpendKey.quota sub

theorem plain_ne_slotKey {word rest : String} (h : clash word.toList "\x7b".toList = true)
    (id : UUID) (slot : Slot) : word ++ rest ≠ slotKey id slot := by
  intro heq
  have hmoney := (slotKey_spendKey id slot).money
  rw [← heq] at hmoney
  exact not_moneyKey_plain h hmoney

theorem campaignKeys_sync_ne_slot (id : UUID) (slot : Slot) :
    (campaignKeys id).syncKey ≠ slotKey id slot := by
  exact plain_ne_slotKey (by decide) id slot

/-- A debit writes three integer keys, and its campaign counter is one of them. -/
structure DebitDistinct (keys : DebitKeys) (worker : BudgetEntityKeys) : Prop where
  sync : worker.syncKey = keys.campaignSyncKey
  dirty : worker.dirtySet = keys.dirtyCampaigns
  sync_spend : worker.syncKey ≠ keys.spendKey
  sync_customer : worker.syncKey ≠ keys.customerSyncKey
  spend_customer : keys.spendKey ≠ keys.customerSyncKey
  other : ∀ key, key = worker.inFlightKey ∨ key = worker.lockKey →
    key ≠ keys.spendKey ∧ key ≠ keys.campaignSyncKey ∧ key ≠ keys.customerSyncKey

/-- The keys of a debit and those of the worker meet in the sync counter only. -/
theorem sharedDebitKeys_distinct (id customerID : UUID) (slot : Slot) :
    DebitDistinct (sharedDebitKeys id customerID slot) (campaignKeys id) := by
  refine ⟨rfl, rfl, campaignKeys_sync_ne_slot id slot, ?_, ?_, ?_⟩
  · exact append_ne_of_clash (by decide)
  · exact (plain_ne_slotKey (by decide) id slot).symm
  · rintro key (rfl | rfl)
    · refine ⟨?_, (budgetEntityKeys_distinct _ _).inFlight_sync, ?_⟩
      · exact plain_ne_slotKey (by decide) id slot
      · exact append_ne_of_clash (by decide)
    · refine ⟨?_, (budgetEntityKeys_distinct _ _).lock_sync, ?_⟩
      · exact plain_ne_slotKey (by decide) id slot
      · exact append_ne_of_clash (by decide)

/-- A debit adds to the campaign's sync counter what it takes from the spend key, and touches
no other key of the worker. -/
theorem debit_distinct {keys : DebitKeys} {worker : BudgetEntityKeys} (h : DebitDistinct keys worker)
    (amount : ℤ) (idStr customerStr : String) (r : Redis) :
    let after := debit keys amount idStr customerStr r
    after.count worker.syncKey = r.count worker.syncKey + amount ∧
      after.count worker.inFlightKey = r.count worker.inFlightKey ∧
      after.count keys.spendKey = r.count keys.spendKey - amount ∧ after.text = r.text := by
  have hspend : keys.spendKey ≠ keys.campaignSyncKey := h.sync ▸ h.sync_spend.symm
  refine ⟨?_, ?_, ?_, (debit_frame ..).1⟩
  · rw [debit_count, DebitKeys.counted, if_neg h.sync_spend, if_pos h.sync, if_neg h.sync_customer]
    ring
  · obtain ⟨h1, h2, h3⟩ := h.other _ (Or.inl rfl)
    rw [Redis.count, debit_num_of_ne _ _ _ _ _ h1 h2 h3, Redis.count]
  · rw [debit_count, DebitKeys.counted, if_pos rfl, if_neg hspend, if_neg h.spend_customer]
    ring

/-- What an accepted debit does to the keys of the worker. -/
theorem acceptDebit_counts (h : acceptDebit id customerID slot amount r = some after) :
    after.count (campaignKeys id).syncKey = r.count (campaignKeys id).syncKey + amount ∧
      after.count (campaignKeys id).inFlightKey = r.count (campaignKeys id).inFlightKey ∧
      after.count (slotKey id slot) = r.count (slotKey id slot) - amount ∧ after.text = r.text := by
  rw [(acceptDebit_eq_some h).2]
  exact debit_distinct (sharedDebitKeys_distinct id customerID slot) amount _ _ r

/-- An accepted debit makes the campaign dirty if it finds the sync counter empty, and leaves
it so if it was dirty. -/
theorem acceptDebit_mem (h : acceptDebit id customerID slot amount r = some after)
    (hpre : r.count (campaignKeys id).syncKey = 0 ∨ uuidString id ∈ r.sets (campaignKeys id).dirtySet) :
    uuidString id ∈ after.sets (campaignKeys id).dirtySet := by
  have hafter := (acceptDebit_eq_some h).2
  have hkeys := sharedDebitKeys_distinct id customerID slot
  generalize sharedDebitKeys id customerID slot = keys at hafter hkeys
  subst hafter
  rw [hkeys.dirty] at hpre ⊢
  rcases hpre with hempty | hdirty
  · rw [hkeys.sync] at hempty
    exact debit_mem_of_empty keys amount _ _ r (hkeys.sync ▸ hkeys.sync_spend) hempty
  · exact debit_sets_mono keys amount _ _ r hdirty

end

/-- Where a worker stands: nothing taken, an entry in its rollup, or an entry that Postgres has settled
and Redis has not committed yet. -/
inductive Stage
  | idle
  | staged (entry : PendingRollup)
  | settled (entry : PendingRollup)
  deriving DecidableEq

/-- The stores and the workers, with the debits accepted and the ids issued so far. -/
structure SettlementState (W : Type*) where
  redis : Redis
  pg : Pg
  stage : W → Stage
  accepted : ℤ
  issued : Finset String

/-- What the worker learns of its Postgres transaction. -/
inductive Reply
  | received
  | failed
  | lost
  deriving DecidableEq

/-- What a call leaves: a failed one was not executed, one whose answer is lost was. -/
def Reply.after {S : Type*} (reply : Reply) (before after : S) : S :=
  match reply with
  | .failed => before
  | _ => after

theorem Reply.after_of {S : Type*} {P : S → Prop} {before after : S} (reply : Reply)
    (hpre : P before) (hafter : P after) : P (reply.after before after) := by
  cases reply with
  | failed => exact hpre
  | received | lost => exact hafter

/-- The steps of the system. -/
inductive SettlementAction (W : Type*)
  | debit (slot : Slot) (amount : ℕ)
  | prepare (w : W) (newTxID : String) (delivered : Bool)
  | flush (w : W) (rowLocked : Bool) (reply : Reply)
  | commit (w : W) (delivered : Bool)
  | lockExpiry
  | crash (w : W)

namespace SettlementState

variable {W : Type*} [DecidableEq W] (id customerID : UUID) (threshold : ℤ)

/-- A prepare by a worker that is not in the middle of a flush. A lost reply leaves the
worker as it was. -/
def prepare (s : SettlementState W) (w : W) (newTxID : String) (delivered : Bool) :
    SettlementState W :=
  let prepared := prepareEntity "campaign" (uuidString id) id newTxID s.redis
  match s.stage w with
  | .settled _ => s
  | _ =>
    if delivered then
      { s with
        redis := prepared.2
        stage := match prepared.1 with
          | none => s.stage
          | some entry => Function.update s.stage w (.staged entry)
        issued := insert newTxID s.issued }
    else
      { s with
        redis := (prepareSyncScript (campaignKeys id) newTxID s.redis).2
        issued := insert newTxID s.issued }

/-- A flush of a staged entry. Without a reply, or refused, the entry is retained. -/
def flush (s : SettlementState W) (w : W) (rowLocked : Bool) (reply : Reply) : SettlementState W :=
  match s.stage w, reply with
  | .staged entry, .received =>
    match updateSpendBatch (fun _ => rowLocked) [flushItem threshold id entry] s.pg with
    | some ([none], pg) => { s with pg := pg, stage := Function.update s.stage w (.settled entry) }
    | some ([some .insufficientCustomerBalance], pg) =>
      { s with pg := pg.updateCampaignStatus id .paused }
    | some (_, pg) => { s with pg := pg }
    | none => s
  | .staged entry, .lost =>
    match updateSpendBatch (fun _ => rowLocked) [flushItem threshold id entry] s.pg with
    | some (_, pg) => { s with pg := pg }
    | none => s
  | _, _ => s

/-- A commit of a settled entry; its reply is not read. -/
def commit (s : SettlementState W) (w : W) (delivered : Bool) : SettlementState W :=
  match s.stage w with
  | .settled entry =>
    { s with
      redis := if delivered then commitEntity "campaign" entry s.redis else s.redis
      stage := Function.update s.stage w .idle }
  | _ => s

/-- One step of the system. -/
def step (s : SettlementState W) : SettlementAction W → SettlementState W
  | .debit slot amount =>
    match acceptDebit id customerID slot amount s.redis with
    | none => s
    | some redis => { s with redis := redis, accepted := s.accepted + amount }
  | .prepare w newTxID delivered => s.prepare id w newTxID delivered
  | .flush w rowLocked reply => s.flush id threshold w rowLocked reply
  | .commit w delivered => s.commit w delivered
  | .lockExpiry => { s with redis := s.redis.delNum (campaignKeys id).lockKey }
  | .crash w => { s with stage := Function.update s.stage w .idle }

variable (s : SettlementState W)

/-- The sync counter. -/
def sync : ℤ := s.redis.count (campaignKeys id).syncKey

/-- The inflight counter. -/
def inFlight : ℤ := s.redis.count (campaignKeys id).inFlightKey

/-- The stored transaction id. -/
def tx : Option String := s.redis.text (campaignKeys id).txKey

/-- The campaign's spend in Postgres. -/
def spend : ℤ := ((s.pg.campaigns.get? id).map CampaignRow.currentSpend).getD 0

/-- A settlement has reached Postgres and is not committed in Redis yet. -/
def HalfDone : Prop := ∃ txID, s.tx id = some txID ∧ txID ∈ s.pg.syncIdempotency

/-- The amount of a half-done settlement. -/
def halfDone : ℤ :=
  match s.tx id with
  | none => 0
  | some txID => if txID ∈ s.pg.syncIdempotency then s.pg.settledAmount txID else 0

/-- Transaction ids are fresh, as `uuid.New` makes them. -/
def Fresh : SettlementAction W → Prop
  | .prepare _ newTxID _ => newTxID ≠ "" ∧ newTxID ∉ s.issued
  | _ => True

/-- A prepare that takes an entry is the only one to hold one, and repeats a half-done
settlement only with the amount that Postgres recorded. -/
def SafePrepare : SettlementAction W → Prop
  | .prepare w _ true =>
    s.redis.num (campaignKeys id).lockKey = none → 0 < s.inFlight id + s.sync id →
      (∀ w', w' ≠ w → s.stage w' = .idle) ∧
        ∀ txID, s.tx id = some txID → txID ∈ s.pg.syncIdempotency →
          s.inFlight id + s.sync id = s.pg.settledAmount txID
  | _ => True

end SettlementState

end Espx.Settlement
