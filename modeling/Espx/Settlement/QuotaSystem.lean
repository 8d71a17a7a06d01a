import Espx.ControlPlane.Quota
import Espx.Settlement.System
import Espx.Settlement.WorkerFrame

/-!
# Quota credit, as a system

One campaign whose debits are paid from the key that the quota managers credit. A manager reserves a chunk
in Postgres, credits it in Redis, and releases the reservation when Redis reports an error. The steps of
managers, workers and debits interleave in any order, and the quota key may be lost at any time.
-/

namespace Espx.Settlement

open Espx.Foundation Espx.Domain Espx.Ingestion Espx.ControlPlane Function

/-- Where a manager stands: it holds the lock of a warm-up, it has reserved a chunk, or Redis has reported
an error for the credit. -/
inductive QuotaStage
  | idle
  | warming
  | crediting (warm : Bool)
  | releasing (warm : Bool)
  deriving DecidableEq

/-- The stores, the sync workers and the quota managers. -/
structure QuotaState (k : ℕ) (W : Type*) extends SettlementState W where
  managers : Fin k → QuotaStage

/-- The steps of the system. -/
inductive QuotaAction (k : ℕ) (W : Type*)
  | debit (amount : ℕ)
  | worker (a : SettlementAction W)
  | requestRefill
  | refillLockExpiry
  | loseQuota
  | refill (m : Fin k) (newKey : String) (reply : Reply)
  | warm (m : Fin k)
  | warmReserve (m : Fin k) (reply : Reply)
  | credit (m : Fin k) (reply : Reply)
  | release (m : Fin k) (reply : Reply)
  | managerCrash (m : Fin k)

/-- The keys of a debit from the manager's key. -/
def quotaDebitKeys (id customerID : UUID) : DebitKeys :=
  { sharedDebitKeys id customerID none with spendKey := quotaKey id }

/-- The debit of either script from the manager's key. -/
def acceptQuotaDebit (id customerID : UUID) (amount : ℕ) (r : Redis) : Option Redis :=
  match r.num (quotaKey id) with
  | none => none
  | some budget =>
    if budget < amount then none
    else some (debit (quotaDebitKeys id customerID) amount (uuidString id) (uuidString customerID) r)

namespace QuotaState

variable {k : ℕ} {W : Type*} [DecidableEq W] (qm : QuotaManager) (id customerID : UUID)
  (threshold : ℤ) (s : QuotaState k W)

/-- `requeue` of `refillCampaign`. -/
def requeue (r : Redis) : Redis :=
  (r.setNum (refillLockKey id) 1).sadd refillNeeded (uuidString id)

/-- The database after a reservation, with its key among the ids issued. -/
def reserve (pg : Pg) (idempotencyKey : String) : QuotaState k W :=
  { s with pg := pg, issued := insert (quotaIdempotencyID idempotencyKey) s.issued }

/-- `refillCampaign` up to its reservation. -/
def refill (m : Fin k) (newKey : String) (reply : Reply) : QuotaState k W :=
  match s.managers m, s.redis.num (refillLockKey id) with
  | .idle, some _ =>
    let claimed := s.redis.delNum (refillLockKey id)
    match reserveChunk id qm.chunkSize newKey s.pg, reply with
    | .error .budgetExceeded, _ => { s with redis := claimed }
    | .error _, _ => { s with redis := requeue id claimed }
    | .ok _, .failed => { s with redis := requeue id claimed }
    | .ok (_, pg), .lost => { s.reserve pg newKey with redis := requeue id claimed }
    | .ok (applied, pg), .received =>
      { s.reserve pg newKey with
        redis := claimed
        managers := if applied ∨ qm.shadow then s.managers
          else update s.managers m (.crediting false) }
  | _, _ => s

/-- `warmActiveCampaignQuotas` up to the second look at the quota key. It has read the active campaigns
before, so that the campaign may have any status here. -/
def warm (m : Fin k) : QuotaState k W :=
  match s.managers m with
  | .idle =>
    if s.redis.num (quotaKey id) = none ∧ ¬ (qm.shadow ∧ 0 < reservedAmount id s.pg) ∧
        s.redis.num (refillLockKey id) = none then
      { s with
        redis := s.redis.setNum (refillLockKey id) 1
        managers := update s.managers m .warming }
    else s
  | _ => s

/-- The reservation of `warmActiveCampaignQuotas`, which does not ask whether the key was applied
before. -/
def warmReserve (m : Fin k) (reply : Reply) : QuotaState k W :=
  match s.managers m with
  | .warming =>
    let unlocked := s.redis.delNum (refillLockKey id)
    let idle := update s.managers m .idle
    match reserveChunk id qm.chunkSize (initQuotaKey id) s.pg, reply with
    | .error _, _ => { s with redis := unlocked, managers := idle }
    | .ok _, .failed => { s with redis := unlocked, managers := idle }
    | .ok (_, pg), .lost =>
      { s.reserve pg (initQuotaKey id) with redis := unlocked, managers := idle }
    | .ok (_, pg), .received =>
      if qm.shadow then { s.reserve pg (initQuotaKey id) with redis := unlocked, managers := idle }
      else
        { s.reserve pg (initQuotaKey id) with
          managers := update s.managers m (.crediting true) }
  | _ => s

/-- The credit of a reserved chunk. -/
def credit (m : Fin k) (reply : Reply) : QuotaState k W :=
  match s.managers m with
  | .crediting warm =>
    let credited := s.redis.incrBy (quotaKey id) qm.chunkSize
    match reply with
    | .received =>
      { s with
        redis := if warm then credited.delNum (refillLockKey id) else credited
        managers := update s.managers m .idle }
    | .failed => { s with managers := update s.managers m (.releasing warm) }
    | .lost =>
      { s with redis := credited, managers := update s.managers m (.releasing warm) }
  | _ => s

/-- The release of a chunk after a failed credit. -/
def release (m : Fin k) (reply : Reply) : QuotaState k W :=
  match s.managers m with
  | .releasing warm =>
    { s with
      pg := if reply = .failed then s.pg else (releaseChunk id qm.chunkSize s.pg).getD s.pg
      redis := if warm then s.redis.delNum (refillLockKey id) else requeue id s.redis
      managers := update s.managers m .idle }
  | _ => s

/-- A step of a worker; its debits are left to `acceptQuotaDebit`. -/
def workerStep (a : SettlementAction W) : QuotaState k W :=
  match a with
  | .debit _ _ => s
  | a => { s with toSettlementState := s.toSettlementState.step id customerID threshold a }

/-- One step of the system. -/
def step : QuotaAction k W → QuotaState k W
  | .debit amount =>
    match acceptQuotaDebit id customerID amount s.redis with
    | none => s
    | some redis => { s with redis := redis, accepted := s.accepted + amount }
  | .worker a => s.workerStep id customerID threshold a
  | .requestRefill =>
    if s.redis.num (refillLockKey id) = none then { s with redis := requeue id s.redis } else s
  | .refillLockExpiry => { s with redis := s.redis.delNum (refillLockKey id) }
  | .loseQuota => { s with redis := s.redis.delNum (quotaKey id) }
  | .refill m newKey reply => s.refill qm id m newKey reply
  | .warm m => s.warm qm id m
  | .warmReserve m reply => s.warmReserve qm id m reply
  | .credit m reply => s.credit qm id m reply
  | .release m reply => s.release qm id m reply
  | .managerCrash m => { s with managers := update s.managers m .idle }

/-- The credit that is left in Redis. -/
def quota : ℤ := s.redis.count (quotaKey id)

/-- The reservation in Postgres. -/
def reserved : ℤ := reservedAmount id s.pg

/-- The campaign's limit in Postgres. -/
def limit : ℤ := ((s.pg.campaigns.get? id).map CampaignRow.budgetLimit).getD 0

end QuotaState

section

variable (id : UUID)

/-- The manager's keys are no keys of the worker. -/
theorem quotaKey_notMem (idStr : String) : quotaKey id ∉ entityIntKeys "campaign" idStr ∧
    refillLockKey id ∉ entityIntKeys "campaign" idStr := by
  have hclash : ∀ w ∈ ["budget:sync:", "budget:inflight:", "budget:lock:"],
      clash "budget:quota:".toList w.toList = true ∧
        clash "budget:refill_lock:".toList w.toList = true := by
    decide
  constructor
  · intro h
    obtain ⟨word, hword, heq⟩ := mem_entityIntKeys.mp h
    exact append_ne_of_clash (hclash word hword).1 heq
  · intro h
    obtain ⟨word, hword, heq⟩ := mem_entityIntKeys.mp h
    exact append_ne_of_clash (hclash word hword).2 heq

theorem quotaKey_ne_refillLockKey : quotaKey id ≠ refillLockKey id := append_ne_of_clash (by decide)

/-- A debit from the manager's key meets the worker's keys in the sync counter only. -/
theorem quotaDebitKeys_distinct (customerID : UUID) :
    DebitDistinct (quotaDebitKeys id customerID) (campaignKeys id) := by
  have hshared := sharedDebitKeys_distinct id customerID none
  have hnotMem := (quotaKey_notMem id (uuidString id)).1
  simp only [entityIntKeys, List.mem_cons, List.not_mem_nil, or_false, not_or] at hnotMem
  refine ⟨rfl, rfl, Ne.symm hnotMem.1, hshared.sync_customer, ?_, ?_⟩
  · exact append_ne_of_clash (by decide)
  · rintro key (rfl | rfl)
    · exact ⟨Ne.symm hnotMem.2.1, (hshared.other _ (Or.inl rfl)).2⟩
    · exact ⟨Ne.symm hnotMem.2.2, (hshared.other _ (Or.inr rfl)).2⟩

/-- What an accepted debit does. -/
theorem acceptQuotaDebit_counts {customerID : UUID} {amount : ℕ} {r after : Redis}
    (h : acceptQuotaDebit id customerID amount r = some after) :
    (amount : ℤ) ≤ r.count (quotaKey id) ∧ after.count (quotaKey id) = r.count (quotaKey id) - amount ∧
      after.count (campaignKeys id).syncKey = r.count (campaignKeys id).syncKey + amount ∧
      after.count (campaignKeys id).inFlightKey = r.count (campaignKeys id).inFlightKey ∧
      after.text = r.text := by
  unfold acceptQuotaDebit at h
  cases hbudget : r.num (quotaKey id) with
  | none =>
    rw [hbudget] at h
    cases h
  | some budget =>
    rw [hbudget] at h
    dsimp only at h
    split at h
    · cases h
    rename_i hcover
    have hcount := debit_distinct (quotaDebitKeys_distinct id customerID) amount (uuidString id)
      (uuidString customerID) r
    rw [← Option.some.inj h]
    refine ⟨?_, hcount.2.2.1, hcount.1, hcount.2.1, hcount.2.2.2⟩
    rw [Redis.count, hbudget, Option.getD_some]
    exact not_lt.mp hcover

end

end Espx.Settlement
