import Espx.Domain.Sharding
import Espx.Foundation.Redis

/-!
# Recovery of missing budget keys

A debit that finds no budget key lets the filter write one and try once more; the cache warmer writes keys
ahead of debits. Both write what a snapshot of the campaign says is left, and only where no key stands.
-/

namespace Espx.Ingestion

open Espx.Foundation Espx.Domain

/-- What a limit and a spend leave. -/
def remainingOf (budgetLimit currentSpend : ℤ) : ℤ :=
  if budgetLimit - currentSpend < 0 then 0 else budgetLimit - currentSpend

/-- `RemainingBudgetMicro`. -/
def remainingBudgetMicro (camp : Campaign) : ℤ := remainingOf camp.budgetLimit camp.currentSpend

/-- `warmBudgetKeyNX`. -/
def warmBudgetKeyNX (key : String) (remaining : ℤ) (r : Redis) : Redis := r.setNX key remaining

/-- The errors of a recovery. -/
inductive RecoverError
  | budgetExhausted
  | filterTimeout
  | lookupFailed
  deriving DecidableEq, Repr

/-- What `recoverBudgetAfterMiss` depends on besides the stores: the number of the attempt, the deadline
of the event before and after the registry was asked, and the settings. -/
structure MissContext where
  attempt : ℕ
  deadlineExceeded : Bool
  lookupTimeout : Bool
  pgFallbackAllowed : Bool
  hasRepo : Bool

/-- Where a recovery stands: it has failed, it asks the database, or it writes what a limit and a spend
leave. -/
inductive RecoverPoint
  | failed (err : RecoverError)
  | lookingUp
  | warming (budgetLimit currentSpend : ℤ)

/-- `recoverBudgetAfterMiss` up to its first call, with the campaign that `tryRecoverBudgetFromRegistry`
finds in the registry. -/
def askRegistry (m : MissContext) (registered : Option Campaign) : RecoverPoint :=
  if 0 < m.attempt then .failed .budgetExhausted
  else if m.deadlineExceeded then .failed .filterTimeout
  else
    match registered.filter fun camp => ¬ (camp.budgetLimit = 0 ∧ camp.currentSpend = 0) with
    | some camp => .warming camp.budgetLimit camp.currentSpend
    | none =>
      if ¬ m.pgFallbackAllowed then .failed .budgetExhausted
      else if ¬ m.hasRepo then .failed .budgetExhausted
      else if m.lookupTimeout then .failed .filterTimeout
      else .lookingUp

/-- The answer of `GetByID`: the limit and the spend of the campaign. -/
def askDatabase : Option (ℤ × ℤ) → RecoverPoint
  | none => .failed .lookupFailed
  | some (budgetLimit, currentSpend) => .warming budgetLimit currentSpend

/-- The end of a recovery. -/
def RecoverPoint.finish (budgetSourceKey : String) (r : Redis) :
    RecoverPoint → Except RecoverError Bool × Redis
  | .failed err => (.error err, r)
  | .lookingUp => (.error .lookupFailed, r)
  | .warming budgetLimit currentSpend =>
    (.ok true, warmBudgetKeyNX budgetSourceKey (remainingOf budgetLimit currentSpend) r)

/-- `recoverBudgetAfterMiss` where nothing happens between its calls; `row` is what `GetByID` reads. -/
def recoverBudgetAfterMiss (m : MissContext) (registered : Option Campaign) (row : Option (ℤ × ℤ))
    (budgetSourceKey : String) (r : Redis) : Except RecoverError Bool × Redis :=
  match askRegistry m registered with
  | .lookingUp => (askDatabase row).finish budgetSourceKey r
  | point => point.finish budgetSourceKey r

/-- `WarmOne`, on the servers of all shards. -/
def warmOne {k : ℕ} (table : SlotTable) (camp : Campaign) (servers : Fin k → Redis) : Fin k → Redis :=
  if camp.budgetCampaignKey = "" then servers
  else if h : getShard table camp.id < k then
    Function.update servers ⟨getShard table camp.id, h⟩
      (warmBudgetKeyNX camp.budgetCampaignKey (remainingBudgetMicro camp)
        (servers ⟨getShard table camp.id, h⟩))
  else servers

/-- `Warm`: the commands of its pipelines, one campaign after the other. -/
def warm {k : ℕ} (table : SlotTable) (campaigns : List Campaign) (servers : Fin k → Redis) :
    Fin k → Redis :=
  campaigns.foldl (fun servers camp => warmOne table camp servers) servers

theorem remainingOf_eq_max (limit spend : ℤ) : remainingOf limit spend = max 0 (limit - spend) := by
  unfold remainingOf
  split <;> omega

/-- A recovery writes nothing, or what is left by some limit and spend. -/
theorem recoverBudgetAfterMiss_redis (m : MissContext) (registered : Option Campaign)
    (row : Option (ℤ × ℤ)) (key : String) (r : Redis) :
    (recoverBudgetAfterMiss m registered row key r).2 = r ∨
      ∃ remaining, (recoverBudgetAfterMiss m registered row key r).2 = r.setNX key remaining := by
  have hfinish (point : RecoverPoint) :
      (point.finish key r).2 = r ∨ ∃ remaining, (point.finish key r).2 = r.setNX key remaining := by
    cases point with
    | failed err | lookingUp => exact .inl rfl
    | warming limit spend => exact .inr ⟨_, rfl⟩
  unfold recoverBudgetAfterMiss
  split
  · exact hfinish _
  · exact hfinish _

end Espx.Ingestion
