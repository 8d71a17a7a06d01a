import Espx.Domain.SpendStore
import Espx.Foundation.Redis

/-!
# Quota reservations

The quota manager reserves chunks of a campaign's budget in `campaign_quotas` and credits them to a key in
Redis. An idempotency key that is already there makes `ReserveChunk` a success without effect. The chunk
size that the row repeats is read by nobody and is left out.
-/

namespace Espx.ControlPlane

open Espx.Foundation Espx.Domain

/-- `QuotaManager`; in shadow mode chunks are reserved and not credited. -/
structure QuotaManager where
  chunkSize : ℤ
  shadow : Bool
  chunkSize_pos : 0 < chunkSize

/-- `NewQuotaManager`: a chunk size that is not positive is replaced. -/
def newQuotaManager (quotaChunkSize : ℤ) (shadow : Bool) : QuotaManager where
  chunkSize := if quotaChunkSize ≤ 0 then 5000000 else quotaChunkSize
  shadow := shadow
  chunkSize_pos := by
    split
    · decide
    · omega

/-- The key that the manager credits. -/
def quotaKey (id : UUID) : String := "budget:quota:" ++ uuidString id

/-- The lock of a refill. -/
def refillLockKey (id : UUID) : String := "budget:refill_lock:" ++ uuidString id

/-- The set of campaigns that wait for a refill. -/
def refillNeeded : String := "budget:refill_needed"

/-- The row that `ReserveChunk` claims in `sync_idempotency`. -/
def quotaIdempotencyID (idempotencyKey : String) : String := "quota:" ++ idempotencyKey

/-- The idempotency key of `warmActiveCampaignQuotas`. -/
def initQuotaKey (id : UUID) : String := "init-quota-" ++ uuidString id

/-- `reserved_amount` of a campaign. -/
def reservedAmount (id : UUID) (pg : Pg) : ℤ := (pg.campaignQuotas.get? (quotaShard id, id)).getD 0

/-- `InsertCampaignQuota` for the first chunk, `IncreaseCampaignQuotaReserved` after that. -/
def addReserved (id : UUID) (chunkSize : ℤ) (pg : Pg) : Pg :=
  { pg with
    campaignQuotas := match pg.campaignQuotas.get? (quotaShard id, id) with
      | none => pg.campaignQuotas.insert (quotaShard id, id) chunkSize
      | some _ => pg.campaignQuotas.modify (quotaShard id, id) (· + chunkSize) }

/-- The errors of `ReserveChunk`. -/
inductive ReserveError
  | invalidChunk
  | budgetExceeded
  | noCampaign
  deriving DecidableEq, Repr

/-- `ReserveChunk`: whether the key was applied before, and the database. -/
def reserveChunk (id : UUID) (chunkSize : ℤ) (idempotencyKey : String) (pg : Pg) :
    Except ReserveError (Bool × Pg) :=
  if chunkSize ≤ 0 then .error .invalidChunk
  else if quotaIdempotencyID idempotencyKey ∈ pg.syncIdempotency then .ok (true, pg)
  else
    match pg.campaigns.get? id with
    | none => .error .noCampaign
    | some row =>
      if row.budgetLimit < row.currentSpend + reservedAmount id pg + chunkSize then
        .error .budgetExceeded
      else
        .ok (false,
          { addReserved id chunkSize pg with
            syncIdempotency := insert (quotaIdempotencyID idempotencyKey) pg.syncIdempotency })

/-- `ReleaseChunk`, under the check that reservations are not negative. -/
def releaseChunk (id : UUID) (chunkSize : ℤ) (pg : Pg) : Option Pg :=
  match pg.campaignQuotas.get? (quotaShard id, id) with
  | none => some pg
  | some reserved =>
    if reserved - chunkSize < 0 then none
    else some { pg with
      campaignQuotas := pg.campaignQuotas.modify (quotaShard id, id) (· - chunkSize) }

section

variable {id : UUID} {chunkSize : ℤ} {idempotencyKey : String} {pg pg' : Pg}

/-- A chunk more is reserved. -/
theorem reservedAmount_addReserved :
    reservedAmount id (addReserved id chunkSize pg) = reservedAmount id pg + chunkSize := by
  unfold reservedAmount addReserved
  cases hrow : pg.campaignQuotas.get? (quotaShard id, id) with
  | none =>
    rw [Table.get?_insert_self _ _ hrow]
    simp
  | some reserved =>
    rw [Table.get?_modify_self, hrow]
    rfl

/-- What a reservation that takes effect has done. -/
structure Reserved (id : UUID) (chunkSize : ℤ) (idempotencyKey : String) (pg pg' : Pg) : Prop where
  campaigns : pg'.campaigns = pg.campaigns
  ledger : pg'.ledger = pg.ledger
  syncIdempotency : pg'.syncIdempotency = insert (quotaIdempotencyID idempotencyKey) pg.syncIdempotency
  reserved : reservedAmount id pg' = reservedAmount id pg + chunkSize
  covered : ∃ row, pg.campaigns.get? id = some row ∧
    row.currentSpend + reservedAmount id pg + chunkSize ≤ row.budgetLimit

/-- `ReserveChunk` succeeds without effect on a key that was applied, and reserves the chunk
within the budget otherwise. -/
theorem reserveChunk_eq_ok {applied : Bool}
    (h : reserveChunk id chunkSize idempotencyKey pg = .ok (applied, pg')) :
    (applied = true ∧ quotaIdempotencyID idempotencyKey ∈ pg.syncIdempotency ∧ pg' = pg) ∨
      (applied = false ∧ Reserved id chunkSize idempotencyKey pg pg') := by
  unfold reserveChunk at h
  split at h
  · cases h
  split at h
  · rename_i hmem
    cases h
    exact .inl ⟨rfl, hmem, rfl⟩
  split at h
  · cases h
  rename_i row hrow
  split at h
  · cases h
  · rename_i hcover
    cases h
    exact .inr ⟨rfl, rfl, rfl, rfl, reservedAmount_addReserved, row, hrow, not_lt.mp hcover⟩

/-- The reservation has lost a chunk, or nothing. -/
def ChunkReleased (id : UUID) (chunkSize : ℤ) (pg pg' : Pg) : Prop :=
  pg' = pg ∨ (reservedAmount id pg' = reservedAmount id pg - chunkSize ∧
    ∃ quotas, pg' = { pg with campaignQuotas := quotas })

/-- `ReleaseChunk` takes the chunk from the reservation, or nothing. -/
theorem releaseChunk_getD (id : UUID) (chunkSize : ℤ) (pg : Pg) :
    ChunkReleased id chunkSize pg ((releaseChunk id chunkSize pg).getD pg) := by
  unfold releaseChunk
  cases hrow : pg.campaignQuotas.get? (quotaShard id, id) with
  | none => exact .inl rfl
  | some reserved =>
    dsimp only
    split
    · exact .inl rfl
    · refine .inr ⟨?_, _, rfl⟩
      rw [Option.getD_some, reservedAmount, Table.get?_modify_self, reservedAmount, hrow]
      rfl

end

end Espx.ControlPlane
