import Espx.Domain.SpendStore
import Espx.Domain.SyncScripts

/-!
# The sync worker

One round of `SyncWorker.SyncAll` in which every call to Redis and Postgres is answered: the dirty set is
collected into the rollup, the rollup is flushed to Postgres in batches and committed in Redis, and
customers are settled one by one. This is the configuration with a nil dedup adapter and a nil region
proxy. Both programs set an adapter; `resolveSpendDedup`, which then puts a dedup key in place of each
transaction id, is left out.

`uuid.Parse` is a parameter, and so are the fresh transaction ids, one for each prepare.
-/

namespace Espx.Domain

open Espx.Foundation

/-- `PendingRollup`; its keys are those of the campaign with text `idStr`. -/
structure PendingRollup where
  amountMicro : ℤ
  txID : String
  idStr : String
  redisRemainingMicro : ℤ
  deriving DecidableEq

/-- `strconv.ParseInt` of what Lua's `tostring` prints for an integer: from fifteen digits on
that is an exponent form. -/
def parseLuaInteger (n : ℤ) : Option ℤ := if n.natAbs < 10 ^ 14 then some n else none

/-- `prepareBudgetEntity` for a parsed id. A reported zero is followed by the removal of the id from the
dirty set, also when the lock is held. -/
def prepareEntity (entity idStr : String) (id : UUID) (newTxID : String) (r : Redis) :
    Option PendingRollup × Redis :=
  let keys := budgetEntityKeys entity idStr
  let reply := prepareSyncScript keys newTxID r
  if reply.1.1 = 0 then (none, reply.2.srem keys.dirtySet idStr)
  else
    match parseLuaInteger reply.1.1 with
    | none => (none, reply.2)
    | some amount =>
      if amount ≤ 0 then (none, reply.2)
      else
        (some { amountMicro := amount, txID := reply.1.2, idStr := idStr,
                redisRemainingMicro := if entity = "campaign" then
                  reply.2.count (budgetCampaignKey id) else 0 }, reply.2)

/-- As far as integers and texts go, a prepare is its script. -/
theorem prepareEntity_redis (entity idStr : String) (id : UUID) (newTxID : String) (r : Redis) :
    (prepareEntity entity idStr id newTxID r).2.num =
        (prepareSyncScript (budgetEntityKeys entity idStr) newTxID r).2.num ∧
      (prepareEntity entity idStr id newTxID r).2.text =
        (prepareSyncScript (budgetEntityKeys entity idStr) newTxID r).2.text := by
  unfold prepareEntity
  dsimp only
  split
  · exact ⟨rfl, rfl⟩
  · split
    · exact ⟨rfl, rfl⟩
    · split <;> exact ⟨rfl, rfl⟩

/-- A prepare that takes an entry found the lock free and takes the whole of both counters. -/
theorem prepareEntity_eq_some {entity idStr newTxID : String} {id : UUID} {r : Redis}
    {entry : PendingRollup} (h : (prepareEntity entity idStr id newTxID r).1 = some entry) :
    let keys := budgetEntityKeys entity idStr
    r.num keys.lockKey = none ∧ 0 < r.count keys.inFlightKey + r.count keys.syncKey ∧
      entry.amountMicro = r.count keys.inFlightKey + r.count keys.syncKey ∧
      entry.txID = syncTxID keys newTxID r ∧ entry.idStr = idStr := by
  unfold prepareEntity parseLuaInteger at h
  dsimp only at h ⊢
  split at h
  · cases h
  rename_i hamt
  set keys := budgetEntityKeys entity idStr
  have hlock : r.num keys.lockKey = none := by
    cases hl : r.num keys.lockKey with
    | none => rfl
    | some v => exact absurd (by rw [prepareSyncScript_locked newTxID (by rw [hl]; rfl)]) hamt
  have hmax := prepareSyncScript_amount newTxID hlock
  have htotal : 0 < r.count keys.inFlightKey + r.count keys.syncKey := by
    omega
  have htx : (prepareSyncScript keys newTxID r).1.2 = syncTxID keys newTxID r := by
    simp [prepareSyncScript, hlock, not_le.mpr htotal]
  rw [max_eq_right htotal.le] at hmax
  split at h
  · cases h
  rename_i amount hparse
  split at hparse
  · cases hparse
    split at h
    · cases h
    · cases h
      exact ⟨hlock, htotal, hmax, htx, rfl⟩
  · cases hparse

/-- `CommitRollupRedis`, and the same script for a customer. -/
def commitEntity (entity : String) (entry : PendingRollup) (r : Redis) : Redis :=
  (commitSyncScript (budgetEntityKeys entity entry.idStr) entry.amountMicro entry.idStr r).2

/-- The item that a rollup entry is flushed as. -/
def flushItem (strictThresholdMicro : ℤ) (id : UUID) (entry : PendingRollup) : SpendFlushItem where
  campaignID := id
  amountMicro := entry.amountMicro
  txID := entry.txID
  strictFlush := 0 < entry.redisRemainingMicro ∧ entry.redisRemainingMicro < strictThresholdMicro
  rtbCostMicro := 0

/-- The state of one worker and of the stores. -/
structure SyncState where
  redis : Redis
  pg : Pg
  rollup : List (UUID × PendingRollup)

namespace SyncState

variable (parse : String → Option UUID) (s : SyncState)

/-- `stageCampaignRollup`: an entry of the same campaign is replaced. -/
def stageCampaignRollup (idStr newTxID : String) : SyncState :=
  match parse idStr with
  | none => s
  | some id =>
    let prepared := prepareEntity "campaign" idStr id newTxID s.redis
    match prepared.1 with
    | none => { s with redis := prepared.2 }
    | some entry =>
      { s with redis := prepared.2, rollup := (id, entry) :: s.rollup.filter fun e => e.1 ≠ id }

/-- `collectCampaignRollup` over the scanned members, each with a fresh transaction id. -/
def collectCampaignRollup (scan : List (String × String)) : SyncState :=
  scan.foldl (fun s member => s.stageCampaignRollup parse member.1 member.2) s

/-- What becomes of one flushed entry: it is committed in Redis, or retained; without the
customer's balance the campaign is paused. -/
def finishEntry (outcome : Option SpendFlushError) (id : UUID) (entry : PendingRollup) : SyncState :=
  match outcome with
  | none => { s with redis := commitEntity "campaign" entry s.redis }
  | some .insufficientCustomerBalance =>
    { s with pg := s.pg.updateCampaignStatus id .paused, rollup := (id, entry) :: s.rollup }
  | some _ => { s with rollup := (id, entry) :: s.rollup }

/-- One chunk of `flushCampaignRollupBatched`. -/
def flushChunk (rowLocked : UUID → Bool) (strictThresholdMicro : ℤ)
    (chunk : List (UUID × PendingRollup)) : SyncState :=
  match updateSpendBatch rowLocked (chunk.map fun e => flushItem strictThresholdMicro e.1 e.2) s.pg with
  | none => { s with rollup := chunk ++ s.rollup }
  | some (outcomes, pg) =>
    (chunk.zip outcomes).foldl (fun s e => s.finishEntry e.2 e.1.1 e.1.2) { s with pg := pg }

/-- `maxLedgerBatchSize`. -/
def maxLedgerBatchSize : ℕ := 32

/-- `flushCampaignRollup`: the rollup is taken out and flushed chunk after chunk. -/
def flushCampaignRollup (rowLocked : UUID → Bool) (strictThresholdMicro : ℤ) : SyncState :=
  (List.range ((s.rollup.length + maxLedgerBatchSize - 1) / maxLedgerBatchSize)).foldl
    (fun t i => t.flushChunk rowLocked strictThresholdMicro
      ((s.rollup.drop (i * maxLedgerBatchSize)).take maxLedgerBatchSize))
    { s with rollup := [] }

/-- `syncEntity` for a customer. -/
def syncCustomer (idStr newTxID : String) : SyncState :=
  match parse idStr with
  | none => s
  | some id =>
    let prepared := prepareEntity "customer" idStr id newTxID s.redis
    match prepared.1 with
    | none => { s with redis := prepared.2 }
    | some entry =>
      match updateBalance id entry.amountMicro entry.txID s.pg with
      | none => { s with redis := prepared.2 }
      | some pg => { s with redis := commitEntity "customer" entry prepared.2, pg := pg }

/-- `syncCustomers`. -/
def syncCustomers (scan : List (String × String)) : SyncState :=
  scan.foldl (fun s member => s.syncCustomer parse member.1 member.2) s

/-- `SyncAll` in a round that flushes the ledger. -/
def syncAll (rowLocked : UUID → Bool) (strictThresholdMicro : ℤ)
    (campaignScan customerScan : List (String × String)) : SyncState :=
  ((s.collectCampaignRollup parse campaignScan).flushCampaignRollup rowLocked
    strictThresholdMicro).syncCustomers parse customerScan

end SyncState

end Espx.Domain
