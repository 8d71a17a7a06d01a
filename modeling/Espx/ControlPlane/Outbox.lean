import Espx.ControlPlane.Billing
import Espx.Settlement.System

/-!
# The outbox of the control plane

`ProcessOutboxWithCount` with the handlers that write budgets. A worker takes a batch of pending rows,
urgent types first, handles one row after the other, and then marks all that went well and reverts all
that failed with one statement each. Every call may fail, or be executed and lose its answer; rows that
stay in processing for a minute are reclaimed.

The state keeps a log of what the handlers have executed for each row; no step reads it.
-/

namespace Espx.ControlPlane

open Espx.Foundation Espx.Domain Espx.Settlement

/-- `CampaignPayload`. -/
structure CampaignPayload where
  campaignID : UUID
  budgetLimit : ℤ

/-- `QuotaRepairAction`. -/
inductive QuotaRepairAction
  | topUpRedis
  | releasePG
  | unknown (action : String)

/-- `QuotaRepairPayload`, as far as the handler reads it. -/
structure QuotaRepairPayload where
  campaignID : UUID
  shardID : ℕ
  action : QuotaRepairAction
  repairMicro : ℤ

/-- `ReconciliationAdjustPayload`. -/
structure ReconciliationAdjustPayload where
  runID : ℕ
  campaignID : UUID
  customerID : UUID
  shardID : ℕ
  ledgerAmt : ℤ
  redisDelta : ℤ
  reason : String

/-- The type and the decoded payload of a row of `outbox_events`. A `none` is a payload that names no
campaign, which three handlers accept. A malformed row is one that its handler always refuses. Types that
write no budget are told apart only as far as their order goes. -/
inductive ManagementEvent
  | createCampaign (p : CampaignPayload)
  | pauseCampaign (p : Option CampaignPayload)
  | resumeCampaign (p : Option CampaignPayload)
  | cancelCampaign (p : Option CampaignPayload)
  | quotaRepair (p : QuotaRepairPayload)
  | reconciliationAdjust (p : ReconciliationAdjustPayload)
  | updateBlacklist
  | malformed (urgent : Bool)
  | other (urgent : Bool) (eventType : String)

/-- The class of an event in the order of `GetPendingOutboxEventsForUpdate`. -/
def ManagementEvent.priority : ManagementEvent → ℕ
  | updateBlacklist => 0
  | pauseCampaign _ => 0
  | cancelCampaign _ => 0
  | quotaRepair _ => 0
  | malformed urgent => if urgent then 0 else 1
  | other urgent _ => if urgent then 0 else 1
  | createCampaign _ => 1
  | resumeCampaign _ => 1
  | reconciliationAdjust _ => 1

/-- `UPDATE_BLACKLIST`, which a batch handles first. -/
def ManagementEvent.isBlacklist : ManagementEvent → Bool
  | updateBlacklist => true
  | _ => false

/-- The column `status` of `outbox_events`. -/
inductive ManagementStatus
  | pending
  | processing
  | processed
  deriving DecidableEq, Repr

/-- A row of `outbox_events`. -/
structure ManagementRow where
  id : ℕ
  event : ManagementEvent
  status : ManagementStatus
  processingStartedAt : Option ℤ

/-- The shards that the service is connected to. -/
structure ShardConfig where
  getShard : UUID → ℕ
  count : ℕ

/-- `getRDB`. -/
def ShardConfig.getRDB (cfg : ShardConfig) (campaignID : UUID) : Option ℕ :=
  if cfg.count = 0 then none
  else if cfg.count = 1 then some 0
  else some (cfg.getShard campaignID % cfg.count)

/-- The stores that handlers write. -/
structure ControlStore where
  pg : Pg
  rdbs : ℕ → Redis

/-- What a handler has executed for its row. -/
inductive Medium
  | redis
  | pg
  deriving DecidableEq, Repr

/-- The result of a handler: the stores, what it has executed, and whether it returns nil. -/
structure Handled where
  store : ControlStore
  effects : List Medium
  ok : Bool

/-- How the calls of a handler go: whether the campaign row can be read, the call to Redis, and the commit
or publication at the end. The last field is what a handler of another type does to the database. -/
structure Faults where
  read : Bool
  redis : Reply
  finish : Reply
  otherPg : Pg → Pg

/-- A handler all of whose calls go well. -/
def noFaults : Faults := ⟨true, .received, .received, id⟩

namespace ControlStore

variable (s : ControlStore)

/-- An error before anything is executed. -/
def refused : Handled := ⟨s, [], false⟩

/-- A write to one shard. -/
def onShard (shard : ℕ) (f : Redis → Redis) : ControlStore :=
  { s with rdbs := Function.update s.rdbs shard (f (s.rdbs shard)) }

/-- The end of a transaction. -/
def commit (reply : Reply) (committed : Pg) (effects : List Medium) : Handled where
  store := { s with pg := reply.after s.pg committed }
  effects := if reply = .failed then effects else effects ++ [.pg]
  ok := reply = .received

/-- A call to Redis, with what follows when its answer arrives. -/
def withRedis (reply : Reply) (shard : ℕ) (f : Redis → Redis) (next : ControlStore → Handled) :
    Handled :=
  match reply with
  | .failed => s.refused
  | .lost => ⟨s.onShard shard f, [.redis], false⟩
  | .received => next (s.onShard shard f)

end ControlStore

/-- The key of a budget as the handlers write it. -/
def budgetCampaignPlainKey (campaignID : UUID) : String := "budget:campaign:" ++ uuidString campaignID

/-- The key of a quota as the repair writes it. -/
def budgetQuotaPlainKey (campaignID : UUID) : String := "budget:quota:" ++ uuidString campaignID

/-- `campaignRemainingBudget`, `none` for an error. -/
def campaignRemainingBudget (read : Bool) (campaignID : UUID) (pg : Pg) : Option ℤ :=
  if read then (pg.campaigns.get? campaignID).map remainingBudget else none

/-- The value that `setCampaignBudgetRemaining` sets, `none` for an error. -/
def budgetToSet (read : Bool) (p : CampaignPayload) (pg : Pg) : Option ℤ :=
  match campaignRemainingBudget read p.campaignID pg with
  | some remaining => some remaining
  | none => if p.budgetLimit ≤ 0 then none else some p.budgetLimit

/-- The pipeline of `setCampaignBudgetRemaining`, empty for a budget that is used up, and the
publication after it. -/
def setCampaignBudgetAndPublish (shard : ℕ) (p : CampaignPayload) (faults : Faults)
    (s : ControlStore) : Handled :=
  match budgetToSet faults.read p s.pg with
  | none => s.refused
  | some remaining =>
    if remaining ≤ 0 then ⟨s, [.redis], faults.finish = .received⟩
    else
      s.withRedis faults.redis shard (·.setNum (budgetCampaignPlainKey p.campaignID) remaining)
        fun written => ⟨written, [.redis], faults.finish = .received⟩

/-- `deleteCampaignBudgetAndPublish`. -/
def deleteCampaignBudgetAndPublish (shard : ℕ) (p : CampaignPayload) (faults : Faults)
    (s : ControlStore) : Handled :=
  s.withRedis faults.redis shard (·.delNum (budgetCampaignPlainKey p.campaignID))
    fun written => ⟨written, [.redis], faults.finish = .received⟩

/-- The script of `adjustRedisBudgetAtomically`. -/
def adjustRedisBudgetAtomically (campaignID : UUID) (delta : ℤ) (r : Redis) : Redis :=
  let adjusted := r.incrBy (campaignSyncKey campaignID) delta
  if adjusted.count (campaignSyncKey campaignID) ≤ 0 then adjusted.delNum (campaignSyncKey campaignID)
  else adjusted

/-- `ApplyReconciliationAdjust`: ledger and spend in an open transaction, then Redis, then the
commit. -/
def handleReconciliationAdjust (cfg : ShardConfig) (p : ReconciliationAdjustPayload) (faults : Faults)
    (s : ControlStore) : Handled :=
  if p.ledgerAmt = 0 ∧ p.redisDelta = 0 then s.refused
  else
    match applyReconciliationAdjust p.campaignID p.customerID p.ledgerAmt s.pg with
    | none => s.refused
    | some adjusted =>
      if p.redisDelta = 0 then s.commit faults.finish adjusted []
      else if cfg.count ≤ p.shardID then s.refused
      else
        s.withRedis faults.redis p.shardID (adjustRedisBudgetAtomically p.campaignID p.redisDelta)
          fun written => written.commit faults.finish adjusted [.redis]

/-- `ApplyQuotaRepair`. The transaction of a top-up holds its audit row only. -/
def handleQuotaRepair (cfg : ShardConfig) (p : QuotaRepairPayload) (faults : Faults)
    (s : ControlStore) : Handled :=
  if p.repairMicro ≤ 0 then s.refused
  else
    match p.action with
    | .topUpRedis =>
      if cfg.count ≤ p.shardID then s.refused
      else
        s.withRedis faults.redis p.shardID (·.incrBy (budgetQuotaPlainKey p.campaignID) p.repairMicro)
          fun written => ⟨written, [.redis], faults.finish = .received⟩
    | .releasePG =>
      s.commit faults.finish (s.pg.decreaseCampaignQuotaReserved p.shardID p.campaignID p.repairMicro) []
    | .unknown _ => s.refused

/-- `handleOutboxEvent`. -/
def handleManagementEvent (cfg : ShardConfig) (faults : Faults) (event : ManagementEvent)
    (s : ControlStore) : Handled :=
  match event with
  | .createCampaign p =>
    match cfg.getRDB p.campaignID with
    | none => s.refused
    | some shard => setCampaignBudgetAndPublish shard p faults s
  | .resumeCampaign none => ⟨s, [], true⟩
  | .resumeCampaign (some p) =>
    match cfg.getRDB p.campaignID with
    | none => ⟨s, [], true⟩
    | some shard => setCampaignBudgetAndPublish shard p faults s
  | .pauseCampaign none | .cancelCampaign none => ⟨s, [], true⟩
  | .pauseCampaign (some p) | .cancelCampaign (some p) =>
    match cfg.getRDB p.campaignID with
    | none => ⟨s, [], true⟩
    | some shard => deleteCampaignBudgetAndPublish shard p faults s
  | .quotaRepair p => handleQuotaRepair cfg p faults s
  | .reconciliationAdjust p => handleReconciliationAdjust cfg p faults s
  | .malformed _ => s.refused
  | .updateBlacklist | .other _ _ =>
    ⟨{ s with pg := faults.otherPg s.pg }, [], faults.finish = .received⟩

/-- The memory of a worker in `ProcessOutboxWithCount`. -/
structure OutboxBatch where
  events : List ManagementRow
  processedIDs : List ℕ
  revertIDs : List ℕ

/-- The outbox, the stores, the log and the workers. -/
structure OutboxSystem (W : Type*) where
  rows : List ManagementRow
  store : ControlStore
  log : List (ℕ × Medium)
  batches : W → OutboxBatch

/-- The steps of the system. -/
inductive OutboxAction (W : Type*)
  | enqueue (event : ManagementEvent)
  | reclaim (now : ℤ)
  | fetch (w : W) (limit : ℕ) (now : ℤ) (reply : Reply)
  | handle (w : W) (faults : Faults)
  | markProcessed (w : W) (reply : Reply)
  | revert (w : W) (reply : Reply)
  | crash (w : W)

namespace OutboxSystem

variable {W : Type*} [DecidableEq W] (cfg : ShardConfig) (s : OutboxSystem W) (w : W)

/-- An update of the rows with given ids. -/
def updateRows (ids : List ℕ) (f : ManagementRow → ManagementRow) : List ManagementRow :=
  s.rows.map fun row => if row.id ∈ ids then f row else row

/-- The system with the batch of a worker replaced. -/
def setBatch (batch : OutboxBatch) : OutboxSystem W :=
  { s with batches := Function.update s.batches w batch }

/-- `GetPendingOutboxEventsForUpdate`: urgent types first, and within a class by creation. Its transaction
is one step, in which no other holds a row, and what `SKIP LOCKED` leaves is the prefix. -/
def getPendingOutboxEventsForUpdate (limit : ℕ) : List ManagementRow :=
  ((s.rows.filter fun row => row.status = .pending ∧ row.event.priority = 0) ++
    s.rows.filter fun row => row.status = .pending ∧ row.event.priority = 1).take limit

/-- `CreateOutboxEvent`. -/
def enqueue (event : ManagementEvent) : OutboxSystem W :=
  { s with rows := s.rows ++ [⟨s.rows.length, event, .pending, none⟩] }

/-- A row that `reclaimStaleProcessing` takes back. -/
def isStale (now : ℤ) (row : ManagementRow) : Bool :=
  row.status = .processing ∧ row.processingStartedAt.any (· < now - 60) = true

/-- `reclaimStaleProcessing`. -/
def reclaim (now : ℤ) : OutboxSystem W :=
  { s with rows := s.rows.map fun row => if isStale now row then
      { row with status := .pending, processingStartedAt := none }
    else row }

/-- The first transaction of `ProcessOutboxWithCount`, by a worker without a batch. -/
def fetch (limit : ℕ) (now : ℤ) (reply : Reply) : OutboxSystem W :=
  match s.batches w with
  | ⟨[], [], []⟩ =>
    let events := s.getPendingOutboxEventsForUpdate limit
    let taken := s.updateRows (events.map ManagementRow.id) fun row =>
      { row with status := .processing, processingStartedAt := some now }
    { s with rows := reply.after s.rows taken }.setBatch w
      ⟨if reply = Reply.received then
        (events.filter fun row : ManagementRow => row.event.isBlacklist) ++
          events.filter fun row : ManagementRow => !row.event.isBlacklist
      else [], [], []⟩
  | _ => s

/-- The handler of the next row of the batch. -/
def handle (faults : Faults) : OutboxSystem W :=
  match s.batches w with
  | ⟨row :: rest, processedIDs, revertIDs⟩ =>
    let handled := handleManagementEvent cfg faults row.event s.store
    { s with
      store := handled.store
      log := s.log ++ handled.effects.map fun medium => (row.id, medium) }.setBatch w
      (if handled.ok then ⟨rest, processedIDs ++ [row.id], revertIDs⟩
      else ⟨rest, processedIDs, revertIDs ++ [row.id]⟩)
  | _ => s

/-- The statement that marks the handled rows of a finished batch. -/
def markProcessed (reply : Reply) : OutboxSystem W :=
  match s.batches w with
  | ⟨[], processedIDs, revertIDs⟩ =>
    let marked := s.updateRows processedIDs fun row => { row with status := .processed }
    { s with rows := reply.after s.rows marked }.setBatch w ⟨[], [], revertIDs⟩
  | _ => s

/-- The statement that reverts the failed rows, after the marking. -/
def revert (reply : Reply) : OutboxSystem W :=
  match s.batches w with
  | ⟨[], [], revertIDs⟩ =>
    let reverted := s.updateRows revertIDs fun row =>
      { row with status := .pending, processingStartedAt := none }
    { s with rows := reply.after s.rows reverted }.setBatch w ⟨[], [], []⟩
  | _ => s

/-- One step of the system. -/
def step : OutboxAction W → OutboxSystem W
  | .enqueue event => s.enqueue event
  | .reclaim now => s.reclaim now
  | .fetch w limit now reply => s.fetch w limit now reply
  | .handle w faults => s.handle cfg w faults
  | .markProcessed w reply => s.markProcessed w reply
  | .revert w reply => s.revert w reply
  | .crash w => s.setBatch w ⟨[], [], []⟩

end OutboxSystem

/-- One shard, for the sample runs. -/
def sampleShards : ShardConfig := ⟨fun _ => 0, 1⟩

end Espx.ControlPlane
