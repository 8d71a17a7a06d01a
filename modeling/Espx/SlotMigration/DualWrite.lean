import Espx.SlotMigration.KeyCopy

/-!
# Moving a slot while its campaigns are debited

`CopySlotMigrationData` copies the keys of a slot's campaigns one after the other and sets the flag of
the delta stream only then; `finalizeDualWriteSlot` catches up, finds no entry left and marks the slot
as copied. Debits on the source come between any two of these steps.
-/

namespace Espx.SlotMigration

open Espx.Foundation Espx.Domain Espx.Ingestion Espx.Settlement

/-- How far the migration of a slot is: the keys still to be copied, or the place between
`EnableSlotMigrationDualWrite` and the update to `COPIED`. -/
inductive Job
  | copying (todo : List String)
  | flagSet
  | dualWriting
  | finalizing
  | overdue
  | checked
  | copied
  deriving DecidableEq

/-- The two shards and how far the migration between them is. -/
structure Migration where
  transfer : Transfer
  job : Job

/-- What a migration works with: the campaigns of the slot, `SlotMigrationDualWriteConfig` and the
readers of texts. -/
structure SlotPlan where
  texts : Texts
  campaigns : List UUID
  lagEpsilon : ℤ
  lagThreshold : ℤ

/-- The steps: debits and the environment on the source shard, and the calls of the migration. A failed
call is `restart` while keys are copied and `reject` later. -/
inductive MoveAction
  | debit (x : FilterExecution)
  | trim (upTo : ℕ)
  | cursorExpires
  | flagExpires
  | copyKey
  | copyScanned (pattern rest : String)
  | restart
  | setFlag (value : String)
  | delCursor
  | call (part : Part)
  | checkLag
  | fence (id : UUID) (gen : ℤ)
  | disable
  | reject
  | markCopied

/-- `DisableSlotMigrationDualWrite`. -/
def Shard.disabled (s : Shard) : Shard where
  redis := s.redis.delText dualWriteFlag
  gone := s.log.entries.length
  cursorKey := none

/-- Nothing is pending once the stream is deleted. -/
theorem Shard.start_disabled (s : Shard) : s.disabled.start = s.log.entries.length := Nat.zero_max _

/-- The keys that `MigrateCampaignKeys` copies by name, in their order. -/
def SlotPlan.keys (p : SlotPlan) : List String := p.campaigns.flatMap fixedKeys

/-- The check of `CopySlotMigrationData` after the copy. -/
def SlotPlan.postCopyVerified (p : SlotPlan) (t : Transfer) : Bool :=
  p.campaigns.all fun id =>
    (t.src.redis.num (budgetCampaignKey id)).isNone ∨ (t.dst.num (budgetCampaignKey id)).isSome

/-- Where the migration is after a part of a call of `CatchUpSlotMigrationDeltas`, by
`CatchUpDualWriteSlots` or `finalizeDualWriteSlot`. -/
def SlotPlan.after (p : SlotPlan) : Job → Option Returned → Job
  | .dualWriting, some (.counted _ lag _ false) => if p.lagThreshold < lag then .overdue else .dualWriting
  | .finalizing, some (.counted _ lag _ false) => if p.lagEpsilon < lag then .dualWriting else .checked
  | .finalizing, some _ => .dualWriting
  | job, _ => job

namespace Migration

variable (p : SlotPlan) (m : Migration)

/-- The state after a step on the source shard. -/
def withSource (src : Shard) : Migration := { m with transfer := { m.transfer with src := src } }

/-- The state after the keys of the source shard changed. -/
def onSource (redis : Redis) : Migration := m.withSource { m.transfer.src with redis := redis }

/-- The state after the target shard changed. -/
def onTarget (dst : Redis) : Migration := { m with transfer := { m.transfer with dst := dst } }

/-- One step. -/
def step : MoveAction → Migration
  | .debit x => m.onSource (x.execute m.transfer.src.redis).2
  | .trim upTo => m.withSource (m.transfer.src.trim upTo)
  | .cursorExpires => m.withSource m.transfer.src.delCursor
  | .flagExpires => m.onSource (m.transfer.src.redis.delText dualWriteFlag)
  | .copyKey =>
    match m.job with
    | .copying (key :: todo) =>
      { m.onTarget (migrateKey m.transfer.src.redis m.transfer.dst key) with job := .copying todo }
    | _ => m
  | .copyScanned pattern rest =>
    match m.job with
    | .copying _ =>
      if pattern ∈ p.campaigns.flatMap prefixPatterns then
        m.onTarget (migrateKey m.transfer.src.redis m.transfer.dst (pattern ++ rest))
      else m
    | _ => m
  | .restart =>
    match m.job with
    | .copying _ | .flagSet => { m with job := .copying p.keys }
    | _ => m
  | .setFlag value =>
    match m.job with
    | .copying [] =>
      if p.postCopyVerified m.transfer then
        { m.onSource (m.transfer.src.redis.setText dualWriteFlag value) with job := .flagSet }
      else { m with job := .copying p.keys }
    | _ => m
  | .delCursor =>
    match m.job with
    | .flagSet => { m.withSource m.transfer.src.delCursor with job := .dualWriting }
    | _ => m
  | .call part =>
    match m.job with
    | .dualWriting | .finalizing =>
      ⟨(m.transfer.perform p.texts part).1, p.after m.job (m.transfer.perform p.texts part).2⟩
    | _ => m
  | .checkLag =>
    match m.job, m.transfer.call with
    | .dualWriting, .idle =>
      if p.lagThreshold < m.transfer.src.pending.length then { m with job := .overdue }
      else if p.lagEpsilon < m.transfer.src.pending.length then m
      else { m with job := .finalizing }
    | _, _ => m
  | .fence id gen =>
    match m.job with
    | .overdue => m.onSource (m.transfer.src.redis.setNum (migrationFenceRedisKey id) gen)
    | _ => m
  | .disable =>
    match m.job with
    | .overdue => { m.withSource m.transfer.src.disabled with job := .dualWriting }
    | .copied => m.withSource m.transfer.src.disabled
    | _ => m
  | .reject =>
    match m.job with
    | .overdue | .checked => { m with job := .dualWriting }
    | _ => m
  | .markCopied =>
    match m.job with
    | .checked => { m with job := .copied }
    | _ => m

end Migration

/-- The stream is still to be read from its start. -/
def Job.early : Job → Bool
  | .copying _ | .flagSet => true
  | _ => false

/-- The keys that debits of a campaign are taken from: a campaign of high volume has four quotas. -/
def spendKeys (id : UUID) : List String :=
  budgetCampaignKey id :: (List.range 4).map (budgetQuotaKeySub id)

/-- An entry that is of no campaign of the slot, or has no effect. -/
def SlotPlan.foreign (p : SlotPlan) (entry : Entry) : Bool :=
  match parseSlotMigrationDelta p.texts entry with
  | none => true
  | some delta => delta.amount = 0 ∨
      delta.campaignID ∉ p.campaigns ∧ delta.spendKey ∈ spendKeys delta.campaignID

namespace Migration

variable (p : SlotPlan) (m : Migration)

/-- The place from which entries of the stream are still to be applied. -/
def place : ℕ := if m.job.early then m.transfer.src.gone else m.transfer.position

/-- The delta stream. -/
def log : Log Entry := m.transfer.src.log

/-- The flag of the delta stream is set. -/
def flagged : Bool := (m.transfer.src.redis.text dualWriteFlag).isSome

/-- A debit now is part of what will be copied, or will be caught up. -/
def reaches (x : FilterExecution) : Bool :=
  match m.job with
  | .copying todo => m.flagged ∨ x.call.spendKey ∈ todo ∧ x.call.campaignSyncKey ∈ todo
  | .checked => false
  | .copied => true
  | _ => m.flagged

/-- The condition on a step. A debit of the slot reaches the target; a key is copied when the stream owes
nothing to it, and is missing on the target where it is missing on the source; calls that catch up fail,
if they do, before they have had any effect; and what is trimmed, deleted or read again is not of the
slot. -/
def safe : MoveAction → Bool
  | .debit x =>
    x.filter.streamName ≠ dualWriteStream ∧ readable p.texts x ∧
      (x.debited m.transfer.src.redis = 0 ∨ x.event.campaignID ∉ p.campaigns ∨ m.reaches x)
  | .trim upTo =>
    (m.job.early = false ∧ upTo ≤ m.transfer.src.cursor) ∨
      m.transfer.resting ∧ (m.log.between m.place (m.step p (.trim upTo)).place).all p.foreign
  | .cursorExpires =>
    m.job.early ∨ m.transfer.src.cursor ≤ m.transfer.src.gone ∨
      m.transfer.resting ∧ (m.log.between m.transfer.src.gone m.place).all p.foreign
  | .copyKey =>
    match m.job with
    | .copying (key :: _) =>
      owed p.texts key (m.log.entries.drop m.transfer.src.gone) = 0 ∧
        (m.transfer.src.redis.num key = none → m.transfer.dst.num key = none)
    | _ => true
  | .call part => m.transfer.clean p.texts part
  | .disable => m.job ≠ .overdue ∨ m.transfer.src.pending.all p.foreign
  | _ => true

/-- The counters of the slot are the same on both shards. -/
def CountersEqual : Prop :=
  ∀ id ∈ p.campaigns, ∀ counter, Counter id counter →
    m.transfer.dst.count counter = m.transfer.src.redis.count counter

end Migration

end Espx.SlotMigration
