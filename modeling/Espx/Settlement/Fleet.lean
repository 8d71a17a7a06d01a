import Espx.Ingestion.BudgetRecovery
import Espx.Settlement.ShardStep

/-!
# A campaign on several shards

One campaign whose debits go to any of `k` Redis shards, each with its own spend keys, counters and
workers, over one database. Spend keys expire or are evicted, and recoveries and the cache warmer write
them anew from a snapshot that they read some time before.
-/

namespace Espx.Settlement

open Espx.Foundation Espx.Domain Espx.Ingestion

/-- A write of a spend key under way: a recovery of a key on a shard, or a warm-up with the campaign that
was in the registry. -/
inductive Refill (k : ℕ)
  | idle
  | recovering (n : Fin k) (slot : Slot) (point : RecoverPoint)
  | warming (table : SlotTable) (camp : Campaign)

/-- The shards, the database, what the registry holds of the campaign, and the writes of spend keys under
way, by their numbers. -/
structure Fleet (k : ℕ) (W : Type*) where
  redis : Fin k → Redis
  pg : Pg
  stage : Fin k → W → Stage
  registry : Option Campaign
  refill : ℕ → Refill k
  accepted : ℤ
  issued : Finset String

/-- The steps of the system. -/
inductive FleetAction (k : ℕ) (W : Type*)
  | settle (n : Fin k) (a : SettlementAction W)
  | expire (n : Fin k) (slot : Slot)
  | miss (e : ℕ) (n : Fin k) (slot : Slot) (m : MissContext)
  | lookUp (e : ℕ)
  | warm (e : ℕ) (table : SlotTable)
  | write (e : ℕ) (executed : Bool)
  | registrySync (row : ListActiveCampaignsRow)

namespace Fleet

variable {k : ℕ} {W : Type*} [DecidableEq W] (id customerID : UUID) (threshold : ℤ)

/-- One shard with the database. -/
def view (s : Fleet k W) (n : Fin k) : SettlementState W where
  redis := s.redis n
  pg := s.pg
  stage := s.stage n
  accepted := s.accepted
  issued := s.issued

/-- The system after one shard has changed. -/
def put (s : Fleet k W) (n : Fin k) (v : SettlementState W) : Fleet k W where
  redis := Function.update s.redis n v.redis
  pg := v.pg
  stage := Function.update s.stage n v.stage
  registry := s.registry
  refill := s.refill
  accepted := v.accepted
  issued := v.issued

/-- The system after one server has changed. -/
def putRedis (s : Fleet k W) (n : Fin k) (r : Redis) : Fleet k W :=
  { s with redis := Function.update s.redis n r }

/-- Limit and spend of the campaign, as `GetByID` reads them. -/
def row (s : Fleet k W) : Option (ℤ × ℤ) :=
  (s.pg.campaigns.get? id).map fun row => (row.budgetLimit, row.currentSpend)

/-- What `ListActiveCampaigns` reads: limit and spend are those of the table. -/
def listActiveCampaignsRow (row : ListActiveCampaignsRow) (stored : CampaignRow) :
    ListActiveCampaignsRow :=
  { row with id := id, budgetLimit := stored.budgetLimit, currentSpend := stored.currentSpend }

/-- A write under way goes on. -/
def goto (s : Fleet k W) (e : ℕ) (refill : Refill k) : Fleet k W :=
  { s with refill := Function.update s.refill e refill }

/-- The `SETNX` of a write under way. -/
def written (s : Fleet k W) : Refill k → Fleet k W
  | .recovering n slot point => s.putRedis n (point.finish (slotKey id slot) (s.redis n)).2
  | .warming table camp => { s with redis := Ingestion.warm table [camp] s.redis }
  | .idle => s

/-- One step of the system. -/
def step (s : Fleet k W) : FleetAction k W → Fleet k W
  | .settle n a => s.put n ((s.view n).step id customerID threshold a)
  | .expire n slot => s.putRedis n ((s.redis n).delNum (slotKey id slot))
  | .miss e n slot m => s.goto e (.recovering n slot (askRegistry m s.registry))
  | .lookUp e =>
    match s.refill e with
    | .recovering n slot .lookingUp => s.goto e (.recovering n slot (askDatabase (s.row id)))
    | _ => s
  | .warm e table => s.goto e (s.registry.elim .idle (.warming table))
  | .write e executed => (if executed then s.written id (s.refill e) else s).goto e .idle
  | .registrySync row =>
    let listed := (s.pg.campaigns.get? id).map (listActiveCampaignsRow id row)
    { s with registry := listed.map campaignFromListActiveCampaignsRow }

variable (s : Fleet k W)

/-- The limit of the campaign. -/
def limit : ℤ := ((s.pg.campaigns.get? id).map CampaignRow.budgetLimit).getD 0

/-- The settled spend of the campaign. -/
def spend : ℤ := ((s.pg.campaigns.get? id).map CampaignRow.currentSpend).getD 0

/-- Sync and inflight counter of a shard. -/
def unsettled (n : Fin k) : ℤ := (s.view n).inFlight id + (s.view n).sync id

/-- Spend that has not reached the database: a half-done settlement has. -/
def outstanding (n : Fin k) : ℤ := s.unsettled id n - (s.view n).halfDone id

/-- What the spend keys of a shard hold. -/
def left (n : Fin k) : ℤ := remaining id (s.redis n)

/-- What the registry holds, and what was read from it, is the campaign. -/
def Registered : Prop :=
  ∀ camp, (s.registry = some camp ∨ ∃ e table, s.refill e = .warming table camp) →
    camp.id = id ∧ camp.budgetCampaignKey = budgetCampaignKey id

/-- A missing spend key may be written from a limit and a spend: these leave nothing, or no more than the
database does now, all spend has reached the database, and no other spend key of the campaign holds
anything. -/
def SafeRefill (n : Fin k) (slot : Slot) (limit spend : ℤ) : Prop :=
  (s.redis n).num (slotKey id slot) = none →
    limit ≤ spend ∨ (limit - spend ≤ s.limit id - s.spend id ∧ (∀ m, s.outstanding id m = 0) ∧
      ∀ m other, (m, other) ≠ (n, slot) → (s.redis m).count (slotKey id other) ≤ 0)

/-- A write under way may be executed. -/
def SafeWrite : Refill k → Prop
  | .recovering n slot (.warming limit spend) => s.SafeRefill id n slot limit spend
  | .warming table camp => ∀ h : getShard table id < k,
      s.SafeRefill id ⟨getShard table id, h⟩ none camp.budgetLimit camp.currentSpend
  | _ => True

/-- The condition on each step. -/
def Safe : FleetAction k W → Prop
  | .settle n a => (s.view n).Fresh a ∧ (s.view n).SafePrepare id a
  | .write e executed => executed = true → s.SafeWrite id (s.refill e)
  | _ => True

/-- A miss, the answer of the database and the write, one right after the other, are
`recoverBudgetAfterMiss`. -/
theorem recover_in_a_row (e : ℕ) (n : Fin k) (slot : Slot) (m : MissContext) :
    (run (step id customerID threshold) s [.miss e n slot m, .lookUp e, .write e true]).redis n =
      (recoverBudgetAfterMiss m s.registry (s.row id) (slotKey id slot) (s.redis n)).2 := by
  unfold recoverBudgetAfterMiss
  cases hpoint : askRegistry m s.registry with
  | failed err | lookingUp | warming limit spend =>
    simp [run, step, goto, hpoint, written, putRedis, row]

end Fleet

end Espx.Settlement
