import Espx.Domain.Keys

/-!
# The campaign record of the hot path

`Campaign` with the fields that the debit paths, the cache warmer and the shard router read, and its
loader from a row of `ListActiveCampaigns`. Targeting, fraud thresholds, segments and the boxed `…Any`
copies are left out.
-/

namespace Espx.Domain

/-- `PacingMode`. -/
inductive PacingMode
  | asap
  | even
  | vpp
  deriving DecidableEq, Repr

/-- `CampaignStatusType` of the database. -/
inductive CampaignStatus
  | active
  | paused
  | exhausted
  | draining
  | deleted
  deriving DecidableEq, Repr

/-- The columns of `ListActiveCampaignsRow` that the loader copies; a shard triplet and a routing epoch
only for campaigns with a row in `campaign_routing`. -/
structure ListActiveCampaignsRow where
  id : UUID
  customerID : UUID
  status : CampaignStatus
  pacingMode : PacingMode
  budgetLimit : ℤ
  currentSpend : ℤ
  dailyBudget : ℤ
  freqLimit : ℤ
  freqWindow : ℤ
  brandFcapKey : String
  behaviorFlags : UInt32
  migrationGen : ℤ
  triplet : Option (ℕ × ℕ × ℕ)
  routingEpoch : Option ℤ

/-- `Campaign`. -/
structure Campaign where
  id : UUID
  idStr : String
  customerID : UUID
  customerIDStr : String
  brandFcapKey : String
  status : CampaignStatus
  pacingMode : PacingMode
  budgetLimit : ℤ
  currentSpend : ℤ
  dailyBudgetMicro : ℤ
  freqLimit : ℤ
  freqWindow : ℤ
  budgetCampaignKey : String
  campaignSyncKey : String
  customerSyncKey : String
  fcapKeyPrefix : String
  dailySpendKeyPrefix : String
  behaviorFlags : UInt32
  migrationGen : ℤ
  routingEpoch : ℤ
  hasTriplet : Bool
  primaryAShard : ℕ
  primaryBShard : ℕ
  reserveShard : ℕ

/-- `CampaignFromListActiveCampaignsRow`. -/
def campaignFromListActiveCampaignsRow (row : ListActiveCampaignsRow) : Campaign where
  id := row.id
  idStr := uuidString row.id
  customerID := row.customerID
  customerIDStr := uuidString row.customerID
  brandFcapKey := row.brandFcapKey
  status := row.status
  pacingMode := row.pacingMode
  budgetLimit := row.budgetLimit
  currentSpend := row.currentSpend
  dailyBudgetMicro := row.dailyBudget
  freqLimit := row.freqLimit
  freqWindow := row.freqWindow
  budgetCampaignKey := Domain.budgetCampaignKey row.id
  campaignSyncKey := Domain.campaignSyncKey row.id
  customerSyncKey := Domain.customerSyncKey row.id row.customerID
  fcapKeyPrefix := Domain.fcapKeyPrefix row.id row.brandFcapKey
  dailySpendKeyPrefix := Domain.dailySpendKeyPrefix row.id
  behaviorFlags := row.behaviorFlags
  migrationGen := row.migrationGen
  routingEpoch := row.routingEpoch.getD 0
  hasTriplet := row.triplet.isSome
  primaryAShard := (row.triplet.getD (0, 0, 0)).1
  primaryBShard := (row.triplet.getD (0, 0, 0)).2.1
  reserveShard := (row.triplet.getD (0, 0, 0)).2.2

namespace Campaign

/-- `LuaRoutingEpoch`: the larger of the routing epoch and the migration generation. -/
def luaRoutingEpoch (c : Campaign) : ℤ :=
  if c.migrationGen < c.routingEpoch then c.routingEpoch else c.migrationGen

/-- `BehaviorRoughPacing`. -/
def behaviorRoughPacing : UInt32 := (1 : UInt32) <<< 7

/-- `BehaviorHighVolumeDebit`. -/
def behaviorHighVolumeDebit : UInt32 := (1 : UInt32) <<< 8

/-- `HighVolumeDebitSubShards`. -/
def highVolumeDebitSubShards : ℕ := 4

/-- `DebitSubShardCount`. -/
def debitSubShardCount (c : Campaign) : ℕ :=
  if c.behaviorFlags &&& behaviorHighVolumeDebit = 0 then 0 else highVolumeDebitSubShards

/-- `RoughPacingEnabled`. -/
def roughPacingEnabled (c : Campaign) : Bool :=
  c.behaviorFlags &&& behaviorRoughPacing ≠ 0

end Campaign

end Espx.Domain
