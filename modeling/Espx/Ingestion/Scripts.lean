import Espx.Foundation.Redis

/-!
# The debit scripts of the hot path

`budget-fast.lua` and `unified-filter.lua`, each one atomic step of Redis. The full script adds the
time-to-click, pacing, frequency and duplicate checks and the counters that these read. Times to live and
stream trimming are left to the environment, and numbers are exact integers.

The rejecting codes come before any write except the one to the ingress counter, so that the writes of an
accepted event are a function of their own.
-/

namespace Espx.Ingestion

open Espx.Foundation

/-- The key that stands for "no such check" in a script's key list. -/
def fcapIgnored : String := "fcap:ignored"

/-- The keys of the debit block. -/
structure DebitKeys where
  spendKey : String
  campaignSyncKey : String
  customerSyncKey : String
  dirtyCampaigns : String
  dirtyCustomers : String

/-- Add to a sync counter; the id becomes dirty when the counter was empty before. -/
def addToSync (syncKey dirtySet : String) (amount : ℤ) (idStr : String) (r : Redis) : Redis :=
  let counted := r.incrBy syncKey amount
  if counted.count syncKey = amount then counted.sadd dirtySet idStr else counted

/-- `SlotMigrationDualWriteFlagKey`. -/
def dualWriteFlag : String := "slot_migration:dual_write"

/-- The stream of debits made while a slot is being moved. -/
def dualWriteStream : String := "slot_migration:delta"

/-- The entry that a debit leaves in the stream of the slot migration. -/
def dualWriteEntry (spendKey campaignID : String) (amount : ℤ) : List (String × String) :=
  [("campaign_id", campaignID), ("amount", toString amount), ("spend_key", spendKey)]

/-- Report the debit to a running slot migration. -/
def recordDualWrite (spendKey campaignID : String) (amount : ℤ) (r : Redis) : Redis :=
  if (r.text dualWriteFlag).isSome then
    r.xadd dualWriteStream (dualWriteEntry spendKey campaignID amount)
  else r

/-- The debit block of both scripts. At amount 0 a server that refuses the text `-0` ends the script here;
one that reads it as 0 is meant. -/
def debit (k : DebitKeys) (amount : ℤ) (campaignID customerID : String) (r : Redis) : Redis :=
  let debited := r.incrBy k.spendKey (-amount)
  let campaign := addToSync k.campaignSyncKey k.dirtyCampaigns amount campaignID debited
  let customer := addToSync k.customerSyncKey k.dirtyCustomers amount customerID campaign
  recordDualWrite k.spendKey campaignID amount customer

/-- The keys and arguments of the prechecks. -/
structure Precheck where
  fraudBlacklistKey : String
  migrationFenceKey : String
  budgetFrozenKey : String
  placementKey : String
  ingressKey : String
  clientIP : String
  placementID : String
  routingEpoch : ℤ
  maxRPD : ℤ

namespace Precheck

variable (p : Precheck) (r : Redis)

/-- The campaign is fenced off by a migration or frozen. -/
def fenced : Bool :=
  (0 < r.count p.migrationFenceKey ∧ r.count p.migrationFenceKey ≠ p.routingEpoch) ∨
    (r.num p.budgetFrozenKey).isSome

/-- The client is on the fraud list; the event is accepted with a signal. -/
def fraudListHit : Bool :=
  p.clientIP ≠ "" ∧ p.fraudBlacklistKey ≠ fcapIgnored ∧ p.clientIP ∈ r.sets p.fraudBlacklistKey

/-- The placement is blocked for the campaign. -/
def placementBlocked : Bool :=
  p.placementID ≠ "" ∧ p.placementKey ≠ fcapIgnored ∧ p.placementID ∈ r.hashes p.placementKey

/-- Requests of the day are counted only for customers with a daily limit. -/
def ingressLimited : Bool := 0 < p.maxRPD ∧ p.ingressKey ≠ fcapIgnored

/-- Count the request of the day. -/
def countIngress : Redis := if p.ingressLimited then r.incrBy p.ingressKey 1 else r

/-- The code of the first precheck that fails, and the counted ingress. -/
def run : Option ℤ × Redis :=
  if p.fenced r then (some 11, r)
  else if p.placementBlocked r then (some 14, r)
  else if p.ingressLimited ∧ p.maxRPD < (p.countIngress r).count p.ingressKey then
    (some 12, p.countIngress r)
  else (none, p.countIngress r)

end Precheck

/-- The fields of the event that both scripts append to the event stream. -/
structure EventFields where
  clickID : String
  campaignID : String
  userID : String
  evtType : String
  payload : String
  ip : String
  ua : String

/-- The entry of the event stream. -/
def EventFields.entry (e : EventFields) : List (String × String) :=
  [("click_id", e.clickID), ("campaign_id", e.campaignID), ("user_id", e.userID),
    ("type", e.evtType), ("payload", e.payload), ("ip", e.ip), ("ua", e.ua)]

/-- The keys and arguments of `budget-fast.lua`. -/
structure BudgetFastCall where
  keys : DebitKeys
  precheck : Precheck
  idempotencyKey : String
  streamKey : String
  amount : ℤ
  customerID : String
  skipBudget : Bool
  event : EventFields

namespace BudgetFastCall

variable (c : BudgetFastCall) (r : Redis)

/-- The writes of an accepted event. -/
def accept : Redis :=
  let debited := if c.skipBudget then r
    else debit c.keys c.amount c.event.campaignID c.customerID r
  (debited.setNum c.idempotencyKey 1).xadd c.streamKey c.event.entry

/-- `budget-fast.lua`. -/
def run : ℤ × Redis :=
  match r.num c.keys.spendKey with
  | none => (-1, r)
  | some spend =>
    if (r.num c.idempotencyKey).isSome then (0, r)
    else match c.precheck.run r with
    | (some code, checked) => (code, checked)
    | (none, checked) =>
      if ¬ c.skipBudget ∧ spend < c.amount then (3, checked)
      else (if c.precheck.fraudListHit r then 21 else 0, c.accept checked)

end BudgetFastCall

/-- The keys and arguments of `unified-filter.lua`. -/
structure UnifiedCall where
  precheck : Precheck
  dupKey : String
  budgetSourceKey : String
  idempotencyKey : String
  campaignSyncKey : String
  customerSyncKey : String
  dirtyCampaigns : String
  dirtyCustomers : String
  streamKey : String
  dailySpendKey : String
  fcapKey : String
  impTSKey : String
  quotaKey : String
  refillLockKey : String
  refillNeeded : String
  amount : ℤ
  customerID : String
  isEven : Bool
  dailyLimit : ℤ
  hour : ℤ
  freqLimit : ℤ
  ttcMinMs : ℤ
  nowMs : ℤ
  ttcFailClosed : Bool
  skipBudget : Bool
  quotaEnabled : Bool
  chunkSize : ℤ
  refillThresholdPct : ℤ
  deadlineNs : ℤ
  nowMonoNs : ℤ
  degradeNs : ℤ
  event : EventFields

namespace UnifiedCall

variable (c : UnifiedCall) (r : Redis)

/-- Too little of the deadline is left for the optional checks. -/
def degraded : Bool := 0 < c.deadlineNs ∧ 0 < c.nowMonoNs ∧ c.deadlineNs - c.nowMonoNs < c.degradeNs

/-- The key that is debited. -/
def spendKey : String := if c.quotaEnabled then c.quotaKey else c.budgetSourceKey

/-- The keys of the debit block. -/
def debitKeys : DebitKeys where
  spendKey := c.spendKey
  campaignSyncKey := c.campaignSyncKey
  customerSyncKey := c.customerSyncKey
  dirtyCampaigns := c.dirtyCampaigns
  dirtyCustomers := c.dirtyCustomers

/-- The time to click is checked. -/
def ttcChecked : Bool := ¬ c.degraded ∧ c.event.evtType = "click" ∧ 0 < c.ttcMinMs

/-- The click came too fast, or without an impression where that is refused. -/
def ttcReject : Option ℤ :=
  if c.ttcChecked then
    match r.num c.impTSKey with
    | some impTS => if c.nowMs - impTS < c.ttcMinMs then some 6 else none
    | none => if c.ttcFailClosed then some 7 else none
  else none

/-- A click without an impression was let through. -/
def ttcBypass : Bool := c.ttcChecked ∧ r.num c.impTSKey = none ∧ ¬ c.ttcFailClosed

/-- Daily spend is paced for this event. -/
def paced : Bool := ¬ c.degraded ∧ c.isEven

/-- What may have been spent by the end of this hour. -/
def cumulativeLimit : ℤ := c.dailyLimit * c.hour / 24

/-- The budget or the pace does not allow the amount. -/
def budgetReject (budget dailySpent : ℤ) : Option ℤ :=
  if c.skipBudget then none
  else if budget < c.amount then some 3
  else if c.paced ∧ c.cumulativeLimit < dailySpent + c.amount then some 4
  else none

/-- Events of this user are capped. -/
def capped : Bool := ¬ c.degraded ∧ 0 < c.freqLimit ∧ c.event.userID ≠ ""

/-- The first check after the prechecks that fails. The daily spend and the cap were read before the
ingress was counted, the impression and the duplicate after. -/
def reject (budget : ℤ) (before : Redis) : Option ℤ :=
  (c.ttcReject r).or <|
    (c.budgetReject budget (before.count c.dailySpendKey)).or <|
      if c.capped ∧ c.freqLimit ≤ before.count c.fcapKey then some 5
      else if (r.num c.dupKey).isSome then some 2
      else none

/-- Count the event for pacing and for its user, and remember an impression. -/
def countEvent : Redis :=
  let daily := if ¬ c.skipBudget ∧ c.paced then r.incrBy c.dailySpendKey c.amount else r
  let fcap := if c.capped then daily.incrBy c.fcapKey 1 else daily
  if ¬ c.degraded ∧ c.event.evtType = "impression" then fcap.setNum c.impTSKey c.nowMs else fcap

/-- The payload of the stream entry: stored metadata of the click comes before the event's. -/
def streamPayload : String :=
  if c.event.campaignID ≠ "" ∧ c.event.clickID ≠ "" then
    (r.text ("\x7b" ++ c.event.campaignID ++ "\x7dtg:click:" ++ c.event.clickID)).getD c.event.payload
  else c.event.payload

/-- The entry of the event stream. -/
def streamEntry : List (String × String) :=
  { c.event with payload := c.streamPayload r }.entry

/-- Ask for a quota refill when the quota runs low and nobody has asked yet. -/
def requestRefill (budget : ℤ) : Redis :=
  if ¬ c.degraded ∧ c.quotaEnabled ∧ 0 < c.chunkSize ∧ c.spendKey = c.quotaKey ∧ ¬ c.skipBudget ∧
      budget - c.amount < c.chunkSize * c.refillThresholdPct / 100 ∧
      r.num c.refillLockKey = none then
    (r.setNum c.refillLockKey 1).sadd c.refillNeeded c.event.campaignID
  else r

/-- The writes of an accepted event. -/
def accept (budget : ℤ) : Redis :=
  let seen := r.setNum c.dupKey 1
  let debited := if c.skipBudget then seen
    else debit c.debitKeys c.amount c.event.campaignID c.customerID seen
  let counted := c.countEvent (debited.setNum c.idempotencyKey 1)
  c.requestRefill (counted.xadd c.streamKey (c.streamEntry counted)) budget

/-- The code of an accepted event. -/
def acceptCode (before : Redis) : ℤ :=
  if c.ttcBypass r then 10
  else if c.precheck.fraudListHit before then 21
  else if c.degraded then 20
  else 0

/-- `unified-filter.lua`. -/
def run : ℤ × Redis :=
  match r.num c.spendKey with
  | none => (-1, r)
  | some budget =>
    if (r.num c.idempotencyKey).isSome then (0, r)
    else match c.precheck.run r with
    | (some code, checked) => (code, checked)
    | (none, checked) =>
      match c.reject checked budget r with
      | some code => (code, checked)
      | none => (c.acceptCode checked r, c.accept checked budget)

end UnifiedCall

end Espx.Ingestion
