import Espx.Domain.Sharding
import Espx.Ingestion.ScriptSpecs

/-!
# How the filter calls its scripts

The key and argument lists that `runBudgetFastLua` and `runUnifiedLua` build, and the routing of a debit:
which sub-slot, which shard and which of the two scripts. Keys that hold money are never keys of the
bookkeeping, whatever campaigns the two belong to.
-/

namespace Espx.Ingestion

open Espx.Foundation Espx.Domain

/-- The fields of `Event` that the debit paths read. -/
structure Event where
  campaignID : UUID
  clickID : String
  userID : String
  evtType : String
  placementID : String
  payload : String
  ip : String
  ua : String
  filterDeadlineMono : ℤ

/-- The configuration of a `UnifiedFilter`; optional collaborators are present or not. A breaker entry
tells whether that breaker is present and open. -/
structure UnifiedFilter where
  streamName : String
  regionCode : UInt8
  clickAmountMicro : ℤ
  impressionAmountMicro : ℤ
  slaPenaltyActive : Bool
  skipBudgetDebit : Bool
  quotaEnabled : Bool
  quotaChunkSize : ℤ
  quotaRefillThresholdPct : ℤ
  ttcMinMs : ℤ
  ttcFailClosed : Bool
  fastPathEnabled : Bool
  hasSettingsWatcher : Bool
  hasRoughPacing : Bool
  hasLocalTTC : Bool
  hasLocalQuantaRefill : Bool
  maxRequestsPerDay : UUID → ℕ
  getShard : UUID → ℕ
  shardCount : ℕ
  breakers : List Bool

/-- The local time of the campaign and the two clocks of the process. -/
structure Clock where
  year : ℕ
  month : ℕ
  day : ℕ
  hour : ℕ
  unixMilli : ℤ
  monoNano : ℤ

/-- The byte `'0'+n`. -/
def digit (n : ℕ) : Char := Char.ofNat (48 + n)

/-- `appendDate`. -/
def appendDate (now : Clock) : String :=
  String.ofList [digit (now.year / 1000), digit (now.year / 100 % 10), digit (now.year / 10 % 10),
    digit (now.year % 10), digit (now.month / 10), digit (now.month % 10), digit (now.day / 10),
    digit (now.day % 10)]

/-- The amount that `Check` charges for the event. -/
def amountMicro (f : UnifiedFilter) (evt : Event) : ℤ :=
  let amount := if evt.evtType = "impression" then f.impressionAmountMicro else f.clickAmountMicro
  if f.slaPenaltyActive then amount.tdiv 2 else amount

/-- `appendCampaignIngressDayKey`. -/
def ingressDayKey (campaignID : UUID) (regionCode : UInt8) (customerID : UUID) (now : Clock) :
    String :=
  campaignHashTag campaignID ++ "ingress:day:" ++
    (if 0 < regionCode then String.ofList (hexByte regionCode ++ [':']) else "") ++
    uuidString customerID ++ ":" ++ appendDate now

/-- `fillLuaPrecheckKeys`, with the other arguments of the prechecks. -/
def luaPrecheck (f : UnifiedFilter) (evt : Event) (camp : Campaign) (now : Clock) : Precheck where
  fraudBlacklistKey := "blacklist:fraud"
  migrationFenceKey := migrationFenceRedisKey evt.campaignID
  budgetFrozenKey := budgetFrozenRedisKey evt.campaignID
  placementKey := if evt.placementID ≠ "" then
      campaignHashTag evt.campaignID ++ "blacklist:placement:" ++ uuidString evt.campaignID
    else fcapIgnored
  ingressKey := if 0 < f.maxRequestsPerDay camp.customerID then
      ingressDayKey evt.campaignID f.regionCode camp.customerID now
    else fcapIgnored
  clientIP := evt.ip
  placementID := evt.placementID
  routingEpoch := camp.luaRoutingEpoch
  maxRPD := f.maxRequestsPerDay camp.customerID

/-- The event as both scripts append it to the stream. -/
def eventFields (evt : Event) (camp : Campaign) : EventFields where
  clickID := evt.clickID
  campaignID := camp.idStr
  userID := evt.userID
  evtType := evt.evtType
  payload := evt.payload
  ip := evt.ip
  ua := evt.ua

/-- The keys and arguments of `runBudgetFastLua`. -/
def budgetFastCall (f : UnifiedFilter) (evt : Event) (camp : Campaign) (now : Clock) :
    BudgetFastCall where
  keys :=
    { spendKey := if f.quotaEnabled then
          budgetQuotaKeySub evt.campaignID (debitSubSlot camp evt.userID evt.clickID)
        else camp.budgetCampaignKey
      campaignSyncKey := camp.campaignSyncKey
      customerSyncKey := camp.customerSyncKey
      dirtyCampaigns := "budget:dirty_campaigns"
      dirtyCustomers := "budget:dirty_customers" }
  precheck := luaPrecheck f evt camp now
  idempotencyKey := "idempotency:click:" ++ evt.clickID
  streamKey := f.streamName
  amount := amountMicro f evt
  customerID := camp.customerIDStr
  skipBudget := f.skipBudgetDebit
  event := eventFields evt camp

/-- The keys and arguments of `runUnifiedLua`. -/
def unifiedCall (f : UnifiedFilter) (evt : Event) (camp : Campaign) (now : Clock) : UnifiedCall where
  precheck := luaPrecheck f evt camp now
  dupKey := campaignHashTag evt.campaignID ++ "dup:" ++ evt.evtType ++ ":" ++ evt.clickID
  budgetSourceKey := camp.budgetCampaignKey
  idempotencyKey := campaignHashTag evt.campaignID ++ "idempotency:click:" ++ evt.clickID
  campaignSyncKey := camp.campaignSyncKey
  customerSyncKey := camp.customerSyncKey
  dirtyCampaigns := "budget:dirty_campaigns"
  dirtyCustomers := "budget:dirty_customers"
  streamKey := f.streamName
  dailySpendKey := camp.dailySpendKeyPrefix ++ appendDate now
  fcapKey := if evt.userID ≠ "" then camp.fcapKeyPrefix ++ evt.userID else fcapIgnored
  impTSKey := campaignHashTag evt.campaignID ++ "imp_ts:" ++ evt.userID ++ ":" ++
    uuidString evt.campaignID
  quotaKey := budgetQuotaKeySub evt.campaignID (debitSubSlot camp evt.userID evt.clickID)
  refillLockKey := campaignHashTag evt.campaignID ++ "budget:refill_lock:" ++ uuidString evt.campaignID
  refillNeeded := "budget:refill_needed"
  amount := amountMicro f evt
  customerID := camp.customerIDStr
  isEven := camp.pacingMode = .even
  dailyLimit := camp.dailyBudgetMicro
  hour := max 1 (min 24 (now.hour + 1))
  freqLimit := camp.freqLimit
  ttcMinMs := f.ttcMinMs
  nowMs := now.unixMilli
  ttcFailClosed := f.ttcFailClosed
  skipBudget := f.skipBudgetDebit
  quotaEnabled := f.quotaEnabled
  chunkSize := f.quotaChunkSize
  refillThresholdPct := f.quotaRefillThresholdPct
  deadlineNs := if evt.filterDeadlineMono ≤ 0 then 0 else evt.filterDeadlineMono
  nowMonoNs := if evt.filterDeadlineMono ≤ 0 then 0 else now.monoNano
  degradeNs := 2000000
  event := eventFields evt camp

/-- `needsFullLuaPath`. -/
def needsFullLuaPath (f : UnifiedFilter) (evt : Event) (camp : Campaign) : Bool :=
  (evt.evtType ≠ "impression" ∧ evt.evtType ≠ "click") ∨ ¬ f.fastPathEnabled ∨
    (0 < camp.freqLimit ∧ evt.userID ≠ "" ∧ ¬ f.hasSettingsWatcher) ∨
    (camp.pacingMode = .even ∧ (¬ f.hasRoughPacing ∨ ¬ camp.roughPacingEnabled)) ∨
    (0 < f.ttcMinMs ∧ ¬ f.hasLocalTTC) ∨
    (f.quotaEnabled ∧ firstByte evt.campaignID % 100 = 0 ∧ ¬ f.hasLocalQuantaRefill)

/-- `shardBreakerOpen`. -/
def shardBreakerOpen (f : UnifiedFilter) (shard : ℕ) : Bool :=
  f.breakers.getD (shard % f.breakers.length) false

/-- `resolveDebitShard`, or nothing when no shard is available. -/
def resolveDebitShard (f : UnifiedFilter) (evt : Event) (camp : Campaign) : Option ℕ :=
  let pct := (computeCompositeHashUUID evt.campaignID (textBytes evt.userID)).toNat % 100
  let shard :=
    if 0 < camp.debitSubShardCount then
      spreadHighVolumeShard f.shardCount evt.campaignID (debitSubSlot camp evt.userID evt.clickID)
    else if camp.hasTriplet then
      if pct < 40 then camp.primaryAShard
      else if pct < 80 then camp.primaryBShard
      else camp.reserveShard
    else f.getShard evt.campaignID
  if ¬ shardBreakerOpen f shard then some shard
  else if camp.hasTriplet ∧ camp.debitSubShardCount = 0 then
    [camp.reserveShard, camp.primaryAShard, camp.primaryBShard].find? fun alt =>
      alt ≠ shard ∧ ¬ shardBreakerOpen f alt
  else none

/-- The two debit scripts. -/
inductive LuaPath
  | fast
  | full
  deriving DecidableEq, Repr

/-- The script that `Check` runs for the event. -/
def luaPath (f : UnifiedFilter) (evt : Event) (camp : Campaign) : LuaPath :=
  if f.fastPathEnabled ∧ ¬ needsFullLuaPath f evt camp then .fast else .full

section

/-- The integer keys that hold money: budgets, quotas and the counters of unsettled spend. -/
inductive MoneyKey : String → Prop
  | budget (id : UUID) : MoneyKey (budgetCampaignKey id)
  | quota (id : UUID) (sub : ℕ) : MoneyKey (budgetQuotaKeySub id sub)
  | campaignSync (id : UUID) : MoneyKey (campaignSyncKey id)
  | customerSync (id customerID : UUID) : MoneyKey (customerSyncKey id customerID)

variable {key : String} {id : UUID} {i j : UUID}

/-- A money key starts with a brace. -/
theorem MoneyKey.brace (h : MoneyKey key) : ∃ rest, key = "\x7b" ++ rest := by
  cases h with
  | budget id => exact ⟨_, by simp only [budgetCampaignKey, campaignHashTag, String.append_assoc]; rfl⟩
  | quota id sub =>
    unfold budgetQuotaKeySub campaignSubHashTag campaignHashTag
    split <;> exact ⟨_, by simp only [String.append_assoc]; rfl⟩
  | campaignSync id =>
    exact ⟨_, by simp only [campaignSyncKey, campaignHashTag, String.append_assoc]; rfl⟩
  | customerSync id customerID =>
    exact ⟨_, by simp only [customerSyncKey, campaignHashTag, String.append_assoc]; rfl⟩

/-- The words of the money keys, behind the tag. -/
def moneyWords : List String :=
  ["budget:campaign:", "budget:quota:", "budget:sync:campaign:", "budget:sync:customer:"]

/-- What follows the tag in a money key. -/
theorem MoneyKey.remainder (h : MoneyKey key) {rest : String}
    (hkey : key = campaignHashTag id ++ rest) : ∃ word ∈ moneyWords, ∃ text, rest = word ++ text := by
  cases h with
  | budget i =>
    rw [budgetCampaignKey, String.append_assoc] at hkey
    exact ⟨_, by simp [moneyWords], _, (tagged_inj hkey).2.symm⟩
  | quota i sub =>
    rcases Nat.eq_zero_or_pos sub with rfl | hsub
    · rw [budgetQuotaKeySub_zero, budgetQuotaKey, String.append_assoc] at hkey
      exact ⟨_, by simp [moneyWords], _, (tagged_inj hkey).2.symm⟩
    · rw [budgetQuotaKeySub, String.append_assoc] at hkey
      exact absurd hkey (subTagged_ne_tagged hsub)
  | campaignSync i =>
    rw [campaignSyncKey, String.append_assoc] at hkey
    exact ⟨_, by simp [moneyWords], _, (tagged_inj hkey).2.symm⟩
  | customerSync i u =>
    rw [customerSyncKey, String.append_assoc] at hkey
    exact ⟨_, by simp [moneyWords], _, (tagged_inj hkey).2.symm⟩

theorem not_moneyKey_tagged {word rest : String}
    (hword : ∀ other ∈ moneyWords, clash word.toList other.toList = true) :
    ¬ MoneyKey (campaignHashTag id ++ (word ++ rest)) := by
  intro h
  obtain ⟨other, hother, text, htext⟩ := h.remainder rfl
  exact append_ne_of_clash (hword other hother) htext

/-- A key that does not begin with a brace holds no money. -/
theorem not_moneyKey_plain {word rest : String} (h : clash word.toList "\x7b".toList = true) :
    ¬ MoneyKey (word ++ rest) := by
  intro hkey
  obtain ⟨text, htext⟩ := hkey.brace
  exact append_ne_of_clash h htext

/-- The words with which a frequency key of a brand begins: the service and the migration write the first,
the seed command the second. -/
def brandWords : List String := ["fcap:", "brand:fcap:"]

/-- A key that begins with one of them. -/
def BrandKey (key : String) : Prop := ∃ word ∈ brandWords, ∃ rest, key = word ++ rest

/-- The keys from which a campaign's debits are taken. -/
inductive SpendKey (id : UUID) : String → Prop
  | budget : SpendKey id (budgetCampaignKey id)
  | quota (sub : ℕ) : SpendKey id (budgetQuotaKeySub id sub)

/-- Spend keys hold money. -/
theorem SpendKey.money (h : SpendKey id key) : MoneyKey key := by
  cases h with
  | budget => exact MoneyKey.budget id
  | quota sub => exact MoneyKey.quota id sub

theorem SpendKey.ends (h : SpendKey id key) : ∃ front, key = front ++ uuidString id := by
  cases h with
  | budget | quota sub => exact ⟨_, rfl⟩

/-- A spend key belongs to one campaign. -/
theorem SpendKey.campaign_eq (hi : SpendKey i key) (hj : SpendKey j key) : i = j := by
  obtain ⟨front, hfront⟩ := hi.ends
  obtain ⟨front', hfront'⟩ := hj.ends
  have hlist := congrArg String.toList (hfront.symm.trans hfront')
  rw [String.toList_append, String.toList_append] at hlist
  have hid := (List.append_inj' hlist ((uuidString_length i).trans (uuidString_length j).symm)).2
  exact uuidString_injective (String.toList_inj.mp hid)

/-- A spend key is not under a tag with a sync word. -/
theorem SpendKey.ne_sync {key word rest : String} (h : SpendKey i key)
    (hb : clash "budget:campaign:".toList word.toList = true)
    (hq : clash "budget:quota:".toList word.toList = true) :
    key ≠ campaignHashTag j ++ (word ++ rest) := by
  cases h with
  | budget =>
    rw [budgetCampaignKey, String.append_assoc]
    exact tagged_ne_of_clash hb
  | quota sub =>
    rcases Nat.eq_zero_or_pos sub with rfl | hsub
    · rw [budgetQuotaKeySub_zero, budgetQuotaKey, String.append_assoc]
      exact tagged_ne_of_clash hq
    · rw [budgetQuotaKeySub, String.append_assoc]
      exact subTagged_ne_tagged hsub

/-- A spend key is no campaign counter. -/
theorem SpendKey.ne_campaignSync (h : SpendKey i key) : key ≠ campaignSyncKey j := by
  rw [campaignSyncKey, String.append_assoc]
  exact h.ne_sync (by decide) (by decide)

/-- A spend key is no customer counter. -/
theorem SpendKey.ne_customerSync {i j u : UUID} (h : SpendKey i key) : key ≠ customerSyncKey j u := by
  rw [customerSyncKey, String.append_assoc]
  exact h.ne_sync (by decide) (by decide)

/-- A campaign counter is no customer counter. -/
theorem campaignSyncKey_ne_customerSyncKey (i j u : UUID) : campaignSyncKey i ≠ customerSyncKey j u := by
  rw [campaignSyncKey, customerSyncKey, String.append_assoc, String.append_assoc]
  exact tagged_ne_of_clash (by decide)

theorem customerSyncKey_inj {i j u v : UUID} (h : customerSyncKey i u = customerSyncKey j v) :
    i = j ∧ u = v := by
  rw [customerSyncKey, customerSyncKey, String.append_assoc, String.append_assoc] at h
  obtain ⟨hid, hrest⟩ := tagged_inj h
  refine ⟨hid, uuidString_injective ?_⟩
  simpa using hrest

end

/-- A filter with the constructor's defaults, one unit for an impression and two for a click. -/
def sampleFilter : UnifiedFilter where
  streamName := "events"
  regionCode := 0
  clickAmountMicro := 2
  impressionAmountMicro := 1
  slaPenaltyActive := false
  skipBudgetDebit := false
  quotaEnabled := false
  quotaChunkSize := 0
  quotaRefillThresholdPct := 20
  ttcMinMs := 0
  ttcFailClosed := false
  fastPathEnabled := true
  hasSettingsWatcher := false
  hasRoughPacing := false
  hasLocalTTC := false
  hasLocalQuantaRefill := false
  maxRequestsPerDay _ := 0
  getShard := getShard (buildSlotTable 4)
  shardCount := 4
  breakers := []

/-- An active campaign with a budget of one hundred. -/
def sampleRow : ListActiveCampaignsRow where
  id := Vector.replicate 16 7
  customerID := Vector.replicate 16 9
  status := .active
  pacingMode := .asap
  budgetLimit := 100
  currentSpend := 0
  dailyBudget := 100
  freqLimit := 0
  freqWindow := 0
  brandFcapKey := ""
  behaviorFlags := 0
  migrationGen := 0
  triplet := none
  routingEpoch := none

/-- A click on that campaign. -/
def sampleClick : Event where
  campaignID := sampleRow.id
  clickID := "click-1"
  userID := ""
  evtType := "click"
  placementID := ""
  payload := ""
  ip := ""
  ua := ""
  filterDeadlineMono := 0

theorem sampleClick_registered : sampleRow.id = sampleClick.campaignID := rfl

theorem sampleRow_id (id : UUID) : { sampleRow with id := id }.id = id := rfl

theorem sampleRow_brandKey : sampleRow.brandFcapKey = "" ∨ BrandKey sampleRow.brandFcapKey :=
  Or.inl rfl

/-- Noon. -/
def sampleClock : Clock where
  year := 2024
  month := 5
  day := 17
  hour := 12
  unixMilli := 1715947200000
  monoNano := 1

end Espx.Ingestion
