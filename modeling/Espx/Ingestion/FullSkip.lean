import Espx.Ingestion.BudgetRecovery
import Espx.Ingestion.QuantaStream

/-!
# Events charged to local credit

`checkLocalQuanta` charges an event to the local ledger and then either queues it for a later flush or
runs `budget-fast.lua` with its budget part switched off. Every error on the way gives the credit back.
What is lost is what no error is returned for: a flush drops slots in silence, and a script that skips the
budget reports no spend.
-/

namespace Espx.Ingestion

open Espx.Foundation Espx.Domain Function

/-- `localQuotaMode`. -/
inductive LocalQuotaMode
  | off
  | shadow
  | live
  deriving DecidableEq, Repr

/-- The local quanta of a filter: the mode, the campaigns in strict mode, whether there is a publisher,
and the name of its stream. -/
structure LocalQuantaDeps where
  mode : LocalQuotaMode
  isStrict : UUID → Bool
  hasStream : Bool
  stream : String

/-- `localQuantaEligible`. -/
def localQuantaEligible (q : LocalQuantaDeps) (f : UnifiedFilter) (evt : Event) (camp : Campaign) : Bool :=
  q.mode ≠ .off ∧ f.quotaEnabled ∧ ¬ q.isStrict evt.campaignID ∧ f.fastPathEnabled ∧
    ¬ needsFullLuaPath f evt camp ∧ (evt.evtType = "impression" ∨ evt.evtType = "click")

/-- `localQuantaFullSkipEligible`. -/
def localQuantaFullSkipEligible (q : LocalQuantaDeps) (f : UnifiedFilter) (evt : Event)
    (camp : Campaign) : Bool :=
  q.mode = .live ∧ q.hasStream ∧ localQuantaEligible q f evt camp ∧ evt.placementID = "" ∧
    f.maxRequestsPerDay camp.customerID = 0

/-- The errors of the filter on these paths. -/
inductive FilterError
  | rateLimitExceeded
  | duplicateEvent
  | budgetExhausted
  | pacingExhausted
  | freqLimitExceeded
  | migrationFenced
  | dailyQuotaExceeded
  | placementBlocked
  | shardUnavailable
  | evalFailed
  | recovery (err : RecoverError)
  deriving DecidableEq, Repr

/-- `handleLuaResult` for every code but -1: the error that it returns, if any. -/
def handleLuaResult (res : ℤ) : Option FilterError :=
  if res = 1 then some .rateLimitExceeded
  else if res = 2 then some .duplicateEvent
  else if res = 3 then some .budgetExhausted
  else if res = 4 then some .pacingExhausted
  else if res = 5 then some .freqLimitExceeded
  else if res = 11 then some .migrationFenced
  else if res = 12 then some .dailyQuotaExceeded
  else if res = 14 then some .placementBlocked
  else none

/-- How the evaluation of a script ends: with its reply, or with an error before or after the
server has executed it. -/
inductive EvalOutcome
  | replied
  | failed (executed : Bool)
  deriving DecidableEq, Repr

/-- What the environment decides about one event: the answers of the frequency snapshot, the click cache,
the marshaller and the lane, and what `budget-fast.lua` and a recovery of its budget key meet. -/
structure EventEnv where
  freqExceeded : Bool
  claimed : Bool
  marshalled : Option String
  laneOpen : Bool
  firstEval : EvalOutcome
  secondEval : EvalOutcome
  miss : MissContext
  registered : Option Campaign
  row : Option (ℤ × ℤ)

/-- One evaluation of `budget-fast.lua`. -/
def evalFastScript (call : BudgetFastCall) (o : EvalOutcome) (r : Redis) : Option ℤ × Redis :=
  match o with
  | .replied => (some (call.run r).1, (call.run r).2)
  | .failed true => (none, (call.run r).2)
  | .failed false => (none, r)

/-- The second round of `runBudgetFastLua`, where a miss is not recovered any more. -/
def runBudgetFastLuaAgain (call : BudgetFastCall) (env : EventEnv) (r : Redis) :
    Option FilterError × Redis :=
  match evalFastScript call env.secondEval r with
  | (none, r') => (some .evalFailed, r')
  | (some res, r') => (if res = -1 then some .budgetExhausted else handleLuaResult res, r')

/-- `runBudgetFastLua`: the error, if any, and the server afterwards. -/
def runBudgetFastLua (call : BudgetFastCall) (env : EventEnv) (r : Redis) : Option FilterError × Redis :=
  match evalFastScript call env.firstEval r with
  | (none, r') => (some .evalFailed, r')
  | (some res, r') =>
    if res ≠ -1 then (handleLuaResult res, r')
    else
      match recoverBudgetAfterMiss { env.miss with attempt := 0 } env.registered env.row
        call.keys.spendKey r' with
      | (.error err, r'') => (some (.recovery err), r'')
      | (.ok true, r'') => runBudgetFastLuaAgain call env r''
      | (.ok false, r'') => (some .budgetExhausted, r'')

/-- The local ledger, the servers and the lanes, with what each campaign has consumed of its
local credit and what it was given back. -/
structure SkipState (k : ℕ) where
  ledger : LocalQuantaLedger
  servers : Fin k → Redis
  lanes : Fin k → List StreamSlot
  consumed : UUID → ℤ
  refunded : UUID → ℤ

namespace SkipState

variable {k : ℕ} (s : SkipState k)

/-- `TrySpendDebit`, with the books. -/
def trySpend (id : UUID) (sub : Fin 4) (amount : ℤ) : Bool × SkipState k :=
  let (accepted, l) := trySpendDebit s.ledger id sub amount
  (accepted, { s with
    ledger := l
    consumed := update s.consumed id (s.consumed id + if accepted then max 0 amount else 0) })

/-- `rollbackLocalQuantaSpend`, with what the ledger takes back. -/
def rollbackLocalQuantaSpend (id : UUID) (sub : Fin 4) (amount : ℤ) : SkipState k :=
  if 0 < amount then
    { s with
      ledger := refundDebit s.ledger id sub amount
      refunded := update s.refunded id (s.refunded id +
        if (s.ledger (cellIndex id sub)).campaignHash = ledgerCellHash id sub then amount else 0) }
  else s

/-- A slot at the end of a lane. -/
def enqueue (n : Fin k) (slot : StreamSlot) : SkipState k :=
  { s with lanes := update s.lanes n (s.lanes n ++ [slot]) }

end SkipState

open SkipState

section

variable {k : ℕ} [NeZero k] (q : LocalQuantaDeps) (x : FilterExecution) (env : EventEnv)

/-- The amount that `checkLocalQuanta` charges. -/
def FilterExecution.localAmount : ℤ :=
  if amountMicro x.filter x.event ≤ 0 then
    if x.event.evtType = "impression" then x.filter.impressionAmountMicro else x.filter.clickAmountMicro
  else amountMicro x.filter x.event

/-- The sub-slot that it charges. -/
def FilterExecution.subSlot : Fin 4 :=
  ⟨debitSubSlot x.camp x.event.userID x.event.clickID % 4, Nat.mod_lt _ (by decide)⟩

/-- The call of `budget-fast.lua` without its budget part. -/
def FilterExecution.skipCall : BudgetFastCall :=
  budgetFastCall { x.filter with skipBudgetDebit := true } x.event x.camp x.now

/-- The lane of `Enqueue`. -/
def laneOf (k : ℕ) [NeZero k] (shard : ℕ) : Fin k := if h : shard < k then ⟨shard, h⟩ else 0

/-- `acceptLocalQuantaFullSkip`, after the spend. -/
def acceptLocalQuantaFullSkip (s : SkipState k) : Option FilterError × SkipState k :=
  let undone := s.rollbackLocalQuantaSpend x.event.campaignID x.subSlot x.localAmount
  if ¬ env.claimed then (some .duplicateEvent, undone)
  else
    match resolveDebitShard x.filter x.event x.camp, env.marshalled with
    | none, _ => (some .shardUnavailable, undone)
    | some _, none => (some .shardUnavailable, undone)
    | some shard, some data =>
      if ¬ env.laneOpen then (some .shardUnavailable, undone)
      else
        (none, s.enqueue (laneOf k shard) (fillLocalQuantaStreamSlot x.event x.camp x.localAmount data))

/-- The path of `checkLocalQuanta` through `budget-fast.lua`, after the spend. -/
def runSkippedBudget (s : SkipState k) : Option FilterError × SkipState k :=
  match resolveDebitShard x.filter x.event x.camp with
  | none =>
    (some .shardUnavailable, s.rollbackLocalQuantaSpend x.event.campaignID x.subSlot x.localAmount)
  | some shard =>
    let n := Fin.ofNat k shard
    let (err, r) := runBudgetFastLua x.skipCall env (s.servers n)
    let ran := { s with servers := update s.servers n r }
    match err with
    | some e => (some e, ran.rollbackLocalQuantaSpend x.event.campaignID x.subSlot x.localAmount)
    | none => (none, ran)

/-- `checkLocalQuanta`: whether the event is handled, with what error, and the state. -/
def checkLocalQuanta (s : SkipState k) : (Bool × Option FilterError) × SkipState k :=
  if ¬ localQuantaEligible q x.filter x.event x.camp then ((false, none), s)
  else if q.mode = .shadow then
    ((false, none), (s.trySpend x.event.campaignID x.subSlot x.localAmount).2)
  else if 0 < x.camp.freqLimit ∧ x.event.userID ≠ "" ∧ env.freqExceeded then
    ((true, some .freqLimitExceeded), s)
  else
    let (accepted, spent) := s.trySpend x.event.campaignID x.subSlot x.localAmount
    if ¬ accepted then ((false, none), spent)
    else if localQuantaFullSkipEligible q x.filter x.event x.camp then
      let (err, out) := acceptLocalQuantaFullSkip x env spent
      ((true, err), out)
    else
      let (err, out) := runSkippedBudget x env spent
      ((true, err), out)

end

/-- What happens: an event, a flush of up to 128 slots of a lane, a refill of the ledger, or the
return of what a campaign has left in it. -/
inductive SkipAction (k : ℕ)
  | event (x : FilterExecution) (env : EventEnv)
  | drain (n : Fin k) (o : FlushOutcome)
  | refill (id : UUID) (sub : Fin 4) (amount chunkSize : ℤ)
  | take (id : UUID)

/-- One step. -/
def skipStep {k : ℕ} [NeZero k] (q : LocalQuantaDeps) (s : SkipState k) : SkipAction k → SkipState k
  | .event x env => (checkLocalQuanta q x env s).2
  | .drain n o =>
    { s with
      lanes := update s.lanes n ((s.lanes n).drop 128)
      servers := update s.servers n
        (flushShardPipeline q.stream o ((s.lanes n).take 128) (s.servers n)) }
  | .refill id sub amount chunkSize =>
    { s with ledger := creditDebit s.ledger id sub amount chunkSize }
  | .take id => { s with ledger := (takeRemaining s.ledger id).2 }

section

variable {c : UUID} (x : FilterExecution) (env : EventEnv) {key : String}

section

variable (h : SyncCounter c key)
include h

/-- The ingress counter is no sync counter. -/
theorem FilterExecution.skipCall_ingressKey : key ≠ x.skipCall.precheck.ingressKey := by
  change key ≠ if 0 < x.filter.maxRequestsPerDay x.row.customerID then
    ingressDayKey x.event.campaignID x.filter.regionCode x.row.customerID x.now else fcapIgnored
  split
  · simp only [ingressDayKey, String.append_assoc]
    exact not_syncCounter_tagged (by decide) h
  · exact @not_syncCounter_plain c key "fcap:" "ignored" (by decide) (by decide) h

/-- The spend key is no sync counter. -/
theorem FilterExecution.skipCall_spendKey : key ≠ x.skipCall.keys.spendKey := by
  have hspend : SpendKey x.row.id x.skipCall.keys.spendKey := by
    change SpendKey x.row.id (if x.filter.quotaEnabled = true then
      budgetQuotaKeySub x.event.campaignID _ else budgetCampaignKey x.row.id)
    split
    · rw [← x.registered]
      exact .quota _
    · exact .budget
  rcases h with rfl | rfl
  · obtain ⟨rest, hrest⟩ := hspend.money.brace
    rw [hrest]
    exact append_ne_of_clash (by decide)
  · exact hspend.ne_campaignSync.symm

/-- The script without its budget part leaves the sync counters. -/
theorem FilterExecution.skipCall_run_count (r : Redis) :
    (x.skipCall.run r).2.count key = r.count key := by
  have hidem : key ≠ x.skipCall.idempotencyKey := not_syncCounter_plain (by decide) (by decide) h
  have hchg : x.skipCall.charged r = 0 := by
    unfold BudgetFastCall.charged
    split
    · rfl
    · rfl
  rw [x.skipCall.run_count r (x.skipCall_ingressKey h) hidem, hchg, DebitKeys.counted_zero]

theorem evalFastScript_count (o : EvalOutcome) (r : Redis) :
    (evalFastScript x.skipCall o r).2.count key = r.count key := by
  unfold evalFastScript
  split
  · exact x.skipCall_run_count h r
  · exact x.skipCall_run_count h r
  · rfl

/-- A recovery of the spend key leaves the sync counters. -/
theorem recoverBudgetAfterMiss_count (m : MissContext) (registered : Option Campaign)
    (row : Option (ℤ × ℤ)) (r : Redis) :
    (recoverBudgetAfterMiss m registered row x.skipCall.keys.spendKey r).2.count key = r.count key := by
  rcases recoverBudgetAfterMiss_redis m registered row x.skipCall.keys.spendKey r with
    hsame | ⟨remaining, hput⟩
  · rw [hsame]
  rw [hput, Redis.setNX]
  split
  · rfl
  · exact Redis.setNum_count_of_ne _ _ (x.skipCall_spendKey h)

/-- `runBudgetFastLua` leaves the sync counters when it skips the budget. -/
theorem runBudgetFastLua_count (r : Redis) :
    (runBudgetFastLua x.skipCall env r).2.count key = r.count key := by
  have hagain : ∀ r', (runBudgetFastLuaAgain x.skipCall env r').2.count key = r'.count key := by
    intro r'
    have heval := evalFastScript_count x h env.secondEval r'
    unfold runBudgetFastLuaAgain
    split <;> rename_i hout <;> rw [hout] at heval <;> exact heval
  have heval := evalFastScript_count x h env.firstEval r
  unfold runBudgetFastLua
  split
  · rename_i r' hout
    rw [hout] at heval
    exact heval
  rename_i res r' hout
  rw [hout] at heval
  split
  · exact heval
  have hrecover := recoverBudgetAfterMiss_count x h { env.miss with attempt := 0 } env.registered
    env.row r'
  split <;> rename_i hmiss <;> rw [hmiss] at hrecover
  · exact hrecover.trans heval
  · exact (hagain _).trans (hrecover.trans heval)
  · exact hrecover.trans heval

end

theorem runBudgetFastLua_synced (c : UUID) (r : Redis) :
    synced c (runBudgetFastLua x.skipCall env r).2 = synced c r := by
  rw [synced, runBudgetFastLua_count x env (.inl rfl), runBudgetFastLua_count x env (.inr rfl),
    synced]

end

namespace SkipState

variable {k : ℕ} (c : UUID) (s : SkipState k) {sub : Fin 4} {amount : ℤ}

/-- What has been reported as spend of a campaign. -/
def reported : ℤ := ∑ n, synced c (s.servers n)

/-- What waits in the lanes. -/
def queued : ℤ := ∑ n, ((s.lanes n).map (·.credit c)).sum

/-- What is consumed and neither given back nor reported nor waiting. -/
def gap : ℤ := s.consumed c - s.refunded c - s.reported c - s.queued c

/-- A slot in a lane waits with its credit. -/
theorem gap_enqueue (n : Fin k) (slot : StreamSlot) :
    (s.enqueue n slot).gap c = s.gap c - slot.credit c := by
  have hqueued : (s.enqueue n slot).queued c = s.queued c + slot.credit c := by
    have hchg := @sum_of_single_change _ _ _ _ _
      (fun m => (((s.enqueue n slot).lanes m).map (·.credit c)).sum)
      (fun m => ((s.lanes m).map (·.credit c)).sum) n
      (fun m hm => by simp only [enqueue, update_of_ne hm])
    rw [queued, hchg, queued]
    simp [enqueue]
  rw [gap, hqueued, gap]
  simp only [enqueue, reported]
  ring

/-- A server that reports nothing new. -/
theorem gap_server {n : Fin k} {r : Redis} (h : synced c r = synced c (s.servers n)) :
    ({ s with servers := update s.servers n r } : SkipState k).gap c = s.gap c := by
  have hrep : ({ s with servers := update s.servers n r } : SkipState k).reported c = s.reported c := by
    apply Finset.sum_congr rfl
    intro m _
    by_cases hm : m = n
    · simp only [hm, update_self, h]
    · simp only [update_of_ne hm]
  rw [gap, hrep]
  rfl

/-- A spend that is accepted is consumed, and its cell has the campaign's label. -/
theorem trySpend_accepted {id : UUID} (h : (s.trySpend id sub amount).1 = true) :
    (s.trySpend id sub amount).2.gap c = s.gap c + (if id = c then max 0 amount else 0) ∧
      (0 < amount → ((s.trySpend id sub amount).2.ledger (cellIndex id sub)).campaignHash =
        ledgerCellHash id sub) := by
  constructor
  · change (trySpendDebit s.ledger id sub amount).1 = true at h
    by_cases hid : id = c
    · subst hid
      simp only [gap, trySpend, reported, queued, update_self, h, if_true]
      ring
    · simp only [gap, trySpend, reported, queued, update_of_ne (Ne.symm hid), if_neg hid, add_zero]
  · intro hpos
    change (trySpendDebit s.ledger id sub amount).1 = true at h
    change ((trySpendDebit s.ledger id sub amount).2 _).campaignHash = _
    rw [trySpendDebit_eq _ _ _ hpos] at h ⊢
    split
    · rename_i hcover
      simp only [update_self]
      exact hcover.1
    · rename_i hcover
      rw [if_neg hcover] at h
      cases h

/-- A spend that is refused consumes nothing. -/
theorem trySpend_refused {id : UUID} (h : (s.trySpend id sub amount).1 = false) :
    (s.trySpend id sub amount).2.gap c = s.gap c := by
  change (trySpendDebit s.ledger id sub amount).1 = false at h
  simp only [gap, trySpend, reported, queued, h, Bool.false_eq_true, if_false, add_zero, update_eq_self]

/-- A rollback gives back what was spent from a cell with the campaign's label. -/
theorem gap_rollback {id : UUID}
    (h : 0 < amount → (s.ledger (cellIndex id sub)).campaignHash = ledgerCellHash id sub) :
    (s.rollbackLocalQuantaSpend id sub amount).gap c =
      s.gap c - (if id = c then max 0 amount else 0) := by
  unfold rollbackLocalQuantaSpend
  split
  · rename_i hpos
    by_cases hid : id = c
    · subst hid
      simp only [gap, reported, queued, update_self, h hpos, if_true, max_eq_right hpos.le]
      ring
    · simp only [gap, reported, queued, update_of_ne (Ne.symm hid), if_neg hid, sub_zero]
  · rename_i hpos
    rw [max_eq_left (not_lt.mp hpos), ite_self, sub_zero]

end SkipState

/-- The steps that account for all credit. An event takes the path of full skip, is not eligible, finds no
shard, or is not covered by its cell; a flush loses nothing. -/
def SkipAction.Accounted {k : ℕ} (q : LocalQuantaDeps) (s : SkipState k) : SkipAction k → Prop
  | .event x _ =>
    localQuantaEligible q x.filter x.event x.camp = false ∨
      localQuantaFullSkipEligible q x.filter x.event x.camp = true ∨
      resolveDebitShard x.filter x.event x.camp = none ∨ x.localAmount ≤ 0 ∨
      ¬ ((s.ledger (cellIndex x.event.campaignID x.subSlot)).campaignHash =
          ledgerCellHash x.event.campaignID x.subSlot ∧
        x.localAmount ≤ (s.ledger (cellIndex x.event.campaignID x.subSlot)).remaining)
  | .drain n o => Lossless o ((s.lanes n).take 128) (s.servers n)
  | .refill _ _ _ _ => True
  | .take _ => True

section

variable {k : ℕ}

/-- Every slot in a lane comes from a registered campaign, as far as its frequency key goes. -/
def SkipState.FcapApart (s : SkipState k) : Prop := ∀ n, ∀ slot ∈ s.lanes n, slot.FcapApart

theorem rollback_lanes (s : SkipState k) (id : UUID) (sub : Fin 4) (amount : ℤ) :
    (s.rollbackLocalQuantaSpend id sub amount).lanes = s.lanes := by
  unfold rollbackLocalQuantaSpend
  split
  · rfl
  · rfl

variable [NeZero k] {q : LocalQuantaDeps} {s : SkipState k} (c : UUID)

section

variable (x : FilterExecution) (env : EventEnv) (hlabel : 0 < x.localAmount →
  (s.ledger (cellIndex x.event.campaignID x.subSlot)).campaignHash =
    ledgerCellHash x.event.campaignID x.subSlot)
include hlabel

/-- Full skip accounts for the spend, whatever it answers. -/
theorem acceptLocalQuantaFullSkip_gap (hfcap : s.FcapApart) :
    (acceptLocalQuantaFullSkip x env s).2.FcapApart ∧ (acceptLocalQuantaFullSkip x env s).2.gap c =
      s.gap c - (if x.event.campaignID = c then max 0 x.localAmount else 0) := by
  have hundone : (s.rollbackLocalQuantaSpend x.event.campaignID x.subSlot x.localAmount).FcapApart ∧ _ :=
    ⟨by rwa [FcapApart, rollback_lanes], s.gap_rollback c hlabel⟩
  unfold acceptLocalQuantaFullSkip
  split
  · exact hundone
  split
  · exact hundone
  · exact hundone
  · split
    · exact hundone
    refine ⟨(forall_update_iff s.lanes fun _ lane => ∀ slot ∈ lane, slot.FcapApart).mpr
      ⟨fun slot hslot => ?_, fun m _ => hfcap m⟩, s.gap_enqueue c _ _⟩
    rcases List.mem_append.mp hslot with hold | hnew
    · exact hfcap _ slot hold
    · rw [List.mem_singleton.mp hnew]
      exact fun c key hcapped hcount => fcapKey_not_syncCounter x _ _ hcapped hcount

/-- The path through `budget-fast.lua` gives the spend back with every error, and never reports
it. -/
theorem runSkippedBudget_gap :
    (runSkippedBudget x env s).2.lanes = s.lanes ∧
      ((runSkippedBudget x env s).2.gap c =
          s.gap c - (if x.event.campaignID = c then max 0 x.localAmount else 0) ∨
        (runSkippedBudget x env s).1 = none ∧ (runSkippedBudget x env s).2.gap c = s.gap c) := by
  unfold runSkippedBudget
  split
  · exact ⟨rollback_lanes _ _ _ _, .inl (s.gap_rollback c hlabel)⟩
  rename_i shard hshard
  have hran := @SkipState.gap_server _ c s (Fin.ofNat k shard) _
    (runBudgetFastLua_synced x env c (s.servers (Fin.ofNat k shard)))
  dsimp only
  split
  · refine ⟨rollback_lanes _ _ _ _, .inl ((gap_rollback c _ ?_).trans ?_)⟩
    · exact hlabel
    · rw [hran]
  · exact ⟨rfl, .inr ⟨rfl, hran⟩⟩

end

/-- An event that is accounted for leaves no gap, and queues slots of registered campaigns only. -/
theorem checkLocalQuanta_gap (hlive : q.mode = .live) (x : FilterExecution) (env : EventEnv)
    (h : (SkipAction.event x env).Accounted q s) (hfcap : s.FcapApart) :
    (checkLocalQuanta q x env s).2.FcapApart ∧ (checkLocalQuanta q x env s).2.gap c = s.gap c := by
  unfold checkLocalQuanta
  split
  · exact ⟨hfcap, rfl⟩
  rename_i heligible
  rw [if_neg (by rw [hlive]; decide)]
  split
  · exact ⟨hfcap, rfl⟩
  dsimp only
  cases hacc : (s.trySpend x.event.campaignID x.subSlot x.localAmount).1 with
  | false =>
    exact ⟨hfcap, s.trySpend_refused c hacc⟩
  | true =>
    obtain ⟨hspent, hlabel⟩ := s.trySpend_accepted c hacc
    rw [if_neg (not_not.mpr rfl)]
    split
    · obtain ⟨hlanes, hgap⟩ := acceptLocalQuantaFullSkip_gap c x env hlabel hfcap
      refine ⟨hlanes, ?_⟩
      rw [hgap, hspent]
      ring
    rename_i hskip
    obtain ⟨hlanes, hcases⟩ := runSkippedBudget_gap c x env hlabel
    refine ⟨by rwa [FcapApart, hlanes], ?_⟩
    rcases hcases with hundone | ⟨hkept, hran⟩
    · rw [hundone, hspent]
      ring
    rw [hran, hspent]
    have hzero : x.localAmount ≤ 0 := by
      rcases h with hnot | hfull | hshard | hfree | huncovered
      · exact absurd hnot (by simpa using heligible)
      · exact absurd hfull hskip
      · simp only [runSkippedBudget, hshard] at hkept
        cases hkept
      · exact hfree
      · by_contra hpos
        change (trySpendDebit s.ledger x.event.campaignID x.subSlot x.localAmount).1 = true at hacc
        rw [trySpendDebit_eq _ _ _ (not_le.mp hpos), if_neg huncovered] at hacc
        cases hacc
    rw [max_eq_left hzero, ite_self, add_zero]

/-- A flush that loses nothing moves credit from the lane to the counters. -/
theorem drain_gap {n : Fin k} {o : FlushOutcome} (hfcap : ∀ slot ∈ s.lanes n, slot.FcapApart)
    (h : Lossless o ((s.lanes n).take 128) (s.servers n)) :
    (skipStep q s (.drain n o)).gap c = s.gap c := by
  have hqueued : (skipStep q s (.drain n o)).queued c =
      s.queued c - (((s.lanes n).take 128).map (·.credit c)).sum := by
    have hchg := @sum_of_single_change _ _ _ _ _
      (fun m => (((skipStep q s (.drain n o)).lanes m).map (·.credit c)).sum)
      (fun m => ((s.lanes m).map (·.credit c)).sum) n
      (fun m hm => by simp only [skipStep, update_of_ne hm])
    have hsplit : ((s.lanes n).map (·.credit c)).sum = (((s.lanes n).take 128).map (·.credit c)).sum +
        (((s.lanes n).drop 128).map (·.credit c)).sum := by
      rw [← List.sum_append, ← List.map_append, List.take_append_drop]
    rw [queued, hchg, queued, hsplit]
    simp only [skipStep, update_self]
    ring
  have hrep : (skipStep q s (.drain n o)).reported c =
      s.reported c + (((s.lanes n).take 128).map (·.credit c)).sum := by
    have hchg := @sum_of_single_change _ _ _ _ _
      (fun m => synced c ((skipStep q s (.drain n o)).servers m)) (fun m => synced c (s.servers m)) n
      (fun m hm => by simp only [skipStep, update_of_ne hm])
    rw [reported, hchg, reported]
    simp only [skipStep, update_self]
    rw [h.flush_synced q.stream (fun slot hslot => hfcap slot (List.mem_of_mem_take hslot)) c]
    ring
  rw [gap, hqueued, hrep, gap]
  simp only [skipStep]
  ring

/-- One step keeps the gap, and the form of the slots. -/
theorem skipStep_inv (hlive : q.mode = .live) (a : SkipAction k) (ha : a.Accounted q s) {g : ℤ}
    (h : s.FcapApart ∧ s.gap c = g) : (skipStep q s a).FcapApart ∧ (skipStep q s a).gap c = g := by
  obtain ⟨hfcap, hgap⟩ := h
  cases a with
  | event x env =>
    obtain ⟨hslots, hsame⟩ := checkLocalQuanta_gap c hlive x env ha hfcap
    exact ⟨hslots, hsame.trans hgap⟩
  | drain n o =>
    refine ⟨?_, (drain_gap c (hfcap n) ha).trans hgap⟩
    exact (forall_update_iff s.lanes fun _ lane => ∀ slot ∈ lane, slot.FcapApart).mpr
      ⟨fun slot hslot => hfcap n slot (List.mem_of_mem_drop hslot), fun m _ => hfcap m⟩
  | refill id sub amount chunkSize | take id => exact ⟨hfcap, hgap⟩

end

/-- In every run in live mode whose steps account for all credit, what a campaign has consumed of its
local credit was given back, was reported as spend or waits in a lane. -/
theorem local_credit_accounted {k : ℕ} [NeZero k] (q : LocalQuantaDeps) (hlive : q.mode = .live)
    (s₀ : SkipState k) (hempty : ∀ n, s₀.lanes n = [])
    (hbooks : ∀ c, s₀.consumed c = 0 ∧ s₀.refunded c = 0) (actions : List (SkipAction k))
    (haccounted : Admissible (fun s a => a.Accounted q s) (skipStep q) s₀ actions) (c : UUID) :
    let s := run (skipStep q) s₀ actions
    s.consumed c = s.refunded c + (s.reported c - s₀.reported c) + s.queued c ∧
      ((∀ n, s.lanes n = []) → s.consumed c = s.refunded c + (s.reported c - s₀.reported c)) := by
  intro s
  have hqueued : ∀ t : SkipState k, (∀ n, t.lanes n = []) → t.queued c = 0 := by
    intro t hlanes
    apply Finset.sum_eq_zero
    intro n _
    rw [hlanes n, List.map_nil, List.sum_nil]
  have hfcap : s₀.FcapApart := by
    intro n slot hslot
    rw [hempty n] at hslot
    cases hslot
  have hstart : s₀.gap c = -s₀.reported c := by
    rw [gap, (hbooks c).1, (hbooks c).2, hqueued s₀ hempty]
    ring
  obtain ⟨-, hgap⟩ : s.FcapApart ∧ s.gap c = s₀.gap c :=
    @Admissible.invariant _ _ _ _ (fun t => t.FcapApart ∧ t.gap c = s₀.gap c)
      (fun t a ha h => skipStep_inv c hlive a ha h) _ _ haccounted ⟨hfcap, rfl⟩
  rw [hstart, gap] at hgap
  have hbal : s.consumed c = s.refunded c + (s.reported c - s₀.reported c) + s.queued c := by
    omega
  refine ⟨hbal, ?_⟩
  intro hdrain
  rw [hbal, hqueued s hdrain, add_zero]

/-- Local quanta in live mode, with a publisher and no strict campaigns. -/
def sampleQuanta : LocalQuantaDeps where
  mode := .live
  isStrict _ := false
  hasStream := true
  stream := "events"

/-- The sample click with local quanta, at a placement. -/
def samplePlaced (placementID : String) : FilterExecution where
  filter := { sampleFilter with quotaEnabled := true }
  event := { sampleClick with placementID := placementID }
  row := sampleRow
  now := sampleClock
  registered := sampleClick_registered
  brandKey := sampleRow_brandKey

/-- An environment in which nothing fails. -/
def sampleEnv : EventEnv where
  freqExceeded := false
  claimed := true
  marshalled := some "event"
  laneOpen := true
  firstEval := .replied
  secondEval := .replied
  miss := ⟨0, false, false, false, false⟩
  registered := none
  row := none

/-- A flush in which nothing fails. -/
def sampleFlush : FlushOutcome where
  idem := .done
  xadd := .done
  xaddRefused _ := false
  sync := .done

/-- One server, with an empty ledger, an empty lane and empty books. -/
def sampleSkipState (r : Redis) : SkipState 1 where
  ledger := newLocalQuantaLedger
  servers _ := r
  lanes _ := []
  consumed _ := 0
  refunded _ := 0

/-- A refill of ten, and the click. -/
def sampleAccept (placementID : String) : List (SkipAction 1) :=
  [.refill sampleRow.id (samplePlaced placementID).subSlot 10 10,
    .event (samplePlaced placementID) sampleEnv]

/-- The click is queued, flushed and reported. -/
theorem local_credit_accounted_flushed :
    let s := run (skipStep sampleQuanta) (sampleSkipState Redis.empty)
      (sampleAccept "" ++ [.drain 0 sampleFlush])
    s.consumed sampleRow.id = 2 ∧
      s.consumed sampleRow.id = s.refunded sampleRow.id +
        (s.reported sampleRow.id - (sampleSkipState Redis.empty).reported sampleRow.id) := by
  refine ⟨by decide +kernel, ?_⟩
  refine (local_credit_accounted sampleQuanta rfl (sampleSkipState Redis.empty) (fun _ => rfl)
    (fun _ => ⟨rfl, rfl⟩) _ ?_ sampleRow.id).2 (by decide +kernel)
  refine ⟨trivial, .inr (.inl (by decide +kernel)), ?_, trivial⟩
  exact
    { fresh := by decide +kernel
      distinct := by decide +kernel
      customer := by decide +kernel
      fits := by decide +kernel
      idem := fun _ => rfl
      xadd := rfl
      xaddRefused := fun _ => rfl
      sync := rfl }

/-- The flushes that lose the click: its key is set, the first, the second or the third pipeline
fails. -/
def sampleLosses : List (Redis × FlushOutcome) :=
  [(Redis.empty.setNum "idempotency:click:click-1" 1, sampleFlush),
    (Redis.empty, { sampleFlush with idem := .failed 0 }),
    (Redis.empty, { sampleFlush with xadd := .failed 0 }),
    (Redis.empty, { sampleFlush with sync := .failed 0 })]

/-- A click that is dropped in a flush, and one that `budget-fast.lua` accepts without its budget part,
are charged, not given back and not reported. -/
theorem local_credit_lost :
    (∀ loss ∈ sampleLosses,
      let s := run (skipStep sampleQuanta) (sampleSkipState loss.1)
        (sampleAccept "" ++ [.drain 0 loss.2])
      s.lanes 0 = [] ∧ s.consumed sampleRow.id = 2 ∧ s.refunded sampleRow.id = 0 ∧
        s.reported sampleRow.id = 0) ∧
      let r := Redis.empty.setNum (budgetQuotaKeySub sampleRow.id (samplePlaced "p-1").subSlot) 100
      let s := run (skipStep sampleQuanta) (sampleSkipState r) (sampleAccept "p-1")
      s.lanes 0 = [] ∧ s.consumed sampleRow.id = 2 ∧ s.refunded sampleRow.id = 0 ∧
        s.reported sampleRow.id = 0 ∧ (s.servers 0).streams "events" ≠ [] := by
  decide +kernel

end Espx.Ingestion
