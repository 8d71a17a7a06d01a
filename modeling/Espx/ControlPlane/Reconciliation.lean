import Espx.ControlPlane.Outbox
import Mathlib.Algebra.Order.BigOperators.Group.List

/-!
# Reconciliation of a ledger window

`ReconcileWindow` compares what the ledger has charged in a window with the sync counter of each campaign,
and enqueues an adjustment for each difference. The adjustment moves the counter away from the ledger,
counts in the ledger only where it is a debit, and is dated at its own time, so that a difference does not
go away.

The creation time of the ledger row with number `i` is `createdAt i`, given by the environment.
-/

namespace Espx.ControlPlane

open Espx.Foundation Espx.Domain Espx.Settlement List

/-- A row of `recon_discrepancies`. -/
structure ReconDiscrepancy where
  runID : ℕ
  campaignID : UUID
  customerID : UUID
  expectedSpend : ℤ
  actualSpend : ℤ
  delta : ℤ
  redisAdjusted : Bool

/-- The column `status` of `recon_runs`. -/
inductive ReconRunStatus
  | pending
  | completed
  | failed
  deriving DecidableEq, Repr

/-- A row of `recon_runs`. -/
structure ReconRun where
  periodStart : ℤ
  periodEnd : ℤ
  status : ReconRunStatus
  totalDelta : ℤ
  campaignsChecked : ℕ
  discrepanciesFound : ℕ

/-- The stores, the adjustments that are enqueued, and the tables of reconciliation. -/
structure ReconState where
  store : ControlStore
  outbox : List ReconciliationAdjustPayload
  runs : List ReconRun
  discrepancies : List ReconDiscrepancy

/-- The configuration of the service. -/
structure ReconConfig extends ShardConfig where
  quotaChunkSize : ℤ

/-- `autoAdjustChunkMicro`. -/
def ReconConfig.autoAdjustChunkMicro (cfg : ReconConfig) : ℤ :=
  if 0 < cfg.quotaChunkSize then cfg.quotaChunkSize else 5000000

section

variable (createdAt : ℕ → ℤ) (start stop : ℤ)

/-- A row that the query of `ReconcileWindow` selects. -/
def inWindow (row : LedgerEntry × ℕ) : Bool :=
  start ≤ createdAt row.2 ∧ createdAt row.2 < stop ∧
    (row.1.type = .fee ∨ row.1.type = .reconciliationAdjust ∨ row.1.type = .refund)

/-- The rows of the window, oldest first. -/
def ledgerWindow (pg : Pg) : List LedgerEntry :=
  (pg.ledger.reverse.zipIdx.filter (inWindow createdAt start stop)).map Prod.fst

/-- What a row adds to the spend of its campaign. -/
def spentBy (campaignID : UUID) (e : LedgerEntry) : ℤ :=
  if e.campaignID = some campaignID ∧ e.amount < 0 then -e.amount else 0

/-- The spend of a campaign in the window. -/
def ledgerSpent (campaignID : UUID) (pg : Pg) : ℤ :=
  ((ledgerWindow createdAt start stop pg).map (spentBy campaignID)).sum

/-- The campaigns of the window. -/
def ledgerCampaigns (pg : Pg) : List UUID :=
  ((ledgerWindow createdAt start stop pg).filterMap LedgerEntry.campaignID).dedup

end

/-- The sync counter of a campaign, zero without a key. -/
def syncValue (cfg : ShardConfig) (campaignID : UUID) (s : ControlStore) : ℤ :=
  ((cfg.getRDB campaignID).map fun shard =>
    (s.rdbs shard).count (campaignSyncKey campaignID)).getD 0

/-- Which call for a campaign fails. -/
inductive ReconFault
  | none
  | syncRead
  | customerRead
  | record
  | enqueue
  deriving DecidableEq, Repr

/-- The state of the loop over the campaigns. -/
structure ReconLoop where
  state : ReconState
  discrepancies : ℕ
  totalDelta : ℤ

/-- The adjustment of `ReconcileWindow` for a difference. -/
def windowAdjustment (cfg : ReconConfig) (runID : ℕ) (campaignID customerID : UUID) (delta : ℤ) :
    ReconciliationAdjustPayload where
  runID := runID
  campaignID := campaignID
  customerID := customerID
  shardID := cfg.getShard campaignID
  ledgerAmt := -delta
  redisDelta := delta
  reason := "hourly_window_recon"

/-- One pass of the loop of `ReconcileWindow`; an error ends the run. -/
def reconcileCampaign (cfg : ReconConfig) (runID : ℕ) (ledgerSpent : UUID → ℤ)
    (faults : UUID → ReconFault) (loop : ReconLoop) (campaignID : UUID) : Except ReconLoop ReconLoop :=
  if cfg.getRDB campaignID = .none then .ok loop
  else if faults campaignID = .syncRead then .error loop
  else
    let syncVal := syncValue cfg.toShardConfig campaignID loop.state.store
    let delta := syncVal - ledgerSpent campaignID
    if delta = 0 then .ok loop
    else
      match loop.state.store.pg.campaigns.get? campaignID with
      | .none => .ok loop
      | some row =>
        if faults campaignID = .customerRead then .ok loop
        else
          let counted := { loop with discrepancies := loop.discrepancies + 1 }
          if faults campaignID = .record then .error counted
          else
            let noted := { counted with state := { counted.state with
              discrepancies := counted.state.discrepancies ++
                [⟨runID, campaignID, row.customerID, syncVal, ledgerSpent campaignID, delta, false⟩] } }
            if cfg.autoAdjustChunkMicro < |delta| then
              .ok { noted with totalDelta := noted.totalDelta + delta }
            else if faults campaignID = .enqueue then .ok noted
            else
              .ok { noted with
                totalDelta := noted.totalDelta + delta
                state := { noted.state with outbox := noted.state.outbox ++
                  [windowAdjustment cfg runID campaignID row.customerID delta] } }

/-- `ReconcileWindow`, from the ledger query on. The campaigns are visited in the order that the
iteration over the map takes. -/
def reconcileWindow (cfg : ReconConfig) (createdAt : ℕ → ℤ) (start stop : ℤ) (order : List UUID)
    (faults : UUID → ReconFault) (s : ReconState) : ReconState :=
  let spent := fun campaignID => ledgerSpent createdAt start stop campaignID s.store.pg
  match order.foldlM (reconcileCampaign cfg s.runs.length spent faults) ⟨s, 0, 0⟩ with
  | .error loop =>
    { loop.state with runs := s.runs ++ [⟨start, stop, .failed, 0, 0, 0⟩] }
  | .ok loop =>
    { loop.state with
      runs := s.runs ++ [⟨start, stop, .completed, loop.totalDelta, order.length, loop.discrepancies⟩] }

/-- `ApplyReconciliationAdjust` for each adjustment in turn; `none` where one is refused. -/
def applyAdjustments (cfg : ShardConfig) (s : ControlStore) :
    List ReconciliationAdjustPayload → Option ControlStore
  | [] => some s
  | p :: rest =>
    let handled := handleReconciliationAdjust cfg p noFaults s
    if handled.ok then applyAdjustments cfg handled.store rest else none

section

variable {cfg : ReconConfig} {runID : ℕ} {spent : UUID → ℤ} {faults : UUID → ReconFault}

/-- The difference that the loop finds for a campaign. -/
def windowDelta (cfg : ReconConfig) (spent : UUID → ℤ) (s : ControlStore) (campaignID : UUID) : ℤ :=
  syncValue cfg.toShardConfig campaignID s - spent campaignID

/-- An adjustment as the loop makes it. -/
structure AdjustsWindow (cfg : ReconConfig) (spent : UUID → ℤ) (s : ControlStore)
    (p : ReconciliationAdjustPayload) : Prop where
  shard : p.shardID = cfg.getShard p.campaignID
  ledger : p.ledgerAmt = -windowDelta cfg spent s p.campaignID
  redis : p.redisDelta = windowDelta cfg spent s p.campaignID
  differs : windowDelta cfg spent s p.campaignID ≠ 0

/-- What a part of the loop does: it leaves the stores and adds adjustments, for each of the
campaigns it visits one at most. -/
structure Enqueues (cfg : ReconConfig) (spent : UUID → ℤ) (visited : List UUID)
    (s s' : ReconState) : Prop where
  store : s'.store = s.store
  events : ∃ events, s'.outbox = s.outbox ++ events ∧
    (events.map ReconciliationAdjustPayload.campaignID).Sublist visited ∧
    ∀ p ∈ events, AdjustsWindow cfg spent s.store p

/-- The loop at the point it has reached, whether it goes on or not. -/
def reached : Except ReconLoop ReconLoop → ReconLoop
  | .ok loop => loop
  | .error loop => loop

/-- A part of the loop that enqueues nothing. -/
theorem Enqueues.nothing {visited : List UUID} {s s' : ReconState} (hstore : s'.store = s.store)
    (houtbox : s'.outbox = s.outbox) : Enqueues cfg spent visited s s' := by
  refine ⟨hstore, [], ?_, nil_sublist _, ?_⟩
  · rw [houtbox, append_nil]
  · intro p hp
    cases hp

/-- One pass enqueues one adjustment at most. -/
theorem reconcileCampaign_enqueues (loop : ReconLoop) (camp : UUID) :
    Enqueues cfg spent [camp] loop.state
      (reached (reconcileCampaign cfg runID spent faults loop camp)).state := by
  unfold reconcileCampaign
  split
  · exact .nothing rfl rfl
  split
  · exact .nothing rfl rfl
  dsimp only
  split
  · exact .nothing rfl rfl
  rename_i hdiff
  split
  · exact .nothing rfl rfl
  rename_i row hrow
  split
  · exact .nothing rfl rfl
  split
  · exact .nothing rfl rfl
  split
  · exact .nothing rfl rfl
  split
  · exact .nothing rfl rfl
  refine ⟨rfl, [windowAdjustment cfg runID camp row.customerID
    (windowDelta cfg spent loop.state.store camp)], rfl, ?_, ?_⟩
  · exact List.Sublist.refl _
  · intro p hp
    rw [mem_singleton.mp hp]
    exact ⟨rfl, rfl, rfl, hdiff⟩

/-- Two parts of the loop in turn. -/
theorem Enqueues.trans {first second : List UUID} {s s' s'' : ReconState}
    (h : Enqueues cfg spent first s s') (h' : Enqueues cfg spent second s' s'') :
    Enqueues cfg spent (first ++ second) s s'' := by
  obtain ⟨hstore, events, houtbox, hsub, hevts⟩ := h
  obtain ⟨hstore', events', houtbox', hsublist', hevents'⟩ := h'
  refine ⟨hstore'.trans hstore, events ++ events', ?_, ?_, ?_⟩
  · rw [houtbox', houtbox, append_assoc]
  · rw [map_append]
    exact hsub.append hsublist'
  · intro p hp
    obtain hold | hnew := mem_append.mp hp
    · exact hevts p hold
    · rw [← hstore]
      exact hevents' p hnew

/-- The loop enqueues one adjustment at most for each campaign. -/
theorem foldlM_reconcileCampaign_enqueues (order : List UUID) (loop : ReconLoop) :
    Enqueues cfg spent order loop.state
      (reached (order.foldlM (reconcileCampaign cfg runID spent faults) loop)).state := by
  induction order generalizing loop with
  | nil => exact .nothing rfl rfl
  | cons camp rest ih =>
    have hfirst : Enqueues cfg spent [camp] loop.state
        (reached (reconcileCampaign cfg runID spent faults loop camp)).state :=
      reconcileCampaign_enqueues loop camp
    rw [foldlM_cons]
    cases hpass : reconcileCampaign cfg runID spent faults loop camp with
    | error stopped =>
      rw [hpass] at hfirst
      obtain ⟨hstore, events, houtbox, hsub, hevts⟩ := hfirst
      exact ⟨hstore, events, houtbox, hsub.trans (singleton_sublist.mpr mem_cons_self), hevts⟩
    | ok next =>
      rw [hpass] at hfirst
      exact hfirst.trans (ih next)

/-- A run enqueues one adjustment at most for each campaign. -/
theorem reconcileWindow_enqueues (createdAt : ℕ → ℤ) (start stop : ℤ) (order : List UUID)
    (s : ReconState) :
    Enqueues cfg (fun camp => ledgerSpent createdAt start stop camp s.store.pg) order s
      (reconcileWindow cfg createdAt start stop order faults s) := by
  have hloop := @foldlM_reconcileCampaign_enqueues cfg s.runs.length
    (fun camp => ledgerSpent createdAt start stop camp s.store.pg) faults order ⟨s, 0, 0⟩
  unfold reconcileWindow
  dsimp only
  split
  · rename_i loop hfold
    rw [hfold] at hloop
    exact ⟨hloop.store, hloop.events⟩
  · rename_i loop hfold
    rw [hfold] at hloop
    exact ⟨hloop.store, hloop.events⟩

end

section

variable {createdAt : ℕ → ℤ} {start stop : ℤ} {cfg : ShardConfig} {s : ControlStore}
  {p : ReconciliationAdjustPayload} {camp : UUID}

/-- The spend of a window after a row is added to the ledger. -/
theorem ledgerSpent_cons {pg pg' : Pg} {e : LedgerEntry} (h : pg'.ledger = e :: pg.ledger) :
    ledgerSpent createdAt start stop camp pg' = ledgerSpent createdAt start stop camp pg +
      if inWindow createdAt start stop (e, pg.ledger.length) then spentBy camp e else 0 := by
  have hrows : pg'.ledger.reverse.zipIdx = pg.ledger.reverse.zipIdx ++ [(e, pg.ledger.length)] := by
    rw [h, reverse_cons, zipIdx_append, length_reverse, Nat.zero_add]
    rfl
  unfold ledgerSpent ledgerWindow
  rw [hrows, filter_append, map_append, map_append, sum_append]
  by_cases hin : inWindow createdAt start stop (e, pg.ledger.length) = true
  · rw [filter_cons_of_pos hin, if_pos hin]
    simp
  · rw [filter_cons_of_neg hin, if_neg hin]
    rfl

theorem ledgerSpent_nonneg (pg : Pg) : 0 ≤ ledgerSpent createdAt start stop camp pg := by
  apply sum_nonneg
  intro amount hamt
  obtain ⟨e, -, rfl⟩ := mem_map.mp hamt
  unfold spentBy
  split
  · omega
  · exact le_rfl

/-- The ledger after the Postgres side of an adjustment. -/
theorem applyReconciliationAdjust_ledger {customerID : UUID} {ledgerAmt : ℤ} {pg pg' : Pg}
    (h : applyReconciliationAdjust camp customerID ledgerAmt pg = some pg') :
    pg'.ledger =
      ledgerEntry customerID (some camp) ledgerAmt .reconciliationAdjust none :: pg.ledger := by
  obtain ⟨recorded, hrec, hspend⟩ := Option.bind_eq_some_iff.mp h
  have hled := Pg.createLedgerEntry_eq_some hrec
  split at hspend
  · rw [← Option.some.inj hspend, hled]
    rfl
  · rw [← Option.some.inj hspend, hled]

/-- An adjustment that is applied has written its shard and its ledger row. -/
theorem handleReconciliationAdjust_ok (hdelta : p.redisDelta ≠ 0)
    (h : (handleReconciliationAdjust cfg p noFaults s).ok = true) :
    p.shardID < cfg.count ∧
      (handleReconciliationAdjust cfg p noFaults s).store.rdbs = Function.update s.rdbs p.shardID
        (adjustRedisBudgetAtomically p.campaignID p.redisDelta (s.rdbs p.shardID)) ∧
      (handleReconciliationAdjust cfg p noFaults s).store.pg.ledger =
        ledgerEntry p.customerID (some p.campaignID) p.ledgerAmt .reconciliationAdjust none ::
          s.pg.ledger := by
  unfold handleReconciliationAdjust at h ⊢
  rw [if_neg fun hboth => hdelta hboth.2] at h ⊢
  cases hpg : applyReconciliationAdjust p.campaignID p.customerID p.ledgerAmt s.pg with
  | none =>
    rw [hpg] at h
    cases h
  | some adjusted =>
    rw [hpg] at h
    dsimp only at h ⊢
    rw [if_neg hdelta] at h ⊢
    by_cases hcount : cfg.count ≤ p.shardID
    · rw [if_pos hcount] at h
      cases h
    · rw [if_neg hcount]
      exact ⟨not_le.mp hcount, rfl, applyReconciliationAdjust_ledger hpg⟩

theorem ShardConfig.getRDB_of_lt (h : cfg.getShard camp < cfg.count) :
    cfg.getRDB camp = some (cfg.getShard camp) := by
  unfold getRDB
  rw [if_neg (by omega)]
  split
  · congr 1
    omega
  · rw [Nat.mod_eq_of_lt h]

/-- The counter after its own adjustment. -/
theorem adjustRedisBudgetAtomically_count (r : Redis) (delta : ℤ) :
    (adjustRedisBudgetAtomically camp delta r).count (campaignSyncKey camp) =
      max 0 (r.count (campaignSyncKey camp) + delta) := by
  unfold adjustRedisBudgetAtomically
  dsimp only
  rw [Redis.incrBy_count_self]
  split
  · rename_i hneg
    rw [Redis.delNum_count_self, max_eq_left hneg]
  · rw [Redis.incrBy_count_self, max_eq_right (by omega)]

/-- Other counters after an adjustment. -/
theorem adjustRedisBudgetAtomically_count_of_ne {other : UUID} (r : Redis) (delta : ℤ)
    (h : camp ≠ other) :
    (adjustRedisBudgetAtomically other delta r).count (campaignSyncKey camp) =
      r.count (campaignSyncKey camp) := by
  have hkey : campaignSyncKey camp ≠ campaignSyncKey other :=
    fun heq => h (campaignSyncKey_inj heq)
  unfold adjustRedisBudgetAtomically
  dsimp only
  split
  · rw [Redis.delNum_count_of_ne _ hkey, Redis.incrBy_count_of_ne _ _ hkey]
  · rw [Redis.incrBy_count_of_ne _ _ hkey]

/-- An adjustment leaves the counter and the spend of other campaigns. -/
theorem handleReconciliationAdjust_other (hother : camp ≠ p.campaignID)
    (hdelta : p.redisDelta ≠ 0) (h : (handleReconciliationAdjust cfg p noFaults s).ok = true) :
    syncValue cfg camp (handleReconciliationAdjust cfg p noFaults s).store = syncValue cfg camp s ∧
      ledgerSpent createdAt start stop camp (handleReconciliationAdjust cfg p noFaults s).store.pg =
        ledgerSpent createdAt start stop camp s.pg := by
  obtain ⟨-, hrdbs, hled⟩ := handleReconciliationAdjust_ok hdelta h
  constructor
  · unfold syncValue
    cases cfg.getRDB camp with
    | none => rfl
    | some shard =>
      rw [Option.map_some, Option.map_some, hrdbs]
      by_cases hshard : shard = p.shardID
      · rw [hshard, Function.update_self, adjustRedisBudgetAtomically_count_of_ne _ _ hother]
      · rw [Function.update_of_ne hshard]
  · have hnone : spentBy camp
        (ledgerEntry p.customerID (some p.campaignID) p.ledgerAmt .reconciliationAdjust none) = 0 := by
      unfold spentBy
      rw [if_neg fun hboth => hother (Option.some.inj hboth.1).symm]
    rw [ledgerSpent_cons hled, hnone, ite_self, add_zero]

/-- An adjustment moves the counter of its campaign, and its spend if it is a debit dated in the
window. -/
theorem handleReconciliationAdjust_self (hshard : p.shardID = cfg.getShard p.campaignID)
    (hdelta : p.redisDelta ≠ 0) (h : (handleReconciliationAdjust cfg p noFaults s).ok = true) :
    let next := (handleReconciliationAdjust cfg p noFaults s).store
    let spent := ledgerSpent createdAt start stop p.campaignID
    syncValue cfg p.campaignID next = max 0 (syncValue cfg p.campaignID s + p.redisDelta) ∧
      (spent next.pg = spent s.pg ∨ spent next.pg = spent s.pg + max 0 (-p.ledgerAmt)) := by
  obtain ⟨hcount, hrdbs, hled⟩ := handleReconciliationAdjust_ok hdelta h
  constructor
  · rw [hshard] at hcount hrdbs
    unfold syncValue
    rw [ShardConfig.getRDB_of_lt hcount, Option.map_some, Option.map_some, Option.getD_some,
      Option.getD_some, hrdbs, Function.update_self, adjustRedisBudgetAtomically_count]
  · have hspent : spentBy p.campaignID
        (ledgerEntry p.customerID (some p.campaignID) p.ledgerAmt .reconciliationAdjust none) =
          max 0 (-p.ledgerAmt) := by
      unfold spentBy ledgerEntry
      simp only [true_and]
      split
      · omega
      · omega
    rw [ledgerSpent_cons hled, hspent]
    split
    · exact .inr rfl
    · exact .inl (add_zero _)

/-- Adjustments of other campaigns, one after the other. -/
theorem applyAdjustments_other {events : List ReconciliationAdjustPayload} {s' : ControlStore}
    (hothers : ∀ q ∈ events, camp ≠ q.campaignID) (hdelta : ∀ q ∈ events, q.redisDelta ≠ 0)
    (h : applyAdjustments cfg s events = some s') :
    syncValue cfg camp s' = syncValue cfg camp s ∧
      ledgerSpent createdAt start stop camp s'.pg = ledgerSpent createdAt start stop camp s.pg := by
  induction events generalizing s with
  | nil =>
    rw [← Option.some.inj h]
    exact ⟨rfl, rfl⟩
  | cons q rest ih =>
    rw [applyAdjustments] at h
    split at h
    · rename_i hok
      obtain ⟨hsync, hspent⟩ := @handleReconciliationAdjust_other createdAt start stop cfg s q camp
        (hothers q mem_cons_self) (hdelta q mem_cons_self) hok
      obtain ⟨hsync', hspent'⟩ := ih (fun r hr => hothers r (mem_cons_of_mem q hr))
        (fun r hr => hdelta r (mem_cons_of_mem q hr)) h
      exact ⟨hsync'.trans hsync, hspent'.trans hspent⟩
    · cases h

/-- A list of adjustments, one at most for each campaign, moves a campaign by its own one. -/
theorem applyAdjustments_self {events : List ReconciliationAdjustPayload} {s' : ControlStore}
    (hnodup : (events.map ReconciliationAdjustPayload.campaignID).Nodup)
    (hdelta : ∀ q ∈ events, q.redisDelta ≠ 0) (hp : p ∈ events)
    (hshard : p.shardID = cfg.getShard p.campaignID) (h : applyAdjustments cfg s events = some s') :
    syncValue cfg p.campaignID s' = max 0 (syncValue cfg p.campaignID s + p.redisDelta) ∧
      (ledgerSpent createdAt start stop p.campaignID s'.pg =
          ledgerSpent createdAt start stop p.campaignID s.pg ∨
        ledgerSpent createdAt start stop p.campaignID s'.pg =
          ledgerSpent createdAt start stop p.campaignID s.pg + max 0 (-p.ledgerAmt)) := by
  induction events generalizing s with
  | nil => cases hp
  | cons q rest ih =>
    rw [applyAdjustments] at h
    rw [map_cons, nodup_cons] at hnodup
    have hrest : ∀ r ∈ rest, r.redisDelta ≠ 0 := fun r hr => hdelta r (mem_cons_of_mem q hr)
    split at h
    · rename_i hok
      obtain rfl | hmem := mem_cons.mp hp
      · have hothers : ∀ r ∈ rest, p.campaignID ≠ r.campaignID := by
          intro r hr heq
          rw [heq] at hnodup
          exact hnodup.1 (mem_map_of_mem hr)
        obtain ⟨hsync, hspent⟩ := @handleReconciliationAdjust_self createdAt start stop cfg s p hshard
          (hdelta p mem_cons_self) hok
        obtain ⟨hsync', hspent'⟩ := @applyAdjustments_other createdAt start stop cfg _ p.campaignID rest
          s' hothers hrest h
        rw [hsync', hspent']
        exact ⟨hsync, hspent⟩
      · have hother : p.campaignID ≠ q.campaignID := by
          intro heq
          rw [← heq] at hnodup
          exact hnodup.1 (mem_map_of_mem hmem)
        obtain ⟨hsync, hspent⟩ := @handleReconciliationAdjust_other createdAt start stop cfg s q
          p.campaignID hother (hdelta q mem_cons_self) hok
        rw [← hsync, ← hspent]
        exact ih hnodup.2 hrest hmem h
    · cases h

end

/-- After a run of reconciliation and its adjustments, the spend of the window is the sync counter of a
campaign exactly when it was so before, or the ledger has no spend and the counter is negative. -/
theorem reconciliation_converges_iff (cfg : ReconConfig) (createdAt : ℕ → ℤ) (start stop : ℤ)
    (s : ReconState) (order : List UUID)
    (horder : order.Perm (ledgerCampaigns createdAt start stop s.store.pg))
    (faults : UUID → ReconFault) (campaignID : UUID) (events : List ReconciliationAdjustPayload)
    (hevents : (reconcileWindow cfg createdAt start stop order faults s).outbox = s.outbox ++ events)
    (henqueued : syncValue cfg.toShardConfig campaignID s.store ≠
        ledgerSpent createdAt start stop campaignID s.store.pg →
      ∃ p ∈ events, p.campaignID = campaignID)
    (s' : ControlStore) (happlied : applyAdjustments cfg.toShardConfig s.store events = some s') :
    ledgerSpent createdAt start stop campaignID s'.pg = syncValue cfg.toShardConfig campaignID s' ↔
      syncValue cfg.toShardConfig campaignID s.store =
          ledgerSpent createdAt start stop campaignID s.store.pg ∨
        (ledgerSpent createdAt start stop campaignID s.store.pg = 0 ∧
          syncValue cfg.toShardConfig campaignID s.store < 0) := by
  obtain ⟨-, events', houtbox, hsub, hall⟩ :=
    @reconcileWindow_enqueues cfg faults createdAt start stop order s
  obtain rfl : events' = events := List.append_cancel_left (houtbox.symm.trans hevents)
  have hnodup : (events'.map ReconciliationAdjustPayload.campaignID).Nodup :=
    hsub.nodup (horder.nodup_iff.mpr (List.nodup_dedup _))
  have hdelta : ∀ q ∈ events', q.redisDelta ≠ 0 := by
    intro q hq
    rw [(hall q hq).redis]
    exact (hall q hq).differs
  by_cases hpres : ∃ p ∈ events', p.campaignID = campaignID
  · obtain ⟨p, hp, rfl⟩ := hpres
    obtain ⟨hshard, hled, hredis, hdiff⟩ := hall p hp
    obtain ⟨hsync, hspent⟩ := @applyAdjustments_self createdAt start stop cfg.toShardConfig s.store p
      events' s' hnodup hdelta hp hshard happlied
    have hnn : 0 ≤ ledgerSpent createdAt start stop p.campaignID s.store.pg :=
      ledgerSpent_nonneg s.store.pg
    simp only [windowDelta] at hled hredis hdiff
    rw [hredis] at hsync
    rw [hled] at hspent
    omega
  · have heq : syncValue cfg.toShardConfig campaignID s.store =
        ledgerSpent createdAt start stop campaignID s.store.pg :=
      not_not.mp (mt henqueued hpres)
    obtain ⟨hsync, hspent⟩ := @applyAdjustments_other createdAt start stop cfg.toShardConfig s.store
      campaignID events' s' (fun q hq hne => hpres ⟨q, hq, hne.symm⟩) hdelta happlied
    rw [hsync, hspent]
    exact ⟨fun _ => .inl heq, fun _ => heq.symm⟩

/-- One shard and the default chunk. -/
def sampleRecon : ReconConfig where
  getShard := fun _ => 0
  count := 1
  quotaChunkSize := 0

/-- A campaign with a fee of five hundred thousand in the window, and one million in its counter. -/
def sampleDrift : ReconState where
  store :=
    { pg := { sampleAccount 0 0 with
        campaigns := Table.empty.insert sampleCampaign ⟨sampleCustomer, 100000000, 500000, .active⟩
        ledger := [ledgerEntry sampleCustomer (some sampleCampaign) (-500000) .fee none] }
      rdbs := fun _ => Redis.empty.setNum (campaignSyncKey sampleCampaign) 1000000 }
  outbox := []
  runs := []
  discrepancies := []

/-- The run of reconciliation over the first hour, with the adjustment dated after it. -/
def sampleWindowRun : ReconState :=
  reconcileWindow sampleRecon (fun i => 1800 + 7200 * i) 0 3600 [sampleCampaign] (fun _ => .none)
    sampleDrift

/-- The stores after the adjustment of the sample run. -/
def sampleAdjusted : ControlStore :=
  (applyAdjustments sampleRecon.toShardConfig sampleDrift.store sampleWindowRun.outbox).getD
    sampleDrift.store

/-- The sample campaign has drifted and does not converge. -/
theorem reconciliation_converges_iff_sample :
    syncValue sampleRecon.toShardConfig sampleCampaign sampleDrift.store = 1000000 ∧
      ¬ ledgerSpent (fun i => 1800 + 7200 * i) 0 3600 sampleCampaign sampleAdjusted.pg =
        syncValue sampleRecon.toShardConfig sampleCampaign sampleAdjusted := by
  have happ : applyAdjustments sampleRecon.toShardConfig sampleDrift.store
      sampleWindowRun.outbox = some sampleAdjusted := by
    have hsome : (applyAdjustments sampleRecon.toShardConfig sampleDrift.store
        sampleWindowRun.outbox).isSome := by decide +kernel
    obtain ⟨s', hs'⟩ := Option.isSome_iff_exists.mp hsome
    rw [sampleAdjusted, hs', Option.getD_some]
  have hperm : [sampleCampaign].Perm
      (ledgerCampaigns (fun i => 1800 + 7200 * i) 0 3600 sampleDrift.store.pg) := by
    decide +kernel
  have henq : ∃ p ∈ sampleWindowRun.outbox, p.campaignID = sampleCampaign := by
    decide +kernel
  refine ⟨by decide +kernel, ?_⟩
  rw [reconciliation_converges_iff sampleRecon (fun i => 1800 + 7200 * i) 0 3600 sampleDrift
    [sampleCampaign] hperm (fun _ => .none) sampleCampaign sampleWindowRun.outbox rfl
    (fun _ => henq) sampleAdjusted happ]
  decide +kernel

/-- The difference of half a million has doubled after the adjustment. -/
theorem reconciliation_diverges :
    syncValue sampleRecon.toShardConfig sampleCampaign sampleDrift.store -
        ledgerSpent (fun i => 1800 + 7200 * i) 0 3600 sampleCampaign sampleDrift.store.pg = 500000 ∧
      syncValue sampleRecon.toShardConfig sampleCampaign sampleAdjusted -
        ledgerSpent (fun i => 1800 + 7200 * i) 0 3600 sampleCampaign sampleAdjusted.pg = 1000000 := by
  decide +kernel

end Espx.ControlPlane
