import Espx.ControlPlane.OutboxRows
import Espx.Foundation.Run

/-!
# Adjustments take effect once

A repair of a quota or an adjustment by reconciliation is not idempotent, and nothing records that it was
made. One row of the outbox is followed through any run. It takes effect once at most as long as its
handler never fails after a write, its marking is executed, no worker crashes between the two, and it is
not reclaimed while a worker still has it.
-/

namespace Espx.ControlPlane

open Espx.Foundation Espx.Domain Espx.Settlement OutboxSystem OutboxBatch List

variable {W : Type*}

/-- The events whose handlers add to a counter or to the ledger. -/
def ManagementEvent.IsAdjustment : ManagementEvent → Prop
  | .quotaRepair _ => True
  | .reconciliationAdjust _ => True
  | _ => False

/-- The calls of an adjustment go so that the handler fails only before it has written anything. -/
def FailsUnwritten (faults : Faults) : ManagementEvent → Prop
  | .reconciliationAdjust p =>
    if p.redisDelta = 0 then faults.finish ≠ .lost
    else faults.redis = .failed ∨ (faults.redis = .received ∧ faults.finish = .received)
  | .quotaRepair p =>
    match p.action with
    | .topUpRedis => faults.redis = .failed ∨ (faults.redis = .received ∧ faults.finish = .received)
    | .releasePG => faults.finish ≠ .lost
    | .unknown _ => True
  | _ => True

/-- The condition on a step, as far as it concerns one row. -/
def KeepsOnce (id : ℕ) (s : OutboxSystem W) : OutboxAction W → Prop
  | .handle w faults => ∀ row ∈ (s.batches w).events.head?, row.id = id → FailsUnwritten faults row.event
  | .markProcessed w reply => id ∈ (s.batches w).processedIDs → reply ≠ .failed
  | .crash w => id ∉ (s.batches w).processedIDs
  | .reclaim now => (∃ row, s.rows[id]? = some row ∧ OutboxSystem.isStale now row = true) →
      ∀ w, id ∉ (s.batches w).held
  | _ => True

section

/-- What an adjustment does to the shards. -/
def ManagementEvent.redisChange : ManagementEvent → (ℕ → Redis) → ℕ → Redis
  | .reconciliationAdjust p, rdbs => Function.update rdbs p.shardID
      (adjustRedisBudgetAtomically p.campaignID p.redisDelta (rdbs p.shardID))
  | .quotaRepair p, rdbs => Function.update rdbs p.shardID
      ((rdbs p.shardID).incrBy (budgetQuotaPlainKey p.campaignID) p.repairMicro)
  | _, rdbs => rdbs

/-- What an adjustment does to the database. -/
def ManagementEvent.pgChange : ManagementEvent → Pg → Pg
  | .reconciliationAdjust p, pg =>
    (applyReconciliationAdjust p.campaignID p.customerID p.ledgerAmt pg).getD pg
  | .quotaRepair p, pg => pg.decreaseCampaignQuotaReserved p.shardID p.campaignID p.repairMicro
  | _, pg => pg

/-- A call of the handler of an adjustment makes each change once at most, the log says which, and under
the condition a failed call has made none. -/
structure AppliesOnce (faults : Faults) (event : ManagementEvent) (s : ControlStore)
    (handled : Handled) : Prop where
  nodup : handled.effects.Nodup
  rdbs : handled.store.rdbs = if .redis ∈ handled.effects then event.redisChange s.rdbs else s.rdbs
  pg : handled.store.pg = if .pg ∈ handled.effects then event.pgChange s.pg else s.pg
  unwritten : FailsUnwritten faults event → handled.ok = false → handled.effects = []

variable {cfg : ShardConfig} {faults : Faults} {s : ControlStore} {event : ManagementEvent}

theorem AppliesOnce.refused : AppliesOnce faults event s s.refused :=
  ⟨nodup_nil, rfl, rfl, fun _ _ => rfl⟩

/-- A transaction without a write to Redis. -/
theorem AppliesOnce.commit {committed : Pg} (hpg : event.pgChange s.pg = committed)
    (hok : FailsUnwritten faults event → faults.finish ≠ .lost) :
    AppliesOnce faults event s (s.commit faults.finish committed []) := by
  cases hfin : faults.finish with
  | failed => exact ⟨nodup_nil, rfl, rfl, fun _ _ => rfl⟩
  | lost => exact ⟨nodup_singleton _, rfl, hpg.symm, fun h => absurd hfin (hok h)⟩
  | received =>
    refine ⟨nodup_singleton _, rfl, hpg.symm, fun _ hfail => ?_⟩
    cases hfail

/-- A write to Redis inside an open transaction, the changes of which are committed after it. -/
theorem AppliesOnce.withRedis {shard : ℕ} {f : Redis → Redis} {committed : Pg}
    (hredis : event.redisChange s.rdbs = Function.update s.rdbs shard (f (s.rdbs shard)))
    (hpg : event.pgChange s.pg = committed)
    (hok : FailsUnwritten faults event →
      faults.redis = .failed ∨ (faults.redis = .received ∧ faults.finish = .received)) :
    AppliesOnce faults event s (s.withRedis faults.redis shard f
      fun written => written.commit faults.finish committed [.redis]) := by
  cases hreply : faults.redis with
  | failed => exact .refused
  | lost =>
    refine ⟨nodup_singleton _, hredis.symm, rfl, fun h => ?_⟩
    obtain hfail | ⟨hrecv, -⟩ := hok h
    · rw [hreply] at hfail
      cases hfail
    · rw [hreply] at hrecv
      cases hrecv
  | received =>
    have hdone (h : FailsUnwritten faults event) : faults.finish = .received := by
      obtain hfail | ⟨-, hfin⟩ := hok h
      · rw [hreply] at hfail
        cases hfail
      · exact hfin
    have hboth : [Medium.redis, Medium.pg].Nodup := by decide
    cases hfin : faults.finish with
    | failed =>
      refine ⟨nodup_singleton _, hredis.symm, rfl, fun h => ?_⟩
      rw [hdone h] at hfin
      cases hfin
    | lost =>
      refine ⟨hboth, hredis.symm, hpg.symm, fun h => ?_⟩
      rw [hdone h] at hfin
      cases hfin
    | received =>
      refine ⟨hboth, hredis.symm, hpg.symm, fun _ hfail => ?_⟩
      cases hfail

/-- The handler of an adjustment by reconciliation. -/
theorem handleReconciliationAdjust_appliesOnce (p : ReconciliationAdjustPayload) :
    AppliesOnce faults (.reconciliationAdjust p) s (handleReconciliationAdjust cfg p faults s) := by
  unfold handleReconciliationAdjust
  split
  · exact .refused
  cases hpg : applyReconciliationAdjust p.campaignID p.customerID p.ledgerAmt s.pg with
  | none => exact .refused
  | some adjusted =>
    have hchg : (ManagementEvent.reconciliationAdjust p).pgChange s.pg = adjusted := by
      rw [ManagementEvent.pgChange, hpg, Option.getD_some]
    dsimp only
    by_cases hdelta : p.redisDelta = 0
    · rw [if_pos hdelta]
      refine .commit hchg fun h => ?_
      rw [FailsUnwritten, if_pos hdelta] at h
      exact h
    rw [if_neg hdelta]
    split
    · exact .refused
    · refine .withRedis rfl hchg fun h => ?_
      rw [FailsUnwritten, if_neg hdelta] at h
      exact h

/-- The handler of a repair. -/
theorem handleQuotaRepair_appliesOnce (p : QuotaRepairPayload) :
    AppliesOnce faults (.quotaRepair p) s (handleQuotaRepair cfg p faults s) := by
  unfold handleQuotaRepair
  split
  · exact .refused
  split
  · rename_i hact
    split
    · exact .refused
    unfold ControlStore.withRedis
    cases hreply : faults.redis with
    | failed => exact .refused
    | lost =>
      refine ⟨nodup_singleton _, rfl, rfl, fun h => ?_⟩
      simp only [FailsUnwritten, hact, hreply, reduceCtorEq, false_and, or_self] at h
    | received =>
      refine ⟨nodup_singleton _, rfl, rfl, fun h hfail => ?_⟩
      simp only [FailsUnwritten, hact, hreply, reduceCtorEq, true_and, false_or] at h
      simp only [h, decide_true, Bool.true_eq_false] at hfail
  · rename_i hact
    refine .commit rfl fun h => ?_
    simp only [FailsUnwritten, hact] at h
    exact h
  · exact .refused

/-- The handler of an adjustment makes each change once at most. -/
theorem handleManagementEvent_appliesOnce (hevent : event.IsAdjustment) :
    AppliesOnce faults event s (handleManagementEvent cfg faults event s) := by
  cases event with
  | reconciliationAdjust p => exact handleReconciliationAdjust_appliesOnce p
  | quotaRepair p => exact handleQuotaRepair_appliesOnce p
  | _ => exact absurd hevent id

end

/-- The stores change with the log: a worker that handles the row makes the changes that it logs. -/
def ChangesLogged [DecidableEq W] (cfg : ShardConfig) (id : ℕ) (event : ManagementEvent)
    (s : OutboxSystem W) : OutboxAction W → Prop
  | .handle w faults => ∀ row ∈ (s.batches w).events.head?, row.id = id → ∃ effects : List Medium,
      (s.handle cfg w faults).log = s.log ++ effects.map (fun medium => (id, medium)) ∧
      (s.handle cfg w faults).store.rdbs =
        (if .redis ∈ effects then event.redisChange s.store.rdbs else s.store.rdbs) ∧
      (s.handle cfg w faults).store.pg =
        if .pg ∈ effects then event.pgChange s.store.pg else s.store.pg
  | _ => True

/-- One row of the outbox: at most one worker has it, while it is in processing, and an effect of it is
known to the table or to the worker that is about to mark it. -/
structure OnceInv (id : ℕ) (event : ManagementEvent) (s : OutboxSystem W) : Prop where
  numbered : Numbered s.rows
  kept : eventAt id s.rows = some event
  copies : ∀ w, ∀ row ∈ (s.batches w).events, row.id = id → row.event = event
  once : ∀ w, (s.batches w).held.count id ≤ 1
  holder : ∀ w w', id ∈ (s.batches w).held → id ∈ (s.batches w').held → w = w'
  processing : ∀ w, id ∈ (s.batches w).held → statusAt id s.rows = some .processing
  applied : ∀ medium, (id, medium) ∈ s.log →
    statusAt id s.rows = some .processed ∨ ∃ w, id ∈ (s.batches w).processedIDs
  effects : ∀ medium, s.log.count (id, medium) ≤ 1

section

variable {batch : OutboxBatch} {id : ℕ}

theorem OutboxBatch.mem_held_of_processed (h : id ∈ batch.processedIDs) : id ∈ batch.held :=
  mem_append_left _ (mem_append_right _ h)

theorem OutboxBatch.mem_held_of_revert (h : id ∈ batch.revertIDs) : id ∈ batch.held :=
  mem_append_right _ h

theorem OutboxBatch.count_held (batch : OutboxBatch) (id : ℕ) :
    batch.held.count id = (batch.events.map ManagementRow.id).count id +
      batch.processedIDs.count id + batch.revertIDs.count id := by
  rw [held, count_append, count_append]

end

namespace OnceInv

variable {id : ℕ} {event : ManagementEvent} {s : OutboxSystem W}

section

variable (h : OnceInv id event s)
include h

/-- A row with an effect is not pending. -/
theorem not_pending {medium : Medium} (hlog : (id, medium) ∈ s.log) :
    statusAt id s.rows ≠ some .pending := by
  intro hpend
  obtain hproc | ⟨w, hw⟩ := h.applied medium hlog
  · rw [hpend] at hproc
    cases hproc
  · have hbusy := h.processing w (mem_held_of_processed hw)
    rw [hpend] at hbusy
    cases hbusy

/-- A row that its worker has not handled, or that has failed, has no effect. -/
theorem no_effect {w : W} (hheld : id ∈ (s.batches w).held)
    (hproc : id ∉ (s.batches w).processedIDs) (medium : Medium) : (id, medium) ∉ s.log := by
  intro hlog
  obtain hstat | ⟨w', hw'⟩ := h.applied medium hlog
  · have hbusy := h.processing w hheld
    rw [hstat] at hbusy
    cases hbusy
  · have hsame := h.holder w w' hheld (mem_held_of_processed hw')
    rw [← hsame] at hw'
    exact hproc hw'

/-- The row that its worker handles next has no effect. -/
theorem next_unapplied {w : W} {row : ManagementRow} {rest : List ManagementRow}
    {processedIDs revertIDs : List ℕ}
    (hbatch : s.batches w = ⟨row :: rest, processedIDs, revertIDs⟩) (hid : row.id = id)
    (medium : Medium) : (id, medium) ∉ s.log := by
  have honce := h.once w
  rw [hbatch, count_held, map_cons, hid, count_cons_self] at honce
  apply h.no_effect (w := w)
  · rw [hbatch, ← hid]
    exact mem_append_left _ (mem_append_left _ mem_cons_self)
  · rw [hbatch]
    intro hproc
    have hpos := count_pos_iff.mpr hproc
    omega

/-- A fetched row is pending, as it stands in the table. -/
theorem pending_of_fetched {limit : ℕ} {row : ManagementRow}
    (hrow : row ∈ s.getPendingOutboxEventsForUpdate limit) (hid : row.id = id) :
    s.rows[id]? = some row ∧ statusAt id s.rows = some .pending := by
  obtain ⟨hmem, hpend⟩ := mem_getPendingOutboxEventsForUpdate hrow
  have hget := h.numbered.getElem?_id hmem
  rw [hid] at hget
  refine ⟨hget, ?_⟩
  rw [statusAt, hget, Option.map_some, hpend]

theorem not_held_of_pending (hpend : statusAt id s.rows = some .pending) (w : W) :
    id ∉ (s.batches w).held := by
  intro hheld
  have hbusy := h.processing w hheld
  rw [hpend] at hbusy
  cases hbusy

/-- Another row is created. -/
theorem enqueue (other : ManagementEvent) : OnceInv id event (s.enqueue other) := by
  obtain ⟨row, hrow, -⟩ := Option.map_eq_some_iff.mp h.kept
  obtain ⟨hlt, -⟩ := List.getElem?_eq_some_iff.mp hrow
  have hsame : (s.enqueue other).rows[id]? = s.rows[id]? := List.getElem?_append_left hlt
  have hstat : statusAt id (s.enqueue other).rows = statusAt id s.rows := by
    rw [statusAt, hsame, statusAt]
  refine ⟨h.numbered.append rfl, ?_, h.copies, h.once, h.holder, ?_, ?_, h.effects⟩
  · rw [eventAt, hsame]
    exact h.kept
  · rw [hstat]
    exact h.processing
  · rw [hstat]
    exact h.applied

/-- Rows are reclaimed, this one only from a worker that is gone. -/
theorem reclaim (now : ℤ)
    (hok : (∃ row, s.rows[id]? = some row ∧ isStale now row = true) →
      ∀ w, id ∉ (s.batches w).held) : OnceInv id event (s.reclaim now) := by
  obtain ⟨row, hrow, -⟩ := Option.map_eq_some_iff.mp h.kept
  have hget : (s.reclaim now).rows[id]? = some (if isStale now row then
      { row with status := .pending, processingStartedAt := none } else row) := by
    rw [OutboxSystem.reclaim, getElem?_map, hrow, Option.map_some]
  have hrows : contents (s.reclaim now).rows = contents s.rows := contents_map fun row => by split <;> rfl
  have hnum := h.numbered.of_contents hrows
  have hkept := (eventAt_congr hrows).trans h.kept
  by_cases hstale : isStale now row = true
  · have hfree := hok ⟨row, hrow, hstale⟩
    have hbusy : statusAt id s.rows = some .processing := by
      rw [isStale, decide_eq_true_iff] at hstale
      rw [statusAt, hrow, Option.map_some, hstale.1]
    refine ⟨hnum, hkept, h.copies, h.once, h.holder, ?_, ?_, h.effects⟩
    · intro w hheld
      exact absurd hheld (hfree w)
    · intro medium hlog
      obtain hproc | ⟨w, hw⟩ := h.applied medium hlog
      · rw [hbusy] at hproc
        cases hproc
      · exact absurd (mem_held_of_processed hw) (hfree w)
  · rw [if_neg hstale] at hget
    have hstat : statusAt id (s.reclaim now).rows = statusAt id s.rows := by
      rw [statusAt, hget, statusAt, hrow]
    refine ⟨hnum, hkept, h.copies, h.once, h.holder, ?_, ?_, h.effects⟩
    · rw [hstat]
      exact h.processing
    · rw [hstat]
      exact h.applied

/-- The rows of a fetched batch, in whatever order, are the rows of the statement. -/
theorem count_fetched (limit : ℕ) (p : ManagementRow → Bool) :
    (((s.getPendingOutboxEventsForUpdate limit).filter p ++
      (s.getPendingOutboxEventsForUpdate limit).filter fun row => !p row).map
        ManagementRow.id).count id ≤ 1 := by
  rw [((filter_append_perm p (s.getPendingOutboxEventsForUpdate limit)).map
    ManagementRow.id).count_eq id]
  exact nodup_iff_count_le_one.mp (getPendingOutboxEventsForUpdate_nodup h.numbered) id

end

section

variable [DecidableEq W] {log : List (ℕ × Medium)}

/-- The system after a statement of one worker: what has to be known of its new batch, and that other rows
are left alone. -/
theorem of_setBatch (h : OnceInv id event s) {s' : OutboxSystem W} (w : W) (batch : OutboxBatch)
    (hbatch : s'.batches = Function.update s.batches w batch) (hrows : contents s'.rows = contents s.rows)
    (hcopy : ∀ row ∈ batch.events, row.id = id → row.event = event) (honce : batch.held.count id ≤ 1)
    (hhold : id ∈ batch.held → statusAt id s'.rows = some .processing ∧
      ∀ w', w' ≠ w → id ∉ (s.batches w').held)
    (hothers : ∀ w', w' ≠ w → id ∈ (s.batches w').held → statusAt id s'.rows = statusAt id s.rows)
    (happ : ∀ medium, (id, medium) ∈ s'.log → statusAt id s'.rows = some .processed ∨
      id ∈ batch.processedIDs ∨ ∃ w', w' ≠ w ∧ id ∈ (s.batches w').processedIDs)
    (heff : ∀ medium, s'.log.count (id, medium) ≤ 1) : OnceInv id event s' := by
  have hall {P : OutboxBatch → Prop} (hnew : P batch) (hold : ∀ w', w' ≠ w → P (s.batches w')) :
      ∀ w', P (s'.batches w') := by
    rw [hbatch]
    exact (Function.forall_update_iff s.batches fun _ => P).mpr ⟨hnew, hold⟩
  have hself : s'.batches w = batch := by
    rw [hbatch, Function.update_self]
  have hother (w' : W) (hw' : w' ≠ w) : s'.batches w' = s.batches w' := by
    rw [hbatch, Function.update_of_ne hw']
  refine ⟨h.numbered.of_contents hrows, (eventAt_congr hrows).trans h.kept, ?_, ?_, ?_, ?_, ?_, heff⟩
  · exact hall (P := fun b => ∀ row ∈ b.events, row.id = id → row.event = event) hcopy
      fun w' _ => h.copies w'
  · exact hall (P := fun b => b.held.count id ≤ 1) honce fun w' _ => h.once w'
  · intro first second hfirst hsnd
    by_cases hw : first = w
    · by_cases hw' : second = w
      · rw [hw, hw']
      · rw [hw, hself] at hfirst
        rw [hother second hw'] at hsnd
        exact absurd hsnd ((hhold hfirst).2 second hw')
    · rw [hother first hw] at hfirst
      by_cases hw' : second = w
      · rw [hw', hself] at hsnd
        exact absurd hfirst ((hhold hsnd).2 first hw)
      · rw [hother second hw'] at hsnd
        exact h.holder first second hfirst hsnd
  · exact hall (P := fun b => id ∈ b.held → statusAt id s'.rows = some .processing)
      (fun hheld => (hhold hheld).1) fun w' hw' hheld =>
        (hothers w' hw' hheld).trans (h.processing w' hheld)
  · intro medium hlog
    obtain hproc | hmine | ⟨w', hw', htheirs⟩ := happ medium hlog
    · exact .inl hproc
    · refine .inr ⟨w, ?_⟩
      rw [hself]
      exact hmine
    · refine .inr ⟨w', ?_⟩
      rw [hother w' hw']
      exact htheirs

/-- A worker takes a batch. -/
theorem fetch (h : OnceInv id event s) (w : W) (limit : ℕ) (now : ℤ) (reply : Reply) :
    OnceInv id event (s.fetch w limit now reply) := by
  unfold OutboxSystem.fetch
  split
  · rename_i hidle
    have hfetch (hid : id ∈ (s.getPendingOutboxEventsForUpdate limit).map ManagementRow.id) :
        statusAt id s.rows = some .pending := by
      obtain ⟨row, hrow, hrowid⟩ := mem_map.mp hid
      exact (h.pending_of_fetched hrow hrowid).2
    refine h.of_setBatch w _ rfl (contents_after_updateRows reply fun _ => rfl) ?_ ?_ ?_ ?_ ?_ h.effects
    · intro row hrow hid
      split at hrow
      · have hget := (h.pending_of_fetched (mem_fetched hrow) hid).1
        have hkept := h.kept
        rw [eventAt, hget, Option.map_some, Option.some_inj] at hkept
        exact hkept
      · cases hrow
    · rw [count_held]
      split
      · exact h.count_fetched limit _
      · exact Nat.zero_le 1
    · intro hheld
      rw [OutboxBatch.held, append_nil, append_nil] at hheld
      split at hheld
      · rename_i hrecv
        obtain ⟨row, hrow, hid⟩ := mem_map.mp hheld
        have hfound := mem_fetched hrow
        obtain ⟨hget, hpend⟩ := h.pending_of_fetched hfound hid
        refine ⟨?_, fun w' _ => h.not_held_of_pending hpend w'⟩
        have hreply : reply ≠ .failed := by
          rw [hrecv]
          exact Reply.noConfusion
        have hids := mem_map.mpr ⟨row, hfound, hid⟩
        exact (statusAt_after_updateRows h.numbered hreply hids).trans (by rw [hget, Option.map_some])
      · cases hheld
    · intro w' _ hheld
      refine statusAt_after_updateRows_of_not h.numbered fun hreach => ?_
      exact h.not_held_of_pending (hfetch hreach.2) w' hheld
    · intro medium hlog
      obtain hproc | ⟨w', hw'⟩ := h.applied medium hlog
      · refine .inl (Eq.trans ?_ hproc)
        exact statusAt_after_updateRows_of_not h.numbered fun hreach =>
          h.not_pending hlog (hfetch hreach.2)
      refine .inr (.inr ⟨w', ?_, hw'⟩)
      rintro rfl
      rw [hidle] at hw'
      cases hw'
  · exact h

/-- Handling a row moves it from the events to one of the two lists. -/
theorem count_handled (row : ManagementRow) (rest : List ManagementRow) (processedIDs revertIDs : List ℕ)
    (ok : Bool) (id : ℕ) :
    (handled row rest processedIDs revertIDs ok).held.count id =
      (OutboxBatch.mk (row :: rest) processedIDs revertIDs).held.count id := by
  rw [count_held, count_held, map_cons, count_cons, handled]
  split
  · dsimp only
    rw [count_append, count_singleton]
    omega
  · dsimp only
    rw [count_append, count_singleton]
    omega

/-- A handler adds to the log of its own row only. -/
theorem count_log_of_ne {other : ℕ} (hne : other ≠ id) (effects : List Medium) (medium : Medium) :
    (log ++ effects.map fun medium => (other, medium)).count (id, medium) = log.count (id, medium) := by
  have hnone : (id, medium) ∉ effects.map fun medium => (other, medium) := by
    intro hmem
    obtain ⟨_, -, heq⟩ := mem_map.mp hmem
    exact hne (Prod.mk.inj heq).1
  rw [count_append, count_eq_zero.mpr hnone, Nat.add_zero]

/-- The first effects of a row, each of them once. -/
theorem count_log_self {effects : List Medium} (hnodup : effects.Nodup)
    {medium : Medium} (hnew : (id, medium) ∉ log) :
    (log ++ effects.map fun medium => (id, medium)).count (id, medium) ≤ 1 := by
  rw [count_append, count_eq_zero.mpr hnew, Nat.zero_add]
  refine nodup_iff_count_le_one.mp (hnodup.map ?_) _
  intro first second heq
  exact (Prod.mk.inj heq).2

section

variable (h : OnceInv id event s)
include h

/-- A worker handles the next row of its batch. -/
theorem handle (hadj : event.IsAdjustment) (cfg : ShardConfig) (w : W) (faults : Faults)
    (hok : ∀ row ∈ (s.batches w).events.head?, row.id = id → FailsUnwritten faults row.event) :
    OnceInv id event (s.handle cfg w faults) := by
  unfold OutboxSystem.handle
  split
  · rename_i row rest processedIDs revertIDs hbatch
    have hcopy := h.copies w
    have honce := h.once w
    have hhold := h.holder w
    have hbusy := h.processing w
    rw [hbatch] at hok hcopy honce hhold hbusy
    have hcount := count_handled row rest processedIDs revertIDs
      (handleManagementEvent cfg faults row.event s.store).ok id
    refine h.of_setBatch w _ rfl rfl ?_ (hcount.trans_le honce) ?_ ?_ ?_ ?_
    · intro other hother
      refine hcopy other (mem_cons_of_mem row ?_)
      split at hother
      · exact hother
      · exact hother
    · intro hnew
      have hold := count_pos_iff.mp ((count_pos_iff.mpr hnew).trans_eq hcount)
      exact ⟨hbusy hold, fun w' hne hw' => hne (hhold w' hold hw').symm⟩
    · intro w' _ _
      rfl
    · intro medium hlog
      obtain hlog | hlog := mem_append.mp hlog
      · obtain hproc | ⟨w', hw'⟩ := h.applied medium hlog
        · exact .inl hproc
        by_cases hw : w' = w
        · rw [hw, hbatch] at hw'
          refine .inr (.inl ?_)
          split
          · exact mem_append_left _ hw'
          · exact hw'
        · exact .inr (.inr ⟨w', hw, hw'⟩)
      · obtain ⟨written, hput, heq⟩ := mem_map.mp hlog
        have hid : row.id = id := (Prod.mk.inj heq).1
        have hevent := hcopy row mem_cons_self hid
        have hunput := hok row rfl hid
        rw [hevent] at hunput hput
        cases hcall : (handleManagementEvent cfg faults event s.store).ok with
        | true =>
          refine .inr (.inl ?_)
          rw [hevent, if_pos hcall, hid]
          exact mem_append_right _ mem_cons_self
        | false =>
          rw [(handleManagementEvent_appliesOnce hadj).unwritten hunput hcall] at hput
          cases hput
    · intro medium
      by_cases hid : row.id = id
      · rw [hid, hcopy row mem_cons_self hid]
        exact count_log_self (handleManagementEvent_appliesOnce hadj).nodup
          (h.next_unapplied hbatch hid medium)
      · exact (count_log_of_ne hid _ medium).trans_le (h.effects medium)
  · exact h

/-- A worker marks the handled rows of its batch. -/
theorem markProcessed (w : W) (reply : Reply) (hok : id ∈ (s.batches w).processedIDs → reply ≠ .failed) :
    OnceInv id event (s.markProcessed w reply) := by
  unfold OutboxSystem.markProcessed
  split
  · rename_i processedIDs revertIDs hbatch
    have honce := h.once w
    have hhold := h.holder w
    rw [hbatch] at hok honce hhold
    rw [count_held] at honce
    dsimp only at honce
    have hmark (hid : id ∉ processedIDs) :
        statusAt id (reply.after s.rows (s.updateRows processedIDs fun row =>
          { row with status := .processed })) = statusAt id s.rows :=
      statusAt_after_updateRows_of_not h.numbered fun hreach => hid hreach.2
    refine h.of_setBatch w _ rfl (contents_after_updateRows reply fun _ => rfl) ?_ ?_ ?_ ?_ ?_ h.effects
    · intro row hrow
      cases hrow
    · rw [count_held, count_nil]
      dsimp only
      omega
    · intro hheld
      have hrev : id ∈ revertIDs := hheld
      have hpos := count_pos_iff.mpr hrev
      have hid : id ∉ processedIDs := by
        intro hproc
        have hpos' := count_pos_iff.mpr hproc
        omega
      have hold : id ∈ (OutboxBatch.mk [] processedIDs revertIDs).held :=
        mem_held_of_revert hrev
      refine ⟨(hmark hid).trans (h.processing w ?_), fun w' hne hw' => hne (hhold w' hold hw').symm⟩
      rw [hbatch]
      exact hold
    · intro w' hne hw'
      refine hmark fun hproc => ?_
      exact hne (hhold w' (mem_held_of_processed hproc) hw').symm
    · intro medium hlog
      by_cases hid : id ∈ processedIDs
      · obtain ⟨row, hrow, -⟩ := Option.map_eq_some_iff.mp h.kept
        refine .inl ((statusAt_after_updateRows h.numbered (hok hid) hid).trans ?_)
        rw [hrow, Option.map_some]
      obtain hproc | ⟨w', hw'⟩ := h.applied medium hlog
      · exact .inl ((hmark hid).trans hproc)
      refine .inr (.inr ⟨w', ?_, hw'⟩)
      rintro rfl
      rw [hbatch] at hw'
      exact hid hw'
  · exact h

/-- A worker without a mark for the row gives up its batch, with a statement on rows to revert. -/
theorem release {w : W} (hok : id ∉ (s.batches w).processedIDs) (reply : Reply) {ids : List ℕ}
    (hids : ids ⊆ (s.batches w).revertIDs) (f : ManagementRow → ManagementRow)
    (hf : ∀ row, ((f row).id, (f row).event) = (row.id, row.event)) : OnceInv id event
      ({ s with rows := reply.after s.rows (s.updateRows ids f) }.setBatch w ⟨[], [], []⟩) := by
  refine h.of_setBatch w _ rfl (contents_after_updateRows reply hf) ?_ (Nat.zero_le 1) ?_ ?_ ?_ h.effects
  · intro row hrow
    cases hrow
  · intro hheld
    cases hheld
  · intro w' hne hw'
    refine statusAt_after_updateRows_of_not h.numbered fun hreach => ?_
    exact hne (h.holder w w' (mem_held_of_revert (hids hreach.2)) hw').symm
  · intro medium hlog
    obtain hproc | ⟨w', hw'⟩ := h.applied medium hlog
    · refine .inl (Eq.trans ?_ hproc)
      exact statusAt_after_updateRows_of_not h.numbered fun hreach =>
        h.no_effect (mem_held_of_revert (hids hreach.2)) hok medium hlog
    · refine .inr (.inr ⟨w', ?_, hw'⟩)
      rintro rfl
      exact hok hw'

/-- A worker reverts the failed rows of its batch. -/
theorem revert (w : W) (reply : Reply) : OnceInv id event (s.revert w reply) := by
  unfold OutboxSystem.revert
  split
  · rename_i revertIDs hbatch
    refine h.release ?_ reply ?_ _ fun _ => rfl
    · rw [hbatch]
      exact not_mem_nil
    · rw [hbatch]
      exact Subset.refl _
  · exact h

theorem crash (w : W) (hok : id ∉ (s.batches w).processedIDs) :
    OnceInv id event (s.setBatch w ⟨[], [], []⟩) :=
  h.release hok .failed (nil_subset _) (fun row => row) fun _ => rfl

/-- What a step logs for the row is what it does to the stores. -/
theorem changesLogged (hadj : event.IsAdjustment) (cfg : ShardConfig) (a : OutboxAction W) :
    ChangesLogged cfg id event s a := by
  cases a with
  | handle w faults =>
    rintro row hrow rfl
    have hevent : row.event = event := h.copies w row (mem_of_mem_head? hrow) rfl
    have honce := @handleManagementEvent_appliesOnce cfg faults s.store event hadj
    cases hbatch : s.batches w with
    | mk events processedIDs revertIDs =>
      rw [hbatch] at hrow
      obtain ⟨rest, rfl⟩ : ∃ rest, events = row :: rest := head?_eq_some_iff.mp hrow
      simp only [OutboxSystem.handle, hbatch, hevent]
      exact ⟨_, rfl, honce.rdbs, honce.pg⟩
  | _ => trivial

/-- A step that meets the condition keeps the invariant. -/
theorem step (hadj : event.IsAdjustment) (cfg : ShardConfig) (a : OutboxAction W)
    (hok : KeepsOnce id s a) : OnceInv id event (s.step cfg a) := by
  cases a with
  | enqueue other => exact h.enqueue other
  | reclaim now => exact h.reclaim now hok
  | fetch w limit now reply => exact h.fetch w limit now reply
  | handle w faults => exact h.handle hadj cfg w faults hok
  | markProcessed w reply => exact h.markProcessed w reply hok
  | revert w reply => exact h.revert w reply
  | crash w => exact h.crash w hok

end

end

/-- A row that is waiting, with no effect so far and in no memory. -/
theorem of_pending {id : ℕ} {event : ManagementEvent} {s : OutboxSystem W} (hnum : Numbered s.rows)
    (hevent : eventAt id s.rows = some event) (hfree : ∀ w, id ∉ (s.batches w).held)
    (hlog : ∀ medium, (id, medium) ∉ s.log) : OnceInv id event s := by
  refine ⟨hnum, hevent, ?_, ?_, ?_, ?_, ?_, ?_⟩
  · intro w row hrow hid
    refine absurd ?_ (hfree w)
    rw [← hid]
    exact mem_append_left _ (mem_append_left _ (mem_map_of_mem hrow))
  · intro w
    rw [count_eq_zero.mpr (hfree w)]
    exact Nat.zero_le 1
  · intro w w' hw
    exact absurd hw (hfree w)
  · intro w hw
    exact absurd hw (hfree w)
  · intro medium hmem
    exact absurd hmem (hlog medium)
  · intro medium
    rw [count_eq_zero.mpr (hlog medium)]
    exact Nat.zero_le 1

end OnceInv

/-- The effects of one adjustment. From any state in which it waits in the outbox with no effect so far,
it takes effect once at most in each store, in every state of a run whose steps keep to the condition; its
effects are the changes that its handler makes to the stores. -/
theorem adjustment_applied_once [DecidableEq W] (cfg : ShardConfig) (start : OutboxSystem W) (id : ℕ)
    (event : ManagementEvent) (hadjusts : event.IsAdjustment) (hnumbered : Numbered start.rows)
    (hevent : eventAt id start.rows = some event) (hfree : ∀ w, id ∉ (start.batches w).held)
    (hlog : ∀ medium, (id, medium) ∉ start.log) (actions : List (OutboxAction W))
    (hrun : Admissible (KeepsOnce id) (OutboxSystem.step cfg) start actions) :
    (run (OutboxSystem.step cfg) start actions).log.count (id, .redis) ≤ 1 ∧
      (run (OutboxSystem.step cfg) start actions).log.count (id, .pg) ≤ 1 ∧
      Admissible (ChangesLogged cfg id event) (OutboxSystem.step cfg) start actions := by
  have hinit := OnceInv.of_pending hnumbered hevent hfree hlog
  have hstep (s : OutboxSystem W) (a : OutboxAction W) (hok : KeepsOnce id s a) (h : OnceInv id event s) :
      OnceInv id event (s.step cfg a) := h.step hadjusts cfg a hok
  have hinv := @Admissible.invariant _ _ (KeepsOnce id) (OutboxSystem.step cfg) (OnceInv id event)
    hstep start actions hrun hinit
  exact ⟨hinv.effects .redis, hinv.effects .pg,
    Admissible.law hstep (fun _ a _ h => h.changesLogged hadjusts cfg a) hrun hinit⟩

/-- An adjustment by one unit. -/
def sampleAdjust : ReconciliationAdjustPayload :=
  ⟨7, sampleCampaign, sampleCustomer, 0, 1000000, 1000000, "AUTO_DRIFT"⟩

/-- The adjustment waits in the outbox. -/
def sampleAdjustment : OutboxSystem Unit where
  rows := [⟨0, .reconciliationAdjust sampleAdjust, .pending, none⟩]
  store := ⟨sampleAccount 0 0, fun _ => Redis.empty⟩
  log := []
  batches := fun _ => ⟨[], [], []⟩

/-- A cycle of the worker: a batch, its only row, and the two statements. -/
def sampleCycle (now : ℤ) (redis finish : Reply) : List (OutboxAction Unit) :=
  [.fetch () 10 now .received, .handle () ⟨true, redis, finish, id⟩, .markProcessed () .received,
    .revert () .received]

/-- A call to Redis that fails, and then an attempt without failures. -/
theorem adjustment_applied_once_retried :
    (run (OutboxSystem.step sampleShards) sampleAdjustment
        (sampleCycle 0 .failed .received ++ sampleCycle 5 .received .received)).log =
          [(0, .redis), (0, .pg)] ∧
      (run (OutboxSystem.step sampleShards) sampleAdjustment
        (sampleCycle 0 .failed .received ++ sampleCycle 5 .received .received)).log.count
          (0, .redis) ≤ 1 := by
  have hclean (redis finish : Reply) (h : redis = .failed ∨ (redis = .received ∧ finish = .received)) :
      FailsUnwritten ⟨true, redis, finish, id⟩ (.reconciliationAdjust sampleAdjust) := by
    exact h
  have hmark (s : OutboxSystem Unit) : KeepsOnce 0 s (.markProcessed () .received) :=
    fun _ => Reply.noConfusion
  refine ⟨by decide +kernel, ?_⟩
  refine (adjustment_applied_once sampleShards sampleAdjustment 0 (.reconciliationAdjust sampleAdjust)
    trivial (numbered_nil.append rfl) rfl (fun _ => List.not_mem_nil) (fun _ => List.not_mem_nil) _ ?_).1
  refine ⟨trivial, ?_, hmark _, trivial, trivial, ?_, hmark _, trivial, trivial⟩
  · rintro row hrow -
    cases hrow
    exact hclean _ _ (.inl rfl)
  · rintro row hrow -
    cases hrow
    exact hclean _ _ (.inr ⟨rfl, rfl⟩)

/-- Where the commit fails after the call to Redis, the retry repeats the call: the counter has twice the
adjustment. Where the marking fails, the row is reclaimed, and the ledger has the adjustment twice as
well. -/
theorem adjustment_applied_twice :
    let uncommitted := run (OutboxSystem.step sampleShards) sampleAdjustment
      (sampleCycle 0 .received .failed ++ sampleCycle 5 .received .received)
    let unmarked := run (OutboxSystem.step sampleShards) sampleAdjustment
      ([.fetch () 10 0 .received, .handle () ⟨true, .received, .received, id⟩,
        .markProcessed () .failed, .reclaim 61] ++ sampleCycle 61 .received .received)
    uncommitted.log.count (0, .redis) = 2 ∧
      (uncommitted.store.rdbs 0).count (campaignSyncKey sampleCampaign) = 2 * sampleAdjust.redisDelta ∧
      uncommitted.store.pg.ledger.length = 1 ∧
      unmarked.log.count (0, .pg) = 2 ∧ unmarked.store.pg.ledger.length = 2 := by
  decide +kernel

end Espx.ControlPlane
