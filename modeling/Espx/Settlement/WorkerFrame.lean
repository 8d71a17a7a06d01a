import Espx.Domain.SyncWorker

/-!
# What a round of the sync worker leaves alone

The worker's integer keys of an entity carry no hash tag, and those of different entities are different
keys. So a round of `SyncAll` leaves every tagged key as it is, and a campaign whose own worker counters
are empty keeps its spend.
-/

namespace Espx.Domain

open Espx.Foundation List

/-- The integer keys that the worker writes for an entity. -/
def entityIntKeys (entity idStr : String) : List String :=
  [(budgetEntityKeys entity idStr).syncKey, (budgetEntityKeys entity idStr).inFlightKey,
    (budgetEntityKeys entity idStr).lockKey]

/-- The integer keys are three words before the same text. -/
theorem mem_entityIntKeys {entity idStr key : String} :
    key ∈ entityIntKeys entity idStr ↔
      ∃ word ∈ ["budget:sync:", "budget:inflight:", "budget:lock:"],
        key = word ++ (entity ++ (":" ++ idStr)) := by
  simp [entityIntKeys, budgetEntityKeys, String.append_assoc]

/-- Entities with different texts share no integer key. -/
theorem entityIntKeys_disjoint {entity entity' idStr idStr' key : String}
    (h : entity ++ (":" ++ idStr) ≠ entity' ++ (":" ++ idStr'))
    (hkey : key ∈ entityIntKeys entity idStr) : key ∉ entityIntKeys entity' idStr' := by
  intro hkey'
  obtain ⟨word, hword, rfl⟩ := mem_entityIntKeys.mp hkey
  obtain ⟨word', hword', heq⟩ := mem_entityIntKeys.mp hkey'
  have hwords : ∀ v ∈ ["budget:sync:", "budget:inflight:", "budget:lock:"],
      ∀ w ∈ ["budget:sync:", "budget:inflight:", "budget:lock:"],
        v = w ∨ clash v.toList w.toList = true := by
    decide
  rcases hwords word hword word' hword' with rfl | hclash
  · exact h (by simpa using heq)
  · exact append_ne_of_clash hclash heq

theorem entityIntKeys_disjoint_of_ne {entity idStr idStr' key : String} (h : idStr ≠ idStr')
    (hkey : key ∈ entityIntKeys entity idStr) : key ∉ entityIntKeys entity idStr' := by
  apply entityIntKeys_disjoint _ hkey
  intro heq
  exact h (by simpa using heq)

theorem campaign_disjoint_customer {idStr idStr' key : String}
    (hkey : key ∈ entityIntKeys "campaign" idStr) : key ∉ entityIntKeys "customer" idStr' :=
  entityIntKeys_disjoint (append_ne_of_clash (by decide)) hkey

/-- A key in braces is no integer key of the worker. -/
theorem brace_not_entityIntKey (entity idStr rest : String) :
    "\x7b" ++ rest ∉ entityIntKeys entity idStr := by
  intro h
  obtain ⟨word, hword, heq⟩ := mem_entityIntKeys.mp h
  have hclash : ∀ w ∈ ["budget:sync:", "budget:inflight:", "budget:lock:"],
      clash "\x7b".toList w.toList = true := by
    decide
  exact append_ne_of_clash (hclash word hword) heq

/-- A prepare writes the integer keys of its entity only. -/
theorem prepareEntity_num_of_notMem {entity idStr newTxID key : String} {id : UUID} {r : Redis}
    (h : key ∉ entityIntKeys entity idStr) :
    (prepareEntity entity idStr id newTxID r).2.num key = r.num key := by
  simp only [entityIntKeys, mem_cons, not_mem_nil, or_false, not_or] at h
  rw [(prepareEntity_redis ..).1]
  exact prepareSyncScript_num_of_ne newTxID h.1 h.2.1 h.2.2

/-- A commit writes the integer keys of its entity only. -/
theorem commitEntity_num_of_notMem {entity key : String} {entry : PendingRollup} {r : Redis}
    (h : key ∉ entityIntKeys entity entry.idStr) : (commitEntity entity entry r).num key = r.num key := by
  simp only [entityIntKeys, mem_cons, not_mem_nil, or_false, not_or] at h
  rw [commitEntity, commitSyncScript_num_of_ne_lock _ _ _ h.2.2, takeSettled_num_of_ne _ _ h.2.1]

theorem updateBalance_campaigns {id : UUID} {amount : ℤ} {txID : String} {pg pg' : Pg}
    (h : updateBalance id amount txID pg = some pg') : pg'.campaigns = pg.campaigns := by
  unfold updateBalance Pg.addCustomerBalance at h
  split at h
  · cases h
    rfl
  split at h
  · cases h
    rfl
  split at h
  · cases h
    rfl
  · cases h

section

variable {rowLocked : UUID → Bool} {threshold : ℤ} {inv : SyncState → Prop}

/-- A flush of the rollup is a sequence of chunks of it. -/
theorem flushCampaignRollup_induction (s : SyncState) (hinit : inv { s with rollup := [] })
    (hchunk : ∀ t chunk, (∀ e ∈ chunk, e ∈ s.rollup) → inv t →
      inv (t.flushChunk rowLocked threshold chunk)) :
    inv (s.flushCampaignRollup rowLocked threshold) := by
  refine List.foldlRecOn _ _ hinit ?_
  intro t ht i _
  exact hchunk t _ (fun e he => mem_of_mem_drop (mem_of_mem_take he)) ht

/-- What every entry of a flushed chunk and the batch itself keep, the flush keeps. -/
theorem flushChunk_induction {good : UUID × PendingRollup → Prop} (s : SyncState)
    {chunk : List (UUID × PendingRollup)} (hgood : ∀ e ∈ chunk, good e)
    (hretain : inv { s with rollup := chunk ++ s.rollup })
    (hbatch : ∀ outcomes pg, updateSpendBatch rowLocked
      (chunk.map fun e => flushItem threshold e.1 e.2) s.pg = some (outcomes, pg) →
        inv { s with pg := pg })
    (hfin : ∀ t outcome e, good e → inv t → inv (t.finishEntry outcome e.1 e.2)) :
    inv (s.flushChunk rowLocked threshold chunk) := by
  unfold SyncState.flushChunk
  split
  · exact hretain
  rename_i outcomes pg hsome
  refine List.foldlRecOn _ _ (hbatch outcomes pg hsome) ?_
  intro t ht e he
  exact hfin t e.2 e.1 (hgood e.1 (of_mem_zip he).1) ht

end

namespace SyncState

variable {parse : String → Option UUID} {rowLocked : UUID → Bool} {threshold : ℤ} {s : SyncState}

section

/-- The keys in braces are as they were. -/
def BracesKept (r : Redis) (s : SyncState) : Prop :=
  ∀ rest, s.redis.num ("\x7b" ++ rest) = r.num ("\x7b" ++ rest)

variable {r : Redis}

/-- Collecting a campaign leaves the keys in braces alone. -/
theorem BracesKept.stage (h : s.BracesKept r) (idStr newTxID : String) :
    (s.stageCampaignRollup parse idStr newTxID).BracesKept r := by
  intro rest
  have hnotMem := brace_not_entityIntKey "campaign" idStr rest
  unfold stageCampaignRollup
  split
  · exact h rest
  · dsimp only
    split <;> exact (prepareEntity_num_of_notMem hnotMem).trans (h rest)

theorem BracesKept.finish (h : s.BracesKept r) (outcome : Option SpendFlushError) (id : UUID)
    (entry : PendingRollup) : (s.finishEntry outcome id entry).BracesKept r := by
  intro rest
  unfold finishEntry
  split
  · exact (commitEntity_num_of_notMem (brace_not_entityIntKey _ _ rest)).trans (h rest)
  · exact h rest
  · exact h rest

/-- Settling a customer leaves the keys in braces alone. -/
theorem BracesKept.customer (h : s.BracesKept r) (idStr newTxID : String) :
    (s.syncCustomer parse idStr newTxID).BracesKept r := by
  intro rest
  have hnotMem := brace_not_entityIntKey "customer" idStr rest
  unfold syncCustomer
  split
  · exact h rest
  dsimp only
  split
  · exact (prepareEntity_num_of_notMem hnotMem).trans (h rest)
  split
  · exact (prepareEntity_num_of_notMem hnotMem).trans (h rest)
  · rw [commitEntity_num_of_notMem (brace_not_entityIntKey _ _ rest),
      prepareEntity_num_of_notMem hnotMem]
    exact h rest

/-- A round of the worker leaves the keys in braces alone. -/
theorem syncAll_bracesKept (s : SyncState) (campaignScan customerScan : List (String × String)) :
    (s.syncAll parse rowLocked threshold campaignScan customerScan).BracesKept s.redis := by
  have hcoll : (s.collectCampaignRollup parse campaignScan).BracesKept s.redis :=
    List.foldlRecOn _ _ (fun _ => rfl) fun _ ht member _ => ht.stage member.1 member.2
  have hflush : ((s.collectCampaignRollup parse campaignScan).flushCampaignRollup rowLocked
      threshold).BracesKept s.redis := by
    apply flushCampaignRollup_induction
    · exact hcoll
    · intro t chunk _ ht
      refine @flushChunk_induction rowLocked threshold _ (fun _ => True) t chunk ?_ ?_ ?_ ?_
      · exact fun _ _ => trivial
      · exact ht
      · exact fun _ _ _ => ht
      · exact fun t outcome e _ ht => ht.finish outcome e.1 e.2
  exact List.foldlRecOn _ _ hflush fun _ ht member _ => ht.customer member.1 member.2

end

section

/-- The worker's counters of a campaign are empty under every text of its id, its rollup has no entry of
it, and it has spent `spend`. -/
structure Idle (parse : String → Option UUID) (id : UUID) (spend : Option ℤ) (s : SyncState) : Prop where
  sync : ∀ idStr, parse idStr = some id → s.redis.count (budgetEntityKeys "campaign" idStr).syncKey = 0
  inFlight : ∀ idStr, parse idStr = some id →
    s.redis.count (budgetEntityKeys "campaign" idStr).inFlightKey = 0
  rollup : ∀ e ∈ s.rollup, e.1 ≠ id ∧ parse e.2.idStr = some e.1
  spend_eq : (s.pg.campaigns.get? id).map CampaignRow.currentSpend = spend

variable {id : UUID} {spend : Option ℤ}

section

variable (h : s.Idle parse id spend)
include h

/-- Only the integer keys of the campaign, its spend and the entries matter. -/
theorem Idle.of_num {t : SyncState}
    (hnum : ∀ idStr, parse idStr = some id → ∀ key ∈ entityIntKeys "campaign" idStr,
      t.redis.num key = s.redis.num key)
    (hrollup : ∀ e ∈ t.rollup, e.1 ≠ id ∧ parse e.2.idStr = some e.1)
    (hspend : (t.pg.campaigns.get? id).map CampaignRow.currentSpend =
      (s.pg.campaigns.get? id).map CampaignRow.currentSpend) : t.Idle parse id spend := by
  refine ⟨?_, ?_, hrollup, hspend.trans h.spend_eq⟩
  · intro idStr hparse
    rw [Redis.count, hnum idStr hparse _ (by simp [entityIntKeys])]
    exact h.sync idStr hparse
  · intro idStr hparse
    rw [Redis.count, hnum idStr hparse _ (by simp [entityIntKeys])]
    exact h.inFlight idStr hparse

/-- Preparing a campaign without work yields no entry and leaves its counters empty. -/
theorem Idle.prepare {idStr : String} (hparse : parse idStr = some id) (newTxID : String) :
    (prepareEntity "campaign" idStr id newTxID s.redis).1 = none ∧
      ({ s with redis := (prepareEntity "campaign" idStr id newTxID s.redis).2 } : SyncState).Idle
        parse id spend := by
  have hsync := h.sync idStr hparse
  have hflight := h.inFlight idStr hparse
  have hkeys := budgetEntityKeys_distinct "campaign" idStr
  have hredis := (prepareEntity_redis "campaign" idStr id newTxID s.redis).1
  have hcount : (prepareEntity "campaign" idStr id newTxID s.redis).2.count
        (budgetEntityKeys "campaign" idStr).syncKey = 0 ∧
      (prepareEntity "campaign" idStr id newTxID s.redis).2.count
        (budgetEntityKeys "campaign" idStr).inFlightKey = 0 := by
    rw [Redis.count, Redis.count, hredis, ← Redis.count, ← Redis.count]
    cases hlock : s.redis.num (budgetEntityKeys "campaign" idStr).lockKey with
    | some v =>
      rw [prepareSyncScript_locked newTxID (by rw [hlock]; rfl)]
      exact ⟨hsync, hflight⟩
    | none =>
      obtain ⟨hsync', hflight', -, -⟩ :=
        prepareSyncScript_spec hkeys newTxID hlock hsync.ge hflight.ge
      rw [hflight', hsync, hflight, add_zero]
      exact ⟨hsync', rfl⟩
  have hkept {other : String} (heq : other ≠ idStr) {key : String}
      (hkey : key ∈ entityIntKeys "campaign" other) :
      (prepareEntity "campaign" idStr id newTxID s.redis).2.count key = s.redis.count key :=
    congrArg (·.getD 0) (prepareEntity_num_of_notMem (entityIntKeys_disjoint_of_ne heq hkey))
  refine ⟨Option.eq_none_iff_forall_ne_some.mpr ?_, ?_, ?_, h.rollup, h.spend_eq⟩
  · intro entry hentry
    have htotal := (prepareEntity_eq_some hentry).2.1
    omega
  · intro other hother
    by_cases heq : other = idStr
    · rw [heq]
      exact hcount.1
    · exact (hkept heq (by simp [entityIntKeys])).trans (h.sync other hother)
  · intro other hother
    by_cases heq : other = idStr
    · rw [heq]
      exact hcount.2
    · exact (hkept heq (by simp [entityIntKeys])).trans (h.inFlight other hother)

/-- Collecting any campaign keeps an idle one idle. -/
theorem Idle.stage (idStr newTxID : String) :
    (s.stageCampaignRollup parse idStr newTxID).Idle parse id spend := by
  unfold stageCampaignRollup
  cases hparse : parse idStr with
  | none => exact h
  | some other =>
    dsimp only
    by_cases hother : other = id
    · subst hother
      obtain ⟨hnone, hidle⟩ := h.prepare hparse newTxID
      rw [hnone]
      exact hidle
    have hnum : ∀ text, parse text = some id → ∀ key ∈ entityIntKeys "campaign" text,
        (prepareEntity "campaign" idStr other newTxID s.redis).2.num key = s.redis.num key := by
      intro text htext key hkey
      have hne : text ≠ idStr := by
        rintro rfl
        exact hother (Option.some.inj (hparse.symm.trans htext))
      exact prepareEntity_num_of_notMem (entityIntKeys_disjoint_of_ne hne hkey)
    split
    · exact h.of_num hnum h.rollup rfl
    rename_i entry hentry
    refine h.of_num hnum ?_ rfl
    intro e he
    rcases mem_cons.mp he with rfl | hold
    · refine ⟨hother, ?_⟩
      rw [(prepareEntity_eq_some hentry).2.2.2.2]
      exact hparse
    · exact h.rollup e (mem_of_mem_filter hold)

/-- Finishing an entry of another campaign keeps an idle one idle. -/
theorem Idle.finish (outcome : Option SpendFlushError) {e : UUID × PendingRollup}
    (he : e.1 ≠ id ∧ parse e.2.idStr = some e.1) :
    (s.finishEntry outcome e.1 e.2).Idle parse id spend := by
  have hrollup : ∀ e' ∈ (e.1, e.2) :: s.rollup, e'.1 ≠ id ∧ parse e'.2.idStr = some e'.1 := by
    intro e' he'
    rcases mem_cons.mp he' with rfl | hold
    · exact he
    · exact h.rollup e' hold
  unfold finishEntry
  split
  · refine h.of_num ?_ h.rollup rfl
    intro text htext key hkey
    have hne : text ≠ e.2.idStr := by
      rintro rfl
      exact he.1 (Option.some.inj (he.2.symm.trans htext))
    exact commitEntity_num_of_notMem (entityIntKeys_disjoint_of_ne hne hkey)
  · refine h.of_num (fun _ _ _ _ => rfl) hrollup ?_
    simp only [Pg.updateCampaignStatus]
    rw [Table.get?_modify_of_ne _ _ he.1.symm]
  · exact h.of_num (fun _ _ _ _ => rfl) hrollup rfl

end

/-- A batch without an item of the campaign leaves its row alone. -/
theorem updateSpendBatch_campaign {items : List SpendFlushItem} {pg pg' : Pg}
    {outcomes : List (Option SpendFlushError)} (hitems : ∀ item ∈ items, item.campaignID ≠ id)
    (h : updateSpendBatch rowLocked items pg = some (outcomes, pg')) :
    pg'.campaigns.get? id = pg.campaigns.get? id := by
  induction items generalizing pg outcomes with
  | nil =>
    cases h
    rfl
  | cons item rest ih =>
    have hrest : ∀ other ∈ rest, other.campaignID ≠ id :=
      fun other hother => hitems other (mem_cons_of_mem item hother)
    unfold updateSpendBatch at h
    split at h
    · rename_i applied happly
      obtain ⟨out, hout, heq⟩ := Option.map_eq_some_iff.mp h
      cases heq
      rw [ih hrest hout]
      rcases applySpendFlush_eq_ok happly with ⟨-, rfl⟩ | hflush
      · rfl
      · rw [hflush.campaigns]
        exact Table.get?_modify_of_ne _ _ (hitems item mem_cons_self).symm
    · cases h
    · obtain ⟨out, hout, heq⟩ := Option.map_eq_some_iff.mp h
      cases heq
      exact ih hrest hout

/-- Settling a customer keeps an idle campaign idle. -/
theorem Idle.customer (h : s.Idle parse id spend) (idStr newTxID : String) :
    (s.syncCustomer parse idStr newTxID).Idle parse id spend := by
  have hprep : ∀ other text, ∀ key ∈ entityIntKeys "campaign" text,
      (prepareEntity "customer" idStr other newTxID s.redis).2.num key = s.redis.num key :=
    fun _ _ _ hkey => prepareEntity_num_of_notMem (campaign_disjoint_customer hkey)
  unfold syncCustomer
  split
  · exact h
  rename_i other _
  dsimp only
  split
  · exact h.of_num (fun text _ => hprep other text) h.rollup rfl
  split
  · exact h.of_num (fun text _ => hprep other text) h.rollup rfl
  rename_i pg hbal
  refine h.of_num ?_ h.rollup (by rw [updateBalance_campaigns hbal])
  intro text _ key hkey
  rw [commitEntity_num_of_notMem (campaign_disjoint_customer hkey)]
  exact hprep other text key hkey

/-- A round of the worker keeps an idle campaign idle, and its spend as it is. -/
theorem syncAll_idle (h : s.Idle parse id spend) (campaignScan customerScan : List (String × String)) :
    (s.syncAll parse rowLocked threshold campaignScan customerScan).Idle parse id spend := by
  have hcoll : (s.collectCampaignRollup parse campaignScan).Idle parse id spend :=
    List.foldlRecOn _ _ h fun _ ht member _ => ht.stage member.1 member.2
  have hflush : ((s.collectCampaignRollup parse campaignScan).flushCampaignRollup rowLocked
      threshold).Idle parse id spend := by
    apply flushCampaignRollup_induction
    · exact hcoll.of_num (fun _ _ _ _ => rfl) (fun _ he => absurd he (not_mem_nil)) rfl
    · intro t chunk hchunk ht
      have hgood := fun e he => hcoll.rollup e (hchunk e he)
      refine @flushChunk_induction rowLocked threshold _
        (fun e => e.1 ≠ id ∧ parse e.2.idStr = some e.1) t chunk hgood ?_ ?_ ?_
      · refine ht.of_num (fun _ _ _ _ => rfl) ?_ rfl
        intro e he
        exact (mem_append.mp he).elim (hgood e) (ht.rollup e)
      · intro outcomes pg hbatch
        refine ht.of_num (fun _ _ _ _ => rfl) ht.rollup ?_
        rw [updateSpendBatch_campaign _ hbatch]
        intro item hitem
        obtain ⟨e, he, rfl⟩ := mem_map.mp hitem
        exact (hgood e he).1
      · exact fun t outcome e he ht => ht.finish outcome he
  exact List.foldlRecOn _ _ hflush fun _ ht member _ => ht.customer member.1 member.2

end

end SyncState

end Espx.Domain
