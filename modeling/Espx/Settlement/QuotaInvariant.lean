import Espx.Settlement.QuotaSystem
import Espx.Settlement.ShardStep
import Mathlib.Algebra.Order.BigOperators.Group.Finset

/-!
# What each step does to quota and reservation

The credit in Redis, the spend that Postgres does not know yet and the chunks that managers are about to
credit are covered by the reservation, with some slack: a reservation adds a chunk to the slack, and a
credit or a release uses it up.
-/

namespace Espx.Settlement

open Espx.Foundation Espx.Domain Espx.Ingestion Espx.ControlPlane SettlementState Function

namespace SettlementState

variable {W : Type*} {id : UUID} {base : ℤ} {s : SettlementState W}

/-- Spend that has not reached Postgres. -/
def outstanding (id : UUID) (s : SettlementState W) : ℤ :=
  s.inFlight id + s.sync id - s.halfDone id

/-- It is never negative. -/
theorem Inv.outstanding_nonneg (h : Inv id base s) : 0 ≤ s.outstanding id := by
  have hsync := h.sync_nonneg
  have hflight := h.inFlight_nonneg
  have hhalf : s.halfDone id ≤ s.inFlight id := by
    unfold halfDone
    cases htx : s.tx id with
    | none => exact hflight
    | some txID =>
      dsimp only
      split
      · rename_i hmem
        exact (h.half_covered txID htx hmem).1
      · exact hflight
  unfold outstanding
  omega

theorem Inv.outstanding_eq (h : Inv id base s) : s.outstanding id = base + s.accepted - s.spend id := by
  have htotal := h.total
  unfold outstanding
  omega

/-- Writes to other keys than the worker's keep the settlement invariant. -/
theorem Inv.of_redis (h : Inv id base s) {r : Redis}
    (hnum : ∀ key ∈ entityIntKeys "campaign" (uuidString id), r.num key = s.redis.num key)
    (htext : r.text = s.redis.text) : Inv id base { s with redis := r } := by
  have hcount : ∀ key ∈ entityIntKeys "campaign" (uuidString id), r.count key = s.redis.count key :=
    fun key hkey => congrArg (·.getD 0) (hnum key hkey)
  have hsync := hcount (campaignKeys id).syncKey List.mem_cons_self
  have hflight := hcount (campaignKeys id).inFlightKey (List.mem_cons_of_mem _ List.mem_cons_self)
  exact h.of_same hsync hflight (congrFun htext _) rfl rfl rfl (Finset.Subset.refl _) h.issued_nonempty

end SettlementState

/-- The chunk that a manager has reserved and not credited yet. -/
def QuotaStage.owed (qm : QuotaManager) : QuotaStage → ℤ
  | .idle => 0
  | .warming => 0
  | .crediting _ => qm.chunkSize
  | .releasing _ => qm.chunkSize

/-- What all managers together have reserved and not credited yet. -/
def pendingOf {k : ℕ} (qm : QuotaManager) (managers : Fin k → QuotaStage) : ℤ :=
  ∑ m, (managers m).owed qm

/-- What is pending when one manager goes on to another stage. -/
theorem pendingOf_update {k : ℕ} (qm : QuotaManager) (managers : Fin k → QuotaStage) (m : Fin k)
    (stage : QuotaStage) : pendingOf qm (update managers m stage) =
      pendingOf qm managers + (stage.owed qm - (managers m).owed qm) := by
  have hchg := @sum_of_single_change _ _ _ _ _
    (fun n => (update managers m stage n).owed qm) (fun n => (managers n).owed qm) m
    (fun n hn => by rw [update_of_ne hn])
  rw [update_self] at hchg
  exact hchg

theorem QuotaStage.owed_nonneg (qm : QuotaManager) (stage : QuotaStage) : 0 ≤ stage.owed qm := by
  have hpos := qm.chunkSize_pos
  cases stage with
  | idle | warming => exact le_rfl
  | crediting warm | releasing warm => exact hpos.le

theorem pendingOf_nonneg {k : ℕ} (qm : QuotaManager) (managers : Fin k → QuotaStage) :
    0 ≤ pendingOf qm managers := by
  apply Finset.sum_nonneg
  intro m _
  exact QuotaStage.owed_nonneg qm (managers m)

namespace QuotaState

variable {k : ℕ} {W : Type*} {qm : QuotaManager} {id : UUID} {s : QuotaState k W} {slack : ℤ}

/-- The credit in Redis, the spend that has not reached Postgres and the chunks still to be credited are
reserved, with `slack` to spare, within the budget. -/
structure Backed (qm : QuotaManager) (id : UUID) (slack : ℤ) (s : QuotaState k W) : Prop where
  settled : ∃ base, s.toSettlementState.Inv id base
  init_issued : quotaIdempotencyID (initQuotaKey id) ∈ s.issued
  tx_ne_init : s.tx id ≠ some (quotaIdempotencyID (initQuotaKey id))
  quota_nonneg : 0 ≤ s.quota id
  backed : s.quota id + s.outstanding id + pendingOf qm s.managers + slack ≤ s.reserved id
  limited : s.spend id + s.reserved id ≤ s.limit id

/-- Redis has changed in the manager's keys only. -/
structure ManagerWrote (id : UUID) (r r' : Redis) : Prop where
  worker : ∀ key ∈ entityIntKeys "campaign" (uuidString id), r'.num key = r.num key
  text : r'.text = r.text

section

variable (h : Backed qm id slack s)
include h

/-- What managers do in Redis keeps the credit backed, if it is paid for. -/
theorem Backed.manager {r : Redis} {managers : Fin k → QuotaStage}
    {slack' : ℤ} (hwrote : ManagerWrote id s.redis r) (hquota : 0 ≤ r.count (quotaKey id))
    (hpaid : r.count (quotaKey id) + pendingOf qm managers + slack' ≤
      s.quota id + pendingOf qm s.managers + slack) :
    Backed qm id slack' { s with redis := r, managers := managers } := by
  obtain ⟨base, hinv⟩ := h.settled
  have hinv' := hinv.of_redis hwrote.worker hwrote.text
  have hoperations : ({ s.toSettlementState with redis := r } : SettlementState W).outstanding id =
      s.outstanding id := by
    rw [hinv'.outstanding_eq, hinv.outstanding_eq]
    rfl
  have hbacked := h.backed
  refine ⟨⟨base, hinv'⟩, h.init_issued, ?_, hquota, ?_, h.limited⟩
  · change r.text (campaignKeys id).txKey ≠ _
    rw [hwrote.text]
    exact h.tx_ne_init
  · change r.count (quotaKey id) + ({ s.toSettlementState with redis := r } :
      SettlementState W).outstanding id + pendingOf qm managers + slack' ≤ s.reserved id
    omega

/-- A reservation is credit to spare. -/
theorem Backed.reserve {key : String} {pg : Pg} (hres : Reserved id qm.chunkSize key s.pg pg)
    (htx : s.tx id ≠ some (quotaIdempotencyID key)) :
    Backed qm id (slack + qm.chunkSize) (s.reserve pg key) := by
  obtain ⟨base, hinv⟩ := h.settled
  have hagree : SettlementState.AgreeExcept (some (quotaIdempotencyID key)) s.pg pg := by
    refine ⟨?_, ?_, ?_⟩
    · intro txID hne
      rw [hres.syncIdempotency, Finset.mem_insert]
      exact or_iff_right fun heq => hne (congrArg some heq.symm)
    · intro txID _
      simp only [Pg.settledAmount, Pg.ledgerByHash, hres.ledger]
    · intro other
      rw [hres.campaigns]
  have hissue : s.issued ⊆ insert (quotaIdempotencyID key) s.issued := Finset.subset_insert _ _
  have happ : pg.syncIdempotency ⊆ insert (quotaIdempotencyID key) s.issued := by
    rw [hres.syncIdempotency]
    exact Finset.insert_subset_insert _ hinv.applied_issued
  have hnonempty : "" ∉ insert (quotaIdempotencyID key) s.issued := by
    rw [Finset.mem_insert, not_or]
    refine ⟨?_, hinv.issued_nonempty⟩
    intro hempty
    have hlen := congrArg (fun text => text.toList.length) hempty
    simp [quotaIdempotencyID] at hlen
  obtain ⟨hhalf, b, hinv'⟩ := @SettlementState.Inv.of_agree _ _ _ _ hinv _ _ s.accepted _ hagree
    (fun txID hstored heq => htx (hstored.trans heq.symm)) happ hissue hnonempty
  have hopen : (s.reserve pg key).outstanding id = s.outstanding id := by
    exact congrArg (s.inFlight id + s.sync id - ·) hhalf
  have hreservedEq : (s.reserve pg key).reserved id = s.reserved id + qm.chunkSize := hres.reserved
  have hspend : (s.reserve pg key).spend id = s.spend id := by
    change ((pg.campaigns.get? id).map CampaignRow.currentSpend).getD 0 = _
    rw [hres.campaigns]
    rfl
  have hlimit : (s.reserve pg key).limit id = s.limit id := by
    change ((pg.campaigns.get? id).map CampaignRow.budgetLimit).getD 0 = _
    rw [hres.campaigns]
    rfl
  have hbacked := h.backed
  refine ⟨⟨b, hinv'⟩, hissue h.init_issued, h.tx_ne_init, h.quota_nonneg, ?_, ?_⟩
  · rw [hopen, hreservedEq]
    change s.quota id + s.outstanding id + pendingOf qm s.managers + (slack + qm.chunkSize) ≤ _
    omega
  · obtain ⟨row, hrow, hcover⟩ := hres.covered
    rw [hspend, hlimit, hreservedEq, spend, limit, hrow]
    change row.currentSpend + (reservedAmount id s.pg + qm.chunkSize) ≤ row.budgetLimit
    omega

theorem Backed.mono {slack' : ℤ} (hle : slack' ≤ slack) : Backed qm id slack' s := by
  have hbacked := h.backed
  exact { h with backed := by omega }

/-- A release takes a chunk from what is to spare. -/
theorem Backed.release {pg : Pg} (hpg : ChunkReleased id qm.chunkSize s.pg pg) :
    Backed qm id (slack - qm.chunkSize) { s with pg := pg } := by
  have hpos := qm.chunkSize_pos
  obtain ⟨base, hinv⟩ := h.settled
  have hbacked := h.backed
  have hlim := h.limited
  rcases hpg with rfl | ⟨hres, quotas, rfl⟩
  · exact h.mono (by omega)
  have hinv' : ({ s.toSettlementState with pg := { s.pg with campaignQuotas := quotas } } :
      SettlementState W).Inv id base :=
    { hinv with holds := fun w entry hw => { hinv.holds w entry hw with } }
  refine ⟨⟨base, hinv'⟩, h.init_issued, h.tx_ne_init, h.quota_nonneg, ?_, ?_⟩
  · change s.quota id + s.outstanding id + pendingOf qm s.managers + (slack - qm.chunkSize) ≤
      reservedAmount id { s.pg with campaignQuotas := quotas }
    rw [hres]
    change _ ≤ s.reserved id - qm.chunkSize
    omega
  · change s.spend id + reservedAmount id { s.pg with campaignQuotas := quotas } ≤ s.limit id
    rw [hres]
    change s.spend id + (s.reserved id - qm.chunkSize) ≤ _
    omega

end

section

variable [DecidableEq W] {customerID : UUID} {threshold : ℤ}

/-- What a step of a worker does in Postgres: nothing to the money, or a settlement that takes its amount
from the reservation. -/
theorem worker_pg {t : SettlementState W} {base : ℤ} (h : t.Inv id base) (a : SettlementAction W) :
    let next := t.step id customerID threshold a
    (next.spend id = t.spend id ∧ reservedAmount id next.pg = reservedAmount id t.pg) ∨
      ∃ amount : ℤ, 0 < amount ∧ next.spend id = t.spend id + amount ∧
        reservedAmount id next.pg = max 0 (reservedAmount id t.pg - amount) := by
  have hsame {next : SettlementState W} (hpg : next.pg = t.pg) :
      next.spend id = t.spend id ∧ reservedAmount id next.pg = reservedAmount id t.pg := by
    rw [spend, hpg]
    exact ⟨rfl, rfl⟩
  cases a with
  | debit slot amount =>
    apply Or.inl
    apply hsame
    simp only [SettlementState.step]
    split <;> rfl
  | prepare w newTxID delivered =>
    apply Or.inl
    apply hsame
    rcases t.prepare_cases w newTxID delivered with hkept | ⟨-, -, hpg, -, -⟩
    · rw [SettlementState.step, hkept]
    · exact hpg
  | flush w rowLocked reply =>
    obtain ⟨-, -, -, hpg | hpg | ⟨entry, hstage, hflush⟩⟩ := t.flush_frame w rowLocked reply
    · exact Or.inl (hsame hpg)
    · apply Or.inl
      rw [SettlementState.step, spend, hpg]
      refine ⟨?_, rfl⟩
      simp only [Pg.updateCampaignStatus, Table.get?_modify_self, Option.map_map]
      rfl
    have hentry := h.holds w entry (Or.inl hstage)
    obtain ⟨row, customer, legs, hrow, -⟩ := hflush.covered
    obtain ⟨row', hrow', hspent⟩ := hflush.campaign hrow
    change t.pg.campaigns.get? id = some row at hrow
    refine .inr ⟨entry.amountMicro, hentry.pos, ?_, ?_⟩
    · change (t.flush id threshold w rowLocked reply).pg.campaigns.get? id = some row' at hrow'
      rw [SettlementState.step, spend, hrow', spend, hrow]
      exact hspent
    · rw [SettlementState.step, reservedAmount, hflush.campaignQuotas]
      simp only [Pg.decreaseCampaignQuotaReserved, flushItem, Table.get?_modify_self, reservedAmount]
      cases t.pg.campaignQuotas.get? (quotaShard id, id) with
      | none =>
        have hpos := hentry.pos
        simp only [Option.map_none, Option.getD_none]
        omega
      | some reserved => rfl
  | commit w delivered => exact .inl (hsame (t.commit_cases w delivered).1)
  | lockExpiry | crash w => exact .inl (hsame rfl)

/-- A step of a worker keeps the credit backed. -/
theorem Backed.worker (h : Backed qm id 0 s) {a : SettlementAction W}
    (hfresh : s.Fresh a) (hsafe : s.SafePrepare id a) :
    Backed qm id 0 (s.workerStep id customerID threshold a) := by
  by_cases hdebit : ∃ slot amount, a = .debit slot amount
  · obtain ⟨slot, amount, rfl⟩ := hdebit
    exact h
  have hdebit' : ∀ slot amount, a ≠ .debit slot amount := fun slot amount heq =>
    hdebit ⟨slot, amount, heq⟩
  obtain ⟨base, hinv⟩ := h.settled
  obtain ⟨hacc, hkeys⟩ := @step_num_of_notMem _ id customerID threshold _ s.toSettlementState a hdebit'
  have hnum := hkeys (quotaKey id) fun idStr => (quotaKey_notMem id idStr).1
  have hmoved := @worker_pg _ id _ customerID threshold _ _ hinv a
  set next := s.toSettlementState.step id customerID threshold a
  have hstep : s.workerStep id customerID threshold a = { s with toSettlementState := next } := by
    cases a with
    | debit slot amount => exact absurd rfl (hdebit' slot amount)
    | _ => rfl
  have hinv' : next.Inv id base := step_inv a ⟨hfresh, hsafe⟩ hinv
  have hquota : ({ s with toSettlementState := next } : QuotaState k W).quota id = s.quota id :=
    congrArg (·.getD 0) hnum
  have hlimit : ({ s with toSettlementState := next } : QuotaState k W).limit id = s.limit id :=
    congrArg (·.getD 0) ((step_agreeExcept hinv a).limit id)
  have hnn := hinv'.outstanding_nonneg
  have hpre := hinv.outstanding_eq
  have hafter := hinv'.outstanding_eq
  have hquotaNonneg := h.quota_nonneg
  have hpend := pendingOf_nonneg qm s.managers
  have hbacked := h.backed
  have hlim := h.limited
  rw [hstep]
  refine ⟨⟨base, hinv'⟩, step_issued _ a h.init_issued, ?_, ?_, ?_, ?_⟩
  · intro htx
    rcases step_tx hinv hfresh htx with hold | hnew
    · exact h.tx_ne_init hold
    · exact hnew h.init_issued
  · rw [hquota]
    exact hquotaNonneg
  · rw [hquota]
    change s.quota id + next.outstanding id + pendingOf qm s.managers + 0 ≤ reservedAmount id next.pg
    change _ ≤ reservedAmount id s.pg at hbacked
    rcases hmoved with ⟨hspend, hres⟩ | ⟨amount, hpos, hspend, hres⟩ <;> omega
  · change next.spend id + reservedAmount id next.pg ≤ _
    change _ ≤ reservedAmount id s.pg at hbacked
    change _ + reservedAmount id s.pg ≤ _ at hlim
    rcases hmoved with ⟨hspend, hres⟩ | ⟨amount, hpos, hspend, hres⟩ <;> omega

omit [DecidableEq W] in
/-- A debit moves credit to the sync counter. -/
theorem Backed.debit (h : Backed qm id 0 s) {amount : ℕ} {r : Redis}
    (hacc : acceptQuotaDebit id customerID amount s.redis = some r) :
    Backed qm id 0 { s with redis := r, accepted := s.accepted + amount } := by
  obtain ⟨hcover, hquota, hsync, hflight, htext⟩ := acceptQuotaDebit_counts id hacc
  obtain ⟨base, hinv⟩ := h.settled
  have hinv' := hinv.debited hsync hflight htext
  have hpre := hinv.outstanding_eq
  have hafter : SettlementState.outstanding id ({ s with
      redis := r, accepted := s.accepted + amount } : QuotaState k W).toSettlementState =
        base + (s.accepted + amount) - s.spend id := hinv'.outstanding_eq
  have hbacked := h.backed
  change s.redis.count (quotaKey id) + _ + _ + _ ≤ _ at hbacked
  refine ⟨⟨base, hinv'⟩, h.init_issued, ?_, ?_, ?_, h.limited⟩
  · change r.text (campaignKeys id).txKey ≠ _
    rw [htext]
    exact h.tx_ne_init
  · change 0 ≤ r.count (quotaKey id)
    omega
  · rw [hafter]
    change r.count (quotaKey id) + (base + (s.accepted + amount) - s.spend id) +
      pendingOf qm s.managers + 0 ≤ s.reserved id
    omega

end

/-- Writes to the keys of the manager. -/
theorem ManagerWrote.of_num {r r' : Redis} (htext : r'.text = r.text)
    (hnum : ∀ key, key ≠ quotaKey id → key ≠ refillLockKey id → r'.num key = r.num key) :
    ManagerWrote id r r' := by
  refine ⟨?_, htext⟩
  intro key hkey
  apply hnum key
  · rintro rfl
    exact (quotaKey_notMem id _).1 hkey
  · rintro rfl
    exact (quotaKey_notMem id _).2 hkey

/-- Giving up the lock of a refill. -/
theorem managerWrote_unlock (r : Redis) : ManagerWrote id r (r.delNum (refillLockKey id)) ∧
    (r.delNum (refillLockKey id)).count (quotaKey id) = r.count (quotaKey id) :=
  ⟨.of_num rfl fun _ _ hlock => Redis.delNum_num_of_ne _ hlock,
    Redis.delNum_count_of_ne _ (quotaKey_ne_refillLockKey id)⟩

/-- Asking for a refill. -/
theorem managerWrote_requeue (r : Redis) : ManagerWrote id r (requeue id r) ∧
    (requeue id r).count (quotaKey id) = r.count (quotaKey id) :=
  ⟨.of_num rfl fun _ _ hlock => Redis.setNum_num_of_ne r 1 hlock,
    Redis.setNum_count_of_ne r 1 (quotaKey_ne_refillLockKey id)⟩

/-- Crediting a chunk. -/
theorem managerWrote_credit (qm : QuotaManager) (r : Redis) :
    ManagerWrote id r (r.incrBy (quotaKey id) qm.chunkSize) ∧
      (r.incrBy (quotaKey id) qm.chunkSize).count (quotaKey id) = r.count (quotaKey id) + qm.chunkSize :=
  ⟨.of_num rfl fun _ hquota _ => Redis.incrBy_num_of_ne _ _ hquota, Redis.incrBy_count_self ..⟩

theorem ManagerWrote.trans {r r' r'' : Redis} (h : ManagerWrote id r r') (h' : ManagerWrote id r' r'') :
    ManagerWrote id r r'' :=
  ⟨fun key hkey => (h'.worker key hkey).trans (h.worker key hkey), h'.text.trans h.text⟩

/-- A reservation that was applied before changes nothing; a new one is credit to spare. -/
theorem Backed.reserveChunk (h : Backed qm id 0 s) {key : String} {applied : Bool} {pg : Pg}
    (hok : ControlPlane.reserveChunk id qm.chunkSize key s.pg = .ok (applied, pg))
    (htx : s.tx id ≠ some (quotaIdempotencyID key)) :
    Backed qm id 0 (s.reserve pg key) ∧
      (quotaIdempotencyID key ∉ s.pg.syncIdempotency → applied = false ∧
        Backed qm id qm.chunkSize (s.reserve pg key)) := by
  have hpos := qm.chunkSize_pos
  rcases reserveChunk_eq_ok hok with ⟨-, hmem, rfl⟩ | ⟨happ, hres⟩
  · obtain ⟨base, hinv⟩ := h.settled
    have hsame : s.reserve s.pg key = s := by
      unfold QuotaState.reserve
      rw [Finset.insert_eq_of_mem (hinv.applied_issued hmem)]
    rw [hsame]
    exact ⟨h, fun hnot => absurd hmem hnot⟩
  · have hspare := h.reserve hres htx
    rw [zero_add] at hspare
    exact ⟨hspare.mono hpos.le, fun _ => ⟨happ, hspare⟩⟩

/-- Writes of a manager that leave the quota key alone. -/
theorem Backed.kept (h : Backed qm id slack s) {r : Redis} {managers : Fin k → QuotaStage}
    {slack' : ℤ} (hwrote : ManagerWrote id s.redis r)
    (hquota : r.count (quotaKey id) = s.redis.count (quotaKey id))
    (hpaid : pendingOf qm managers + slack' ≤ pendingOf qm s.managers + slack) :
    Backed qm id slack' { s with redis := r, managers := managers } := by
  have hnn := h.quota_nonneg
  change 0 ≤ s.redis.count (quotaKey id) at hnn
  apply h.manager hwrote
  · omega
  · change r.count (quotaKey id) + _ + _ ≤ s.redis.count (quotaKey id) + _ + _
    omega

section

variable (h : Backed qm id 0 s)
include h

/-- `refillCampaign` up to its reservation, with a key that is new. -/
theorem Backed.refill (m : Fin k) {newKey : String} (reply : Reply)
    (hfresh : quotaIdempotencyID newKey ∉ s.issued) : Backed qm id 0 (s.refill qm id m newKey reply) := by
  obtain ⟨base, hinv⟩ := h.settled
  have htx : s.tx id ≠ some (quotaIdempotencyID newKey) := fun htx => hfresh (hinv.tx_issued _ htx)
  have hnew : quotaIdempotencyID newKey ∉ s.pg.syncIdempotency :=
    fun hmem => hfresh (hinv.applied_issued hmem)
  obtain ⟨hfree, hunlockQuota⟩ := @managerWrote_unlock id s.redis
  obtain ⟨hreq, hrequeueQuota⟩ := @managerWrote_requeue id (s.redis.delNum (refillLockKey id))
  have hback := hfree.trans hreq
  have hbackQuota := hrequeueQuota.trans hunlockQuota
  unfold QuotaState.refill
  split
  · rename_i hidle _
    split
    · exact h.kept hfree hunlockQuota le_rfl
    · exact h.kept hback hbackQuota le_rfl
    · exact h.kept hback hbackQuota le_rfl
    · rename_i applied pg hok
      exact (h.reserveChunk hok htx).1.kept hback hbackQuota le_rfl
    · rename_i applied pg hok
      obtain ⟨happ, hspare⟩ := (h.reserveChunk hok htx).2 hnew
      apply hspare.kept hfree hunlockQuota
      have hpos := qm.chunkSize_pos
      have hupd := pendingOf_update qm s.managers m (.crediting false)
      rw [hidle] at hupd
      change pendingOf qm _ = _ + (qm.chunkSize - 0) at hupd
      change _ ≤ pendingOf qm s.managers + _
      split <;> omega
  · exact h

/-- `warmActiveCampaignQuotas` up to its lock. -/
theorem Backed.warm (m : Fin k) : Backed qm id 0 (s.warm qm id m) := by
  unfold QuotaState.warm
  split
  · rename_i hidle
    split
    · have hupd := pendingOf_update qm s.managers m .warming
      rw [hidle] at hupd
      change pendingOf qm _ = _ + (0 - 0) at hupd
      refine h.kept (.of_num rfl fun _ _ hlock => Redis.setNum_num_of_ne _ _ hlock)
        (Redis.setNum_count_of_ne _ _ (quotaKey_ne_refillLockKey id)) ?_
      omega
    · exact h
  · exact h

/-- The reservation of a first warm-up, or in shadow mode of any. -/
theorem Backed.warmReserve (m : Fin k) (reply : Reply)
    (hfirst : s.managers m = .warming → qm.shadow = true ∨
      quotaIdempotencyID (initQuotaKey id) ∉ s.pg.syncIdempotency) :
    Backed qm id 0 (s.warmReserve qm id m reply) := by
  obtain ⟨hfree, hunlockQuota⟩ := @managerWrote_unlock id s.redis
  unfold QuotaState.warmReserve
  split
  · rename_i hwarm
    have hupd : ∀ stage : QuotaStage, pendingOf qm (update s.managers m stage) =
        pendingOf qm s.managers + stage.owed qm := by
      intro stage
      rw [pendingOf_update, hwarm]
      change _ + (_ - 0) = _
      omega
    have hidle := (hupd .idle).trans (Int.add_zero _)
    split
    · exact h.kept hfree hunlockQuota (by omega)
    · exact h.kept hfree hunlockQuota (by omega)
    · rename_i applied pg hok
      exact (h.reserveChunk hok h.tx_ne_init).1.kept hfree hunlockQuota
        (by change _ ≤ pendingOf qm s.managers + 0; omega)
    rename_i applied pg hok
    split
    · exact (h.reserveChunk hok h.tx_ne_init).1.kept hfree hunlockQuota
        (by change _ ≤ pendingOf qm s.managers + 0; omega)
    rename_i hlive
    have hspare := ((h.reserveChunk hok h.tx_ne_init).2 ((hfirst hwarm).resolve_left hlive)).2
    have hcred := hupd (.crediting true)
    change pendingOf qm _ = _ + qm.chunkSize at hcred
    refine hspare.kept ⟨fun _ _ => rfl, rfl⟩ rfl ?_
    change _ ≤ pendingOf qm s.managers + _
    omega
  · exact h

/-- A credit whose error means that it was not executed. -/
theorem Backed.credit (m : Fin k) {reply : Reply}
    (hreply : ∀ warm, s.managers m = .crediting warm → reply ≠ .lost) :
    Backed qm id 0 (s.credit qm id m reply) := by
  have hpos := qm.chunkSize_pos
  have hnn := h.quota_nonneg
  obtain ⟨hcredit, hcreditQuota⟩ := @managerWrote_credit id qm s.redis
  obtain ⟨hfree, hunlockQuota⟩ := @managerWrote_unlock id (s.redis.incrBy (quotaKey id) qm.chunkSize)
  unfold QuotaState.credit
  split
  · rename_i warm hcred
    have hupd : ∀ stage : QuotaStage, pendingOf qm (update s.managers m stage) =
        pendingOf qm s.managers + (stage.owed qm - qm.chunkSize) := by
      intro stage
      rw [pendingOf_update, hcred]
      rfl
    cases reply with
    | received =>
      have hidle : pendingOf qm (update s.managers m .idle) =
          pendingOf qm s.managers + (0 - qm.chunkSize) := hupd .idle
      change 0 ≤ s.redis.count (quotaKey id) at hnn
      cases warm with
      | true =>
        refine h.manager (hcredit.trans hfree) ?_ ?_
        · rw [if_pos rfl, hunlockQuota]
          omega
        · rw [if_pos rfl, hunlockQuota, hcreditQuota, hidle]
          change _ ≤ s.redis.count (quotaKey id) + _ + _
          omega
      | false =>
        refine h.manager hcredit ?_ ?_
        · rw [if_neg Bool.false_ne_true]
          omega
        · rw [if_neg Bool.false_ne_true, hcreditQuota, hidle]
          change _ ≤ s.redis.count (quotaKey id) + _ + _
          omega
    | failed =>
      have hfreed : pendingOf qm (update s.managers m (.releasing warm)) =
          pendingOf qm s.managers + (qm.chunkSize - qm.chunkSize) := hupd (.releasing warm)
      exact h.kept ⟨fun _ _ => rfl, rfl⟩ rfl (by omega)
    | lost => exact absurd rfl (hreply warm hcred)
  · exact h

/-- The release of a chunk that was not credited. -/
theorem Backed.releaseChunk (m : Fin k) (reply : Reply) : Backed qm id 0 (s.release qm id m reply) := by
  unfold QuotaState.release
  split
  · rename_i warm hreleasing
    have hupd : pendingOf qm (update s.managers m .idle) =
        pendingOf qm s.managers + (0 - qm.chunkSize) := by
      rw [pendingOf_update, hreleasing]
      rfl
    have hpg : ChunkReleased id qm.chunkSize s.pg (if reply = .failed then s.pg else
        (ControlPlane.releaseChunk id qm.chunkSize s.pg).getD s.pg) := by
      split
      · exact .inl rfl
      · exact releaseChunk_getD id qm.chunkSize s.pg
    have hfreed := h.release hpg
    cases warm with
    | true =>
      obtain ⟨hfree, hunlockQuota⟩ := @managerWrote_unlock id s.redis
      refine hfreed.kept hfree hunlockQuota ?_
      change _ ≤ pendingOf qm s.managers + _
      omega
    | false =>
      obtain ⟨hreq, hrequeueQuota⟩ := @managerWrote_requeue id s.redis
      refine hfreed.kept hreq hrequeueQuota ?_
      change _ ≤ pendingOf qm s.managers + _
      omega
  · exact h

end

end QuotaState

end Espx.Settlement
