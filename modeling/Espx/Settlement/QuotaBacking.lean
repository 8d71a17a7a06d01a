import Espx.Settlement.ExactlyOnce
import Espx.Settlement.QuotaInvariant

/-!
# Quota credit and its reservations

What goes wrong is credit without a reservation: a second warm-up meets the idempotency key of the first
one and credits its chunk without asking, and an increment whose reply is lost is released all the same.
In runs without either, all credit is reserved.
-/

namespace Espx.Settlement

open Espx.Foundation Espx.Domain Espx.Ingestion Espx.ControlPlane

namespace QuotaState

variable {k : ℕ} {W : Type*} {qm : QuotaManager} {id : UUID} {s : QuotaState k W}

section

variable [DecidableEq W] {customerID : UUID} {threshold : ℤ}

/-- The condition on each step: keys are new, as `uuid.New` makes them; prepares are safe; a warm-up that
is going to credit a chunk is the first one; and no executed credit loses its reply. -/
def Safe (qm : QuotaManager) (id : UUID) (s : QuotaState k W) : QuotaAction k W → Prop
  | .worker a => s.toSettlementState.Fresh a ∧ s.toSettlementState.SafePrepare id a
  | .refill _ newKey _ => quotaIdempotencyID newKey ∉ s.issued
  | .warmReserve m _ => s.managers m = .warming → qm.shadow = true ∨
      quotaIdempotencyID (initQuotaKey id) ∉ s.pg.syncIdempotency
  | .credit m reply => ∀ warm, s.managers m = .crediting warm → reply ≠ .lost
  | _ => True

/-- A safe step keeps the credit backed. -/
theorem step_backed (a : QuotaAction k W) (ha : s.Safe qm id a) (h : Backed qm id 0 s) :
    Backed qm id 0 (s.step qm id customerID threshold a) := by
  cases a with
  | debit amount =>
    simp only [step]
    cases hacc : acceptQuotaDebit id customerID amount s.redis with
    | none => exact h
    | some r => exact h.debit hacc
  | worker a => exact h.worker ha.1 ha.2
  | requestRefill =>
    obtain ⟨hreq, hquota⟩ := @managerWrote_requeue id s.redis
    simp only [step]
    split
    · exact h.kept hreq hquota le_rfl
    · exact h
  | refillLockExpiry =>
    obtain ⟨hfree, hquota⟩ := @managerWrote_unlock id s.redis
    exact h.kept hfree hquota le_rfl
  | loseQuota =>
    have hnn := h.quota_nonneg
    have hlost : (s.redis.delNum (quotaKey id)).count (quotaKey id) = 0 := Redis.delNum_count_self ..
    refine h.manager (.of_num rfl fun _ hquota _ => Redis.delNum_num_of_ne _ hquota) hlost.ge ?_
    omega
  | refill m newKey reply => exact h.refill m reply ha
  | warm m => exact h.warm m
  | warmReserve m reply => exact h.warmReserve m reply ha
  | credit m reply => exact h.credit m ha
  | release m reply => exact h.releaseChunk m reply
  | managerCrash m =>
    refine h.kept ⟨fun _ _ => rfl, rfl⟩ rfl ?_
    have hupd : pendingOf qm (Function.update s.managers m .idle) =
        pendingOf qm s.managers + (0 - (s.managers m).owed qm) := pendingOf_update ..
    have hnn := QuotaStage.owed_nonneg qm (s.managers m)
    omega

/-- No step is in progress, all credit is reserved, and the reservation fits the budget. -/
structure Start (id : UUID) (s : QuotaState k W) : Prop where
  settlement : s.toSettlementState.Start id
  init_issued : quotaIdempotencyID (initQuotaKey id) ∈ s.issued
  idle : ∀ m, s.managers m = .idle
  quota_nonneg : 0 ≤ s.quota id
  backed : s.quota id + s.sync id + s.inFlight id ≤ s.reserved id
  limited : s.spend id + s.reserved id ≤ s.limit id

omit [DecidableEq W] in
/-- The invariant holds at the start. -/
theorem Start.inv (h : Start id s) : Backed qm id 0 s := by
  have hpend : pendingOf qm s.managers = 0 := by
    apply Finset.sum_eq_zero
    intro m _
    rw [h.idle m]
    rfl
  have hopen : s.outstanding id = s.inFlight id + s.sync id := by
    rw [SettlementState.outstanding, SettlementState.halfDone, h.settlement.tx, sub_zero]
  have hbacked := h.backed
  refine ⟨⟨_, h.settlement.inv⟩, h.init_issued, ?_, h.quota_nonneg, ?_, h.limited⟩
  · intro htx
    rw [h.settlement.tx] at htx
    cases htx
  · omega

end

end QuotaState

open QuotaState in
/-- In every run whose steps are safe, quota, sync and inflight counter are covered by the reservation in
every state without a half-done settlement, and by the reservation with its amount in any other; spend and
reservation stay within the budget. -/
theorem quota_backed_by_reservation {k : ℕ} {W : Type*} [DecidableEq W] (qm : QuotaManager)
    (id customerID : UUID) (threshold : ℤ) (s₀ : QuotaState k W) (hstart : Start id s₀)
    (actions : List (QuotaAction k W))
    (hrun : Admissible (fun s a => Safe qm id s a) (step qm id customerID threshold) s₀ actions) :
    let s := run (step qm id customerID threshold) s₀ actions
    (¬ s.HalfDone id → s.quota id + s.sync id + s.inFlight id ≤ s.reserved id) ∧
      s.quota id + s.sync id + s.inFlight id ≤ s.reserved id + s.halfDone id ∧
      s.spend id + s.reserved id ≤ s.limit id := by
  intro s
  have hbacked : Backed qm id 0 s :=
    hrun.invariant (fun t a ha h => step_backed a ha h) hstart.inv
  have hpend := pendingOf_nonneg qm s.managers
  have hcover : s.quota id + s.sync id + s.inFlight id ≤ s.reserved id + s.halfDone id := by
    have hle := hbacked.backed
    rw [SettlementState.outstanding] at hle
    omega
  refine ⟨?_, hcover, hbacked.limited⟩
  intro hdone
  rw [SettlementState.halfDone_eq_zero id hdone] at hcover
  omega

/-- Chunks of forty. -/
def sampleManager : QuotaManager := newQuotaManager 40 false

/-- One manager and one worker; nothing is reserved yet. -/
def sampleQuotaStart : QuotaState 1 Unit where
  redis := Redis.empty
  pg := samplePg sampleRow.id sampleRow.customerID
  stage _ := .idle
  accepted := 0
  issued := {quotaIdempotencyID (initQuotaKey sampleRow.id)}
  managers _ := .idle

/-- The state that the sample system reaches. -/
def sampleQuotaRun (actions : List (QuotaAction 1 Unit)) : QuotaState 1 Unit :=
  run (QuotaState.step sampleManager sampleRow.id sampleRow.customerID 5000000) sampleQuotaStart actions

/-- A warm-up. -/
def sampleWarm : List (QuotaAction 1 Unit) := [.warm 0, .warmReserve 0 .received, .credit 0 .received]

/-- A debit of thirty is settled, and the quota refilled. -/
def sampleRefilled : List (QuotaAction 1 Unit) :=
  sampleWarm ++ [.debit 30, .worker (.prepare () "tx-1" true), .worker (.flush () false .received),
    .worker (.commit () true), .requestRefill, .refill 0 "key-1" .received, .credit 0 .received]

/-- The sample starts before any reservation. -/
theorem sampleQuotaStart_start : QuotaState.Start sampleRow.id sampleQuotaStart where
  settlement :=
    { sync_nonneg := by decide +kernel
      inFlight_nonneg := by decide +kernel
      tx := rfl
      idle := fun _ => rfl
      accepted := rfl
      applied_issued := Finset.empty_subset _
      issued_nonempty := by decide +kernel }
  init_issued := Finset.mem_singleton_self _
  idle _ := rfl
  quota_nonneg := by decide +kernel
  backed := by decide +kernel
  limited := by decide +kernel

/-- The credit of the sample is fifty at the end, and fifty are reserved. -/
theorem quota_backed_by_reservation_sample :
    ¬ (sampleQuotaRun sampleRefilled).HalfDone sampleRow.id ∧
      (sampleQuotaRun sampleRefilled).quota sampleRow.id = 50 ∧
      (sampleQuotaRun sampleRefilled).quota sampleRow.id +
        (sampleQuotaRun sampleRefilled).sync sampleRow.id +
        (sampleQuotaRun sampleRefilled).inFlight sampleRow.id ≤
          (sampleQuotaRun sampleRefilled).reserved sampleRow.id := by
  have hdone : ¬ (sampleQuotaRun sampleRefilled).HalfDone sampleRow.id := by
    rintro ⟨txID, htx, -⟩
    have hnone : (sampleQuotaRun sampleRefilled).tx sampleRow.id = none := by decide +kernel
    rw [hnone] at htx
    cases htx
  refine ⟨hdone, by decide +kernel, (quota_backed_by_reservation sampleManager sampleRow.id
    sampleRow.customerID 5000000 sampleQuotaStart sampleQuotaStart_start sampleRefilled ?_).1 hdone⟩
  refine ⟨trivial, fun _ => Or.inr (by decide +kernel), fun _ _ => nofun, trivial,
    ⟨⟨by decide, by decide +kernel⟩, ?_⟩, ⟨trivial, trivial⟩, ⟨trivial, trivial⟩, trivial, ?_,
    fun _ _ => nofun, trivial⟩
  · intro _ _
    refine ⟨fun w' hw' => absurd rfl hw', ?_⟩
    intro txID htx _
    have hnone : (sampleQuotaRun (sampleRefilled.take 4)).tx sampleRow.id = none := by decide +kernel
    change (sampleQuotaRun (sampleRefilled.take 4)).tx sampleRow.id = some txID at htx
    rw [hnone] at htx
    cases htx
  · change quotaIdempotencyID "key-1" ∉ (sampleQuotaRun (sampleRefilled.take 8)).issued
    decide +kernel

/-- A second warm-up after the loss of the quota key credits a chunk that is not reserved, and so
does a credit whose reply is lost. -/
theorem quota_credited_without_reservation :
    let again := sampleQuotaRun (sampleWarm ++ [.debit 30, .loseQuota] ++ sampleWarm)
    let lost := sampleQuotaRun [.warm 0, .warmReserve 0 .received, .credit 0 .lost, .release 0 .received]
    (again.managers 0 = .idle ∧ again.tx sampleRow.id = none ∧ again.quota sampleRow.id = 40 ∧
      again.sync sampleRow.id = 30 ∧ again.inFlight sampleRow.id = 0 ∧
      again.reserved sampleRow.id = 40) ∧
    lost.managers 0 = .idle ∧ lost.tx sampleRow.id = none ∧ lost.quota sampleRow.id = 40 ∧
      lost.reserved sampleRow.id = 0 := by
  decide +kernel

end Espx.Settlement
