import Espx.Settlement.Invariant

/-!
# Exactly-once settlement

A transaction id survives a crash, and Postgres skips an id that it has already applied as a success. So a
prepare may repeat a half-done settlement only with the amount that Postgres recorded: spend that arrived
in between is committed in Redis and never settled.
-/

namespace Espx.Settlement

open Espx.Foundation Espx.Domain Espx.Ingestion

open SettlementState in
/-- In every run whose transaction ids are fresh and whose prepares are safe, spend, inflight and sync
counter together have grown by exactly the accepted debits, in every state without a half-done settlement;
otherwise they exceed them by what Postgres has recorded and Redis has still to take out. -/
theorem settlement_exactly_once {W : Type*} [DecidableEq W] (id customerID : UUID) (threshold : ℤ)
    (s₀ : SettlementState W) (hstart : Start id s₀) (actions : List (SettlementAction W))
    (hrun : Admissible (fun s a => s.Fresh a ∧ s.SafePrepare id a) (step id customerID threshold) s₀
      actions) :
    let s := run (step id customerID threshold) s₀ actions
    (¬ s.HalfDone id →
      s.spend id + s.inFlight id + s.sync id = s₀.spend id + s₀.inFlight id + s₀.sync id + s.accepted) ∧
    s.spend id + s.inFlight id + s.sync id =
      s₀.spend id + s₀.inFlight id + s₀.sync id + s.accepted + s.halfDone id := by
  have hinv := hrun.invariant (fun s a ha h => step_inv a ha h) hstart.inv
  refine ⟨fun hdone => ?_, hinv.total⟩
  rw [hinv.total, halfDone_eq_zero id hdone, add_zero]

/-- A campaign with a budget of one hundred and a customer who can pay it. -/
def samplePg (id customerID : UUID) : Pg where
  campaigns := Table.empty.insert id
    { customerID := customerID, budgetLimit := 100, currentSpend := 0, status := .active }
  customers := Table.empty.insert customerID { balance := 1000, allowedOverdraft := 0 }
  ledger := []
  syncIdempotency := ∅
  campaignQuotas := Table.empty

/-- One worker, nothing spent yet. -/
def sampleStart : SettlementState Unit where
  redis := Redis.empty.setNum (budgetCampaignKey sampleRow.id) 100
  pg := samplePg sampleRow.id sampleRow.customerID
  stage _ := .idle
  accepted := 0
  issued := ∅

/-- The worker crashes between Postgres and Redis, and settles the same amount again. -/
def sampleCrash : List (SettlementAction Unit) :=
  [.debit none 5, .prepare () "tx-1" true, .flush () false .received, .crash (), .lockExpiry,
    .prepare () "tx-2" true, .flush () false .received, .commit () true, .debit none 3]

/-- The worker crashes between Postgres and Redis, and a debit arrives before the retry. -/
def sampleCrashDebit : List (SettlementAction Unit) :=
  [.debit none 5, .prepare () "tx-1" true, .flush () false .received, .crash (), .lockExpiry, .debit none 3,
    .prepare () "tx-2" true, .flush () false .received, .commit () true]

/-- The state that the sample worker reaches. -/
def sampleRun (actions : List (SettlementAction Unit)) : SettlementState Unit :=
  run (SettlementState.step sampleRow.id sampleRow.customerID 5000000) sampleStart actions

/-- The sample starts before any settlement. -/
theorem sampleStart_start : SettlementState.Start sampleRow.id sampleStart where
  sync_nonneg := by decide +kernel
  inFlight_nonneg := by decide +kernel
  tx := rfl
  idle _ := rfl
  accepted := rfl
  applied_issued := Finset.Subset.refl _
  issued_nonempty := Finset.notMem_empty _

/-- A crash after the Postgres commit is repaired by the retry of the same amount. -/
theorem settlement_exactly_once_sample :
    ¬ (sampleRun sampleCrash).HalfDone sampleRow.id ∧
      (sampleRun sampleCrash).spend sampleRow.id + (sampleRun sampleCrash).inFlight sampleRow.id +
        (sampleRun sampleCrash).sync sampleRow.id =
      sampleStart.spend sampleRow.id + sampleStart.inFlight sampleRow.id +
        sampleStart.sync sampleRow.id + (sampleRun sampleCrash).accepted := by
  have hdone : ¬ (sampleRun sampleCrash).HalfDone sampleRow.id := by
    rintro ⟨txID, htx, -⟩
    have hnone : (sampleRun sampleCrash).tx sampleRow.id = none := by decide +kernel
    rw [hnone] at htx
    cases htx
  refine ⟨hdone, (settlement_exactly_once sampleRow.id sampleRow.customerID 5000000 sampleStart
    sampleStart_start sampleCrash ?_).1 hdone⟩
  refine ⟨⟨trivial, trivial⟩, ⟨⟨by decide, by decide +kernel⟩, ?_⟩, ⟨trivial, trivial⟩,
    ⟨trivial, trivial⟩, ⟨trivial, trivial⟩, ⟨⟨by decide, by decide +kernel⟩, ?_⟩, ⟨trivial, trivial⟩,
    ⟨trivial, trivial⟩, ⟨trivial, trivial⟩, trivial⟩
  · intro _ _
    refine ⟨fun w' hw' => absurd rfl hw', ?_⟩
    intro txID htx _
    have hnone : (sampleRun (sampleCrash.take 1)).tx sampleRow.id = none := by decide +kernel
    change (sampleRun (sampleCrash.take 1)).tx sampleRow.id = some txID at htx
    rw [hnone] at htx
    cases htx
  · intro _ _
    refine ⟨fun w' hw' => absurd rfl hw', ?_⟩
    intro txID htx _
    have hsome : (sampleRun (sampleCrash.take 5)).tx sampleRow.id = some "tx-1" := by decide +kernel
    change (sampleRun (sampleCrash.take 5)).tx sampleRow.id = some txID at htx
    rw [hsome, Option.some.injEq] at htx
    subst htx
    change (sampleRun (sampleCrash.take 5)).inFlight sampleRow.id +
      (sampleRun (sampleCrash.take 5)).sync sampleRow.id =
        (sampleRun (sampleCrash.take 5)).pg.settledAmount "tx-1"
    decide +kernel

/-- A debit that arrives before the retry is lost: eight units were accepted, five are settled, and
nothing is left to settle or to repeat. -/
theorem settlement_loses_debit :
    (sampleRun sampleCrashDebit).accepted = 8 ∧ (sampleRun sampleCrashDebit).spend sampleRow.id = 5 ∧
      (sampleRun sampleCrashDebit).inFlight sampleRow.id = 0 ∧
      (sampleRun sampleCrashDebit).sync sampleRow.id = 0 ∧
      (sampleRun sampleCrashDebit).tx sampleRow.id = none ∧
      (sampleRun sampleCrashDebit).redis.num (campaignKeys sampleRow.id).lockKey = none ∧
      (sampleRun sampleCrashDebit).stage () = .idle := by
  decide +kernel

end Espx.Settlement
