import Espx.Payment.OutboxInvariant

/-!
# A Stripe payment is credited once

Any interleaving of payment and dispute webhooks with workers that fail, lose answers, crash and deliver
again. The row that settles a payment is added for each return of its status to success, and may be
handled many times; the ledger credits the payment for the first handling only.
-/

namespace Espx.Payment

open Espx.Foundation Espx.Domain Espx.ControlPlane Espx.Settlement

variable {W : Type*}

/-- What the rows of a customer move, the top-up of the payment apart. -/
def otherEntries (id u : UUID) (pg : Pg) : ℤ :=
  entriesTotal u (pg.ledger.filter fun e =>
    ¬ (e.paymentIntentID = some id ∧ e.type = .paymentTopup))

section

variable {id u : UUID} {pg pg' : Pg} {entry : LedgerEntry}

/-- Any other row is among them. -/
theorem otherEntries_other (h : Booked entry pg pg')
    (hother : ¬ (entry.paymentIntentID = some id ∧ entry.type = .paymentTopup)) :
    otherEntries id u pg' = (if entry.customerID = u then entry.amount else 0) +
      otherEntries id u pg := by
  unfold otherEntries entriesTotal
  rw [h.ledger, List.filter_cons_of_pos (by exact decide_eq_true hother)]
  by_cases hu : entry.customerID = u
  · rw [List.filter_cons_of_pos (by simpa using hu), List.map_cons, List.sum_cons, if_pos hu]
  · rw [List.filter_cons_of_neg (by simpa using hu), if_neg hu, zero_add]

theorem entry_topup_iff (id intent : UUID) (call : PaymentCall) :
    ((call.entry intent).paymentIntentID = some id ∧ (call.entry intent).type = .paymentTopup) ↔
      intent = id ∧ call.kind = .credit := by
  unfold PaymentCall.entry
  cases call.kind <;> simp [paymentEntry]

end

/-- A payment is credited by its amount and paid, or it is not credited; its customer's balance has moved
by the credit and the other rows. -/
structure CreditInv (id : UUID) (intent : PaymentIntent) (start : Pg) (s : PaymentSystem W) : Prop where
  queue : QueueInv s
  terms : termsOf id s.store =
    some (intent.customerID, intent.amountMicro, intent.provider, intent.providerRef)
  credited : credited id s.pg = 0 ∨ (credited id s.pg = intent.amountMicro ∧
    ∃ ref, intent.providerRef = some ref ∧ PaidInFull ref intent.amountMicro s.store)
  balance : balanceOf intent.customerID s.pg = balanceOf intent.customerID start +
    ControlPlane.credited id s.pg +
      (otherEntries id intent.customerID s.pg - otherEntries id intent.customerID start)

section

variable {id : UUID} {intent : PaymentIntent} {start : Pg} {s s' : PaymentSystem W}

section

variable (h : CreditInv id intent start s)
include h

/-- Steps that leave the ledger as it is keep the invariant. -/
theorem CreditInv.of_keeps (hqueue : QueueInv s') (hkeeps : Keeps s.store s'.store)
    (hpg : s'.pg = s.pg) : CreditInv id intent start s' := by
  refine ⟨hqueue, (hkeeps.terms id).trans h.terms, ?_, ?_⟩
  · rw [hpg]
    refine h.credited.imp_right ?_
    rintro ⟨hamt, ref, href, hpaid⟩
    exact ⟨hamt, ref, href, hpaid.mono hkeeps⟩
  · rw [hpg]
    exact h.balance

/-- A credit of the payment is made with its amount, on its customer, after it was paid. -/
theorem CreditInv.of_topup (hqueue : QueueInv s') (hstore : s'.store = s.store) {e : OutboxEvent}
    (he : e.content ∈ s.store.contents) (hcredit : e.payload.paymentIntentID = id ∧ e.call.kind = .credit)
    (hfirst : ledgerByPaymentIntent s.pg id = none) (hbook : Booked (e.call.entry id) s.pg s'.pg)
    : CreditInv id intent start s' := by
  have htype : e.eventType = .settleBalance := by
    have hkind : e.eventType.kind = .credit := hcredit.2
    cases htype : e.eventType with
    | settleBalance => rfl
    | _ =>
      rw [htype] at hkind
      cases hkind
  have hcont : e.content = (e.id, OutboxEventType.settleBalance, e.payload) := by
    rw [OutboxEvent.content, htype]
  rw [hcont] at he
  obtain ⟨hterms, hpaid, -⟩ := h.queue.settles e.id e.payload he
  rw [hcredit.1, h.terms, Option.some.injEq, Prod.mk.injEq, Prod.mk.injEq, Prod.mk.injEq] at hterms
  obtain ⟨hcust, hamt, -, href⟩ := hterms
  have hzero := credited_of_none hfirst
  have hcred : ControlPlane.credited id s'.pg = intent.amountMicro := by
    rw [credited_booked hbook, if_pos hcredit.2, hzero, add_zero, hamt]
    rfl
  have hself : (e.call.entry id).customerID = intent.customerID := by
    rw [PaymentCall.entry_customerID, hcust]
    rfl
  have hvalue : (e.call.entry id).amount = intent.amountMicro := by
    rw [PaymentCall.entry, hcredit.2, hamt]
    rfl
  refine ⟨hqueue, ?_, Or.inr ⟨hcred, e.payload.providerRef, href, ?_⟩, ?_⟩
  · rw [hstore]
    exact h.terms
  · rw [hstore, hamt]
    exact hpaid
  · have htopup := (entry_topup_iff id id e.call).mpr ⟨rfl, hcredit.2⟩
    have hbal := h.balance
    rw [hbook.balance, if_pos hself, hvalue, hcred, otherEntries, hbook.ledger,
      List.filter_cons_of_neg (by simpa using htopup), ← otherEntries]
    omega

/-- Any other row keeps the invariant. -/
theorem CreditInv.of_other (hqueue : QueueInv s') (hstore : s'.store = s.store) {entry : LedgerEntry}
    (hother : ¬ (entry.paymentIntentID = some id ∧ entry.type = .paymentTopup))
    (hbook : Booked entry s.pg s'.pg) : CreditInv id intent start s' := by
  have hcred : ControlPlane.credited id s'.pg = ControlPlane.credited id s.pg := by
    rw [ControlPlane.credited, hbook.sumForIntent_eq, if_neg hother, zero_add, ControlPlane.credited]
  refine ⟨hqueue, ?_, ?_, ?_⟩
  · rw [hstore]
    exact h.terms
  · rw [hstore, hcred]
    exact h.credited
  · have hbal := h.balance
    rw [hbook.balance, hcred, otherEntries_other hbook hother]
    omega

/-- Every step keeps the invariant. -/
theorem CreditInv.step [DecidableEq W] (maxRetries : ℤ) (a : PaymentAction W) :
    CreditInv id intent start (s.step maxRetries a) := by
  have heff := h.queue.effect maxRetries a
  have hqueue := h.queue.of_effect heff
  cases heff with
  | kept hcont hkeeps hrec hpg hbatch | settles payload hcont hpaid hkeeps hrec hpg hwork
  | moves e m id' intent' hact hmoves hmoved hkeeps hpg hwork => exact h.of_keeps hqueue hkeeps hpg
  | calls e he hstore hpg hbatch =>
    obtain heq | ⟨-, hcheck, hbook⟩ := paymentStep_cases e.payload.paymentIntentID s.pg e.call
    · refine h.of_keeps hqueue ?_ (hpg.trans heq)
      rw [hstore]
      exact Keeps.refl s.store
    rw [← hpg] at hbook
    by_cases hcred : e.payload.paymentIntentID = id ∧ e.call.kind = .credit
    · rw [hcred.1] at hcheck hbook
      have hfirst : ledgerByPaymentIntent s.pg id = none := by
        unfold PaymentCall.Checked at hcheck
        rw [hcred.2] at hcheck
        exact hcheck
      exact h.of_topup hqueue hstore he hcred hfirst hbook
    · exact h.of_other hqueue hstore (mt (entry_topup_iff id _ e.call).mp hcred) hbook

end

end

/-- A payment is credited with nothing or with its amount, and only if a success for exactly this amount
was processed; its customer's balance is raised by the credit, next to the other rows booked for the
customer. -/
theorem stripe_payment_credited_once [DecidableEq W] (maxRetries : ℤ) (id : UUID)
    (intent : PaymentIntent) (start : PaymentSystem W)
    (hintent : start.store.intents.get? id = some intent) (hidle : start.Idle)
    (hfirst : ledgerByPaymentIntent start.pg id = none) (actions : List (PaymentAction W)) :
    let s := run (PaymentSystem.step · maxRetries) start actions
    (credited id s.pg = 0 ∨ credited id s.pg = intent.amountMicro) ∧
      (credited id s.pg ≠ 0 →
        ∃ ref, intent.providerRef = some ref ∧ PaidInFull ref intent.amountMicro s.store) ∧
      balanceOf intent.customerID s.pg = balanceOf intent.customerID start.pg + credited id s.pg +
        (otherEntries id intent.customerID s.pg - otherEntries id intent.customerID start.pg) := by
  have hinit : CreditInv id intent start.pg start := by
    have hzero := credited_of_none hfirst
    refine ⟨hidle.queueInv, ?_, Or.inl hzero, ?_⟩
    · rw [termsOf, hintent, Option.map_some]
    · rw [hzero]
      omega
  have hinv := @run_invariant _ _ (PaymentSystem.step · maxRetries) (CreditInv id intent start.pg)
    (fun _ a h => h.step maxRetries a) start hinit actions
  refine ⟨hinv.credited.imp_right And.left, ?_, hinv.balance⟩
  intro hne
  obtain hzero | ⟨-, hpaid⟩ := hinv.credited
  · exact absurd hzero hne
  · exact hpaid

/-- A success whose settlement is done, reported as failed, and delivered again. -/
def sampleRedelivery : List (PaymentAction Unit) :=
  [.stripeWebhook ⟨"evt-1", .paymentIntentSucceeded, "pi-1", 100⟩, .lease () 100 0 .received,
    .handle () .lost, .mark () .received, .lease () 100 60 .received, .handle () .received,
    .mark () .received]

/-- The sample payment is credited once. -/
theorem stripe_payment_credited_once_sample :
    let s := run (PaymentSystem.step · 5) samplePaymentSystem sampleRedelivery
    credited ControlPlane.sampleIntent s.pg = 100 ∧
      ∃ ref, samplePayment.providerRef = some ref ∧ PaidInFull ref 100 s.store := by
  have hcred : credited ControlPlane.sampleIntent
      (run (PaymentSystem.step · 5) samplePaymentSystem sampleRedelivery).pg = 100 := by
    decide +kernel
  refine ⟨hcred, ?_⟩
  refine (stripe_payment_credited_once 5 ControlPlane.sampleIntent samplePayment samplePaymentSystem
    (Table.get?_insert_self _ _ rfl) ⟨rfl, fun _ => rfl⟩ (by decide +kernel) sampleRedelivery).2.1 ?_
  rw [hcred]
  decide

end Espx.Payment
