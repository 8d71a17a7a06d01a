import Espx.ControlPlane.PaymentLedger
import Espx.Foundation.Run

/-!
# Reversals of a payment

Any sequence of calls that credit one payment, refund it, charge it back or reverse a chargeback. A
chargeback counts refunds and chargebacks against the top-up; a refund counts refunds only, so that a
payment that was charged back can be refunded as well.
-/

namespace Espx.ControlPlane

open Espx.Foundation Espx.Domain List

/-- The calls that move the money of a payment. -/
inductive PaymentKind
  | credit
  | refund
  | chargeback
  | chargebackReversal
  deriving DecidableEq, Repr

/-- One call for a payment. -/
structure PaymentCall where
  kind : PaymentKind
  customerID : UUID
  amount : ℤ
  key : String

/-- The transaction of a call. -/
def PaymentCall.transaction (intent : UUID) (call : PaymentCall) : Pg → Option Pg :=
  match call.kind with
  | .credit => applyPaymentCredit call.customerID call.amount call.key intent
  | .refund => applyPaymentRefund call.customerID call.amount call.key intent
  | .chargeback => applyPaymentChargeback call.customerID call.amount call.key intent
  | .chargebackReversal => applyPaymentChargebackReversal call.customerID call.amount call.key intent

/-- One call, which leaves nothing behind when it is rolled back. -/
def paymentStep (intent : UUID) (pg : Pg) (call : PaymentCall) : Pg :=
  (call.transaction intent pg).getD pg

/-- What was credited for a payment. -/
def credited (intent : UUID) (pg : Pg) : ℤ := sumForIntent pg intent .paymentTopup id

/-- What was taken back of a payment: refunds and chargebacks less reversals. -/
def reversed (intent : UUID) (pg : Pg) : ℤ :=
  sumForIntent pg intent .paymentRefund abs + netChargeback pg intent

/-- The row that a call books. -/
def PaymentCall.entry (intent : UUID) (call : PaymentCall) : LedgerEntry :=
  match call.kind with
  | .credit => paymentEntry call.customerID intent call.amount .paymentTopup call.key
  | .refund => paymentEntry call.customerID intent (-call.amount) .paymentRefund call.key
  | .chargeback => paymentEntry call.customerID intent (-call.amount) .paymentChargeback call.key
  | .chargebackReversal =>
    paymentEntry call.customerID intent call.amount .paymentChargebackReversal call.key

/-- What the transaction of a call makes sure of before it books a row. -/
def PaymentCall.Checked (intent : UUID) (pg : Pg) (call : PaymentCall) : Prop :=
  match call.kind with
  | .credit => ledgerByPaymentIntent pg intent = none
  | .refund => ∃ topup, ledgerByPaymentIntent pg intent = some topup ∧
      sumForIntent pg intent .paymentRefund abs + call.amount ≤ topup.amount
  | .chargeback => ∃ topup, ledgerByPaymentIntent pg intent = some topup ∧
      reversed intent pg + call.amount ≤ topup.amount
  | .chargebackReversal => call.amount ≤ netChargeback pg intent

/-- A call is answered by an earlier row. -/
def PaymentCall.Answered (intent : UUID) (pg : Pg) (call : PaymentCall) : Prop :=
  (call.kind = .credit ∧ (ledgerByPaymentIntent pg intent).isSome) ∨ (pg.ledgerByHash call.key).isSome

/-- The customer of a refund can pay it, the refund is new, and it passes the check on refunds. -/
def PaymentCall.refundsNow (intent : UUID) (pg : Pg) (call : PaymentCall) : Prop :=
  call.kind = .refund ∧ pg.ledgerByHash call.key = none ∧
    (∃ topup ∈ ledgerByPaymentIntent pg intent,
      sumForIntent pg intent .paymentRefund abs + call.amount ≤ topup.amount) ∧
    ∃ row ∈ pg.customers.get? call.customerID, 0 ≤ row.balance - call.amount + row.allowedOverdraft

/-- A refund that goes through fits into what is left of the payment after chargebacks. -/
def PaymentCall.RefundFits (intent : UUID) (pg : Pg) (call : PaymentCall) : Prop :=
  call.refundsNow intent pg → reversed intent pg + call.amount ≤ credited intent pg

open PaymentCall

section

variable {pg pg' : Pg} {e : LedgerEntry} {intent : UUID}

/-- A booked row adds to the sums of its kind. -/
theorem Booked.sumForIntent_eq (h : Booked e pg pg') (type : LedgerType) (quantity : ℤ → ℤ) :
    sumForIntent pg' intent type quantity =
      (if e.paymentIntentID = some intent ∧ e.type = type then quantity e.amount else 0) +
        sumForIntent pg intent type quantity := by
  unfold sumForIntent
  rw [h.ledger]
  by_cases hkind : e.paymentIntentID = some intent ∧ e.type = type
  · rw [filter_cons_of_pos (by simpa using hkind), if_pos hkind, map_cons, sum_cons]
  · rw [filter_cons_of_neg (by simpa using hkind), if_neg hkind, zero_add]

theorem credited_of_none (h : ledgerByPaymentIntent pg intent = none) : credited intent pg = 0 := by
  have hnone : pg.ledger.filter
      (fun e => e.paymentIntentID = some intent ∧ e.type = .paymentTopup) = [] := by
    rw [filter_eq_nil_iff]
    exact find?_eq_none.mp h
  rw [credited, sumForIntent, hnone, map_nil, sum_nil]

/-- The top-up of a payment after a row is booked. -/
theorem Booked.ledgerByPaymentIntent_eq (h : Booked e pg pg') :
    ledgerByPaymentIntent pg' intent =
      if e.paymentIntentID = some intent ∧ e.type = .paymentTopup then some e
      else ledgerByPaymentIntent pg intent := by
  unfold ledgerByPaymentIntent
  rw [h.ledger]
  by_cases hkind : e.paymentIntentID = some intent ∧ e.type = .paymentTopup
  · rw [find?_cons_of_pos (by simpa using hkind), if_pos hkind]
  · rw [find?_cons_of_neg (by simpa using hkind), if_neg hkind]

/-- The row under a hash after a row is booked. -/
theorem Booked.ledgerByHash_eq (h : Booked e pg pg') (hash : String) :
    pg'.ledgerByHash hash =
      if e.idempotencyHash = some hash then some e else pg.ledgerByHash hash := by
  unfold Pg.ledgerByHash
  rw [h.ledger]
  by_cases hkind : e.idempotencyHash = some hash
  · rw [find?_cons_of_pos (by simpa using hkind), if_pos hkind]
  · rw [find?_cons_of_neg (by simpa using hkind), if_neg hkind]

variable {call : PaymentCall}

/-- A call that succeeds is answered by an earlier row, or passes its checks and books a row. -/
theorem PaymentCall.transaction_eq_some (h : call.transaction intent pg = some pg') :
    (pg' = pg ∧ call.Answered intent pg) ∨
      (pg.ledgerByHash call.key = none ∧ call.Checked intent pg ∧ Booked (call.entry intent) pg pg') := by
  unfold transaction at h
  unfold Checked Answered entry
  cases hkind : call.kind with
  | credit =>
    rw [hkind] at h
    obtain ⟨heq, hrow⟩ | ⟨htopup, hkey, hbook⟩ := applyPaymentCredit_eq_some h
    · exact .inl ⟨heq, hrow.imp_left fun hsome => ⟨rfl, hsome⟩⟩
    · exact .inr ⟨hkey, htopup, hbook⟩
  | refund =>
    rw [hkind] at h
    obtain ⟨heq, hrow⟩ | ⟨-, hkey, hcap, hbook⟩ := applyPaymentRefund_eq_some h
    · exact .inl ⟨heq, .inr hrow⟩
    · exact .inr ⟨hkey, hcap, hbook⟩
  | chargeback | chargebackReversal =>
    rw [hkind] at h
    obtain ⟨heq, hrow⟩ | ⟨-, hkey, hcap, hbook⟩ := applyPaymentChargebackMovement_eq_some h
    · exact .inl ⟨heq, .inr hrow⟩
    · exact .inr ⟨hkey, hcap, hbook⟩

/-- A call changes nothing, or passes its checks and books a row. -/
theorem paymentStep_cases (intent : UUID) (pg : Pg) (call : PaymentCall) :
    paymentStep intent pg call = pg ∨
      (pg.ledgerByHash call.key = none ∧ call.Checked intent pg ∧
        Booked (call.entry intent) pg (paymentStep intent pg call)) := by
  unfold paymentStep
  cases h : call.transaction intent pg with
  | none => exact .inl rfl
  | some pg' =>
    obtain ⟨heq, -⟩ | hbook := transaction_eq_some h
    · exact .inl heq
    · exact .inr hbook

theorem PaymentCall.entry_intent (call : PaymentCall) :
    (call.entry intent).paymentIntentID = some intent := by
  unfold entry
  cases call.kind <;> rfl

theorem PaymentCall.entry_hash (call : PaymentCall) :
    (call.entry intent).idempotencyHash = some call.key := by
  unfold entry
  cases call.kind <;> rfl

theorem PaymentCall.entry_customerID (call : PaymentCall) :
    (call.entry intent).customerID = call.customerID := by
  unfold entry
  cases call.kind <;> rfl

theorem credited_booked (h : Booked (call.entry intent) pg pg') :
    credited intent pg' = (if call.kind = .credit then call.amount else 0) + credited intent pg := by
  rw [credited, h.sumForIntent_eq, credited]
  unfold entry
  cases call.kind <;> simp [paymentEntry]

/-- By how much a booked call changes what is taken back. -/
theorem reversed_booked (h : Booked (call.entry intent) pg pg') (hpos : 0 < call.amount) :
    reversed intent pg' = reversed intent pg +
      match call.kind with
      | .credit => 0
      | .refund => call.amount
      | .chargeback => call.amount
      | .chargebackReversal => -call.amount := by
  have habs : |call.amount| = call.amount := abs_of_pos hpos
  unfold reversed netChargeback
  rw [h.sumForIntent_eq, h.sumForIntent_eq, h.sumForIntent_eq]
  unfold entry
  cases call.kind <;> simp [paymentEntry, habs] <;> ring

/-- A payment is not taken back beyond its top-up, and the top-up is all that is credited. -/
structure WithinTopup (intent : UUID) (pg : Pg) : Prop where
  cap : reversed intent pg ≤ credited intent pg
  topup : ∀ topup, ledgerByPaymentIntent pg intent = some topup → credited intent pg = topup.amount

/-- A row other than a top-up leaves the top-up as it is. -/
theorem WithinTopup.topup_booked (h : WithinTopup intent pg) {pg' : Pg}
    (hbook : Booked (call.entry intent) pg pg') (hkind : call.kind ≠ .credit) :
    ∀ topup, ledgerByPaymentIntent pg' intent = some topup → credited intent pg' = topup.amount := by
  have hother : (call.entry intent).type ≠ .paymentTopup := by
    unfold entry
    cases hcall : call.kind with
    | credit => exact absurd hcall hkind
    | _ => simp [paymentEntry]
  intro topup hfound
  rw [hbook.ledgerByPaymentIntent_eq, if_neg fun hboth => hother hboth.2] at hfound
  rw [credited_booked hbook, if_neg hkind, zero_add]
  exact h.topup topup hfound

/-- A call with a positive amount whose refund fits keeps the payment within its top-up. -/
theorem WithinTopup.step (h : WithinTopup intent pg) (hpos : 0 < call.amount)
    (hfits : call.RefundFits intent pg) : WithinTopup intent (paymentStep intent pg call) := by
  obtain heq | ⟨hkey, hcheck, hbook⟩ := paymentStep_cases intent pg call
  · rw [heq]
    exact h
  have hcred := credited_booked hbook
  have hrev := reversed_booked hbook hpos
  have hkept := h.topup_booked hbook
  have hcap := h.cap
  unfold PaymentCall.Checked at hcheck
  cases hkind : call.kind with
  | credit =>
    rw [hkind] at hcheck hrev hcred
    have hzero := credited_of_none hcheck
    have hentry : ledgerByPaymentIntent (paymentStep intent pg call) intent =
        some (call.entry intent) := by
      rw [hbook.ledgerByPaymentIntent_eq,
        if_pos ⟨call.entry_intent, by simp [entry, hkind, paymentEntry]⟩]
    simp only [if_true] at hcred hrev
    refine ⟨by omega, ?_⟩
    intro topup hfound
    rw [hentry, Option.some.injEq] at hfound
    rw [← hfound, hcred, hzero, add_zero]
    simp [entry, hkind, paymentEntry]
  | refund =>
    obtain ⟨row, hrow, hallow⟩ := hbook.allowed
    rw [call.entry_customerID] at hrow
    have hfit : reversed intent pg + call.amount ≤ credited intent pg := by
      rw [hkind] at hcheck
      refine hfits ⟨hkind, hkey, hcheck, row, hrow, ?_⟩
      simpa [entry, hkind, paymentEntry, sub_eq_add_neg] using hallow
    rw [hkind] at hrev hcred hkept
    simp only [reduceCtorEq, if_false, zero_add] at hcred hrev
    exact ⟨by omega, hkept nofun⟩
  | chargeback =>
    rw [hkind] at hcheck hrev hcred hkept
    obtain ⟨first, hfirst, hfit⟩ := hcheck
    have hamt := h.topup first hfirst
    simp only [reduceCtorEq, if_false, zero_add] at hcred hrev
    exact ⟨by omega, hkept nofun⟩
  | chargebackReversal =>
    rw [hkind] at hrev hcred hkept
    simp only [reduceCtorEq, if_false, zero_add] at hcred hrev
    exact ⟨by omega, hkept nofun⟩

/-- A row that is not a top-up and whose hash is new breaks no unique index. -/
theorem ledgerUnique_of_fresh {e : LedgerEntry} {hash : String} (hhash : e.idempotencyHash = some hash)
    (htype : e.type ≠ .paymentTopup) (hfresh : pg.ledgerByHash hash = none) :
    pg.ledgerUnique e = true := by
  rw [Pg.ledgerUnique, all_eq_true]
  intro old hold
  have hother : old.idempotencyHash ≠ some hash := by
    simpa using find?_eq_none.mp hfresh old hold
  rw [decide_eq_true_eq, hhash]
  exact ⟨.inr hother, .inl htype⟩

/-- A refund that passes the checks of its transaction is booked. -/
theorem PaymentCall.refundsNow.booked (h : call.refundsNow intent pg) (hpos : 0 < call.amount) :
    Booked (call.entry intent) pg (paymentStep intent pg call) := by
  obtain ⟨hkind, hkey, ⟨topup, htopup, hcap⟩, row, hrow, hallow⟩ := h
  have hentry : call.entry intent =
      paymentEntry call.customerID intent (-call.amount) .paymentRefund call.key := by
    rw [entry, hkind]
  obtain ⟨pg', hbook⟩ : ∃ pg', Booked
      (paymentEntry call.customerID intent (-call.amount) .paymentRefund call.key) pg pg' :=
    ⟨_, ledgerUnique_of_fresh rfl (by simp [paymentEntry]) hkey, ⟨row, hrow, hallow⟩, rfl⟩
  have hdone := booked_iff.mpr hbook
  have htransaction : call.transaction intent pg = some pg' := by
    rw [transaction, hkind]
    simp only [applyPaymentRefund, hkey, Option.mem_def.mp htopup, if_neg (not_le.mpr hpos),
      if_neg (not_lt.mpr hcap)]
    exact hdone
  rw [paymentStep, htransaction, Option.getD_some, hentry]
  exact hbook

/-- A refund that does not fit takes the payment beyond its top-up. -/
theorem WithinTopup.breaks (hpos : 0 < call.amount)
    (hcap : reversed intent (paymentStep intent pg call) ≤ credited intent (paymentStep intent pg call)) :
    call.RefundFits intent pg := by
  intro hnow
  have hbook := hnow.booked hpos
  have hcred := credited_booked hbook
  have hrev := reversed_booked hbook hpos
  rw [hnow.1] at hcred hrev
  simp only [reduceCtorEq, if_false, zero_add] at hcred hrev
  omega

variable {repeated : PaymentCall}

theorem PaymentCall.answered_of_eq_some {pg' : Pg} (h : call.transaction intent pg = some pg') :
    call.Answered intent pg' := by
  obtain ⟨rfl, hans⟩ | ⟨-, -, hbook⟩ := transaction_eq_some h
  · exact hans
  · right
    rw [hbook.ledgerByHash_eq, if_pos call.entry_hash]
    rfl

/-- An answered call stays answered when a row is booked. -/
theorem PaymentCall.Answered.booked {pg' : Pg} {e : LedgerEntry} (h : call.Answered intent pg)
    (hbook : Booked e pg pg') : call.Answered intent pg' := by
  obtain ⟨hkind, hsome⟩ | hsome := h
  · refine .inl ⟨hkind, ?_⟩
    rw [hbook.ledgerByPaymentIntent_eq]
    split
    · rfl
    · exact hsome
  · refine .inr ?_
    rw [hbook.ledgerByHash_eq]
    split
    · rfl
    · exact hsome

theorem PaymentCall.Answered.step (h : call.Answered intent pg) (about : UUID) (other : PaymentCall) :
    call.Answered intent (paymentStep about pg other) := by
  obtain heq | ⟨-, -, hbook⟩ := paymentStep_cases about pg other
  · rw [heq]
    exact h
  · exact h.booked hbook

/-- A call of the same kind and key as an answered one changes nothing. -/
theorem PaymentCall.Answered.noop (h : call.Answered intent pg) (hkind : repeated.kind = call.kind)
    (hkey : repeated.key = call.key) : paymentStep intent pg repeated = pg := by
  obtain heq | ⟨hfresh, hcheck, -⟩ := paymentStep_cases intent pg repeated
  · exact heq
  obtain ⟨hcred, htopup⟩ | hhash := h
  · unfold Checked at hcheck
    rw [hkind, hcred] at hcheck
    rw [hcheck] at htopup
    cases htopup
  · rw [← hkey, hfresh] at hhash
    cases hhash

end

/-- What the rows of a list move on a customer's balance. -/
def entriesTotal (u : UUID) (entries : List LedgerEntry) : ℤ :=
  ((entries.filter fun e => e.customerID = u).map LedgerEntry.amount).sum

/-- Calls book rows, and each balance moves by the rows of its customer. -/
theorem paymentRun_balance (intent : UUID) (pg : Pg) (calls : List PaymentCall) :
    ∃ booked, (run (paymentStep intent) pg calls).ledger = booked ++ pg.ledger ∧
      ∀ u, balanceOf u (run (paymentStep intent) pg calls) = balanceOf u pg + entriesTotal u booked := by
  induction calls generalizing pg with
  | nil => exact ⟨[], rfl, fun u => (add_zero _).symm⟩
  | cons call rest ih =>
    obtain ⟨booked, hled, hbal⟩ := ih (paymentStep intent pg call)
    obtain heq | ⟨-, -, hentry⟩ := paymentStep_cases intent pg call
    · rw [heq] at hled hbal
      refine ⟨booked, ?_, ?_⟩
      · rw [run, heq]
        exact hled
      · intro u
        rw [run, heq]
        exact hbal u
    · refine ⟨booked ++ [call.entry intent], ?_, ?_⟩
      · rw [run, hled, hentry.ledger, append_assoc]
        rfl
      · intro u
        rw [run, hbal, hentry.balance]
        unfold entriesTotal
        by_cases hu : (call.entry intent).customerID = u
        · simp [filter_append, hu]
          ring
        · simp [filter_append, hu]

/-- Refunds, chargebacks and reversals of a payment stay within its top-up in every state exactly when
each refund that goes through fits into what chargebacks have left. Repeated calls change nothing, and
balances move by the rows booked. -/
theorem payment_reversal_cap (intent : UUID) (start : Pg)
    (hstart : ∀ e ∈ start.ledger, e.paymentIntentID ≠ some intent) (calls : List PaymentCall)
    (hpos : ∀ call ∈ calls, 0 < call.amount) :
    ((∀ done, done <+: calls → reversed intent (run (paymentStep intent) start done) ≤
          credited intent (run (paymentStep intent) start done)) ↔
        Admissible (fun pg call => call.RefundFits intent pg) (paymentStep intent) start calls) ∧
      (∀ before call between repeated, before ++ call :: between <+: calls →
        (call.transaction intent (run (paymentStep intent) start before)).isSome →
        repeated.kind = call.kind → repeated.key = call.key →
        paymentStep intent (run (paymentStep intent) start (before ++ call :: between)) repeated =
          run (paymentStep intent) start (before ++ call :: between)) ∧
      ∃ booked, (run (paymentStep intent) start calls).ledger = booked ++ start.ledger ∧
        ∀ u, balanceOf u (run (paymentStep intent) start calls) =
          balanceOf u start + entriesTotal u booked := by
  refine ⟨?_, ?_, paymentRun_balance intent start calls⟩
  · have hnone (type : LedgerType) (quantity : ℤ → ℤ) : sumForIntent start intent type quantity = 0 := by
      have hempty : start.ledger.filter
          (fun e => e.paymentIntentID = some intent ∧ e.type = type) = [] := by
        rw [List.filter_eq_nil_iff]
        intro e he
        simp [hstart e he]
      rw [sumForIntent, hempty, List.map_nil, List.sum_nil]
    have hinit : WithinTopup intent start := by
      refine ⟨by simp [reversed, credited, netChargeback, hnone], ?_⟩
      intro topup hfound
      have hmem := List.mem_of_find?_eq_some hfound
      have hkind := List.find?_some hfound
      simp only [decide_eq_true_eq] at hkind
      exact absurd hkind.1 (hstart topup hmem)
    exact @forall_reached_iff_admissible _ _ (fun _ call => 0 < call.amount)
      (fun pg call => call.RefundFits intent pg) (paymentStep intent) (WithinTopup intent)
      (fun pg => reversed intent pg ≤ credited intent pg) (fun _ h => h.cap)
      (fun _ _ hvalid hfits h => h.step hvalid hfits)
      (fun _ _ hvalid _ hcap => WithinTopup.breaks hvalid hcap) start hinit calls
      (Admissible.of_forall hpos start)
  · intro before call between repeated _ hsome hkind hkey
    obtain ⟨pg', hpg'⟩ := Option.isSome_iff_exists.mp hsome
    have hstep : paymentStep intent (run (paymentStep intent) start before) call = pg' := by
      rw [paymentStep, hpg', Option.getD_some]
    have hans : call.Answered intent (run (paymentStep intent) start (before ++ call :: between)) := by
      rw [run_append, run, hstep]
      exact @run_invariant _ _ _ (fun pg => call.Answered intent pg)
        (fun _ other h => h.step intent other) pg' (answered_of_eq_some hpg') between
    exact hans.noop hkind hkey

/-- The payment of the sample calls. -/
def sampleIntent : UUID := Vector.replicate 16 3

/-- A call for the sample payment. -/
def sampleCall (kind : PaymentKind) (amount : ℤ) (key : String) : PaymentCall :=
  ⟨kind, sampleCustomer, amount, key⟩

/-- A payment of one hundred that is charged back in part, refunded in part, and given back. -/
def sampleReversals : List PaymentCall :=
  [sampleCall .credit 100 "payment-1", sampleCall .chargeback 60 "dispute-1",
    sampleCall .refund 40 "refund-1", sampleCall .chargebackReversal 60 "dispute-2"]

/-- The sample stays within its top-up. -/
theorem payment_reversal_cap_sample :
    (∀ call ∈ sampleReversals, 0 < call.amount) ∧
      ∀ done, done <+: sampleReversals →
        reversed sampleIntent (run (paymentStep sampleIntent) (sampleAccount 0 0) done) ≤
          credited sampleIntent (run (paymentStep sampleIntent) (sampleAccount 0 0) done) := by
  have hpos : ∀ call ∈ sampleReversals, 0 < call.amount := by decide
  refine ⟨hpos, (payment_reversal_cap sampleIntent (sampleAccount 0 0) nofun sampleReversals
    hpos).1.mpr ?_⟩
  refine ⟨?_, ?_, ?_, ?_, trivial⟩
  · rintro ⟨hkind, -⟩
    cases hkind
  · rintro ⟨hkind, -⟩
    cases hkind
  · intro _
    decide +kernel
  · rintro ⟨hkind, -⟩
    cases hkind

/-- A payment of one hundred that is charged back and then refunded in full. -/
theorem payment_reversed_twice :
    let s := run (paymentStep sampleIntent) (sampleAccount 100 0)
      [sampleCall .credit 100 "payment-1", sampleCall .chargeback 100 "dispute-1",
        sampleCall .refund 100 "refund-1"]
    credited sampleIntent s = 100 ∧ reversed sampleIntent s = 200 ∧ balanceOf sampleCustomer s = 0 := by
  decide +kernel

end Espx.ControlPlane
