import Espx.ControlPlane.Movements

/-!
# Payments in the ledger

A payment, its refunds, its chargebacks and their reversals end the same way: the balance moves and one
row is booked. For each, the two ways in which it can succeed: an earlier row makes it a repetition
without effect, or its checks pass and it books its row.
-/

namespace Espx.ControlPlane

open Espx.Foundation Espx.Domain

section

variable {pg pg' : Pg} {e : LedgerEntry} {customerID intent : UUID} {amount : ℤ} {key : String}

theorem Booked.balance (h : Booked e pg pg') (u : UUID) :
    balanceOf u pg' = balanceOf u pg + if e.customerID = u then e.amount else 0 := by
  obtain ⟨row, hrow, -⟩ := h.allowed
  rw [h.eq, balanceOf, balanceOf]
  by_cases hu : e.customerID = u
  · subst hu
    simp [hrow]
  · rw [if_neg hu, Table.get?_modify_of_ne _ _ (Ne.symm hu), add_zero]

theorem Booked.ledger (h : Booked e pg pg') : pg'.ledger = e :: pg.ledger := by rw [h.eq]

/-- A payment is a repetition, or books its top-up. -/
theorem applyPaymentCredit_eq_some (h : applyPaymentCredit customerID amount key intent pg = some pg') :
    (pg' = pg ∧ ((ledgerByPaymentIntent pg intent).isSome ∨ (pg.ledgerByHash key).isSome)) ∨
      (ledgerByPaymentIntent pg intent = none ∧ pg.ledgerByHash key = none ∧
        Booked (paymentEntry customerID intent amount .paymentTopup key) pg pg') := by
  unfold applyPaymentCredit at h
  split at h
  · rename_i htopup
    exact .inl ⟨(Option.some.inj h).symm, .inl (by rw [htopup]; rfl)⟩
  · rename_i hkey
    exact .inl ⟨(Option.some.inj h).symm, .inr (by rw [hkey]; rfl)⟩
  · rename_i htopup hkey
    exact .inr ⟨htopup, hkey, booked_iff.mp h⟩

/-- A refund is a repetition, or stays within the top-up and books its row. -/
theorem applyPaymentRefund_eq_some (h : applyPaymentRefund customerID amount key intent pg = some pg') :
    (pg' = pg ∧ (pg.ledgerByHash key).isSome) ∨
      (0 < amount ∧ pg.ledgerByHash key = none ∧
        (∃ topup, ledgerByPaymentIntent pg intent = some topup ∧
          sumForIntent pg intent .paymentRefund abs + amount ≤ topup.amount) ∧
        Booked (paymentEntry customerID intent (-amount) .paymentRefund key) pg pg') := by
  unfold applyPaymentRefund at h
  split at h
  · cases h
  rename_i hpos
  split at h
  · rename_i hkey
    exact .inl ⟨(Option.some.inj h).symm, by rw [hkey]; rfl⟩
  · cases h
  rename_i topup hkey htopup
  split at h
  · cases h
  · rename_i hcap
    exact .inr ⟨not_le.mp hpos, hkey, ⟨topup, htopup, not_lt.mp hcap⟩, booked_iff.mp h⟩

/-- What is charged back of a payment and not given back again. -/
def netChargeback (pg : Pg) (intent : UUID) : ℤ :=
  sumForIntent pg intent .paymentChargeback abs - sumForIntent pg intent .paymentChargebackReversal id

/-- A chargeback or a reversal is a repetition, or stays within the top-up or within what is charged back,
and books its row. -/
theorem applyPaymentChargebackMovement_eq_some {ledgerType : LedgerType} {isDebit : Bool}
    (h : applyPaymentChargebackMovement customerID amount key intent ledgerType isDebit pg = some pg') :
    (pg' = pg ∧ (pg.ledgerByHash key).isSome) ∨
      (0 < amount ∧ pg.ledgerByHash key = none ∧
        (if isDebit then ∃ topup, ledgerByPaymentIntent pg intent = some topup ∧
            sumForIntent pg intent .paymentRefund abs + netChargeback pg intent + amount ≤ topup.amount
          else amount ≤ netChargeback pg intent) ∧
        Booked (paymentEntry customerID intent (if isDebit then -amount else amount) ledgerType key)
          pg pg') := by
  unfold applyPaymentChargebackMovement at h
  split at h
  · cases h
  rename_i hpos
  split at h
  · rename_i hkey
    exact .inl ⟨(Option.some.inj h).symm, by rw [hkey]; rfl⟩
  · cases h
  rename_i topup hkey htopup
  cases isDebit with
  | true =>
    simp only [true_and, not_true_eq_false, false_and, if_false, if_true] at h
    split at h
    · cases h
    · rename_i hcap
      exact .inr ⟨not_le.mp hpos, hkey, ⟨topup, htopup, not_lt.mp hcap⟩, booked_iff.mp h⟩
  | false =>
    simp only [Bool.false_eq_true, false_and, if_false, not_false_eq_true, true_and] at h
    split at h
    · cases h
    · rename_i hcap
      exact .inr ⟨not_le.mp hpos, hkey, not_lt.mp hcap, booked_iff.mp h⟩

end

end Espx.ControlPlane
