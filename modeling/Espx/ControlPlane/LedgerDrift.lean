import Espx.ControlPlane.PaymentLedger
import Espx.Foundation.Run

/-!
# The ledger and the balance

Invoicing compares a customer's balance with the sum of its ledger. Four writers do not match: a
reservation takes its budget from the balance and writes it as a credit, an autoscale transfer writes two
credits for movements that cancel out, and cancellation fees and reconciliation adjustments are ledger
rows without a movement of the balance.
-/

namespace Espx.ControlPlane

open Espx.Foundation Espx.Domain

/-- The writers of balances and of the ledger. -/
inductive BillingAction
  | topUp (customerID : UUID) (amount : ℤ) (idempotencyKey : String)
  | paymentCredit (customerID : UUID) (amount : ℤ) (key : String) (intent : UUID)
  | paymentRefund (customerID : UUID) (amount : ℤ) (key : String) (intent : UUID)
  | paymentChargeback (customerID : UUID) (amount : ℤ) (key : String) (intent : UUID)
  | paymentChargebackReversal (customerID : UUID) (amount : ℤ) (key : String) (intent : UUID)
  | create (spec : CampaignCreateSpec)
  | autoscale (customerID worst best : UUID) (shiftAmount : ℤ) (transferKey : String)
  | finalize (feeHundredths : ℤ) (id : UUID)
  | settleCampaign (item : SpendFlushItem)
  | settleCustomer (customerID : UUID) (amount : ℤ) (txID : String)
  | reconciliationAdjust (campaignID customerID : UUID) (ledgerAmt : ℤ)

/-- The transaction of an action. -/
def BillingAction.transaction : BillingAction → Pg → Option Pg
  | .topUp customerID amount key => topUpBalance customerID amount key
  | .paymentCredit customerID amount key intent => applyPaymentCredit customerID amount key intent
  | .paymentRefund customerID amount key intent => applyPaymentRefund customerID amount key intent
  | .paymentChargeback customerID amount key intent =>
    applyPaymentChargeback customerID amount key intent
  | .paymentChargebackReversal customerID amount key intent =>
    applyPaymentChargebackReversal customerID amount key intent
  | .create spec => createCampaign spec
  | .autoscale customerID worst best shiftAmount transferKey =>
    autoscaleTransfer customerID worst best shiftAmount transferKey
  | .finalize feeHundredths id => finalizeCancelledCampaign feeHundredths id
  | .settleCampaign item => ControlPlane.settleCampaign item
  | .settleCustomer customerID amount txID => updateBalance customerID amount txID
  | .reconciliationAdjust campaignID customerID ledgerAmt =>
    applyReconciliationAdjust campaignID customerID ledgerAmt

/-- One transaction, which leaves nothing behind when it is rolled back. -/
def billingStep (pg : Pg) (a : BillingAction) : Pg := (a.transaction pg).getD pg

/-- Balance less ledger sum, the difference of `CheckLedgerBalanceInvariant`. -/
def drift (u : UUID) (pg : Pg) : ℤ := balanceOf u pg - ledgerSum u pg

/-- `CheckLedgerBalanceInvariant` for a customer that exists. -/
def LedgerExplains (u : UUID) (pg : Pg) : Prop := |drift u pg| ≤ 1

/-- What an action settles of the customer's campaigns. -/
def campaignSettled (u : UUID) (pg : Pg) : BillingAction → ℤ
  | .settleCampaign item =>
    if item.txID ∈ pg.syncIdempotency ∨ (settleCampaign item pg).isNone then 0
    else (pg.campaigns.get? item.campaignID).elim 0 fun row =>
      if u = row.customerID then item.amountMicro else 0
  | _ => 0

/-- What an action settles of the customer's balance. -/
def customerSettled (u : UUID) (pg : Pg) : BillingAction → ℤ
  | .settleCustomer customerID amount txID =>
    if txID ∈ pg.syncIdempotency ∨ (updateBalance customerID amount txID pg).isNone ∨
        (pg.customers.get? customerID).isNone then 0
    else if u = customerID then amount else 0
  | _ => 0

/-- The actions that keep the difference: no reservation, transfer or adjustment but of nothing or of a
key that was used before, and no cancellation fee. -/
def BillingAction.Explained (u : UUID) (pg : Pg) : BillingAction → Prop
  | .create spec => spec.customerID = u →
      spec.budgetLimitMicro = 0 ∨ (pg.ledgerByHash spec.idempotencyKey).isSome
  | .autoscale customerID _ _ shiftAmount transferKey => customerID = u →
      shiftAmount = 0 ∨ (pg.ledgerByHash transferKey).isSome
  | .finalize feeHundredths id => ∀ row ∈ pg.campaigns.get? id,
      row.customerID = u → row.status = .draining → remainingBudget row * feeHundredths < 10000
  | .reconciliationAdjust _ customerID ledgerAmt => customerID = u → ledgerAmt = 0
  | _ => True

/-- The condition can be checked. -/
instance (u : UUID) (pg : Pg) : (a : BillingAction) → Decidable (a.Explained u pg)
  | .create spec => inferInstanceAs (Decidable (spec.customerID = u → _ ∨ _))
  | .autoscale customerID _ _ _ _ => inferInstanceAs (Decidable (customerID = u → _ ∨ _))
  | .finalize _ id => inferInstanceAs (Decidable (∀ row ∈ pg.campaigns.get? id,
      row.customerID = u → row.status = .draining → _ < (10000 : ℤ)))
  | .reconciliationAdjust _ customerID _ => inferInstanceAs (Decidable (customerID = u → _ = (0 : ℤ)))
  | .topUp .. | .paymentCredit .. | .paymentRefund .. | .paymentChargeback ..
  | .paymentChargebackReversal .. | .settleCampaign .. | .settleCustomer .. => .isTrue trivial

section

variable {u v : UUID} {pg pg' : Pg} {amount : ℤ} {key : String} {intent : UUID}

/-- Balance and ledger have moved by the same amount. -/
def Matched (u : UUID) (pg pg' : Pg) : Prop := ∃ m, Moves u m pg pg' ∧ m.balance = m.ledger

theorem Matched.refl (u : UUID) (pg : Pg) : Matched u pg pg := ⟨.zero, .of_same rfl rfl rfl, rfl⟩

/-- A balance that moves with a ledger row of the same amount. -/
theorem credit_matched {delta : ℤ} {e : LedgerEntry}
    (h : (updateCustomerBalanceManagement pg v delta).bind (·.createLedgerEntry e) = some pg')
    (hcust : e.customerID = v) (hamt : e.amount = delta)
    (htype : e.type ∉ [LedgerType.rtbCost, .operatorMargin, .publisherPayout, .fee]) : Matched u pg pg' :=
  ⟨_, credit_moves h hcust hamt htype, rfl⟩

theorem topUpBalance_matched (h : topUpBalance v amount key pg = some pg') : Matched u pg pg' := by
  unfold topUpBalance at h
  split at h
  · cases h
    exact .refl u pg
  · exact credit_matched h rfl rfl (by simp [ledgerEntry])

theorem Booked.matched {e : LedgerEntry} (h : Booked e pg pg')
    (htype : e.type ∉ [LedgerType.rtbCost, .operatorMargin, .publisherPayout, .fee]) : Matched u pg pg' :=
  credit_matched (booked_iff.mpr h) rfl rfl htype

theorem applyPaymentCredit_matched (h : applyPaymentCredit v amount key intent pg = some pg') :
    Matched u pg pg' := by
  rcases applyPaymentCredit_eq_some h with ⟨rfl, -⟩ | ⟨-, -, hbook⟩
  · exact .refl u pg'
  · exact hbook.matched (by simp [paymentEntry])

theorem applyPaymentRefund_matched (h : applyPaymentRefund v amount key intent pg = some pg') :
    Matched u pg pg' := by
  rcases applyPaymentRefund_eq_some h with ⟨rfl, -⟩ | ⟨-, -, -, hbook⟩
  · exact .refl u pg'
  · exact hbook.matched (by simp [paymentEntry])

/-- A chargeback or its reversal. -/
theorem applyPaymentChargebackMovement_matched {type : LedgerType} {isDebit : Bool}
    (htype : type ∉ [LedgerType.rtbCost, .operatorMargin, .publisherPayout, .fee])
    (h : applyPaymentChargebackMovement v amount key intent type isDebit pg = some pg') :
    Matched u pg pg' := by
  rcases applyPaymentChargebackMovement_eq_some h with ⟨rfl, -⟩ | ⟨-, -, -, hbook⟩
  · exact .refl u pg'
  · exact hbook.matched htype

/-- A reservation of nothing, or one that was made before. -/
theorem createCampaign_matched {spec : CampaignCreateSpec}
    (hwhy : (BillingAction.create spec).Explained u pg)
    (h : createCampaign spec pg = some pg') : Matched u pg pg' := by
  rcases createCampaign_moves (u := u) h with rfl | ⟨hfresh, hmoves⟩
  · exact .refl u pg'
  refine ⟨_, hmoves, ?_⟩
  by_cases hu : u = spec.customerID
  · rcases hwhy hu.symm with hzero | hused
    · simp [hzero]
    · rw [hfresh] at hused
      cases hused
  · simp [hu]

/-- A percentage that is less than one unit is nothing. -/
theorem percentHundredths_eq_zero {amount hundredths : ℤ} (h : amount * hundredths < 10000) :
    percentHundredths amount hundredths = 0 := by
  unfold percentHundredths
  split
  · rfl
  · rename_i hpos
    rw [not_or, not_le, not_le] at hpos
    have hnn : 0 ≤ amount * hundredths := mul_nonneg hpos.1.le hpos.2.le
    rw [Int.bmod_eq_of_le (by omega) (by omega)]
    exact Int.tdiv_eq_zero_of_lt hnn h

/-- A finalisation without fee. -/
theorem finalizeCancelledCampaign_matched {feeHundredths : ℤ} {id : UUID}
    (hwhy : (BillingAction.finalize feeHundredths id).Explained u pg)
    (h : finalizeCancelledCampaign feeHundredths id pg = some pg') : Matched u pg pg' := by
  obtain ⟨row, hrow, ⟨-, rfl⟩ | ⟨hdrain, hmoves⟩⟩ := finalizeCancelledCampaign_moves (u := u) h
  · exact .refl u pg'
  refine ⟨_, hmoves, ?_⟩
  by_cases hu : u = row.customerID
  · have hfee : cancellationFee feeHundredths row = 0 :=
      percentHundredths_eq_zero (hwhy row hrow hu.symm hdrain)
    simp [hu, hfee]
  · simp [hu]

theorem Matched.of_campaigns (hcusts : pg'.customers = pg.customers)
    (hled : pg'.ledger = pg.ledger) : Matched u pg pg' :=
  ⟨_, .of_campaigns hcusts hled, rfl⟩

theorem Matched.trans {pg'' : Pg} (h : Matched u pg pg') (h' : Matched u pg' pg'') :
    Matched u pg pg'' := by
  obtain ⟨m, hm, heq⟩ := h
  obtain ⟨n, hn, heq'⟩ := h'
  refine ⟨m.add n, hm.trans hn, ?_⟩
  rw [Movement.add, heq, heq']

theorem createLedgerEntry_matched {e : LedgerEntry} (h : pg.createLedgerEntry e = some pg')
    (hzero : e.customerID = u → e.amount = 0) : Matched u pg pg' := by
  refine ⟨_, createLedgerEntry_moves h, ?_⟩
  unfold ledgerPart
  split
  · rename_i hpart
    exact (hzero hpart.1).symm
  · rfl

theorem updateCustomerBalanceManagement_matched {delta : ℤ}
    (h : updateCustomerBalanceManagement pg v delta = some pg') (hzero : v = u → delta = 0) :
    Matched u pg pg' := by
  refine ⟨_, updateCustomerBalanceManagement_moves h, ?_⟩
  by_cases hu : u = v
  · simp [hzero hu.symm]
  · simp [hu]

/-- A transfer of nothing, or one that was made before. -/
theorem autoscaleTransfer_matched {worst best : UUID} {shiftAmount : ℤ} {transferKey : String}
    (hwhy : (BillingAction.autoscale v worst best shiftAmount transferKey).Explained u pg)
    (h : autoscaleTransfer v worst best shiftAmount transferKey pg = some pg') : Matched u pg pg' := by
  unfold autoscaleTransfer at h
  split at h
  · cases h
    exact .refl u pg
  split at h
  · cases h
    exact .refl u pg
  rename_i hfresh
  have hzero : v = u → shiftAmount = 0 := by
    intro hu
    rcases hwhy hu with hzero | hused
    · exact hzero
    · rw [hfresh] at hused
      cases hused
  split at h
  · split at h
    · cases h
      exact .refl u pg
    split at h
    · cases h
      exact .refl u pg
    split at h
    · cases h
      exact .refl u pg
    obtain ⟨credited, hcred, hrest⟩ := Option.bind_eq_some_iff.mp h
    obtain ⟨released, hfreed, hrest⟩ := Option.bind_eq_some_iff.mp hrest
    obtain ⟨debited, hdeb, hrest⟩ := Option.bind_eq_some_iff.mp hrest
    obtain ⟨frozen, hfrozen, hrest⟩ := Option.bind_eq_some_iff.mp hrest
    cases hrest
    have hcredit : Matched u pg credited := updateCustomerBalanceManagement_matched hcred hzero
    have hdebit : Matched u released debited :=
      updateCustomerBalanceManagement_matched hdeb fun hu => by rw [hzero hu, neg_zero]
    exact (((hcredit.trans (createLedgerEntry_matched hfreed hzero)).trans hdebit).trans
      (createLedgerEntry_matched hfrozen hzero)).trans (.of_campaigns rfl rfl)
  · cases h

/-- An adjustment by nothing. -/
theorem applyReconciliationAdjust_matched {camp : UUID} {ledgerAmt : ℤ}
    (hwhy : (BillingAction.reconciliationAdjust camp v ledgerAmt).Explained u pg)
    (h : applyReconciliationAdjust camp v ledgerAmt pg = some pg') : Matched u pg pg' := by
  obtain ⟨recorded, hrec, hrest⟩ := Option.bind_eq_some_iff.mp h
  have hentry : Matched u pg recorded := createLedgerEntry_matched hrec hwhy
  split at hrest
  · cases hrest
    exact hentry.trans (.of_campaigns rfl rfl)
  · cases hrest
    exact hentry

theorem Matched.drift (h : Matched u pg pg') : ControlPlane.drift u pg' = ControlPlane.drift u pg := by
  obtain ⟨m, hmoves, heq⟩ := h
  rw [ControlPlane.drift, hmoves.balance, hmoves.ledger, heq, ControlPlane.drift]
  ring

theorem drift_getD {out : Option Pg} (h : ∀ pg', out = some pg' → Matched u pg pg') :
    drift u (out.getD pg) = drift u pg := by
  cases out with
  | none => rfl
  | some pg' => exact (h pg' rfl).drift

/-- A settlement of a campaign writes the ledger alone. -/
theorem settleCampaign_drift (u : UUID) (pg : Pg) (item : SpendFlushItem) :
    drift u ((settleCampaign item pg).getD pg) =
      drift u pg + campaignSettled u pg (.settleCampaign item) := by
  by_cases hseen : item.txID ∈ pg.syncIdempotency
  · have hop : settleCampaign item pg = some pg := by
      simp only [settleCampaign, applySpendFlush, if_pos hseen]
      rfl
    rw [hop]
    simp [campaignSettled, hseen]
  · cases hop : settleCampaign item pg with
    | none => simp [campaignSettled, hop]
    | some pg' =>
      obtain ⟨row, hrow, -, -, -, hmoves⟩ := settleCampaign_moves (u := u) hseen hop
      simp only [drift, Option.getD_some, hmoves.balance, hmoves.ledger, campaignSettled, hseen, hop,
        hrow, Option.isNone_some, Bool.false_eq_true, or_self, if_false, Option.elim_some]
      split <;> ring

/-- A settlement of a customer moves the balance alone. -/
theorem settleCustomer_drift (u v : UUID) (pg : Pg) (amount : ℤ) (tx : String) :
    drift u ((updateBalance v amount tx pg).getD pg) =
      drift u pg - customerSettled u pg (.settleCustomer v amount tx) := by
  by_cases hseen : tx ∈ pg.syncIdempotency
  · have hop : updateBalance v amount tx pg = some pg := by
      rw [updateBalance, if_pos hseen]
    rw [hop]
    simp [customerSettled, hseen]
  cases hop : updateBalance v amount tx pg with
  | none => simp [customerSettled, hop]
  | some pg' =>
    cases hrow : pg.customers.get? v with
    | none =>
      rw [updateBalance, if_neg hseen, Pg.addCustomerBalance] at hop
      simp only [hrow] at hop
      cases hop
      simp [customerSettled, hrow, drift, balanceOf, ledgerSum]
    | some row =>
      have hmoves := @updateBalance_moves u v pg pg' amount tx hseen (by rw [hrow]; rfl) hop
      simp only [drift, Option.getD_some, hmoves.balance, hmoves.ledger, customerSettled, hseen, hop,
        hrow, Option.isNone_some, Bool.false_eq_true, or_self, if_false]
      split <;> ring

/-- An explained action changes the difference by what it settles on one side. -/
theorem billingStep_drift {a : BillingAction} (hwhy : a.Explained u pg) :
    drift u (billingStep pg a) = drift u pg + (campaignSettled u pg a - customerSettled u pg a) := by
  cases a with
  | settleCampaign item =>
    change drift u ((settleCampaign item pg).getD pg) =
      drift u pg + (campaignSettled u pg (.settleCampaign item) - 0)
    rw [settleCampaign_drift, sub_zero]
  | settleCustomer v amount tx =>
    change drift u ((updateBalance v amount tx pg).getD pg) =
      drift u pg + (0 - customerSettled u pg (.settleCustomer v amount tx))
    rw [settleCustomer_drift, zero_sub, sub_eq_add_neg]
  | topUp v amount key =>
    exact (drift_getD fun _ h => topUpBalance_matched h).trans (add_zero _).symm
  | paymentCredit v amount key intent =>
    exact (drift_getD fun _ h => applyPaymentCredit_matched h).trans (add_zero _).symm
  | paymentRefund v amount key intent =>
    exact (drift_getD fun _ h => applyPaymentRefund_matched h).trans (add_zero _).symm
  | paymentChargeback v amount key intent | paymentChargebackReversal v amount key intent =>
    exact (drift_getD fun _ h => applyPaymentChargebackMovement_matched (by decide) h).trans
      (add_zero _).symm
  | create spec =>
    exact (drift_getD fun _ h => createCampaign_matched hwhy h).trans (add_zero _).symm
  | autoscale v worst best shiftAmount transferKey =>
    exact (drift_getD fun _ h => autoscaleTransfer_matched hwhy h).trans (add_zero _).symm
  | finalize feeHundredths id =>
    exact (drift_getD fun _ h => finalizeCancelledCampaign_matched hwhy h).trans (add_zero _).symm
  | reconciliationAdjust camp v ledgerAmt =>
    exact (drift_getD fun _ h => applyReconciliationAdjust_matched hwhy h).trans (add_zero _).symm

end

/-- After every run of explained actions that has settled the same on both sides, the ledger
explains the balance if it did so before. -/
theorem ledger_explains_balance (u : UUID) (pg : Pg) (hstart : balanceOf u pg = ledgerSum u pg)
    (actions : List BillingAction)
    (hexplained : Admissible (fun pg a => a.Explained u pg) billingStep pg actions)
    (hsettled : runTotal (campaignSettled u) billingStep pg actions =
      runTotal (customerSettled u) billingStep pg actions) :
    LedgerExplains u (run billingStep pg actions) := by
  have htotal := hexplained.quantity (fun pg a h => billingStep_drift (u := u) h)
  have hdrift : drift u pg = 0 := by rw [drift, hstart, sub_self]
  rw [runTotal_sub, hsettled, sub_self, add_zero, hdrift] at htotal
  rw [LedgerExplains, htotal]
  decide

/-- The row of a campaign with a budget of 100. -/
def sampleSpecRow (status : CampaignStatus) : CampaignRow := { sampleSpec.row with status := status }

/-- A customer without money and two such campaigns. -/
def sampleCampaigns (status : CampaignStatus) : Pg :=
  { sampleAccount 0 0 with
    campaigns := (Table.empty.insert sampleCampaign (sampleSpecRow status)).insert sampleCustomer
      (sampleSpecRow status) }

/-- Top-up, payment, refund, settlement on both sides, and a finalisation without fee. -/
def sampleExplained : List BillingAction :=
  [.topUp sampleCustomer 1000 "topup-1", .paymentCredit sampleCustomer 30 "payment-1" sampleCampaign,
    .paymentRefund sampleCustomer 10 "refund-1" sampleCampaign, .settleCampaign (sampleDebits 5),
    .settleCustomer sampleCustomer 5 "customer-1", .finalize 0 sampleCampaign]

/-- The ledger explains the balance of the sample run, which is 1110. -/
theorem ledger_explains_balance_sample :
    LedgerExplains sampleCustomer (run billingStep (sampleCampaigns .draining) sampleExplained) ∧
      balanceOf sampleCustomer (run billingStep (sampleCampaigns .draining) sampleExplained) = 1110 :=
  ⟨ledger_explains_balance sampleCustomer (sampleCampaigns .draining) (by decide +kernel)
    sampleExplained (by decide +kernel) (by decide +kernel), by decide +kernel⟩

/-- A reservation of 100, a transfer of 10, a fee of 10 and an adjustment by 5, each after a top-up of
1000: the difference is -200, -20, -10 and -5, with nothing to settle. -/
theorem ledger_drifts :
    balanceOf sampleCustomer (sampleCampaigns .active) =
      ledgerSum sampleCustomer (sampleCampaigns .active) ∧
    balanceOf sampleCustomer (sampleCampaigns .draining) =
      ledgerSum sampleCustomer (sampleCampaigns .draining) ∧
    drift sampleCustomer (run billingStep (sampleCampaigns .active)
      [.topUp sampleCustomer 1000 "topup-1", .create { sampleSpec with campaignID := uuidNil }]) = -200 ∧
    drift sampleCustomer (run billingStep (sampleCampaigns .active)
      [.topUp sampleCustomer 1000 "topup-1",
        .autoscale sampleCustomer sampleCampaign sampleCustomer 10 "transfer-1"]) = -20 ∧
    drift sampleCustomer (run billingStep (sampleCampaigns .draining)
      [.topUp sampleCustomer 1000 "topup-1", .finalize 1000 sampleCampaign]) = -10 ∧
    drift sampleCustomer (run billingStep (sampleCampaigns .active)
      [.topUp sampleCustomer 1000 "topup-1",
        .reconciliationAdjust sampleCampaign sampleCustomer 5]) = -5 := by
  decide +kernel

end Espx.ControlPlane
