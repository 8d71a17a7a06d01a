import Espx.Payment.Store

/-!
# Webhooks of the payment providers

`ProcessStripeWebhook`, `ProcessCryptoWebhook` and `ProcessStripeDisputeWebhook`. Each is
one transaction that first records the event, so that an event id is handled once. Amounts
and references are those that the HTTP handler has decoded from the payload.
-/

namespace Espx.Payment

open Espx.Foundation Espx.Domain

/-- The arguments of `ProcessStripeWebhook`. -/
structure StripeWebhook where
  eventID : String
  eventType : WebhookType
  providerRef : String
  amountMicro : ℤ

/-- The status that a payment event asks for. -/
def targetStatus : WebhookType → Option IntentStatus
  | .paymentIntentSucceeded => some .succeeded
  | .paymentIntentPaymentFailed => some .failed
  | .paymentIntentCanceled => some .cancelled
  | _ => none

/-- `ProcessStripeWebhook` from the lock of its payment on. -/
def applyStripeWebhook (e : StripeWebhook) (id : UUID) (intent : PaymentIntent) (s : PaymentStore) :
    PaymentStore :=
  match targetStatus e.eventType with
  | none => s.updateWebhookStatus .stripe e.eventID .processed ""
  | some target =>
    if target = .succeeded ∧ e.amountMicro ≤ 0 then
      s.updateWebhookStatus .stripe e.eventID .ignored "zero or negative amount"
    else if e.amountMicro ≠ intent.amountMicro then
      s.updateWebhookStatus .stripe e.eventID .ignored "amount mismatch"
    else if isValidTransition intent.status target = false then
      s.updateWebhookStatus .stripe e.eventID .ignored
        ("invalid transition from " ++ intent.status.text ++ " to " ++ target.text)
    else
      let updated := s.updatePaymentIntentStatus id target (some e.providerRef)
      let settled := if target = .succeeded ∧ intent.status ≠ .succeeded then
          updated.createOutboxEvent .settleBalance
            (settleBalancePayload intent.customerID intent.amountMicro id .stripe e.providerRef)
        else updated
      settled.updateWebhookStatus .stripe e.eventID .processed ""

/-- `ProcessStripeWebhook`. -/
def processStripeWebhook (e : StripeWebhook) (s : PaymentStore) : PaymentStore :=
  match s.webhookEvents.get? (.stripe, e.eventID) with
  | some _ => s
  | none =>
    let received := s.createWebhookEvent .stripe e.eventID e.eventType e.providerRef e.amountMicro
    match received.intentByProviderRef .stripe e.providerRef with
    | none => received.updateWebhookStatus .stripe e.eventID .ignored "unknown provider_ref"
    | some (id, intent) => applyStripeWebhook e id intent received

/-- The limits of the crypto gateway. -/
structure CryptoConfig where
  cryptoMinPaymentMicro : ℤ
  cryptoConfirmationDepth : ℤ

/-- The arguments of `ProcessCryptoWebhook`, with the hold id it generates and its time. -/
structure CryptoWebhook where
  eventID : String
  eventType : WebhookType
  providerRef : String
  amountMicro : ℤ
  txHash : String
  confirmations : ℤ
  holdID : UUID
  now : ℤ

/-- The hold of a paid intent, released after two weeks. -/
def CryptoWebhook.hold (e : CryptoWebhook) (id : UUID) (intent : PaymentIntent) : CryptoHold where
  id := e.holdID
  paymentIntentID := id
  customerID := intent.customerID
  amountMicro := e.amountMicro
  currency := intent.currency
  txHash := e.txHash
  status := "HELD"
  releaseAt := e.now + 14 * 24 * 3600

/-- `ProcessCryptoWebhook` from the lock of its payment on. -/
def applyCryptoWebhook (cfg : CryptoConfig) (e : CryptoWebhook) (id : UUID) (intent : PaymentIntent)
    (s : PaymentStore) : PaymentStore :=
  if e.amountMicro ≤ 0 then
    s.updateWebhookStatus .crypto e.eventID .ignored "zero or negative amount"
  else if e.amountMicro < intent.amountMicro then
    (s.updatePaymentIntentStatus id .failed (some e.providerRef)).updateWebhookStatus .crypto
      e.eventID .ignored "underpay"
  else if e.amountMicro < cfg.cryptoMinPaymentMicro then
    (s.updatePaymentIntentStatus id .failed (some e.providerRef)).updateWebhookStatus .crypto
      e.eventID .ignored "below minimum payment limit"
  else if e.confirmations < cfg.cryptoConfirmationDepth then
    (s.updatePaymentIntentStatus id .processing (some e.providerRef)).updateWebhookStatus .crypto
      e.eventID .processed "pending confirmations"
  else if isValidTransition intent.status .succeeded = false then
    s.updateWebhookStatus .crypto e.eventID .ignored
      ("invalid transition from " ++ intent.status.text ++ " to " ++ IntentStatus.succeeded.text)
  else
    let updated := s.updatePaymentIntentStatus id .succeeded (some e.providerRef)
    let held := if intent.status = .succeeded then updated
      else { updated with cryptoHolds := e.hold id intent :: updated.cryptoHolds }
    held.updateWebhookStatus .crypto e.eventID .processed ""

/-- `ProcessCryptoWebhook`. -/
def processCryptoWebhook (cfg : CryptoConfig) (e : CryptoWebhook) (s : PaymentStore) : PaymentStore :=
  match s.webhookEvents.get? (.crypto, e.eventID) with
  | some _ => s
  | none =>
    let received := s.createWebhookEvent .crypto e.eventID e.eventType e.providerRef e.amountMicro
    match received.intentByProviderRef .crypto e.providerRef with
    | none => received.updateWebhookStatus .crypto e.eventID .ignored "unknown provider_ref"
    | some (id, intent) => applyCryptoWebhook cfg e id intent received

/-- The arguments of `ProcessStripeDisputeWebhook`. -/
structure DisputeWebhook where
  eventID : String
  eventType : WebhookType
  providerDisputeID : String
  paymentIntentRef : String
  disputeAmountMicro : ℤ
  stripeDisputeStatus : String

/-- `disputeClosedStatus`. -/
def disputeClosedStatus (stripeStatus : String) : Option DisputeStatus :=
  if stripeStatus = "won" then some .won
  else if stripeStatus = "lost" ∨ stripeStatus = "charge_refunded" then some .lost
  else none

/-- `intentStatusAllowsDispute`. -/
def intentStatusAllowsDispute (status : IntentStatus) : Bool :=
  status = .succeeded ∨ status = .refunded ∨ status = .disputed

section

variable (e : DisputeWebhook) (id : UUID) (intent : PaymentIntent) (s : PaymentStore)

/-- `CreatePaymentDispute` with the amount that the webhook chooses for it. -/
def createPaymentDispute : PaymentStore :=
  { s with
    disputes := s.disputes.insert e.providerDisputeID
      { paymentIntentID := id
        amountMicro := if e.disputeAmountMicro ≤ 0 then intent.amountMicro else e.disputeAmountMicro
        status := .opened
        withdrawnAmountMicro := 0
        reinstatedAmountMicro := 0 } }

/-- The step to `DISPUTED`, left out for a payment that is disputed already. -/
def markDisputed : PaymentStore :=
  if intent.status = .disputed then s else s.updatePaymentIntentStatus id .disputed none

/-- The branch of `charge.dispute.created`. -/
def disputeCreated : PaymentStore :=
  match s.disputes.get? e.providerDisputeID with
  | some _ => s.updateWebhookStatus .stripe e.eventID .processed ""
  | none =>
    let created := createPaymentDispute e id intent s
    if intent.status ≠ .disputed ∧ isValidTransition intent.status .disputed = false then
      created.updateWebhookStatus .stripe e.eventID .ignored "invalid transition to DISPUTED"
    else (markDisputed id intent created).updateWebhookStatus .stripe e.eventID .processed ""

/-- `ensureDisputeRow` where the dispute is not known yet. -/
def ensureDisputeRow : PaymentStore :=
  match s.disputes.get? e.providerDisputeID with
  | some _ => s
  | none => markDisputed id intent (createPaymentDispute e id intent s)

/-- The branch of `charge.dispute.funds_withdrawn`. -/
def disputeFundsWithdrawn : PaymentStore :=
  let ensured := ensureDisputeRow e id intent s
  let withdrawn := ((ensured.disputes.get? e.providerDisputeID).map
    PaymentDispute.withdrawnAmountMicro).getD 0
  if e.disputeAmountMicro ≤ withdrawn then
    ensured.updateWebhookStatus .stripe e.eventID .processed ""
  else
    let delta := e.disputeAmountMicro - withdrawn
    if intent.amountMicro < withdrawn + delta then
      ensured.updateWebhookStatus .stripe e.eventID .ignored "chargeback exceeds intent amount"
    else
      let applied := { ensured with disputes := ensured.disputes.modify e.providerDisputeID fun row =>
        { row with
          withdrawnAmountMicro := row.withdrawnAmountMicro + delta
          status := .fundsWithdrawn } }
      ((markDisputed id intent applied).createOutboxEvent .applyChargeback
        (applyChargebackPayload id intent.customerID delta e.providerDisputeID)).updateWebhookStatus
          .stripe e.eventID .processed ""

/-- The branch of `charge.dispute.funds_reinstated`. -/
def disputeFundsReinstated : PaymentStore :=
  match s.disputes.get? e.providerDisputeID with
  | none => s.updateWebhookStatus .stripe e.eventID .ignored "dispute not found for reinstatement"
  | some dispute =>
    if e.disputeAmountMicro ≤ dispute.reinstatedAmountMicro then
      s.updateWebhookStatus .stripe e.eventID .processed ""
    else
      let delta := e.disputeAmountMicro - dispute.reinstatedAmountMicro
      if dispute.withdrawnAmountMicro < dispute.reinstatedAmountMicro + delta then
        s.updateWebhookStatus .stripe e.eventID .ignored "reinstatement exceeds withdrawn amount"
      else
        let applied := { s with disputes := s.disputes.modify e.providerDisputeID fun row =>
          { row with
            reinstatedAmountMicro := row.reinstatedAmountMicro + delta
            status := .fundsReinstated } }
        (applied.createOutboxEvent .reverseChargeback
          (reverseChargebackPayload id intent.customerID delta
            e.providerDisputeID)).updateWebhookStatus .stripe e.eventID .processed ""

/-- `ClosePaymentDispute` and `UpdatePaymentDisputeStatus`. -/
def setDisputeStatus (status : DisputeStatus) (s : PaymentStore) : PaymentStore :=
  { s with disputes := s.disputes.modify e.providerDisputeID fun row => { row with status := status } }

/-- The branch of `charge.dispute.closed` and `charge.dispute.updated`. -/
def disputeClosed : PaymentStore :=
  let moved : PaymentStore :=
    match disputeClosedStatus e.stripeDisputeStatus with
    | some closed =>
      let updated := setDisputeStatus e closed s
      if closed = .won ∧ intent.status = .disputed then
        updated.updatePaymentIntentStatus id .succeeded none
      else updated
    | none => if e.eventType = .disputeUpdated then setDisputeStatus e .opened s else s
  moved.updateWebhookStatus .stripe e.eventID .processed ""

/-- `ProcessStripeDisputeWebhook` from the lock of its payment on. -/
def applyDisputeWebhook : PaymentStore :=
  if intentStatusAllowsDispute intent.status = false then
    s.updateWebhookStatus .stripe e.eventID .ignored
      ("intent status " ++ intent.status.text ++ " not disputable")
  else
    match e.eventType with
    | .disputeCreated => disputeCreated e id intent s
    | .disputeFundsWithdrawn => disputeFundsWithdrawn e id intent s
    | .disputeFundsReinstated => disputeFundsReinstated e id intent s
    | .disputeClosed => disputeClosed e id intent s
    | .disputeUpdated => disputeClosed e id intent s
    | _ => s.updateWebhookStatus .stripe e.eventID .processed "unhandled dispute event"

/-- `ProcessStripeDisputeWebhook`. -/
def processStripeDisputeWebhook : PaymentStore :=
  match s.webhookEvents.get? (.stripe, e.eventID) with
  | some _ => s
  | none =>
    let received := s.createWebhookEvent .stripe e.eventID e.eventType e.paymentIntentRef
      e.disputeAmountMicro
    if e.paymentIntentRef = "" then
      received.updateWebhookStatus .stripe e.eventID .ignored "missing payment_intent"
    else if e.disputeAmountMicro ≤ 0 ∧ e.eventType ≠ .disputeClosed ∧ e.eventType ≠ .disputeUpdated then
      received.updateWebhookStatus .stripe e.eventID .ignored "zero or negative dispute amount"
    else
      match received.intentByProviderRef .stripe e.paymentIntentRef with
      | none => received.updateWebhookStatus .stripe e.eventID .ignored "unknown payment_intent"
      | some (id, intent) => applyDisputeWebhook e id intent received

end

end Espx.Payment
