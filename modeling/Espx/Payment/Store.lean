import Espx.ControlPlane.PaymentReversals

/-!
# The payment schema

The tables of the payment service and the statements on them. Webhook and outbox rows keep the decoded
content of their payload; rows are in the order of their creation. Columns that no modelled statement
reads are left out.
-/

namespace Espx.Payment

open Espx.Foundation Espx.Domain Espx.ControlPlane

/-- `payment_intent_status`. -/
inductive IntentStatus
  | created
  | pendingProvider
  | processing
  | succeeded
  | failed
  | cancelled
  | refunded
  | disputed
  | settlementFailed
  deriving DecidableEq, Repr

/-- The text of a status. -/
def IntentStatus.text : IntentStatus → String
  | .created => "CREATED"
  | .pendingProvider => "PENDING_PROVIDER"
  | .processing => "PROCESSING"
  | .succeeded => "SUCCEEDED"
  | .failed => "FAILED"
  | .cancelled => "CANCELLED"
  | .refunded => "REFUNDED"
  | .disputed => "DISPUTED"
  | .settlementFailed => "SETTLEMENT_FAILED"

/-- `isValidTransition`. -/
def isValidTransition (oldStatus newStatus : IntentStatus) : Bool :=
  if oldStatus = newStatus then true
  else
    match oldStatus with
    | .created => true
    | .pendingProvider => newStatus ≠ .created
    | .processing => newStatus ≠ .created ∧ newStatus ≠ .pendingProvider
    | .succeeded => newStatus = .refunded ∨ newStatus = .disputed
    | .refunded => newStatus = .disputed
    | .disputed => newStatus = .succeeded
    | .failed | .cancelled | .settlementFailed => false

/-- The column `provider`. -/
inductive Provider
  | stripe
  | crypto
  deriving DecidableEq, Repr

/-- A row of `payment_intents`. -/
structure PaymentIntent where
  customerID : UUID
  amountMicro : ℤ
  currency : String
  status : IntentStatus
  provider : Provider
  providerRef : Option String

/-- The type of a webhook event. -/
inductive WebhookType
  | paymentIntentSucceeded
  | paymentIntentPaymentFailed
  | paymentIntentCanceled
  | disputeCreated
  | disputeUpdated
  | disputeClosed
  | disputeFundsWithdrawn
  | disputeFundsReinstated
  | other (name : String)
  deriving DecidableEq, Repr

/-- `webhook_event_status`. -/
inductive WebhookStatus
  | received
  | processed
  | failed
  | ignored
  deriving DecidableEq, Repr

/-- A row of `webhook_events`, with the amount and the reference of its payload. -/
structure WebhookEvent where
  eventType : WebhookType
  providerRef : String
  amountMicro : ℤ
  status : WebhookStatus
  errorMessage : Option String

/-- The event types of the outbox. -/
inductive OutboxEventType
  | settleBalance
  | reverseBalance
  | applyChargeback
  | reverseChargeback
  deriving DecidableEq, Repr

/-- The payloads of the outbox, which have the same fields; the reference is that of the payment,
the refund or the dispute. -/
structure OutboxPayload where
  customerID : UUID
  amountMicro : ℤ
  ledgerIdempotencyKey : String
  paymentIntentID : UUID
  provider : Provider
  providerRef : String

/-- `outbox_status`. -/
inductive OutboxStatus
  | pending
  | processing
  | processed
  | dead
  deriving DecidableEq, Repr

/-- A row of `payment_outbox`. -/
structure OutboxEvent where
  id : ℕ
  eventType : OutboxEventType
  payload : OutboxPayload
  status : OutboxStatus
  leaseUntil : Option ℤ
  attempts : ℕ

/-- `dispute_status`. -/
inductive DisputeStatus
  | opened
  | fundsWithdrawn
  | fundsReinstated
  | won
  | lost
  deriving DecidableEq, Repr

/-- A row of `payment_disputes`. -/
structure PaymentDispute where
  paymentIntentID : UUID
  amountMicro : ℤ
  status : DisputeStatus
  withdrawnAmountMicro : ℤ
  reinstatedAmountMicro : ℤ

/-- A row of `crypto_holds`. -/
structure CryptoHold where
  id : UUID
  paymentIntentID : UUID
  customerID : UUID
  amountMicro : ℤ
  currency : String
  txHash : String
  status : String
  releaseAt : ℤ

/-- The payment schema. Disputes are keyed by the provider's id. -/
structure PaymentStore where
  intents : Table UUID PaymentIntent
  webhookEvents : Table (Provider × String) WebhookEvent
  outbox : List OutboxEvent
  disputes : Table String PaymentDispute
  cryptoHolds : List CryptoHold

namespace PaymentStore

variable (s : PaymentStore)

/-- The payment of a provider's reference, as the webhooks lock it. -/
def intentByProviderRef (provider : Provider) (ref : String) : Option (UUID × PaymentIntent) :=
  s.intents.rows.find? fun row => row.2.provider = provider ∧ row.2.providerRef = some ref

/-- `UpdatePaymentIntentStatus`; without a reference the old one is kept. -/
def updatePaymentIntentStatus (id : UUID) (status : IntentStatus) (ref : Option String) :
    PaymentStore :=
  { s with intents := s.intents.modify id fun row =>
      { row with status := status, providerRef := ref.or row.providerRef } }

/-- `CreateWebhookEvent`. -/
def createWebhookEvent (provider : Provider) (eventID : String) (eventType : WebhookType)
    (ref : String) (amountMicro : ℤ) : PaymentStore :=
  { s with
    webhookEvents :=
      s.webhookEvents.insert (provider, eventID) ⟨eventType, ref, amountMicro, .received, none⟩ }

/-- `updateStripeWebhookStatus` and `updateCryptoWebhookStatus`. -/
def updateWebhookStatus (provider : Provider) (eventID : String) (status : WebhookStatus)
    (errMsg : String) : PaymentStore :=
  { s with
    webhookEvents := s.webhookEvents.modify (provider, eventID) fun row =>
      { row with
        status := status
        errorMessage := if errMsg = "" then row.errorMessage else some errMsg } }

/-- `CreateOutboxEvent`. -/
def createOutboxEvent (eventType : OutboxEventType) (payload : OutboxPayload) : PaymentStore :=
  { s with outbox := s.outbox ++ [⟨s.outbox.length, eventType, payload, .pending, none, 0⟩] }

/-- An update of one outbox row. -/
def updateOutboxEvent (id : ℕ) (f : OutboxEvent → OutboxEvent) : PaymentStore :=
  { s with outbox := s.outbox.map fun e => if e.id = id then f e else e }

end PaymentStore

section

variable {s : PaymentStore} {provider : Provider} {ref : String} {id : UUID} {intent : PaymentIntent}

/-- A payment found by its reference is a row of the table. -/
theorem intentByProviderRef_get (h : s.intentByProviderRef provider ref = some (id, intent)) :
    s.intents.get? id = some intent :=
  s.intents.get?_of_mem (List.mem_of_find?_eq_some h)

/-- A payment found by its reference has it. -/
theorem intentByProviderRef_ref (h : s.intentByProviderRef provider ref = some (id, intent)) :
    intent.provider = provider ∧ intent.providerRef = some ref := by
  simpa using List.find?_some h

end

/-- `ledgerIdempotencyKey`. -/
def ledgerIdempotencyKey (intentID : UUID) : String := "payment:" ++ uuidString intentID

/-- `chargebackWithdrawnLedgerKey`. -/
def chargebackWithdrawnLedgerKey (providerDisputeID : String) : String :=
  "chargeback:withdrawn:" ++ providerDisputeID

/-- `chargebackReinstatedLedgerKey`. -/
def chargebackReinstatedLedgerKey (providerDisputeID : String) : String :=
  "chargeback:reinstated:" ++ providerDisputeID

/-- `marshalSettleBalanceOutbox`. -/
def settleBalancePayload (customerID : UUID) (amountMicro : ℤ) (intentID : UUID) (provider : Provider)
    (providerRef : String) : OutboxPayload where
  customerID := customerID
  amountMicro := amountMicro
  ledgerIdempotencyKey := ledgerIdempotencyKey intentID
  paymentIntentID := intentID
  provider := provider
  providerRef := providerRef

/-- `applyChargebackPayload`. -/
def applyChargebackPayload (intentID customerID : UUID) (amountMicro : ℤ)
    (providerDisputeID : String) : OutboxPayload where
  customerID := customerID
  amountMicro := amountMicro
  ledgerIdempotencyKey := chargebackWithdrawnLedgerKey providerDisputeID
  paymentIntentID := intentID
  provider := .stripe
  providerRef := providerDisputeID

/-- `reverseChargebackPayload`. -/
def reverseChargebackPayload (intentID customerID : UUID) (amountMicro : ℤ)
    (providerDisputeID : String) : OutboxPayload where
  customerID := customerID
  amountMicro := amountMicro
  ledgerIdempotencyKey := chargebackReinstatedLedgerKey providerDisputeID
  paymentIntentID := intentID
  provider := .stripe
  providerRef := providerDisputeID

end Espx.Payment
