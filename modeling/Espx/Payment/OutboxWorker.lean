import Espx.Payment.Webhooks
import Espx.Settlement.System

/-!
# The outbox worker of the payment service

A worker leases a batch of rows, makes the settlement call of each and marks its row; the batch and the
result of the last call are in memory only. Every statement and every call may fail, or succeed and lose
its answer, a worker may crash between any two of them, and a lease that has run out gives the row to
another worker. Webhooks arrive at any point.
-/

namespace Espx.Payment

open Espx.Foundation Espx.Domain Espx.ControlPlane Espx.Settlement

/-- The settlement call for a type of event. -/
def OutboxEventType.kind : OutboxEventType → PaymentKind
  | .settleBalance => .credit
  | .reverseBalance => .refund
  | .applyChargeback => .chargeback
  | .reverseChargeback => .chargebackReversal

/-- The settlement call of an event. -/
def OutboxEvent.call (e : OutboxEvent) : PaymentCall where
  kind := e.eventType.kind
  customerID := e.payload.customerID
  amount := e.payload.amountMicro
  key := e.payload.ledgerIdempotencyKey

/-- `handleOutboxEvent`. -/
def handleOutboxEvent (e : OutboxEvent) (pg : Pg) : Option Pg :=
  e.call.transaction e.payload.paymentIntentID pg

/-- `IsSettlementNotFound` for a call that the ledger has refused: there is no top-up, or the
checks have passed and there is no customer. -/
def isSettlementNotFound (intent : UUID) (call : PaymentCall) (pg : Pg) : Bool :=
  let customerMissing := (pg.customers.get? call.customerID).isNone
  match call.kind, ledgerByPaymentIntent pg intent with
  | .credit, _ => customerMissing
  | _, none => 0 < call.amount
  | .refund, some topup =>
    0 < call.amount ∧ sumForIntent pg intent .paymentRefund abs + call.amount ≤ topup.amount ∧
      customerMissing
  | .chargeback, some topup =>
    0 < call.amount ∧
      sumForIntent pg intent .paymentRefund abs + netChargeback pg intent + call.amount ≤ topup.amount ∧
      customerMissing
  | .chargebackReversal, some _ =>
    0 < call.amount ∧ call.amount ≤ netChargeback pg intent ∧ customerMissing

/-- What a worker knows of the call it has made. -/
inductive HandleResult
  | done
  | failed (isFatal : Bool)
  deriving DecidableEq, Repr

namespace PaymentStore

variable (s : PaymentStore)

/-- `GetPendingOutboxEventsForUpdate`. Its transaction is one step, in which no other holds a row, and what
`SKIP LOCKED` leaves is the prefix. -/
def getPendingOutboxEventsForUpdate (now : ℤ) (limit : ℕ) : List OutboxEvent :=
  (s.outbox.filter fun e => e.status = .pending ∨
    (e.status = .processing ∧ e.leaseUntil.any (· < now) = true)).take limit

/-- `LeaseOutboxEvents`. -/
def leaseOutboxEvents (ids : List ℕ) (leaseUntil : ℤ) : PaymentStore :=
  { s with outbox := s.outbox.map fun e => if e.id ∈ ids then
      { e with status := .processing, leaseUntil := some leaseUntil, attempts := e.attempts + 1 }
    else e }

/-- `MarkOutboxEventProcessed`. -/
def markOutboxEventProcessed (id : ℕ) : PaymentStore :=
  s.updateOutboxEvent id fun e => { e with status := .processed }

/-- `MarkOutboxEventFailed`. -/
def markOutboxEventFailed (id : ℕ) (attempts : ℤ) : PaymentStore :=
  s.updateOutboxEvent id fun e =>
    { e with status := if attempts ≤ e.attempts then .dead else .pending, leaseUntil := none }

/-- `reclaimStaleProcessing`. -/
def reclaimStaleProcessing (now : ℤ) : PaymentStore :=
  { s with outbox := s.outbox.map fun e =>
      if e.status = .processing ∧ e.leaseUntil.any (· < now) = true then
        { e with status := .pending, leaseUntil := none }
      else e }

/-- `markOutboxEventRetryable`. The update of a payment that does not exist rolls the marking
back. -/
def markOutboxEventRetryable (maxRetries : ℤ) (e : OutboxEvent) (isFatal : Bool) : PaymentStore :=
  let maxAttempts := if maxRetries ≤ 0 then 5 else maxRetries
  if isFatal then
    let dead := s.markOutboxEventFailed e.id 0
    if e.eventType = .settleBalance then
      match s.intents.get? e.payload.paymentIntentID with
      | none => s
      | some _ => dead.updatePaymentIntentStatus e.payload.paymentIntentID .settlementFailed
          (some e.payload.providerRef)
    else dead
  else s.markOutboxEventFailed e.id maxAttempts

end PaymentStore

/-- The memory of a worker: the rows of its batch still to be marked, as they were read, and the result of
the call for the first. -/
structure OutboxWorker where
  outboxEvents : List OutboxEvent
  handled : Option HandleResult

/-- The payment schema, the ledger and the workers. -/
structure PaymentSystem (W : Type*) where
  store : PaymentStore
  pg : Pg
  workers : W → OutboxWorker

/-- The steps of the system. -/
inductive PaymentAction (W : Type*)
  | stripeWebhook (e : StripeWebhook)
  | disputeWebhook (e : DisputeWebhook)
  | reclaim (now : ℤ)
  | lease (w : W) (limit : ℕ) (now : ℤ) (reply : Reply)
  | handle (w : W) (reply : Reply)
  | mark (w : W) (reply : Reply)
  | crash (w : W)

namespace PaymentSystem

variable {W : Type*} [DecidableEq W] (s : PaymentSystem W) (w : W)

/-- The system with the memory of a worker replaced. -/
def setWorker (memory : OutboxWorker) : PaymentSystem W :=
  { s with workers := Function.update s.workers w memory }

/-- The first transaction of `ProcessOutbox`, by a worker without a batch. The lease is thirty seconds; in
memory rows are as they were before it. -/
def lease (limit : ℕ) (now : ℤ) (reply : Reply) : PaymentSystem W :=
  match (s.workers w).outboxEvents with
  | _ :: _ => s
  | [] =>
    let events := s.store.getPendingOutboxEventsForUpdate now limit
    let leased := s.store.leaseOutboxEvents (events.map OutboxEvent.id) (now + 30)
    { s with store := reply.after s.store leased }.setWorker w
      ⟨if reply = Reply.received then events else [], none⟩

/-- The settlement call for the next row of the batch. -/
def handle (reply : Reply) : PaymentSystem W :=
  match s.workers w with
  | ⟨e :: rest, none⟩ =>
    let settled := handleOutboxEvent e s.pg
    let result : HandleResult :=
      if reply = .received then
        match settled with
        | some _ => .done
        | none => .failed (isSettlementNotFound e.payload.paymentIntentID e.call s.pg)
      else .failed false
    { s with pg := reply.after s.pg (settled.getD s.pg) }.setWorker w ⟨e :: rest, some result⟩
  | _ => s

/-- The marking of the row that was handled. -/
def mark (maxRetries : ℤ) (reply : Reply) : PaymentSystem W :=
  match s.workers w with
  | ⟨e :: rest, some result⟩ =>
    let marked : PaymentStore :=
      match result with
      | .done => s.store.markOutboxEventProcessed e.id
      | .failed isFatal => s.store.markOutboxEventRetryable maxRetries e isFatal
    { s with store := reply.after s.store marked }.setWorker w ⟨rest, none⟩
  | _ => s

/-- One step of the system. -/
def step (maxRetries : ℤ) : PaymentAction W → PaymentSystem W
  | .stripeWebhook e => { s with store := processStripeWebhook e s.store }
  | .disputeWebhook e => { s with store := processStripeDisputeWebhook e s.store }
  | .reclaim now => { s with store := s.store.reclaimStaleProcessing now }
  | .lease w limit now reply => s.lease w limit now reply
  | .handle w reply => s.handle w reply
  | .mark w reply => s.mark w maxRetries reply
  | .crash w => s.setWorker w ⟨[], none⟩

end PaymentSystem

/-- A payment of one hundred that waits for its provider. -/
def samplePayment : PaymentIntent :=
  ⟨ControlPlane.sampleCustomer, 100, "USD", .pendingProvider, .stripe, some "pi-1"⟩

/-- The payment, a customer without funds, and an idle worker. -/
def samplePaymentSystem : PaymentSystem Unit where
  store := ⟨Table.empty.insert ControlPlane.sampleIntent samplePayment, Table.empty, [], Table.empty, []⟩
  pg := ControlPlane.sampleAccount 0 0
  workers := fun _ => ⟨[], none⟩

/-- A worker that leases, handles and marks one row. -/
def sampleDelivery : List (PaymentAction Unit) :=
  [.lease () 100 0 .received, .handle () .received, .mark () .received]

end Espx.Payment
