import Espx.Payment.OutboxWorker

/-!
# The outbox as a queue

What the steps of the payment service leave as it is: the terms of a payment, the webhooks that were
recorded, and the content of outbox rows, which are only added at the end, by a webhook one at most.
Batches in memory are copies of outbox rows.
-/

namespace Espx.Payment

open Espx.Foundation Espx.Domain Espx.ControlPlane Espx.Settlement

/-- What no statement on an outbox row changes. -/
def OutboxEvent.content (e : OutboxEvent) : ℕ × OutboxEventType × OutboxPayload :=
  (e.id, e.eventType, e.payload)

/-- The contents of the outbox, in the order of creation. -/
def PaymentStore.contents (s : PaymentStore) : List (ℕ × OutboxEventType × OutboxPayload) :=
  s.outbox.map OutboxEvent.content

/-- The columns of a payment that no step changes. -/
def termsOf (id : UUID) (s : PaymentStore) : Option (UUID × ℤ × Provider × Option String) :=
  (s.intents.get? id).map fun row => (row.customerID, row.amountMicro, row.provider, row.providerRef)

/-- The terms of payments and the recorded webhooks are kept. -/
structure Keeps (s s' : PaymentStore) : Prop where
  terms : ∀ id, termsOf id s' = termsOf id s
  webhooks : ∀ key row, s.webhookEvents.get? key = some row → s'.webhookEvents.get? key = some row

section

variable {s : PaymentStore}

theorem Keeps.refl (s : PaymentStore) : Keeps s s := ⟨fun _ => rfl, fun _ _ h => h⟩

/-- An update of rows that keeps the content of each keeps the contents. -/
theorem map_content (p : OutboxEvent → Prop) [DecidablePred p] {f : OutboxEvent → OutboxEvent}
    (h : ∀ e, (f e).content = e.content) (outbox : List OutboxEvent) :
    (outbox.map fun e => if p e then f e else e).map OutboxEvent.content =
      outbox.map OutboxEvent.content := by
  rw [List.map_map]
  apply List.map_congr_left
  intro e _
  dsimp only [Function.comp]
  split
  · exact h e
  · rfl

theorem contents_updateOutboxEvent (id : ℕ) (f : OutboxEvent → OutboxEvent)
    (h : ∀ e, (f e).content = e.content) : (s.updateOutboxEvent id f).contents = s.contents :=
  map_content _ h _

/-- A status update that writes the reference that a payment has keeps all terms. -/
theorem termsOf_updatePaymentIntentStatus {id : UUID} (status : IntentStatus) {ref : Option String}
    (h : ∀ row, s.intents.get? id = some row → ref.or row.providerRef = row.providerRef)
    (other : UUID) : termsOf other (s.updatePaymentIntentStatus id status ref) = termsOf other s := by
  unfold termsOf PaymentStore.updatePaymentIntentStatus
  by_cases hother : other = id
  · subst hother
    rw [Table.get?_modify_self]
    cases hrow : s.intents.get? other with
    | none => rfl
    | some row => simp [h row hrow]
  · rw [Table.get?_modify_of_ne _ _ hother]

/-- The row of a new event and its update leave all other webhooks as they are. -/
theorem webhooks_kept {key : Provider × String} {row : WebhookEvent}
    {f : WebhookEvent → WebhookEvent} (hnew : s.webhookEvents.get? key = none)
    (other : Provider × String) (old : WebhookEvent) (hold : s.webhookEvents.get? other = some old) :
    ((s.webhookEvents.insert key row).modify key f).get? other = some old := by
  have hother : other ≠ key := by
    rintro rfl
    rw [hnew] at hold
    cases hold
  rw [Table.get?_modify_of_ne _ _ hother, Table.get?_insert_of_ne _ _ hother]
  exact hold

/-- A failure is marked: at most the row's status changes, and terms and webhooks are kept. -/
structure FailureMarked (id : ℕ) (s s' : PaymentStore) : Prop where
  outbox : s'.outbox = s.outbox ∨ ∃ attempts, s'.outbox = (s.markOutboxEventFailed id attempts).outbox
  disputes : s'.disputes = s.disputes
  keeps : Keeps s s'

/-- Marking a failure, in all its variants, when the row has the reference of its payment. -/
theorem markOutboxEventRetryable_marked (maxRetries : ℤ) {e : OutboxEvent} (isFatal : Bool)
    (h : e.eventType = .settleBalance → ∀ row, s.intents.get? e.payload.paymentIntentID = some row →
      row.providerRef = some e.payload.providerRef) :
    FailureMarked e.id s (s.markOutboxEventRetryable maxRetries e isFatal) := by
  unfold PaymentStore.markOutboxEventRetryable
  dsimp only
  split
  · split
    · rename_i htype
      split
      · exact ⟨.inl rfl, rfl, Keeps.refl s⟩
      refine ⟨.inr ⟨0, rfl⟩, rfl, ?_, fun _ _ hrow => hrow⟩
      intro id
      refine termsOf_updatePaymentIntentStatus _ ?_ id
      intro row hrow
      rw [h htype row hrow]
      rfl
    · exact ⟨.inr ⟨0, rfl⟩, rfl, fun _ => rfl, fun _ _ hrow => hrow⟩
  · exact ⟨.inr ⟨_, rfl⟩, rfl, fun _ => rfl, fun _ _ hrow => hrow⟩

variable {e : StripeWebhook}

/-- A success for the whole amount was processed under a payment's reference. -/
def PaidInFull (ref : String) (amountMicro : ℤ) (s : PaymentStore) : Prop :=
  ∃ eventID row, s.webhookEvents.get? (.stripe, eventID) = some row ∧
    row.eventType = .paymentIntentSucceeded ∧ row.providerRef = ref ∧ row.amountMicro = amountMicro ∧
    row.status = .processed

/-- What was paid stays paid. -/
theorem PaidInFull.mono {ref : String} {amountMicro : ℤ} {s' : PaymentStore}
    (h : PaidInFull ref amountMicro s) (hkeeps : Keeps s s') : PaidInFull ref amountMicro s' := by
  obtain ⟨eventID, row, hrow, hflds⟩ := h
  exact ⟨eventID, row, hkeeps.webhooks _ _ hrow, hflds⟩

/-- What a payment webhook adds to the outbox: nothing, or the row that settles its payment. -/
inductive StripeEffect (s : PaymentStore) (e : StripeWebhook) (s' : PaymentStore) : Prop
  | kept (houtbox : s'.outbox = s.outbox)
  | settles (id : UUID) (intent : PaymentIntent)
      (hintent : s.intentByProviderRef .stripe e.providerRef = some (id, intent))
      (hpaid : PaidInFull e.providerRef intent.amountMicro s')
      (houtbox : s'.outbox = s.outbox ++ [⟨s.outbox.length, .settleBalance,
        settleBalancePayload intent.customerID intent.amountMicro id .stripe e.providerRef,
        .pending, none, 0⟩])

/-- Only a success settles. -/
theorem targetStatus_succeeded {type : WebhookType} (h : targetStatus type = some .succeeded) :
    type = .paymentIntentSucceeded := by
  unfold targetStatus at h
  split at h
  · rfl
  · cases h
  · cases h
  · cases h

/-- A payment webhook has one of the effects, and keeps terms, webhooks and disputes. -/
structure StripeHandled (s : PaymentStore) (e : StripeWebhook) (s' : PaymentStore) : Prop where
  effect : StripeEffect s e s'
  keeps : Keeps s s'
  disputes : s'.disputes = s.disputes

theorem processStripeWebhook_handled (e : StripeWebhook) (s : PaymentStore) :
    StripeHandled s e (processStripeWebhook e s) := by
  unfold processStripeWebhook
  split
  · exact ⟨.kept rfl, Keeps.refl s, rfl⟩
  rename_i hnew
  dsimp only
  split
  · exact ⟨.kept rfl, ⟨fun _ => rfl, webhooks_kept hnew⟩, rfl⟩
  rename_i id intent hfound
  have href := (intentByProviderRef_ref hfound).2
  have hget : s.intents.get? id = some intent := intentByProviderRef_get hfound
  unfold applyStripeWebhook
  split
  · exact ⟨.kept rfl, ⟨fun _ => rfl, webhooks_kept hnew⟩, rfl⟩
  rename_i target htgt
  have hterms (other : UUID) :
      termsOf other (s.updatePaymentIntentStatus id target (some e.providerRef)) =
        termsOf other s := by
    refine termsOf_updatePaymentIntentStatus _ ?_ other
    intro row hrow
    rw [hget, Option.some.injEq] at hrow
    rw [← hrow, href]
    rfl
  split
  · exact ⟨.kept rfl, ⟨fun _ => rfl, webhooks_kept hnew⟩, rfl⟩
  split
  · exact ⟨.kept rfl, ⟨fun _ => rfl, webhooks_kept hnew⟩, rfl⟩
  rename_i hamt
  split
  · exact ⟨.kept rfl, ⟨fun _ => rfl, webhooks_kept hnew⟩, rfl⟩
  split
  · rename_i hset
    refine ⟨.settles id intent hfound ?_ rfl, ⟨hterms, webhooks_kept hnew⟩, rfl⟩
    have htype := targetStatus_succeeded (htgt.trans (by rw [hset.1]))
    refine ⟨e.eventID, ⟨e.eventType, e.providerRef, e.amountMicro, .processed, none⟩, ?_,
      htype, rfl, not_not.mp hamt, rfl⟩
    change ((s.webhookEvents.insert _ _).modify _ _).get? _ = _
    rw [Table.get?_modify_self, Table.get?_insert_self _ _ hnew]
    rfl
  · exact ⟨.kept rfl, ⟨hterms, webhooks_kept hnew⟩, rfl⟩

end

end Espx.Payment
