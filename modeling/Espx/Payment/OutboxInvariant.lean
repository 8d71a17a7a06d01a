import Espx.Payment.DisputeMovements

/-!
# What a step of the payment system can do

Each step keeps the contents of the outbox and makes at most one settlement call, or it is a webhook that
adds one row. From this, in every reachable state rows are numbered in order, batches are copies of rows,
and a row that settles a payment carries the terms of a payment that was paid in full.
-/

namespace Espx.Payment

open Espx.Foundation Espx.Domain Espx.ControlPlane Espx.Settlement List

variable {W : Type*}

/-- The row settles a payment on the payment's terms, after a success for the whole amount. -/
structure SettlesPaid (payload : OutboxPayload) (s : PaymentStore) : Prop where
  terms : termsOf payload.paymentIntentID s =
    some (payload.customerID, payload.amountMicro, .stripe, some payload.providerRef)
  paid : PaidInFull payload.providerRef payload.amountMicro s
  key : payload.ledgerIdempotencyKey = ledgerIdempotencyKey payload.paymentIntentID

/-- The invariant of the outbox and of the batches. -/
structure QueueInv (s : PaymentSystem W) : Prop where
  ids : s.store.contents.map Prod.fst = List.range s.store.contents.length
  batches : ∀ w, ∀ e ∈ (s.workers w).outboxEvents, e.content ∈ s.store.contents
  settles : ∀ id payload, (id, OutboxEventType.settleBalance, payload) ∈ s.store.contents →
    SettlesPaid payload s.store

/-- What a step of the system can do. -/
inductive PaymentEffect (a : PaymentAction W) (s s' : PaymentSystem W) : Prop
  | kept (hcontents : s'.store.contents = s.store.contents) (hkeeps : Keeps s.store s'.store)
      (hrecorded : ∀ m dispute, recorded m dispute s'.store = recorded m dispute s.store)
      (hpg : s'.pg = s.pg)
      (hbatches : ∀ w, ∀ e ∈ (s'.workers w).outboxEvents, e.content ∈ s.store.contents)
  | calls (e : OutboxEvent) (he : e.content ∈ s.store.contents) (hstore : s'.store = s.store)
      (hpg : s'.pg = paymentStep e.payload.paymentIntentID s.pg e.call)
      (hbatches : ∀ w, ∀ e ∈ (s'.workers w).outboxEvents, e.content ∈ s.store.contents)
  | settles (payload : OutboxPayload)
      (hcontents : s'.store.contents =
        s.store.contents ++ [(s.store.contents.length, .settleBalance, payload)])
      (hpaid : SettlesPaid payload s'.store) (hkeeps : Keeps s.store s'.store)
      (hrecorded : ∀ m dispute, recorded m dispute s'.store = recorded m dispute s.store)
      (hpg : s'.pg = s.pg) (hworkers : s'.workers = s.workers)
  | moves (e : DisputeWebhook) (m : DisputeMovement) (id : UUID) (intent : PaymentIntent)
      (haction : a = .disputeWebhook e)
      (hmoves : e.Moves m id intent s.store) (hmoved : DisputeMoved e m id intent s.store s'.store)
      (hkeeps : Keeps s.store s'.store) (hpg : s'.pg = s.pg) (hworkers : s'.workers = s.workers)

section

variable {s : PaymentSystem W} {store store' : PaymentStore}

/-- A property of all batches after one of them is replaced. -/
theorem batches_setWorker [DecidableEq W] {P : OutboxEvent → Prop} {memory : OutboxWorker} (w : W)
    (h : ∀ w, ∀ e ∈ (s.workers w).outboxEvents, P e) (hnew : ∀ e ∈ memory.outboxEvents, P e) :
    ∀ w', ∀ e ∈ ((s.setWorker w memory).workers w').outboxEvents, P e := by
  exact (Function.forall_update_iff s.workers fun _ memory => ∀ e ∈ memory.outboxEvents, P e).mpr
    ⟨hnew, fun w' _ => h w'⟩

/-- The contents after a row is added. -/
theorem contents_append {type : OutboxEventType}
    {payload : OutboxPayload} {status : OutboxStatus} {leaseUntil : Option ℤ} {attempts : ℕ}
    (h : store'.outbox = store.outbox ++ [⟨store.outbox.length, type, payload, status, leaseUntil,
      attempts⟩]) : store'.contents = store.contents ++ [(store.contents.length, type, payload)] := by
  rw [PaymentStore.contents, h, map_append, PaymentStore.contents, length_map]
  rfl

section

variable (h : QueueInv s)
include h

/-- The effect of a payment webhook. -/
theorem stripeWebhook_effect (e : StripeWebhook) :
    PaymentEffect (.stripeWebhook e) s { s with store := processStripeWebhook e s.store } := by
  obtain ⟨heffect, hkeeps, hdisputes⟩ := processStripeWebhook_handled e s.store
  have hrec (m : DisputeMovement) (dispute : String) :
      recorded m dispute (processStripeWebhook e s.store) = recorded m dispute s.store :=
    recorded_congr hdisputes
  cases heffect with
  | kept houtbox =>
    exact .kept (congrArg (List.map OutboxEvent.content) houtbox) hkeeps hrec rfl h.batches
  | settles id intent hintent hpaid houtbox =>
    refine .settles _ (contents_append houtbox) ⟨?_, hpaid, rfl⟩ hkeeps hrec rfl rfl
    obtain ⟨hprovider, href⟩ := intentByProviderRef_ref hintent
    refine (hkeeps.terms _).trans ?_
    simp only [settleBalancePayload, termsOf, intentByProviderRef_get hintent, Option.map_some,
      hprovider, href]

/-- The effect of a dispute webhook. -/
theorem disputeWebhook_effect (e : DisputeWebhook) :
    PaymentEffect (.disputeWebhook e) s { s with store := processStripeDisputeWebhook e s.store } := by
  have hkeeps := processStripeDisputeWebhook_keeps e s.store
  by_cases hmoves : ∃ m id intent, e.Moves m id intent s.store
  · obtain ⟨m, id, intent, hmoves⟩ := hmoves
    exact .moves e m id intent rfl hmoves hmoves.moved hkeeps rfl rfl
  · have hkept := processStripeDisputeWebhook_kept fun m id intent hm => hmoves ⟨m, id, intent, hm⟩
    exact .kept (congrArg (List.map OutboxEvent.content) hkept.outbox) hkeeps hkept.recorded rfl
      h.batches

/-- The effect of a lease. -/
theorem lease_effect [DecidableEq W] (w : W) (limit : ℕ) (now : ℤ) (reply : Reply) :
    PaymentEffect (.lease w limit now reply) s (s.lease w limit now reply) := by
  unfold PaymentSystem.lease
  split
  · exact .kept rfl (Keeps.refl _) (fun _ _ => rfl) rfl h.batches
  refine .kept ?_ ?_ ?_ rfl (batches_setWorker w h.batches ?_)
  · exact reply.after_of (P := fun store : PaymentStore => store.contents = s.store.contents) rfl
      (by apply map_content; exact fun _ => rfl)
  · exact reply.after_of (Keeps.refl _) ⟨fun _ => rfl, fun _ _ hrow => hrow⟩
  · intro m dispute
    exact reply.after_of (P := fun store => recorded m dispute store = recorded m dispute s.store)
      rfl rfl
  · intro e he
    split at he
    · exact mem_map_of_mem (mem_of_mem_filter (mem_of_mem_take he))
    · cases he

theorem QueueInv.batch {w : W} {events : List OutboxEvent} {handled : Option HandleResult}
    (hwork : s.workers w = ⟨events, handled⟩) : ∀ e ∈ events, e.content ∈ s.store.contents := by
  intro e he
  refine h.batches w e ?_
  rw [hwork]
  exact he

/-- The effect of a settlement call. -/
theorem handle_effect [DecidableEq W] (w : W) (reply : Reply) :
    PaymentEffect (.handle w reply) s (s.handle w reply) := by
  unfold PaymentSystem.handle
  split
  · rename_i e rest hwork
    have hbatch := h.batch hwork
    cases reply with
    | failed =>
      exact .kept rfl (Keeps.refl _) (fun _ _ => rfl) rfl (batches_setWorker w h.batches hbatch)
    | received | lost =>
      exact .calls e (hbatch e mem_cons_self) rfl rfl (batches_setWorker w h.batches hbatch)
  · exact .kept rfl (Keeps.refl _) (fun _ _ => rfl) rfl h.batches

/-- Marking the failure of a row of the outbox. -/
theorem QueueInv.retryable {e : OutboxEvent} (he : e.content ∈ s.store.contents)
    (maxRetries : ℤ) (isFatal : Bool) :
    FailureMarked e.id s.store (s.store.markOutboxEventRetryable maxRetries e isFatal) := by
  apply markOutboxEventRetryable_marked
  intro htype row hrow
  have hcont : e.content = (e.id, OutboxEventType.settleBalance, e.payload) := by
    rw [OutboxEvent.content, htype]
  rw [hcont] at he
  have hterms := (h.settles e.id e.payload he).terms
  rw [termsOf, hrow, Option.map_some, Option.some.injEq] at hterms
  exact congrArg (fun terms => terms.2.2.2) hterms

/-- The effect of a marking. -/
theorem mark_effect [DecidableEq W] (w : W) (maxRetries : ℤ) (reply : Reply) :
    PaymentEffect (.mark w reply) s (s.mark w maxRetries reply) := by
  unfold PaymentSystem.mark
  split
  · rename_i e rest result hwork
    have hbatch := h.batch hwork
    have hrest : ∀ w', ∀ e' ∈ ((s.setWorker w ⟨rest, none⟩).workers w').outboxEvents,
        e'.content ∈ s.store.contents :=
      batches_setWorker w h.batches fun e' he' => hbatch e' (mem_cons_of_mem e he')
    have hmark (marked : PaymentStore) (hcont : marked.contents = s.store.contents)
        (hkeeps : Keeps s.store marked) (hdisputes : marked.disputes = s.store.disputes) :
        PaymentEffect (.mark w reply) s
          ({ s with store := reply.after s.store marked }.setWorker w ⟨rest, none⟩) := by
      refine .kept ?_ ?_ ?_ rfl hrest
      · exact reply.after_of (P := fun store : PaymentStore => store.contents = s.store.contents) rfl hcont
      · exact reply.after_of (Keeps.refl _) hkeeps
      · intro m dispute
        exact reply.after_of (P := fun store => recorded m dispute store = recorded m dispute s.store)
          rfl (recorded_congr hdisputes)
    cases result with
    | done =>
      exact hmark _ (contents_updateOutboxEvent _ _ fun _ => rfl)
        ⟨fun _ => rfl, fun _ _ hrow => hrow⟩ rfl
    | failed isFatal =>
      obtain ⟨houtbox, hdisputes, hkeeps⟩ := h.retryable (hbatch e mem_cons_self) maxRetries isFatal
      refine hmark _ ?_ hkeeps hdisputes
      unfold PaymentStore.contents
      rcases houtbox with hsame | ⟨attempts, hfail⟩
      · rw [hsame]
      · rw [hfail]
        exact contents_updateOutboxEvent _ _ fun _ => rfl
  · exact .kept rfl (Keeps.refl _) (fun _ _ => rfl) rfl h.batches

/-- A step has one of the effects. -/
theorem QueueInv.effect [DecidableEq W] (maxRetries : ℤ) (a : PaymentAction W) :
    PaymentEffect a s (s.step maxRetries a) := by
  cases a with
  | stripeWebhook e => exact stripeWebhook_effect h e
  | disputeWebhook e => exact disputeWebhook_effect h e
  | reclaim now =>
    exact .kept (by apply map_content; exact fun _ => rfl) ⟨fun _ => rfl, fun _ _ hrow => hrow⟩
      (fun _ _ => rfl) rfl h.batches
  | lease w limit now reply => exact lease_effect h w limit now reply
  | handle w reply => exact handle_effect h w reply
  | mark w reply => exact mark_effect h w maxRetries reply
  | crash w =>
    refine .kept rfl (Keeps.refl _) (fun _ _ => rfl) rfl (batches_setWorker w h.batches ?_)
    intro e he
    cases he

end

variable {s' : PaymentSystem W} {payload : OutboxPayload}

theorem SettlesPaid.mono
    (h : SettlesPaid payload store) (hkeeps : Keeps store store') : SettlesPaid payload store' :=
  ⟨(hkeeps.terms _).trans h.terms, h.paid.mono hkeeps, h.key⟩

/-- A row is added that settles a payment only if that was paid in full. -/
theorem QueueInv.append (h : QueueInv s) {type : OutboxEventType}
    (hcont : s'.store.contents = s.store.contents ++ [(s.store.contents.length, type, payload)])
    (hkeeps : Keeps s.store s'.store) (hwork : s'.workers = s.workers)
    (hpaid : type = .settleBalance → SettlesPaid payload s'.store) : QueueInv s' := by
  refine ⟨?_, ?_, ?_⟩
  · rw [hcont, map_append, h.ids, length_append, length_singleton, range_succ]
    rfl
  · rw [hcont, hwork]
    exact fun w e he => mem_append_left _ (h.batches w e he)
  · intro id payload' hmem
    rw [hcont, mem_append, mem_singleton] at hmem
    obtain hold | hnew := hmem
    · exact (h.settles id payload' hold).mono hkeeps
    · rw [Prod.mk.injEq, Prod.mk.injEq] at hnew
      rw [hnew.2.2]
      exact hpaid hnew.2.1.symm

/-- The invariant is kept by every effect. -/
theorem QueueInv.of_effect {a : PaymentAction W} (h : QueueInv s) (heff : PaymentEffect a s s') :
    QueueInv s' := by
  cases heff with
  | kept hcont hkeeps hrec hpg hbatch =>
    refine ⟨?_, ?_, ?_⟩
    · rw [hcont]
      exact h.ids
    · rw [hcont]
      exact hbatch
    · rw [hcont]
      exact fun id payload hmem => (h.settles id payload hmem).mono hkeeps
  | calls e he hstore hpg hbatch =>
    refine ⟨?_, ?_, ?_⟩
    · rw [hstore]
      exact h.ids
    · rw [hstore]
      exact hbatch
    · rw [hstore]
      exact h.settles
  | settles payload hcont hpaid hkeeps hrec hpg hwork => exact h.append hcont hkeeps hwork fun _ => hpaid
  | moves e m id intent hact hmoves hmoved hkeeps hpg hwork =>
    refine h.append (contents_append hmoved.outbox) hkeeps hwork fun htype => ?_
    cases m <;> cases htype

/-- A system with an empty outbox and idle workers. -/
structure PaymentSystem.Idle (s : PaymentSystem W) : Prop where
  outbox : s.store.outbox = []
  workers : ∀ w, (s.workers w).outboxEvents = []

theorem PaymentSystem.Idle.queueInv (h : s.Idle) : QueueInv s := by
  have hcont : s.store.contents = [] := by rw [PaymentStore.contents, h.outbox, map_nil]
  refine ⟨?_, ?_, ?_⟩
  · rw [hcont]
    rfl
  · intro w e he
    rw [h.workers w] at he
    cases he
  · intro id payload hmem
    rw [hcont] at hmem
    cases hmem

end

end Espx.Payment
