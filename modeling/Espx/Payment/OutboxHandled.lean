import Espx.Payment.OutboxInvariant

/-!
# Processed rows are in the ledger

A worker marks a row as processed only after a settlement call that succeeded. So in every reachable state
the call of each processed row is answered by the ledger, however often the row was leased, handled or
lost.
-/

namespace Espx.Payment

open Espx.Foundation Espx.Domain Espx.ControlPlane Espx.Settlement List

variable {W : Type*}

/-- The ledger answers the settlement call of a row. -/
def OutboxEvent.Answered (e : OutboxEvent) (pg : Pg) : Prop :=
  e.call.Answered e.payload.paymentIntentID pg

/-- Processed rows are answered, and so is a row that a worker is about to mark as processed. -/
structure HandledInv (s : PaymentSystem W) : Prop where
  processed : ∀ e ∈ s.store.outbox, e.status = .processed → e.Answered s.pg
  memory : ∀ w e rest, s.workers w = ⟨e :: rest, some .done⟩ → e.Answered s.pg

section

variable {pg : Pg} {e e' : OutboxEvent} {outbox : List OutboxEvent}

/-- The call of a row depends on its content alone. -/
theorem OutboxEvent.Answered.congr (h : e.Answered pg) (hcont : e'.content = e.content) :
    e'.Answered pg := by
  rw [OutboxEvent.content, OutboxEvent.content, Prod.mk.injEq, Prod.mk.injEq] at hcont
  obtain ⟨-, htype, hbody⟩ := hcont
  rw [OutboxEvent.Answered, OutboxEvent.call, htype, hbody]
  exact h

/-- An update that makes no row processed leaves processed rows answered. -/
theorem processed_map (p : OutboxEvent → Prop) [DecidablePred p] {f : OutboxEvent → OutboxEvent}
    (hstat : ∀ e, (f e).status ≠ .processed) (h : ∀ e ∈ outbox, e.status = .processed → e.Answered pg) :
    ∀ e ∈ outbox.map fun e => if p e then f e else e, e.status = .processed → e.Answered pg := by
  intro e he hproc
  obtain ⟨old, hold, rfl⟩ := mem_map.mp he
  split at hproc
  · exact absurd hproc (hstat old)
  · rename_i hkept
    rw [if_neg hkept]
    exact h old hold hproc

theorem processed_markOutboxEventFailed {s : PaymentStore} (id : ℕ) (attempts : ℤ)
    (h : ∀ e ∈ s.outbox, e.status = .processed → e.Answered pg) :
    ∀ e ∈ (s.markOutboxEventFailed id attempts).outbox, e.status = .processed → e.Answered pg := by
  refine processed_map _ ?_ h
  intro e
  dsimp only
  split
  · decide
  · decide

section

variable {store : PaymentStore} (hids : store.contents.map Prod.fst = range store.contents.length)
include hids

/-- In a numbered outbox a row is determined by its number. -/
theorem content_eq_of_id (he : e ∈ store.outbox) (he' : e'.content ∈ store.contents)
    (hid : e.id = e'.id) : e.content = e'.content := by
  have hnodup : (store.contents.map Prod.fst).Nodup := by
    rw [hids]
    exact nodup_range
  exact inj_on_of_nodup_map hnodup (mem_map_of_mem he) he' hid

/-- Marking an answered row as processed. -/
theorem processed_markOutboxEventProcessed (he : e.content ∈ store.contents)
    (hans : e.Answered pg) (h : ∀ e ∈ store.outbox, e.status = .processed → e.Answered pg) :
    ∀ e' ∈ (store.markOutboxEventProcessed e.id).outbox, e'.status = .processed → e'.Answered pg := by
  intro e' he' hproc
  obtain ⟨old, hold, rfl⟩ := mem_map.mp he'
  by_cases hid : old.id = e.id
  · rw [if_pos hid]
    have hcont : old.content = e.content := content_eq_of_id hids hold he hid
    exact hans.congr hcont
  · rw [if_neg hid] at hproc ⊢
    exact h old hold hproc

end

end

section

variable {s : PaymentSystem W}

/-- A memory that holds no success, next to the memories of other workers. -/
theorem memory_setWorker [DecidableEq W] {pg : Pg} {memory : OutboxWorker} (w : W)
    (h : ∀ w e rest, s.workers w = ⟨e :: rest, some .done⟩ → e.Answered pg)
    (hnew : ∀ e rest, memory = ⟨e :: rest, some .done⟩ → e.Answered pg) :
    ∀ w' e rest, (s.setWorker w memory).workers w' = ⟨e :: rest, some .done⟩ → e.Answered pg := by
  exact (Function.forall_update_iff s.workers fun _ memory => ∀ e rest,
    memory = ⟨e :: rest, some .done⟩ → e.Answered pg).mpr ⟨hnew, fun w' _ => h w'⟩

theorem memory_none {pg : Pg} {events : List OutboxEvent} :
    ∀ e rest, (⟨events, none⟩ : OutboxWorker) = ⟨e :: rest, some .done⟩ → e.Answered pg := by
  intro e rest h
  rw [OutboxWorker.mk.injEq] at h
  cases h.2

section

variable (h : HandledInv s)
include h

/-- New rows are not processed. -/
theorem HandledInv.of_append {store : PaymentStore} {rows : List OutboxEvent}
    (houtbox : store.outbox = s.store.outbox ++ rows) (hrows : ∀ e ∈ rows, e.status = .pending) :
    HandledInv { s with store := store } := by
  refine ⟨?_, h.memory⟩
  intro e he hproc
  rw [houtbox, mem_append] at he
  obtain hold | hnew := he
  · exact h.processed e hold hproc
  · rw [hrows e hnew] at hproc
    cases hproc

/-- A payment webhook keeps the invariant. -/
theorem HandledInv.stripeWebhook (e : StripeWebhook) :
    HandledInv { s with store := processStripeWebhook e s.store } := by
  cases (processStripeWebhook_handled e s.store).effect with
  | kept houtbox =>
    refine h.of_append (houtbox.trans (append_nil _).symm) ?_
    intro e' he'
    cases he'
  | settles id intent hintent hpaid houtbox =>
    refine h.of_append houtbox ?_
    intro e' he'
    rw [mem_singleton.mp he']

/-- A dispute webhook keeps the invariant. -/
theorem HandledInv.disputeWebhook (e : DisputeWebhook) :
    HandledInv { s with store := processStripeDisputeWebhook e s.store } := by
  by_cases hmoves : ∃ m id intent, e.Moves m id intent s.store
  · obtain ⟨m, id, intent, hmoves⟩ := hmoves
    refine h.of_append hmoves.moved.outbox ?_
    intro e' he'
    rw [mem_singleton.mp he']
  · have hkept := processStripeDisputeWebhook_kept fun m id intent hm => hmoves ⟨m, id, intent, hm⟩
    refine h.of_append (hkept.outbox.trans (append_nil _).symm) ?_
    intro e' he'
    cases he'

theorem HandledInv.reclaim (now : ℤ) :
    HandledInv { s with store := s.store.reclaimStaleProcessing now } :=
  ⟨processed_map _ (fun _ => by simp) h.processed, h.memory⟩

/-- A lease keeps the invariant. -/
theorem HandledInv.lease [DecidableEq W] (w : W) (limit : ℕ) (now : ℤ) (reply : Reply) :
    HandledInv (s.lease w limit now reply) := by
  unfold PaymentSystem.lease
  split
  · exact h
  refine ⟨?_, memory_setWorker w h.memory memory_none⟩
  refine reply.after_of
    (P := fun store : PaymentStore => ∀ e ∈ store.outbox, e.status = .processed → e.Answered s.pg)
    h.processed (processed_map _ (fun _ => by simp) h.processed)

/-- A settlement call keeps the invariant, and a success is answered. -/
theorem HandledInv.handle [DecidableEq W] (w : W) (reply : Reply) : HandledInv (s.handle w reply) := by
  unfold PaymentSystem.handle
  split
  · rename_i e rest hwork
    have hmono (e' : OutboxEvent) (hans : e'.Answered s.pg) :
        e'.Answered (reply.after s.pg ((handleOutboxEvent e s.pg).getD s.pg)) :=
      reply.after_of (P := fun pg => e'.Answered pg) hans (hans.step _ e.call)
    refine ⟨fun e' he' hproc => hmono e' (h.processed e' he' hproc), ?_⟩
    refine memory_setWorker w (fun w' e' rest' hw' => hmono e' (h.memory w' e' rest' hw')) ?_
    intro e' rest' hmemory
    rw [OutboxWorker.mk.injEq, cons.injEq, Option.some.injEq] at hmemory
    obtain ⟨⟨rfl, -⟩, hdone⟩ := hmemory
    split at hdone
    · rename_i hrecv
      split at hdone
      · rename_i pg' hset
        rw [hrecv, hset]
        exact PaymentCall.answered_of_eq_some hset
      · cases hdone
    · cases hdone
  · exact h

/-- A marking keeps the invariant. -/
theorem HandledInv.mark [DecidableEq W] (hqueue : QueueInv s) (w : W) (maxRetries : ℤ)
    (reply : Reply) : HandledInv (s.mark w maxRetries reply) := by
  unfold PaymentSystem.mark
  split
  · rename_i e rest result hwork
    have he := hqueue.batch hwork e mem_cons_self
    refine ⟨?_, memory_setWorker w h.memory memory_none⟩
    refine reply.after_of
      (P := fun store : PaymentStore => ∀ e ∈ store.outbox, e.status = .processed → e.Answered s.pg)
      h.processed ?_
    cases result with
    | done =>
      exact processed_markOutboxEventProcessed hqueue.ids he (h.memory w e rest hwork) h.processed
    | failed isFatal =>
      dsimp only
      rcases (hqueue.retryable he maxRetries isFatal).outbox with hsame | ⟨attempts, hfail⟩
      · rw [hsame]
        exact h.processed
      · rw [hfail]
        exact processed_markOutboxEventFailed e.id attempts h.processed
  · exact h

/-- Every step keeps the invariant. -/
theorem HandledInv.step [DecidableEq W] (hqueue : QueueInv s) (maxRetries : ℤ) (a : PaymentAction W)
    : HandledInv (s.step maxRetries a) := by
  cases a with
  | stripeWebhook e => exact h.stripeWebhook e
  | disputeWebhook e => exact h.disputeWebhook e
  | reclaim now => exact h.reclaim now
  | lease w limit now reply => exact h.lease w limit now reply
  | handle w reply => exact h.handle w reply
  | mark w reply => exact h.mark hqueue w maxRetries reply
  | crash w => exact ⟨h.processed, memory_setWorker w h.memory memory_none⟩

end

theorem PaymentSystem.Idle.handledInv (h : s.Idle) : HandledInv s := by
  refine ⟨?_, ?_⟩
  · intro e he
    rw [h.outbox] at he
    cases he
  · intro w e rest hw
    have hempty := h.workers w
    rw [hw] at hempty
    cases hempty

end

end Espx.Payment
