import Espx.Payment.OutboxHandled
import Mathlib.Algebra.Order.BigOperators.Group.List

/-!
# Chargebacks in the ledger

The service records the total that was withdrawn of a dispute, or reinstated, and hands each increase to
the ledger as an outbox row. The ledger key of these rows is made from the dispute alone, so that the
ledger takes the second increase for a repetition of the first. Once all rows are processed, the ledger
agrees with the totals exactly when none was raised twice.
-/

namespace Espx.Payment

open Espx.Foundation Espx.Domain Espx.ControlPlane Espx.Settlement List DisputeMovement

variable {W : Type*}

/-- The type of the ledger rows of a movement. -/
def DisputeMovement.ledgerType : DisputeMovement → LedgerType
  | withdrawal => .paymentChargeback
  | reinstatement => .paymentChargebackReversal

/-- What the ledger has booked for a movement of a dispute. -/
def ledgerMoved (m : DisputeMovement) (dispute : String) (pg : Pg) : ℤ :=
  ((pg.ledger.filter fun e => e.type = m.ledgerType ∧
    e.idempotencyHash = some (m.key dispute)).map fun e => |e.amount|).sum

/-- The outbox rows for a movement of a dispute. -/
def queued (m : DisputeMovement) (dispute : String)
    (contents : List (ℕ × OutboxEventType × OutboxPayload)) : List ℤ :=
  (contents.filter fun c => c.2.1 = m.eventType ∧ c.2.2.ledgerIdempotencyKey = m.key dispute).map
    fun c => c.2.2.amountMicro

/-- The step raises no total that was raised before. -/
def RaisesOnce (s : PaymentSystem W) : PaymentAction W → Prop
  | .disputeWebhook e => ∀ m id intent, e.Moves m id intent s.store →
      recorded m e.providerDisputeID s.store = 0
  | _ => True

/-- The keys of different movements or disputes are different. -/
theorem DisputeMovement.key_inj {m m' : DisputeMovement} {dispute dispute' : String}
    (h : m.key dispute = m'.key dispute') : m = m' ∧ dispute = dispute' := by
  cases m with
  | withdrawal =>
    cases m' with
    | withdrawal => exact ⟨rfl, String.append_right_inj _ |>.mp h⟩
    | reinstatement => exact absurd h (append_ne_of_clash (by decide))
  | reinstatement =>
    cases m' with
    | withdrawal => exact absurd h (append_ne_of_clash (by decide))
    | reinstatement => exact ⟨rfl, String.append_right_inj _ |>.mp h⟩

section

variable {m m' : DisputeMovement} {dispute dispute' : String} {id customerID : UUID} {amount : ℤ}
  {number : ℕ} {contents : List (ℕ × OutboxEventType × OutboxPayload)} {payload : OutboxPayload}

/-- A row that settles a payment belongs to no dispute. -/
theorem queued_settle :
    queued m dispute (contents ++ [(number, .settleBalance, payload)]) = queued m dispute contents := by
  have hother : ¬ (OutboxEventType.settleBalance = m.eventType ∧
      payload.ledgerIdempotencyKey = m.key dispute) := by
    rintro ⟨htype, -⟩
    cases m <;> cases htype
  unfold queued
  rw [filter_append, filter_cons_of_neg (by simpa using hother), filter_nil, append_nil]

/-- The row of a movement belongs to its dispute. -/
theorem queued_movement :
    queued m dispute (contents ++ [(number, m.eventType, m.payload id customerID amount dispute)]) =
      queued m dispute contents ++ [amount] := by
  unfold queued
  rw [filter_append, filter_cons_of_pos (by simp [m.payload_key]), filter_nil,
    map_append, map_singleton, m.payload_amount]

/-- The row of a movement belongs to no other dispute and to no other movement. -/
theorem queued_movement_of_ne (h : m' ≠ m ∨ dispute' ≠ dispute) :
    queued m' dispute' (contents ++ [(number, m.eventType, m.payload id customerID amount dispute)]) =
      queued m' dispute' contents := by
  have hother : ¬ (m.eventType = m'.eventType ∧
      (m.payload id customerID amount dispute).ledgerIdempotencyKey = m'.key dispute') := by
    rintro ⟨-, hkey⟩
    rw [m.payload_key] at hkey
    obtain ⟨hm, hdisp⟩ := key_inj hkey
    exact h.elim (fun hne => hne hm.symm) fun hne => hne hdisp.symm
  unfold queued
  rw [filter_append, filter_cons_of_neg (by simpa using hother), filter_nil, append_nil]

theorem mem_queued (hkey : payload.ledgerIdempotencyKey = m.key dispute)
    (hmem : (number, m.eventType, payload) ∈ contents) :
    payload.amountMicro ∈ queued m dispute contents :=
  mem_map_of_mem (f := fun c : ℕ × OutboxEventType × OutboxPayload => c.2.2.amountMicro)
    (mem_filter.mpr ⟨hmem, by simpa using hkey⟩)

theorem queued_length_le {longer : List (ℕ × OutboxEventType × OutboxPayload)} (h : contents <+: longer) :
    (queued m dispute contents).length ≤ (queued m dispute longer).length := by
  unfold queued
  rw [length_map, length_map]
  exact (h.filter _).length_le

variable {pg pg' : Pg} {entry : LedgerEntry}

/-- A booked row counts for the dispute whose key it has. -/
theorem ledgerMoved_booked (h : Booked entry pg pg') :
    ledgerMoved m dispute pg' = (if entry.type = m.ledgerType ∧
      entry.idempotencyHash = some (m.key dispute) then |entry.amount| else 0) +
        ledgerMoved m dispute pg := by
  unfold ledgerMoved
  rw [h.ledger]
  by_cases hkind : entry.type = m.ledgerType ∧ entry.idempotencyHash = some (m.key dispute)
  · rw [filter_cons_of_pos (by simpa using hkind), if_pos hkind, map_cons, sum_cons]
  · rw [filter_cons_of_neg (by simpa using hkind), if_neg hkind, zero_add]

/-- The settlement call of a movement books a row of the movement's type for its amount. -/
theorem entry_movement {e : OutboxEvent} (htype : e.eventType = m.eventType) (intent : UUID) :
    (e.call.entry intent).type = m.ledgerType ∧
      |(e.call.entry intent).amount| = |e.payload.amountMicro| := by
  have hkind : e.call.kind = m.eventType.kind := by
    rw [OutboxEvent.call, htype]
  unfold PaymentCall.entry
  cases m with
  | withdrawal =>
    simp only [hkind, eventType, OutboxEventType.kind, paymentEntry, abs_neg]
    exact ⟨rfl, rfl⟩
  | reinstatement =>
    simp only [hkind, eventType, OutboxEventType.kind, paymentEntry]
    exact ⟨rfl, rfl⟩

end

/-- The invariant of all disputes: rows other than settlements are movements of a dispute with a positive
amount; the recorded totals are the sums of these rows; and the ledger has booked one of the rows of a
key, or none. -/
structure MovementInv (s : PaymentSystem W) : Prop where
  queue : QueueInv s
  handled : HandledInv s
  rows : ∀ number type payload, (number, type, payload) ∈ s.store.contents →
    type = .settleBalance ∨ ∃ m : DisputeMovement, ∃ dispute, type = m.eventType ∧
      payload.ledgerIdempotencyKey = m.key dispute ∧ 0 < payload.amountMicro
  totals : ∀ m dispute, recorded m dispute s.store = (queued m dispute s.store.contents).sum
  ledger : ∀ m dispute,
    (s.pg.ledgerByHash (m.key dispute) = none ∧ ledgerMoved m dispute s.pg = 0) ∨
      ((s.pg.ledgerByHash (m.key dispute)).isSome ∧
        ledgerMoved m dispute s.pg ∈ queued m dispute s.store.contents)

section

variable {s s' : PaymentSystem W}

section

variable (h : MovementInv s)
include h

/-- The amounts of the rows of a dispute are positive. -/
theorem MovementInv.queued_pos (m : DisputeMovement) (dispute : String) :
    ∀ amount ∈ queued m dispute s.store.contents, 0 < amount := by
  intro amount hamt
  obtain ⟨⟨number, type, payload⟩, hmem, rfl⟩ := mem_map.mp hamt
  rw [mem_filter, decide_eq_true_eq] at hmem
  obtain ⟨hcont, htype, -⟩ := hmem
  obtain hset | ⟨m', dispute', -, -, hpos⟩ := h.rows number type payload hcont
  · rw [hset] at htype
    cases m <;> cases htype
  · exact hpos

section

variable (hqueue : QueueInv s') (hcall : HandledInv s')
include hqueue hcall

/-- Steps that keep the outbox, the totals and the ledger keep the invariant. -/
theorem MovementInv.of_kept (hcont : s'.store.contents = s.store.contents)
    (hrec : ∀ m dispute, recorded m dispute s'.store = recorded m dispute s.store)
    (hpg : s'.pg = s.pg) : MovementInv s' where
  queue := hqueue
  handled := hcall
  rows := by
    rw [hcont]
    exact h.rows
  totals := by
    intro m dispute
    rw [hcont, hrec]
    exact h.totals m dispute
  ledger := by
    rw [hcont, hpg]
    exact h.ledger

/-- A row that settles a payment keeps the invariant. -/
theorem MovementInv.of_settles {payload : OutboxPayload}
    (hcont : s'.store.contents =
      s.store.contents ++ [(s.store.contents.length, .settleBalance, payload)])
    (hrec : ∀ m dispute, recorded m dispute s'.store = recorded m dispute s.store)
    (hpg : s'.pg = s.pg) : MovementInv s' where
  queue := hqueue
  handled := hcall
  rows := by
    intro number type payload' hmem
    rw [hcont, mem_append, mem_singleton] at hmem
    obtain hold | hnew := hmem
    · exact h.rows number type payload' hold
    · rw [Prod.mk.injEq, Prod.mk.injEq] at hnew
      exact .inl hnew.2.1
  totals := by
    intro m dispute
    rw [hcont, queued_settle, hrec]
    exact h.totals m dispute
  ledger := by
    intro m dispute
    rw [hcont, queued_settle, hpg]
    exact h.ledger m dispute

/-- A movement keeps the invariant. -/
theorem MovementInv.of_moves {e : DisputeWebhook} {m : DisputeMovement} {id : UUID}
    {intent : PaymentIntent} (hmoves : e.Moves m id intent s.store)
    (hmoved : DisputeMoved e m id intent s.store s'.store) (hpg : s'.pg = s.pg) : MovementInv s' where
  queue := hqueue
  handled := hcall
  rows := by
    intro number type payload hmem
    rw [contents_append hmoved.outbox, mem_append, mem_singleton] at hmem
    obtain hold | hnew := hmem
    · exact h.rows number type payload hold
    rw [Prod.mk.injEq, Prod.mk.injEq] at hnew
    obtain ⟨-, htype, hbody⟩ := hnew
    rw [hbody, m.payload_amount]
    exact .inr ⟨m, e.providerDisputeID, htype, m.payload_key _ _ _ _, sub_pos.mpr hmoves.raises⟩
  totals := by
    intro m' dispute'
    rw [contents_append hmoved.outbox]
    by_cases hother : m' ≠ m ∨ dispute' ≠ e.providerDisputeID
    · rw [queued_movement_of_ne hother, hmoved.other m' dispute' hother]
      exact h.totals m' dispute'
    rw [not_or, not_not, not_not] at hother
    rw [hother.1, hother.2, queued_movement, sum_append, sum_singleton, hmoved.self, ← h.totals]
    ring
  ledger := by
    intro m' dispute'
    rw [contents_append hmoved.outbox, hpg]
    apply (h.ledger m' dispute').imp_right
    rintro ⟨hsome, hmem⟩
    refine ⟨hsome, ?_⟩
    by_cases hother : m' ≠ m ∨ dispute' ≠ e.providerDisputeID
    · rw [queued_movement_of_ne hother]
      exact hmem
    rw [not_or, not_not, not_not] at hother
    rw [hother.1, hother.2] at hmem ⊢
    rw [queued_movement]
    exact mem_append_left _ hmem

end

/-- A row under the key of a dispute is a movement of the dispute. -/
theorem MovementInv.eventType_of_key {e : OutboxEvent} {m : DisputeMovement} {dispute : String}
    (he : e.content ∈ s.store.contents) (hkey : e.payload.ledgerIdempotencyKey = m.key dispute) :
    e.eventType = m.eventType ∧ 0 < e.payload.amountMicro := by
  obtain hset | ⟨m', dispute', htype, hkey', hpos⟩ := h.rows e.id e.eventType e.payload he
  · rw [OutboxEvent.content, hset] at he
    have hpayment := (h.queue.settles e.id e.payload he).key
    cases m with
    | withdrawal | reinstatement =>
      exact absurd (hpayment.symm.trans hkey) (append_ne_of_clash (by decide))
  · obtain ⟨rfl, -⟩ := key_inj (hkey'.symm.trans hkey)
    exact ⟨htype, hpos⟩

/-- A settlement call keeps the invariant. -/
theorem MovementInv.of_calls (hqueue : QueueInv s') (hcall : HandledInv s') {e : OutboxEvent}
    (he : e.content ∈ s.store.contents) (hstore : s'.store = s.store)
    (hpg : s'.pg = paymentStep e.payload.paymentIntentID s.pg e.call) : MovementInv s' where
  queue := hqueue
  handled := hcall
  rows := by
    rw [hstore]
    exact h.rows
  totals := by
    rw [hstore]
    exact h.totals
  ledger := by
    intro m dispute
    rw [hstore]
    obtain heq | ⟨hfresh, -, hbook⟩ := paymentStep_cases e.payload.paymentIntentID s.pg e.call
    · rw [hpg, heq]
      exact h.ledger m dispute
    rw [← hpg] at hbook
    rw [ledgerMoved_booked hbook, hbook.ledgerByHash_eq, e.call.entry_hash]
    by_cases hkey : e.payload.ledgerIdempotencyKey = m.key dispute
    · have hhash : some e.call.key = some (m.key dispute) := congrArg some hkey
      obtain ⟨htype, hpos⟩ := h.eventType_of_key he hkey
      obtain ⟨hentry, hamt⟩ := entry_movement htype e.payload.paymentIntentID
      have hfirst : s.pg.ledgerByHash (m.key dispute) = none := by
        rw [← hkey]
        exact hfresh
      have hzero : ledgerMoved m dispute s.pg = 0 := by
        obtain ⟨-, hzero⟩ | ⟨hsome, -⟩ := h.ledger m dispute
        · exact hzero
        · rw [hfirst] at hsome
          cases hsome
      rw [if_pos hhash, if_pos ⟨hentry, hhash⟩, hzero, hamt, abs_of_pos hpos, add_zero]
      rw [OutboxEvent.content, htype] at he
      exact .inr ⟨rfl, mem_queued hkey he⟩
    · have hhash : ¬ some e.call.key = some (m.key dispute) :=
        fun heq => hkey (Option.some.inj heq)
      rw [if_neg hhash, if_neg fun hboth => hhash hboth.2, zero_add]
      exact h.ledger m dispute

/-- Every step keeps the invariant. -/
theorem MovementInv.step [DecidableEq W] (maxRetries : ℤ) (a : PaymentAction W) :
    MovementInv (s.step maxRetries a) := by
  have heff := h.queue.effect maxRetries a
  have hqueue := h.queue.of_effect heff
  have hcall := h.handled.step h.queue maxRetries a
  cases heff with
  | kept hcont hkeeps hrec hpg hbatch =>
    exact h.of_kept hqueue hcall hcont hrec hpg
  | settles payload hcont hpaid hkeeps hrec hpg hwork =>
    exact h.of_settles hqueue hcall hcont hrec hpg
  | moves e m id intent hact hmoves hmoved hkeeps hpg hwork =>
    exact h.of_moves hqueue hcall hmoves hmoved hpg
  | calls e he hstore hpg hbatch => exact h.of_calls hqueue hcall he hstore hpg

end

/-- A list of positive numbers that holds its own sum has one entry. -/
theorem length_le_one_of_sum_mem {amounts : List ℤ} (hpos : ∀ a ∈ amounts, 0 < a)
    (hsum : amounts.sum ∈ amounts) : amounts.length ≤ 1 := by
  cases amounts with
  | nil => exact Nat.zero_le 1
  | cons a rest =>
    have ha : 0 < a := hpos a mem_cons_self
    have hrest : ∀ b ∈ rest, 0 < b := fun b hb => hpos b (mem_cons_of_mem a hb)
    by_contra hlong
    have hne : rest ≠ [] := by
      rintro rfl
      exact hlong le_rfl
    rw [sum_cons, mem_cons] at hsum
    obtain hself | hmem := hsum
    · have := sum_pos rest hrest hne
      omega
    · have := single_le_sum (fun b hb => (hrest b hb).le) _ hmem
      omega

/-- Where all rows are processed, the ledger agrees with a recorded total exactly when the total
was raised once at most. -/
theorem MovementInv.agrees_iff (h : MovementInv s)
    (hproc : ∀ e ∈ s.store.outbox, e.status = .processed) (m : DisputeMovement) (dispute : String) :
    ledgerMoved m dispute s.pg = recorded m dispute s.store ↔
      (queued m dispute s.store.contents).length ≤ 1 := by
  have hpos := h.queued_pos m dispute
  rw [h.totals]
  constructor
  · intro heq
    obtain ⟨-, hzero⟩ | ⟨-, hmem⟩ := h.ledger m dispute
    · by_contra hlong
      have hne : queued m dispute s.store.contents ≠ [] := by
        intro hnil
        rw [hnil] at hlong
        exact hlong (Nat.zero_le 1)
      have := sum_pos _ hpos hne
      omega
    · rw [heq] at hmem
      exact length_le_one_of_sum_mem hpos hmem
  · intro hshort
    cases hqueued : queued m dispute s.store.contents with
    | nil =>
      obtain ⟨-, hzero⟩ | ⟨-, hmem⟩ := h.ledger m dispute
      · exact hzero
      · rw [hqueued] at hmem
        cases hmem
    | cons amount rest =>
      have hrest : rest = [] := by
        rw [hqueued, length_cons] at hshort
        exact length_eq_zero_iff.mp (by omega)
      have hfirst : amount ∈ queued m dispute s.store.contents := by
        rw [hqueued]
        exact mem_cons_self
      obtain ⟨c, hc, -⟩ := mem_map.mp hfirst
      rw [mem_filter, decide_eq_true_eq] at hc
      obtain ⟨hcont, htype, hkey⟩ := hc
      obtain ⟨e, he, rfl⟩ := mem_map.mp hcont
      have hans := h.handled.processed e he (hproc e he)
      have hsome : (s.pg.ledgerByHash (m.key dispute)).isSome := by
        obtain ⟨hkind, -⟩ | hsome := hans
        · have hkind' : m.eventType.kind = .credit := by
            rw [← htype]
            exact hkind
          cases m <;> cases hkind'
        · rw [← hkey]
          exact hsome
      obtain ⟨hnone, -⟩ | ⟨-, hmem⟩ := h.ledger m dispute
      · rw [hnone] at hsome
        cases hsome
      · rw [hqueued, hrest, mem_singleton] at hmem
        rw [hrest, sum_singleton]
        exact hmem

/-- Rows are only added to the outbox. -/
theorem QueueInv.contents_prefix [DecidableEq W] (h : QueueInv s) (maxRetries : ℤ)
    (a : PaymentAction W) : s.store.contents <+: (s.step maxRetries a).store.contents := by
  cases h.effect maxRetries a with
  | kept hcont => rw [hcont]
  | calls e he hstore => rw [hstore]
  | settles payload hcont =>
    rw [hcont]
    exact prefix_append _ _
  | moves e m id intent hact hmoves hmoved =>
    rw [contents_append hmoved.outbox]
    exact prefix_append _ _

/-- Rows are only added to the outbox in a run. -/
theorem QueueInv.run_contents_prefix [DecidableEq W] (h : QueueInv s) (maxRetries : ℤ)
    (actions : List (PaymentAction W)) :
    s.store.contents <+: (run (PaymentSystem.step · maxRetries) s actions).store.contents := by
  induction actions generalizing s with
  | nil => exact prefix_rfl
  | cons a rest ih =>
    exact (h.contents_prefix maxRetries a).trans (ih (h.of_effect (h.effect maxRetries a)))

/-- A step that raises no total twice adds no second row to a dispute. -/
theorem MovementInv.length_step [DecidableEq W] (h : MovementInv s) (maxRetries : ℤ)
    {a : PaymentAction W} (hraises : RaisesOnce s a)
    (hshort : ∀ m dispute, (queued m dispute s.store.contents).length ≤ 1) (m : DisputeMovement)
    (dispute : String) : (queued m dispute (s.step maxRetries a).store.contents).length ≤ 1 := by
  cases h.queue.effect maxRetries a with
  | kept hcont =>
    rw [hcont]
    exact hshort m dispute
  | calls e he hstore =>
    rw [hstore]
    exact hshort m dispute
  | settles payload hcont =>
    rw [hcont, queued_settle]
    exact hshort m dispute
  | moves e m' id intent hact hmoves hmoved =>
    rw [contents_append hmoved.outbox]
    by_cases hother : m ≠ m' ∨ dispute ≠ e.providerDisputeID
    · rw [queued_movement_of_ne hother]
      exact hshort m dispute
    rw [not_or, not_not, not_not] at hother
    rw [hother.1, hother.2, queued_movement]
    rw [hact] at hraises
    have hzero := hraises m' id intent hmoves
    rw [h.totals] at hzero
    have hnil : queued m' e.providerDisputeID s.store.contents = [] := by
      by_contra hne
      have := sum_pos _ (h.queued_pos m' e.providerDisputeID) hne
      omega
    rw [hnil]
    exact le_rfl

/-- Each dispute has one row at most for each movement exactly when no total is raised twice. -/
theorem MovementInv.length_iff [DecidableEq W] (h : MovementInv s) (maxRetries : ℤ)
    (hinit : ∀ m dispute, (queued m dispute s.store.contents).length ≤ 1)
    (actions : List (PaymentAction W)) :
    (∀ m dispute, (queued m dispute
        (run (PaymentSystem.step · maxRetries) s actions).store.contents).length ≤ 1) ↔
      Admissible RaisesOnce (PaymentSystem.step · maxRetries) s actions := by
  constructor
  · intro hend
    rw [admissible_iff_forall]
    rintro done a ⟨rest, rfl⟩
    have hdone := @run_invariant _ _ (PaymentSystem.step · maxRetries) MovementInv
      (fun _ a h => h.step maxRetries a) s h done
    cases a with
    | disputeWebhook e =>
      intro m id intent hmoves
      have hstep := hdone.step maxRetries (.disputeWebhook e)
      have hlater := hstep.queue.run_contents_prefix maxRetries rest
      have hfinal := hend m e.providerDisputeID
      rw [run_append, run_append] at hfinal
      have hlen := (queued_length_le hlater).trans hfinal
      change (queued m e.providerDisputeID (processStripeDisputeWebhook e _).contents).length ≤ 1 at hlen
      rw [contents_append hmoves.moved.outbox, queued_movement, length_append, length_singleton] at hlen
      have hnone : queued m e.providerDisputeID
          (run (PaymentSystem.step · maxRetries) s done).store.contents = [] :=
        length_eq_zero_iff.mp (by omega)
      rw [hdone.totals, hnone, sum_nil]
    | _ => trivial
  · intro hrun
    have hinv := @Admissible.invariant _ _ RaisesOnce (PaymentSystem.step · maxRetries)
      (fun s => MovementInv s ∧ ∀ m dispute, (queued m dispute s.store.contents).length ≤ 1)
      (fun _ a hraises h => ⟨h.1.step maxRetries a, h.1.length_step maxRetries hraises h.2⟩)
      s actions hrun ⟨h, hinit⟩
    exact hinv.2

end

/-- In a run from a state without disputed funds after which all outbox rows are processed, the
ledger's chargebacks and reversals of every dispute are the recorded totals exactly when no
total was raised twice. -/
theorem chargebacks_reach_ledger [DecidableEq W] (maxRetries : ℤ) (start : PaymentSystem W)
    (hidle : start.Idle) (hrecorded : ∀ m dispute, recorded m dispute start.store = 0)
    (hledger : ∀ (m : DisputeMovement) dispute, start.pg.ledgerByHash (m.key dispute) = none)
    (actions : List (PaymentAction W))
    (hprocessed : ∀ e ∈ (run (PaymentSystem.step · maxRetries) start actions).store.outbox,
      e.status = .processed) :
    (∀ m dispute, ledgerMoved m dispute (run (PaymentSystem.step · maxRetries) start actions).pg =
        recorded m dispute (run (PaymentSystem.step · maxRetries) start actions).store) ↔
      Admissible RaisesOnce (PaymentSystem.step · maxRetries) start actions := by
  have hcont : start.store.contents = [] := by
    rw [PaymentStore.contents, hidle.outbox, List.map_nil]
  have hinit : MovementInv start := by
    refine ⟨hidle.queueInv, hidle.handledInv, ?_, ?_, ?_⟩
    · intro number type payload hmem
      rw [hcont] at hmem
      cases hmem
    · intro m dispute
      rw [hrecorded, hcont]
      rfl
    · intro m dispute
      refine .inl ⟨hledger m dispute, ?_⟩
      have hnone : start.pg.ledger.filter (fun e => e.type = m.ledgerType ∧
          e.idempotencyHash = some (m.key dispute)) = [] := by
        rw [List.filter_eq_nil_iff]
        intro e he
        have hhash := List.find?_eq_none.mp (hledger m dispute) e he
        simp only [decide_eq_true_eq] at hhash ⊢
        exact fun hboth => hhash hboth.2
      rw [ledgerMoved, hnone, List.map_nil, List.sum_nil]
  have hend := @run_invariant _ _ (PaymentSystem.step · maxRetries) MovementInv
    (fun _ a h => h.step maxRetries a) start hinit actions
  rw [← hinit.length_iff maxRetries (by rw [hcont]; exact fun _ _ => Nat.zero_le 1)]
  constructor
  · intro hagree m dispute
    exact (hend.agrees_iff hprocessed m dispute).mp (hagree m dispute)
  · intro hshort m dispute
    exact (hend.agrees_iff hprocessed m dispute).mpr (hshort m dispute)

/-- A success of the sample payment, delivered to the ledger. -/
def sampleSettled : List (PaymentAction Unit) :=
  .stripeWebhook ⟨"evt-1", .paymentIntentSucceeded, "pi-1", 100⟩ :: sampleDelivery

/-- A movement of the sample dispute, delivered to the ledger. -/
def sampleMovement (eventID : String) (m : DisputeMovement) (amount : ℤ) : List (PaymentAction Unit) :=
  .disputeWebhook ⟨eventID, m.webhookType, "dp-1", "pi-1", amount, ""⟩ :: sampleDelivery

/-- A chargeback that is given back, in one movement each. -/
def sampleChargeback : List (PaymentAction Unit) :=
  sampleSettled ++ sampleMovement "evt-2" .withdrawal 60 ++ sampleMovement "evt-3" .reinstatement 60

/-- The sample chargeback reaches the ledger in full. -/
theorem chargebacks_reach_ledger_sample :
    let s := run (PaymentSystem.step · 5) samplePaymentSystem sampleChargeback
    recorded .withdrawal "dp-1" s.store = 60 ∧
      ∀ m dispute, ledgerMoved m dispute s.pg = recorded m dispute s.store := by
  refine ⟨by decide +kernel, ?_⟩
  refine (chargebacks_reach_ledger 5 samplePaymentSystem ⟨rfl, fun _ => rfl⟩ (fun _ _ => rfl)
    (fun _ _ => rfl) sampleChargeback (by decide +kernel)).mpr ?_
  refine ⟨trivial, trivial, trivial, trivial, ?_, trivial, trivial, trivial, ?_, trivial, trivial,
    trivial, trivial⟩
  · intro m id intent _
    cases m <;> decide +kernel
  · intro m id intent hmoves
    cases m with
    | withdrawal => cases hmoves.type
    | reinstatement => decide +kernel

/-- A dispute whose withdrawal is raised from ten to twenty: the second increase is taken for a
repetition of the first. -/
theorem chargebacks_miss_ledger :
    let s := run (PaymentSystem.step · 5) samplePaymentSystem
      (sampleSettled ++ sampleMovement "evt-2" .withdrawal 10 ++ sampleMovement "evt-3" .withdrawal 20)
    (∀ e ∈ s.store.outbox, e.status = .processed) ∧ recorded .withdrawal "dp-1" s.store = 20 ∧
      ledgerMoved .withdrawal "dp-1" s.pg = 10 := by
  decide +kernel

end Espx.Payment
