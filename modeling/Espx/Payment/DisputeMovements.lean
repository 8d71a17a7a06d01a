import Espx.Payment.OutboxQueue

/-!
# Movements of a dispute

A dispute webhook moves funds of a dispute in one of two directions, or in none. A movement raises the
recorded total to the amount of the event and adds an outbox row for the difference. Both directions are
treated as one.
-/

namespace Espx.Payment

open Espx.Foundation Espx.Domain Espx.ControlPlane

/-- The two directions in which the funds of a dispute move. -/
inductive DisputeMovement
  | withdrawal
  | reinstatement
  deriving DecidableEq, Repr

namespace DisputeMovement

/-- The webhook of a movement. -/
def webhookType : DisputeMovement → WebhookType
  | withdrawal => .disputeFundsWithdrawn
  | reinstatement => .disputeFundsReinstated

/-- The outbox event of a movement. -/
def eventType : DisputeMovement → OutboxEventType
  | withdrawal => .applyChargeback
  | reinstatement => .reverseChargeback

/-- The payload of a movement. -/
def payload : DisputeMovement → UUID → UUID → ℤ → String → OutboxPayload
  | withdrawal => applyChargebackPayload
  | reinstatement => reverseChargebackPayload

/-- The ledger key of a movement. -/
def key : DisputeMovement → String → String
  | withdrawal => chargebackWithdrawnLedgerKey
  | reinstatement => chargebackReinstatedLedgerKey

/-- The column with the total of the movements. -/
def column : DisputeMovement → PaymentDispute → ℤ
  | withdrawal => PaymentDispute.withdrawnAmountMicro
  | reinstatement => PaymentDispute.reinstatedAmountMicro

theorem payload_key (m : DisputeMovement) (id customerID : UUID) (amount : ℤ) (dispute : String) :
    (m.payload id customerID amount dispute).ledgerIdempotencyKey = m.key dispute := by
  cases m <;> rfl

theorem payload_amount (m : DisputeMovement) (id customerID : UUID) (amount : ℤ) (dispute : String) :
    (m.payload id customerID amount dispute).amountMicro = amount := by
  cases m <;> rfl

end DisputeMovement

/-- The total that the service has recorded for a dispute. -/
def recorded (m : DisputeMovement) (dispute : String) (s : PaymentStore) : ℤ :=
  ((s.disputes.get? dispute).map m.column).getD 0

theorem recorded_of_get {m : DisputeMovement} {dispute : String} {s : PaymentStore} {row : PaymentDispute}
    (h : s.disputes.get? dispute = some row) : recorded m dispute s = m.column row := by
  rw [recorded, h, Option.map_some, Option.getD_some]

/-- What a movement may raise its total to: the payment, or what was withdrawn of it. -/
def DisputeMovement.limit (m : DisputeMovement) (intent : PaymentIntent) (dispute : String)
    (s : PaymentStore) : ℤ :=
  match m with
  | withdrawal => intent.amountMicro
  | reinstatement => recorded withdrawal dispute s

/-- An event moves funds: it is new, its payment is known and can be disputed, and its amount
raises the recorded total within the limit. -/
structure DisputeWebhook.Moves (e : DisputeWebhook) (m : DisputeMovement) (id : UUID)
    (intent : PaymentIntent) (s : PaymentStore) : Prop where
  new : s.webhookEvents.get? (.stripe, e.eventID) = none
  ref : e.paymentIntentRef ≠ ""
  positive : 0 < e.disputeAmountMicro
  type : e.eventType = m.webhookType
  found : s.intentByProviderRef .stripe e.paymentIntentRef = some (id, intent)
  disputable : intentStatusAllowsDispute intent.status = true
  raises : recorded m e.providerDisputeID s < e.disputeAmountMicro
  within : e.disputeAmountMicro ≤ m.limit intent e.providerDisputeID s

/-- The effect of a movement. -/
structure DisputeMoved (e : DisputeWebhook) (m : DisputeMovement) (id : UUID) (intent : PaymentIntent)
    (s s' : PaymentStore) : Prop where
  outbox : s'.outbox = s.outbox ++ [⟨s.outbox.length, m.eventType,
    m.payload id intent.customerID (e.disputeAmountMicro - recorded m e.providerDisputeID s)
      e.providerDisputeID, .pending, none, 0⟩]
  self : recorded m e.providerDisputeID s' = e.disputeAmountMicro
  other : ∀ m' dispute, (m' ≠ m ∨ dispute ≠ e.providerDisputeID) →
    recorded m' dispute s' = recorded m' dispute s

/-- No funds are moved. -/
structure DisputeKept (s s' : PaymentStore) : Prop where
  outbox : s'.outbox = s.outbox
  recorded : ∀ m dispute, recorded m dispute s' = recorded m dispute s

section

variable {s : PaymentStore} {e : DisputeWebhook} {id : UUID} {intent : PaymentIntent}
  {m : DisputeMovement} {dispute : String} {f : PaymentDispute → PaymentDispute}

theorem recorded_congr {s' : PaymentStore} (h : s'.disputes = s.disputes) :
    recorded m dispute s' = recorded m dispute s := by
  rw [recorded, h, recorded]

theorem markDisputed_disputes : (markDisputed id intent s).disputes = s.disputes := by
  unfold markDisputed
  split
  · rfl
  · rfl

/-- The outbox, the webhooks and the terms of the payments are kept. -/
structure RowsKept (s s' : PaymentStore) : Prop where
  outbox : s'.outbox = s.outbox
  webhooks : s'.webhookEvents = s.webhookEvents
  terms : ∀ other, termsOf other s' = termsOf other s

theorem markDisputed_rows : RowsKept s (markDisputed id intent s) := by
  unfold markDisputed
  split
  · exact ⟨rfl, rfl, fun _ => rfl⟩
  · exact ⟨rfl, rfl, termsOf_updatePaymentIntentStatus _ fun _ _ => rfl⟩

/-- A new dispute starts at zero. -/
theorem recorded_createPaymentDispute (h : s.disputes.get? e.providerDisputeID = none) :
    recorded m dispute (createPaymentDispute e id intent s) = recorded m dispute s := by
  unfold recorded createPaymentDispute
  by_cases hdisp : dispute = e.providerDisputeID
  · subst hdisp
    rw [Table.get?_insert_self _ _ h, h]
    cases m <;> rfl
  · rw [Table.get?_insert_of_ne _ _ hdisp]

theorem recorded_ensureDisputeRow :
    recorded m dispute (ensureDisputeRow e id intent s) = recorded m dispute s := by
  unfold ensureDisputeRow
  split
  · rfl
  · rename_i hnone
    rw [recorded_congr markDisputed_disputes, recorded_createPaymentDispute hnone]

theorem withdrawn_ensureDisputeRow :
    (((ensureDisputeRow e id intent s).disputes.get? dispute).map
      PaymentDispute.withdrawnAmountMicro).getD 0 = recorded .withdrawal dispute s :=
  @recorded_ensureDisputeRow s e id intent .withdrawal dispute

theorem ensureDisputeRow_isSome :
    ((ensureDisputeRow e id intent s).disputes.get? e.providerDisputeID).isSome := by
  unfold ensureDisputeRow
  split
  · rename_i row hrow
    rw [hrow]
    rfl
  · rename_i hnone
    rw [markDisputed_disputes, createPaymentDispute, Table.get?_insert_self _ _ hnone]
    rfl

theorem ensureDisputeRow_rows : RowsKept s (ensureDisputeRow e id intent s) := by
  unfold ensureDisputeRow
  split
  · exact ⟨rfl, rfl, fun _ => rfl⟩
  · obtain ⟨houtbox, hhooks, hterms⟩ := markDisputed_rows
    exact ⟨houtbox, hhooks, hterms⟩

/-- An update of one column of a dispute. -/
theorem recorded_modify {delta : ℤ} (hrow : (s.disputes.get? e.providerDisputeID).isSome)
    (hself : ∀ row, m.column (f row) = m.column row + delta) :
    recorded m e.providerDisputeID { s with disputes := s.disputes.modify e.providerDisputeID f } =
      recorded m e.providerDisputeID s + delta := by
  obtain ⟨row, hrow⟩ := Option.isSome_iff_exists.mp hrow
  unfold recorded
  rw [Table.get?_modify_self, hrow]
  exact hself row

/-- An update of one column leaves the other column and other disputes as they are. -/
theorem recorded_modify_of_ne
    (h : dispute ≠ e.providerDisputeID ∨ ∀ row, m.column (f row) = m.column row) :
    recorded m dispute { s with disputes := s.disputes.modify e.providerDisputeID f } =
      recorded m dispute s := by
  unfold recorded
  by_cases hdisp : dispute = e.providerDisputeID
  · subst hdisp
    rw [Table.get?_modify_self, Option.map_map]
    have hcolumn := h.resolve_left fun hne => hne rfl
    have hfun : m.column ∘ f = m.column := funext hcolumn
    rw [hfun]
  · rw [Table.get?_modify_of_ne _ _ hdisp]

/-- A branch moves funds if its event raises the total within the limit, and moves nothing
otherwise. -/
def DisputeWebhook.Obeys (e : DisputeWebhook) (m : DisputeMovement) (id : UUID) (intent : PaymentIntent)
    (s s' : PaymentStore) : Prop :=
  if recorded m e.providerDisputeID s < e.disputeAmountMicro ∧
      e.disputeAmountMicro ≤ m.limit intent e.providerDisputeID s then DisputeMoved e m id intent s s'
  else DisputeKept s s'

theorem disputeFundsWithdrawn_obeys :
    e.Obeys .withdrawal id intent s (disputeFundsWithdrawn e id intent s) := by
  have hkept : DisputeKept s (ensureDisputeRow e id intent s) :=
    ⟨ensureDisputeRow_rows.outbox, fun _ _ => recorded_ensureDisputeRow⟩
  have hlimit : DisputeMovement.withdrawal.limit intent e.providerDisputeID s = intent.amountMicro := rfl
  simp only [disputeFundsWithdrawn, withdrawn_ensureDisputeRow]
  split
  · rw [DisputeWebhook.Obeys, if_neg (by omega)]
    exact ⟨hkept.outbox, hkept.recorded⟩
  split
  · rw [DisputeWebhook.Obeys, if_neg (by omega)]
    exact ⟨hkept.outbox, hkept.recorded⟩
  rw [DisputeWebhook.Obeys, if_pos (by omega)]
  refine ⟨?_, ?_, ?_⟩
  · change (markDisputed _ _ _).outbox ++ [⟨(markDisputed _ _ _).outbox.length, _, _, _, _, _⟩] = _
    rw [markDisputed_rows.outbox]
    rw [ensureDisputeRow_rows.outbox]
    rfl
  · change recorded _ _ (markDisputed _ _ _) = _
    rw [recorded_congr markDisputed_disputes,
      recorded_modify ensureDisputeRow_isSome (fun _ => rfl), recorded_ensureDisputeRow]
    ring
  · intro m' dispute hother
    change recorded _ _ (markDisputed _ _ _) = _
    rw [recorded_congr markDisputed_disputes, recorded_modify_of_ne, recorded_ensureDisputeRow]
    cases m' with
    | withdrawal => exact .inl (hother.resolve_left fun h => h rfl)
    | reinstatement => exact .inr fun _ => rfl

theorem disputeFundsReinstated_obeys :
    e.Obeys .reinstatement id intent s (disputeFundsReinstated e id intent s) := by
  unfold disputeFundsReinstated
  cases hrow : s.disputes.get? e.providerDisputeID with
  | none =>
    rw [DisputeWebhook.Obeys, DisputeMovement.limit, recorded, recorded, hrow,
      if_neg fun hmoves => hmoves.1.not_ge hmoves.2]
    exact ⟨rfl, fun _ _ => rfl⟩
  | some dispute =>
    have hrec : recorded .reinstatement e.providerDisputeID s =
        dispute.reinstatedAmountMicro := recorded_of_get hrow
    have hlimit : DisputeMovement.reinstatement.limit intent e.providerDisputeID s =
        dispute.withdrawnAmountMicro := recorded_of_get hrow
    dsimp only
    split
    · rw [DisputeWebhook.Obeys, if_neg (by omega)]
      exact ⟨rfl, fun _ _ => rfl⟩
    split
    · rw [DisputeWebhook.Obeys, if_neg (by omega)]
      exact ⟨rfl, fun _ _ => rfl⟩
    rw [DisputeWebhook.Obeys, if_pos (by omega)]
    refine ⟨?_, ?_, ?_⟩
    · rw [hrec]
      rfl
    · change recorded _ _ { s with disputes := s.disputes.modify _ _ } = _
      rw [recorded_modify (by rw [hrow]; rfl) (fun _ => rfl), hrec]
      ring
    · intro m' other hother
      change recorded _ _ { s with disputes := s.disputes.modify _ _ } = _
      rw [recorded_modify_of_ne]
      cases m' with
      | withdrawal => exact .inr fun _ => rfl
      | reinstatement => exact .inl (hother.resolve_left fun h => h rfl)

/-- The branch of a new dispute moves nothing. -/
theorem disputeCreated_kept : DisputeKept s (disputeCreated e id intent s) := by
  unfold disputeCreated
  split
  · exact ⟨rfl, fun _ _ => rfl⟩
  rename_i hnone
  split
  · exact ⟨rfl, fun _ _ => recorded_createPaymentDispute hnone⟩
  refine ⟨?_, ?_⟩
  · change (markDisputed _ _ _).outbox = _
    rw [markDisputed_rows.outbox]
    rfl
  · intro m dispute
    change recorded _ _ (markDisputed _ _ _) = _
    rw [recorded_congr markDisputed_disputes, recorded_createPaymentDispute hnone]

/-- The branch of a closed dispute moves nothing. -/
theorem disputeClosed_kept : DisputeKept s (disputeClosed e id intent s) := by
  have hstatus (status : DisputeStatus) (m : DisputeMovement) (dispute : String) :
      recorded m dispute (setDisputeStatus e status s) = recorded m dispute s :=
    recorded_modify_of_ne (.inr fun _ => by cases m <;> rfl)
  unfold disputeClosed
  cases disputeClosedStatus e.stripeDisputeStatus with
  | some closed =>
    dsimp only
    split
    · exact ⟨rfl, hstatus closed⟩
    · exact ⟨rfl, hstatus closed⟩
  | none =>
    dsimp only
    split
    · exact ⟨rfl, hstatus .opened⟩
    · exact ⟨rfl, fun _ _ => rfl⟩

/-- From the lock of the payment on, a movement that its checks let through is made. -/
theorem applyDisputeWebhook_moved (htype : e.eventType = m.webhookType)
    (hstat : intentStatusAllowsDispute intent.status = true)
    (hmoves : recorded m e.providerDisputeID s < e.disputeAmountMicro ∧
      e.disputeAmountMicro ≤ m.limit intent e.providerDisputeID s) :
    DisputeMoved e m id intent s (applyDisputeWebhook e id intent s) := by
  have hobeys : e.Obeys m id intent s (applyDisputeWebhook e id intent s) := by
    unfold applyDisputeWebhook
    rw [if_neg (by rw [hstat]; decide)]
    cases m with
    | withdrawal =>
      simp only [htype, DisputeMovement.webhookType]
      exact disputeFundsWithdrawn_obeys
    | reinstatement =>
      simp only [htype, DisputeMovement.webhookType]
      exact disputeFundsReinstated_obeys
  rwa [DisputeWebhook.Obeys, if_pos hmoves] at hobeys

/-- From the lock of the payment on, no other event moves funds. -/
theorem applyDisputeWebhook_kept
    (h : ∀ m : DisputeMovement, e.eventType = m.webhookType →
      intentStatusAllowsDispute intent.status = true →
      ¬ (recorded m e.providerDisputeID s < e.disputeAmountMicro ∧
        e.disputeAmountMicro ≤ m.limit intent e.providerDisputeID s)) :
    DisputeKept s (applyDisputeWebhook e id intent s) := by
  unfold applyDisputeWebhook
  split
  · exact ⟨rfl, fun _ _ => rfl⟩
  rename_i hstat
  rw [Bool.not_eq_false] at hstat
  split
  · exact disputeCreated_kept
  · rename_i htype
    exact (if_neg (h .withdrawal htype hstat)).mp disputeFundsWithdrawn_obeys
  · rename_i htype
    exact (if_neg (h .reinstatement htype hstat)).mp disputeFundsReinstated_obeys
  · exact disputeClosed_kept
  · exact disputeClosed_kept
  · exact ⟨rfl, fun _ _ => rfl⟩

/-- A dispute webhook that moves funds. -/
theorem DisputeWebhook.Moves.moved (h : e.Moves m id intent s) :
    DisputeMoved e m id intent s (processStripeDisputeWebhook e s) := by
  have hfound : (s.createWebhookEvent .stripe e.eventID e.eventType e.paymentIntentRef
      e.disputeAmountMicro).intentByProviderRef .stripe e.paymentIntentRef = some (id, intent) := h.found
  have hamt : ¬ (e.disputeAmountMicro ≤ 0 ∧ e.eventType ≠ .disputeClosed ∧
      e.eventType ≠ .disputeUpdated) := fun hboth => absurd h.positive (not_lt.mpr hboth.1)
  simp only [processStripeDisputeWebhook, h.new, if_neg h.ref, if_neg hamt, hfound]
  obtain ⟨houtbox, hself, hother⟩ := applyDisputeWebhook_moved
    (s := s.createWebhookEvent .stripe e.eventID e.eventType e.paymentIntentRef e.disputeAmountMicro)
    h.type h.disputable ⟨h.raises, h.within⟩
  exact ⟨houtbox, hself, hother⟩

/-- A dispute webhook that moves nothing. -/
theorem processStripeDisputeWebhook_kept (h : ∀ m id intent, ¬ e.Moves m id intent s) :
    DisputeKept s (processStripeDisputeWebhook e s) := by
  unfold processStripeDisputeWebhook
  split
  · exact ⟨rfl, fun _ _ => rfl⟩
  rename_i hnew
  dsimp only
  split
  · exact ⟨rfl, fun _ _ => rfl⟩
  rename_i href
  split
  · exact ⟨rfl, fun _ _ => rfl⟩
  rename_i hamt
  split
  · exact ⟨rfl, fun _ _ => rfl⟩
  rename_i found row hfound
  have hbranch : DisputeKept
      (s.createWebhookEvent .stripe e.eventID e.eventType e.paymentIntentRef e.disputeAmountMicro)
      (applyDisputeWebhook e found row (s.createWebhookEvent .stripe e.eventID e.eventType
        e.paymentIntentRef e.disputeAmountMicro)) := by
    apply applyDisputeWebhook_kept
    rintro m htype hstat ⟨hraises, hwithin⟩
    have hpos : 0 < e.disputeAmountMicro := by
      by_contra hneg
      refine hamt ⟨not_lt.mp hneg, ?_, ?_⟩
      · rw [htype]
        cases m <;> decide
      · rw [htype]
        cases m <;> decide
    exact h m found row ⟨hnew, href, hpos, htype, hfound, hstat, hraises, hwithin⟩
  obtain ⟨houtbox, hrec⟩ := hbranch
  exact ⟨houtbox, hrec⟩

/-- What every branch does: terms are kept, and of the webhooks only the event's own row is updated. -/
structure DisputeBranch (e : DisputeWebhook) (s s' : PaymentStore) : Prop where
  terms : ∀ other, termsOf other s' = termsOf other s
  webhooks : ∃ f, s'.webhookEvents = s.webhookEvents.modify (.stripe, e.eventID) f

/-- The update of the event's row ends a branch. -/
theorem DisputeBranch.of_update {moved : PaymentStore} (status : WebhookStatus) (errMsg : String)
    (hterms : ∀ other, termsOf other moved = termsOf other s)
    (hhooks : moved.webhookEvents = s.webhookEvents) :
    DisputeBranch e s (moved.updateWebhookStatus .stripe e.eventID status errMsg) where
  terms := hterms
  webhooks := by
    rw [← hhooks]
    refine ⟨fun row => ?_, ?_⟩
    · exact { row with
        status := status
        errorMessage := if errMsg = "" then row.errorMessage else some errMsg }
    · rfl

/-- From the lock of the payment on, terms are kept and one webhook is updated. -/
theorem applyDisputeWebhook_branch : DisputeBranch e s (applyDisputeWebhook e id intent s) := by
  have hdone (status : WebhookStatus) (errMsg : String) :
      DisputeBranch e s (s.updateWebhookStatus .stripe e.eventID status errMsg) :=
    .of_update status errMsg (fun _ => rfl) rfl
  have hclose : DisputeBranch e s (disputeClosed e id intent s) := by
    unfold disputeClosed
    cases disputeClosedStatus e.stripeDisputeStatus with
    | some closed =>
      dsimp only
      split
      · exact .of_update _ _
          (fun other => termsOf_updatePaymentIntentStatus _ (fun _ _ => rfl) other) rfl
      · exact .of_update _ _ (fun _ => rfl) rfl
    | none =>
      dsimp only
      split
      · exact .of_update _ _ (fun _ => rfl) rfl
      · exact .of_update _ _ (fun _ => rfl) rfl
  unfold applyDisputeWebhook
  split
  · exact hdone _ _
  split
  · unfold disputeCreated
    split
    · exact hdone _ _
    split
    · exact .of_update _ _ (fun _ => rfl) rfl
    · exact .of_update _ _ markDisputed_rows.terms markDisputed_rows.webhooks
  · unfold disputeFundsWithdrawn
    obtain ⟨-, hhooks, hterms⟩ := @ensureDisputeRow_rows s e id intent
    dsimp only
    split
    · exact .of_update _ _ hterms hhooks
    split
    · exact .of_update _ _ hterms hhooks
    · refine .of_update _ _ (fun other => ?_) ?_
      · exact (markDisputed_rows.terms other).trans (hterms other)
      · exact markDisputed_rows.webhooks.trans hhooks
  · unfold disputeFundsReinstated
    split
    · exact hdone _ _
    split
    · exact hdone _ _
    dsimp only
    split
    · exact hdone _ _
    · exact .of_update _ _ (fun _ => rfl) rfl
  · exact hclose
  · exact hclose
  · exact hdone _ _

/-- A dispute webhook keeps terms and webhooks. -/
theorem processStripeDisputeWebhook_keeps (e : DisputeWebhook) (s : PaymentStore) :
    Keeps s (processStripeDisputeWebhook e s) := by
  unfold processStripeDisputeWebhook
  split
  · exact Keeps.refl s
  rename_i hnew
  dsimp only
  split
  · exact ⟨fun _ => rfl, webhooks_kept hnew⟩
  split
  · exact ⟨fun _ => rfl, webhooks_kept hnew⟩
  split
  · exact ⟨fun _ => rfl, webhooks_kept hnew⟩
  obtain ⟨hterms, f, hhooks⟩ := applyDisputeWebhook_branch
  refine ⟨hterms, ?_⟩
  intro key row hrow
  rw [hhooks]
  exact webhooks_kept hnew key row hrow

end

end Espx.Payment
