import Espx.Payment.Webhooks

/-!
# Crypto payments and their holds

An underpaid, too small or unconfirmed event writes the status of its payment before any check of the
transition, so that a late event re-opens a payment that has succeeded, and a further one settles it again
under a second hold. Where every such event finds a status that it may follow, a payment gets one hold at
most.
-/

namespace Espx.Payment

open Espx.Foundation Espx.Domain

/-- One webhook. -/
def cryptoStep (cfg : CryptoConfig) (s : PaymentStore) (e : CryptoWebhook) : PaymentStore :=
  processCryptoWebhook cfg e s

/-- The status of a payment. -/
def statusOf (id : UUID) (s : PaymentStore) : Option IntentStatus :=
  (s.intents.get? id).map PaymentIntent.status

/-- The number of holds of a payment. -/
def holdsOf (id : UUID) (s : PaymentStore) : ℕ :=
  (s.cryptoHolds.filter fun hold => hold.paymentIntentID = id).length

/-- The status of a payment has moved along the transition table. -/
def MovesValidly (id : UUID) (s s' : PaymentStore) : Prop :=
  ∀ old new, statusOf id s = some old → statusOf id s' = some new → isValidTransition old new = true

/-- A new event for a payment that fails it or sends it back to processing finds a status from
which this is a transition. -/
def CryptoWebhook.Safe (cfg : CryptoConfig) (id : UUID) (s : PaymentStore) (e : CryptoWebhook) : Prop :=
  ∀ intent, s.webhookEvents.get? (.crypto, e.eventID) = none →
    s.intentByProviderRef .crypto e.providerRef = some (id, intent) → 0 < e.amountMicro →
    (e.amountMicro < intent.amountMicro ∨ e.amountMicro < cfg.cryptoMinPaymentMicro →
      isValidTransition intent.status .failed = true) ∧
    (intent.amountMicro ≤ e.amountMicro → cfg.cryptoMinPaymentMicro ≤ e.amountMicro →
      e.confirmations < cfg.cryptoConfirmationDepth →
      isValidTransition intent.status .processing = true)

section

variable {s : PaymentStore} {id other : UUID}

theorem statusOf_updatePaymentIntentStatus {status old : IntentStatus} {ref : Option String}
    (h : statusOf id s = some old) :
    statusOf id (s.updatePaymentIntentStatus id status ref) = some status := by
  obtain ⟨row, hrow, -⟩ := Option.map_eq_some_iff.mp h
  rw [statusOf, PaymentStore.updatePaymentIntentStatus, Table.get?_modify_self, hrow]
  rfl

theorem movesValidly_of_eq {s' : PaymentStore} (h : statusOf id s' = statusOf id s) :
    MovesValidly id s s' := by
  intro old new hold hnew
  rw [h, hold, Option.some.injEq] at hnew
  rw [hnew]
  exact if_pos rfl

end

/-- What an event does to a payment: nothing, a status written without a check, or a success along the
transition table, with a hold where it had not succeeded. -/
inductive CryptoEffect (cfg : CryptoConfig) (id : UUID) (s : PaymentStore) (e : CryptoWebhook)
    (s' : PaymentStore) : Prop
  | none (hstatus : statusOf id s' = statusOf id s) (hholds : holdsOf id s' = holdsOf id s)
  | fails (intent : PaymentIntent) (hnew : s.webhookEvents.get? (.crypto, e.eventID) = none)
      (hintent : s.intentByProviderRef .crypto e.providerRef = some (id, intent))
      (hpos : 0 < e.amountMicro)
      (hshort : e.amountMicro < intent.amountMicro ∨ e.amountMicro < cfg.cryptoMinPaymentMicro)
      (hstatus : statusOf id s' = some .failed) (hholds : holdsOf id s' = holdsOf id s)
  | waits (intent : PaymentIntent) (hnew : s.webhookEvents.get? (.crypto, e.eventID) = none)
      (hintent : s.intentByProviderRef .crypto e.providerRef = some (id, intent))
      (hpos : 0 < e.amountMicro) (hpaid : intent.amountMicro ≤ e.amountMicro)
      (hmin : cfg.cryptoMinPaymentMicro ≤ e.amountMicro)
      (hdepth : e.confirmations < cfg.cryptoConfirmationDepth)
      (hstatus : statusOf id s' = some .processing) (hholds : holdsOf id s' = holdsOf id s)
  | succeeds (old : IntentStatus) (hold : statusOf id s = some old)
      (hvalid : isValidTransition old .succeeded = true) (hstatus : statusOf id s' = some .succeeded)
      (hholds : holdsOf id s' = holdsOf id s + if old = .succeeded then 0 else 1)

section

variable {cfg : CryptoConfig} {id : UUID} {s : PaymentStore} {e : CryptoWebhook}
  {intent : PaymentIntent} (hnew : s.webhookEvents.get? (.crypto, e.eventID) = none)
  (hintent : s.intentByProviderRef .crypto e.providerRef = some (id, intent)) (hpos : 0 < e.amountMicro)

include hintent in
theorem statusOf_of_intent : statusOf id s = some intent.status := by
  rw [statusOf, intentByProviderRef_get hintent, Option.map_some]

include hnew hintent in
/-- The effect of a new event on its own payment. -/
theorem applyCryptoWebhook_effect {received : PaymentStore}
    (hintents : received.intents = s.intents) (hcryptoHolds : received.cryptoHolds = s.cryptoHolds) :
    CryptoEffect cfg id s e (applyCryptoWebhook cfg e id intent received) := by
  have hold := statusOf_of_intent hintent
  have hrecv : statusOf id received = some intent.status := by
    rw [statusOf, hintents]
    exact hold
  have hkept : holdsOf id received = holdsOf id s := by rw [holdsOf, hcryptoHolds, holdsOf]
  unfold applyCryptoWebhook
  split
  · exact .none (hrecv.trans hold.symm) hkept
  rename_i hpos
  split
  · rename_i hunder
    exact .fails intent hnew hintent (not_le.mp hpos) (.inl hunder)
      (statusOf_updatePaymentIntentStatus hrecv) hkept
  rename_i hpaid
  split
  · rename_i hmin
    exact .fails intent hnew hintent (not_le.mp hpos) (.inr hmin)
      (statusOf_updatePaymentIntentStatus hrecv) hkept
  rename_i hmin
  split
  · rename_i hdepth
    exact .waits intent hnew hintent (not_le.mp hpos) (not_lt.mp hpaid) (not_lt.mp hmin)
      hdepth (statusOf_updatePaymentIntentStatus hrecv) hkept
  split
  · exact .none (hrecv.trans hold.symm) hkept
  rename_i hvalid
  rw [Bool.not_eq_false] at hvalid
  dsimp only
  by_cases hset : intent.status = .succeeded
  · rw [if_pos hset]
    refine .succeeds intent.status hold hvalid (statusOf_updatePaymentIntentStatus hrecv) ?_
    rw [if_pos hset]
    exact hkept
  · rw [if_neg hset]
    refine .succeeds intent.status hold hvalid (statusOf_updatePaymentIntentStatus hrecv) ?_
    rw [if_neg hset, ← hkept]
    change (List.filter _ (e.hold id intent :: received.cryptoHolds)).length = _
    rw [List.filter_cons_of_pos (by simp [CryptoWebhook.hold]), List.length_cons]
    rfl

/-- An event has no effect on other payments. -/
theorem applyCryptoWebhook_other {other : UUID} (intent : PaymentIntent) (h : id ≠ other) :
    statusOf id (applyCryptoWebhook cfg e other intent s) = statusOf id s ∧
      holdsOf id (applyCryptoWebhook cfg e other intent s) = holdsOf id s := by
  have hkept {status : IntentStatus} {ref : Option String} :
      statusOf id (s.updatePaymentIntentStatus other status ref) = statusOf id s := by
    rw [statusOf, PaymentStore.updatePaymentIntentStatus, Table.get?_modify_of_ne _ _ h, statusOf]
  unfold applyCryptoWebhook
  split
  · exact ⟨rfl, rfl⟩
  split
  · exact ⟨hkept, rfl⟩
  split
  · exact ⟨hkept, rfl⟩
  split
  · exact ⟨hkept, rfl⟩
  split
  · exact ⟨rfl, rfl⟩
  split
  · exact ⟨hkept, rfl⟩
  refine ⟨hkept, ?_⟩
  have hother : ¬ (e.hold other intent).paymentIntentID = id := fun heq => h heq.symm
  change (List.filter _ (e.hold other intent :: s.cryptoHolds)).length = _
  rw [List.filter_cons_of_neg (by simpa using hother)]
  rfl

/-- A webhook has one of the effects on a payment. -/
theorem cryptoStep_effect (cfg : CryptoConfig) (id : UUID) (s : PaymentStore) (e : CryptoWebhook) :
    CryptoEffect cfg id s e (cryptoStep cfg s e) := by
  unfold cryptoStep processCryptoWebhook
  split
  · exact .none rfl rfl
  rename_i hnew
  dsimp only
  split
  · exact .none rfl rfl
  rename_i found intent hfound
  by_cases hid : id = found
  · subst hid
    exact applyCryptoWebhook_effect hnew hfound rfl rfl
  · obtain ⟨hstat, hholds⟩ := applyCryptoWebhook_other intent hid
    exact .none hstat hholds

section

include hnew hintent

theorem cryptoStep_new :
    cryptoStep cfg s e = applyCryptoWebhook cfg e id intent
      (s.createWebhookEvent .crypto e.eventID e.eventType e.providerRef e.amountMicro) := by
  have hfound : (s.createWebhookEvent .crypto e.eventID e.eventType e.providerRef
      e.amountMicro).intentByProviderRef .crypto e.providerRef = some (id, intent) := hintent
  simp only [cryptoStep, processCryptoWebhook, hnew, hfound]

include hpos

/-- A new event that pays too little fails its payment. -/
theorem cryptoStep_fails
    (hshort : e.amountMicro < intent.amountMicro ∨ e.amountMicro < cfg.cryptoMinPaymentMicro) :
    statusOf id (cryptoStep cfg s e) = some .failed := by
  have hold := statusOf_of_intent hintent
  rw [cryptoStep_new hnew hintent, applyCryptoWebhook, if_neg (not_le.mpr hpos)]
  by_cases hunder : e.amountMicro < intent.amountMicro
  · rw [if_pos hunder]
    exact statusOf_updatePaymentIntentStatus hold
  · rw [if_neg hunder, if_pos (hshort.resolve_left hunder)]
    exact statusOf_updatePaymentIntentStatus hold

/-- A new event with too few confirmations sends its payment to processing. -/
theorem cryptoStep_waits (hpaid : intent.amountMicro ≤ e.amountMicro)
    (hmin : cfg.cryptoMinPaymentMicro ≤ e.amountMicro)
    (hdepth : e.confirmations < cfg.cryptoConfirmationDepth) :
    statusOf id (cryptoStep cfg s e) = some .processing := by
  rw [cryptoStep_new hnew hintent, applyCryptoWebhook, if_neg (not_le.mpr hpos),
    if_neg (not_lt.mpr hpaid), if_neg (not_lt.mpr hmin), if_pos hdepth]
  exact statusOf_updatePaymentIntentStatus (statusOf_of_intent hintent)

end

theorem movesValidly_of_statuses {s' : PaymentStore} {before after : IntentStatus}
    (hpre : statusOf id s = some before) (hafter : statusOf id s' = some after)
    (hvalid : isValidTransition before after = true) : MovesValidly id s s' := by
  intro old new hold hnew
  rw [hpre, Option.some.injEq] at hold
  rw [hafter, Option.some.injEq] at hnew
  rw [← hold, ← hnew]
  exact hvalid

/-- A webhook moves the status of a payment validly exactly when it is safe. -/
theorem movesValidly_iff_safe : MovesValidly id s (cryptoStep cfg s e) ↔ e.Safe cfg id s := by
  constructor
  · intro hmoves intent hnew hintent hpos
    have hold := statusOf_of_intent hintent
    constructor
    · intro hshort
      exact hmoves _ _ hold (cryptoStep_fails hnew hintent hpos hshort)
    · intro hpaid hmin hdepth
      exact hmoves _ _ hold (cryptoStep_waits hnew hintent hpos hpaid hmin hdepth)
  · intro hsafe
    cases cryptoStep_effect cfg id s e with
    | none hstat hholds => exact movesValidly_of_eq hstat
    | fails intent hnew hintent hpos hshort hstat hholds =>
      exact movesValidly_of_statuses (statusOf_of_intent hintent) hstat
        ((hsafe intent hnew hintent hpos).1 hshort)
    | waits intent hnew hintent hpos hpaid hmin hdepth hstat hholds =>
      exact movesValidly_of_statuses (statusOf_of_intent hintent) hstat
        ((hsafe intent hnew hintent hpos).2 hpaid hmin hdepth)
    | succeeds before hpre hvalid hstat hholds =>
      exact movesValidly_of_statuses hpre hstat hvalid

/-- Since the start, no hold was created, or one was and the payment has succeeded. -/
def OneHold (id : UUID) (count : ℕ) (s : PaymentStore) : Prop :=
  holdsOf id s = count ∨ (holdsOf id s = count + 1 ∧ statusOf id s = some .succeeded)

/-- A safe webhook creates no second hold. -/
theorem OneHold.step {count : ℕ} (h : OneHold id count s) (hsafe : e.Safe cfg id s) :
    OneHold id count (cryptoStep cfg s e) := by
  have hmoves := movesValidly_iff_safe.mpr hsafe
  cases cryptoStep_effect cfg id s e with
  | none hstat hholds =>
    unfold OneHold
    rw [hstat, hholds]
    exact h
  | fails intent hnew hintent hpos hshort hstat hholds
  | waits intent hnew hintent hpos hpaid hmin hdepth hstat hholds =>
    obtain hnone | ⟨-, hok⟩ := h
    · exact .inl (hholds.trans hnone)
    · exact absurd (hmoves _ _ hok hstat) (by decide)
  | succeeds old hold hvalid hstat hholds =>
    obtain hnone | ⟨hone, hok⟩ := h
    · by_cases hset : old = .succeeded
      · rw [if_pos hset] at hholds
        exact .inl (hholds.trans hnone)
      · rw [if_neg hset, hnone] at hholds
        exact .inr ⟨hholds, hstat⟩
    · rw [hold, Option.some.injEq] at hok
      rw [if_pos hok, hone] at hholds
      exact .inr ⟨hholds, hstat⟩

end

/-- In a sequence of crypto webhooks the status of a payment moves along the transition table, and the
payment gets one hold at most, exactly when every event is safe. -/
theorem crypto_settles_once (cfg : CryptoConfig) (id : UUID) (start : PaymentStore)
    (events : List CryptoWebhook) :
    ((∀ done e, done ++ [e] <+: events → MovesValidly id (run (cryptoStep cfg) start done)
          (run (cryptoStep cfg) start (done ++ [e]))) ∧
        ∀ done, done <+: events → holdsOf id (run (cryptoStep cfg) start done) ≤ holdsOf id start + 1) ↔
      Admissible (fun s e => e.Safe cfg id s) (cryptoStep cfg) start events := by
  have hlast (done : List CryptoWebhook) (e : CryptoWebhook) :
      run (cryptoStep cfg) start (done ++ [e]) = cryptoStep cfg (run (cryptoStep cfg) start done) e := by
    rw [run_append]
    rfl
  constructor
  · rintro ⟨hmoves, -⟩
    rw [admissible_iff_forall]
    intro done e hdone
    rw [← movesValidly_iff_safe, ← hlast]
    exact hmoves done e hdone
  · intro hrun
    constructor
    · intro done e hdone
      rw [hlast, movesValidly_iff_safe]
      exact admissible_iff_forall.mp hrun done e hdone
    · rintro done ⟨rest, rfl⟩
      have hone : OneHold id (holdsOf id start) (run (cryptoStep cfg) start done) :=
        @Admissible.invariant _ _ _ _ (OneHold id (holdsOf id start))
          (fun _ _ hsafe h => h.step hsafe) _ _ hrun.left (.inl rfl)
      obtain hnone | ⟨hcount, -⟩ := hone
      · omega
      · omega

/-- A gateway that asks for three confirmations. -/
def sampleGateway : CryptoConfig := ⟨1, 3⟩

/-- A payment of one hundred that waits for its provider. -/
def sampleCrypto : PaymentStore where
  intents := Table.empty.insert ControlPlane.sampleIntent
    ⟨ControlPlane.sampleCustomer, 100, "USDT", .pendingProvider, .crypto, some "pay-1"⟩
  webhookEvents := Table.empty
  outbox := []
  disputes := Table.empty
  cryptoHolds := []

/-- An event of the sample payment. -/
def sampleCryptoEvent (eventID : String) (confirmations : ℤ) : CryptoWebhook :=
  ⟨eventID, .other "payment", "pay-1", 100, "0xabc", confirmations, uuidNil, 0⟩

/-- An event with one confirmation that arrives after the success re-opens the payment, and the
next one settles it under a second hold. -/
theorem crypto_settles_twice :
    let once := run (cryptoStep sampleGateway) sampleCrypto [sampleCryptoEvent "evt-1" 3]
    let reopened := cryptoStep sampleGateway once (sampleCryptoEvent "evt-2" 1)
    let twice := cryptoStep sampleGateway reopened (sampleCryptoEvent "evt-3" 3)
    statusOf ControlPlane.sampleIntent once = some .succeeded ∧
      statusOf ControlPlane.sampleIntent reopened = some .processing ∧
      isValidTransition .succeeded .processing = false ∧
      holdsOf ControlPlane.sampleIntent twice = 2 := by
  decide +kernel

end Espx.Payment
