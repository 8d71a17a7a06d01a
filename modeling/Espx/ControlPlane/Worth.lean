import Espx.ControlPlane.Movements
import Espx.Foundation.Run
import Mathlib.Algebra.Order.BigOperators.Group.List

/-!
# Money over the life of campaigns

The worth of a customer is the balance with everything that its campaigns hold and the cancellation fees.
A settlement counts twice unless the campaign is deleted: the budget was reserved from the balance, and
the balance is charged again. A lowered overdraft releases budgets that the paused campaigns keep. A fee
whose product leaves the 64 bits may be negative.
-/

namespace Espx.ControlPlane

open Espx.Foundation Espx.Domain Movement List

/-- The transactions of a campaign's life. -/
inductive LifecycleAction
  | create (spec : CampaignCreateSpec)
  | settle (item : SpendFlushItem) (customerTx : String)
  | updateOverdraft (customerID : UUID) (newOverdraft : ℤ)
  | cancel (id : UUID)
  | finalize (feeHundredths : ℤ) (id : UUID)

/-- The transaction of an action. -/
def LifecycleAction.transaction : LifecycleAction → Pg → Option Pg
  | .create spec => createCampaign spec
  | .settle item customerTx => settleDebits item customerTx
  | .updateOverdraft customerID newOverdraft => ControlPlane.updateOverdraft customerID newOverdraft
  | .cancel id => cancelCampaign id
  | .finalize feeHundredths id => finalizeCancelledCampaign feeHundredths id

/-- One transaction, which leaves nothing behind when it is rolled back. -/
def lifecycleStep (pg : Pg) (a : LifecycleAction) : Pg := (a.transaction pg).getD pg

/-- The worth of a customer. -/
def worth (u : UUID) (pg : Pg) : ℤ := balanceOf u pg + heldSum u pg + feesCharged u pg

/-- The change of worth in a movement. -/
def Movement.worth (m : Movement) : ℤ := m.balance + m.held + m.fees

/-- What is left of the budgets of the campaigns that `UpdateOverdraft` may pause. -/
def activeRemaining (customerID : UUID) (pg : Pg) : ℤ :=
  ((listActiveCampaigns customerID pg).map fun e => remainingBudget e.2).sum

/-- The actions in question: budgets are not negative and fit in their column, fees are percentages, and a
settlement is recorded on both sides for the first time, within the limit. -/
def LifecycleAction.Valid (pg : Pg) : LifecycleAction → Prop
  | .create spec => 0 ≤ spec.budgetLimitMicro
  | .settle item customerTx =>
    0 ≤ item.amountMicro ∧ item.txID ∉ pg.syncIdempotency ∧
      customerTx ∉ insert item.txID pg.syncIdempotency ∧ (settleDebits item customerTx pg).isSome ∧
      ∀ row ∈ pg.campaigns.get? item.campaignID, row.currentSpend + item.amountMicro ≤ row.budgetLimit
  | .updateOverdraft _ _ => True
  | .cancel _ => True
  | .finalize feeHundredths id =>
    feeHundredths ≤ 10000 ∧ ∀ row ∈ pg.campaigns.get? id, remainingBudget row < 2 ^ 63

/-- The actions that keep the worth: settlements of nothing or of deleted campaigns, changes of overdraft
that the balance covers or that all active budgets cannot cover, and finalisations whose fee is not a
negative one. -/
def LifecycleAction.Neutral (u : UUID) (pg : Pg) : LifecycleAction → Prop
  | .settle item _ => item.amountMicro = 0 ∨
      ∀ row ∈ pg.campaigns.get? item.campaignID, row.customerID = u → row.status = .deleted
  | .updateOverdraft customerID newOverdraft => customerID = u →
      ∀ cust ∈ pg.customers.get? customerID,
        ¬ (newOverdraft < cust.allowedOverdraft ∧ cust.balance + newOverdraft < 0 ∧
          0 ≤ cust.balance + newOverdraft + activeRemaining customerID pg)
  | .finalize feeHundredths id => (finalizeCancelledCampaign feeHundredths id pg).isSome →
      ∀ row ∈ pg.campaigns.get? id, row.customerID = u → row.status = .draining →
        0 ≤ cancellationFee feeHundredths row
  | _ => True

/-- Validity can be checked. -/
instance (pg : Pg) : (a : LifecycleAction) → Decidable (a.Valid pg)
  | .create spec => inferInstanceAs (Decidable (0 ≤ spec.budgetLimitMicro))
  | .settle _ _ => inferInstanceAs (Decidable (_ ∧ _ ∧ _ ∧ _ ∧ _))
  | .updateOverdraft _ _ => .isTrue trivial
  | .cancel _ => .isTrue trivial
  | .finalize _ _ => inferInstanceAs (Decidable (_ ∧ _))

/-- Neutrality can be checked. -/
instance (u : UUID) (pg : Pg) : (a : LifecycleAction) → Decidable (a.Neutral u pg)
  | .create _ => .isTrue trivial
  | .settle _ _ => inferInstanceAs (Decidable (_ ∨ _))
  | .updateOverdraft customerID _ => inferInstanceAs (Decidable (customerID = u → _))
  | .cancel _ => .isTrue trivial
  | .finalize _ _ => inferInstanceAs (Decidable (_ → _))

open LifecycleAction

section

variable {u v : UUID} {pg pg' : Pg} {id : UUID} {row : CampaignRow} {cust : CustomerRow}

theorem Moves.worth {m : Movement} (h : Moves u m pg pg') :
    ControlPlane.worth u pg' = ControlPlane.worth u pg + m.worth := by
  rw [ControlPlane.worth, h.balance, h.held, h.fees, ControlPlane.worth, Movement.worth]
  ring

theorem rolledBack_moves (u : UUID) (pg : Pg) : ∃ m, Moves u m pg pg ∧ m.worth = 0 :=
  ⟨.zero, .of_same rfl rfl rfl, rfl⟩

theorem step_worth {action : LifecycleAction}
    (h : ∀ pg', action.transaction pg = some pg' → ∃ m, Moves u m pg pg' ∧ m.worth = 0) :
    ∃ m, Moves u m pg (lifecycleStep pg action) ∧ m.worth = 0 := by
  unfold lifecycleStep
  cases hop : action.transaction pg with
  | none => exact rolledBack_moves u pg
  | some pg' => exact h pg' hop

/-- A reservation keeps the worth. -/
theorem create_worth {spec : CampaignCreateSpec} (hbudget : 0 ≤ spec.budgetLimitMicro) :
    ∃ m, Moves u m pg (lifecycleStep pg (.create spec)) ∧ m.worth = 0 := by
  refine step_worth fun pg' hop => ?_
  rcases createCampaign_moves (u := u) hop with rfl | ⟨-, hmoves⟩
  · exact rolledBack_moves u pg'
  · refine ⟨_, hmoves, ?_⟩
    rw [Movement.worth, max_eq_right hbudget]
    split <;> ring

theorem cancel_worth : ∃ m, Moves u m pg (lifecycleStep pg (.cancel id)) ∧ m.worth = 0 :=
  step_worth fun _ hop => ⟨.zero, cancelCampaign_moves hop, rfl⟩

theorem remainingBudget_nonneg (row : CampaignRow) : 0 ≤ remainingBudget row := by
  rw [remainingBudget_eq]
  exact le_max_left 0 _

/-- A fee of at most the whole is at most the amount, also where the product wraps around; and its size is
that of a product, divided by 10000. -/
theorem percentHundredths_bounds {amount hundredths : ℤ} (hamt : 0 ≤ amount)
    (hperc : hundredths ≤ 10000) :
    percentHundredths amount hundredths ≤ amount ∧ -2 ^ 62 ≤ percentHundredths amount hundredths := by
  unfold percentHundredths
  split
  · exact ⟨hamt, by decide⟩
  rename_i hpos
  rw [not_or, not_le, not_le] at hpos
  have hle : amount * hundredths ≤ amount * 10000 := mul_le_mul_of_nonneg_left hperc hamt
  have hnn : 0 ≤ amount * hundredths := mul_nonneg hamt hpos.2.le
  generalize amount * hundredths = product at hle hnn ⊢
  have hwrap : -2 ^ 63 ≤ product.bmod (2 ^ 64) ∧ product.bmod (2 ^ 64) ≤ product := by
    rw [Int.bmod_def]
    split <;> omega
  have hdiv := Int.mul_tdiv_add_tmod (product.bmod (2 ^ 64)) 10000
  have hhigh := Int.tmod_lt_of_pos (product.bmod (2 ^ 64)) (show (0 : ℤ) < 10000 by decide)
  have hlow := Int.lt_tmod_of_pos (product.bmod (2 ^ 64)) (show (0 : ℤ) < 10000 by decide)
  omega

/-- A finalisation gives back as much as it deletes, unless its fee is negative. -/
theorem finalize_worth {feeHundredths : ℤ} (hvalid : (finalize feeHundredths id).Valid pg) :
    ∃ m, Moves u m pg (lifecycleStep pg (.finalize feeHundredths id)) ∧
      (m.worth = 0 ↔ (finalize feeHundredths id).Neutral u pg) := by
  simp only [lifecycleStep, transaction, LifecycleAction.Neutral]
  cases hop : finalizeCancelledCampaign feeHundredths id pg with
  | none => exact ⟨.zero, .of_same rfl rfl rfl, by simp [Movement.worth, zero]⟩
  | some pg' =>
    obtain ⟨row, hrow, ⟨hdrain, rfl⟩ | ⟨hdrain, hmoves⟩⟩ := finalizeCancelledCampaign_moves (u := u) hop
    · exact ⟨.zero, .of_same rfl rfl rfl, by simp [Movement.worth, zero, hrow, hdrain]⟩
    refine ⟨_, hmoves, ?_⟩
    have hrem := remainingBudget_nonneg row
    have hfits := hvalid.2 row hrow
    obtain ⟨hfee, hlow⟩ : cancellationFee feeHundredths row ≤ remainingBudget row ∧
        -2 ^ 62 ≤ cancellationFee feeHundredths row := percentHundredths_bounds hrem hvalid.1
    simp only [hrow, Option.mem_some_iff, forall_eq', Option.isSome_some, forall_const, hdrain,
      Movement.worth]
    by_cases hu : u = row.customerID
    · rw [if_pos hu, if_pos hu, if_pos hu]
      simp only [hu.symm, forall_const]
      generalize cancellationFee feeHundredths row = fee at *
      generalize remainingBudget row = rem at *
      by_cases hwrap : rem - fee < 2 ^ 63
      · rw [Int.bmod_eq_of_le (by omega) (by omega)]
        omega
      · have hneg : (rem - fee).bmod (2 ^ 64) < 0 := by
          rw [Int.bmod_def]
          split <;> omega
        omega
    · simp [hu, Ne.symm hu]

/-- What a settlement within the limit changes about what the campaign holds: only a deleted
campaign has nothing reserved to pay it from. -/
theorem held_spentRow {amount : ℤ} (hamt : 0 ≤ amount)
    (hlimit : row.currentSpend + amount ≤ row.budgetLimit) :
    held u (spentRow amount row) - held u row =
      if u = row.customerID ∧ row.status = .deleted then amount else 0 := by
  by_cases hu : row.customerID = u
  · by_cases hdel : row.status = .deleted
    · by_cases hreach : row.budgetLimit ≤ row.currentSpend + amount
      · have hexact : row.budgetLimit - (row.currentSpend + amount) = 0 := by omega
        simp [held, spentRow, hu, hdel, hreach, hexact]
      · simp [held, spentRow, hu, hdel, hreach]
    have hnew : (spentRow amount row).status ≠ .deleted := by
      simp only [spentRow]
      split
      · decide
      · exact hdel
    have hkept : (spentRow amount row).customerID = u := hu
    have hpre : 0 ≤ row.budgetLimit - row.currentSpend := by omega
    have hafter : 0 ≤ (spentRow amount row).budgetLimit - (spentRow amount row).currentSpend := by
      simp only [spentRow]
      omega
    rw [if_neg (fun hand => hdel hand.2), held, held, if_pos hkept, if_pos hu, if_neg hnew,
      if_neg hdel, max_eq_right hpre, max_eq_right hafter]
    simp only [spentRow]
    ring
  · simp [held, spentRow, hu, Ne.symm hu]

/-- A settlement charges a reserved budget a second time. -/
theorem settle_worth {item : SpendFlushItem} {customerTx : String}
    (hvalid : (settle item customerTx).Valid pg) :
    ∃ m, Moves u m pg (lifecycleStep pg (.settle item customerTx)) ∧
      (m.worth = 0 ↔ (settle item customerTx).Neutral u pg) := by
  obtain ⟨hamt, hfresh, hcustomerTx, hsome, hlimit⟩ := hvalid
  obtain ⟨pg', hop⟩ := Option.isSome_iff_exists.mp hsome
  simp only [lifecycleStep, transaction, hop, Option.getD_some]
  unfold settleDebits at hop
  split at hop
  · cases hop
  rename_i row hrow
  obtain ⟨spent, hspent, hchg⟩ := Option.bind_eq_some_iff.mp hop
  obtain ⟨row', hrow', hcusts, hcust, hids, hmoves⟩ :=
    settleCampaign_moves (u := u) hfresh hspent
  cases hrow.symm.trans hrow'
  rw [← hcusts] at hcust
  rw [← hids] at hcustomerTx
  refine ⟨_, hmoves.trans (updateBalance_moves hcustomerTx hcust hchg), ?_⟩
  have hfee : feePart u (spendFlushEntry row.customerID item) = 0 := by
    apply if_neg
    rintro ⟨-, -, hpos⟩
    simp only [spendFlushEntry] at hpos
    omega
  rw [held_spentRow hamt (hlimit row hrow), hfee]
  simp only [Movement.worth, add, LifecycleAction.Neutral, hrow, Option.mem_some_iff, forall_eq']
  by_cases hu : u = row.customerID
  · by_cases hdel : row.status = .deleted
    · simp [hu, hdel]
    · simp [hu, hdel]
  · simp [hu, Ne.symm hu]

/-- A release without hash breaks no unique index. -/
theorem createLedgerEntry_release (pg : Pg) (customerID : UUID) (camp : Option UUID) (amount : ℤ) :
    ∃ pg', pg.createLedgerEntry (ledgerEntry customerID camp amount .release none) = some pg' ∧
      pg'.campaigns = pg.campaigns ∧ pg'.customers = pg.customers := by
  have huniq : pg.ledgerUnique (ledgerEntry customerID camp amount .release none) = true := by
    simp [Pg.ledgerUnique, ledgerEntry]
  exact ⟨_, if_pos huniq, rfl, rfl⟩

/-- A credit is never refused. -/
theorem updateCustomerBalanceManagement_credit {amount : ℤ}
    (hcust : pg.customers.get? v = some cust) (hcheck : 0 ≤ cust.balance + cust.allowedOverdraft)
    (hamt : 0 ≤ amount) :
    ∃ credited, updateCustomerBalanceManagement pg v amount = some credited ∧
      credited.campaigns = pg.campaigns ∧
      credited.customers.get? v = some { cust with balance := cust.balance + amount } := by
  have hpass : 0 ≤ cust.balance + amount + cust.allowedOverdraft := by omega
  unfold updateCustomerBalanceManagement Pg.addCustomerBalance
  simp only [hcust, if_pos hpass]
  refine ⟨_, rfl, rfl, ?_⟩
  rw [Table.get?_modify_self, hcust]
  rfl

/-- Pausing one campaign keeps the rows of the others. -/
theorem pause_kept {rest : List (UUID × CampaignRow)} (hnodup : (((id, row) :: rest).map Prod.fst).Nodup)
    (hrows : ∀ e ∈ (id, row) :: rest, pg.campaigns.get? e.1 = some e.2 ∧ e.2.status = .active) :
    ∀ e ∈ rest, (pg.updateCampaignStatus id .paused).campaigns.get? e.1 = some e.2 ∧
      e.2.status = .active := by
  intro e he
  obtain ⟨hget, hact⟩ := hrows e (mem_cons_of_mem _ he)
  rw [map_cons, nodup_cons] at hnodup
  have hne : e.1 ≠ id := fun heq => hnodup.1 (mem_map.mpr ⟨e, he, heq⟩)
  refine ⟨?_, hact⟩
  rw [Pg.updateCampaignStatus, Table.get?_modify_of_ne _ _ hne]
  exact hget

/-- `released` was given back to the customer, and the campaigns hold what they held. -/
structure Released (u v : UUID) (cust : CustomerRow) (released : ℤ) (pg pg' : Pg) : Prop where
  customer : pg'.customers.get? v = some { cust with balance := cust.balance + released }
  moves : Moves u ⟨if u = v then released else 0, if u = v then released else 0, 0, 0⟩ pg pg'

theorem Released.nothing (hcust : pg.customers.get? v = some cust) : Released u v cust 0 pg pg := by
  constructor
  · rw [add_zero]
    exact hcust
  · rw [ite_self]
    exact .of_same rfl rfl rfl

/-- An active campaign is paused, its budget is released, and the loop goes on. -/
theorem Released.cons {credited freed : Pg}
    {more : ℤ} (hrow : pg.campaigns.get? id = some row) (hact : row.status = .active)
    (hcred : updateCustomerBalanceManagement (pg.updateCampaignStatus id .paused) v
      (remainingBudget row) = some credited)
    (hfreed : credited.createLedgerEntry
      (ledgerEntry v (some id) (remainingBudget row) .release none) = some freed)
    (hmore : Released u v { cust with balance := cust.balance + remainingBudget row } more freed pg') :
    Released u v cust (remainingBudget row + more) pg pg' := by
  constructor
  · rw [hmore.customer, ← add_assoc]
  · have hpaused : Moves u .zero pg (pg.updateCampaignStatus id .paused) :=
      updateCampaignStatus_moves hrow (by rw [hact]; decide) (by decide)
    have hcredit : (updateCustomerBalanceManagement (pg.updateCampaignStatus id .paused) v
        (remainingBudget row)).bind (·.createLedgerEntry
          (ledgerEntry v (some id) (remainingBudget row) .release none)) = some freed := by
      rw [hcred, Option.bind_some, hfreed]
    have hentry : Moves u ⟨if u = v then remainingBudget row else 0,
        if u = v then remainingBudget row else 0, 0, 0⟩ (pg.updateCampaignStatus id .paused) freed :=
      credit_moves hcredit rfl rfl (by simp [ledgerEntry])
    have hmoves := hpaused.trans (hentry.trans hmore.moves)
    rw [zero_add] at hmoves
    have htotal : (if u = v then remainingBudget row else 0) + (if u = v then more else 0) =
        if u = v then remainingBudget row + more else 0 := by
      split <;> ring
    simpa only [add, htotal, add_zero] using hmoves

/-- An active campaign without budget is paused, and the loop goes on. -/
theorem Released.skip {more : ℤ} (hrow : pg.campaigns.get? id = some row) (hact : row.status = .active)
    (hmore : Released u v cust more (pg.updateCampaignStatus id .paused) pg') :
    Released u v cust more pg pg' := by
  have hpaused : Moves u .zero pg (pg.updateCampaignStatus id .paused) :=
    updateCampaignStatus_moves hrow (by rw [hact]; decide) (by decide)
  have hmoves := hpaused.trans hmore.moves
  rw [zero_add] at hmoves
  exact ⟨hmore.customer, hmoves⟩

/-- The loop of `UpdateOverdraft` releases budgets until the limit is met or none is left; the
paused campaigns keep what was released. -/
theorem suspendCampaigns_spec (entries : List (UUID × CampaignRow)) {avail : ℤ}
    (hnodup : (entries.map Prod.fst).Nodup)
    (hrows : ∀ e ∈ entries, pg.campaigns.get? e.1 = some e.2 ∧ e.2.status = .active)
    (hcust : pg.customers.get? v = some cust) (hcheck : 0 ≤ cust.balance + cust.allowedOverdraft) :
    ∃ pg' released, suspendCampaigns v (entries.map Prod.fst) avail pg = some pg' ∧
      released ≤ (entries.map fun e => remainingBudget e.2).sum ∧
      (0 ≤ avail + released ∨ released = (entries.map fun e => remainingBudget e.2).sum) ∧
      Released u v cust released pg pg' := by
  induction entries generalizing pg cust avail with
  | nil => exact ⟨pg, 0, rfl, le_refl 0, Or.inr rfl, .nothing hcust⟩
  | cons entry rest ih =>
    obtain ⟨id, row⟩ := entry
    obtain ⟨hrow, hact⟩ : pg.campaigns.get? id = some row ∧ row.status = .active :=
      hrows (id, row) mem_cons_self
    have hrem := remainingBudget_nonneg row
    have hkept := pause_kept hnodup hrows
    simp only [map_cons, nodup_cons] at hnodup
    simp only [map_cons, sum_cons]
    by_cases hmet : 0 ≤ avail
    · have hrest : 0 ≤ (rest.map fun e => remainingBudget e.2).sum := by
        apply sum_nonneg
        intro x hx
        obtain ⟨e, -, rfl⟩ := mem_map.mp hx
        exact remainingBudget_nonneg e.2
      refine ⟨pg, 0, ?_, add_nonneg hrem hrest, Or.inl (by omega), .nothing hcust⟩
      rw [suspendCampaigns, if_pos hmet]
    · simp only [suspendCampaigns, if_neg hmet, hrow, hact, ne_eq, not_true_eq_false, if_false]
      by_cases hpos : 0 < remainingBudget row
      · rw [if_pos hpos]
        have hpaused : (pg.updateCampaignStatus id .paused).customers.get? v = some cust := hcust
        obtain ⟨credited, hcred, hcamps, hcustomer⟩ :=
          updateCustomerBalanceManagement_credit hpaused hcheck hrem
        obtain ⟨freed, hfreed, hcampaigns', hcustomers'⟩ :=
          createLedgerEntry_release credited v (some id) (remainingBudget row)
        rw [← hcamps, ← hcampaigns'] at hkept
        rw [← hcustomers'] at hcustomer
        have hcheck' : 0 ≤ cust.balance + remainingBudget row + cust.allowedOverdraft := by omega
        obtain ⟨pg', more, hloop, hle, hmore, hreleased⟩ :=
          @ih _ _ (avail + remainingBudget row) hnodup.2 hkept hcustomer hcheck'
        refine ⟨pg', remainingBudget row + more, ?_, by omega, by omega,
          hreleased.cons hrow hact hcred hfreed⟩
        rw [hcred, Option.bind_eq_bind, Option.bind_some, hfreed, Option.bind_some, hloop]
      · rw [if_neg hpos]
        obtain ⟨pg', more, hloop, hle, hmore, hreleased⟩ :=
          @ih _ _ avail hnodup.2 hkept hcust hcheck
        exact ⟨pg', more, hloop, by omega, by omega, hreleased.skip hrow hact⟩

/-- The campaigns that `UpdateOverdraft` goes through are active rows with distinct ids. -/
theorem listActiveCampaigns_spec (v : UUID) (pg : Pg) :
    ((listActiveCampaigns v pg).map Prod.fst).Nodup ∧ ∀ e ∈ listActiveCampaigns v pg,
      pg.campaigns.get? e.1 = some e.2 ∧ e.2.status = .active := by
  have hsub : (listActiveCampaigns v pg).Sublist pg.campaigns.rows :=
    (take_sublist _ _).trans filter_sublist
  refine ⟨pg.campaigns.nodup.sublist (hsub.map Prod.fst), ?_⟩
  intro e he
  refine ⟨pg.campaigns.get?_of_mem (hsub.subset he), ?_⟩
  have hfilter := (mem_filter.mp (mem_of_mem_take he)).2
  simp only [Bool.decide_and, Bool.and_eq_true, decide_eq_true_eq] at hfilter
  exact hfilter.2

/-- A lowered overdraft that has to pause campaigns goes through exactly when their budgets
cover what is missing, and then it releases something. -/
theorem updateOverdraft_lowered {newOverdraft : ℤ} (hcust : pg.customers.get? v = some cust)
    (hcheck : 0 ≤ cust.balance + cust.allowedOverdraft)
    (hlower : newOverdraft < cust.allowedOverdraft) (hmiss : cust.balance + newOverdraft < 0) :
    (updateOverdraft v newOverdraft pg = none ∧ cust.balance + newOverdraft + activeRemaining v pg < 0) ∨
    ∃ pg' released, updateOverdraft v newOverdraft pg = some pg' ∧ 0 < released ∧
      0 ≤ cust.balance + newOverdraft + activeRemaining v pg ∧
      Moves u ⟨if u = v then released else 0, if u = v then released else 0, 0, 0⟩ pg pg' := by
  obtain ⟨hnodup, hrows⟩ := listActiveCampaigns_spec v pg
  obtain ⟨suspended, released, hloop, hle, hmet, hfreed⟩ :=
    @suspendCampaigns_spec u v pg cust (listActiveCampaigns v pg) (cust.balance + newOverdraft)
      hnodup hrows hcust hcheck
  have hop : updateOverdraft v newOverdraft pg = updateCustomerOverdraft suspended v newOverdraft := by
    simp only [updateOverdraft, hcust, if_neg hlower.ne, if_pos (And.intro hlower hmiss), hloop]
    rfl
  change released ≤ activeRemaining v pg at hle
  change _ ∨ released = activeRemaining v pg at hmet
  by_cases hcover : 0 ≤ cust.balance + released + newOverdraft
  · right
    have hset : ∃ pg', updateCustomerOverdraft suspended v newOverdraft = some pg' := by
      simp only [updateCustomerOverdraft, hfreed.customer, if_pos hcover]
      exact ⟨_, rfl⟩
    obtain ⟨pg', hset⟩ := hset
    have hmoves := hfreed.moves.trans (updateCustomerOverdraft_moves hset)
    refine ⟨pg', released, hop.trans hset, by omega, by omega, ?_⟩
    simpa only [add, zero, add_zero] using hmoves
  · left
    refine ⟨?_, by omega⟩
    rw [hop]
    simp only [updateCustomerOverdraft, hfreed.customer, if_neg hcover]

/-- A change of overdraft releases budgets that are released again later. -/
theorem updateOverdraft_worth {newOverdraft : ℤ} (hcheck : ChecksHold pg) :
    ∃ m, Moves u m pg (lifecycleStep pg (.updateOverdraft v newOverdraft)) ∧
      (m.worth = 0 ↔ (LifecycleAction.updateOverdraft v newOverdraft).Neutral u pg) := by
  simp only [lifecycleStep, transaction, LifecycleAction.Neutral]
  cases hcust : pg.customers.get? v with
  | none =>
    have hop : updateOverdraft v newOverdraft pg = none := by
      simp only [updateOverdraft, hcust]
    rw [hop]
    exact ⟨.zero, .of_same rfl rfl rfl, by simp [Movement.worth, zero]⟩
  | some cust =>
    simp only [Option.mem_some_iff, forall_eq']
    by_cases hlow : newOverdraft < cust.allowedOverdraft ∧ cust.balance + newOverdraft < 0
    · rcases updateOverdraft_lowered (u := u) hcust (hcheck v cust hcust) hlow.1 hlow.2 with
        ⟨hop, hshort⟩ | ⟨pg', released, hop, hpos, hcover, hmoves⟩
      · rw [hop]
        refine ⟨.zero, .of_same rfl rfl rfl, ?_⟩
        simp [Movement.worth, zero, hshort]
      rw [hop]
      refine ⟨_, hmoves, ?_⟩
      by_cases hu : v = u
      · subst hu
        simp [Movement.worth, hlow, hcover, hpos.ne']
      · simp [Movement.worth, hu, Ne.symm hu]
    · have hzero : Moves u .zero pg ((updateOverdraft v newOverdraft pg).getD pg) := by
        cases hop : updateOverdraft v newOverdraft pg with
        | none => exact .of_same rfl rfl rfl
        | some pg' =>
          simp only [updateOverdraft, hcust, if_neg hlow] at hop
          split at hop
          · cases hop
            exact .of_same rfl rfl rfl
          · exact updateCustomerOverdraft_moves hop
      refine ⟨.zero, hzero, ?_⟩
      have hneut : ¬ (newOverdraft < cust.allowedOverdraft ∧ cust.balance + newOverdraft < 0 ∧
          0 ≤ cust.balance + newOverdraft + activeRemaining v pg) :=
        fun hall => hlow ⟨hall.1, hall.2.1⟩
      simp [Movement.worth, zero, hneut]

/-- One action moves the customer's money, and keeps the worth exactly when it is neutral. -/
theorem lifecycleStep_worth {a : LifecycleAction} (hcheck : ChecksHold pg) (hvalid : a.Valid pg) :
    ∃ m, Moves u m pg (lifecycleStep pg a) ∧ (m.worth = 0 ↔ a.Neutral u pg) := by
  cases a with
  | create spec =>
    obtain ⟨m, hmoves, hzero⟩ := @create_worth u pg spec hvalid
    exact ⟨m, hmoves, iff_of_true hzero trivial⟩
  | settle item customerTx => exact settle_worth hvalid
  | updateOverdraft v newOverdraft => exact updateOverdraft_worth hcheck
  | cancel id =>
    obtain ⟨m, hmoves, hzero⟩ := @cancel_worth u pg id
    exact ⟨m, hmoves, iff_of_true hzero trivial⟩
  | finalize feeHundredths id => exact finalize_worth hvalid

end

/-- The account passes the check that its customer passes. -/
theorem sampleAccount_checks {balance allowedOverdraft : ℤ} (h : 0 ≤ balance + allowedOverdraft) :
    ChecksHold (sampleAccount balance allowedOverdraft) := by
  intro v row hrow
  by_cases hv : v = sampleCustomer
  · rw [hv, sampleAccount, Table.get?_insert_self _ _ rfl] at hrow
    cases hrow
    exact h
  · rw [sampleAccount, Table.get?_insert_of_ne _ _ hv] at hrow
    cases hrow

/-- A campaign is cancelled and finalised with a fee of ten percent; a settlement comes late. -/
def sampleLateSettlement : List LifecycleAction :=
  [.create sampleSpec, .cancel sampleCampaign, .finalize 1000 sampleCampaign,
    .settle (sampleDebits 5) "customer-1"]

end Espx.ControlPlane
