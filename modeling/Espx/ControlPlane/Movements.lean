import Espx.ControlPlane.Billing
import Mathlib.Tactic.Ring

/-!
# Movements of a customer's money

By how much each statement and each transaction changes four quantities of a customer: the balance, the
ledger sum that invoicing compares it with, what the campaigns hold, and the cancellation fees.
-/

namespace Espx.ControlPlane

open Espx.Foundation Espx.Domain Table List

section

variable (u : UUID) (pg : Pg)

/-- The balance. -/
def balanceOf : ℤ := ((pg.customers.get? u).map CustomerRow.balance).getD 0

/-- The part of a ledger row in the sum of `ReadLedgerInvariant`. -/
def ledgerPart (e : LedgerEntry) : ℤ :=
  if e.customerID = u ∧ e.type ∉ [LedgerType.rtbCost, .operatorMargin, .publisherPayout] then e.amount
  else 0

/-- The ledger sum of `ReadLedgerInvariant`. -/
def ledgerSum : ℤ := (pg.ledger.map (ledgerPart u)).sum

/-- The part of a ledger row in the cancellation fees: a `FEE` row of a settlement is negative. -/
def feePart (e : LedgerEntry) : ℤ :=
  if e.customerID = u ∧ e.type = .fee ∧ 0 < e.amount then e.amount else 0

/-- The cancellation fees charged. -/
def feesCharged : ℤ := (pg.ledger.map (feePart u)).sum

/-- What a campaign holds for the customer: what it has spent, and what it has reserved. -/
def held (row : CampaignRow) : ℤ :=
  if row.customerID = u then
    (if row.status = .deleted then 0 else max 0 (row.budgetLimit - row.currentSpend)) + row.currentSpend
  else 0

/-- What all campaigns hold. -/
def heldSum : ℤ := pg.campaigns.sum fun _ row => held u row

end

/-- A change of the four quantities. -/
structure Movement where
  balance : ℤ
  ledger : ℤ
  held : ℤ
  fees : ℤ

namespace Movement

/-- Nothing moves. -/
def zero : Movement := ⟨0, 0, 0, 0⟩

/-- One movement after another. -/
def add (m n : Movement) : Movement :=
  ⟨m.balance + n.balance, m.ledger + n.ledger, m.held + n.held, m.fees + n.fees⟩

theorem zero_add (m : Movement) : zero.add m = m := by
  simp [zero, add]

end Movement

/-- `chk_allowed_balance`. -/
def ChecksHold (pg : Pg) : Prop :=
  ∀ v row, pg.customers.get? v = some row → 0 ≤ row.balance + row.allowedOverdraft

/-- The quantities of the customer have changed by `m`, and no check is violated. -/
structure Moves (u : UUID) (m : Movement) (pg pg' : Pg) : Prop where
  checks : ChecksHold pg → ChecksHold pg'
  balance : balanceOf u pg' = balanceOf u pg + m.balance
  ledger : ledgerSum u pg' = ledgerSum u pg + m.ledger
  held : heldSum u pg' = heldSum u pg + m.held
  fees : feesCharged u pg' = feesCharged u pg + m.fees

section

variable {u v id : UUID} {pg pg' pg'' : Pg} {m n : Movement} {delta : ℤ} {row : CampaignRow}

/-- Only campaigns have changed. -/
theorem Moves.of_campaigns (hcusts : pg'.customers = pg.customers) (hled : pg'.ledger = pg.ledger) :
    Moves u ⟨0, 0, heldSum u pg' - heldSum u pg, 0⟩ pg pg' := by
  constructor
  · rw [ChecksHold, ChecksHold, hcusts]
    exact id
  · rw [balanceOf, balanceOf, hcusts, add_zero]
  · rw [ledgerSum, ledgerSum, hled, add_zero]
  · ring
  · rw [feesCharged, feesCharged, hled, add_zero]

theorem Moves.of_same (hcamps : pg'.campaigns = pg.campaigns)
    (hcusts : pg'.customers = pg.customers) (hled : pg'.ledger = pg.ledger) : Moves u .zero pg pg' := by
  have hmoves := Moves.of_campaigns (u := u) hcusts hled
  rw [heldSum, heldSum, hcamps, sub_self] at hmoves
  exact hmoves

/-- Movements add up. -/
theorem Moves.trans (h : Moves u m pg pg') (h' : Moves u n pg' pg'') : Moves u (m.add n) pg pg'' := by
  constructor
  · exact h'.checks ∘ h.checks
  · rw [h'.balance, h.balance, Movement.add, add_assoc]
  · rw [h'.ledger, h.ledger, Movement.add, add_assoc]
  · rw [h'.held, h.held, Movement.add, add_assoc]
  · rw [h'.fees, h.fees, Movement.add, add_assoc]

/-- The row that a changed balance belongs to. -/
theorem addCustomerBalance_eq_some (h : pg.addCustomerBalance v delta = some pg') :
    (pg.customers.get? v = none ∧ pg' = pg) ∨
      ∃ row, pg.customers.get? v = some row ∧ 0 ≤ row.balance + delta + row.allowedOverdraft ∧
        pg' = { pg with customers := pg.customers.modify v fun row =>
          { row with balance := row.balance + delta } } := by
  unfold Pg.addCustomerBalance at h
  split at h
  · rename_i hnone
    exact .inl ⟨hnone, (Option.some.inj h).symm⟩
  rename_i row hrow
  split at h
  · rename_i hcheck
    exact .inr ⟨row, hrow, hcheck, (Option.some.inj h).symm⟩
  · cases h

/-- A changed row of a customer moves by its balance. -/
theorem modifyCustomer_moves (f : CustomerRow → CustomerRow) {row : CustomerRow}
    (hrow : pg.customers.get? v = some row) (hcheck : 0 ≤ (f row).balance + (f row).allowedOverdraft) :
    Moves u ⟨if u = v then (f row).balance - row.balance else 0, 0, 0, 0⟩ pg
      { pg with customers := pg.customers.modify v f } := by
  refine ⟨?_, ?_, (add_zero _).symm, (add_zero _).symm, (add_zero _).symm⟩
  · intro hchecks w wrow hw
    by_cases hwv : w = v
    · rw [hwv, get?_modify_self, hrow] at hw
      cases hw
      exact hcheck
    · rw [get?_modify_of_ne _ _ hwv] at hw
      exact hchecks w wrow hw
  · unfold balanceOf
    by_cases huv : u = v
    · rw [huv, get?_modify_self, hrow, if_pos rfl]
      exact (add_sub_cancel _ _).symm
    · rw [get?_modify_of_ne _ _ huv, if_neg huv, add_zero]

/-- A changed balance moves. -/
theorem addCustomerBalance_moves {row : CustomerRow} (hrow : pg.customers.get? v = some row)
    (h : pg.addCustomerBalance v delta = some pg') :
    Moves u ⟨if u = v then delta else 0, 0, 0, 0⟩ pg pg' := by
  rcases addCustomerBalance_eq_some h with ⟨hnone, -⟩ | ⟨row', hrow', hcheck, rfl⟩
  · rw [hrow] at hnone
    cases hnone
  have hmoves := modifyCustomer_moves (u := u) (fun row => { row with balance := row.balance + delta })
    hrow' hcheck
  dsimp only at hmoves
  rw [add_sub_cancel_left] at hmoves
  exact hmoves

theorem updateCustomerBalanceManagement_moves
    (h : updateCustomerBalanceManagement pg v delta = some pg') :
    Moves u ⟨if u = v then delta else 0, 0, 0, 0⟩ pg pg' := by
  unfold updateCustomerBalanceManagement at h
  split at h
  · cases h
  · rename_i row hrow
    exact addCustomerBalance_moves hrow h

/-- A ledger row moves the ledger sum and the fees. -/
theorem createLedgerEntry_moves {e : LedgerEntry} (h : pg.createLedgerEntry e = some pg') :
    Moves u ⟨0, ledgerPart u e, 0, feePart u e⟩ pg pg' := by
  rw [Pg.createLedgerEntry_eq_some h]
  refine ⟨fun hcheck => hcheck, (add_zero _).symm, ?_, (add_zero _).symm, ?_⟩
  · simp only [ledgerSum, map_cons, sum_cons]
    ring
  · simp only [feesCharged, map_cons, sum_cons]
    ring

theorem modifyCampaign_moves (f : CampaignRow → CampaignRow) (hrow : pg.campaigns.get? id = some row) :
    Moves u ⟨0, 0, held u (f row) - held u row, 0⟩ pg { pg with campaigns := pg.campaigns.modify id f } :=
  ⟨fun hcheck => hcheck, (add_zero _).symm, (add_zero _).symm, sum_modify _ _ _ hrow, (add_zero _).symm⟩

theorem insertCampaign_moves (h : insertCampaign pg id row = some pg') :
    Moves u ⟨0, 0, held u row, 0⟩ pg pg' := by
  unfold insertCampaign at h
  split at h
  · rename_i hnone
    cases h
    refine ⟨fun hcheck => hcheck, (add_zero _).symm, (add_zero _).symm, ?_, (add_zero _).symm⟩
    rw [heldSum, sum_insert _ _ _ hnone, add_comm]
    rfl
  · cases h

/-- A change of overdraft moves nothing. -/
theorem updateCustomerOverdraft_moves {overdraft : ℤ}
    (h : updateCustomerOverdraft pg v overdraft = some pg') : Moves u .zero pg pg' := by
  unfold updateCustomerOverdraft at h
  split at h
  · cases h
  rename_i row hrow
  split at h
  · rename_i hcheck
    cases h
    have hmoves := modifyCustomer_moves (u := u) (fun row => { row with allowedOverdraft := overdraft })
      hrow hcheck
    dsimp only at hmoves
    rw [sub_self, ite_self] at hmoves
    exact hmoves
  · cases h

/-- A change of status moves nothing, unless it deletes the campaign or brings it back. -/
theorem updateCampaignStatus_moves {status : CampaignStatus}
    (hrow : pg.campaigns.get? id = some row) (hold : row.status ≠ .deleted)
    (hnew : status ≠ .deleted) : Moves u .zero pg (pg.updateCampaignStatus id status) := by
  have hmoves := @modifyCampaign_moves u id pg row (fun row => { row with status := status }) hrow
  have hzero : held u { row with status := status } - held u row = 0 := by
    simp only [held, if_neg hold, if_neg hnew, sub_self]
  rw [hzero] at hmoves
  exact hmoves

/-- A row is booked together with the movement of its customer's balance. -/
structure Booked (e : LedgerEntry) (pg pg' : Pg) : Prop where
  unique : pg.ledgerUnique e = true
  allowed : ∃ row, pg.customers.get? e.customerID = some row ∧
    0 ≤ row.balance + e.amount + row.allowedOverdraft
  eq : pg' = { pg with
    customers := pg.customers.modify e.customerID fun row =>
      { row with balance := row.balance + e.amount }
    ledger := e :: pg.ledger }

/-- The last two statements of a payment transaction book its row. -/
theorem booked_iff {e : LedgerEntry} :
    (updateCustomerBalanceManagement pg e.customerID e.amount).bind (·.createLedgerEntry e) = some pg' ↔
      Booked e pg pg' := by
  constructor
  · intro h
    obtain ⟨moved, hmoved, hentry⟩ := Option.bind_eq_some_iff.mp h
    unfold updateCustomerBalanceManagement at hmoved
    split at hmoved
    · cases hmoved
    rename_i row hrow
    obtain ⟨hnone, -⟩ | ⟨row', hrow', hcheck, rfl⟩ := addCustomerBalance_eq_some hmoved
    · rw [hrow] at hnone
      cases hnone
    unfold Pg.createLedgerEntry at hentry
    split at hentry
    · rename_i huniq
      exact ⟨huniq, ⟨row', hrow', hcheck⟩, (Option.some.inj hentry).symm⟩
    · cases hentry
  · rintro ⟨huniq, ⟨row, hrow, hcheck⟩, rfl⟩
    have hmoved : updateCustomerBalanceManagement pg e.customerID e.amount =
        some { pg with customers := pg.customers.modify e.customerID fun row =>
          { row with balance := row.balance + e.amount } } := by
      simp only [updateCustomerBalanceManagement, Pg.addCustomerBalance, hrow, hcheck, if_true]
    rw [hmoved, Option.bind_some]
    exact if_pos huniq

/-- A balance that moves with a ledger row of the same amount. -/
theorem credit_moves {e : LedgerEntry}
    (h : (updateCustomerBalanceManagement pg v delta).bind (·.createLedgerEntry e) = some pg')
    (hcust : e.customerID = v) (hamt : e.amount = delta)
    (htype : e.type ∉ [LedgerType.rtbCost, .operatorMargin, .publisherPayout, .fee]) :
    Moves u ⟨if u = v then delta else 0, if u = v then delta else 0, 0, 0⟩ pg pg' := by
  obtain ⟨mid, hmid, hentry⟩ := Option.bind_eq_some_iff.mp h
  have hmoves := (updateCustomerBalanceManagement_moves (u := u) hmid).trans
    (createLedgerEntry_moves hentry)
  have hled : ledgerPart u e = if u = v then delta else 0 := by
    simp only [mem_cons, not_or] at htype
    simp only [ledgerPart, hcust, hamt, mem_cons, htype, or_self, not_false_iff, and_true, eq_comm]
  have hfee : feePart u e = 0 := by
    simp only [mem_cons, not_or] at htype
    simp only [feePart, htype, false_and, and_false, if_false]
  rw [hled, hfee] at hmoves
  simpa only [Movement.add, zero_add, add_zero] using hmoves

theorem resolveScheduleStatus_ne_deleted (now : ℤ) (startAt endAt : Option ℤ) :
    resolveScheduleStatus now startAt endAt ≠ .deleted := by
  unfold resolveScheduleStatus
  split
  · decide
  · split <;> decide

/-- A reservation moves the budget from the balance into the campaign; its ledger row has the
sign of a credit. -/
theorem createCampaign_moves {spec : CampaignCreateSpec} (h : createCampaign spec pg = some pg') :
    pg' = pg ∨ (pg.ledgerByHash spec.idempotencyKey = none ∧
      Moves u ⟨if u = spec.customerID then -spec.budgetLimitMicro else 0,
        if u = spec.customerID then spec.budgetLimitMicro else 0,
        if u = spec.customerID then max 0 spec.budgetLimitMicro else 0, 0⟩ pg pg') := by
  unfold createCampaign at h
  split at h
  · cases h
  split at h
  · split at h
    · exact .inl (Option.some.inj h).symm
    · cases h
  rename_i hfresh
  split at h
  · cases h
  split at h
  · cases h
  split at h
  · cases h
  obtain ⟨reserved, hres, hrest⟩ := Option.bind_eq_some_iff.mp h
  obtain ⟨created, hnew, hentry⟩ := Option.bind_eq_some_iff.mp hrest
  have hmoves := ((updateCustomerBalanceManagement_moves (u := u) hres).trans
    (insertCampaign_moves hnew)).trans (createLedgerEntry_moves hentry)
  have hled : ledgerPart u (ledgerEntry spec.customerID (some spec.campaignID)
      spec.budgetLimitMicro .freeze (some spec.idempotencyKey)) =
      if u = spec.customerID then spec.budgetLimitMicro else 0 := by
    simp [ledgerPart, ledgerEntry, eq_comm]
  have hheld : held u spec.row = if u = spec.customerID then max 0 spec.budgetLimitMicro else 0 := by
    simp [held, CampaignCreateSpec.row, resolveScheduleStatus_ne_deleted, @eq_comm _ u]
  have hfee : feePart u (ledgerEntry spec.customerID (some spec.campaignID)
      spec.budgetLimitMicro .freeze (some spec.idempotencyKey)) = 0 := by
    simp [feePart, ledgerEntry]
  rw [hled, hheld, hfee] at hmoves
  simp only [Movement.add, zero_add, add_zero] at hmoves
  exact .inr ⟨hfresh, hmoves⟩

theorem cancelCampaign_moves (h : cancelCampaign id pg = some pg') : Moves u .zero pg pg' := by
  unfold cancelCampaign at h
  split at h
  · cases h
  rename_i row hrow
  split at h
  · cases h
    exact .of_same rfl rfl rfl
  · rename_i hstat
    cases h
    exact updateCampaignStatus_moves hrow (fun hdel => hstat (.inl hdel)) (by decide)

theorem remainingBudget_eq (row : CampaignRow) :
    remainingBudget row = max 0 (row.budgetLimit - row.currentSpend) := by
  unfold remainingBudget
  split <;> omega

/-- The refund of a finalisation. -/
theorem releaseRefund_moves {refund : ℤ} (h : releaseRefund id row refund pg = some pg') :
    Moves u ⟨if u = row.customerID then max 0 refund else 0,
      if u = row.customerID then max 0 refund else 0, 0, 0⟩ pg pg' := by
  unfold releaseRefund at h
  split at h
  · rename_i hpos
    rw [max_eq_right hpos.le]
    exact credit_moves h rfl rfl (by simp [ledgerEntry])
  · rename_i hpos
    cases h
    rw [max_eq_left (not_lt.mp hpos), ite_self]
    exact .of_same rfl rfl rfl

/-- The fee of a finalisation is a ledger row without movement of the balance. -/
theorem recordFee_moves {fee : ℤ} (h : recordFee id row fee pg = some pg') :
    Moves u ⟨0, if u = row.customerID then max 0 fee else 0, 0,
      if u = row.customerID then max 0 fee else 0⟩ pg pg' := by
  unfold recordFee at h
  split at h
  · rename_i hpos
    have hmoves := createLedgerEntry_moves (u := u) h
    have hled : ledgerPart u (ledgerEntry row.customerID (some id) fee .fee none) =
        if u = row.customerID then fee else 0 := by
      simp [ledgerPart, ledgerEntry, eq_comm]
    have hfees : feePart u (ledgerEntry row.customerID (some id) fee .fee none) =
        if u = row.customerID then fee else 0 := by
      simp [feePart, ledgerEntry, hpos, eq_comm]
    rw [hled, hfees] at hmoves
    rw [max_eq_right hpos.le]
    exact hmoves
  · rename_i hpos
    cases h
    rw [max_eq_left (not_lt.mp hpos), ite_self]
    exact .of_same rfl rfl rfl

theorem releaseRefund_campaigns {refund : ℤ} (h : releaseRefund id row refund pg = some pg') :
    pg'.campaigns = pg.campaigns := by
  unfold releaseRefund at h
  split at h
  · have hbook : Booked (ledgerEntry row.customerID (some id) refund .release none) pg pg' := booked_iff.mp h
    rw [hbook.eq]
  · cases h
    rfl

theorem recordFee_campaigns {fee : ℤ} (h : recordFee id row fee pg = some pg') :
    pg'.campaigns = pg.campaigns := by
  unfold recordFee at h
  split at h
  · rw [Pg.createLedgerEntry_eq_some h]
  · cases h
    rfl

/-- What a finalisation gives back and keeps as a fee, the campaign held as reserved. -/
theorem finalizeCancelledCampaign_moves {feeHundredths : ℤ}
    (h : finalizeCancelledCampaign feeHundredths id pg = some pg') :
    ∃ row, pg.campaigns.get? id = some row ∧ (row.status ≠ .draining ∧ pg' = pg ∨ row.status = .draining ∧
      let fee := max 0 (cancellationFee feeHundredths row)
      let refund := max 0 ((remainingBudget row - cancellationFee feeHundredths row).bmod (2 ^ 64))
      Moves u ⟨if u = row.customerID then refund else 0,
        (if u = row.customerID then refund else 0) + (if u = row.customerID then fee else 0),
        if u = row.customerID then -remainingBudget row else 0,
        if u = row.customerID then fee else 0⟩ pg pg') := by
  unfold finalizeCancelledCampaign at h
  split at h
  · cases h
  rename_i row hrow
  refine ⟨row, hrow, ?_⟩
  split at h
  · rename_i hdrain
    exact .inl ⟨hdrain, (Option.some.inj h).symm⟩
  rename_i hdrain
  rw [not_not] at hdrain
  obtain ⟨refunded, href, hrest⟩ := Option.bind_eq_some_iff.mp h
  obtain ⟨charged, hchg, hdel⟩ := Option.bind_eq_some_iff.mp hrest
  have hkept : charged.campaigns.get? id = some row := by
    rw [recordFee_campaigns hchg, releaseRefund_campaigns href, hrow]
  have hmoves := ((releaseRefund_moves (u := u) href).trans (recordFee_moves hchg)).trans
    (modifyCampaign_moves (fun row => { row with status := .deleted }) hkept)
  have hheld : held u { row with status := .deleted } - held u row =
      if u = row.customerID then -remainingBudget row else 0 := by
    by_cases hu : row.customerID = u
    · simp [held, hu, hdrain, remainingBudget_eq]
    · simp [held, hu, Ne.symm hu]
  rw [hheld] at hmoves
  cases hdel
  simp only [Movement.add, zero_add, add_zero] at hmoves
  exact .inr ⟨hdrain, hmoves⟩

/-- The row of a campaign after a settlement. -/
def spentRow (amount : ℤ) (row : CampaignRow) : CampaignRow :=
  { row with
    currentSpend := row.currentSpend + amount
    status := if row.budgetLimit ≤ row.currentSpend + amount then .exhausted else row.status }

/-- Margin legs count neither for the ledger sum nor for the fees. -/
theorem marginLegs_parts {customerID camp : UUID} {legs : List LedgerEntry}
    (h : ∀ e ∈ legs, IsMarginLeg customerID camp e) :
    (legs.map (ledgerPart u)).sum = 0 ∧ (legs.map (feePart u)).sum = 0 := by
  constructor
  · apply sum_eq_zero
    intro x hx
    obtain ⟨e, he, rfl⟩ := mem_map.mp hx
    obtain ⟨-, -, htype, -⟩ := h e he
    apply if_neg
    rintro ⟨-, hcount⟩
    apply hcount
    simp only [mem_cons, not_mem_nil, or_false] at htype ⊢
    tauto
  · apply sum_eq_zero
    intro x hx
    obtain ⟨e, he, rfl⟩ := mem_map.mp hx
    obtain ⟨-, -, htype, -⟩ := h e he
    apply if_neg
    rintro ⟨-, hfee, -⟩
    rw [hfee] at htype
    simp at htype

/-- A settlement of a campaign. -/
theorem settleCampaign_moves {item : SpendFlushItem} (hfresh : item.txID ∉ pg.syncIdempotency)
    (h : settleCampaign item pg = some pg') :
    ∃ row, pg.campaigns.get? item.campaignID = some row ∧
      pg'.customers = pg.customers ∧ (pg.customers.get? row.customerID).isSome ∧
      pg'.syncIdempotency = insert item.txID pg.syncIdempotency ∧
      Moves u ⟨0, if u = row.customerID then -item.amountMicro else 0,
        held u (spentRow item.amountMicro row) - held u row,
        feePart u (spendFlushEntry row.customerID item)⟩ pg pg' := by
  unfold settleCampaign at h
  obtain ⟨out, hout⟩ : ∃ out, applySpendFlush false item pg = .ok out := by
    cases happly : applySpendFlush false item pg with
    | error err =>
      rw [happly] at h
      cases h
    | ok out => exact ⟨out, rfl⟩
  rw [hout] at h
  cases h
  rcases applySpendFlush_eq_ok hout with ⟨hmem, -⟩ | hflush
  · exact absurd hmem hfresh
  obtain ⟨row, customer, legs, hrow, hcust, -, hmargin, hled⟩ := hflush.covered
  obtain ⟨hledgerLegs, hfeeLegs⟩ := @marginLegs_parts u _ _ _ hmargin
  refine ⟨row, hrow, hflush.customers, by rw [hcust]; rfl, hflush.syncIdempotency, ?_, ?_, ?_, ?_, ?_⟩
  · intro hcheck
    rw [ChecksHold, hflush.customers]
    exact hcheck
  · rw [balanceOf, hflush.customers]
    exact (add_zero _).symm
  · rw [ledgerSum, hled, map_append, sum_append, hledgerLegs, map_cons, sum_cons, zero_add, add_comm]
    simp [ledgerSum, ledgerPart, spendFlushEntry, eq_comm]
  · rw [heldSum, hflush.campaigns]
    exact sum_modify pg.campaigns (spentRow item.amountMicro) (fun _ row => held u row) hrow
  · rw [feesCharged, hled, map_append, sum_append, hfeeLegs, map_cons, sum_cons, zero_add, add_comm]
    rfl

/-- A settlement of a balance. -/
theorem updateBalance_moves {amount : ℤ} {tx : String} (hfresh : tx ∉ pg.syncIdempotency)
    (hrow : (pg.customers.get? v).isSome) (h : updateBalance v amount tx pg = some pg') :
    Moves u ⟨if u = v then -amount else 0, 0, 0, 0⟩ pg pg' := by
  unfold updateBalance at h
  rw [if_neg hfresh] at h
  obtain ⟨row, hget⟩ := Option.isSome_iff_exists.mp hrow
  have hclaim : Moves u .zero pg { pg with syncIdempotency := insert tx pg.syncIdempotency } :=
    .of_same rfl rfl rfl
  have hmoves := hclaim.trans (addCustomerBalance_moves hget h)
  rw [Movement.zero_add] at hmoves
  exact hmoves

end

end Espx.ControlPlane
