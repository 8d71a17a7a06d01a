import Espx.Domain.SpendStore

/-!
# Transactions on customer money

The writers of balances and of the ledger. Each is one Postgres transaction; `none` is a transaction that
is rolled back. Audit rows, status history and outbox events are written along and never read by these
statements, and are left out.
-/

namespace Espx.ControlPlane

open Espx.Foundation Espx.Domain

section

variable (pg : Pg)

/-- `UpdateCustomerBalanceManagement`, which fails without a row. -/
def updateCustomerBalanceManagement (customerID : UUID) (delta : ℤ) : Option Pg :=
  match pg.customers.get? customerID with
  | none => none
  | some _ => pg.addCustomerBalance customerID delta

/-- `UpdateCustomerOverdraft`, under `chk_allowed_balance`. -/
def updateCustomerOverdraft (customerID : UUID) (overdraft : ℤ) : Option Pg :=
  match pg.customers.get? customerID with
  | none => none
  | some row =>
    if 0 ≤ row.balance + overdraft then
      some { pg with customers := pg.customers.modify customerID fun row =>
        { row with allowedOverdraft := overdraft } }
    else none

/-- `CreateCampaign` of the queries, which fails on a taken id. -/
def insertCampaign (id : UUID) (row : CampaignRow) : Option Pg :=
  match pg.campaigns.get? id with
  | none => some { pg with campaigns := pg.campaigns.insert id row }
  | some _ => none

/-- `UpdateCampaignBudget`. -/
def updateCampaignBudget (id : UUID) (budgetLimit : ℤ) : Pg :=
  { pg with campaigns := pg.campaigns.modify id fun row => { row with budgetLimit := budgetLimit } }

/-- `GetLedgerByPaymentIntentForUpdate`. -/
def ledgerByPaymentIntent (intent : UUID) : Option LedgerEntry :=
  pg.ledger.find? fun e => e.paymentIntentID = some intent ∧ e.type = .paymentTopup

/-- The `SumPayment…ForIntent` queries, with the quantity that they sum. -/
def sumForIntent (intent : UUID) (type : LedgerType) (quantity : ℤ → ℤ) : ℤ :=
  ((pg.ledger.filter fun e => e.paymentIntentID = some intent ∧ e.type = type).map
    fun e => quantity e.amount).sum

end

/-- A ledger row without payment intent. -/
def ledgerEntry (customerID : UUID) (campaignID : Option UUID) (amount : ℤ) (type : LedgerType)
    (hash : Option String) : LedgerEntry where
  customerID := customerID
  campaignID := campaignID
  amount := amount
  type := type
  idempotencyHash := hash
  paymentIntentID := none

/-- A ledger row of a payment. -/
def paymentEntry (customerID intent : UUID) (amount : ℤ) (type : LedgerType) (hash : String) :
    LedgerEntry where
  customerID := customerID
  campaignID := none
  amount := amount
  type := type
  idempotencyHash := some hash
  paymentIntentID := some intent

/-- What is left of a budget. -/
def remainingBudget (row : CampaignRow) : ℤ :=
  if row.budgetLimit - row.currentSpend < 0 then 0 else row.budgetLimit - row.currentSpend

/-- `PercentHundredths`, whose product wraps around. -/
def percentHundredths (amountMicro hundredths : ℤ) : ℤ :=
  if amountMicro ≤ 0 ∨ hundredths ≤ 0 then 0
  else ((amountMicro * hundredths).bmod (2 ^ 64)).tdiv 10000

/-- `TopUpBalance`. -/
def topUpBalance (customerID : UUID) (amount : ℤ) (idempotencyKey : String) (pg : Pg) : Option Pg :=
  match pg.ledgerByHash idempotencyKey with
  | some _ => some pg
  | none => do
    let credited ← updateCustomerBalanceManagement pg customerID amount
    credited.createLedgerEntry (ledgerEntry customerID none amount .topup (some idempotencyKey))

/-- `ApplyPaymentCredit`. -/
def applyPaymentCredit (customerID : UUID) (amount : ℤ) (key : String) (intent : UUID) (pg : Pg) :
    Option Pg :=
  match ledgerByPaymentIntent pg intent, pg.ledgerByHash key with
  | some _, _ => some pg
  | none, some _ => some pg
  | none, none => do
    let credited ← updateCustomerBalanceManagement pg customerID amount
    credited.createLedgerEntry (paymentEntry customerID intent amount .paymentTopup key)

/-- `ApplyPaymentRefund`. -/
def applyPaymentRefund (customerID : UUID) (amountMicro : ℤ) (key : String) (intent : UUID) (pg : Pg) :
    Option Pg :=
  if amountMicro ≤ 0 then none
  else
    match pg.ledgerByHash key, ledgerByPaymentIntent pg intent with
    | some _, _ => some pg
    | none, none => none
    | none, some topup =>
      if topup.amount < sumForIntent pg intent .paymentRefund abs + amountMicro then none
      else do
        let debited ← updateCustomerBalanceManagement pg customerID (-amountMicro)
        debited.createLedgerEntry (paymentEntry customerID intent (-amountMicro) .paymentRefund key)

/-- `applyPaymentChargebackMovement`. -/
def applyPaymentChargebackMovement (customerID : UUID) (amountMicro : ℤ) (key : String) (intent : UUID)
    (ledgerType : LedgerType) (isDebit : Bool) (pg : Pg) : Option Pg :=
  if amountMicro ≤ 0 then none
  else
    match pg.ledgerByHash key, ledgerByPaymentIntent pg intent with
    | some _, _ => some pg
    | none, none => none
    | none, some topup =>
      let refundedSoFar := sumForIntent pg intent .paymentRefund abs
      let netChargeback := sumForIntent pg intent .paymentChargeback abs -
        sumForIntent pg intent .paymentChargebackReversal id
      if isDebit ∧ topup.amount < refundedSoFar + netChargeback + amountMicro then none
      else if ¬ isDebit ∧ netChargeback < amountMicro then none
      else do
        let delta := if isDebit then -amountMicro else amountMicro
        let moved ← updateCustomerBalanceManagement pg customerID delta
        moved.createLedgerEntry (paymentEntry customerID intent delta ledgerType key)

/-- `ApplyPaymentChargeback`. -/
def applyPaymentChargeback (customerID : UUID) (amountMicro : ℤ) (key : String) (intent : UUID) :
    Pg → Option Pg :=
  applyPaymentChargebackMovement customerID amountMicro key intent .paymentChargeback true

/-- `ApplyPaymentChargebackReversal`. -/
def applyPaymentChargebackReversal (customerID : UUID) (amountMicro : ℤ) (key : String)
    (intent : UUID) : Pg → Option Pg :=
  applyPaymentChargebackMovement customerID amountMicro key intent .paymentChargebackReversal false

/-- `validateSchedule`. -/
def validateSchedule (startAt endAt : Option ℤ) : Bool :=
  match startAt, endAt with
  | some start, some finish => start < finish
  | _, _ => true

/-- `resolveScheduleStatus`. -/
def resolveScheduleStatus (now : ℤ) (startAt endAt : Option ℤ) : CampaignStatus :=
  if startAt.any (now < ·) then .paused
  else if endAt.any (· ≤ now) then .paused
  else .active

/-- The parts of `CampaignCreateSpec` that its transaction reads, with the generated id, the time, and
whether hours and brand pass their checks. -/
structure CampaignCreateSpec where
  campaignID : UUID
  customerID : UUID
  budgetLimitMicro : ℤ
  idempotencyKey : String
  startAt : Option ℤ
  endAt : Option ℤ
  now : ℤ
  daypartValid : Bool
  brandValid : Bool

/-- The row of a new campaign. -/
def CampaignCreateSpec.row (spec : CampaignCreateSpec) : CampaignRow where
  customerID := spec.customerID
  budgetLimit := spec.budgetLimitMicro
  currentSpend := 0
  status := resolveScheduleStatus spec.now spec.startAt spec.endAt

/-- `CreateCampaign`: the budget is taken from the balance. -/
def createCampaign (spec : CampaignCreateSpec) (pg : Pg) : Option Pg :=
  if ¬ (spec.daypartValid ∧ validateSchedule spec.startAt spec.endAt) then none
  else
    match pg.ledgerByHash spec.idempotencyKey with
    | some existing => if existing.campaignID.isSome then some pg else none
    | none =>
      match pg.customers.get? spec.customerID with
      | none => none
      | some cust =>
        if cust.balance + cust.allowedOverdraft < spec.budgetLimitMicro then none
        else if ¬ spec.brandValid then none
        else do
          let reserved ← updateCustomerBalanceManagement pg spec.customerID (-spec.budgetLimitMicro)
          let created ← insertCampaign reserved spec.campaignID spec.row
          created.createLedgerEntry (ledgerEntry spec.customerID (some spec.campaignID)
            spec.budgetLimitMicro .freeze (some spec.idempotencyKey))

/-- `CancelCampaign`. -/
def cancelCampaign (id : UUID) (pg : Pg) : Option Pg :=
  match pg.campaigns.get? id with
  | none => none
  | some row =>
    if row.status = .deleted ∨ row.status = .draining then some pg
    else some (pg.updateCampaignStatus id .draining)

/-- The fee that a cancellation keeps back. -/
def cancellationFee (feeHundredths : ℤ) (row : CampaignRow) : ℤ :=
  percentHundredths (remainingBudget row) feeHundredths

/-- The refund of `finalizeDrainingCampaign`. -/
def releaseRefund (id : UUID) (row : CampaignRow) (refund : ℤ) (pg : Pg) : Option Pg :=
  if 0 < refund then do
    let credited ← updateCustomerBalanceManagement pg row.customerID refund
    credited.createLedgerEntry (ledgerEntry row.customerID (some id) refund .release none)
  else some pg

/-- The fee of `finalizeDrainingCampaign`. -/
def recordFee (id : UUID) (row : CampaignRow) (fee : ℤ) (pg : Pg) : Option Pg :=
  if 0 < fee then pg.createLedgerEntry (ledgerEntry row.customerID (some id) fee .fee none)
  else some pg

/-- `FinalizeCancelledCampaign` with `finalizeDrainingCampaign`; the fee is in hundredths, as
`PercentFromFloat` rounds it. -/
def finalizeCancelledCampaign (feeHundredths : ℤ) (id : UUID) (pg : Pg) : Option Pg :=
  match pg.campaigns.get? id with
  | none => none
  | some row =>
    if row.status ≠ .draining then some pg
    else do
      let fee := cancellationFee feeHundredths row
      let refunded ← releaseRefund id row ((remainingBudget row - fee).bmod (2 ^ 64)) pg
      let charged ← recordFee id row fee refunded
      some (charged.updateCampaignStatus id .deleted)

/-- The loop of `UpdateOverdraft`: active campaigns are paused and their remaining budget is
given back until the limit is met. -/
def suspendCampaigns (customerID : UUID) : List UUID → ℤ → Pg → Option Pg
  | [], _, pg => some pg
  | id :: rest, availableLimit, pg =>
    if 0 ≤ availableLimit then some pg
    else
      match pg.campaigns.get? id with
      | none => none
      | some locked =>
        if locked.status ≠ .active then suspendCampaigns customerID rest availableLimit pg
        else
          let paused := pg.updateCampaignStatus id .paused
          if 0 < remainingBudget locked then do
            let credited ← updateCustomerBalanceManagement paused customerID (remainingBudget locked)
            let released ← credited.createLedgerEntry
              (ledgerEntry customerID (some id) (remainingBudget locked) .release none)
            suspendCampaigns customerID rest (availableLimit + remainingBudget locked) released
          else suspendCampaigns customerID rest availableLimit paused

/-- `ListCampaigns` for the active campaigns of a customer, newest first. -/
def listActiveCampaigns (customerID : UUID) (pg : Pg) : List (UUID × CampaignRow) :=
  (pg.campaigns.rows.filter fun e => e.2.customerID = customerID ∧ e.2.status = .active).take 10000

/-- `UpdateOverdraft`. -/
def updateOverdraft (customerID : UUID) (newOverdraft : ℤ) (pg : Pg) : Option Pg :=
  match pg.customers.get? customerID with
  | none => none
  | some cust =>
    if newOverdraft = cust.allowedOverdraft then some pg
    else do
      let suspended ←
        if newOverdraft < cust.allowedOverdraft ∧ cust.balance + newOverdraft < 0 then
          suspendCampaigns customerID ((listActiveCampaigns customerID pg).map Prod.fst)
            (cust.balance + newOverdraft) pg
        else some pg
      updateCustomerOverdraft suspended customerID newOverdraft

/-- The transfer of `autoscaleBudgetsTx` between the two campaigns that it has picked. -/
def autoscaleTransfer (customerID worst best : UUID) (shiftAmount : ℤ) (transferKey : String) (pg : Pg) :
    Option Pg :=
  if worst = best then some pg
  else
    match pg.ledgerByHash transferKey with
    | some _ => some pg
    | none =>
      match pg.campaigns.get? worst, pg.campaigns.get? best with
      | some worstLocked, some bestLocked =>
        if worstLocked.status ≠ .active ∨ bestLocked.status ≠ .active then some pg
        else if worstLocked.budgetLimit - shiftAmount < worstLocked.currentSpend then some pg
        else if worstLocked.budgetLimit - shiftAmount ≤ 0 then some pg
        else do
          let credited ← updateCustomerBalanceManagement pg customerID shiftAmount
          let released ← credited.createLedgerEntry
            (ledgerEntry customerID (some worst) shiftAmount .release (some (transferKey ++ ":release")))
          let debited ← updateCustomerBalanceManagement released customerID (-shiftAmount)
          let frozen ← debited.createLedgerEntry
            (ledgerEntry customerID (some best) shiftAmount .freeze (some transferKey))
          some (updateCampaignBudget
            (updateCampaignBudget frozen worst (worstLocked.budgetLimit - shiftAmount)) best
            (bestLocked.budgetLimit + shiftAmount))
      | _, _ => none

/-- The Postgres side of `ApplyReconciliationAdjust`. -/
def applyReconciliationAdjust (campaignID customerID : UUID) (ledgerAmt : ℤ) (pg : Pg) : Option Pg := do
  let recorded ← pg.createLedgerEntry
    (ledgerEntry customerID (some campaignID) ledgerAmt .reconciliationAdjust none)
  if -ledgerAmt ≠ 0 then some (recorded.updateCampaignSpend campaignID (-ledgerAmt))
  else some recorded

/-- `applySpendFlush` of a batch of one item, as a transaction. -/
def settleCampaign (item : SpendFlushItem) (pg : Pg) : Option Pg :=
  (applySpendFlush false item pg).toOption

/-- The same debits on both counters: the campaign's transaction, then `UpdateBalance` for its customer
under an id of its own. -/
def settleDebits (item : SpendFlushItem) (customerTx : String) (pg : Pg) : Option Pg :=
  match pg.campaigns.get? item.campaignID with
  | none => none
  | some row => do
    let spent ← settleCampaign item pg
    updateBalance row.customerID item.amountMicro customerTx spent

/-- The customer of the sample runs. -/
def sampleCustomer : UUID := Vector.replicate 16 1

/-- The campaign of the sample runs. -/
def sampleCampaign : UUID := Vector.replicate 16 2

/-- A customer without campaigns. -/
def sampleAccount (balance allowedOverdraft : ℤ) : Pg where
  campaigns := Table.empty
  customers := Table.empty.insert sampleCustomer
    { balance := balance, allowedOverdraft := allowedOverdraft }
  ledger := []
  syncIdempotency := ∅
  campaignQuotas := Table.empty

/-- A campaign with a budget of 100 that runs at once. -/
def sampleSpec : CampaignCreateSpec where
  campaignID := sampleCampaign
  customerID := sampleCustomer
  budgetLimitMicro := 100
  idempotencyKey := "create-1"
  startAt := none
  endAt := none
  now := 0
  daypartValid := true
  brandValid := true

/-- Debits of the sample campaign. -/
def sampleDebits (amount : ℤ) : SpendFlushItem where
  campaignID := sampleCampaign
  amountMicro := amount
  txID := "campaign-1"
  strictFlush := false
  rtbCostMicro := 0

end Espx.ControlPlane
