import Espx.Domain.Sharding
import Espx.Foundation.Table

/-!
# The Postgres side of settlement

The tables that settlement and billing share, and the methods of `store_campaign.go`. A statement that
violates a constraint aborts its transaction; the savepoint of a batch item makes its refusals leave
nothing behind. Audit rows are never read here and are left out.
-/

namespace Espx.Domain

open Espx.Foundation List

/-- `ledger_type`. -/
inductive LedgerType
  | topup
  | freeze
  | release
  | fee
  | refund
  | reconciliationAdjust
  | paymentTopup
  | paymentRefund
  | paymentChargeback
  | paymentChargebackReversal
  | ctvGtax
  | publisherPayout
  | operatorMargin
  | rtbCost
  deriving DecidableEq, Repr

/-- A row of `campaigns`, as far as money and status go. -/
structure CampaignRow where
  customerID : UUID
  budgetLimit : ℤ
  currentSpend : ℤ
  status : CampaignStatus

/-- A row of `customers`, as far as money goes. -/
structure CustomerRow where
  balance : ℤ
  allowedOverdraft : ℤ

/-- A row of `balance_ledger`. -/
structure LedgerEntry where
  customerID : UUID
  campaignID : Option UUID
  amount : ℤ
  type : LedgerType
  idempotencyHash : Option String
  paymentIntentID : Option UUID

/-- The database. Tables list their newest rows first. -/
structure Pg where
  campaigns : Table UUID CampaignRow
  customers : Table UUID CustomerRow
  ledger : List LedgerEntry
  syncIdempotency : Finset String
  campaignQuotas : Table (ℕ × UUID) ℤ

namespace Pg

variable (pg : Pg)

/-- The ledger row with a given idempotency hash. -/
def ledgerByHash (hash : String) : Option LedgerEntry :=
  pg.ledger.find? fun e => e.idempotencyHash = some hash

/-- A new row breaks no unique index: hashes are unique, and so are the payment intents of
payment top-ups. -/
def ledgerUnique (e : LedgerEntry) : Bool :=
  pg.ledger.all fun old =>
    (e.idempotencyHash = none ∨ old.idempotencyHash ≠ e.idempotencyHash) ∧
      (e.type ≠ .paymentTopup ∨ old.type ≠ .paymentTopup ∨ e.paymentIntentID = none ∨
        old.paymentIntentID ≠ e.paymentIntentID)

/-- `CreateLedgerEntry`. -/
def createLedgerEntry (e : LedgerEntry) : Option Pg :=
  if pg.ledgerUnique e then some { pg with ledger := e :: pg.ledger } else none

/-- `UpdateCampaignSpend`: a campaign that reaches its limit is exhausted. -/
def updateCampaignSpend (id : UUID) (amount : ℤ) : Pg :=
  { pg with campaigns := pg.campaigns.modify id fun row =>
      { row with
        currentSpend := row.currentSpend + amount
        status := if row.budgetLimit ≤ row.currentSpend + amount then .exhausted else row.status } }

/-- `UpdateCampaignStatus`. -/
def updateCampaignStatus (id : UUID) (status : CampaignStatus) : Pg :=
  { pg with campaigns := pg.campaigns.modify id fun row => { row with status := status } }

/-- `UPDATE customers SET balance = balance + delta`, under `chk_allowed_balance`. -/
def addCustomerBalance (id : UUID) (delta : ℤ) : Option Pg :=
  match pg.customers.get? id with
  | none => some pg
  | some row =>
    if 0 ≤ row.balance + delta + row.allowedOverdraft then
      some { pg with customers := pg.customers.modify id fun row =>
        { row with balance := row.balance + delta } }
    else none

/-- `DecreaseCampaignQuotaReserved`. -/
def decreaseCampaignQuotaReserved (shardID : ℕ) (campaignID : UUID) (amount : ℤ) : Pg :=
  { pg with
    campaignQuotas := pg.campaignQuotas.modify (shardID, campaignID) fun r => max 0 (r - amount) }

end Pg

/-- `SpendFlushItem`. -/
structure SpendFlushItem where
  campaignID : UUID
  amountMicro : ℤ
  txID : String
  strictFlush : Bool
  rtbCostMicro : ℤ

/-- The errors of a flush: two that refuse one item, and everything else. -/
inductive SpendFlushError
  | insufficientCustomerBalance
  | campaignSpendSkipped
  | aborted
  deriving DecidableEq, Repr

/-- `ledgerBatchHash`. -/
def ledgerBatchHash (txID : String) : String := "spend_batch:" ++ txID

/-- `marginEconomicsLegs` of `ComputeMarginEconomicsSplit`. -/
def marginEconomicsLegs (revenueMicro rtbCostMicro : ℤ) : List (ℤ × LedgerType × String) :=
  let cost := if revenueMicro < rtbCostMicro then revenueMicro else rtbCostMicro
  [(cost, .rtbCost, "margin:rtb"), (cost, .publisherPayout, "margin:pub"),
    (revenueMicro - cost, .operatorMargin, "margin:op")]

/-- The ledger row of one leg. -/
def marginLegEntry (customerID campaignID : UUID) (txID : String)
    (leg : ℤ × LedgerType × String) : LedgerEntry where
  customerID := customerID
  campaignID := some campaignID
  amount := leg.1
  type := leg.2.1
  idempotencyHash := some (leg.2.2 ++ ":" ++ txID)
  paymentIntentID := none

/-- `WriteMarginEconomicsLegs` for a positive cost. -/
def writeMarginEconomicsLegs (customerID campaignID : UUID) (txID : String)
    (revenueMicro rtbCostMicro : ℤ) (pg : Pg) : Option Pg :=
  if revenueMicro ≤ 0 then none
  else ((marginEconomicsLegs revenueMicro rtbCostMicro).filter fun leg => 0 < leg.1).foldlM
    (fun pg leg => pg.createLedgerEntry (marginLegEntry customerID campaignID txID leg)) pg

/-- `lockCampaignBudgetForFlush`: the campaign with its customer. A locked or missing row is skipped
unless the flush is strict, which waits for a lock and fails without a row. -/
def lockCampaignBudgetForFlush (rowLocked : Bool) (item : SpendFlushItem) (pg : Pg) :
    Except SpendFlushError (CampaignRow × CustomerRow) :=
  if rowLocked ∧ ¬ item.strictFlush then .error .campaignSpendSkipped
  else
    match pg.campaigns.get? item.campaignID with
    | none => .error (if item.strictFlush then .aborted else .campaignSpendSkipped)
    | some row =>
      match pg.customers.get? row.customerID with
      | none => .error (if item.strictFlush then .aborted else .campaignSpendSkipped)
      | some customer => .ok (row, customer)

/-- The ledger row of a settled amount. -/
def spendFlushEntry (customerID : UUID) (item : SpendFlushItem) : LedgerEntry where
  customerID := customerID
  campaignID := some item.campaignID
  amount := -item.amountMicro
  type := .fee
  idempotencyHash := some (ledgerBatchHash item.txID)
  paymentIntentID := none

/-- `applySpendFlush`: a transaction id that is already there makes the item a success without
effect. -/
def applySpendFlush (rowLocked : Bool) (item : SpendFlushItem) (pg : Pg) :
    Except SpendFlushError Pg :=
  if item.txID ∈ pg.syncIdempotency then .ok pg
  else
    let claimed := { pg with syncIdempotency := insert item.txID pg.syncIdempotency }
    match lockCampaignBudgetForFlush rowLocked item claimed with
    | .error err => .error err
    | .ok (row, customer) =>
      if customer.balance < item.amountMicro then .error .insufficientCustomerBalance
      else
        match claimed.createLedgerEntry (spendFlushEntry row.customerID item) with
        | none => .error .aborted
        | some charged =>
          let spent := charged.updateCampaignSpend item.campaignID item.amountMicro
          let legs := if 0 < item.rtbCostMicro then
              writeMarginEconomicsLegs row.customerID item.campaignID item.txID item.amountMicro
                item.rtbCostMicro spent
            else some spent
          match legs with
          | none => .error .aborted
          | some settled =>
            .ok (settled.decreaseCampaignQuotaReserved
              (getShard (buildSlotTable expectedRedisShardCount) item.campaignID) item.campaignID
              item.amountMicro)

/-- `UpdateSpendBatch`: the outcome of each item, or nothing when the transaction is aborted.
Refused items leave nothing behind. -/
def updateSpendBatch (rowLocked : UUID → Bool) :
    List SpendFlushItem → Pg → Option (List (Option SpendFlushError) × Pg)
  | [], pg => some ([], pg)
  | item :: rest, pg =>
    match applySpendFlush (rowLocked item.campaignID) item pg with
    | .ok applied => (updateSpendBatch rowLocked rest applied).map fun out =>
        (none :: out.1, out.2)
    | .error .aborted => none
    | .error err => (updateSpendBatch rowLocked rest pg).map fun out => (some err :: out.1, out.2)

/-- `CustomerRepo.UpdateBalance`, or nothing when the transaction is aborted. -/
def updateBalance (id : UUID) (amount : ℤ) (txID : String) (pg : Pg) : Option Pg :=
  if txID ∈ pg.syncIdempotency then some pg
  else { pg with syncIdempotency := insert txID pg.syncIdempotency }.addCustomerBalance id (-amount)

section

/-- Everything but the ledger is as before. -/
structure Pg.SameButLedger (pg pg' : Pg) : Prop where
  campaigns : pg'.campaigns = pg.campaigns
  customers : pg'.customers = pg.customers
  syncIdempotency : pg'.syncIdempotency = pg.syncIdempotency
  campaignQuotas : pg'.campaignQuotas = pg.campaignQuotas

variable {pg pg' : Pg}

theorem Pg.createLedgerEntry_eq_some {e : LedgerEntry}
    (h : pg.createLedgerEntry e = some pg') : pg' = { pg with ledger := e :: pg.ledger } := by
  unfold Pg.createLedgerEntry at h
  split at h
  · exact (Option.some.inj h).symm
  · cases h

/-- Entries created in turn are the newest rows, and nothing else changes. -/
theorem createLedgerEntries_eq_some {A : Type*} {entry : A → LedgerEntry} {legs : List A}
    (h : legs.foldlM (fun pg leg => pg.createLedgerEntry (entry leg)) pg = some pg') :
    pg.SameButLedger pg' ∧ pg'.ledger = (legs.map entry).reverse ++ pg.ledger := by
  induction legs generalizing pg with
  | nil =>
    cases h
    exact ⟨⟨rfl, rfl, rfl, rfl⟩, rfl⟩
  | cons leg rest ih =>
    obtain ⟨mid, hmid, hrest⟩ := Option.bind_eq_some_iff.mp h
    obtain ⟨hsame, hled⟩ := ih hrest
    have heq := Pg.createLedgerEntry_eq_some hmid
    subst heq
    refine ⟨⟨hsame.campaigns, hsame.customers, hsame.syncIdempotency, hsame.campaignQuotas⟩, ?_⟩
    rw [hled, map_cons, reverse_cons, append_assoc]
    rfl

/-- The rows that the margin legs of a settlement may add. -/
def IsMarginLeg (customerID campaignID : UUID) (e : LedgerEntry) : Prop :=
  e.customerID = customerID ∧ e.campaignID = some campaignID ∧
    e.type ∈ [LedgerType.rtbCost, .publisherPayout, .operatorMargin] ∧
    ∃ rest, e.idempotencyHash = some ("margin:" ++ rest)

variable {txID : String} {rowLocked : Bool} {item : SpendFlushItem}

/-- The margin legs are rows of their own types, and nothing else changes. -/
theorem writeMarginEconomicsLegs_eq_some {customerID camp : UUID} {revenue cost : ℤ}
    (h : writeMarginEconomicsLegs customerID camp txID revenue cost pg = some pg') :
    pg.SameButLedger pg' ∧ ∃ legs, (∀ e ∈ legs, IsMarginLeg customerID camp e) ∧
      pg'.ledger = legs ++ pg.ledger := by
  unfold writeMarginEconomicsLegs at h
  split at h
  · cases h
  obtain ⟨hsame, hled⟩ := createLedgerEntries_eq_some h
  refine ⟨hsame, _, ?_, hled⟩
  intro e he
  rw [mem_reverse, mem_map] at he
  obtain ⟨leg, hleg, rfl⟩ := he
  have hmem := mem_of_mem_filter hleg
  simp only [marginEconomicsLegs, mem_cons, not_mem_nil, or_false] at hmem
  refine ⟨rfl, rfl, ?_, ?_⟩
  · rcases hmem with rfl | rfl | rfl <;> simp [marginLegEntry]
  · rcases hmem with rfl | rfl | rfl
    · exact ⟨"rtb:" ++ txID, by simp only [marginLegEntry]; rfl⟩
    · exact ⟨"pub:" ++ txID, by simp only [marginLegEntry]; rfl⟩
    · exact ⟨"op:" ++ txID, by simp only [marginLegEntry]; rfl⟩

/-- The locked rows are those of the tables. -/
theorem lockCampaignBudgetForFlush_eq_ok {pg : Pg} {row : CampaignRow} {customer : CustomerRow}
    (h : lockCampaignBudgetForFlush rowLocked item pg = .ok (row, customer)) :
    pg.campaigns.get? item.campaignID = some row ∧ pg.customers.get? row.customerID = some customer := by
  unfold lockCampaignBudgetForFlush at h
  split at h
  · cases h
  split at h
  · cases h
  rename_i row' hrow
  split at h
  · cases h
  · rename_i customer' hcust
    cases h
    exact ⟨hrow, hcust⟩

/-- The shard under which the quota of a campaign is kept. -/
def quotaShard (id : UUID) : ℕ := getShard (buildSlotTable expectedRedisShardCount) id

/-- What a settlement that takes effect has done. -/
structure Flushed (item : SpendFlushItem) (pg pg' : Pg) : Prop where
  fresh : item.txID ∉ pg.syncIdempotency
  syncIdempotency : pg'.syncIdempotency = insert item.txID pg.syncIdempotency
  customers : pg'.customers = pg.customers
  campaigns : pg'.campaigns = (pg.updateCampaignSpend item.campaignID item.amountMicro).campaigns
  campaignQuotas : pg'.campaignQuotas = (pg.decreaseCampaignQuotaReserved (quotaShard item.campaignID)
    item.campaignID item.amountMicro).campaignQuotas
  covered : ∃ row customer legs, pg.campaigns.get? item.campaignID = some row ∧
    pg.customers.get? row.customerID = some customer ∧ item.amountMicro ≤ customer.balance ∧
    (∀ e ∈ legs, IsMarginLeg row.customerID item.campaignID e) ∧
    pg'.ledger = legs ++ spendFlushEntry row.customerID item :: pg.ledger

/-- A successful flush is a repetition without effect or a settlement. -/
theorem applySpendFlush_eq_ok (h : applySpendFlush rowLocked item pg = .ok pg') :
    (item.txID ∈ pg.syncIdempotency ∧ pg' = pg) ∨ Flushed item pg pg' := by
  unfold applySpendFlush at h
  split at h
  · rename_i hmem
    cases h
    exact .inl ⟨hmem, rfl⟩
  rename_i hmem
  dsimp only at h
  split at h
  · cases h
  rename_i row customer hlock
  obtain ⟨hrow, hcust⟩ := lockCampaignBudgetForFlush_eq_ok hlock
  split at h
  · cases h
  rename_i hbal
  split at h
  · cases h
  rename_i charged hchg
  have hentry := Pg.createLedgerEntry_eq_some hchg
  subst hentry
  split at h
  · cases h
  rename_i settled hlegs
  cases h
  refine .inr ?_
  by_cases hcost : 0 < item.rtbCostMicro
  · rw [if_pos hcost] at hlegs
    obtain ⟨hsame, legs, hmargin, hled⟩ := writeMarginEconomicsLegs_eq_some hlegs
    have hquotas := congrArg (fun quotas : Table (ℕ × UUID) ℤ =>
      quotas.modify (quotaShard item.campaignID, item.campaignID)
        fun r => max 0 (r - item.amountMicro)) hsame.campaignQuotas
    exact ⟨hmem, hsame.syncIdempotency, hsame.customers, hsame.campaigns, hquotas,
      row, customer, legs, hrow, hcust, not_lt.mp hbal, hmargin, hled⟩
  · rw [if_neg hcost] at hlegs
    cases hlegs
    exact ⟨hmem, rfl, rfl, rfl, rfl, row, customer, [], hrow, hcust, not_lt.mp hbal,
      by simp, rfl⟩

/-- A batch of one item: what its answer says about the item and what it leaves. -/
theorem updateSpendBatch_single {rowLocked : UUID → Bool} {outcomes : List (Option SpendFlushError)}
    (h : updateSpendBatch rowLocked [item] pg = some (outcomes, pg')) :
    (outcomes = [none] ∧ applySpendFlush (rowLocked item.campaignID) item pg = .ok pg') ∨
      (pg' = pg ∧ ∃ err, outcomes = [some err]) := by
  unfold updateSpendBatch at h
  split at h
  · rename_i applied happly
    cases h
    exact .inl ⟨rfl, happly⟩
  · cases h
  · cases h
    exact .inr ⟨rfl, _, rfl⟩

/-- The amount that Postgres recorded under a transaction id. -/
def Pg.settledAmount (pg : Pg) (txID : String) : ℤ :=
  ((pg.ledgerByHash (ledgerBatchHash txID)).map fun e => -e.amount).getD 0

/-- No margin leg is the record of a settled amount. -/
theorem find?_marginLegs {customerID camp : UUID} {legs : List LedgerEntry}
    (h : ∀ e ∈ legs, IsMarginLeg customerID camp e) :
    legs.find? (fun e => decide (e.idempotencyHash = some (ledgerBatchHash txID))) = none := by
  rw [find?_eq_none]
  intro e he heq
  obtain ⟨-, -, -, rest, hhash⟩ := h e he
  rw [hhash, decide_eq_true_eq, Option.some.injEq] at heq
  exact append_ne_of_clash (by decide) heq

section

variable {pg pg' : Pg} (h : Flushed item pg pg')
include h

theorem Flushed.settledAmount : pg'.settledAmount item.txID = item.amountMicro := by
  obtain ⟨row, customer, legs, -, -, -, hmargin, hled⟩ := h.covered
  unfold Pg.settledAmount Pg.ledgerByHash
  rw [hled, find?_append, find?_marginLegs hmargin, Option.none_or,
    find?_cons_of_pos (by simp [spendFlushEntry])]
  simp [spendFlushEntry]

/-- A settlement leaves the amounts recorded under other ids as they are. -/
theorem Flushed.settledAmount_of_ne (hne : txID ≠ item.txID) :
    pg'.settledAmount txID = pg.settledAmount txID := by
  obtain ⟨row, customer, legs, -, -, -, hmargin, hled⟩ := h.covered
  unfold Pg.settledAmount Pg.ledgerByHash
  rw [hled, find?_append, find?_marginLegs hmargin, Option.none_or,
    find?_cons_of_neg (by simpa [spendFlushEntry, ledgerBatchHash] using hne.symm)]

/-- The spend of the settled campaign grows by the amount. -/
theorem Flushed.campaign {row : CampaignRow} (hrow : pg.campaigns.get? item.campaignID = some row) :
    ∃ row', pg'.campaigns.get? item.campaignID = some row' ∧
      row'.currentSpend = row.currentSpend + item.amountMicro := by
  rw [h.campaigns, Pg.updateCampaignSpend, Table.get?_modify_self, hrow]
  exact ⟨_, rfl, rfl⟩

theorem Flushed.budgetLimit (id : UUID) :
    (pg'.campaigns.get? id).map CampaignRow.budgetLimit =
      (pg.campaigns.get? id).map CampaignRow.budgetLimit := by
  rw [h.campaigns, Pg.updateCampaignSpend]
  by_cases hid : id = item.campaignID
  · rw [hid, Table.get?_modify_self, Option.map_map]
    rfl
  · rw [Table.get?_modify_of_ne _ _ hid]

end

end

end Espx.Domain
