import Espx.Ingestion.ClickIdempotency
import Espx.Settlement.ExactlyOnce
import Espx.Settlement.WorkerFrame

/-!
# The hot path and the worker count in different keys

Both debit scripts add to counters under the campaign's hash tag; `prepareBudgetEntity` reads counters
without a tag. So what the scripts count never reaches Postgres: a round of the worker leaves the scripts'
counters as they are, and does not settle a campaign that has nothing in the worker's own counters.
-/

namespace Espx.Ingestion

open Espx.Foundation Espx.Domain

namespace FilterExecution

variable (x : FilterExecution)

/-- What an execution takes from the spend key, on either path. -/
def debited (r : Redis) : ℤ :=
  match x.path with
  | .fast => x.fastCall.charged r
  | .full => x.call.charged r

theorem money_ne_fast {key : String} (hkey : MoneyKey key) :
    key ≠ x.fastCall.precheck.ingressKey ∧ key ≠ x.fastCall.idempotencyKey := by
  constructor
  · rintro rfl
    exact x.ingressKey_not_money hkey
  · rintro rfl
    exact not_moneyKey_plain (by decide) hkey

/-- The fast script books what it charges. -/
theorem fast_books (r : Redis) : x.Books r (x.fastCall.run r).2 (x.fastCall.charged r) := by
  intro key hkey
  obtain ⟨hin, hidem⟩ := x.money_ne_fast hkey
  exact x.fastCall.run_count r hin hidem

/-- Either script books what it charges. -/
theorem execute_books (r : Redis) : x.Books r (x.execute r).2 (x.debited r) := by
  unfold execute debited
  cases x.path with
  | fast => exact x.fast_books r
  | full => exact x.step_books r

/-- The debits of a run that belong to one campaign. -/
def debitedFor (id : UUID) (r : Redis) (x : FilterExecution) : ℤ :=
  if x.event.campaignID = id then x.debited r else 0

/-- The debits of a run that belong to one campaign and customer. -/
def debitedForCustomer (id customerID : UUID) (r : Redis) (x : FilterExecution) : ℤ :=
  if x.event.campaignID = id ∧ x.row.customerID = customerID then x.debited r else 0

/-- The Redis server after an execution. -/
def serve (r : Redis) (x : FilterExecution) : Redis := (x.execute r).2

end FilterExecution

end Espx.Ingestion

namespace Espx.Settlement

open Espx.Foundation Espx.Domain Espx.Ingestion

/-- Hot path and settlement agree: the counters have the same names, the campaign's spend has
grown by the debited amount, and the scripts' counter is empty. -/
structure CountersAgree (camp : Campaign) (debited : ℤ) (before after : SyncState) : Prop where
  campaignKey : camp.campaignSyncKey = (budgetEntityKeys "campaign" camp.idStr).syncKey
  customerKey : camp.customerSyncKey = (budgetEntityKeys "customer" camp.customerIDStr).syncKey
  spend : (after.pg.campaigns.get? camp.id).map CampaignRow.currentSpend =
    (before.pg.campaigns.get? camp.id).map fun row => row.currentSpend + debited
  empty : after.redis.count camp.campaignSyncKey = 0

theorem campaignSyncKey_ne_worker (id : UUID) (idStr : String) :
    campaignSyncKey id ≠ (budgetEntityKeys "campaign" idStr).syncKey := by
  rw [campaignSyncKey, budgetEntityKeys, String.append_assoc]
  exact tagged_ne_plain (by decide)

/-- A round of the worker leaves every money key of the scripts as it is. -/
theorem syncAll_count_money {parse : String → Option UUID} {rowLocked : UUID → Bool} {threshold : ℤ}
    (s : SyncState) (campaignScan customerScan : List (String × String)) {key : String}
    (hkey : MoneyKey key) :
    (s.syncAll parse rowLocked threshold campaignScan customerScan).redis.count key =
      s.redis.count key := by
  obtain ⟨rest, rfl⟩ := hkey.brace
  exact congrArg (·.getD 0) (s.syncAll_bracesKept campaignScan customerScan rest)

open FilterExecution in
/-- After every run of debits and a round of the worker, the scripts' counters hold all that was debited;
a campaign with nothing in the worker's own counters has the spend it had; and in no case do hot path and
settlement agree. -/
theorem hotPath_never_settled (parse : String → Option UUID) (rowLocked : UUID → Bool) (threshold : ℤ)
    (row : ListActiveCampaignsRow) (s₀ : SyncState) (debits : List FilterExecution)
    (campaignScan customerScan : List (String × String)) :
    let camp := campaignFromListActiveCampaignsRow row
    let total := runTotal (debitedFor row.id) serve s₀.redis debits
    let s : SyncState := { s₀ with redis := run serve s₀.redis debits }
    let after := s.syncAll parse rowLocked threshold campaignScan customerScan
    after.redis.count camp.campaignSyncKey = s₀.redis.count camp.campaignSyncKey + total ∧
      after.redis.count camp.customerSyncKey = s₀.redis.count camp.customerSyncKey +
        runTotal (debitedForCustomer row.id row.customerID) serve s₀.redis debits ∧
      (0 ≤ s₀.redis.count camp.campaignSyncKey → 0 < total →
        after.redis.count camp.campaignSyncKey ≠ 0) ∧
      (∀ spend, s.Idle parse row.id spend →
        (after.pg.campaigns.get? row.id).map CampaignRow.currentSpend = spend) ∧
      ¬ CountersAgree camp total s₀ after := by
  intro camp total s after
  have hcounter {key : String} {gain : Redis → FilterExecution → ℤ} (hkey : MoneyKey key)
      (hstep : ∀ r x, (serve r x).count key = r.count key + gain r x) :
      after.redis.count key = s₀.redis.count key + runTotal gain serve s₀.redis debits :=
    (syncAll_count_money s campaignScan customerScan hkey).trans
      (@run_quantity _ _ _ _ _ (fun r => r.count key) _ hstep s₀.redis debits)
  have hcamp : after.redis.count camp.campaignSyncKey = s₀.redis.count camp.campaignSyncKey + total :=
    hcounter (MoneyKey.campaignSync row.id) fun r x => (x.execute_books r).campaignSync row.id
  refine ⟨hcamp, ?_, ?_, ?_, ?_⟩
  · exact hcounter (MoneyKey.customerSync row.id row.customerID)
      fun r x => (x.execute_books r).customerSync row.id row.customerID
  · intro hstart htotal
    omega
  · intro spend hidle
    exact (SyncState.syncAll_idle hidle campaignScan customerScan).spend_eq
  · intro hagree
    exact campaignSyncKey_ne_worker row.id (uuidString row.id) hagree.campaignKey

/-- `uuid.Parse` on the texts of the sample. -/
def sampleParse (text : String) : Option UUID :=
  [sampleRow.id, sampleRow.customerID].find? fun id => uuidString id = text

/-- One click on a server that holds the budget of the sample campaign. -/
def sampleDebited : SyncState where
  redis := FilterExecution.serve (Redis.empty.setNum (budgetCampaignKey sampleRow.id) 100)
    sampleExecution
  pg := samplePg sampleRow.id sampleRow.customerID
  rollup := []

/-- A round of the worker that visits the sample campaign and its customer. -/
def sampleRound : SyncState :=
  sampleDebited.syncAll sampleParse (fun _ => false) 5000000
    [(uuidString sampleRow.id, "tx-1")] [(uuidString sampleRow.customerID, "tx-2")]

/-- The round visits the dirty campaign, settles nothing and forgets it. -/
theorem hotPath_click_forgotten :
    uuidString sampleRow.id ∈ sampleDebited.redis.sets "budget:dirty_campaigns" ∧
      sampleDebited.redis.count (campaignSyncKey sampleRow.id) = 2 ∧
      sampleRound.redis.count (campaignSyncKey sampleRow.id) = 2 ∧
      (sampleRound.pg.campaigns.get? sampleRow.id).map CampaignRow.currentSpend = some 0 ∧
      uuidString sampleRow.id ∉ sampleRound.redis.sets "budget:dirty_campaigns" := by
  decide +kernel

end Espx.Settlement
