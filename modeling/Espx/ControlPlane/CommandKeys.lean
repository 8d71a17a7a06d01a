import Espx.ControlPlane.OutboxOrder
import Espx.Settlement.HotPath

/-!
# The key of a command and the key of a debit

Commands on a campaign set or delete `budget:campaign:` followed by the campaign. The scripts debit the
key with the campaign's hash tag in front of that. So a paused campaign is debited as long as its tagged
key is there, and a resumed one is not as long as it is missing.
-/

namespace Espx.Ingestion

open Espx.Foundation Espx.Domain

namespace FilterExecution

variable (x : FilterExecution) (r : Redis) {key : String}

/-- The key that the script of the execution looks up first. -/
def lookedUpKey : String :=
  match x.path with
  | .fast => x.fastCall.keys.spendKey
  | .full => x.call.spendKey

/-- What the execution finds in its budget key. -/
def finds : Option ℤ := r.num x.lookedUpKey

theorem execute_of_finds_none (h : x.finds r = none) : x.execute r = (-1, r) := by
  unfold finds lookedUpKey at h
  unfold execute
  cases hpath : x.path with
  | fast =>
    rw [hpath] at h
    rw [BudgetFastCall.run, h]
  | full =>
    rw [hpath] at h
    rw [UnifiedCall.run, h]

/-- Without quota both scripts look up the budget of the campaign. -/
theorem lookedUpKey_eq (hquota : x.filter.quotaEnabled = false) :
    x.lookedUpKey = budgetCampaignKey x.event.campaignID := by
  have hbudget : x.camp.budgetCampaignKey = budgetCampaignKey x.event.campaignID := by
    rw [← x.registered]
    rfl
  unfold lookedUpKey
  cases x.path with
  | fast | full =>
    change (if x.filter.quotaEnabled then _ else x.camp.budgetCampaignKey) = _
    rw [hquota, ← hbudget]
    rfl

/-- An execution writes no spend key but its own. -/
theorem execute_num_of_ne {id : UUID} (hkey : SpendKey id key) (hne : key ≠ x.call.spendKey) :
    (x.execute r).2.num key = r.num key := by
  have hbook := x.money_not_book hkey.money
  have hc : key ≠ x.call.campaignSyncKey := by
    exact hkey.ne_campaignSync
  have hu : key ≠ x.call.customerSyncKey := by
    exact hkey.ne_customerSync
  obtain ⟨hin, hidem⟩ := x.money_ne_fast hkey.money
  unfold execute
  cases x.path with
  | fast =>
    apply (x.fastCall.run_writes r).num
    simp only [List.mem_cons, List.not_mem_nil, or_false, not_or]
    exact ⟨hin, hidem, hne, hc, hu⟩
  | full => exact (x.call.run_writes r).num (by simp [hbook, hne, hc, hu])

theorem execute_num_isSome (h : (r.num key).isSome) : ((x.execute r).2.num key).isSome := by
  unfold execute
  cases x.path with
  | fast => exact (x.fastCall.run_writes r).isSome h
  | full => exact (x.call.run_writes r).isSome h

/-- Executions for other campaigns leave the spend keys of a campaign as they are. -/
theorem serve_others {id : UUID} (hkey : SpendKey id key) {served : List FilterExecution}
    (h : ∀ y ∈ served, y.event.campaignID ≠ id) : (run serve r served).num key = r.num key := by
  induction served generalizing r with
  | nil => rfl
  | cons y rest ih =>
    have hne : key ≠ y.call.spendKey := fun heq =>
      h y List.mem_cons_self (y.spendKey_of_campaign.campaign_eq (heq ▸ hkey))
    rw [run, ih _ fun z hz => h z (List.mem_cons_of_mem _ hz)]
    exact y.execute_num_of_ne r hkey hne

/-- An execution neither creates nor deletes the budget of a campaign. -/
theorem execute_budget_none (id : UUID) :
    (x.execute r).2.num (budgetCampaignKey id) = none ↔ r.num (budgetCampaignKey id) = none := by
  constructor
  · intro h
    by_contra hsome
    have hkept := x.execute_num_isSome r (Option.isSome_iff_ne_none.mpr hsome)
    rw [h] at hkept
    cases hkept
  · intro h
    by_cases hkey : budgetCampaignKey id = x.lookedUpKey
    · rw [x.execute_of_finds_none r (by rw [finds, ← hkey, h])]
      exact h
    rw [x.execute_num_of_ne r SpendKey.budget ?_, h]
    rintro hspend
    apply hkey
    rw [hspend]
    unfold lookedUpKey
    cases x.path with
    | fast | full => rfl

theorem serve_budget_none (id : UUID) (served : List FilterExecution) :
    (run serve r served).num (budgetCampaignKey id) = none ↔ r.num (budgetCampaignKey id) = none := by
  induction served generalizing r with
  | nil => rfl
  | cons y rest ih => exact (ih _).trans (y.execute_budget_none r id)

end FilterExecution

end Espx.Ingestion

namespace Espx.ControlPlane

open Espx.Foundation Espx.Domain Espx.Ingestion Espx.Settlement

section

variable {cfg : ShardConfig} {faults : Faults} {event : ManagementEvent} {id : UUID}
  {command : BudgetCommand} {s : ControlStore} {shard : ℕ}

/-- The value that a command is to leave in the budget key: nothing, or what is left of the budget where
there is something to set. -/
def BudgetCommand.Orders (read : Bool) (pg : Pg) : BudgetCommand → Option ℤ → Prop
  | .delete, value => value = none
  | .set p, value => ∃ remaining, 0 < remaining ∧ budgetToSet read p pg = some remaining ∧
      value = some remaining

theorem budgetCampaignKey_ne_plain (i j : UUID) : budgetCampaignKey i ≠ budgetCampaignPlainKey j := by
  rw [budgetCampaignKey, String.append_assoc]
  exact tagged_ne_plain (by decide)

/-- A call to one shard that writes the key of a command leaves the tagged keys of all shards. -/
theorem ControlStore.withRedis_num {f : Redis → Redis} {next : ControlStore → Handled} (reply : Reply)
    (target : ℕ) (hf : ∀ r : Redis, (f r).num (budgetCampaignKey id) = r.num (budgetCampaignKey id))
    (hnext : ∀ written, (next written).store = written) :
    ((s.withRedis reply target f next).store.rdbs shard).num (budgetCampaignKey id) =
      (s.rdbs shard).num (budgetCampaignKey id) := by
  have hput : ((s.onShard target f).rdbs shard).num (budgetCampaignKey id) =
      (s.rdbs shard).num (budgetCampaignKey id) := by
    unfold ControlStore.onShard
    dsimp only
    by_cases h : shard = target
    · rw [h, Function.update_self, hf]
    · rw [Function.update_of_ne h]
  cases reply with
  | failed => rfl
  | lost => exact hput
  | received =>
    change ((next (s.onShard target f)).store.rdbs shard).num _ = _
    rw [hnext, hput]

/-- Creation and resumption leave the tagged budget keys as they are. -/
theorem setCampaignBudgetAndPublish_num (target : ℕ) (p : CampaignPayload) :
    ((setCampaignBudgetAndPublish target p faults s).store.rdbs shard).num (budgetCampaignKey id) =
      (s.rdbs shard).num (budgetCampaignKey id) := by
  unfold setCampaignBudgetAndPublish
  split
  · rfl
  split
  · rfl
  · exact s.withRedis_num faults.redis target
      (fun r => r.setNum_num_of_ne _ (budgetCampaignKey_ne_plain _ _)) fun _ => rfl

theorem deleteCampaignBudgetAndPublish_num (target : ℕ) (p : CampaignPayload) :
    ((deleteCampaignBudgetAndPublish target p faults s).store.rdbs shard).num (budgetCampaignKey id) =
      (s.rdbs shard).num (budgetCampaignKey id) :=
  s.withRedis_num faults.redis target
    (fun r => r.delNum_num_of_ne (budgetCampaignKey_ne_plain _ _)) fun _ => rfl

/-- A command leaves the tagged budget keys as they are. -/
theorem command_num (hcmd : event.commandOf id = some command) (other : UUID) :
    ((handleManagementEvent cfg faults event s).store.rdbs shard).num (budgetCampaignKey other) =
      (s.rdbs shard).num (budgetCampaignKey other) := by
  unfold handleManagementEvent
  split
  · split
    · rfl
    · exact setCampaignBudgetAndPublish_num _ _
  · rfl
  · split
    · rfl
    · exact setCampaignBudgetAndPublish_num _ _
  · rfl
  · rfl
  · split
    · rfl
    · exact deleteCampaignBudgetAndPublish_num _ _
  · split
    · rfl
    · exact deleteCampaignBudgetAndPublish_num _ _
  all_goals cases hcmd

/-- After a command on a campaign, and after any executions for other campaigns, or for any where the
command deletes, an execution without quota finds what the command was to leave exactly when it was there
before. -/
theorem command_reaches_scripts_iff (cfg : ShardConfig) (faults : Faults) (event : ManagementEvent)
    (id : UUID) (command : BudgetCommand) (value : Option ℤ) (s : ControlStore) (shard : ℕ)
    (served : List FilterExecution) (x : FilterExecution) (hcommand : event.commandOf id = some command)
    (hvalue : command.Orders faults.read s.pg value)
    (hserved : value = none ∨ ∀ y ∈ served, y.event.campaignID ≠ id)
    (hcampaign : x.event.campaignID = id) (hquota : x.filter.quotaEnabled = false) :
    x.finds (run FilterExecution.serve
        ((handleManagementEvent cfg faults event s).store.rdbs shard) served) = value ↔
      (s.rdbs shard).num (budgetCampaignKey id) = value := by
  rw [FilterExecution.finds, x.lookedUpKey_eq hquota, hcampaign]
  rcases hserved with rfl | hothers
  · rw [FilterExecution.serve_budget_none, command_num hcommand]
  · rw [FilterExecution.serve_others _ SpendKey.budget hothers, command_num hcommand]

end

/-- A filter execution for the sample campaign, on the fast path. -/
def sampleHotClick : FilterExecution := (sampleCheck true).toFilterExecution

/-- The pause of the sample campaign. -/
def samplePause : ManagementEvent := .pauseCampaign (some ⟨sampleRow.id, 100⟩)

theorem samplePause_command : samplePause.commandOf sampleRow.id = some .delete := by
  rw [samplePause, ManagementEvent.commandOf]
  exact if_pos rfl

/-- The creation of the sample campaign, with a budget of one hundred. -/
def sampleCreation : ManagementEvent := .createCampaign ⟨sampleRow.id, 100⟩

/-- The database of the sample campaign, and shards with the given contents. -/
def sampleStores (redis : Redis) : ControlStore where
  pg := samplePg sampleRow.id sampleRow.customerID
  rdbs := fun _ => redis

/-- A server with a budget in the key that the scripts debit. -/
def sampleBudgeted : Redis := Redis.empty.setNum (budgetCampaignKey sampleRow.id) 100

/-- A paused campaign whose tagged key was missing before is found missing. -/
theorem command_reaches_scripts_paused :
    sampleHotClick.finds (run FilterExecution.serve
        ((handleManagementEvent sampleShards noFaults samplePause (sampleStores .empty)).store.rdbs 0)
        [sampleHotClick]) = none :=
  (command_reaches_scripts_iff sampleShards noFaults samplePause sampleRow.id .delete none
    (sampleStores .empty) 0 [sampleHotClick] sampleHotClick samplePause_command rfl
    (Or.inl rfl) rfl rfl).mpr rfl

/-- A campaign with a budget in its tagged key is paused, and the next click is debited; one without is
created with a budget of one hundred, and the next click finds none. -/
theorem command_misses_scripts :
    let paused := handleManagementEvent sampleShards noFaults samplePause (sampleStores sampleBudgeted)
    let created := handleManagementEvent sampleShards noFaults sampleCreation (sampleStores .empty)
    paused.ok = true ∧ sampleHotClick.finds (paused.store.rdbs 0) = some 100 ∧
      (sampleHotClick.execute (paused.store.rdbs 0)).1 = 0 ∧
      (sampleHotClick.execute (paused.store.rdbs 0)).2.num (budgetCampaignKey sampleRow.id) = some 98 ∧
      created.ok = true ∧
      (created.store.rdbs 0).num (budgetCampaignPlainKey sampleRow.id) = some 100 ∧
      sampleHotClick.finds (created.store.rdbs 0) = none ∧
      (sampleHotClick.execute (created.store.rdbs 0)).1 = -1 := by
  decide +kernel

end Espx.ControlPlane
