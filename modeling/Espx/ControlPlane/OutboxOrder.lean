import Espx.ControlPlane.OutboxRows
import Espx.Foundation.Replay
import Espx.Foundation.Run

/-!
# The order of commands

The budget key of a campaign is written by its commands alone, and a command that is repeated leaves it as
it is. So the key is the one that the commands leave in the order of their creation as long as none is
handled after a later one. The worker does not see to that: its query takes pauses before resumptions, and
a failed command waits behind its successors.
-/

namespace Espx.ControlPlane

open Espx.Foundation Espx.Domain Espx.Settlement OutboxSystem List

variable {W : Type*}

/-- What a command does to the budget key. -/
inductive BudgetCommand
  | set (p : CampaignPayload)
  | delete

/-- The command of an event for a campaign. -/
def ManagementEvent.commandOf (campaignID : UUID) : ManagementEvent → Option BudgetCommand
  | .createCampaign p => if p.campaignID = campaignID then some (.set p) else none
  | .resumeCampaign (some p) => if p.campaignID = campaignID then some (.set p) else none
  | .pauseCampaign (some p) => if p.campaignID = campaignID then some .delete else none
  | .cancelCampaign (some p) => if p.campaignID = campaignID then some .delete else none
  | _ => none

/-- The event is a command for the campaign. -/
def ManagementEvent.isCommandOf (campaignID : UUID) (event : ManagementEvent) : Bool :=
  (event.commandOf campaignID).isSome

/-- The budget key of a campaign, on the shard that the handlers use. -/
def campaignBudget (cfg : ShardConfig) (campaignID : UUID) (s : ControlStore) : Option ℤ :=
  (cfg.getRDB campaignID).bind fun shard => (s.rdbs shard).num (budgetCampaignPlainKey campaignID)

/-- The stores after the commands of a campaign in the order of their creation, without failures. -/
def applyCommands (cfg : ShardConfig) (campaignID : UUID) (events : List ManagementEvent)
    (s : ControlStore) : ControlStore :=
  (events.filter (·.isCommandOf campaignID)).foldl
    (fun s event => (handleManagementEvent cfg noFaults event s).store) s

/-- An event of another kind leaves the row of the campaign in the database alone. -/
def KeepsCampaign (campaignID : UUID) (faults : Faults) (pg : Pg) : ManagementEvent → Prop
  | .reconciliationAdjust p => p.campaignID ≠ campaignID
  | .updateBlacklist | .other _ _ =>
    (faults.otherPg pg).campaigns.get? campaignID = pg.campaigns.get? campaignID
  | _ => True

/-- The condition on a step. A command of the campaign is handled while no later one has been
executed, and a budget that it needs can be read; no other handler changes the campaign. -/
def InOrder (campaignID : UUID) (s : OutboxSystem W) : OutboxAction W → Prop
  | .handle w faults => ∀ row ∈ (s.batches w).events.head?,
      match row.event.commandOf campaignID with
      | some command => (command = .delete ∨ faults.read = true) ∧
          ∀ later ∈ s.rows, row.id < later.id → later.event.isCommandOf campaignID = true →
            (later.id, Medium.redis) ∉ s.log
      | none => KeepsCampaign campaignID faults s.store.pg row.event
  | _ => True

open BudgetCommand

open ManagementEvent

section

variable {cfg : ShardConfig} {faults : Faults} {camp : UUID} {s : ControlStore}
  {event : ManagementEvent} {command : BudgetCommand} {shard : ℕ} {p : CampaignPayload}
  {f : Redis → Redis}

/-- The value that a command leaves in the key. -/
def BudgetCommand.apply (pg : Pg) : BudgetCommand → Option ℤ → Option ℤ
  | .set p, value =>
    match budgetToSet true p pg with
    | none => value
    | some remaining => if remaining ≤ 0 then value else some remaining
  | .delete, _ => none

/-- A command repeated leaves the value that it has left. -/
theorem BudgetCommand.apply_idem (command : BudgetCommand) (pg : Pg) (value : Option ℤ) :
    command.apply pg (command.apply pg value) = command.apply pg value := by
  cases command with
  | delete => rfl
  | set p =>
    unfold apply
    dsimp only
    cases budgetToSet true p pg with
    | none => rfl
    | some remaining =>
      dsimp only
      split
      · rfl
      · rfl

/-- A write to a shard that keeps the key keeps the budget. -/
theorem campaignBudget_onShard (shard : ℕ)
    (hf : ∀ r : Redis, (f r).num (budgetCampaignPlainKey camp) = r.num (budgetCampaignPlainKey camp)) :
    campaignBudget cfg camp (s.onShard shard f) = campaignBudget cfg camp s := by
  unfold campaignBudget ControlStore.onShard
  congr 1
  funext other
  dsimp only
  by_cases h : other = shard
  · rw [h, Function.update_self, hf]
  · rw [Function.update_of_ne h]

/-- A write to the shard of the campaign. -/
theorem campaignBudget_onShard_self (hshard : cfg.getRDB camp = some shard) :
    campaignBudget cfg camp (s.onShard shard f) =
      (f (s.rdbs shard)).num (budgetCampaignPlainKey camp) := by
  unfold campaignBudget ControlStore.onShard
  rw [hshard, Option.bind_some]
  dsimp only
  rw [Function.update_self]

theorem budgetCampaignPlainKey_ne {other : UUID} (h : other ≠ camp) :
    budgetCampaignPlainKey camp ≠ budgetCampaignPlainKey other := by
  intro heq
  exact h (uuidString_injective ((String.append_right_inj _).mp heq)).symm

/-- A command has a payload of the campaign, and its handler sets or deletes the key. -/
theorem commandOf_cases (h : event.commandOf camp = some command) :
    ∃ p : CampaignPayload, p.campaignID = camp ∧
      ((command = .set p ∧ ∀ cfg faults s shard, cfg.getRDB camp = some shard →
          handleManagementEvent cfg faults event s = setCampaignBudgetAndPublish shard p faults s) ∨
        (command = .delete ∧ ∀ cfg faults s shard, cfg.getRDB camp = some shard →
          handleManagementEvent cfg faults event s = deleteCampaignBudgetAndPublish shard p faults s)) := by
  have hbody {p : CampaignPayload} {c : BudgetCommand}
      (h : (if p.campaignID = camp then some c else none) = some command) :
      p.campaignID = camp ∧ command = c := by
    split at h
    · rename_i hid
      exact ⟨hid, (Option.some.inj h).symm⟩
    · cases h
  unfold commandOf at h
  split at h
  case h_5 => cases h
  all_goals obtain ⟨hid, hcmd⟩ := hbody h
  · exact ⟨_, hid, .inl ⟨hcmd, fun _ _ _ _ hshard => by rw [handleManagementEvent, hid, hshard]⟩⟩
  · exact ⟨_, hid, .inl ⟨hcmd, fun _ _ _ _ hshard => by rw [handleManagementEvent, hid, hshard]⟩⟩
  · exact ⟨_, hid, .inr ⟨hcmd, fun _ _ _ _ hshard => by rw [handleManagementEvent, hid, hshard]⟩⟩
  · exact ⟨_, hid, .inr ⟨hcmd, fun _ _ _ _ hshard => by rw [handleManagementEvent, hid, hshard]⟩⟩

/-- The value depends on the row of the campaign only. -/
theorem BudgetCommand.apply_congr {pg pg' : Pg} (hcmd : event.commandOf camp = some command)
    (h : pg'.campaigns.get? camp = pg.campaigns.get? camp) (value : Option ℤ) :
    command.apply pg' value = command.apply pg value := by
  obtain ⟨p, hid, ⟨rfl, -⟩ | ⟨rfl, -⟩⟩ := commandOf_cases hcmd
  · have hset : budgetToSet true p pg' = budgetToSet true p pg := by
      rw [budgetToSet, campaignRemainingBudget, hid, h, ← hid, budgetToSet, campaignRemainingBudget]
    rw [apply, hset, apply]
  · rfl

/-- A call of the handler of a command: it executes the command or leaves the stores alone, and succeeds
only when it has executed it. With Redis at hand it is left out only where it would change nothing. -/
structure Executes (cfg : ShardConfig) (campaignID : UUID) (redis : Reply) (command : BudgetCommand)
    (s : ControlStore) (handled : Handled) : Prop where
  pg : handled.store.pg = s.pg
  executed : .redis ∈ handled.effects → campaignBudget cfg campaignID handled.store =
    command.apply s.pg (campaignBudget cfg campaignID s)
  skipped : .redis ∉ handled.effects → handled.store = s
  succeeded : handled.ok = true → .redis ∈ handled.effects
  answered : redis ≠ .failed → campaignBudget cfg campaignID handled.store =
    command.apply s.pg (campaignBudget cfg campaignID s)

/-- An error before the first write. -/
theorem Executes.refused {redis : Reply} (h : redis ≠ .failed → campaignBudget cfg camp s =
    command.apply s.pg (campaignBudget cfg camp s)) : Executes cfg camp redis command s s.refused := by
  refine ⟨rfl, fun h => ?_, fun _ => rfl, fun h => ?_, h⟩
  · cases h
  · cases h

/-- The command is executed, whatever the handler returns. -/
theorem Executes.written {redis : Reply} {written : ControlStore}
    (hbudget : campaignBudget cfg camp written =
      command.apply s.pg (campaignBudget cfg camp s)) (hpg : written.pg = s.pg) (ok : Bool) :
    Executes cfg camp redis command s ⟨written, [.redis], ok⟩ :=
  ⟨hpg, fun _ => hbudget, fun h => absurd mem_cons_self h, fun _ => mem_cons_self, fun _ => hbudget⟩

/-- The handler of creations and resumptions. -/
theorem setCampaignBudgetAndPublish_executes
    (hshard : cfg.getRDB p.campaignID = some shard) (hread : faults.read = true) :
    Executes cfg p.campaignID faults.redis (.set p) s (setCampaignBudgetAndPublish shard p faults s) := by
  unfold setCampaignBudgetAndPublish
  rw [hread]
  cases hset : budgetToSet true p s.pg with
  | none =>
    refine .refused fun _ => ?_
    rw [apply, hset]
  | some remaining =>
    have happly : apply s.pg (.set p) (campaignBudget cfg p.campaignID s) =
        if remaining ≤ 0 then campaignBudget cfg p.campaignID s else some remaining := by
      rw [apply, hset]
    dsimp only
    by_cases hleft : remaining ≤ 0
    · rw [if_pos hleft] at happly ⊢
      exact .written happly.symm rfl _
    rw [if_neg hleft] at happly ⊢
    have hput : campaignBudget cfg p.campaignID
        (s.onShard shard (·.setNum (budgetCampaignPlainKey p.campaignID) remaining)) =
        apply s.pg (.set p) (campaignBudget cfg p.campaignID s) := by
      rw [campaignBudget_onShard_self hshard, Redis.setNum_num_self, happly]
    cases faults.redis with
    | failed => exact .refused fun h => absurd rfl h
    | lost | received => exact .written hput rfl _

/-- The handler of pauses and cancellations. -/
theorem deleteCampaignBudgetAndPublish_executes (hshard : cfg.getRDB p.campaignID = some shard) :
    Executes cfg p.campaignID faults.redis .delete s (deleteCampaignBudgetAndPublish shard p faults s) := by
  have hput : campaignBudget cfg p.campaignID
      (s.onShard shard (·.delNum (budgetCampaignPlainKey p.campaignID))) =
      delete.apply s.pg (campaignBudget cfg p.campaignID s) := by
    rw [campaignBudget_onShard_self hshard, Redis.delNum_num_self, apply]
  unfold deleteCampaignBudgetAndPublish ControlStore.withRedis
  cases faults.redis with
  | failed => exact .refused fun h => absurd rfl h
  | lost | received => exact .written hput rfl _

/-- The handler of a command of the campaign. -/
theorem handleManagementEvent_executes (hcmd : event.commandOf camp = some command)
    (hshard : cfg.getRDB camp = some shard) (hread : command = .delete ∨ faults.read = true) :
    Executes cfg camp faults.redis command s (handleManagementEvent cfg faults event s) := by
  obtain ⟨p, hid, ⟨rfl, hhand⟩ | ⟨rfl, hhand⟩⟩ := commandOf_cases hcmd
  · rw [hhand cfg faults s shard hshard]
    rw [← hid] at hshard ⊢
    exact setCampaignBudgetAndPublish_executes hshard (hread.resolve_left BudgetCommand.noConfusion)
  · rw [hhand cfg faults s shard hshard]
    rw [← hid] at hshard ⊢
    exact deleteCampaignBudgetAndPublish_executes hshard

/-- A call of a handler leaves the budget key and the row of the campaign alone. -/
structure Leaves (cfg : ShardConfig) (campaignID : UUID) (s : ControlStore) (handled : Handled) :
    Prop where
  budget : campaignBudget cfg campaignID handled.store = campaignBudget cfg campaignID s
  campaign : handled.store.pg.campaigns.get? campaignID = s.pg.campaigns.get? campaignID

/-- The end of a transaction that keeps the row of the campaign. -/
theorem Leaves.commit {committed : Pg}
    (h : committed.campaigns.get? camp = s.pg.campaigns.get? camp) (reply : Reply)
    (effects : List Medium) : Leaves cfg camp s (s.commit reply committed effects) := by
  refine ⟨rfl, ?_⟩
  exact Reply.after_of (P := fun pg : Pg => pg.campaigns.get? camp = s.pg.campaigns.get? camp)
    reply rfl h

/-- A write to another key. -/
theorem Leaves.withRedis {next : ControlStore → Handled} (reply : Reply) (shard : ℕ)
    (hf : ∀ r : Redis, (f r).num (budgetCampaignPlainKey camp) = r.num (budgetCampaignPlainKey camp))
    (hnext : Leaves cfg camp (s.onShard shard f) (next (s.onShard shard f))) :
    Leaves cfg camp s (s.withRedis reply shard f next) := by
  cases reply with
  | failed => exact ⟨rfl, rfl⟩
  | lost => exact ⟨campaignBudget_onShard shard hf, rfl⟩
  | received => exact ⟨hnext.budget.trans (campaignBudget_onShard shard hf), hnext.campaign⟩

/-- A creation or resumption of another campaign. -/
theorem setCampaignBudgetAndPublish_leaves (hother : p.campaignID ≠ camp)
    (shard : ℕ) : Leaves cfg camp s (setCampaignBudgetAndPublish shard p faults s) := by
  unfold setCampaignBudgetAndPublish
  split
  · exact ⟨rfl, rfl⟩
  split
  · exact ⟨rfl, rfl⟩
  · refine .withRedis _ shard (fun r => ?_) ⟨rfl, rfl⟩
    exact r.setNum_num_of_ne _ (budgetCampaignPlainKey_ne hother)

theorem deleteCampaignBudgetAndPublish_leaves (hother : p.campaignID ≠ camp)
    (shard : ℕ) : Leaves cfg camp s (deleteCampaignBudgetAndPublish shard p faults s) := by
  refine .withRedis _ shard (fun r => ?_) ⟨rfl, rfl⟩
  exact r.delNum_num_of_ne (budgetCampaignPlainKey_ne hother)

/-- The repair of a quota. -/
theorem handleQuotaRepair_leaves (p : QuotaRepairPayload) :
    Leaves cfg camp s (handleQuotaRepair cfg p faults s) := by
  unfold handleQuotaRepair
  split
  · exact ⟨rfl, rfl⟩
  split
  · split
    · exact ⟨rfl, rfl⟩
    · refine .withRedis _ _ (fun r => ?_) ⟨rfl, rfl⟩
      exact r.incrBy_num_of_ne _ (append_ne_of_clash (by decide))
  · refine .commit ?_ _ _
    rfl
  · exact ⟨rfl, rfl⟩

/-- The counter of a campaign is no budget key. -/
theorem adjustRedisBudgetAtomically_num (other : UUID) (delta : ℤ) (r : Redis) :
    (adjustRedisBudgetAtomically other delta r).num (budgetCampaignPlainKey camp) =
      r.num (budgetCampaignPlainKey camp) := by
  have hkey : budgetCampaignPlainKey camp ≠ campaignSyncKey other := by
    rw [campaignSyncKey, String.append_assoc]
    exact (tagged_ne_plain (by decide)).symm
  unfold adjustRedisBudgetAtomically
  dsimp only
  split
  · rw [Redis.delNum_num_of_ne _ hkey, Redis.incrBy_num_of_ne _ _ hkey]
  · rw [Redis.incrBy_num_of_ne _ _ hkey]

/-- An adjustment moves the row of its own campaign only. -/
theorem applyReconciliationAdjust_campaign {other customerID : UUID} {amount : ℤ} {pg pg' : Pg}
    (h : applyReconciliationAdjust other customerID amount pg = some pg') (hother : other ≠ camp) :
    pg'.campaigns.get? camp = pg.campaigns.get? camp := by
  obtain ⟨recorded, hrec, hspent⟩ := Option.bind_eq_some_iff.mp h
  have hsame : recorded.campaigns = pg.campaigns := by
    rw [Pg.createLedgerEntry_eq_some hrec]
  split at hspent
  · cases hspent
    exact (Table.get?_modify_of_ne _ _ hother.symm).trans (by rw [hsame])
  · cases hspent
    rw [hsame]

/-- The adjustment of another campaign. -/
theorem handleReconciliationAdjust_leaves {p : ReconciliationAdjustPayload}
    (hother : p.campaignID ≠ camp) : Leaves cfg camp s (handleReconciliationAdjust cfg p faults s) := by
  unfold handleReconciliationAdjust
  split
  · exact ⟨rfl, rfl⟩
  split
  · exact ⟨rfl, rfl⟩
  rename_i adjusted hadjusted
  have hcamp := applyReconciliationAdjust_campaign hadjusted hother
  split
  · exact .commit hcamp _ _
  split
  · exact ⟨rfl, rfl⟩
  · refine .withRedis _ _ (adjustRedisBudgetAtomically_num _ _) (.commit ?_ _ _)
    exact hcamp

/-- The handler of an event that is no command of the campaign. -/
theorem handleManagementEvent_leaves (hcmd : event.commandOf camp = none)
    (hkeeps : KeepsCampaign camp faults s.pg event) :
    Leaves cfg camp s (handleManagementEvent cfg faults event s) := by
  have hother (p : CampaignPayload) {command : BudgetCommand}
      (h : (if p.campaignID = camp then some command else none) = none) :
      p.campaignID ≠ camp := by
    intro hid
    rw [if_pos hid] at h
    cases h
  unfold handleManagementEvent
  split
  · split
    · exact ⟨rfl, rfl⟩
    · exact setCampaignBudgetAndPublish_leaves (hother _ hcmd) _
  · exact ⟨rfl, rfl⟩
  · split
    · exact ⟨rfl, rfl⟩
    · exact setCampaignBudgetAndPublish_leaves (hother _ hcmd) _
  · exact ⟨rfl, rfl⟩
  · exact ⟨rfl, rfl⟩
  · split
    · exact ⟨rfl, rfl⟩
    · exact deleteCampaignBudgetAndPublish_leaves (hother _ hcmd) _
  · split
    · exact ⟨rfl, rfl⟩
    · exact deleteCampaignBudgetAndPublish_leaves (hother _ hcmd) _
  · exact handleQuotaRepair_leaves _
  · exact handleReconciliationAdjust_leaves hkeeps
  · exact ⟨rfl, rfl⟩
  · exact ⟨rfl, hkeeps⟩
  · exact ⟨rfl, hkeeps⟩

end

/-- The command of a row has been executed. -/
def executed (campaignID : UUID) (log : List (ℕ × Medium)) (item : ℕ × ManagementEvent) : Bool :=
  item.2.isCommandOf campaignID && decide ((item.1, Medium.redis) ∈ log)

/-- What an event does to the budget key. -/
def applyEvent (campaignID : UUID) (pg : Pg) (value : Option ℤ) (event : ManagementEvent) : Option ℤ :=
  match event.commandOf campaignID with
  | none => value
  | some command => command.apply pg value

/-- The system after a worker has handled a row. -/
def OutboxSystem.afterHandled [DecidableEq W] (s : OutboxSystem W) (w : W) (id : ℕ) (handled : Handled)
    (batch : OutboxBatch) : OutboxSystem W :=
  { s with
    store := handled.store
    log := s.log ++ handled.effects.map fun medium => (id, medium) }.setBatch w batch

/-- A row of the table the command of which, if it is one, has been executed. -/
def IsDone (campaignID : UUID) (s : OutboxSystem W) (id : ℕ) : Prop :=
  ∃ event, eventAt id s.rows = some event ∧
    (event.isCommandOf campaignID = true → (id, Medium.redis) ∈ s.log)

/-- The budget key is the one that the executed commands leave in the order of creation, and rows that are
processed or about to be marked have been executed. -/
structure OrderInv (cfg : ShardConfig) (campaignID : UUID) (start : ControlStore) (s : OutboxSystem W) :
    Prop where
  numbered : Numbered s.rows
  copies : ∀ w, ∀ row ∈ (s.batches w).events, eventAt row.id s.rows = some row.event
  marks : ∀ w, ∀ id ∈ (s.batches w).processedIDs, IsDone campaignID s id
  processed : ∀ id, statusAt id s.rows = some .processed → IsDone campaignID s id
  logged : ∀ id medium, (id, medium) ∈ s.log → (eventAt id s.rows).isSome
  campaign : s.store.pg.campaigns.get? campaignID = start.pg.campaigns.get? campaignID
  budget : campaignBudget cfg campaignID s.store =
    replay (fun value item => applyEvent campaignID start.pg value item.2) (executed campaignID s.log)
      (campaignBudget cfg campaignID start) (contents s.rows)

section

variable {rows rows' : List ManagementRow} {camp : UUID} {item : ℕ × ManagementEvent}

/-- The contents around a row: those before it have smaller numbers, those after it larger ones. -/
theorem contents_split (h : Numbered rows) {id : ℕ} {event : ManagementEvent}
    (hevent : eventAt id rows = some event) :
    ∃ before after, contents rows = before ++ (id, event) :: after ∧
      (∀ item ∈ before, item.1 < id) ∧ ∀ item ∈ after, id < item.1 := by
  have hget : (contents rows)[id]? = some (id, event) := by
    rw [contents_getElem? h, hevent, Option.map_some]
  obtain ⟨hlt, hat⟩ := List.getElem?_eq_some_iff.mp hget
  have hnumber (i : ℕ) (item : ℕ × ManagementEvent) (hitem : (contents rows)[i]? = some item) :
      item.1 = i := by
    rw [contents_getElem? h] at hitem
    obtain ⟨_, -, rfl⟩ := Option.map_eq_some_iff.mp hitem
    rfl
  refine ⟨(contents rows).take id, (contents rows).drop (id + 1), ?_, ?_, ?_⟩
  · rw [← hat, ← List.drop_eq_getElem_cons hlt, List.take_append_drop]
  · intro item hitem
    obtain ⟨i, hi⟩ := List.mem_iff_getElem?.mp hitem
    rw [List.getElem?_take] at hi
    split at hi
    · rename_i hlt
      rw [hnumber i item hi]
      exact hlt
    · cases hi
  · intro item hitem
    obtain ⟨i, hi⟩ := List.mem_iff_getElem?.mp hitem
    rw [List.getElem?_drop] at hi
    rw [hnumber _ item hi]
    omega

theorem executed_append {log : List (ℕ × Medium)} {effects : List Medium}
    {id : ℕ} (h : item.1 ≠ id ∨ .redis ∉ effects) :
    executed camp (log ++ effects.map fun medium => (id, medium)) item =
      executed camp log item := by
  rw [executed, executed]
  congr 2
  rw [mem_append, eq_iff_iff, or_iff_left]
  intro hmem
  obtain ⟨_, hmedium, heq⟩ := mem_map.mp hmem
  obtain ⟨rfl, rfl⟩ := Prod.mk.inj heq
  exact h.elim (absurd rfl) (absurd hmedium)

end

namespace OrderInv

variable {cfg : ShardConfig} {camp : UUID} {start : ControlStore} {s : OutboxSystem W}

/-- The rows change their status only, and a row becomes processed only by its mark. -/
theorem of_rows (h : OrderInv cfg camp start s) {s' : OutboxSystem W} (hstore : s'.store = s.store)
    (hlog : s'.log = s.log) (hrows : contents s'.rows = contents s.rows)
    (hstat : ∀ id, statusAt id s'.rows = some .processed →
      statusAt id s.rows = some .processed ∨ ∃ w, id ∈ (s.batches w).processedIDs)
    (hcopy : ∀ w, ∀ row ∈ (s'.batches w).events, row ∈ (s.batches w).events ∨ row ∈ s.rows)
    (hmarks : ∀ w, ∀ id ∈ (s'.batches w).processedIDs, id ∈ (s.batches w).processedIDs) :
    OrderInv cfg camp start s' := by
  have hdone (id : ℕ) (hid : IsDone camp s id) : IsDone camp s' id := by
    rw [IsDone, eventAt_congr hrows, hlog]
    exact hid
  refine ⟨h.numbered.of_contents hrows, ?_, ?_, ?_, ?_, ?_, ?_⟩
  · intro w row hrow
    rw [eventAt_congr hrows]
    obtain hrow | hrow := hcopy w row hrow
    · exact h.copies w row hrow
    · exact h.numbered.eventAt_of_mem hrow
  · intro w id hid
    exact hdone id (h.marks w id (hmarks w id hid))
  · intro id hid
    obtain hproc | ⟨w, hw⟩ := hstat id hid
    · exact hdone id (h.processed id hproc)
    · exact hdone id (h.marks w id hw)
  · intro id medium hmem
    rw [eventAt_congr hrows]
    rw [hlog] at hmem
    exact h.logged id medium hmem
  · rw [hstore]
    exact h.campaign
  · rw [hstore, hlog, hrows]
    exact h.budget

/-- A row is created. -/
theorem enqueue (h : OrderInv cfg camp start s) (event : ManagementEvent) :
    OrderInv cfg camp start (s.enqueue event) := by
  have hnum : Numbered (s.enqueue event).rows := h.numbered.append rfl
  have hat (i : ℕ) (hi : i < s.rows.length) : (s.enqueue event).rows[i]? = s.rows[i]? :=
    getElem?_append_left hi
  have hkept (id : ℕ) (old : ManagementEvent) (hold : eventAt id s.rows = some old) :
      eventAt id (s.enqueue event).rows = some old := by
    obtain ⟨row, hrow, -⟩ := Option.map_eq_some_iff.mp hold
    rw [eventAt, hat id (List.getElem?_eq_some_iff.mp hrow).1]
    exact hold
  have hdone (id : ℕ) (hid : IsDone camp s id) : IsDone camp (s.enqueue event) id := by
    obtain ⟨old, hold, hlog⟩ := hid
    exact ⟨old, hkept id old hold, hlog⟩
  refine ⟨hnum, ?_, ?_, ?_, ?_, h.campaign, ?_⟩
  · intro w row hrow
    exact hkept _ _ (h.copies w row hrow)
  · intro w id hid
    exact hdone id (h.marks w id hid)
  · intro id hid
    obtain ⟨row, hrow, hstat⟩ := Option.map_eq_some_iff.mp hid
    rw [OutboxSystem.enqueue, getElem?_append] at hrow
    split at hrow
    · refine hdone id (h.processed id ?_)
      rw [statusAt, hrow, Option.map_some, hstat]
    rw [getElem?_singleton] at hrow
    split at hrow
    · cases hrow
      cases hstat
    · cases hrow
  · intro id medium hmem
    obtain ⟨old, hold⟩ := Option.isSome_iff_exists.mp (h.logged id medium hmem)
    rw [hkept id old hold]
    rfl
  · have hnew : executed camp s.log (s.rows.length, event) = false := by
      rw [executed, Bool.and_eq_false_iff]
      refine .inr (decide_eq_false fun hmem => ?_)
      have hlog := h.logged _ _ hmem
      rw [eventAt, getElem?_eq_none (Nat.le_refl _)] at hlog
      cases hlog
    have hcont : contents (s.enqueue event).rows = contents s.rows ++ [(s.rows.length, event)] := by
      rw [contents, OutboxSystem.enqueue, map_append, contents]
      rfl
    rw [hcont]
    exact h.budget.trans (replay_append_of_not hnew).symm

/-- Rows are reclaimed. -/
theorem reclaim (h : OrderInv cfg camp start s) (now : ℤ) : OrderInv cfg camp start (s.reclaim now) := by
  refine h.of_rows rfl rfl (contents_map fun row => ?_) ?_ (fun w row hrow => .inl hrow)
    fun w id hid => hid
  · split
    · rfl
    · rfl
  · intro id hid
    rw [statusAt, OutboxSystem.reclaim, getElem?_map, Option.map_map] at hid
    obtain ⟨row, hrow, hstat⟩ := Option.map_eq_some_iff.mp hid
    dsimp only [Function.comp] at hstat
    split at hstat
    · cases hstat
    · refine .inl ?_
      rw [statusAt, hrow, Option.map_some, hstat]

section

variable [DecidableEq W] {row : ManagementRow} {rest : List ManagementRow}
  {processedIDs revertIDs : List ℕ}

section

variable (h : OrderInv cfg camp start s)
include h

/-- A statement on rows that makes none of them processed but those with a mark. -/
theorem of_update (w : W) (reply : Reply) (ids : List ℕ) (f : ManagementRow → ManagementRow)
    (batch : OutboxBatch) (hf : ∀ row, ((f row).id, (f row).event) = (row.id, row.event))
    (hmark : ∀ id ∈ ids, ∀ row, (f row).status = .processed → id ∈ (s.batches w).processedIDs)
    (hcopy : ∀ row ∈ batch.events, row ∈ s.rows) (hmarks : batch.processedIDs = []) :
    OrderInv cfg camp start
      ({ s with rows := reply.after s.rows (s.updateRows ids f) }.setBatch w batch) := by
  refine h.of_rows rfl rfl (contents_after_updateRows reply hf) ?_ ?_ ?_
  · intro id hproc
    by_cases hreach : reply ≠ .failed ∧ id ∈ ids
    · have hstat := statusAt_after_updateRows (f := f) h.numbered hreach.1 hreach.2
      obtain ⟨row, -, hrow⟩ := Option.map_eq_some_iff.mp (hstat.symm.trans hproc)
      exact .inr ⟨w, hmark id hreach.2 row hrow⟩
    · refine .inl (Eq.trans ?_ hproc)
      exact (statusAt_after_updateRows_of_not h.numbered hreach).symm
  · exact (Function.forall_update_iff s.batches fun w' b => ∀ row ∈ b.events,
      row ∈ (s.batches w').events ∨ row ∈ s.rows).mpr
        ⟨fun row hrow => .inr (hcopy row hrow), fun w' _ row hrow => .inl hrow⟩
  · refine (Function.forall_update_iff s.batches fun w' b => ∀ id ∈ b.processedIDs,
      id ∈ (s.batches w').processedIDs).mpr ⟨?_, fun w' _ id hmem => hmem⟩
    rw [hmarks]
    exact fun id hmem => absurd hmem not_mem_nil

/-- A worker takes a batch. -/
theorem fetch (w : W) (limit : ℕ) (now : ℤ) (reply : Reply) :
    OrderInv cfg camp start (s.fetch w limit now reply) := by
  unfold OutboxSystem.fetch
  split
  · refine h.of_update w reply _ _ _ (fun _ => rfl) ?_ ?_ rfl
    · intro id _ row hproc
      cases hproc
    · intro row hrow
      split at hrow
      · exact (mem_getPendingOutboxEventsForUpdate (mem_fetched hrow)).1
      · cases hrow
  · exact h

/-- A worker marks the handled rows of its batch. -/
theorem markProcessed (w : W) (reply : Reply) : OrderInv cfg camp start (s.markProcessed w reply) := by
  unfold OutboxSystem.markProcessed
  split
  · rename_i processedIDs revertIDs hbatch
    refine h.of_update w reply _ _ _ (fun _ => rfl) ?_ ?_ rfl
    · intro id hid _ _
      rw [hbatch]
      exact hid
    · intro row hrow
      cases hrow
  · exact h

/-- A worker reverts the failed rows of its batch. -/
theorem revert (w : W) (reply : Reply) : OrderInv cfg camp start (s.revert w reply) := by
  unfold OutboxSystem.revert
  split
  · refine h.of_update w reply _ _ _ (fun _ => rfl) ?_ ?_ rfl
    · intro id _ row hproc
      cases hproc
    · intro row hrow
      cases hrow
  · exact h

/-- A worker loses its batch. -/
theorem crash (w : W) : OrderInv cfg camp start (s.setBatch w ⟨[], [], []⟩) := by
  have hupd := h.of_update w .failed [] id ⟨[], [], []⟩ (fun _ => rfl)
    (fun _ hid => absurd hid not_mem_nil) (fun _ hrow => absurd hrow not_mem_nil) rfl
  exact hupd

section

variable {w : W} (hbatch : s.batches w = ⟨row :: rest, processedIDs, revertIDs⟩)
include hbatch

/-- A row is handled: a success of a command means that it is executed, and the budget is the one of the
commands that the new log names. -/
theorem of_handled (handled : Handled)
    (hsucceeded : handled.ok = true → row.event.isCommandOf camp = true → .redis ∈ handled.effects)
    (hcamp : handled.store.pg.campaigns.get? camp = s.store.pg.campaigns.get? camp)
    (hbudget : campaignBudget cfg camp handled.store =
      replay (fun value item => applyEvent camp start.pg value item.2)
        (executed camp (s.log ++ handled.effects.map fun medium => (row.id, medium)))
        (campaignBudget cfg camp start) (contents s.rows)) :
    OrderInv cfg camp start
      (s.afterHandled w row.id handled (.handled row rest processedIDs revertIDs handled.ok)) := by
  rw [afterHandled, OutboxBatch.handled]
  have hcopy := h.copies w
  have hmarks := h.marks w
  rw [hbatch] at hcopy hmarks
  have hevent := hcopy row mem_cons_self
  have hdone (id : ℕ) (hid : IsDone camp s id) :
      IsDone camp { s with log := s.log ++ handled.effects.map fun medium => (row.id, medium) } id := by
    obtain ⟨event, hkept, hlog⟩ := hid
    exact ⟨event, hkept, fun hcmd => mem_append_left _ (hlog hcmd)⟩
  refine ⟨h.numbered, ?_, ?_, ?_, ?_, hcamp.trans h.campaign, hbudget⟩
  · refine (Function.forall_update_iff s.batches fun _ b => ∀ row ∈ b.events,
      eventAt row.id s.rows = some row.event).mpr ⟨fun other hother => ?_, fun w' _ => h.copies w'⟩
    refine hcopy other (mem_cons_of_mem row ?_)
    split at hother
    · exact hother
    · exact hother
  · refine (Function.forall_update_iff s.batches fun _ b => ∀ id ∈ b.processedIDs,
      IsDone camp { s with log := _ } id).mpr ⟨fun id hid => ?_,
        fun w' _ id hid => hdone id (h.marks w' id hid)⟩
    split at hid
    · rename_i hok
      obtain hid | hid := mem_append.mp hid
      · exact hdone id (hmarks id hid)
      · rw [mem_singleton.mp hid]
        refine ⟨row.event, hevent, fun hcmd => mem_append_right _ ?_⟩
        exact mem_map_of_mem (hsucceeded hok hcmd)
    · exact hdone id (hmarks id hid)
  · intro id hid
    exact hdone id (h.processed id hid)
  · intro id medium hmem
    obtain hmem | hmem := mem_append.mp hmem
    · exact h.logged id medium hmem
    · obtain ⟨_, -, heq⟩ := mem_map.mp hmem
      rw [← (Prod.mk.inj heq).1]
      exact Option.isSome_iff_exists.mpr ⟨row.event, hevent⟩

/-- An event that is no command of the campaign is handled. -/
theorem handle_other {handled : Handled} (hcmd : row.event.commandOf camp = none)
    (hleave : Leaves cfg camp s.store handled) :
    OrderInv cfg camp start
      (s.afterHandled w row.id handled (.handled row rest processedIDs revertIDs handled.ok)) := by
  have hnot : row.event.isCommandOf camp = false := by
    rw [isCommandOf, hcmd, Option.isSome_none]
  refine h.of_handled hbatch handled ?_ hleave.campaign ?_
  · intro _ hcmd
    rw [hnot] at hcmd
    cases hcmd
  · refine (hleave.budget.trans h.budget).trans (replay_congr fun item hitem => ?_).symm
    by_cases hid : item.1 = row.id
    · have hevent := h.copies w row (by rw [hbatch]; exact mem_cons_self)
      obtain ⟨stored, hstored, rfl⟩ := mem_map.mp hitem
      have hitem := h.numbered.eventAt_of_mem hstored
      rw [show stored.id = row.id from hid, hevent, Option.some_inj] at hitem
      rw [executed, ← hitem, hnot, Bool.false_and, executed, hnot, Bool.false_and]
    · exact executed_append (.inl hid)

/-- A command of the campaign is handled while no later one has been executed. -/
theorem handle_command {redis : Reply} {handled : Handled} {command : BudgetCommand}
    (hcmd : row.event.commandOf camp = some command)
    (hexecutes : Executes cfg camp redis command s.store handled)
    (hlater : ∀ later ∈ s.rows, row.id < later.id → later.event.isCommandOf camp = true →
      (later.id, Medium.redis) ∉ s.log) :
    OrderInv cfg camp start
      (s.afterHandled w row.id handled (.handled row rest processedIDs revertIDs handled.ok)) := by
  have hevent := h.copies w row (by rw [hbatch]; exact mem_cons_self)
  have hcamp : handled.store.pg.campaigns.get? camp =
      s.store.pg.campaigns.get? camp := by rw [hexecutes.pg]
  refine h.of_handled hbatch handled (fun hok _ => hexecutes.succeeded hok) hcamp ?_
  by_cases heff : Medium.redis ∈ handled.effects
  · obtain ⟨before, after, hcont, hpre, hafter⟩ := contents_split h.numbered hevent
    have hundone (item : ℕ × ManagementEvent) (hitem : item ∈ after) :
        executed camp s.log item = false := by
      have hmem : item ∈ contents s.rows := by
        rw [hcont]
        exact mem_append_right _ (mem_cons_of_mem _ hitem)
      obtain ⟨later, hrow, rfl⟩ := mem_map.mp hmem
      rw [executed, Bool.and_eq_false_imp]
      intro hcmd
      exact decide_eq_false (hlater later hrow (hafter _ hitem) hcmd)
    have happly (value : Option ℤ) : applyEvent camp start.pg value row.event =
        command.apply start.pg value := by
      rw [applyEvent, hcmd]
    have hstate : campaignBudget cfg camp handled.store =
        applyEvent camp start.pg (campaignBudget cfg camp s.store) row.event := by
      rw [hexecutes.executed heff, apply_congr hcmd h.campaign, happly]
    rw [hstate, h.budget, hcont]
    symm
    refine replay_execute ?_ ?_ ?_ ?_
    · intro value
      rw [happly, happly, apply_idem]
    · intro item hitem
      exact executed_append (.inl (Nat.ne_of_lt (hpre item hitem)))
    · rw [executed, isCommandOf, hcmd, Option.isSome_some, Bool.true_and]
      exact decide_eq_true (mem_append_right _ (mem_map_of_mem heff))
    · intro item hitem
      refine ⟨hundone item hitem, ?_⟩
      rw [executed_append (.inl (Nat.ne_of_gt (hafter item hitem)))]
      exact hundone item hitem
  · rw [hexecutes.skipped heff, h.budget]
    exact (replay_congr fun item _ => executed_append (.inr heff)).symm

end

/-- A worker handles the next row of its batch. -/
theorem handle {shard : ℕ} (hshard : cfg.getRDB camp = some shard) (w : W) (faults : Faults)
    (hok : InOrder camp s (.handle w faults)) : OrderInv cfg camp start (s.handle cfg w faults) := by
  unfold OutboxSystem.handle
  split
  · rename_i row rest processedIDs revertIDs hbatch
    have hstep := hok row (by rw [hbatch]; rfl)
    cases hcmd : row.event.commandOf camp with
    | none =>
      rw [hcmd] at hstep
      exact h.handle_other hbatch hcmd (handleManagementEvent_leaves hcmd hstep)
    | some command =>
      rw [hcmd] at hstep
      obtain ⟨hread, hlater⟩ := hstep
      exact h.handle_command hbatch hcmd (handleManagementEvent_executes hcmd hshard hread) hlater
  · exact h

/-- A step in order keeps the invariant. -/
theorem step {shard : ℕ} (hshard : cfg.getRDB camp = some shard) (a : OutboxAction W)
    (hok : InOrder camp s a) : OrderInv cfg camp start (s.step cfg a) := by
  cases a with
  | enqueue event => exact h.enqueue event
  | reclaim now => exact h.reclaim now
  | fetch w limit now reply => exact h.fetch w limit now reply
  | handle w faults => exact h.handle hshard w faults hok
  | markProcessed w reply => exact h.markProcessed w reply
  | revert w reply => exact h.revert w reply
  | crash w => exact h.crash w

end

end

/-- Rows that wait for a first attempt. -/
theorem of_pending (hnum : Numbered s.rows) (hpend : ∀ row ∈ s.rows, row.status = .pending)
    (hlog : s.log = []) (hidle : ∀ w, s.batches w = ⟨[], [], []⟩) : OrderInv cfg camp s.store s := by
  refine ⟨hnum, ?_, ?_, ?_, ?_, rfl, ?_⟩
  · intro w row hrow
    rw [hidle w] at hrow
    cases hrow
  · intro w id hid
    rw [hidle w] at hid
    cases hid
  · intro id hid
    obtain ⟨row, hrow, hstat⟩ := Option.map_eq_some_iff.mp hid
    rw [hpend row (mem_of_getElem? hrow)] at hstat
    cases hstat
  · intro id medium hmem
    rw [hlog] at hmem
    cases hmem
  · refine (replay_of_none fun item _ => ?_).symm
    rw [executed, hlog, Bool.and_eq_false_imp]
    intro _
    exact decide_eq_false not_mem_nil

/-- Once all commands of the campaign are processed, all of them count. -/
theorem budget_of_processed (h : OrderInv cfg camp start s)
    (hproc : ∀ row ∈ s.rows, row.event.isCommandOf camp = true → row.status = .processed) :
    campaignBudget cfg camp s.store =
      ((s.rows.map ManagementRow.event).filter (·.isCommandOf camp)).foldl (applyEvent camp start.pg)
        (campaignBudget cfg camp start) := by
  have hall (item : ℕ × ManagementEvent) (hitem : item ∈ contents s.rows) :
      executed camp s.log item = item.2.isCommandOf camp := by
    obtain ⟨row, hrow, rfl⟩ := mem_map.mp hitem
    rw [executed, Bool.and_eq_left_iff_imp]
    intro hcmd
    have hget := h.numbered.getElem?_id hrow
    obtain ⟨event, hevent, hlog⟩ := h.processed row.id (by
      rw [statusAt, hget, Option.map_some, hproc row hrow hcmd])
    rw [eventAt, hget, Option.map_some, Option.some_inj] at hevent
    refine decide_eq_true (hlog ?_)
    rw [← hevent]
    exact hcmd
  rw [h.budget, replay_congr hall, replay, contents, filter_map, filter_map, foldl_map, foldl_map]
  rfl

end OrderInv

/-- The commands of a campaign, without failures, leave the value of their fold. -/
theorem campaignBudget_applyCommands {cfg : ShardConfig} {camp : UUID} {shard : ℕ}
    (hshard : cfg.getRDB camp = some shard) (events : List ManagementEvent) (s : ControlStore) :
    campaignBudget cfg camp (applyCommands cfg camp events s) =
      (events.filter (·.isCommandOf camp)).foldl (applyEvent camp s.pg) (campaignBudget cfg camp s) := by
  rw [applyCommands]
  have hcmds : ∀ event ∈ events.filter (·.isCommandOf camp),
      event.isCommandOf camp = true := fun event hevent => (mem_filter.mp hevent).2
  generalize events.filter (·.isCommandOf camp) = commands at hcmds ⊢
  induction commands generalizing s with
  | nil => rfl
  | cons event rest ih =>
    obtain ⟨command, hcmd⟩ :=
      Option.isSome_iff_exists.mp (hcmds event mem_cons_self)
    have hexecutes := handleManagementEvent_executes (s := s) hcmd hshard
      (.inr (rfl : noFaults.read = true))
    rw [foldl_cons, foldl_cons,
      ih _ fun later hlater => hcmds later (mem_cons_of_mem event hlater), hexecutes.pg,
      hexecutes.answered Reply.noConfusion]
    rw [applyEvent, hcmd]

/-- In a run from waiting rows whose steps keep to the order, once all commands of a campaign are
processed its budget key is the one that they leave in the order of their creation. -/
theorem commands_apply_in_order [DecidableEq W] (cfg : ShardConfig) (campaignID : UUID)
    (start : OutboxSystem W) (hnumbered : Numbered start.rows)
    (hpending : ∀ row ∈ start.rows, row.status = .pending) (hlog : start.log = [])
    (hidle : ∀ w, start.batches w = ⟨[], [], []⟩) (actions : List (OutboxAction W))
    (hrun : Admissible (InOrder campaignID) (OutboxSystem.step cfg) start actions)
    (hprocessed : ∀ row ∈ (run (OutboxSystem.step cfg) start actions).rows,
      row.event.isCommandOf campaignID = true → row.status = .processed) :
    campaignBudget cfg campaignID (run (OutboxSystem.step cfg) start actions).store =
      campaignBudget cfg campaignID (applyCommands cfg campaignID
        ((run (OutboxSystem.step cfg) start actions).rows.map ManagementRow.event) start.store) := by
  cases hshard : cfg.getRDB campaignID with
  | none => rw [campaignBudget, hshard, Option.bind_none, campaignBudget, hshard, Option.bind_none]
  | some shard =>
    have hinv := @Admissible.invariant _ _ (InOrder campaignID) (OutboxSystem.step cfg)
      (OrderInv cfg campaignID start.store) (fun s a hok h => h.step hshard a hok) start actions hrun
      (OrderInv.of_pending hnumbered hpending hlog hidle)
    rw [hinv.budget_of_processed hprocessed, campaignBudget_applyCommands hshard]

/-- Two commands for the sample campaign that wait together, half a unit of its budget spent. -/
def sampleCommands (first second : ManagementEvent) : OutboxSystem Unit where
  rows := [⟨0, first, .pending, none⟩, ⟨1, second, .pending, none⟩]
  store :=
    { pg := { sampleAccount 0 0 with
        campaigns := Table.empty.insert sampleCampaign ⟨sampleCustomer, 100000000, 500000, .active⟩ }
      rdbs := fun _ => Redis.empty }
  log := []
  batches := fun _ => ⟨[], [], []⟩

/-- The payload of the sample commands. -/
def samplePayload : CampaignPayload := ⟨sampleCampaign, 100000000⟩

/-- One batch with both commands. -/
def sampleCommandBatch (first : Faults) : List (OutboxAction Unit) :=
  [.fetch () 10 0 .received, .handle () first, .handle () noFaults, .markProcessed () .received,
    .revert () .received]

/-- A pause and then a resumption are handled in the order of their creation. -/
theorem commands_apply_in_order_resumed :
    let start := sampleCommands (.pauseCampaign samplePayload) (.resumeCampaign samplePayload)
    campaignBudget sampleShards sampleCampaign
        (run (OutboxSystem.step sampleShards) start (sampleCommandBatch noFaults)).store = some 99500000 ∧
      campaignBudget sampleShards sampleCampaign
        (run (OutboxSystem.step sampleShards) start (sampleCommandBatch noFaults)).store =
      campaignBudget sampleShards sampleCampaign (applyCommands sampleShards sampleCampaign
        ((run (OutboxSystem.step sampleShards) start (sampleCommandBatch noFaults)).rows.map
          ManagementRow.event) start.store) := by
  intro start
  refine ⟨by decide +kernel, ?_⟩
  have hpause : (pauseCampaign samplePayload).commandOf sampleCampaign = some .delete := by
    rw [commandOf]
    exact if_pos rfl
  have hresume : (resumeCampaign samplePayload).commandOf sampleCampaign =
      some (.set samplePayload) := by
    rw [commandOf]
    exact if_pos rfl
  refine commands_apply_in_order sampleShards sampleCampaign start
    ((numbered_nil.append rfl).append rfl) (by decide) rfl (fun _ => rfl) _ ?_ (by decide +kernel)
  refine ⟨trivial, ?_, ?_, trivial, trivial, trivial⟩
  · intro row hrow
    cases hrow
    rw [hpause]
    exact ⟨.inl rfl, by decide +kernel⟩
  · intro row hrow
    cases hrow
    rw [hresume]
    exact ⟨.inr rfl, by decide +kernel⟩

/-- A resumption and then a pause wait together, or a pause that fails once and then a resumption. In
creation order the key is missing in the first case and set in the second; the worker leaves the opposite.
-/
theorem commands_apply_out_of_order :
    let overtaken := sampleCommands (.resumeCampaign samplePayload) (.pauseCampaign samplePayload)
    let reached := run (OutboxSystem.step sampleShards) overtaken (sampleCommandBatch noFaults)
    let retried := sampleCommands (.pauseCampaign samplePayload) (.resumeCampaign samplePayload)
    let reached' := run (OutboxSystem.step sampleShards) retried
      (sampleCommandBatch ⟨true, .failed, .received, id⟩ ++ [.fetch () 10 5 .received, .handle () noFaults,
        .markProcessed () .received, .revert () .received])
    (∀ row ∈ reached.rows, row.status = .processed) ∧
      campaignBudget sampleShards sampleCampaign reached.store = some 99500000 ∧
      campaignBudget sampleShards sampleCampaign (applyCommands sampleShards sampleCampaign
        (reached.rows.map ManagementRow.event) overtaken.store) = none ∧
      (∀ row ∈ reached'.rows, row.status = .processed) ∧
      campaignBudget sampleShards sampleCampaign reached'.store = none ∧
      campaignBudget sampleShards sampleCampaign (applyCommands sampleShards sampleCampaign
        (reached'.rows.map ManagementRow.event) retried.store) = some 99500000 := by
  decide +kernel

end Espx.ControlPlane
