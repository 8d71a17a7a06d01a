import Espx.Settlement.HotPath
import Espx.SlotMigration.Deltas

/-!
# What debits report to a migration

While the flag of the migration is set, a debit of either script leaves an entry in the delta stream:
applied to another shard, the entry does to a campaign's spend key and counter there what the debit did
here.
-/

namespace Espx.Ingestion

open Espx.Foundation Espx.Domain

/-- How the delta stream of a server shows what was taken: it has an entry for it, or it is as before
and nothing was taken or the flag is not set. -/
def Shows (r after : Redis) (spendKey campaignID : String) (amount taken : ℤ) : Prop :=
  after.streams dualWriteStream = r.streams dualWriteStream ∧ (taken = 0 ∨ r.text dualWriteFlag = none) ∨
    after.streams dualWriteStream =
        r.streams dualWriteStream ++ [dualWriteEntry spendKey campaignID amount] ∧ taken = amount

/-- The fast script shows what it takes. -/
theorem BudgetFastCall.run_shows (c : BudgetFastCall) (r : Redis) (h : c.streamKey ≠ dualWriteStream) :
    Shows r (c.run r).2 c.keys.spendKey c.event.campaignID c.amount (c.charged r) := by
  rcases c.run_cases r with ⟨hcode, href⟩ | ⟨hcode, hnone, -, hrun⟩
  · have hzero : c.charged r = 0 := if_pos (hcode.imp id And.right)
    exact .inl ⟨congrFun href.frame.2.2.2 _, .inl hzero⟩
  have hprice : c.charged r = c.price := if_neg (by simp [hcode, hnone])
  obtain ⟨htext, -, -, hstr⟩ := c.precheck.countIngress_frame r
  rw [Shows, hrun, hprice, price, c.accept_streams, Redis.xadd_streams_of_ne _ _ h.symm, ← htext, ← hstr]
  cases c.skipBudget with
  | true => exact .inl ⟨rfl, .inl rfl⟩
  | false =>
    simp only [Bool.false_eq_true, if_false, debit_streams]
    by_cases hflag : ((c.precheck.countIngress r).text dualWriteFlag).isSome
    · rw [if_pos hflag, Redis.xadd_streams_self]
      exact .inr ⟨rfl, trivial⟩
    · rw [if_neg hflag]
      exact .inl ⟨rfl, .inr (Option.not_isSome_iff_eq_none.mp hflag)⟩

/-- The full script shows what it takes. -/
theorem UnifiedCall.run_shows (c : UnifiedCall) (r : Redis) (h : c.streamKey ≠ dualWriteStream) :
    Shows r (c.run r).2 c.spendKey c.event.campaignID c.amount (c.charged r) := by
  rcases c.run_cases r with ⟨hcode, href⟩ | ⟨hcode, hnone, budget, -, -, hrun⟩
  · have hzero : c.charged r = 0 := if_pos (hcode.imp id And.right)
    exact .inl ⟨congrFun href.frame.2.2.2 _, .inl hzero⟩
  have hprice : c.charged r = c.price := if_neg (by simp [hcode, hnone])
  obtain ⟨htext, -, -, hstr⟩ := c.precheck.countIngress_frame r
  rw [Shows, hrun, hprice, price, c.accept_streams, Redis.xadd_streams_of_ne _ _ h.symm, ← htext, ← hstr]
  cases c.skipBudget with
  | true => exact .inl ⟨by simp, .inl rfl⟩
  | false =>
    by_cases hflag : ((c.precheck.countIngress r).text dualWriteFlag).isSome
    · rw [if_pos ⟨rfl, hflag⟩, Redis.xadd_streams_self]
      exact .inr ⟨rfl, rfl⟩
    · rw [if_neg fun h => hflag h.2]
      exact .inl ⟨rfl, .inr (Option.not_isSome_iff_eq_none.mp hflag)⟩

namespace FilterExecution

variable (x : FilterExecution)

/-- The entry with which an execution reports its debit. -/
def report : List (String × String) :=
  dualWriteEntry x.call.spendKey (uuidString x.event.campaignID) x.call.amount

/-- An execution of either script shows what it takes. -/
theorem execute_shows (r : Redis) (h : x.filter.streamName ≠ dualWriteStream) :
    Shows r (x.execute r).2 x.call.spendKey (uuidString x.event.campaignID) x.call.amount
      (x.debited r) := by
  have hid : x.call.event.campaignID = uuidString x.event.campaignID := by
    rw [← x.registered]
    rfl
  rw [← hid]
  unfold execute debited
  cases x.path with
  | fast => exact x.fastCall.run_shows r h
  | full => exact x.call.run_shows r h

end FilterExecution

end Espx.Ingestion

namespace Espx.SlotMigration

open Espx.Foundation Espx.Domain Espx.Ingestion

section

variable (texts : Texts) (counter : String)

/-- What entries add to a counter when they are applied. -/
def owed (entries : List Entry) : ℤ :=
  ((entries.flatMap (entryCommands texts)).map (Command.adds counter)).sum

theorem owed_append (first second : List Entry) :
    owed texts counter (first ++ second) = owed texts counter first + owed texts counter second := by
  rw [owed, List.flatMap_append, List.map_append, List.sum_append]
  rfl

theorem owed_cons (entry : Entry) (rest : List Entry) :
    owed texts counter (entry :: rest) = owed texts counter [entry] + owed texts counter rest :=
  owed_append texts counter [entry] rest

end

section

/-- The keys that a campaign's debits are taken from and counted in. -/
def Counter (id : UUID) (key : String) : Prop := SpendKey id key ∨ key = campaignSyncKey id

variable {id : UUID} {key : String}

theorem Counter.money (h : Counter id key) : MoneyKey key := by
  rcases h with h | rfl
  · exact h.money
  · exact MoneyKey.campaignSync id

theorem Counter.ne_customerSync {id j u : UUID} (h : Counter id key) : key ≠ customerSyncKey j u := by
  rcases h with h | rfl
  · exact h.ne_customerSync
  · exact campaignSyncKey_ne_customerSyncKey _ _ _

theorem Counter.unique {i j : UUID} (hi : Counter i key) (hj : Counter j key) : i = j := by
  rcases hi with hi | hi <;> rcases hj with hj | hj
  · exact hi.campaign_eq hj
  · exact absurd hj hi.ne_campaignSync
  · exact absurd hi hj.ne_campaignSync
  · exact campaignSyncKey_inj (hi.symm.trans hj)

variable (texts : Texts) (x : FilterExecution)

/-- The execution debits the counter, if it debits anything. -/
def touches (counter : String) : Prop := counter = x.call.spendKey ∨ counter = x.call.campaignSyncKey

/-- An execution touches the counters of its own campaign. -/
theorem Counter.campaign_eq {x : FilterExecution} (h : Counter id key) (htouch : touches x key) :
    x.event.campaignID = id := by
  refine Counter.unique ?_ h
  rcases htouch with rfl | rfl
  · exact .inl x.spendKey_of_campaign
  · exact .inr x.campaignSyncKey_eq

/-- The report can be read back: `uuid.Parse` inverts what the scripts write, and the amount has 64 bits. -/
def readable : Bool :=
  texts.parseUUID (uuidString x.event.campaignID) = some x.event.campaignID ∧
    -2 ^ 63 ≤ x.call.amount ∧ x.call.amount < 2 ^ 63

variable {texts} {x}

/-- A report is read as the debit that it reports. -/
theorem parse_report (h : readable texts x) : parseSlotMigrationDelta texts x.report =
    some ⟨x.event.campaignID, x.call.amount, x.call.spendKey⟩ := by
  obtain ⟨huuid, hrange⟩ := of_decide_eq_true h
  have hint := parseInt_repr hrange
  simp [parseSlotMigrationDelta, FilterExecution.report, dualWriteEntry, List.lookup_cons, huuid, hint]

/-- What the report of an execution owes to a counter. -/
theorem owed_report (h : readable texts x) (counter : String) :
    owed texts counter [x.report] =
      (if counter = x.call.spendKey then -x.call.amount else 0) +
        (if counter = x.call.campaignSyncKey then x.call.amount else 0) := by
  rw [owed, List.flatMap_singleton, entryCommands, parse_report h, x.campaignSyncKey_eq]
  simp only [Delta.effect]
  split
  · rename_i hzero
    simp [hzero]
  · simp [Delta.commands, Command.adds]

/-- What an execution does to the counters of a campaign. -/
theorem execute_count {counter : String} (hcount : Counter id counter) (r : Redis) :
    (x.execute r).2.count counter = r.count counter +
      (if counter = x.call.spendKey then -x.debited r else 0) +
        (if counter = x.call.campaignSyncKey then x.debited r else 0) := by
  have hne : counter ≠ x.call.customerSyncKey := by
    exact hcount.ne_customerSync
  rw [x.execute_books r counter hcount.money, if_neg hne, add_zero]

/-- A counter stays where nothing is debited or the execution does not touch it. -/
theorem execute_count_same {counter : String} (hcount : Counter id counter) {r : Redis}
    (h : x.debited r = 0 ∨ ¬ touches x counter) : (x.execute r).2.count counter = r.count counter := by
  rw [execute_count hcount]
  rcases h with hzero | htouch
  · simp [hzero]
  · rw [if_neg fun heq => htouch (.inl heq), if_neg fun heq => htouch (.inr heq)]
    simp

/-- What an execution does to the counters of a campaign is what its report owes to them, where the
flag is set; without the flag it reports nothing. -/
theorem execute_owed (h : readable texts x) (hstr : x.filter.streamName ≠ dualWriteStream)
    (r : Redis) : ∃ more, (x.execute r).2.streams dualWriteStream = r.streams dualWriteStream ++ more ∧
      ∀ id counter, Counter id counter →
        (r.text dualWriteFlag).isSome ∨ x.debited r = 0 ∨ ¬ touches x counter →
        (x.execute r).2.count counter = r.count counter + owed texts counter more := by
  rcases x.execute_shows r hstr with ⟨hsame, hwhy⟩ | ⟨hmore, htaken⟩
  · refine ⟨[], by rw [hsame, List.append_nil], fun id counter hcount hcond => ?_⟩
    have hstays : x.debited r = 0 ∨ ¬ touches x counter := by
      rcases hcond with hflag | hstays
      · exact .inl (hwhy.resolve_right (Option.isSome_iff_ne_none.mp hflag))
      · exact hstays
    exact (execute_count_same hcount hstays).trans (add_zero _).symm
  · refine ⟨[x.report], hmore, fun id counter hcount _ => ?_⟩
    rw [execute_count hcount, owed_report h, htaken, add_assoc]

end

end Espx.SlotMigration
