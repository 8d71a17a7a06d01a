import Espx.Settlement.ExactlyOnce
import Espx.Settlement.Fleet
import Mathlib.Algebra.Order.BigOperators.Group.Finset

/-!
# No overspend through cache recovery

A recovery ignores the spend that has not reached the database and the keys of other shards, so it may
hand out the same money twice. Where every key is written only when all spend is settled, the snapshot
leaves no more than the database and no other key holds anything, what is left, outstanding and settled
stays within the limit, and so does all that is ever accepted.
-/

namespace Espx.Settlement

open Espx.Foundation Espx.Domain Espx.Ingestion Redis Function Finset

namespace Fleet

variable {k : ℕ} {W : Type*} (id customerID : UUID) (threshold : ℤ)

/-- Each shard keeps the settlement invariant, no two shards store one id, no accepted debit is lost or
counted twice, and all money is within the limit. -/
structure FleetInv (bound base : ℤ) (s : Fleet k W) : Prop where
  shard : ∀ n, ∃ b, SettlementState.Inv id b (s.view n)
  tx_distinct : ∀ m n txID, (s.view m).tx id = some txID → (s.view n).tx id = some txID → m = n
  left_nonneg : ∀ n slot, 0 ≤ (s.redis n).count (slotKey id slot)
  registered : s.Registered id
  limit_eq : s.limit id = bound
  conserved : s.spend id + ∑ n, s.outstanding id n = base + s.accepted
  bounded : s.spend id + ∑ n, s.outstanding id n + ∑ n, s.left id n ≤ bound

section

variable {id customerID threshold} {bound base : ℤ} {s t : Fleet k W} {slot : Slot}

/-- A change of spend keys alone keeps the invariant if it stays within the limit. -/
theorem FleetInv.of_slots (h : FleetInv id bound base s) (hpg : t.pg = s.pg)
    (hreg : t.registry = s.registry) (hrefill : t.refill = s.refill) (hstage : t.stage = s.stage)
    (hacc : t.accepted = s.accepted) (hissue : t.issued = s.issued)
    (hwork : ∀ n, (t.view n).sync id = (s.view n).sync id ∧
      (t.view n).inFlight id = (s.view n).inFlight id ∧ (t.view n).tx id = (s.view n).tx id)
    (hnn : ∀ n slot, 0 ≤ (t.redis n).count (slotKey id slot))
    (hbound : s.spend id + ∑ n, s.outstanding id n + ∑ n, t.left id n ≤ bound) :
    FleetInv id bound base t := by
  have hspend : t.spend id = s.spend id := by rw [spend, hpg, spend]
  have hopen : ∀ n, t.outstanding id n = s.outstanding id n := by
    intro n
    obtain ⟨hsync, hflight, htx⟩ := hwork n
    have hhalf : (t.view n).halfDone id = (s.view n).halfDone id := by
      have hviewPg : (t.view n).pg = (s.view n).pg := hpg
      simp only [SettlementState.halfDone, htx, hviewPg]
    rw [outstanding, unsettled, hsync, hflight, hhalf, outstanding, unsettled]
  refine ⟨?_, ?_, hnn, ?_, ?_, ?_, ?_⟩
  · intro n
    obtain ⟨b, hinv⟩ := h.shard n
    obtain ⟨hsync, hflight, htx⟩ := hwork n
    refine ⟨b, hinv.of_same hsync hflight htx hpg (congrFun hstage n) hacc ?_ ?_⟩
    · change s.issued ⊆ t.issued
      rw [hissue]
    · change "" ∉ t.issued
      rw [hissue]
      exact hinv.issued_nonempty
  · intro m n txID hm hn
    exact h.tx_distinct m n txID ((hwork m).2.2.symm.trans hm) ((hwork n).2.2.symm.trans hn)
  · rw [Registered, hreg, hrefill]
    exact h.registered
  · rw [limit, hpg]
    exact h.limit_eq
  · rw [hspend, hacc, sum_congr rfl fun n _ => hopen n]
    exact h.conserved
  · rw [hspend, sum_congr rfl fun n _ => hopen n]
    exact hbound

section

variable (s : Fleet k W) (n : Fin k) {r : Redis}
  (hnum : ∀ key, key ≠ slotKey id slot → r.num key = (s.redis n).num key)
include hnum

/-- Writing a spend key of one shard touches no key of the workers. -/
theorem putRedis_worker (htext : r.text = (s.redis n).text) (m : Fin k) :
    ((s.putRedis n r).view m).sync id = (s.view m).sync id ∧
      ((s.putRedis n r).view m).inFlight id = (s.view m).inFlight id ∧
      ((s.putRedis n r).view m).tx id = (s.view m).tx id := by
  by_cases hm : m = n
  · subst hm
    have hredis : ((s.putRedis m r).view m).redis = r := update_self ..
    have hsync := campaignKeys_sync_ne_slot id slot
    have hflight : (campaignKeys id).inFlightKey ≠ slotKey id slot := by
      exact plain_ne_slotKey (by decide) id slot
    refine ⟨?_, ?_, ?_⟩
    · rw [SettlementState.sync, hredis, Redis.count, hnum _ hsync]
      rfl
    · rw [SettlementState.inFlight, hredis, Redis.count, hnum _ hflight]
      rfl
    · rw [SettlementState.tx, hredis, htext]
      rfl
  · have hredis : ((s.putRedis n r).view m).redis = (s.view m).redis := update_of_ne hm ..
    simp only [SettlementState.sync, SettlementState.inFlight, SettlementState.tx, hredis]
    exact ⟨trivial, trivial, trivial⟩

/-- Writing one spend key changes what is left by the difference. -/
theorem sum_left_putRedis :
    ∑ m, (s.putRedis n r).left id m =
      ∑ m, s.left id m + (r.count (slotKey id slot) - (s.redis n).count (slotKey id slot)) := by
  have hself : (s.putRedis n r).redis n = r := update_self ..
  have hchg : remaining id r = remaining id (s.redis n) +
      (r.count (slotKey id slot) - (s.redis n).count (slotKey id slot)) := by
    apply sum_of_single_change
    intro other hother
    rw [Redis.count, hnum _ fun heq => hother (slotKey_injective id heq), Redis.count]
  rw [@sum_of_single_change _ _ _ _ _ (fun m => (s.putRedis n r).left id m) (fun m => s.left id m) n]
  · simp only [left, hself, hchg]
    ring
  · intro m hm
    have hother : (s.putRedis n r).redis m = s.redis m := update_of_ne hm ..
    simp only [left, hother]

end

/-- Writing one spend key keeps the invariant when it is not negative and in the limit. -/
theorem FleetInv.putRedis (h : FleetInv id bound base s) (n : Fin k) {r : Redis}
    (hnum : ∀ key, key ≠ slotKey id slot → r.num key = (s.redis n).num key)
    (htext : r.text = (s.redis n).text) (hnn : 0 ≤ r.count (slotKey id slot))
    (hbound : s.spend id + ∑ m, s.outstanding id m + (∑ m, s.left id m +
      (r.count (slotKey id slot) - (s.redis n).count (slotKey id slot))) ≤ bound) :
    FleetInv id bound base (s.putRedis n r) := by
  refine h.of_slots rfl rfl rfl rfl rfl rfl (putRedis_worker s n hnum htext) ?_ ?_
  · refine (forall_update_iff s.redis fun _ r => ∀ slot, 0 ≤ r.count (slotKey id slot)).mpr
      ⟨fun other => ?_, fun m _ => h.left_nonneg m⟩
    by_cases hother : other = slot
    · rw [hother]
      exact hnn
    · rw [Redis.count, hnum _ fun heq => hother (slotKey_injective id heq)]
      exact h.left_nonneg n other
  · rw [sum_left_putRedis s n hnum]
    exact hbound

/-- A safe write of a missing spend key stays within the limit. -/
theorem FleetInv.refill (h : FleetInv id bound base s) {n : Fin k} {limit spend : ℤ}
    (hsafe : s.SafeRefill id n slot limit spend) :
    FleetInv id bound base
      (s.putRedis n (warmBudgetKeyNX (slotKey id slot) (remainingOf limit spend) (s.redis n))) := by
  have hbounded := h.bounded
  rw [remainingOf_eq_max]
  unfold warmBudgetKeyNX setNX
  split
  · apply h.putRedis n (fun _ _ => rfl) rfl (h.left_nonneg n slot)
    omega
  rename_i hmiss
  have hnone : (s.redis n).num (slotKey id slot) = none := by simpa using hmiss
  have hzero : (s.redis n).count (slotKey id slot) = 0 := by rw [Redis.count, hnone, Option.getD_none]
  refine h.putRedis n (fun _ hkey => setNum_num_of_ne _ _ hkey) rfl ?_ ?_
  · rw [setNum_count_self]
    exact le_max_left _ _
  · rw [setNum_count_self, hzero]
    rcases hsafe hnone with hnothing | ⟨hcurrent, hset, hothers⟩
    · omega
    · have hopen : ∑ m, s.outstanding id m = 0 := sum_eq_zero fun m _ => hset m
      have hleft : ∑ m, s.left id m = 0 := by
        apply sum_eq_zero
        intro m _
        rw [left, remaining]
        apply sum_eq_zero
        intro other _
        by_cases hsite : (m, other) = (n, slot)
        · obtain ⟨rfl, rfl⟩ := Prod.mk.inj hsite
          exact hzero
        · exact le_antisymm (hothers m other hsite) (h.left_nonneg m other)
      have hbound := h.limit_eq
      omega

/-- A write under way that goes on keeps the invariant, where what it has read is the campaign. -/
theorem FleetInv.goto (h : FleetInv id bound base s) (e : ℕ) {refill : Refill k}
    (hread : ∀ table camp, refill = .warming table camp →
      camp.id = id ∧ camp.budgetCampaignKey = budgetCampaignKey id) :
    FleetInv id bound base (s.goto e refill) := by
  refine { h with registered := ?_ }
  rintro camp (hcamp | ⟨e', table, hrefill⟩)
  · exact h.registered camp (.inl hcamp)
  change update s.refill e refill e' = _ at hrefill
  by_cases he : e' = e
  · rw [he, update_self] at hrefill
    exact hread table camp hrefill
  · rw [update_of_ne he] at hrefill
    exact h.registered camp (.inr ⟨e', table, hrefill⟩)

/-- A safe write keeps the invariant. -/
theorem FleetInv.written (h : FleetInv id bound base s) {e : ℕ} (hsafe : s.SafeWrite id (s.refill e)) :
    FleetInv id bound base (s.written id (s.refill e)) := by
  cases hrefill : s.refill e with
  | idle => exact h
  | recovering n slot point =>
    rw [hrefill] at hsafe
    cases point with
    | failed err | lookingUp =>
      have hsame : s.putRedis n (s.redis n) = s := by rw [Fleet.putRedis, update_eq_self]
      change FleetInv id bound base (s.putRedis n (s.redis n))
      rwa [hsame]
    | warming limit spend => exact h.refill hsafe
  | warming table camp =>
    rw [hrefill] at hsafe
    obtain ⟨hid, hkey⟩ := h.registered camp (.inr ⟨e, table, hrefill⟩)
    change FleetInv id bound base { s with redis := warmOne table camp s.redis }
    simp only [warmOne, hid, hkey]
    split
    · exact h
    split
    · rename_i hshard
      exact h.refill (hsafe hshard)
    · exact h

theorem put_view_self (s : Fleet k W) (n : Fin k) (v : SettlementState W) : (s.put n v).view n = v := by
  simp only [view, put, update_self]

theorem put_view_of_ne (s : Fleet k W) {m n : Fin k} (v : SettlementState W) (hm : m ≠ n) :
    (s.put n v).view m = { s.view m with pg := v.pg, accepted := v.accepted, issued := v.issued } := by
  simp only [view, put, update_of_ne hm]

/-- Ids stay distinct when the shard that was written stores none of another shard. -/
theorem FleetInv.tx_distinct_put (h : FleetInv id bound base s) {n : Fin k} {v : SettlementState W}
    (hfresh : ∀ m, m ≠ n → ∀ txID, (s.view m).tx id = some txID → v.tx id ≠ some txID) :
    ∀ m m' txID, ((s.put n v).view m).tx id = some txID →
      ((s.put n v).view m').tx id = some txID → m = m' := by
  have htxOther : ∀ m, m ≠ n → ((s.put n v).view m).tx id = (s.view m).tx id := by
    intro m hm
    rw [put_view_of_ne s v hm]
    rfl
  intro m m' txID hm hm'
  by_cases hmn : m = n
  · by_cases hmn' : m' = n
    · rw [hmn, hmn']
    · rw [hmn, put_view_self] at hm
      rw [htxOther m' hmn'] at hm'
      exact absurd hm (hfresh m' hmn' txID hm')
  · rw [htxOther m hmn] at hm
    by_cases hmn' : m' = n
    · rw [hmn', put_view_self] at hm'
      exact absurd hm' (hfresh m hmn txID hm)
    · rw [htxOther m' hmn'] at hm'
      exact h.tx_distinct m m' txID hm hm'

variable [DecidableEq W]

/-- An expiry gives nothing back. -/
theorem step_expire_fleet (h : FleetInv id bound base s) (n : Fin k) (slot : Slot) :
    FleetInv id bound base (s.step id customerID threshold (.expire n slot)) := by
  have hbound := h.bounded
  have hnn := h.left_nonneg n slot
  refine h.putRedis n (fun _ hkey => delNum_num_of_ne _ hkey) rfl ?_ ?_
  · rw [delNum_count_self]
  · rw [delNum_count_self]
    omega

/-- A step on one shard moves money within the limit. -/
theorem step_settle_fleet (h : FleetInv id bound base s) (n : Fin k) {a : SettlementAction W}
    (ha : (s.view n).Fresh a ∧ (s.view n).SafePrepare id a) :
    FleetInv id bound base (s.step id customerID threshold (.settle n a)) := by
  obtain ⟨b, hinv⟩ := h.shard n
  obtain ⟨v, hv⟩ : ∃ v, (s.view n).step id customerID threshold a = v := ⟨_, rfl⟩
  have hafter : SettlementState.Inv id b v := hv ▸ SettlementState.step_inv a ha hinv
  have hagree : SettlementState.AgreeExcept ((s.view n).tx id) s.pg v.pg :=
    hv ▸ SettlementState.step_agreeExcept hinv a
  have hissue : s.issued ⊆ v.issued := hv ▸ (s.view n).step_issued a
  have hslots : SettlementState.SlotEffect id (s.view n) v := hv ▸ SettlementState.step_slotEffect a
  have htx : ∀ txID, v.tx id = some txID → (s.view n).tx id = some txID ∨ txID ∉ s.issued := by
    intro txID hstored
    rw [← hv] at hstored
    exact SettlementState.step_tx hinv ha.1 hstored
  rw [step, hv]
  have hdist : ∀ m, m ≠ n → ∀ txID, (s.view m).tx id = some txID → (s.view n).tx id ≠ some txID :=
    fun m hm txID hstored hsame => hm (h.tx_distinct m n txID hstored hsame)
  have hkept : ∀ m, m ≠ n → ((s.put n v).view m).halfDone id = (s.view m).halfDone id ∧
      ∃ b, SettlementState.Inv id b ((s.put n v).view m) := by
    intro m hm
    obtain ⟨b', hinv'⟩ := h.shard m
    rw [put_view_of_ne s v hm]
    exact hinv'.of_agree hagree (hdist m hm) hafter.applied_issued hissue hafter.issued_nonempty
  have hleft : remaining id v.redis + v.accepted = s.left id n + s.accepted := hslots.remaining
  have houtstandingSum : ∑ m, (s.put n v).outstanding id m =
      ∑ m, s.outstanding id m + ((s.put n v).outstanding id n - s.outstanding id n) := by
    apply sum_of_single_change
    intro m hm
    rw [outstanding, (hkept m hm).1, unsettled, put_view_of_ne s v hm]
    rfl
  have hleftSum : ∑ m, (s.put n v).left id m =
      ∑ m, s.left id m + ((s.put n v).left id n - s.left id n) := by
    apply sum_of_single_change
    intro m hm
    simp only [left, put, update_of_ne hm]
  have houtstandingBefore : s.spend id + s.outstanding id n = b + s.accepted := by
    have htotal := hinv.total
    change s.spend id + (s.view n).inFlight id + (s.view n).sync id =
      b + s.accepted + (s.view n).halfDone id at htotal
    unfold outstanding unsettled
    omega
  have houtstandingAfter : (s.put n v).spend id + (s.put n v).outstanding id n = b + v.accepted := by
    have htotal := hafter.total
    change (s.put n v).spend id + v.inFlight id + v.sync id = b + v.accepted + v.halfDone id at htotal
    rw [outstanding, unsettled, put_view_self]
    omega
  have hleftAfter : (s.put n v).left id n = remaining id v.redis := by
    simp only [left, put, update_self]
  have hconserved := h.conserved
  have hbound := h.bounded
  refine ⟨?_, ?_, ?_, h.registered, ?_, ?_, ?_⟩
  · intro m
    by_cases hm : m = n
    · rw [hm, put_view_self]
      exact ⟨b, hafter⟩
    · exact (hkept m hm).2
  · apply h.tx_distinct_put
    intro m hm txID hstored hsame
    obtain hold | hnew := htx txID hsame
    · exact hdist m hm txID hstored hold
    · obtain ⟨b', hinv'⟩ := h.shard m
      exact hnew (hinv'.tx_issued txID hstored)
  · exact (forall_update_iff s.redis fun _ r => ∀ slot, 0 ≤ r.count (slotKey id slot)).mpr
      ⟨hslots.nonneg (h.left_nonneg n), fun m _ => h.left_nonneg m⟩
  · rw [← h.limit_eq]
    exact congrArg (·.getD 0) (hagree.limit id)
  · change _ = base + v.accepted
    omega
  · omega

/-- Every safe step keeps the invariant. -/
theorem step_fleet (a : FleetAction k W) (ha : s.Safe id a) (h : FleetInv id bound base s) :
    FleetInv id bound base (s.step id customerID threshold a) := by
  cases a with
  | settle n a => exact step_settle_fleet h n ha
  | expire n slot => exact step_expire_fleet h n slot
  | miss e n slot m => exact h.goto e fun _ _ hread => by cases hread
  | lookUp e =>
    rw [step]
    split
    · exact h.goto e fun _ _ hread => by cases hread
    · exact h
  | warm e table =>
    refine h.goto e fun table' camp hread => ?_
    cases hreg : s.registry with
    | none =>
      rw [hreg] at hread
      cases hread
    | some listed =>
      rw [hreg] at hread
      cases hread
      exact h.registered _ (.inl hreg)
  | write e executed =>
    rw [step]
    cases executed with
    | false => exact h.goto e fun _ _ hread => by cases hread
    | true => exact (h.written (ha rfl)).goto e fun _ _ hread => by cases hread
  | registrySync row =>
    refine { h with registered := ?_ }
    rintro camp (hcamp | hread)
    · obtain ⟨listed, hlisted, rfl⟩ := Option.map_eq_some_iff.mp hcamp
      obtain ⟨stored, -, rfl⟩ := Option.map_eq_some_iff.mp hlisted
      exact ⟨rfl, rfl⟩
    · exact h.registered camp (.inr hread)

end

/-- A state before any settlement, with all money within the limit. -/
structure FleetStart (s : Fleet k W) : Prop where
  shard : ∀ n, SettlementState.Start id (s.view n)
  left_nonneg : ∀ n slot, 0 ≤ (s.redis n).count (slotKey id slot)
  registered : s.Registered id
  accepted : s.accepted = 0
  bounded : s.spend id + ∑ n, s.unsettled id n + ∑ n, s.left id n ≤ s.limit id

/-- The invariant holds at the start. -/
theorem FleetStart.inv {s : Fleet k W} (h : FleetStart id s) :
    FleetInv id (s.limit id) (s.spend id + ∑ n, s.unsettled id n) s := by
  have hopen : ∀ n, s.outstanding id n = s.unsettled id n := by
    intro n
    have hhalf : (s.view n).halfDone id = 0 := by
      simp only [SettlementState.halfDone, (h.shard n).tx]
    rw [outstanding, hhalf, sub_zero]
  refine ⟨fun n => ⟨_, (h.shard n).inv⟩, ?_, h.left_nonneg, h.registered, rfl, ?_, ?_⟩
  · intro m n txID hm
    rw [(h.shard m).tx] at hm
    cases hm
  · rw [h.accepted, add_zero, sum_congr rfl fun n _ => hopen n]
  · rw [sum_congr rfl fun n _ => hopen n]
    exact h.bounded

end Fleet

open Fleet in
/-- In every run of safe steps, settled spend, counters and spend keys of all shards exceed the limit by
no more than what half-done settlements count twice; and all that was ever accepted is within the limit.
-/
theorem fleet_no_overspend {k : ℕ} {W : Type*} [DecidableEq W] (id customerID : UUID) (threshold : ℤ)
    (s₀ : Fleet k W) (hstart : FleetStart id s₀) (actions : List (FleetAction k W))
    (hrun : Admissible (fun s a => s.Safe id a) (step id customerID threshold) s₀ actions) :
    let s := run (step id customerID threshold) s₀ actions
    ((∀ n, ¬ (s.view n).HalfDone id) →
      s.spend id + ∑ n, s.unsettled id n + ∑ n, s.left id n ≤ s₀.limit id) ∧
    s.spend id + ∑ n, s.unsettled id n + ∑ n, s.left id n ≤ s₀.limit id + ∑ n, (s.view n).halfDone id ∧
    s₀.spend id + ∑ n, s₀.unsettled id n + s.accepted ≤ s₀.limit id := by
  intro s
  have hinv : FleetInv id (s₀.limit id) (s₀.spend id + ∑ n, s₀.unsettled id n) s :=
    hrun.invariant (fun _ a ha h => step_fleet a ha h) hstart.inv
  have hopen : ∑ n, s.outstanding id n =
      ∑ n, s.unsettled id n - ∑ n, (s.view n).halfDone id := sum_sub_distrib ..
  have hbound := hinv.bounded
  have hconserved := hinv.conserved
  have hleft : 0 ≤ ∑ n, s.left id n := by
    apply sum_nonneg
    intro n _
    rw [left, remaining]
    exact sum_nonneg fun slot _ => hinv.left_nonneg n slot
  refine ⟨?_, by omega, by omega⟩
  intro hdone
  have hhalf : ∑ n, (s.view n).halfDone id = 0 :=
    sum_eq_zero fun n _ => SettlementState.halfDone_eq_zero id (hdone n)
  omega

/-- Two shards, of which the first holds the budget. -/
def sampleFleet : Fleet 2 Unit where
  redis n := if n = 0 then Redis.empty.setNum (budgetCampaignKey sampleRow.id) 100 else Redis.empty
  pg := samplePg sampleRow.id sampleRow.customerID
  stage _ _ := .idle
  registry := none
  refill _ := .idle
  accepted := 0
  issued := ∅

/-- A first miss, with time and leave to ask the database. -/
def sampleMiss : MissContext where
  attempt := 0
  deadlineExceeded := false
  lookupTimeout := false
  pgFallbackAllowed := true
  hasRepo := true

/-- A debit and its settlement. -/
def sampleSettledDebit (amount : ℕ) (tx : String) : List (FleetAction 2 Unit) :=
  [.settle 0 (.debit none amount), .settle 0 (.prepare () tx true),
    .settle 0 (.flush () false .received), .settle 0 (.commit () true)]

/-- A recovery that nothing interrupts. -/
def sampleRecovery (n : Fin 2) : List (FleetAction 2 Unit) :=
  [.miss 0 n none sampleMiss, .lookUp 0, .write 0 true]

/-- The key expires after its debit has been settled, and all that is left is spent. -/
def sampleSettledRecovery : List (FleetAction 2 Unit) :=
  sampleSettledDebit 5 "tx-1" ++ .expire 0 none :: sampleRecovery 0 ++ [.settle 0 (.debit none 95)]

/-- The key expires between a debit and its settlement, and all that is left is spent. -/
def sampleUnsettledRecovery : List (FleetAction 2 Unit) :=
  .settle 0 (.debit none 5) :: .expire 0 none :: sampleRecovery 0 ++ [.settle 0 (.debit none 100)]

/-- A recovery has read the campaign before another one, and writes after all was spent and settled. -/
def sampleLateWrite : List (FleetAction 2 Unit) :=
  .expire 0 none :: .miss 1 0 none sampleMiss :: .lookUp 1 :: sampleRecovery 0 ++
    sampleSettledDebit 100 "tx-1" ++ [.expire 0 none, .write 1 true, .settle 0 (.debit none 100)]

/-- The state that the sample reaches. -/
def sampleFleetRun (actions : List (FleetAction 2 Unit)) : Fleet 2 Unit :=
  run (Fleet.step sampleRow.id sampleRow.customerID 5000000) sampleFleet actions

/-- Settled spend is not handed out again. -/
theorem fleet_no_overspend_sample :
    (sampleFleetRun sampleSettledRecovery).accepted = 100 ∧
      sampleFleet.spend sampleRow.id + ∑ n, sampleFleet.unsettled sampleRow.id n +
        (sampleFleetRun sampleSettledRecovery).accepted ≤ sampleFleet.limit sampleRow.id := by
  refine ⟨by decide +kernel, (fleet_no_overspend sampleRow.id sampleRow.customerID 5000000 sampleFleet
    ⟨?_, by decide +kernel, ?_, rfl, by decide +kernel⟩ sampleSettledRecovery ?_).2.2⟩
  · intro n
    have hcounters : ∀ n, (sampleFleet.view n).sync sampleRow.id = 0 ∧
        (sampleFleet.view n).inFlight sampleRow.id = 0 ∧
        (sampleFleet.view n).tx sampleRow.id = none := by
      decide +kernel
    obtain ⟨hsync, hflight, htx⟩ := hcounters n
    exact ⟨hsync.ge, hflight.ge, htx, fun _ => rfl, rfl, Finset.Subset.refl _, notMem_empty _⟩
  · rintro camp (hcamp | ⟨e, table, hread⟩)
    · cases hcamp
    · cases hread
  · refine ⟨⟨trivial, trivial⟩, ⟨⟨by decide, by decide +kernel⟩, ?_⟩, ⟨trivial, trivial⟩,
      ⟨trivial, trivial⟩, trivial, trivial, trivial, fun _ => ?_, ⟨trivial, trivial⟩, trivial⟩
    · intro _ _
      refine ⟨fun w' hw' => absurd rfl hw', ?_⟩
      intro txID htx _
      have hnone : ((sampleFleetRun (sampleSettledRecovery.take 1)).view 0).tx sampleRow.id = none := by
        decide +kernel
      change ((sampleFleetRun (sampleSettledRecovery.take 1)).view 0).tx sampleRow.id = some txID at htx
      cases htx
    · change Fleet.SafeRefill sampleRow.id _ 0 none 100 5
      intro _
      refine Or.inr ⟨?_, ?_, ?_⟩
      · decide +kernel
      · decide +kernel
      · decide +kernel

/-- A recovery before settlement hands out five units twice, and a recovery on a second shard the whole
budget. One that writes late hands out the budget once more after it was spent. -/
theorem fleet_recovery_overspends :
    (sampleFleetRun sampleUnsettledRecovery).accepted = 105 ∧ sampleFleet.limit sampleRow.id = 100 ∧
      (let s := sampleFleetRun (sampleUnsettledRecovery.take 5)
       s.spend sampleRow.id + ∑ n, s.unsettled sampleRow.id n + ∑ n, s.left sampleRow.id n = 105 ∧
         ∀ n, (s.view n).tx sampleRow.id = none) ∧
      (let s := sampleFleetRun (sampleRecovery 1)
       s.spend sampleRow.id + ∑ n, s.unsettled sampleRow.id n + ∑ n, s.left sampleRow.id n = 200) ∧
      (sampleFleetRun sampleLateWrite).accepted = 200 := by
  decide +kernel

end Espx.Settlement
