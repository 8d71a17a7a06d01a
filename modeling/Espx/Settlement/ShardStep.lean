import Espx.Settlement.Invariant
import Espx.Settlement.WorkerFrame
import Mathlib.Algebra.BigOperators.Group.Finset.Piecewise
import Mathlib.Data.Fintype.Option

/-!
# What a step on one shard means for the others

The shards of a campaign share Postgres and the ids that have been issued. A step on one shard moves money
between its spend keys and its counters only, applies no other id than its own stored one, and leaves the
limit alone.
-/

namespace Espx.Settlement

open Espx.Foundation Espx.Domain Espx.Ingestion

section

variable (id : UUID)

/-- Keys of sub-slots are told apart by what follows the identifier. -/
theorem budgetQuotaKeySub_form (sub : Fin Campaign.highVolumeDebitSubShards) :
    budgetQuotaKeySub id sub = "\x7b" ++ (uuidString id ++
      ((if 0 < sub.val then ":slot_" ++ (Nat.repr sub ++ "\x7d") else "\x7d") ++
        ("budget:quota:" ++ uuidString id))) := by
  unfold budgetQuotaKeySub campaignSubHashTag campaignHashTag
  split <;> simp only [String.append_assoc]

/-- Each slot has its own spend key. -/
theorem slotKey_injective : Function.Injective (slotKey id) := by
  have hquota : ∀ i j : Fin Campaign.highVolumeDebitSubShards, i ≠ j →
      clash (if 0 < i.val then ":slot_" ++ (Nat.repr i ++ "\x7d") else "\x7d").toList
        (if 0 < j.val then ":slot_" ++ (Nat.repr j ++ "\x7d") else "\x7d").toList = true := by
    decide
  have hbudget : ∀ i : Fin Campaign.highVolumeDebitSubShards,
      budgetQuotaKeySub id i ≠ budgetCampaignKey id := by
    intro i
    rw [budgetCampaignKey, String.append_assoc]
    rcases Nat.eq_zero_or_pos i.val with hzero | hpos
    · rw [hzero, budgetQuotaKeySub_zero, budgetQuotaKey, String.append_assoc]
      exact tagged_ne_of_clash (by decide)
    · rw [budgetQuotaKeySub, String.append_assoc]
      exact subTagged_ne_tagged hpos
  intro slot slot' h
  cases slot with
  | none =>
    cases slot' with
    | none => rfl
    | some j => exact absurd h.symm (hbudget j)
  | some i =>
    cases slot' with
    | none => exact absurd h (hbudget i)
    | some j =>
      by_contra hne
      have hij : i ≠ j := fun heq => hne (congrArg some heq)
      change budgetQuotaKeySub id i = budgetQuotaKeySub id j at h
      rw [budgetQuotaKeySub_form, budgetQuotaKeySub_form] at h
      have hrest := h
      simp only [String.append_right_inj] at hrest
      exact append_ne_of_clash (hquota i j hij) hrest

/-- What the spend keys of a server hold. -/
def remaining (r : Redis) : ℤ := ∑ slot : Slot, r.count (slotKey id slot)

variable {id} {customerID : UUID} {slot : Slot}

/-- An accepted debit is taken from one spend key. -/
theorem acceptDebit_slot {amount : ℕ} {r after : Redis}
    (h : acceptDebit id customerID slot amount r = some after) (other : Slot) :
    after.count (slotKey id other) =
      r.count (slotKey id other) - if other = slot then (amount : ℤ) else 0 := by
  by_cases hother : other = slot
  · rw [hother, if_pos rfl]
    exact (acceptDebit_counts h).2.2.1
  have hspend : slotKey id other ≠ (sharedDebitKeys id customerID slot).spendKey :=
    fun heq => hother (slotKey_injective id heq)
  have hsync : slotKey id other ≠ (sharedDebitKeys id customerID slot).campaignSyncKey :=
    (campaignKeys_sync_ne_slot id other).symm
  have hcust : slotKey id other ≠ (sharedDebitKeys id customerID slot).customerSyncKey := by
    exact (plain_ne_slotKey (by decide) id other).symm
  rw [(acceptDebit_eq_some h).2, Redis.count, debit_num_of_ne _ _ _ _ _ hspend hsync hcust,
    if_neg hother, sub_zero, Redis.count]

end

namespace SettlementState

variable {W : Type*} {id customerID : UUID} {threshold : ℤ} {s t : SettlementState W}

/-- What a step does to the spend keys of its shard: nothing, or one covered debit. -/
inductive SlotEffect (id : UUID) (s t : SettlementState W) : Prop
  | kept (accepted : t.accepted = s.accepted)
      (slots : ∀ slot, t.redis.count (slotKey id slot) = s.redis.count (slotKey id slot))
  | debited (slot : Slot) (amount : ℕ) (covered : (amount : ℤ) ≤ s.redis.count (slotKey id slot))
      (accepted : t.accepted = s.accepted + amount)
      (slots : ∀ other, t.redis.count (slotKey id other) =
        s.redis.count (slotKey id other) - if other = slot then (amount : ℤ) else 0)

/-- A step that keeps the keys in braces keeps the spend keys. -/
theorem SlotEffect.of_braces (hacc : t.accepted = s.accepted)
    (h : ∀ rest, t.redis.num ("\x7b" ++ rest) = s.redis.num ("\x7b" ++ rest)) : SlotEffect id s t := by
  refine .kept hacc fun slot => ?_
  obtain ⟨rest, hrest⟩ := (slotKey_spendKey id slot).money.brace
  rw [hrest]
  exact congrArg (·.getD 0) (h rest)

/-- What is debited is what the spend keys lose. -/
theorem SlotEffect.remaining (h : SlotEffect id s t) :
    remaining id t.redis + t.accepted = Settlement.remaining id s.redis + s.accepted := by
  cases h with
  | kept hacc hslots =>
    rw [hacc, Settlement.remaining, Finset.sum_congr rfl fun slot _ => hslots slot]
    rfl
  | debited slot amount _ hacc hslots =>
    rw [hacc, Settlement.remaining, Finset.sum_congr rfl fun other _ => hslots other,
      Finset.sum_sub_distrib, Finset.sum_ite_eq', if_pos (Finset.mem_univ slot), Settlement.remaining]
    ring

/-- No spend key is driven below zero. -/
theorem SlotEffect.nonneg (h : SlotEffect id s t)
    (hpre : ∀ slot, 0 ≤ s.redis.count (slotKey id slot)) (slot : Slot) :
    0 ≤ t.redis.count (slotKey id slot) := by
  have hslot := hpre slot
  cases h with
  | kept _ hslots =>
    rw [hslots]
    exact hslot
  | debited source amount hcover _ hslots =>
    rw [hslots]
    split
    · rename_i heq
      rw [← heq] at hcover
      omega
    · omega

variable [DecidableEq W]

/-- A prepare does nothing, or executes its script. -/
theorem prepare_cases (s : SettlementState W) (w : W) (newTxID : String) (delivered : Bool) :
    let next := s.prepare id w newTxID delivered
    let prepared := (prepareSyncScript (campaignKeys id) newTxID s.redis).2
    next = s ∨ (next.redis.num = prepared.num ∧ next.redis.text = prepared.text ∧ next.pg = s.pg ∧
      next.accepted = s.accepted ∧ next.issued = insert newTxID s.issued) := by
  have hscr := prepareEntity_redis "campaign" (uuidString id) id newTxID s.redis
  unfold prepare
  split
  · exact .inl rfl
  · split
    · exact .inr ⟨hscr.1, hscr.2, rfl, rfl, rfl⟩
    · exact .inr ⟨rfl, rfl, rfl, rfl, rfl⟩

/-- A flush changes nothing but Postgres and its worker: it settles the entry of the worker, or pauses the
campaign. -/
theorem flush_frame (s : SettlementState W) (w : W) (rowLocked : Bool) (reply : Reply) :
    let next := s.flush id threshold w rowLocked reply
    next.redis = s.redis ∧ next.accepted = s.accepted ∧ next.issued = s.issued ∧
      (next.pg = s.pg ∨ next.pg = s.pg.updateCampaignStatus id .paused ∨
        ∃ entry, s.stage w = .staged entry ∧ Flushed (flushItem threshold id entry) s.pg next.pg) := by
  rcases s.flush_cases w rowLocked reply with hnext | hnext | ⟨entry, pg, hstage, hok, hnext⟩
  · rw [hnext]
    exact ⟨rfl, rfl, rfl, .inl rfl⟩
  · rw [hnext]
    exact ⟨rfl, rfl, rfl, .inr (.inl rfl)⟩
  have hpg : pg = s.pg ∨ Flushed (flushItem threshold id entry) s.pg pg :=
    (applySpendFlush_eq_ok hok).imp_left And.right
  rcases hnext with hnext | hnext
  · rw [hnext]
    exact ⟨rfl, rfl, rfl, hpg.imp_right fun hflush => .inr ⟨entry, hstage, hflush⟩⟩
  · rw [hnext]
    exact ⟨rfl, rfl, rfl, hpg.imp_right fun hflush => .inr ⟨entry, hstage, hflush⟩⟩

/-- A commit does nothing in Redis, or executes its script. -/
theorem commit_cases (s : SettlementState W) (w : W) (delivered : Bool) :
    let next := s.commit w delivered
    next.pg = s.pg ∧ next.accepted = s.accepted ∧ next.issued = s.issued ∧ (next.redis = s.redis ∨
      ∃ entry, s.stage w = .settled entry ∧ next.redis = commitEntity "campaign" entry s.redis) := by
  unfold commit
  split
  · rename_i entry hstage
    cases delivered with
    | false => exact ⟨rfl, rfl, rfl, .inl rfl⟩
    | true => exact ⟨rfl, rfl, rfl, .inr ⟨entry, hstage, rfl⟩⟩
  · exact ⟨rfl, rfl, rfl, .inl rfl⟩

/-- A worker touches no integer key but its own. -/
theorem step_num_of_notMem (s : SettlementState W) {a : SettlementAction W}
    (hdebit : ∀ slot amount, a ≠ .debit slot amount) :
    (s.step id customerID threshold a).accepted = s.accepted ∧
      ∀ key, (∀ idStr, key ∉ entityIntKeys "campaign" idStr) →
        (s.step id customerID threshold a).redis.num key = s.redis.num key := by
  cases a with
  | debit slot amount => exact absurd rfl (hdebit slot amount)
  | prepare w newTxID delivered =>
    rcases s.prepare_cases w newTxID delivered with hsame | ⟨hnum, -, -, hacc, -⟩
    · rw [step, hsame]
      exact ⟨rfl, fun _ _ => rfl⟩
    refine ⟨hacc, fun key hkey => ?_⟩
    have hkept := @prepareEntity_num_of_notMem "campaign" (uuidString id) newTxID _ id s.redis (hkey _)
    rw [(prepareEntity_redis ..).1] at hkept
    exact (congrFun hnum _).trans hkept
  | flush w rowLocked reply =>
    obtain ⟨hredis, hacc, -⟩ := s.flush_frame w rowLocked reply
    exact ⟨hacc, fun key _ => congrArg (fun r : Redis => r.num key) hredis⟩
  | commit w delivered =>
    obtain ⟨-, hacc, -, hredis | ⟨entry, -, hredis⟩⟩ := s.commit_cases w delivered
    · exact ⟨hacc, fun key _ => congrArg (fun r : Redis => r.num key) hredis⟩
    · refine ⟨hacc, fun key hkey => ?_⟩
      rw [step, hredis]
      exact commitEntity_num_of_notMem (hkey _)
  | lockExpiry =>
    refine ⟨rfl, fun key hkey => Redis.delNum_num_of_ne _ ?_⟩
    have hnotMem := hkey (uuidString id)
    simp only [entityIntKeys, List.mem_cons, List.not_mem_nil, or_false, not_or] at hnotMem
    exact hnotMem.2.2
  | crash w => exact ⟨rfl, fun _ _ => rfl⟩

/-- Every step keeps the spend keys or makes one covered debit. -/
theorem step_slotEffect (a : SettlementAction W) :
    SlotEffect id s (s.step id customerID threshold a) := by
  by_cases hdebit : ∃ slot amount, a = .debit slot amount
  · obtain ⟨slot, amount, rfl⟩ := hdebit
    simp only [step]
    cases haccept : acceptDebit id customerID slot amount s.redis with
    | none => exact .kept rfl fun _ => rfl
    | some redis =>
      exact .debited slot amount (acceptDebit_eq_some haccept).1 rfl (acceptDebit_slot haccept)
  · obtain ⟨hacc, hnum⟩ := @step_num_of_notMem _ id customerID threshold _ s a
      fun slot amount heq => hdebit ⟨slot, amount, heq⟩
    exact .of_braces hacc fun rest => hnum _ fun idStr => brace_not_entityIntKey _ idStr rest

/-- Issued ids stay issued. -/
theorem step_issued (s : SettlementState W) (a : SettlementAction W) :
    s.issued ⊆ (s.step id customerID threshold a).issued := by
  cases a with
  | debit slot amount =>
    simp only [step]
    split <;> exact Finset.Subset.refl _
  | prepare w newTxID delivered =>
    rcases s.prepare_cases w newTxID delivered with hsame | ⟨-, -, -, -, hissue⟩
    · rw [step, hsame]
    · rw [step, hissue]
      exact Finset.subset_insert _ _
  | flush w rowLocked reply => rw [step, (s.flush_frame w rowLocked reply).2.2.1]
  | commit w delivered => rw [step, (s.commit_cases w delivered).2.2.1]
  | lockExpiry | crash w => exact Finset.Subset.refl _

/-- Two databases agree on all ids but one, and on the limits. -/
structure AgreeExcept (tx : Option String) (pg pg' : Pg) : Prop where
  applied : ∀ txID, tx ≠ some txID → (txID ∈ pg'.syncIdempotency ↔ txID ∈ pg.syncIdempotency)
  recorded : ∀ txID, tx ≠ some txID → pg'.settledAmount txID = pg.settledAmount txID
  limit : ∀ id, (pg'.campaigns.get? id).map CampaignRow.budgetLimit =
    (pg.campaigns.get? id).map CampaignRow.budgetLimit

theorem AgreeExcept.refl (tx : Option String) (pg : Pg) : AgreeExcept tx pg pg :=
  ⟨fun _ _ => Iff.rfl, fun _ _ => rfl, fun _ => rfl⟩

/-- A step changes nothing that Postgres knows of other ids than the stored one. -/
theorem step_agreeExcept {base : ℤ} (h : Inv id base s) (a : SettlementAction W) :
    AgreeExcept (s.tx id) s.pg (s.step id customerID threshold a).pg := by
  cases a with
  | debit slot amount =>
    simp only [step]
    split <;> exact .refl _ _
  | prepare w newTxID delivered =>
    rcases s.prepare_cases w newTxID delivered with hsame | ⟨-, -, hpg, -, -⟩
    · rw [step, hsame]
      exact .refl _ _
    · rw [step, hpg]
      exact .refl _ _
  | flush w rowLocked reply =>
    obtain ⟨-, -, -, hpg | hpg | ⟨entry, hstage, hflush⟩⟩ := s.flush_frame w rowLocked reply
    · rw [step, hpg]
      exact .refl _ _
    · rw [step, hpg]
      refine ⟨fun _ _ => Iff.rfl, fun _ _ => rfl, fun other => ?_⟩
      rw [Pg.updateCampaignStatus]
      by_cases hother : other = id
      · rw [hother, Table.get?_modify_self, Option.map_map]
        rfl
      · rw [Table.get?_modify_of_ne _ _ hother]
    · have htx := (h.holds w entry (.inl hstage)).tx
      have hne : ∀ {txID}, s.tx id ≠ some txID → txID ≠ entry.txID := by
        rintro txID hother rfl
        exact hother htx
      refine ⟨fun txID hother => ?_, fun txID hother => hflush.settledAmount_of_ne (hne hother),
        hflush.budgetLimit⟩
      rw [step, hflush.syncIdempotency, Finset.mem_insert]
      exact or_iff_right (hne hother)
  | commit w delivered =>
    rw [step, (s.commit_cases w delivered).1]
    exact .refl _ _
  | lockExpiry | crash w => exact .refl _ _

/-- The id stored after a step is none, the one stored before, or a fresh one. -/
theorem step_tx {base : ℤ} (h : Inv id base s) {a : SettlementAction W} (ha : s.Fresh a)
    {txID : String} (htx : (s.step id customerID threshold a).tx id = some txID) :
    s.tx id = some txID ∨ txID ∉ s.issued := by
  cases a with
  | debit slot amount =>
    simp only [step] at htx
    cases hacc : acceptDebit id customerID slot amount s.redis with
    | none =>
      rw [hacc] at htx
      exact .inl htx
    | some redis =>
      rw [hacc] at htx
      have htext := congrFun (acceptDebit_counts hacc).2.2.2 (campaignKeys id).txKey
      exact .inl (htext.symm.trans htx)
  | prepare w newTxID delivered =>
    rcases s.prepare_cases w newTxID delivered with hsame | ⟨-, htext, -, -, -⟩
    · rw [step, hsame] at htx
      exact .inl htx
    have hscr := (congrFun htext (campaignKeys id).txKey).symm.trans htx
    cases hlock : s.redis.num (campaignKeys id).lockKey with
    | some v =>
      rw [prepareSyncScript_locked newTxID (by rw [hlock]; rfl)] at hscr
      exact .inl hscr
    | none =>
      have hspec := (prepareSyncScript_spec (budgetEntityKeys_distinct _ _) newTxID hlock
        h.sync_nonneg h.inFlight_nonneg).2.2.2
      have hstored := hspec.symm.trans hscr
      split at hstored
      · rw [Option.some.injEq] at hstored
        have hans := hstored.symm.trans (h.syncTxID_eq newTxID)
        cases hold : s.tx id with
        | none =>
          rw [hold, Option.getD_none] at hans
          exact .inr (hans ▸ ha.2)
        | some old =>
          rw [hold, Option.getD_some] at hans
          exact .inl (by rw [hans])
      · cases hstored
  | flush w rowLocked reply =>
    rw [step, tx, (s.flush_frame w rowLocked reply).1] at htx
    exact .inl htx
  | commit w delivered =>
    obtain ⟨-, -, -, hredis | ⟨entry, hstage, hredis⟩⟩ := s.commit_cases w delivered
    · rw [step, tx, hredis] at htx
      exact .inl htx
    rw [step, tx, hredis, commitEntity, (h.holds w entry (.inr hstage)).idStr] at htx
    have hnone := (commitSyncScript_spec (budgetEntityKeys_distinct "campaign" (uuidString id))
      entry.amountMicro (uuidString id) s.redis).2.2.2
    cases hnone.symm.trans htx
  | lockExpiry | crash w => exact .inl htx

omit [DecidableEq W] in
/-- A shard keeps the settlement invariant and its half-done amount when another one settles. -/
theorem Inv.of_agree {base : ℤ} (h : Inv id base s) {tx : Option String} {pg : Pg} {accepted : ℤ}
    {issued : Finset String} (hagree : AgreeExcept tx s.pg pg)
    (hother : ∀ txID, s.tx id = some txID → tx ≠ some txID) (happ : pg.syncIdempotency ⊆ issued)
    (hissue : s.issued ⊆ issued) (hnonempty : "" ∉ issued) :
    let t : SettlementState W := { s with pg := pg, accepted := accepted, issued := issued }
    t.halfDone id = s.halfDone id ∧ ∃ b, Inv id b t := by
  intro t
  have htx : t.tx id = s.tx id := rfl
  have hhalf : t.halfDone id = s.halfDone id := by
    unfold halfDone
    rw [htx]
    cases hstored : s.tx id with
    | none => rfl
    | some txID =>
      have hne := hother txID hstored
      simp only [t, hagree.applied txID hne, hagree.recorded txID hne]
  refine ⟨hhalf, t.spend id + t.inFlight id + t.sync id - t.accepted - t.halfDone id,
    h.sync_nonneg, h.inFlight_nonneg, ?_, happ, hnonempty, ?_, by ring, ?_, ?_, h.alone⟩
  · intro txID hstored
    exact hissue (h.tx_issued txID hstored)
  · intro txID hstored hmem
    have hne := hother txID hstored
    rw [hagree.recorded txID hne]
    exact h.half_covered txID hstored ((hagree.applied txID hne).mp hmem)
  · intro w entry hw
    obtain ⟨h1, h2, h3, h4, h5⟩ := h.holds w entry hw
    have hne := hother entry.txID h1
    refine ⟨h1, h2, h3, h4, ?_⟩
    intro hmem
    rw [h5 ((hagree.applied _ hne).mp hmem)]
    exact (hagree.recorded _ hne).symm
  · intro w entry hw
    have hne := hother entry.txID (h.holds w entry (.inr hw)).tx
    exact (hagree.applied _ hne).mpr (h.applied w entry hw)

end SettlementState

end Espx.Settlement
