import Espx.Foundation.Run
import Espx.Settlement.System

/-!
# Completeness of the dirty set

Debits add a campaign to the dirty set when they find the sync counter empty, a commit removes it when
both counters are used up, and `prepareBudgetEntity` removes it in a command of its own after its script
answered "0", which the script also does when the lock is held. The set is complete in every state of a
run exactly when each of these removals finds both counters empty.
-/

namespace Espx.Settlement

open Espx.Foundation Espx.Domain Espx.Ingestion

/-- The Redis server, and the workers that have been answered "0" and not yet removed the id. -/
structure DirtyState (W : Type*) where
  redis : Redis
  pending : W → Bool

/-- The steps that concern the counters and the dirty set. -/
inductive DirtyAction (W : Type*)
  | debit (slot : Slot) (amount : ℕ)
  | prepare (w : W) (newTxID : String) (delivered : Bool)
  | remove (w : W)
  | commit (amount : ℕ)
  | lockExpiry
  | crash (w : W)

namespace DirtyState

variable {W : Type*} [DecidableEq W] (id customerID : UUID)

/-- One step of the system. -/
def step (s : DirtyState W) : DirtyAction W → DirtyState W
  | .debit slot amount =>
    { s with redis := (acceptDebit id customerID slot amount s.redis).getD s.redis }
  | .prepare w newTxID delivered =>
    let reply := prepareSyncScript (campaignKeys id) newTxID s.redis
    { redis := reply.2
      pending := if delivered ∧ reply.1.1 = 0 then Function.update s.pending w true else s.pending }
  | .remove w =>
    if s.pending w then
      { redis := s.redis.srem (campaignKeys id).dirtySet (uuidString id)
        pending := Function.update s.pending w false }
    else s
  | .commit amount =>
    { s with redis := (commitSyncScript (campaignKeys id) amount (uuidString id) s.redis).2 }
  | .lockExpiry => { s with redis := s.redis.delNum (campaignKeys id).lockKey }
  | .crash w => { s with pending := Function.update s.pending w false }

variable (s : DirtyState W)

/-- There is something to settle. -/
def Unsettled : Prop :=
  0 < s.redis.count (campaignKeys id).syncKey ∨ 0 < s.redis.count (campaignKeys id).inFlightKey

/-- Collection will visit the campaign. -/
def Dirty : Prop := uuidString id ∈ s.redis.sets (campaignKeys id).dirtySet

/-- The dirty set is complete for the campaign. -/
def Complete : Prop := s.Unsettled id → s.Dirty id

/-- A removal that a worker carries out finds nothing to settle. -/
def SafeRemove : DirtyAction W → Prop
  | .remove w => s.pending w = true → ¬ s.Unsettled id
  | _ => True

/-- What holds in every state: counters are not negative, and the dirty set is complete. -/
structure DirtyInv : Prop where
  sync_nonneg : 0 ≤ s.redis.count (campaignKeys id).syncKey
  inFlight_nonneg : 0 ≤ s.redis.count (campaignKeys id).inFlightKey
  complete : s.Complete id

variable {id customerID} {s}

omit [DecidableEq W] in
/-- The invariant depends on the two counters and the dirty set alone. -/
theorem DirtyInv.of_counts {t : DirtyState W} (h : DirtyInv id s)
    (hsync : t.redis.count (campaignKeys id).syncKey = s.redis.count (campaignKeys id).syncKey)
    (hflight : t.redis.count (campaignKeys id).inFlightKey = s.redis.count (campaignKeys id).inFlightKey)
    (hsets : t.redis.sets = s.redis.sets) : DirtyInv id t := by
  refine ⟨hsync ▸ h.sync_nonneg, hflight ▸ h.inFlight_nonneg, ?_⟩
  intro hunset
  unfold Unsettled at hunset
  rw [hsync, hflight] at hunset
  have hdirty := h.complete hunset
  unfold Dirty at hdirty ⊢
  rw [hsets]
  exact hdirty

omit [DecidableEq W] in
theorem DirtyInv.of_redis {t : DirtyState W} (h : DirtyInv id s) (hredis : t.redis = s.redis) :
    DirtyInv id t :=
  h.of_counts (by rw [hredis]) (by rw [hredis]) (by rw [hredis])

/-- A debit of an empty counter makes the id dirty, and a debit of another one finds it so. -/
theorem step_debit_dirty (h : DirtyInv id s) (slot : Slot) (amount : ℕ) :
    DirtyInv id (s.step id customerID (.debit slot amount)) := by
  simp only [step]
  cases hacc : acceptDebit id customerID slot amount s.redis with
  | none => exact h
  | some redis =>
    obtain ⟨hsync, hflight, -, -⟩ := acceptDebit_counts hacc
    have hsyncNonneg := h.sync_nonneg
    have hinFlightNonneg := h.inFlight_nonneg
    refine ⟨?_, ?_, ?_⟩
    · change 0 ≤ redis.count (campaignKeys id).syncKey
      omega
    · change 0 ≤ redis.count (campaignKeys id).inFlightKey
      omega
    · intro _
      have hempty : s.redis.count (campaignKeys id).syncKey = 0 ∨ s.Dirty id := by
        by_cases hzero : s.redis.count (campaignKeys id).syncKey = 0
        · exact .inl hzero
        · exact .inr (h.complete (.inl (by omega)))
      exact acceptDebit_mem hacc hempty

/-- A prepare moves what is to be settled and touches no set. -/
theorem step_prepare_dirty (h : DirtyInv id s) (w : W) (newTxID : String) (delivered : Bool) :
    DirtyInv id (s.step id customerID (.prepare w newTxID delivered)) := by
  cases hlock : s.redis.num (campaignKeys id).lockKey with
  | some v =>
    have hsame := @prepareSyncScript_locked (campaignKeys id) newTxID s.redis (by rw [hlock]; rfl)
    have hredis : (s.step id customerID (.prepare w newTxID delivered)).redis = s.redis :=
      congrArg Prod.snd hsame
    exact h.of_redis hredis
  | none =>
    have hsync := h.sync_nonneg
    have hflight := h.inFlight_nonneg
    obtain ⟨hsyncAfter, hinFlightAfter, -, -⟩ := prepareSyncScript_spec
      (budgetEntityKeys_distinct "campaign" (uuidString id)) newTxID hlock hsync hflight
    have hsets := congrFun (@prepareSyncScript_frame (campaignKeys id) newTxID s.redis).1
      (campaignKeys id).dirtySet
    refine ⟨hsyncAfter.ge, ?_, ?_⟩
    · refine le_of_le_of_eq ?_ hinFlightAfter.symm
      exact Int.add_nonneg hflight hsync
    · intro hafter
      have htotal : 0 < s.redis.count (campaignKeys id).inFlightKey +
          s.redis.count (campaignKeys id).syncKey := by
        rcases hafter with hpos | hpos
        · exact absurd (lt_of_lt_of_eq hpos hsyncAfter) (lt_irrefl 0)
        · exact lt_of_lt_of_eq hpos hinFlightAfter
      have hdirty : s.Dirty id := h.complete (by unfold Unsettled; omega)
      change uuidString id ∈ (prepareSyncScript (campaignKeys id) newTxID s.redis).2.sets _
      rw [hsets]
      exact hdirty

/-- A commit makes the id clean only when it leaves nothing to settle. -/
theorem step_commit_dirty (h : DirtyInv id s) (amount : ℕ) :
    DirtyInv id (s.step id customerID (.commit amount)) := by
  have hkeys := budgetEntityKeys_distinct "campaign" (uuidString id)
  obtain ⟨hsyncAfter, hinFlightAfter, -, -⟩ :=
    commitSyncScript_spec hkeys amount (uuidString id) s.redis
  refine ⟨le_of_le_of_eq h.sync_nonneg hsyncAfter.symm, ?_, ?_⟩
  · exact le_of_le_of_eq (le_max_left 0 _) hinFlightAfter.symm
  · intro hafter
    have hleft : 0 < s.redis.count (campaignKeys id).syncKey ∨
        0 < s.redis.count (campaignKeys id).inFlightKey - amount := by
      rcases hafter with hpos | hpos
      · exact .inl (lt_of_lt_of_eq hpos hsyncAfter)
      · have hmax := lt_of_lt_of_eq hpos hinFlightAfter
        exact .inr ((lt_max_iff.mp hmax).resolve_left (lt_irrefl 0))
    have hdirty : s.Dirty id := h.complete (by unfold Unsettled; omega)
    exact commitSyncScript_dirty hkeys amount (uuidString id) s.redis hdirty hleft

/-- Each step whose removal is safe keeps the dirty set complete. -/
theorem step_dirty (a : DirtyAction W) (ha : s.SafeRemove id a) (h : DirtyInv id s) :
    DirtyInv id (s.step id customerID a) := by
  cases a with
  | debit slot amount => exact step_debit_dirty h slot amount
  | prepare w newTxID delivered => exact step_prepare_dirty h w newTxID delivered
  | commit amount => exact step_commit_dirty h amount
  | crash w => exact h.of_redis rfl
  | lockExpiry =>
    have hkeys := budgetEntityKeys_distinct "campaign" (uuidString id)
    have hsync : (s.redis.delNum (campaignKeys id).lockKey).count (campaignKeys id).syncKey =
        s.redis.count (campaignKeys id).syncKey := Redis.delNum_count_of_ne _ hkeys.lock_sync.symm
    have hflight : (s.redis.delNum (campaignKeys id).lockKey).count
        (campaignKeys id).inFlightKey = s.redis.count (campaignKeys id).inFlightKey :=
      Redis.delNum_count_of_ne _ hkeys.lock_inFlight.symm
    exact h.of_counts hsync hflight rfl
  | remove w =>
    by_cases hpend : s.pending w = true
    · have hset : ¬ s.Unsettled id := ha hpend
      simp only [step, hpend, if_true]
      exact ⟨h.sync_nonneg, h.inFlight_nonneg, fun hafter => absurd hafter hset⟩
    · simp only [step, hpend]
      exact h

/-- An unsafe removal leaves an incomplete dirty set behind. -/
theorem safeRemove_of_complete (s : DirtyState W) (a : DirtyAction W)
    (h : (s.step id customerID a).Complete id) : s.SafeRemove id a := by
  cases a with
  | remove w =>
    intro hpend hunset
    simp only [step, hpend, if_true] at h
    have hdirty : uuidString id ∈ (s.redis.srem (campaignKeys id).dirtySet (uuidString id)).sets
        (campaignKeys id).dirtySet := h hunset
    rw [Redis.srem_sets_self] at hdirty
    exact Finset.notMem_erase _ _ hdirty
  | _ => trivial

end DirtyState

open DirtyState in
/-- In every state of a run the dirty set holds the id of a campaign with something to settle exactly if
every removal after an answer of "0" finds both counters empty. -/
theorem dirtySet_complete_iff {W : Type*} [DecidableEq W] (id customerID : UUID)
    (s₀ : DirtyState W) (hstart : DirtyInv id s₀) (actions : List (DirtyAction W)) :
    (∀ done, done <+: actions → (run (step id customerID) s₀ done).Complete id) ↔
      Admissible (fun s a => s.SafeRemove id a) (step id customerID) s₀ actions :=
  forall_reached_iff_admissible (fun _ h => h.complete) (fun _ a _ ha h => step_dirty a ha h)
    (fun s a _ _ h => safeRemove_of_complete s a h) hstart
    (@Admissible.of_forall _ _ (fun _ => True) _ actions (fun _ _ => trivial) s₀)

/-- One worker, nothing spent yet. -/
def sampleDirtyStart : DirtyState Unit where
  redis := Redis.empty.setNum (budgetCampaignKey sampleRow.id) 100
  pending _ := false

/-- A campaign is settled, found without work in the next round, and removed. -/
def sampleSettled : List (DirtyAction Unit) :=
  [.debit none 5, .prepare () "tx-1" true, .commit 5, .prepare () "tx-2" true, .remove ()]

/-- A second round finds the lock of the first one held. -/
def sampleLocked : List (DirtyAction Unit) :=
  [.debit none 5, .prepare () "tx-1" true, .prepare () "tx-2" true, .remove ()]

/-- The state that the sample worker reaches. -/
def sampleDirtyRun (actions : List (DirtyAction Unit)) : DirtyState Unit :=
  run (DirtyState.step sampleRow.id sampleRow.customerID) sampleDirtyStart actions

/-- A removal after the commit of everything is safe. -/
theorem dirtySet_complete_iff_sample : DirtyState.DirtyInv sampleRow.id sampleDirtyStart ∧
    ∀ done, done <+: sampleSettled → (sampleDirtyRun done).Complete sampleRow.id := by
  have hstart : DirtyState.DirtyInv sampleRow.id sampleDirtyStart := by
    refine ⟨by decide +kernel, by decide +kernel, ?_⟩
    intro hunset
    exact absurd hunset (by unfold DirtyState.Unsettled; decide +kernel)
  refine ⟨hstart, (dirtySet_complete_iff sampleRow.id sampleRow.customerID sampleDirtyStart hstart
    sampleSettled).mpr ⟨trivial, trivial, trivial, trivial, ?_, trivial⟩⟩
  intro _
  unfold DirtyState.Unsettled
  decide +kernel

/-- Five units are in flight, and no round of collection will visit the campaign. -/
theorem dirtySet_forgets_inFlight :
    (sampleDirtyRun sampleLocked).redis.count (campaignKeys sampleRow.id).inFlightKey = 5 ∧
      uuidString sampleRow.id ∉
        (sampleDirtyRun sampleLocked).redis.sets (campaignKeys sampleRow.id).dirtySet := by
  decide +kernel

end Espx.Settlement
