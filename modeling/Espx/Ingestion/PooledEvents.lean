import Espx.Ingestion.StreamConsumer

/-!
# Which events `tryFlush` returns to the pool

When the dead-letter stream fails, `tryFlush` moves the failed events to the front of the array of the
batch, and then walks the same array to return the others. Where a stored event stands before a failed
one, the failed event is returned to the pool while it stays in the batch; the stored one is returned by
nobody.
-/

namespace Espx.Ingestion

open Espx.Foundation List

section

variable {α : Type*} {array : List α} {failed : List ℕ} {k : ℕ}

theorem getElem?_compact_of_lt {m : ℕ} (hm : m < k) : (compact array k failed)[m]? = array[m]? := by
  induction failed generalizing array k with
  | nil => rfl
  | cons i rest ih =>
    rw [compact]
    split
    · rw [ih (Nat.lt_succ_of_lt hm), getElem?_set_ne (Nat.ne_of_gt hm)]
    · exact ih (Nat.lt_succ_of_lt hm)

/-- The compaction loop puts the entry at the failed index `j` to place `k + j`. -/
theorem getElem?_compact (hsort : failed.Pairwise (· < ·)) (hfrom : ∀ i ∈ failed, k ≤ i)
    (hrange : ∀ i ∈ failed, i < array.length) {j i : ℕ} (hj : failed[j]? = some i) :
    (compact array k failed)[k + j]? = array[i]? := by
  induction failed generalizing array k j with
  | nil => exact absurd hj (by simp)
  | cons first rest ih =>
    obtain ⟨hhead, htail⟩ := pairwise_cons.mp hsort
    have hk : k ≤ first := hfrom first mem_cons_self
    have hfirst : first < array.length := hrange first mem_cons_self
    rw [compact, getElem?_eq_getElem hfirst]
    cases j with
    | zero =>
      obtain rfl : first = i := by simpa using hj
      change (compact (array.set k array[first]) (k + 1) rest)[k]? = _
      rw [getElem?_compact_of_lt (Nat.lt_succ_self k),
        getElem?_set_self (Nat.lt_of_le_of_lt hk hfirst), getElem?_eq_getElem hfirst]
    | succ j =>
      have hi : first < i := hhead i (mem_of_getElem? hj)
      have hnext : (compact (array.set k array[first]) (k + 1) rest)[k + 1 + j]? =
          (array.set k array[first])[i]? :=
        ih htail (fun x hx => Nat.lt_of_le_of_lt hk (hhead x hx))
          (fun x hx => by rw [length_set]; exact hrange x (mem_cons_of_mem _ hx)) hj
      rw [show k + (j + 1) = k + 1 + j by omega, hnext,
        getElem?_set_ne (Nat.ne_of_lt (Nat.lt_of_le_of_lt hk hi))]

/-- Where the failed indices are the places they are moved to, nothing moves. -/
theorem compact_range' (array : List α) (k n : ℕ) : compact array k (range' k n) = array := by
  induction n generalizing array k with
  | zero => rfl
  | succ n ih =>
    rw [range'_succ, compact]
    split
    · rename_i x hx
      obtain ⟨hlt, hget⟩ := List.getElem?_eq_some_iff.mp hx
      rw [← hget, List.set_getElem_self, ih]
    · exact ih array (k + 1)

theorem releaseOthers_nil (array : List α) (i : ℕ) : releaseOthers array i [] = array := by
  induction array generalizing i with
  | nil => rfl
  | cons e rest ih => rw [releaseOthers, ih]

theorem releaseOthers_range' (array : List α) (i k : ℕ) :
    releaseOthers array i (range' i k) = array.drop k := by
  induction k generalizing array i with
  | zero => exact releaseOthers_nil array i
  | succ k ih =>
    cases array with
    | nil => rfl
    | cons e rest => rw [range'_succ, releaseOthers, if_pos rfl, ih, drop_succ_cons]

/-- The entry at an index that is not a failed one is released. -/
theorem mem_releaseOthers {i j : ℕ} {e : α} (hsort : failed.Pairwise (· < ·))
    (hfrom : ∀ f ∈ failed, i ≤ f) (hj : i + j ∉ failed) (he : array[j]? = some e) :
    e ∈ releaseOthers array i failed := by
  induction array generalizing i j failed with
  | nil => exact absurd he (by simp)
  | cons first rest ih =>
    cases failed with
    | nil =>
      rw [releaseOthers_nil]
      exact mem_of_getElem? he
    | cons f fs =>
      obtain ⟨hhead, htail⟩ := pairwise_cons.mp hsort
      have hf : i ≤ f := hfrom f mem_cons_self
      rw [releaseOthers]
      split
      · rename_i hif
        cases j with
        | zero => exact absurd (hif ▸ mem_cons_self) hj
        | succ j =>
          apply ih (i := i + 1) (j := j) htail (fun x hx => Nat.lt_of_le_of_lt hf (hhead x hx))
          · intro hmem
            apply hj
            rw [show i + 1 + j = i + (j + 1) by omega] at hmem
            exact mem_cons_of_mem _ hmem
          · simpa using he
      · rename_i hif
        have hlt : i < f := Nat.lt_of_le_of_ne hf hif
        cases j with
        | zero =>
          obtain rfl : first = e := by simpa using he
          exact mem_cons_self
        | succ j =>
          apply mem_cons_of_mem
          apply ih (j := j) hsort
          · intro x hx
            rcases mem_cons.mp hx with rfl | hx
            · exact hlt
            · exact Nat.lt_trans hlt (hhead x hx)
          · intro hmem
            apply hj
            rwa [show i + 1 + j = i + (j + 1) by omega] at hmem
          · simpa using he

/-- Failed indices that are not the first ones leave out a place that a later one is moved to. -/
theorem exists_gap (hsort : failed.Pairwise (· < ·)) (hfrom : ∀ i ∈ failed, k ≤ i)
    (hne : failed ≠ range' k failed.length) : ∃ j i, failed[j]? = some i ∧ k + j ∉ failed := by
  induction failed generalizing k with
  | nil => exact absurd rfl hne
  | cons f fs ih =>
    obtain ⟨hhead, htail⟩ := pairwise_cons.mp hsort
    have hf : k ≤ f := hfrom f mem_cons_self
    rcases Nat.eq_or_lt_of_le hf with rfl | hlt
    · have htail' : fs ≠ range' (k + 1) fs.length := by
        intro h
        apply hne
        rw [length_cons, range'_succ, ← h]
      obtain ⟨j, i, hj, hgap⟩ := ih htail (fun x hx => hhead x hx) htail'
      refine ⟨j + 1, i, by simpa using hj, ?_⟩
      intro hmem
      rcases mem_cons.mp hmem with heq | hmem
      · omega
      · exact hgap (by rwa [show k + (j + 1) = k + 1 + j by omega] at hmem)
    · refine ⟨0, f, rfl, ?_⟩
      intro hmem
      rcases mem_cons.mp hmem with heq | hmem
      · omega
      · have := hhead _ hmem
        omega

end

section

variable {cfg : ConsumerConfig} {contents : ℕ → String} {answers : FlushAnswers} {held : Held}
  {split : Split}

/-- `tryFlush` decomposes the batch: it may flush, the store or `XAck` fails with an error that is no
cancellation and not retriable, and some message was retried too often. -/
def decomposes (cfg : ConsumerConfig) (answers : FlushAnswers) (held : Held) : Bool :=
  answers.allowed && decide (held.batch ≠ []) &&
    match answers.store.or answers.xack with
    | none => false
    | some err => !err.canceled && !err.retriable && hasPoisonPill cfg answers.incr held

/-- The error of `flushBatch`. -/
theorem flushBatch_fst (contents : ℕ → String) (batch : List ℕ) (msgIDs : List String)
    (store xack : Option StoreError) :
    (flushBatch contents batch msgIDs store xack).1 =
      if batch = [] then none else store.or xack := by
  unfold flushBatch
  split
  · rfl
  · cases store <;> rfl

/-- What `tryFlush` can do: it keeps the batch, it clears it and returns all its events, or it settles the
decomposed batch. -/
inductive TryFlushed (cfg : ConsumerConfig) (contents : ℕ → String) (answers : FlushAnswers)
    (split : Split) (held : Held) : Flushed → Prop
  | kept (h : Held) (effects : List Effect) (hdecomposes : decomposes cfg answers held = false)
      (hbatch : h.batch = held.batch) (hids : h.msgIDs = held.msgIDs)
      (heffects : effects = [] ∨
        effects = (flushBatch contents held.batch held.msgIDs answers.store answers.xack).2) :
      TryFlushed cfg contents answers split held ⟨h, [], effects⟩
  | cleared (hdecomposes : decomposes cfg answers held = false) :
      TryFlushed cfg contents answers split held ⟨.cleared, held.batch,
        (flushBatch contents held.batch held.msgIDs answers.store answers.xack).2⟩
  | settled (counted : Held) (hdecomposes : decomposes cfg answers held = true)
      (hbatch : counted.batch = held.batch) (hids : counted.msgIDs = held.msgIDs) :
      TryFlushed cfg contents answers split held
        ⟨(settleSplit contents answers.dlq counted split).held,
          (settleSplit contents answers.dlq counted split).released,
          (flushBatch contents held.batch held.msgIDs answers.store answers.xack).2 ++
            (settleSplit contents answers.dlq counted split).effects⟩

/-- `tryFlush` does one of these. -/
theorem tryFlushed_tryFlushSplit (cfg : ConsumerConfig) (contents : ℕ → String)
    (answers : FlushAnswers) (split : Split) (held : Held) :
    TryFlushed cfg contents answers split held (tryFlushSplit cfg contents answers split held) := by
  have herror := flushBatch_fst contents held.batch held.msgIDs answers.store answers.xack
  unfold tryFlushSplit
  by_cases hallow : answers.allowed = false
  · rw [if_pos hallow]
    refine .kept held [] ?_ rfl rfl (.inl rfl)
    simp [decomposes, hallow]
  rw [if_neg hallow]
  generalize hflush : flushBatch contents held.batch held.msgIDs answers.store answers.xack = result at *
  obtain ⟨err, effects⟩ := result
  cases err with
  | none =>
    have hparts : decomposes cfg answers held = false := by
      by_cases hempty : held.batch = []
      · simp [decomposes, hempty]
      · rw [if_neg hempty] at herror
        simp [decomposes, ← herror]
    have hcleared : TryFlushed cfg contents answers split held ⟨.cleared, held.batch,
        (flushBatch contents held.batch held.msgIDs answers.store answers.xack).2⟩ :=
      .cleared hparts
    rwa [hflush] at hcleared
  | some err =>
    have hne : held.batch ≠ [] := by
      intro hempty
      rw [if_pos hempty] at herror
      exact Option.some_ne_none _ herror
    rw [if_neg hne] at herror
    have hparts : decomposes cfg answers held =
        (!err.canceled && !err.retriable && hasPoisonPill cfg answers.incr held) := by
      simp [decomposes, hallow, hne, ← herror]
    have heff : effects = (flushBatch contents held.batch held.msgIDs answers.store answers.xack).2 := by
      rw [hflush]
    dsimp only
    by_cases hcanc : err.canceled = true
    · rw [if_pos hcanc]
      exact .kept held effects (by simp [hparts, hcanc]) rfl rfl (.inr heff)
    rw [if_neg hcanc]
    by_cases hwait : hasPoisonPill cfg answers.incr held = false ∨ err.retriable = true
    · rw [if_pos hwait]
      have hsame (held : Held) : (held.backOff cfg answers.done).batch = held.batch ∧
          (held.backOff cfg answers.done).msgIDs = held.msgIDs := by
        unfold Held.backOff
        split <;> exact ⟨rfl, rfl⟩
      refine .kept _ effects ?_ (hsame _).1 (hsame _).2 (.inr heff)
      rcases hwait with hwait | hwait <;> simp [hparts, hwait]
    · rw [if_neg hwait, heff]
      rw [not_or] at hwait
      exact .settled _ (by simp [hparts, hcanc, hwait.1, hwait.2]) rfl rfl

/-- The events that `tryFlush` moves to the dead-letter stream cannot be moved there. -/
def dlqFails (contents : ℕ → String) (answers : FlushAnswers) (held : Held) (split : Split) : Bool :=
  (moveToDLQ contents (split.failIdx.filterMap (held.batch[·]?))
    (split.failIdx.filterMap (held.msgIDs[·]?)) answers.dlq).1

/-- A decomposed batch is cleared unless the dead-letter stream fails. -/
theorem settleSplit_of_not_dlqFails (h : dlqFails contents answers held split = false) :
    (settleSplit contents answers.dlq held split).held = .cleared ∧
      (settleSplit contents answers.dlq held split).released = held.batch := by
  unfold settleSplit
  unfold dlqFails at h
  dsimp only
  split
  · exact ⟨rfl, rfl⟩
  · rw [h, if_neg Bool.false_ne_true]
    exact ⟨rfl, rfl⟩

/-- When the dead-letter stream fails, the array of the batch is compacted and walked. -/
theorem settleSplit_of_dlqFails (h : dlqFails contents answers held split = true) :
    (settleSplit contents answers.dlq held split).held =
        { held with
          batch := (compact held.batch 0 split.failIdx).take split.failIdx.length
          msgIDs := (compact held.msgIDs 0 split.failIdx).take split.failIdx.length } ∧
      (settleSplit contents answers.dlq held split).released =
        releaseOthers (compact held.batch 0 split.failIdx) 0 split.failIdx := by
  have hne : split.failIdx ≠ [] := by
    intro hnil
    rw [dlqFails, hnil] at h
    exact Bool.false_ne_true h
  unfold settleSplit
  unfold dlqFails at h
  dsimp only
  rw [if_neg hne, h, if_pos rfl]
  exact ⟨rfl, rfl⟩

variable {batch : List ℕ} {after : Flushed}

/-- Each object of the batch is still in the batch and was not returned to the pool, or was returned
once and is no longer in the batch. -/
def Unshared (batch : List ℕ) (after : Flushed) : Prop :=
  ∀ o ∈ batch, (o ∈ after.held.batch ∧ o ∉ after.released) ∨
    (o ∉ after.held.batch ∧ after.released.count o = 1)

instance (batch : List ℕ) (after : Flushed) : Decidable (Unshared batch after) :=
  inferInstanceAs (Decidable (∀ o ∈ batch, (o ∈ after.held.batch ∧ o ∉ after.released) ∨
    (o ∉ after.held.batch ∧ after.released.count o = 1)))

theorem Unshared.of_kept (hbatch : after.held.batch = batch) (hfreed : after.released = []) :
    Unshared batch after := by
  intro o ho
  rw [hbatch, hfreed]
  exact .inl ⟨ho, not_mem_nil⟩

/-- A batch whose first objects are kept and whose others are returned. -/
theorem Unshared.of_take_drop (hnodup : batch.Nodup) (k : ℕ)
    (hbatch : after.held.batch = batch.take k) (hfreed : after.released = batch.drop k) :
    Unshared batch after := by
  intro o ho
  rw [hbatch, hfreed]
  have hparts := hnodup
  rw [← take_append_drop k batch, nodup_append] at hparts
  rw [← take_append_drop k batch] at ho
  rcases mem_append.mp ho with ho | ho
  · exact .inl ⟨ho, fun h => hparts.2.2 o ho o h rfl⟩
  · exact .inr ⟨fun h => hparts.2.2 o h o ho rfl, count_eq_one_of_mem hparts.2.1 ho⟩

/-- Compacting in place shares an object unless the failed events are the first ones. -/
theorem not_unshared_of_gap {failed : List ℕ} (hsort : failed.Pairwise (· < ·))
    (hrange : ∀ i ∈ failed, i < batch.length) (hne : failed ≠ range failed.length)
    (hbatch : after.held.batch = (compact batch 0 failed).take failed.length)
    (hfreed : after.released = releaseOthers (compact batch 0 failed) 0 failed) :
    ¬ Unshared batch after := by
  rw [range_eq_range'] at hne
  obtain ⟨j, i, hj, hgap⟩ := exists_gap hsort (fun i _ => Nat.zero_le i) hne
  have hi : i < batch.length := hrange i (mem_of_getElem? hj)
  have hplace : (compact batch 0 failed)[j]? = some batch[i] := by
    have hmoved := getElem?_compact hsort (fun i _ => Nat.zero_le i) hrange hj
    rwa [Nat.zero_add, getElem?_eq_getElem hi] at hmoved
  have hkept : batch[i] ∈ after.held.batch := by
    rw [hbatch]
    apply mem_of_getElem? (i := j)
    rw [List.getElem?_take_of_lt (List.getElem?_eq_some_iff.mp hj).1, hplace]
  have hput : batch[i] ∈ after.released := by
    rw [hfreed]
    exact mem_releaseOthers hsort (fun i _ => Nat.zero_le i) hgap hplace
  intro hshare
  rcases hshare batch[i] (getElem_mem hi) with h | h
  · exact h.2 hput
  · exact h.1 hkept

/-- After `tryFlush` no object of the batch is both in the pool and in the batch, none is lost and none
was returned twice, exactly when the batch was not decomposed, the dead-letter stream took the failed
events, or the failed events are the first ones. -/
theorem pooled_events_unshared_iff (hnodup : held.batch.Nodup)
    (hsorted : split.failIdx.Pairwise (· < ·)) (hrange : ∀ i ∈ split.failIdx, i < held.batch.length) :
    Unshared held.batch (tryFlushSplit cfg contents answers split held) ↔
      (decomposes cfg answers held = true → dlqFails contents answers held split = true →
        split.failIdx = List.range split.failIdx.length) := by
  have hcases := tryFlushed_tryFlushSplit cfg contents answers split held
  generalize tryFlushSplit cfg contents answers split held = after at hcases
  cases hcases with
  | kept h effects hparts hbatch hids heff =>
    rw [hparts]
    exact ⟨fun _ h => absurd h Bool.false_ne_true, fun _ => .of_kept hbatch rfl⟩
  | cleared hparts =>
    rw [hparts]
    exact ⟨fun _ h => absurd h Bool.false_ne_true, fun _ => .of_take_drop hnodup 0 rfl rfl⟩
  | settled counted hparts hbatch hids =>
    have hfails : dlqFails contents answers counted split = dlqFails contents answers held split := by
      rw [dlqFails, hbatch, hids, dlqFails]
    by_cases hdlq : dlqFails contents answers held split = true
    · obtain ⟨hkept, hput⟩ := settleSplit_of_dlqFails (hfails.trans hdlq)
      replace hkept := congrArg Held.batch hkept
      rw [hbatch] at hkept hput
      simp only [hparts, hdlq, true_implies]
      constructor
      · intro hshare
        by_contra hne
        exact not_unshared_of_gap hsorted hrange hne hkept hput hshare
      · intro hfirst
        rw [hfirst, range_eq_range', compact_range', length_range'] at hkept
        rw [hfirst, range_eq_range', compact_range', releaseOthers_range'] at hput
        exact .of_take_drop hnodup _ hkept hput
    · rw [Bool.not_eq_true] at hdlq
      obtain ⟨hkept, hput⟩ := settleSplit_of_not_dlqFails (hfails.trans hdlq)
      rw [hbatch] at hput
      refine ⟨fun _ _ h => absurd (hdlq.symm.trans h) Bool.false_ne_true, fun _ => ?_⟩
      exact .of_take_drop hnodup 0 (congrArg Held.batch hkept) hput

/-- Three retries, with waits between a tenth of a second and a minute. -/
def threeRetries : ConsumerConfig := ⟨3, firstRetryWait, 60000000000⟩

/-- A store that refuses a batch whose messages were all retried too often and every part with the message
at the given place, and a dead-letter stream that takes nothing. -/
def poisonedAt (place : ℕ) : FlushAnswers where
  allowed := true
  store := some ⟨false, false⟩
  xack := none
  incr := fun _ => 4
  answer := fun start length =>
    if start ≤ place ∧ place < start + length then some ⟨false, false⟩ else none
  dlq := ⟨fun _ => false, fun _ => true, true, false⟩
  done := false

/-- Two objects with the events of two messages. -/
def twoHeld : Held := ⟨[0, 1], ["1526919030474-0", "1526919030474-1"], 0, firstRetryWait⟩

/-- The contents of the two objects. -/
def twoContents (o : ℕ) : String := twoHeld.msgIDs.getD o ""

/-- The decomposition of two messages of which the first one is refused. -/
def firstRefused : Split := splitStoreBatch (poisonedAt 0).answer 2 twoHeld.msgIDs 0

/-- The refused event is the first one of the batch. -/
theorem pooled_events_unshared_first_refused :
    Unshared twoHeld.batch (tryFlushSplit threeRetries twoContents (poisonedAt 0) firstRefused twoHeld) ↔
      (decomposes threeRetries (poisonedAt 0) twoHeld = true →
        dlqFails twoContents (poisonedAt 0) twoHeld firstRefused = true →
        firstRefused.failIdx = List.range firstRefused.failIdx.length) :=
  pooled_events_unshared_iff (by decide) (by decide) (by decide)

/-- The second of two events is refused and cannot be moved to the dead-letter stream: it is returned to
the pool and stays in the batch, and the first is never returned. -/
theorem refused_event_shared :
    let after := tryFlush threeRetries twoContents (poisonedAt 1) twoHeld
    ¬ Unshared twoHeld.batch after ∧ after.held.batch = [1] ∧ after.released = [1] := by
  decide +kernel

end

end Espx.Ingestion
