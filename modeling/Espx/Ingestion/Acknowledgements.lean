import Espx.Foundation.Replay
import Espx.Ingestion.PooledEvents

/-!
# What the stream consumer acknowledges

A message is to be acknowledged only after its event was stored or added to the dead-letter stream. Every
place that acknowledges does so for the events it has just stored or added; this says something about the
messages only as long as no object of a batch is returned to the pool.
-/

namespace Espx.Ingestion

open Espx.Foundation List Function

section

/-- An acknowledgement comes after the message's own event was stored or added to the dead-letter
stream. -/
def ackedAfter (before : List Effect) : Effect → Prop
  | .acked id => .stored id ∈ before ∨ .dead id id ∈ before
  | _ => True

/-- Effects that keep the acknowledgements of a trace justified. -/
def SafeEffects (effects : List Effect) : Prop :=
  ∀ trace, Justified ackedAfter trace → Justified ackedAfter (trace ++ effects)

theorem ackedAfter_mono (s t : List Effect) (e : Effect) (hst : s ⊆ t) (h : ackedAfter s e) :
    ackedAfter t e := by
  cases e with
  | acked id => exact h.imp (fun hs => hst hs) (fun hs => hst hs)
  | stored event | dead id event => trivial

theorem SafeEffects.nil : SafeEffects [] := by
  intro trace h
  rwa [append_nil]

theorem SafeEffects.append {first second : List Effect} (h : SafeEffects first)
    (h' : SafeEffects second) : SafeEffects (first ++ second) := by
  intro trace htrace
  rw [← append_assoc]
  exact h' _ (h trace htrace)

/-- Effects that acknowledge nothing, followed by acknowledgements that they justify. -/
theorem SafeEffects.of_acks {first acks : List Effect} (hfirst : ∀ e ∈ first, ∀ id, e ≠ .acked id)
    (hacks : ∀ e ∈ acks, ackedAfter first e) : SafeEffects (first ++ acks) := by
  intro trace htrace
  rw [← append_assoc]
  apply Justified.append ackedAfter_mono
  · apply Justified.append ackedAfter_mono htrace
    intro e he
    cases e with
    | acked id => exact absurd rfl (hfirst _ he id)
    | stored event | dead id event => trivial
  · intro e he
    exact ackedAfter_mono _ _ e (subset_append_right trace first) (hacks e he)

/-- The events of some messages are stored and then the messages acknowledged. -/
theorem SafeEffects.stored_acked {events ids : List String} (h : ids ⊆ events) :
    SafeEffects (events.map .stored ++ ids.map .acked) := by
  apply SafeEffects.of_acks
  · intro e he id heq
    obtain ⟨event, -, rfl⟩ := mem_map.mp he
    exact Effect.noConfusion heq
  · intro e he
    obtain ⟨id, hid, rfl⟩ := mem_map.mp he
    exact .inl (mem_map_of_mem (h hid))

variable {contents : ℕ → String} {batch : List ℕ} {msgIDs : List String}

/-- `flushBatch` acknowledges what it stored. -/
theorem safeEffects_flushBatch (hown : batch.map contents = msgIDs) (store xack : Option StoreError) :
    SafeEffects (flushBatch contents batch msgIDs store xack).2 := by
  unfold flushBatch
  split
  · exact .nil
  · cases store with
    | some err => exact .nil
    | none => exact .stored_acked (fun id hid => hown ▸ hid)

theorem keepPlaces_sublist {α : Type*} (fails : ℕ → Bool) (i : ℕ) (entries : List α) :
    (keepPlaces fails i entries).Sublist entries := by
  induction entries generalizing i with
  | nil => exact List.Sublist.refl []
  | cons x rest ih =>
    rw [keepPlaces]
    split
    · exact (ih (i + 1)).cons x
    · exact (ih (i + 1)).cons_cons x

theorem contents_of_mem_zip (hown : batch.map contents = msgIDs) {entry : ℕ × String}
    (h : entry ∈ batch.zip msgIDs) : contents entry.1 = entry.2 := by
  rw [← hown, ← map_prod_left_eq_zip] at h
  obtain ⟨object, -, rfl⟩ := mem_map.mp h
  rfl

/-- `moveToDLQ` acknowledges what it added to the dead-letter stream. -/
theorem safeEffects_moveToDLQ (hown : batch.map contents = msgIDs) (dlq : DLQAnswers) :
    SafeEffects (moveToDLQ contents batch msgIDs dlq).2 := by
  unfold moveToDLQ
  dsimp only
  split
  · exact .nil
  apply SafeEffects.of_acks
  · intro e he id heq
    obtain ⟨entry, -, rfl⟩ := mem_map.mp he
    exact Effect.noConfusion heq
  · intro e he
    obtain ⟨entry, hentry, rfl⟩ := mem_map.mp he
    have hzip : entry ∈ batch.zip msgIDs :=
      (keepPlaces_sublist _ _ _).subset ((keepPlaces_sublist _ _ _).subset hentry)
    refine .inr (mem_map.mpr ⟨entry, hentry, ?_⟩)
    rw [contents_of_mem_zip hown hzip]

end

section

variable {answer : ℕ → ℕ → Option StoreError}

/-- Whether the decomposition of the part of the given length and start stores the event at an index: as a
whole, or by the half that holds the index. -/
def storedAt (answer : ℕ → ℕ → Option StoreError) : ℕ → ℕ → ℕ → ℕ → Bool
  | 0, _, _, _ => false
  | fuel + 1, length, base, i =>
    match answer base length with
    | none => true
    | some err =>
      if err.retriable ∨ length = 1 then false
      else if i < base + length / 2 then storedAt answer fuel (length / 2) base i
      else storedAt answer fuel (length - length / 2) (base + length / 2) i

theorem range'_split (base : ℕ) {length mid : ℕ} (h : mid ≤ length) :
    range' base length = range' base mid ++ range' (base + mid) (length - mid) := by
  rw [range'_append_1, Nat.add_sub_cancel' h]

/-- The failed indices are those whose events are not stored, in order. -/
theorem failIdx_splitStoreBatch {fuel : ℕ} {batch : List String} (hfuel : batch.length ≤ fuel)
    (base : ℕ) :
    (splitStoreBatch answer fuel batch base).failIdx =
      (range' base batch.length).filter fun i => !storedAt answer fuel batch.length base i := by
  induction fuel generalizing batch base with
  | zero =>
    obtain rfl : batch = [] := length_eq_zero_iff.mp (Nat.le_zero.mp hfuel)
    rfl
  | succ fuel ih =>
    rw [splitStoreBatch]
    by_cases hempty : batch = []
    · subst hempty
      rfl
    rw [if_neg hempty]
    cases hans : answer base batch.length with
    | none => simp [storedAt, hans]
    | some err =>
      dsimp only
      by_cases hretry : err.retriable = true
      · simp [storedAt, hans, hretry]
      rw [if_neg hretry]
      by_cases hone : batch.length = 1
      · rw [if_pos hone, hone]
        rw [hone] at hans
        simp [storedAt, hans]
      rw [if_neg hone]
      have hmid : batch.length / 2 ≤ batch.length := Nat.div_le_self _ _
      have hleft : (batch.take (batch.length / 2)).length = batch.length / 2 :=
        length_take_of_le hmid
      have hright : (batch.drop (batch.length / 2)).length = batch.length - batch.length / 2 :=
        length_drop
      dsimp only
      rw [ih (by rw [hleft]; omega), ih (by rw [hright]; omega), hleft, hright,
        range'_split base hmid, filter_append]
      congr 1
      · apply filter_congr
        intro i hi
        have hlt : i < base + batch.length / 2 := (mem_range'_1.mp hi).2
        simp [storedAt, hans, hretry, hone, hlt]
      · apply filter_congr
        intro i hi
        have hge : ¬ i < base + batch.length / 2 := Nat.not_lt.mpr (mem_range'_1.mp hi).1
        simp [storedAt, hans, hretry, hone, hge]

/-- Reading a range of places. -/
theorem filterMap_range'_getElem? {α : Type*} (l : List α) (base n : ℕ) :
    (range' base n).filterMap (l[·]?) = (l.drop base).take n := by
  induction n generalizing base with
  | zero => rfl
  | succ n ih =>
    rw [range'_succ]
    cases h : l[base]? with
    | none =>
      have hlen : l.length ≤ base := getElem?_eq_none_iff.mp h
      rw [filterMap_cons_none h, ih, drop_eq_nil_of_le hlen,
        drop_eq_nil_of_le (Nat.le_succ_of_le hlen), take_nil, take_nil]
    | some x =>
      obtain ⟨hlt, rfl⟩ := List.getElem?_eq_some_iff.mp h
      rw [List.filterMap_cons_some h, ih, List.drop_eq_getElem_cons hlt, List.take_succ_cons]

/-- The events that the decomposition stores are those at its successful indices. -/
theorem stored_splitStoreBatch {all batch : List String} {base : ℕ}
    (hpart : batch <+: all.drop base) (fuel : ℕ) :
    (splitStoreBatch answer fuel batch base).stored =
      (splitStoreBatch answer fuel batch base).successIdx.filterMap (all[·]?) := by
  induction fuel generalizing batch base with
  | zero => rfl
  | succ fuel ih =>
    rw [splitStoreBatch]
    by_cases hempty : batch = []
    · rw [if_pos hempty]
      rfl
    rw [if_neg hempty]
    cases answer base batch.length with
    | none =>
      rw [filterMap_range'_getElem?]
      exact prefix_iff_eq_take.mp hpart
    | some err =>
      dsimp only
      split
      · rfl
      split
      · rfl
      have hhalf : batch.take (batch.length / 2) <+: batch := take_prefix _ _
      have hleft := hhalf.trans hpart
      have hright : batch.drop (batch.length / 2) <+: all.drop (base + batch.length / 2) := by
        obtain ⟨rest, hrest⟩ := hpart
        refine ⟨rest, ?_⟩
        rw [← drop_drop, ← hrest, drop_append_of_le_length (Nat.div_le_self _ _)]
      rw [ih hleft, ih hright, filterMap_append]

/-- No event that the decomposition of a batch stores stands before one that it refuses. -/
def RefusedFirst (answer : ℕ → ℕ → Option StoreError) (length : ℕ) : Prop :=
  ∀ j < length, ∀ i < j, storedAt answer length length 0 j = false →
    storedAt answer length length 0 i = false

instance (answer : ℕ → ℕ → Option StoreError) (length : ℕ) : Decidable (RefusedFirst answer length) :=
  inferInstanceAs (Decidable (∀ j < length, ∀ i < j, storedAt answer length length 0 j = false →
    storedAt answer length length 0 i = false))

/-- Then the failed indices are the first ones. -/
theorem RefusedFirst.failIdx_eq {batch : List String} (h : RefusedFirst answer batch.length) :
    ∃ k, (splitStoreBatch answer batch.length batch 0).failIdx = range k := by
  rw [failIdx_splitStoreBatch (Nat.le_refl _), ← range_eq_range']
  have hfront : (range batch.length).filter (fun i => !storedAt answer batch.length batch.length 0 i) <+:
      range batch.length := by
    refine filter_prefix_of_pairwise (pairwise_lt_range.imp_of_mem fun {i j} _ hj hij href => ?_)
    rw [Bool.not_eq_true'] at href ⊢
    exact h j (mem_range.mp hj) i hij href
  exact ⟨_, (prefix_iff_eq_take.mp hfront).trans take_range⟩

end

section

variable {cfg : ConsumerConfig} {contents : ℕ → String} {answers : FlushAnswers} {held : Held}
  {split : Split}

section

variable (hown : held.batch.map contents = held.msgIDs)
  (hstored : split.stored = split.successIdx.filterMap (held.msgIDs[·]?))
include hown hstored

/-- Settling a decomposed batch acknowledges what the decomposition stored and what was added to the
dead-letter stream. -/
theorem safeEffects_settleSplit (dlq : DLQAnswers) :
    SafeEffects (settleSplit contents dlq held split).effects := by
  have hacked : SafeEffects (split.stored.map .stored ++
      (split.successIdx.filterMap (held.msgIDs[·]?)).map .acked) :=
    .stored_acked (fun id hid => hstored ▸ hid)
  have hfail : (split.failIdx.filterMap (held.batch[·]?)).map contents =
      split.failIdx.filterMap (held.msgIDs[·]?) := by
    rw [map_filterMap, ← hown]
    simp only [getElem?_map]
  have hdlq := safeEffects_moveToDLQ hfail dlq
  unfold settleSplit
  dsimp only
  split
  · exact hacked
  · split <;> exact hacked.append hdlq

/-- What a call leaves of a batch: its first messages are kept, objects are only returned of the
others, and the effects are safe. -/
structure KeepsFirst (held : Held) (k : ℕ) (after : Flushed) : Prop where
  batch : after.held.batch = held.batch.take k
  msgIDs : after.held.msgIDs = held.msgIDs.take k
  released : after.released.Sublist (held.batch.drop k)
  effects : SafeEffects after.effects

/-- A decomposed batch keeps its first messages when the dead-letter stream takes the failed ones or
the failed ones are the first. -/
theorem keepsFirst_settleSplit
    (hfirst : dlqFails contents answers held split = true → ∃ k, split.failIdx = range k) :
    ∃ k, KeepsFirst held k (settleSplit contents answers.dlq held split) := by
  have heff := safeEffects_settleSplit hown hstored answers.dlq
  by_cases hfails : dlqFails contents answers held split = true
  · obtain ⟨k, hk⟩ := hfirst hfails
    obtain ⟨hheld, hfreed⟩ := settleSplit_of_dlqFails hfails
    rw [hk, range_eq_range', compact_range', compact_range', length_range'] at hheld
    rw [hk, range_eq_range', compact_range', releaseOthers_range'] at hfreed
    exact ⟨k, congrArg Held.batch hheld, congrArg Held.msgIDs hheld, by rw [hfreed], heff⟩
  · rw [Bool.not_eq_true] at hfails
    obtain ⟨hheld, hfreed⟩ := settleSplit_of_not_dlqFails hfails
    refine ⟨0, congrArg Held.batch hheld, congrArg Held.msgIDs hheld, ?_, heff⟩
    rw [hfreed, drop_zero]

/-- The same of `tryFlush`. -/
theorem keepsFirst_tryFlushSplit
    (hfirst : decomposes cfg answers held = true → dlqFails contents answers held split = true →
      ∃ k, split.failIdx = range k) :
    ∃ k, KeepsFirst held k (tryFlushSplit cfg contents answers split held) := by
  have hflush := safeEffects_flushBatch hown answers.store answers.xack
  have hcases := tryFlushed_tryFlushSplit cfg contents answers split held
  generalize tryFlushSplit cfg contents answers split held = after at hcases
  cases hcases with
  | kept h effects hparts hbatch hids heff =>
    have hlen : held.msgIDs.length = held.batch.length := by rw [← hown, length_map]
    refine ⟨held.batch.length, ?_, ?_, nil_sublist _, ?_⟩
    · rw [hbatch, take_length]
    · rw [hids, ← hlen, take_length]
    · rcases heff with rfl | rfl
      · exact .nil
      · exact hflush
  | cleared hparts =>
    exact ⟨0, rfl, rfl, List.Sublist.refl _, hflush⟩
  | settled counted hparts hbatch hids =>
    have hown' : counted.batch.map contents = counted.msgIDs := by rw [hbatch, hids, hown]
    have hstored' : split.stored = split.successIdx.filterMap (counted.msgIDs[·]?) := by
      rw [hids, hstored]
    have hfirst' : dlqFails contents answers counted split = true → ∃ k, split.failIdx = range k := by
      rw [dlqFails, hbatch, hids]
      exact hfirst hparts
    obtain ⟨k, hk⟩ := keepsFirst_settleSplit hown' hstored' hfirst'
    exact ⟨k, by rw [hk.batch, hbatch], by rw [hk.msgIDs, hids],
      by rw [← hbatch]; exact hk.released, hflush.append hk.effects⟩

end

end

section

variable {pool : EventPool}

/-- A use of the pool that leaves the objects of others alone and has safe effects. -/
structure SafeUse (pool : EventPool) (result : EventPool × List Effect) : Prop where
  keeps : pool.Keeps result.1
  effects : SafeEffects result.2

theorem SafeUse.trans {first second : EventPool × List Effect} (h : SafeUse pool first)
    (h' : SafeUse first.1 second) : SafeUse pool (second.1, first.2 ++ second.2) :=
  ⟨h.keeps.trans h'.keeps, h.effects.append h'.effects⟩

/-- One round parses its messages, flushes them and returns their objects. -/
theorem safeUse_round (hpool : pool.Sound) (round : Round) :
    let batch := (pool.fillAll round.msgs).1
    let taken := (pool.fillAll round.msgs).2
    SafeUse pool (taken.putAll batch,
      (flushBatch taken.contents batch (round.msgs.map Prod.fst) round.store round.xack).2) :=
  ⟨(hpool.filled round.msgs).keeps_putAll (List.Perm.refl _),
    safeEffects_flushBatch (hpool.filled round.msgs).written round.store round.xack⟩

/-- `recoverPending` acknowledges only what it stored or added to the dead-letter stream. -/
theorem safeUse_recoverPending (hpool : pool.Sound) (rounds : List Round) :
    SafeUse pool (recoverPending pool rounds) := by
  induction rounds generalizing pool with
  | nil => exact ⟨hpool.keeps, .nil⟩
  | cons round rest ih =>
    rw [recoverPending]
    split
    · exact ⟨hpool.keeps, .nil⟩
    have hround := safeUse_round hpool round
    unfold parseMessages
    dsimp only at hround ⊢
    split <;> rename_i hflushed <;> rw [hflushed] at hround
    · exact hround.trans (ih hround.keeps.sound)
    split
    · exact hround
    · exact ⟨hround.keeps,
        hround.effects.append (safeEffects_moveToDLQ (hpool.filled round.msgs).written round.dlq)⟩

/-- `drainNewMessages` acknowledges only what it stored. -/
theorem safeUse_drainNewMessages (hpool : pool.Sound) (rounds : List Round) :
    SafeUse pool (drainNewMessages pool rounds) := by
  induction rounds generalizing pool with
  | nil => exact ⟨hpool.keeps, .nil⟩
  | cons round rest ih =>
    rw [drainNewMessages]
    split
    · exact ⟨hpool.keeps, .nil⟩
    have hround := safeUse_round hpool round
    unfold parseMessages
    dsimp only at hround ⊢
    split <;> rename_i hflushed <;> rw [hflushed] at hround
    · exact hround.trans (ih hround.keeps.sound)
    · exact hround

/-- The places that fail and those that do not make up the list. -/
theorem keepPlaces_perm {α : Type*} (fails : ℕ → Bool) (i : ℕ) (entries : List α) :
    (keepPlaces (fun j => !fails j) i entries ++ keepPlaces fails i entries).Perm entries := by
  induction entries generalizing i with
  | nil => exact List.Perm.refl _
  | cons x rest ih =>
    cases hfails : fails i with
    | true =>
      simp only [keepPlaces, hfails, Bool.not_true, Bool.false_eq_true, if_false, if_true, cons_append]
      exact (ih (i + 1)).cons x
    | false =>
      simp only [keepPlaces, hfails, Bool.not_false, Bool.false_eq_true, if_false, if_true]
      exact perm_middle.trans ((ih (i + 1)).cons x)

/-- Some pairs of a batch: the objects hold the events of the messages. -/
theorem map_contents_unzip {contents : ℕ → String} {batch : List ℕ} {msgIDs : List String}
    (hown : batch.map contents = msgIDs) {entries : List (ℕ × String)}
    (hents : entries.Sublist (batch.zip msgIDs)) : entries.unzip.1.map contents = entries.unzip.2 := by
  rw [unzip_eq_map, map_map]
  exact map_congr_left fun entry hentry =>
    contents_of_mem_zip hown (hents.subset hentry)

/-- `claimStuckMessages` acknowledges only what it stored or added to the dead-letter stream. -/
theorem safeUse_claimStuckMessages (cfg : ConsumerConfig) (hpool : pool.Sound)
    (rounds : List ClaimRound) : SafeUse pool (claimStuckMessages cfg pool rounds) := by
  induction rounds generalizing pool with
  | nil => exact ⟨hpool.keeps, .nil⟩
  | cons round rest ih =>
    have hfilled := hpool.filled round.msgs
    rw [claimStuckMessages]
    set events := (pool.fillAll round.msgs).1
    set entries := events.zip (round.msgs.map Prod.fst) with hents
    set exceeded : ℕ → Bool := fun i => decide (cfg.maxRetries < round.incr i)
    have hdead := safeEffects_moveToDLQ
      (map_contents_unzip hfilled.written (keepPlaces_sublist (fun i => !exceeded i) 0 entries))
      round.dlq
    have hflush := safeEffects_flushBatch
      (map_contents_unzip hfilled.written (keepPlaces_sublist exceeded 0 entries))
      round.store round.xack
    have hperm : ((keepPlaces (fun i => !exceeded i) 0 entries).unzip.1 ++
        (keepPlaces exceeded 0 entries).unzip.1).Perm events := by
      rw [unzip_eq_map, unzip_eq_map, ← map_append]
      have hall : entries.map Prod.fst = events := by
        apply map_fst_zip
        rw [← hfilled.written, length_map]
      exact hall ▸ (keepPlaces_perm exceeded 0 entries).map Prod.fst
    have hback := hfilled.keeps_putAll hperm
    rw [← Pool.putAll_putAll] at hback
    have hround : SafeUse pool (_, _) := ⟨hback, hdead.append hflush⟩
    exact hround.trans (ih hback.sound)

end

section

variable {ι : Type*} {cfg : ConsumerConfig} {s : Consumer ι}

/-- The workers hold distinct objects that are not in the pool, each object holds the event of its
message, and the acknowledgements were justified. -/
structure Consistent (s : Consumer ι) : Prop where
  sound : s.pool.Sound
  owned : ∀ w, s.pool.Owned (s.workers w).batch
  apart : ∀ w w', w ≠ w' → (s.workers w).batch.Disjoint (s.workers w').batch
  own : ∀ w, (s.workers w).batch.map s.pool.contents = (s.workers w).msgIDs
  justified : Justified ackedAfter s.trace

/-- Nothing was read. -/
theorem consistent_start (cfg : ConsumerConfig) : Consistent (Consumer.start cfg : Consumer ι) where
  sound := ⟨nodup_nil, fun _ ho => absurd ho not_mem_nil⟩
  owned := fun _ => ⟨nodup_nil, fun _ ho => absurd ho not_mem_nil⟩
  apart := fun _ _ _ _ ho => absurd ho not_mem_nil
  own := fun _ => rfl
  justified := by
    intro before e after h
    exact absurd h (by simp [Consumer.start])

/-- A use of the pool that leaves the objects of others alone. -/
theorem Consistent.safeUse (h : Consistent s) {result : EventPool × List Effect}
    (huse : SafeUse s.pool result) :
    Consistent { s with pool := result.1, trace := s.trace ++ result.2 } :=
  { sound := huse.keeps.sound
    owned := fun w => huse.keeps.owned _ (h.owned w)
    apart := h.apart
    own := fun w => (huse.keeps.contents _ (h.owned w)).trans (h.own w)
    justified := huse.effects s.trace h.justified }

variable [DecidableEq ι]

/-- A worker keeps its first messages and returns objects of others only. -/
theorem Consistent.keepsFirst (h : Consistent s) {worker : ι} {k : ℕ} {after : Flushed}
    (hkeeps : KeepsFirst (s.workers worker) k after) :
    Consistent ({ s with
      pool := s.pool.putAll after.released
      trace := s.trace ++ after.effects }.setWorker worker after.held) := by
  have hfreed : s.pool.Owned after.released :=
    (h.owned worker).sublist (hkeeps.released.trans (drop_sublist _ _))
  set next := update s.workers worker after.held with hnext
  have hown : ∀ w, ∃ k, (next w).batch = (s.workers w).batch.take k ∧
      (next w).msgIDs = (s.workers w).msgIDs.take k ∧
        ((s.workers w).batch.take k).Disjoint after.released := by
    intro w
    by_cases hw : w = worker
    · subst hw
      rw [hnext, update_self]
      refine ⟨k, hkeeps.batch, hkeeps.msgIDs, fun o htake hput => ?_⟩
      have hnodup := (h.owned w).nodup
      rw [← take_append_drop k (s.workers w).batch, nodup_append] at hnodup
      exact hnodup.2.2 o htake o (hkeeps.released.subset hput) rfl
    · rw [hnext, update_of_ne hw]
      refine ⟨(s.workers w).batch.length, (take_length).symm, ?_, ?_⟩
      · rw [← length_map s.pool.contents, h.own w, take_length]
      · intro o ho hput
        exact h.apart w worker hw (mem_of_mem_take ho) (mem_of_mem_drop (hkeeps.released.subset hput))
  exact
    { sound := h.sound.putAll hfreed
      owned := by
        intro w
        obtain ⟨k, hbatch, -, hdisj⟩ := hown w
        change (s.pool.putAll after.released).Owned (next w).batch
        rw [hbatch]
        exact ((h.owned w).sublist (take_sublist _ _)).putAll hdisj
      apart := by
        intro w w' hne o ho ho'
        obtain ⟨k, hbatch, -⟩ := hown w
        obtain ⟨k', hbatch', -⟩ := hown w'
        change o ∈ (next w).batch at ho
        change o ∈ (next w').batch at ho'
        rw [hbatch] at ho
        rw [hbatch'] at ho'
        exact h.apart w w' hne (mem_of_mem_take ho) (mem_of_mem_take ho')
      own := by
        intro w
        obtain ⟨k, hbatch, hids, -⟩ := hown w
        change (next w).batch.map s.pool.contents = (next w).msgIDs
        rw [hbatch, hids, map_take, h.own w]
      justified := hkeeps.effects s.trace h.justified }

/-- A worker reads messages. -/
theorem Consistent.read (h : Consistent s) (worker : ι) (msgs : List (String × Option ℕ)) :
    Consistent (consumerStep cfg s (.read worker msgs)) := by
  have hfilled := h.sound.filled msgs
  set objs := (s.pool.fillAll msgs).1
  set pool := (s.pool.fillAll msgs).2
  set held : Held := { s.workers worker with
    batch := (s.workers worker).batch ++ objs
    msgIDs := (s.workers worker).msgIDs ++ msgs.map Prod.fst } with hheld
  set next := update s.workers worker held
  have hself : next worker = held := update_self _ _ _
  have hother : ∀ w, w ≠ worker → next w = s.workers w := fun w hw => update_of_ne hw _ _
  have hmem : ∀ w o, o ∈ (next w).batch → o ∈ (s.workers w).batch ∨ w = worker ∧ o ∈ objs := by
    intro w o ho
    by_cases hw : w = worker
    · rw [hw, hself] at ho
      exact (mem_append.mp ho).imp (fun h => hw ▸ h) (fun h => ⟨hw, h⟩)
    · rw [hother w hw] at ho
      exact .inl ho
  exact
    { sound := hfilled.sound
      owned := by
        intro w
        change pool.Owned (next w).batch
        by_cases hw : w = worker
        · rw [hw, hself]
          exact (hfilled.owned_of_owned (h.owned worker)).append hfilled.owned
            (hfilled.disjoint (h.owned worker))
        · rw [hother w hw]
          exact hfilled.owned_of_owned (h.owned w)
      apart := by
        intro w w' hne o ho ho'
        rcases hmem w o ho with hold | ⟨hw, hnew⟩
        · rcases hmem w' o ho' with hold' | ⟨-, hnew'⟩
          · exact h.apart w w' hne hold hold'
          · exact hfilled.disjoint (h.owned w) hold hnew'
        · rcases hmem w' o ho' with hold' | ⟨hw', -⟩
          · exact hfilled.disjoint (h.owned w') hold' hnew
          · exact hne (hw.trans hw'.symm)
      own := by
        intro w
        change (next w).batch.map pool.contents = (next w).msgIDs
        by_cases hw : w = worker
        · rw [hw, hself, hheld]
          rw [map_append, hfilled.written, hfilled.map_contents (h.owned worker), h.own worker]
        · rw [hother w hw, hfilled.map_contents (h.owned w), h.own w]
      justified := h.justified }

/-- A flush returns no object that stays in a batch: when a batch is decomposed and the dead-letter stream
fails, no stored event stands before a refused one. -/
def keepsOwners (cfg : ConsumerConfig) (s : Consumer ι) : ConsumerAction ι → Prop
  | .tryFlush worker answers =>
    let held := s.workers worker
    decomposes cfg answers held = true →
      dlqFails s.pool.contents answers held
        (splitStoreBatch answers.answer held.batch.length (held.batch.map s.pool.contents) 0) = true →
      RefusedFirst answers.answer held.batch.length
  | _ => True

instance (cfg : ConsumerConfig) (s : Consumer ι) :
    (action : ConsumerAction ι) → Decidable (keepsOwners cfg s action)
  | .tryFlush worker answers =>
    inferInstanceAs (Decidable (decomposes cfg answers (s.workers worker) = true →
      dlqFails s.pool.contents answers (s.workers worker)
        (splitStoreBatch answers.answer (s.workers worker).batch.length
          ((s.workers worker).batch.map s.pool.contents) 0) = true →
      RefusedFirst answers.answer (s.workers worker).batch.length))
  | .read _ _ => .isTrue trivial
  | .stop _ _ _ => .isTrue trivial
  | .recoverPending _ => .isTrue trivial
  | .drainNewMessages _ => .isTrue trivial
  | .claimStuckMessages _ => .isTrue trivial

/-- One step. -/
theorem Consistent.step (h : Consistent s) (action : ConsumerAction ι)
    (hok : keepsOwners cfg s action) : Consistent (consumerStep cfg s action) := by
  cases action with
  | read worker msgs => exact h.read worker msgs
  | tryFlush worker answers =>
    have hown := h.own worker
    have hpart : (s.workers worker).batch.map s.pool.contents <+: (s.workers worker).msgIDs.drop 0 := by
      simp [hown]
    have hstored : (splitStoreBatch answers.answer (s.workers worker).batch.length
          ((s.workers worker).batch.map s.pool.contents) 0).stored = _ :=
      stored_splitStoreBatch hpart _
    obtain ⟨k, hk⟩ := keepsFirst_tryFlushSplit hown hstored fun hparts hfails => by
      have hfirst := hok hparts hfails
      rw [← length_map s.pool.contents] at hfirst ⊢
      exact hfirst.failIdx_eq
    exact h.keepsFirst hk
  | stop worker store xack =>
    set held := s.workers worker
    set flushed := flushBatch s.pool.contents held.batch held.msgIDs store xack
    have hkeeps : KeepsFirst held 0 ⟨{ held with batch := [], msgIDs := [] },
        if flushed.1 = none then held.batch else [], flushed.2⟩ := by
      refine ⟨rfl, rfl, ?_, safeEffects_flushBatch (h.own worker) store xack⟩
      split
      · exact List.Sublist.refl _
      · exact nil_sublist _
    have hafter := h.keepsFirst hkeeps
    have hpool : s.pool.putAll (if flushed.1 = none then held.batch else []) =
        if flushed.1 = none then s.pool.putAll held.batch else s.pool := by
      split
      · rfl
      · exact Pool.putAll_nil _
    rwa [hpool] at hafter
  | recoverPending rounds => exact h.safeUse (safeUse_recoverPending h.sound rounds)
  | drainNewMessages rounds => exact h.safeUse (safeUse_drainNewMessages h.sound rounds)
  | claimStuckMessages rounds => exact h.safeUse (safeUse_claimStuckMessages cfg h.sound rounds)

/-- In a run in which no flush returns an object that stays in its batch, every acknowledged message had
its own event stored, or added to the dead-letter stream. -/
theorem acknowledged_after_stored {actions : List (ConsumerAction ι)}
    (hrun : Admissible (keepsOwners cfg) (consumerStep cfg) (Consumer.start cfg) actions) :
    Justified ackedAfter (run (consumerStep cfg) (Consumer.start cfg) actions).trace :=
  (hrun.invariant (fun _ action hok h => h.step action hok) (consistent_start cfg)).justified

end

/-- A store and a Redis that take everything. -/
def takesAll : FlushAnswers where
  allowed := true
  store := none
  xack := none
  incr := fun _ => 1
  answer := fun _ _ => none
  dlq := ⟨fun _ => false, fun _ => false, false, false⟩
  done := false

/-- One worker reads two messages, of which the store refuses the one at the given place while the
dead-letter stream fails; it reads a third one, into an object that was returned, and flushes. -/
def poisonedRun (place : ℕ) : List (ConsumerAction Unit) :=
  [.read () [("1526919030474-0", none), ("1526919030474-1", none)], .tryFlush () (poisonedAt place),
    .read () [("1526919030474-2", some 1)],
    .tryFlush () takesAll]

/-- The first of the two messages is refused. -/
theorem acknowledged_after_stored_first_refused :
    (.acked "1526919030474-0" : Effect) ∈
        (run (consumerStep threeRetries) (Consumer.start threeRetries) (poisonedRun 0)).trace ∧
      Justified ackedAfter
        (run (consumerStep threeRetries) (Consumer.start threeRetries) (poisonedRun 0)).trace :=
  ⟨by decide +kernel, acknowledged_after_stored (by decide +kernel)⟩

/-- The second of the two messages is refused: its object is handed out for the third message, whose event
is stored twice, and the second message is acknowledged although its own event was neither stored nor
added to the dead-letter stream. -/
theorem acknowledged_without_storing :
    ¬ Justified ackedAfter
      (run (consumerStep threeRetries) (Consumer.start threeRetries) (poisonedRun 1)).trace := by
  intro h
  have hacked := h
    [.stored "1526919030474-0", .acked "1526919030474-0", .stored "1526919030474-2",
      .stored "1526919030474-2"]
    (.acked "1526919030474-1") [.acked "1526919030474-2"] (by decide +kernel)
  exact absurd hacked (by simp [ackedAfter])

end Espx.Ingestion
