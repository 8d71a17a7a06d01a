import Espx.Foundation.Run
import Mathlib.Order.Basic

/-!
# The ring behind a stream lane

Producers advance the allocation cursor before they look at the slot; the drainer advances the read cursor
when it collects a batch and frees the slots after the flush only. A producer that allocates a slot of the
batch in between gives up without taking its allocation back, and the drainer never gets past the hole.
Cursors are natural numbers here.
-/

namespace Espx.Ingestion

open Espx.Foundation List

/-- A slot: its `ready` bit and what `fillLocalQuantaStreamSlot` has stored. -/
structure LaneSlot (D : Type*) where
  ready : Bool
  data : Option D

/-- `localQuantaStreamLane`, with the slots that the drainer holds during a flush and what each
producer that moved the allocation cursor came with. -/
structure StreamLane (D : Type*) where
  allocCursor : ℕ
  writeCursor : ℕ
  readCursor : ℕ
  slots : ℕ → LaneSlot D
  batch : List ℕ
  allocated : List D

namespace StreamLane

variable {D : Type*}

/-- The lane that `ensureLanes` makes. -/
def new : StreamLane D where
  allocCursor := 0
  writeCursor := 0
  readCursor := 0
  slots _ := ⟨false, none⟩
  batch := []
  allocated := []

variable (lane : StreamLane D)

/-- `Enqueue` of a marshalled event. -/
def enqueue (data : D) : Bool × StreamLane D :=
  if 8191 ≤ lane.allocCursor - lane.readCursor then (false, lane)
  else
    let idx := lane.allocCursor % 8192
    let moved :=
      { lane with
        allocCursor := lane.allocCursor + 1
        allocated := lane.allocated ++ [data] }
    if (lane.slots idx).ready then (false, moved)
    else
      (true,
        { moved with
          slots := Function.update lane.slots idx ⟨true, some data⟩
          writeCursor := lane.allocCursor + 1 })

/-- The loop of `drainLane` from a cursor on, for a batch of at most the given length. -/
def collectFrom : ℕ → ℕ → List ℕ
  | 0, _ => []
  | room + 1, read =>
    if lane.writeCursor ≤ read then []
    else if (lane.slots (read % 8192)).ready = false then []
    else (read % 8192) :: collectFrom room (read + 1)

/-- The first phase of `drainLane`: a batch of at most 128 slots. -/
def collect : StreamLane D :=
  { lane with
    readCursor := lane.readCursor + (lane.collectFrom 128 lane.readCursor).length
    batch := lane.collectFrom 128 lane.readCursor }

/-- The end of `flushLaneBatch`: the slots of the batch are free again. -/
def clear : StreamLane D :=
  { lane with
    slots := fun idx => if idx ∈ lane.batch then ⟨false, none⟩ else lane.slots idx
    batch := [] }

end StreamLane

/-- The atomic steps on a lane. -/
inductive LaneAction (D : Type*)
  | enqueue (data : D)
  | collect
  | clear

/-- One step; the drainer collects again after it has cleared its batch only. -/
def laneStep {D : Type*} (lane : StreamLane D) : LaneAction D → StreamLane D
  | .enqueue data => (lane.enqueue data).2
  | .collect => if lane.batch = [] then lane.collect else lane
  | .clear => lane.clear

namespace StreamLane

variable {D : Type*} {lane : StreamLane D}

/-- Every allocated index that is not read yet is ready, with the data of its producer. -/
def Sound (lane : StreamLane D) : Prop :=
  ∀ i, lane.readCursor ≤ i → i < lane.allocCursor →
    (lane.slots (i % 8192)).ready = true ∧
      ∃ data, lane.allocated[i]? = some data ∧ (lane.slots (i % 8192)).data = some data

/-- The first index whose slot is still in use. -/
def base (lane : StreamLane D) : ℕ := lane.readCursor - lane.batch.length

/-- The slots in use are those of the batch and of the allocated indices that are not read, and
the ring holds them all. -/
structure Inv (lane : StreamLane D) : Prop where
  written : lane.writeCursor = lane.allocCursor
  producers : lane.allocated.length = lane.allocCursor
  batch_eq : lane.batch = (List.range' lane.base lane.batch.length).map (· % 8192)
  batch_le : lane.batch.length ≤ lane.readCursor
  read_le : lane.readCursor ≤ lane.allocCursor
  usable : lane.allocCursor ≤ lane.readCursor + 8191
  fits : lane.allocCursor ≤ lane.base + 8192
  filled : ∀ i, lane.base ≤ i → i < lane.allocCursor → lane.slots (i % 8192) = ⟨true, lane.allocated[i]?⟩
  used : ∀ idx, (lane.slots idx).ready = true →
    ∃ i, lane.base ≤ i ∧ i < lane.allocCursor ∧ i % 8192 = idx

/-- The batch holds the slots of the indices from the base on. -/
theorem Inv.mem_batch (h : lane.Inv) {idx : ℕ} :
    idx ∈ lane.batch ↔ ∃ i, lane.base ≤ i ∧ i < lane.readCursor ∧ i % 8192 = idx := by
  have hbase : lane.base + lane.batch.length = lane.readCursor := Nat.sub_add_cancel h.batch_le
  rw [h.batch_eq, mem_map]
  constructor
  · rintro ⟨i, hi, rfl⟩
    rw [mem_range'_1] at hi
    exact ⟨i, hi.1, by omega, rfl⟩
  · rintro ⟨i, hlow, hhigh, rfl⟩
    exact ⟨i, mem_range'_1.mpr ⟨hlow, by omega⟩, rfl⟩

theorem Inv.sound (h : lane.Inv) : lane.Sound := by
  intro i hread halloc
  have hbase : lane.base ≤ i := (Nat.sub_le _ _).trans hread
  have hlen : i < lane.allocated.length := by
    rw [h.producers]
    exact halloc
  have hdata := getElem?_eq_getElem hlen
  rw [h.filled i hbase halloc]
  exact ⟨rfl, _, hdata, hdata⟩

/-- The empty lane. -/
theorem new_inv : (new : StreamLane D).Inv where
  written := rfl
  producers := rfl
  batch_eq := rfl
  batch_le := le_rfl
  read_le := le_rfl
  usable := Nat.zero_le _
  fits := Nat.zero_le _
  filled := by
    intro i _ hi
    cases hi
  used := by
    intro idx hready
    cases hready

theorem enqueue_full (data : D) (h : 8191 ≤ lane.allocCursor - lane.readCursor) :
    lane.enqueue data = (false, lane) := if_pos h

/-- The slot of the next index is free unless the flush in progress holds it. -/
theorem Inv.next_free (h : lane.Inv) (hroom : ¬ 8191 ≤ lane.allocCursor - lane.readCursor)
    (hapart : lane.allocCursor % 8192 ∉ lane.batch) :
    lane.allocCursor < lane.base + 8192 ∧ (lane.slots (lane.allocCursor % 8192)).ready = false := by
  have hbase : lane.allocCursor < lane.base + 8192 := by
    by_contra hfar
    apply hapart
    exact h.mem_batch.mpr ⟨lane.allocCursor - 8192, by omega, by omega, by omega⟩
  refine ⟨hbase, ?_⟩
  by_contra hready
  obtain ⟨i, hlow, hhigh, hi⟩ := h.used _ (Bool.of_not_eq_false hready)
  omega

/-- A producer that gets the next slot. -/
theorem Inv.enqueue_filled (h : lane.Inv) (data : D) (hroom : ¬ 8191 ≤ lane.allocCursor - lane.readCursor)
    (hapart : lane.allocCursor % 8192 ∉ lane.batch) :
    lane.enqueue data = (true,
      { lane with
        allocCursor := lane.allocCursor + 1
        allocated := lane.allocated ++ [data]
        slots := Function.update lane.slots (lane.allocCursor % 8192) ⟨true, some data⟩
        writeCursor := lane.allocCursor + 1 }) := by
  rw [enqueue, if_neg hroom]
  rw [if_neg (by rw [(h.next_free hroom hapart).2]; decide)]

/-- A producer that stays clear of the flush in progress keeps the invariant. -/
theorem Inv.enqueue (h : lane.Inv) (data : D)
    (hsafe : 8191 ≤ lane.allocCursor - lane.readCursor ∨ lane.allocCursor % 8192 ∉ lane.batch) :
    (lane.enqueue data).2.Inv := by
  by_cases hroom : 8191 ≤ lane.allocCursor - lane.readCursor
  · rw [enqueue_full data hroom]
    exact h
  have hapart := hsafe.resolve_left hroom
  have hnext := (h.next_free hroom hapart).1
  have hread := h.read_le
  rw [h.enqueue_filled data hroom hapart]
  constructor
  · rfl
  · simp only [length_append, length_singleton, h.producers]
  · exact h.batch_eq
  · exact h.batch_le
  · exact hread.trans (Nat.le_succ _)
  · dsimp only
    omega
  · change lane.allocCursor + 1 ≤ lane.base + 8192
    omega
  · intro i hlow hhigh
    change lane.base ≤ i at hlow
    dsimp only at hhigh ⊢
    by_cases hi : i = lane.allocCursor
    · have hlast : (lane.allocated ++ [data])[i]? = some data := by
        rw [hi, ← h.producers]
        exact getElem?_concat_length
      rw [hi, Function.update_self, ← hi, hlast]
    · have hlt : i < lane.allocCursor := by omega
      rw [Function.update_of_ne (by omega), h.filled i hlow hlt,
        getElem?_append_left (by rw [h.producers]; exact hlt)]
  · intro idx hready
    dsimp only at hready
    by_cases hidx : idx = lane.allocCursor % 8192
    · exact ⟨lane.allocCursor, (Nat.sub_le _ _).trans hread, Nat.lt_succ_self _, hidx.symm⟩
    · rw [Function.update_of_ne hidx] at hready
      obtain ⟨i, hlow, hhigh, hi⟩ := h.used idx hready
      exact ⟨i, hlow, hhigh.trans (Nat.lt_succ_self _), hi⟩

/-- Where all slots up to the write cursor are ready, the drainer collects as many as fit. -/
theorem collectFrom_eq {read : ℕ}
    (hready : ∀ i, read ≤ i → i < lane.writeCursor → (lane.slots (i % 8192)).ready = true)
    (room : ℕ) : lane.collectFrom room read =
      (List.range' read (min room (lane.writeCursor - read))).map (· % 8192) := by
  induction room generalizing read with
  | zero => simp [collectFrom]
  | succ room ih =>
    unfold collectFrom
    by_cases hend : lane.writeCursor ≤ read
    · rw [if_pos hend, Nat.sub_eq_zero_of_le hend]
      simp
    have hhere := hready read le_rfl (by omega)
    have hcount : min (room + 1) (lane.writeCursor - read) =
        min room (lane.writeCursor - (read + 1)) + 1 := by omega
    rw [if_neg hend, if_neg (by rw [hhere]; decide), hcount, range'_succ, map_cons,
      ih fun i hlow hhigh => hready i (by omega) hhigh]

/-- What the drainer collects. -/
theorem Inv.collect_eq (h : lane.Inv) (hidle : lane.batch = []) :
    lane.collectFrom 128 lane.readCursor =
      (List.range' lane.readCursor (min 128 (lane.allocCursor - lane.readCursor))).map (· % 8192) := by
  have hbase : lane.base = lane.readCursor := by simp [base, hidle]
  rw [← h.written]
  apply collectFrom_eq
  intro i hlow hhigh
  rw [h.filled i (by omega) (by rw [← h.written]; exact hhigh)]

/-- Collecting a batch keeps the invariant. -/
theorem Inv.collect (h : lane.Inv) (hidle : lane.batch = []) : lane.collect.Inv := by
  have hcoll := h.collect_eq hidle
  have hlen : (lane.collectFrom 128 lane.readCursor).length =
      min 128 (lane.allocCursor - lane.readCursor) := by
    rw [hcoll, length_map, length_range']
  have hbase : lane.base = lane.readCursor := by simp [base, hidle]
  have hbase' : lane.collect.base = lane.readCursor := by simp [base, StreamLane.collect]
  have hread := h.read_le
  have husable := h.usable
  constructor
  · exact h.written
  · exact h.producers
  · rw [hbase']
    change lane.collectFrom 128 lane.readCursor = _
    conv_lhs => rw [hcoll, ← hlen]
    rfl
  · exact Nat.le_add_left _ _
  · change lane.readCursor + _ ≤ lane.allocCursor
    omega
  · change lane.allocCursor ≤ lane.readCursor + _ + 8191
    omega
  · change lane.allocCursor ≤ _
    omega
  · rw [hbase', ← hbase]
    exact h.filled
  · rw [hbase', ← hbase]
    exact h.used

/-- Clearing a batch keeps the invariant. -/
theorem Inv.clear (h : lane.Inv) : lane.clear.Inv := by
  have hbase : lane.clear.base = lane.readCursor := rfl
  have hle : lane.base ≤ lane.readCursor := Nat.sub_le _ _
  have hread := h.read_le
  have husable := h.usable
  have hfits := h.fits
  constructor
  · exact h.written
  · exact h.producers
  · rfl
  · exact Nat.zero_le _
  · exact hread
  · exact husable
  · change lane.allocCursor ≤ _
    omega
  · intro i hlow hhigh
    change i < lane.allocCursor at hhigh
    have hkept : i % 8192 ∉ lane.batch := by
      intro hmem
      obtain ⟨j, hjlow, hjhigh, hj⟩ := h.mem_batch.mp hmem
      omega
    change (if i % 8192 ∈ lane.batch then ⟨false, none⟩ else lane.slots (i % 8192)) = _
    rw [if_neg hkept, h.filled i (hle.trans hlow) hhigh]
    rfl
  · intro idx hready
    change (if idx ∈ lane.batch then (⟨false, none⟩ : LaneSlot D) else lane.slots idx).ready = true
      at hready
    split at hready
    · cases hready
    rename_i hkept
    obtain ⟨i, hlow, hhigh, hi⟩ := h.used idx hready
    refine ⟨i, ?_, hhigh, hi⟩
    by_contra hpre
    exact hkept (h.mem_batch.mpr ⟨i, hlow, by omega, hi⟩)

/-- One drain: collect a batch, flush it, clear it. -/
def drains : ℕ → List (LaneAction D)
  | 0 => []
  | n + 1 => .collect :: .clear :: drains n

/-- Drains take 128 indices each as long as there are any. -/
theorem Inv.drains (h : lane.Inv) (hidle : lane.batch = []) (n : ℕ) :
    (run laneStep lane (drains n)).Inv ∧ (run laneStep lane (drains n)).batch = [] ∧
      (run laneStep lane (drains n)).allocCursor = lane.allocCursor ∧
      (run laneStep lane (drains n)).readCursor =
        lane.readCursor + min (128 * n) (lane.allocCursor - lane.readCursor) := by
  induction n generalizing lane with
  | zero => exact ⟨h, hidle, rfl, by simp [StreamLane.drains, run]⟩
  | succ n ih =>
    have hstep : run laneStep lane (StreamLane.drains (n + 1)) =
        run laneStep lane.collect.clear (StreamLane.drains n) := by
      simp only [StreamLane.drains, run, laneStep, if_pos hidle]
    have hread : lane.collect.clear.readCursor =
        lane.readCursor + min 128 (lane.allocCursor - lane.readCursor) := by
      change lane.readCursor + (lane.collectFrom 128 lane.readCursor).length = _
      rw [h.collect_eq hidle, length_map, length_range']
    have halloc : lane.collect.clear.allocCursor = lane.allocCursor := rfl
    obtain ⟨hinv, hbatch, hsame, hdone⟩ := ih (h.collect hidle).clear rfl
    rw [hstep]
    refine ⟨hinv, hbatch, hsame.trans halloc, ?_⟩
    rw [hdone, hread, halloc]
    omega

theorem Inv.enqueue_drained (h : lane.Inv) (hidle : lane.batch = [])
    (hdrain : lane.readCursor = lane.allocCursor) (data : D) : (lane.enqueue data).1 = true := by
  have hroom : ¬ 8191 ≤ lane.allocCursor - lane.readCursor := by omega
  rw [h.enqueue_filled data hroom (by rw [hidle]; exact not_mem_nil)]

end StreamLane

/-- A producer that passes the capacity check does not allocate a slot of the batch that is being
flushed. -/
def LaneAction.Safe {D : Type*} (lane : StreamLane D) : LaneAction D → Prop
  | .enqueue _ =>
    8191 ≤ lane.allocCursor - lane.readCursor ∨ lane.allocCursor % 8192 ∉ lane.batch
  | .collect => True
  | .clear => True

/-- A safe step keeps the invariant. -/
theorem laneStep_inv {D : Type*} {lane : StreamLane D} (a : LaneAction D) (hsafe : a.Safe lane)
    (h : lane.Inv) : (laneStep lane a).Inv := by
  cases a with
  | enqueue data => exact h.enqueue data hsafe
  | collect =>
    by_cases hidle : lane.batch = []
    · rw [laneStep, if_pos hidle]
      exact h.collect hidle
    · rw [laneStep, if_neg hidle]
      exact h
  | clear => exact h.clear

/-- In every run whose producers stay clear of the flush in progress, every allocated and unread index is
ready with its producer's data, and after the flush 64 drains read all of them, whereupon the next
producer succeeds. -/
theorem lane_never_wedges {D : Type*} (actions : List (LaneAction D))
    (hsafe : Admissible (fun lane a => a.Safe lane) laneStep StreamLane.new actions) :
    let lane := run laneStep StreamLane.new actions
    let drained := run laneStep lane.clear (StreamLane.drains 64)
    lane.Sound ∧ drained.readCursor = drained.allocCursor ∧ ∀ data, (drained.enqueue data).1 = true := by
  intro lane drained
  have h : lane.Inv := hsafe.invariant (fun _ a ha h => laneStep_inv a ha h) StreamLane.new_inv
  obtain ⟨hinv, hidle, halloc, hread⟩ := h.clear.drains rfl 64
  have hle := h.clear.read_le
  have husable := h.clear.usable
  have hdrain : drained.readCursor = drained.allocCursor := by
    rw [hread, halloc]
    omega
  exact ⟨h.sound, hdrain, hinv.enqueue_drained hidle hdrain⟩

/-- A producer before the drainer collects, and one while it flushes. -/
def sampleLaneRun : List (LaneAction ℕ) := [.enqueue 1, .collect, .enqueue 2, .clear]

/-- The second event of the sample is ready, and is read by the next drains. -/
theorem lane_never_wedges_sample :
    (run laneStep StreamLane.new sampleLaneRun).Sound ∧
      (run laneStep (run laneStep StreamLane.new sampleLaneRun).clear
        (StreamLane.drains 64)).readCursor = 2 := by
  have hsafe : Admissible (fun lane a => a.Safe lane) laneStep StreamLane.new sampleLaneRun :=
    ⟨.inr (by decide), trivial, .inr (by decide), trivial, trivial⟩
  obtain ⟨hsound, hread, -⟩ := lane_never_wedges sampleLaneRun hsafe
  exact ⟨hsound, hread.trans (by decide +kernel)⟩

namespace StreamLane

variable {D : Type*} {lane : StreamLane D} {hole : ℕ}

/-- The data in the slots of the batch and of the unread indices, the oldest first. -/
def waiting (lane : StreamLane D) : List (Option D) :=
  (range' lane.base (lane.allocCursor - lane.base)).map fun i => (lane.slots (i % 8192)).data

/-- What a step hands to `flushShardPipeline`: the batch, before its slots are cleared. -/
def flushed (lane : StreamLane D) : LaneAction D → List (Option D)
  | .enqueue _ | .collect => []
  | .clear => lane.batch.map fun idx => (lane.slots idx).data

/-- What a producer came with that `Enqueue` tells `true`. -/
def accepted (lane : StreamLane D) : LaneAction D → List (Option D)
  | .enqueue data => if (lane.enqueue data).1 then [some data] else []
  | .collect | .clear => []

/-- The lane is a queue: a flush takes from its front and a producer adds at its end. -/
theorem Inv.waiting_step (h : lane.Inv) (a : LaneAction D) (hsafe : a.Safe lane) :
    lane.flushed a ++ (laneStep lane a).waiting = lane.waiting ++ lane.accepted a := by
  have hread := h.read_le
  have hlen : lane.base + lane.batch.length = lane.readCursor := Nat.sub_add_cancel h.batch_le
  cases a with
  | enqueue data =>
    by_cases hroom : 8191 ≤ lane.allocCursor - lane.readCursor
    · simp [flushed, accepted, laneStep, enqueue_full data hroom]
    have hapart := hsafe.resolve_left hroom
    have hnext := (h.next_free hroom hapart).1
    have hcount : lane.allocCursor + 1 - lane.base = lane.allocCursor - lane.base + 1 := by omega
    have hlast : lane.base + (lane.allocCursor - lane.base) = lane.allocCursor := by omega
    rw [accepted, laneStep, h.enqueue_filled data hroom hapart, waiting]
    change map _ (range' lane.base (lane.allocCursor + 1 - lane.base)) = _
    dsimp only
    rw [hcount, range'_1_concat, map_append, hlast, map_singleton, Function.update_self, if_pos rfl]
    congr 1
    apply map_congr_left
    intro i hi
    rw [mem_range'_1] at hi
    rw [Function.update_of_ne (by omega)]
  | collect =>
    rw [flushed, accepted, laneStep, append_nil]
    by_cases hidle : lane.batch = []
    · rw [if_pos hidle]
      simp [waiting, base, StreamLane.collect, hidle]
    · rw [if_neg hidle]
      rfl
  | clear =>
    have hcount : lane.allocCursor - lane.base =
        lane.batch.length + (lane.allocCursor - lane.readCursor) := by omega
    rw [flushed, accepted, append_nil, waiting, waiting, hcount, ← range'_append_1, map_append, hlen]
    congr 1
    · conv_lhs => rw [h.batch_eq, map_map]
      rfl
    · apply map_congr_left
      intro i hi
      have hi : lane.readCursor ≤ i ∧ i < lane.readCursor + (lane.allocCursor - lane.readCursor) :=
        mem_range'_1.mp hi
      have hlt : i < lane.allocCursor := by omega
      rw [laneStep, h.clear.filled i hi.1 hlt, h.filled i (by omega) hlt]
      rfl

/-- In every run whose producers stay clear of the flush in progress, what the flushes get, followed by
what waits in the ring, is what `Enqueue` accepted. -/
theorem delivers_in_order (actions : List (LaneAction D))
    (hsafe : Admissible (fun lane a => a.Safe lane) laneStep new actions) :
    outputs flushed laneStep new actions ++ (run laneStep new actions).waiting =
      outputs accepted laneStep new actions :=
  hsafe.outputs (fun _ a ha h => laneStep_inv a ha h) (fun _ a ha h => h.waiting_step a ha) new_inv

/-- The first event of the sample is flushed, the second one waits. -/
theorem delivers_in_order_sample :
    [some 1] ++ (run laneStep new sampleLaneRun).waiting = [some 1, some 2] :=
  delivers_in_order sampleLaneRun ⟨.inr (by decide), trivial, .inr (by decide), trivial, trivial⟩

/-- An index that is allocated and will never be ready. -/
structure Wedged (hole : ℕ) (lane : StreamLane D) : Prop where
  unread : lane.readCursor ≤ hole
  allocated : hole < lane.allocCursor
  near : lane.allocCursor ≤ hole + 8191
  empty : (lane.slots (hole % 8192)).ready = false

/-- The drainer stops at a hole. -/
theorem collectFrom_length_le (hempty : (lane.slots (hole % 8192)).ready = false) {read : ℕ}
    (hread : read ≤ hole) (room : ℕ) : (lane.collectFrom room read).length ≤ hole - read := by
  induction room generalizing read with
  | zero => exact Nat.zero_le _
  | succ room ih =>
    unfold collectFrom
    split
    · exact Nat.zero_le _
    split
    · exact Nat.zero_le _
    rename_i hready
    have hne : read ≠ hole := by
      rintro rfl
      exact hready hempty
    have hrest := @ih (read + 1) (by omega)
    rw [length_cons]
    omega

/-- No step fills a hole or passes it. -/
theorem Wedged.step (h : lane.Wedged hole) (a : LaneAction D) : (laneStep lane a).Wedged hole := by
  obtain ⟨hunread, halloc, hnear, hempty⟩ := h
  cases a with
  | enqueue data =>
    by_cases hfull : 8191 ≤ lane.allocCursor - lane.readCursor
    · rw [laneStep, enqueue_full data hfull]
      exact ⟨hunread, halloc, hnear, hempty⟩
    rw [laneStep, enqueue, if_neg hfull]
    dsimp only
    split
    · exact ⟨hunread, Nat.lt_succ_of_lt halloc, by dsimp only; omega, hempty⟩
    refine ⟨hunread, Nat.lt_succ_of_lt halloc, by dsimp only; omega, ?_⟩
    dsimp only
    rw [Function.update_of_ne (by omega)]
    exact hempty
  | collect =>
    by_cases hidle : lane.batch = []
    · have hcount := collectFrom_length_le hempty hunread 128
      rw [laneStep, if_pos hidle]
      refine ⟨?_, halloc, hnear, hempty⟩
      change lane.readCursor + _ ≤ hole
      omega
    · rw [laneStep, if_neg hidle]
      exact ⟨hunread, halloc, hnear, hempty⟩
  | clear =>
    refine ⟨hunread, halloc, hnear, ?_⟩
    change (if hole % 8192 ∈ lane.batch then (⟨false, none⟩ : LaneSlot D)
      else lane.slots (hole % 8192)).ready = false
    split
    · rfl
    · exact hempty

theorem Wedged.run (h : lane.Wedged hole) (actions : List (LaneAction D)) :
    (run laneStep lane actions).Wedged hole :=
  run_invariant (fun _ a h => h.step a) h actions

/-- A producer that allocates a slot of the batch leaves a hole. -/
theorem Inv.enqueue_wedges (h : lane.Inv) (data : D) (hroom : ¬ 8191 ≤ lane.allocCursor - lane.readCursor)
    (hmem : lane.allocCursor % 8192 ∈ lane.batch) :
    (lane.enqueue data).2.clear.Wedged lane.allocCursor := by
  obtain ⟨i, hlow, hhigh, hi⟩ := h.mem_batch.mp hmem
  have hread := h.read_le
  have hready : (lane.slots (lane.allocCursor % 8192)).ready = true := by
    rw [← hi, h.filled i hlow (hhigh.trans_le hread)]
  rw [StreamLane.enqueue, if_neg hroom]
  rw [if_pos hready]
  refine ⟨hread, Nat.lt_succ_self _, by change lane.allocCursor + 1 ≤ _; omega, ?_⟩
  change (if lane.allocCursor % 8192 ∈ lane.batch then (⟨false, none⟩ : LaneSlot D)
    else lane.slots (lane.allocCursor % 8192)).ready = false
  rw [if_pos hmem]

/-- Producers alone fill the ring. -/
theorem Inv.fill (h : lane.Inv) (hidle : lane.batch = []) (data : List D)
    (hroom : lane.allocCursor + data.length ≤ lane.readCursor + 8191) :
    let next := Foundation.run laneStep lane (data.map .enqueue)
    next.Inv ∧ next.batch = [] ∧ next.readCursor = lane.readCursor ∧
      next.allocCursor = lane.allocCursor + data.length := by
  induction data generalizing lane with
  | nil => exact ⟨h, hidle, rfl, rfl⟩
  | cons d rest ih =>
    rw [length_cons] at hroom
    have hapart : lane.allocCursor % 8192 ∉ lane.batch := by
      rw [hidle]
      exact not_mem_nil
    have hfilled := h.enqueue_filled d (by omega) hapart
    have hnext := h.enqueue d (.inr hapart)
    rw [map_cons, Foundation.run, laneStep]
    rw [hfilled] at hnext ⊢
    obtain ⟨hinv, hbatch, hsame, halloc⟩ := ih hnext hidle (by dsimp only; omega)
    refine ⟨hinv, hbatch, hsame, halloc.trans ?_⟩
    rw [length_cons]
    dsimp only
    omega

/-- On a full ring, the second producer after a batch was collected leaves a hole. -/
theorem Inv.wedge_full (h : lane.Inv) (hidle : lane.batch = []) (hread : lane.readCursor = 0)
    (halloc : lane.allocCursor = 8191) (d e : D) :
    (Foundation.run laneStep lane [.collect, .enqueue d, .enqueue e, .clear]).Wedged 8192 := by
  have hcoll := h.collect hidle
  have hcollectedRead : lane.collect.readCursor = 128 := by
    change lane.readCursor + (lane.collectFrom 128 lane.readCursor).length = 128
    rw [h.collect_eq hidle, length_map, length_range']
    omega
  have hcollectedAlloc : lane.collect.allocCursor = 8191 := halloc
  have hbase : lane.collect.base = 0 := by simp [base, StreamLane.collect, hread]
  have hroom : ¬ 8191 ≤ lane.collect.allocCursor - lane.collect.readCursor := by omega
  have hapart : lane.collect.allocCursor % 8192 ∉ lane.collect.batch := by
    intro hmem
    obtain ⟨i, -, hi, hmod⟩ := hcoll.mem_batch.mp hmem
    omega
  have hfilled := hcoll.enqueue_filled d hroom hapart
  have hnext := hcoll.enqueue d (.inr hapart)
  simp only [Foundation.run, laneStep, if_pos hidle]
  rw [hfilled] at hnext ⊢
  have hwedged := hnext.enqueue_wedges e (by dsimp only; omega)
    (hnext.mem_batch.mpr ⟨0, hbase.le, by dsimp only; omega, by dsimp only; omega⟩)
  rw [hcollectedAlloc] at hwedged ⊢
  exact hwedged

theorem Wedged.not_sound (h : lane.Wedged hole) : ¬ lane.Sound := by
  intro hsound
  have hready := (hsound hole h.unread h.allocated).1
  rw [h.empty] at hready
  cases hready

end StreamLane

/-- The ring is filled, the drainer collects 128 slots, and two producers come before it clears
them. -/
def wedgingRun : List (LaneAction ℕ) :=
  (List.range 8191).map .enqueue ++ [.collect, .enqueue 8191, .enqueue 8192, .clear]

/-- The second of the two leaves a hole at index 8192, which the drainer never reads, whatever
happens after that. -/
theorem lane_wedges :
    ¬ (run laneStep StreamLane.new wedgingRun).Sound ∧
      ∀ actions, (run laneStep StreamLane.new (wedgingRun ++ actions)).readCursor ≤ 8192 ∧
        8192 < (run laneStep StreamLane.new (wedgingRun ++ actions)).allocCursor := by
  have hwedged : (run laneStep StreamLane.new wedgingRun).Wedged 8192 := by
    have hlen : (List.range 8191).length = 8191 := List.length_range
    generalize hdata : List.range 8191 = data at hlen
    obtain ⟨hinv, hidle, hread, halloc⟩ := StreamLane.new_inv.fill rfl data (by
      rw [hlen]
      exact le_rfl)
    rw [wedgingRun, hdata, run_append]
    refine hinv.wedge_full hidle hread ?_ 8191 8192
    rw [halloc, hlen]
    rfl
  refine ⟨hwedged.not_sound, ?_⟩
  intro actions
  have hlater := hwedged.run actions
  rw [run_append]
  exact ⟨hlater.unread, hlater.allocated⟩

end Espx.Ingestion
