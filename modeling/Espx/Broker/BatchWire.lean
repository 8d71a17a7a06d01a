import Mathlib.Algebra.Group.Nat.Defs
import Mathlib.Data.List.Basic

/-!
# Batches of messages

`AppendBatchMessage` writes an 8-byte header and the payload behind what is in the buffer, into a new
array where the old one is too short; two bytes of the header are padding. `BatchIterator.Next` reads the
header back, or stops where the rest is too short.
-/

namespace Espx.Broker

open List

/-- A byte slice, and what its array holds behind it. -/
structure ByteSlice where
  bytes : List UInt8
  spare : List UInt8

/-- A message of a batch. -/
structure BatchMsg where
  topicID : UInt16
  payload : List UInt8
deriving DecidableEq

/-- The low bytes of a number, lowest first. -/
def putLittleEndian : ℕ → ℕ → List UInt8
  | 0, _ => []
  | width + 1, n => UInt8.ofNat n :: putLittleEndian width (n / 256)

/-- The number whose bytes these are, lowest first. -/
def littleEndian : List UInt8 → ℕ
  | [] => 0
  | b :: rest => b.toNat + 256 * littleEndian rest

theorem littleEndian_put (width n : ℕ) : littleEndian (putLittleEndian width n) = n % 256 ^ width := by
  induction width generalizing n with
  | zero => simp [putLittleEndian, littleEndian, Nat.mod_one]
  | succ width ih =>
    rw [putLittleEndian, littleEndian, ih, Nat.pow_succ', Nat.mod_mul]
    simp

/-- What is behind the slice where so many bytes are to be appended: zeros in a new array of twice the
length that is needed. -/
def ByteSlice.room (buf : ByteSlice) (size : ℕ) : List UInt8 :=
  if buf.spare.length < size then replicate (buf.bytes.length + 2 * size) 0 else buf.spare

/-- `AppendBatchMessage`. -/
def appendBatchMessage (buf : ByteSlice) (msg : BatchMsg) : ByteSlice :=
  let room := buf.room (8 + msg.payload.length)
  ⟨buf.bytes ++ (putLittleEndian 2 msg.topicID.toNat ++ ((room.drop 2).take 2 ++
    (putLittleEndian 4 msg.payload.length ++ msg.payload))), room.drop (8 + msg.payload.length)⟩

/-- What an iterator yields: a topic and the range of the payload in the batch. -/
structure BatchView where
  topicID : UInt16
  start : ℕ
  stop : ℕ

/-- The message that is seen. -/
def BatchView.msg (view : BatchView) (data : List UInt8) : BatchMsg :=
  ⟨view.topicID, (data.drop view.start).take (view.stop - view.start)⟩

/-- `BatchIterator.Next`, with the pointer as a position in the batch. Once it has returned false the
pointer is at the end. -/
def next (data : List UInt8) (ptr : ℕ) : Option BatchView :=
  let rest := data.drop ptr
  let payloadLen := littleEndian ((rest.drop 4).take 4)
  if rest.length < 8 ∨ rest.length < 8 + payloadLen then none
  else some ⟨UInt16.ofNat (littleEndian (rest.take 2)), ptr + 8, ptr + 8 + payloadLen⟩

theorem next_bounds {data : List UInt8} {ptr : ℕ} {view : BatchView} (h : next data ptr = some view) :
    view.start = ptr + 8 ∧ view.start ≤ view.stop ∧ view.stop ≤ data.length := by
  simp only [next, Option.ite_none_left_eq_some, length_drop, Option.some.injEq] at h
  obtain ⟨hlong, rfl⟩ := h
  dsimp only
  omega

/-- The loop over an iterator. -/
def iterate (data : List UInt8) (ptr : ℕ) : List BatchView :=
  match _h : next data ptr with
  | none => []
  | some view => view :: iterate data view.stop
termination_by data.length - ptr
decreasing_by
  have hbounds := next_bounds _h
  omega

/-- The messages that the loop sees. -/
def batchMsgs (data : List UInt8) (ptr : ℕ) : List BatchMsg := (iterate data ptr).map (·.msg data)

/-- The payloads follow each other in the batch. -/
theorem iterate_ranges (data : List UInt8) (ptr : ℕ) :
    (iterate data ptr).Pairwise (fun v w => v.stop ≤ w.start) ∧
      ∀ v ∈ iterate data ptr, ptr ≤ v.start ∧ v.start ≤ v.stop ∧ v.stop ≤ data.length := by
  fun_induction iterate data ptr with
  | case1 ptr hnext => simp
  | case2 ptr view hnext ih =>
    have hbounds := next_bounds hnext
    refine ⟨pairwise_cons.mpr ⟨fun v hv => (ih.2 v hv).1, ih.1⟩, fun v hv => ?_⟩
    rcases mem_cons.mp hv with rfl | hlater
    · omega
    · have hrange := ih.2 v hlater
      omega

/-- A buffer only grows at its end. -/
theorem bytes_prefix_foldl (msgs : List BatchMsg) (buf : ByteSlice) :
    buf.bytes <+: (msgs.foldl appendBatchMessage buf).bytes := by
  induction msgs generalizing buf with
  | nil => exact prefix_rfl
  | cons msg rest ih => exact (prefix_append _ _).trans (ih (appendBatchMessage buf msg))

/-- A message that was appended is read where the buffer ended. -/
theorem next_appended {buf : ByteSlice} {msg : BatchMsg} (hsize : msg.payload.length < 2 ^ 32)
    {data : List UInt8} (hdata : (appendBatchMessage buf msg).bytes <+: data) :
    ∃ view, next data buf.bytes.length = some view ∧ view.msg data = msg ∧
      view.stop = (appendBatchMessage buf msg).bytes.length := by
  obtain ⟨more, rfl⟩ := hdata
  obtain ⟨p, q, hpad⟩ : ∃ p q, ((buf.room (8 + msg.payload.length)).drop 2).take 2 = [p, q] := by
    refine length_eq_two.mp ?_
    rw [ByteSlice.room, length_take, length_drop]
    split
    · rw [length_replicate]
      omega
    · omega
  set data := (appendBatchMessage buf msg).bytes ++ more with hdata
  have hrest : data.drop buf.bytes.length = putLittleEndian 2 msg.topicID.toNat ++ ([p, q] ++
      (putLittleEndian 4 msg.payload.length ++ (msg.payload ++ more))) := by
    simp [hdata, appendBatchMessage, hpad]
  have hlen : littleEndian (((data.drop buf.bytes.length).drop 4).take 4) = msg.payload.length := by
    rw [hrest]
    exact (littleEndian_put 4 _).trans (Nat.mod_eq_of_lt hsize)
  have htopic : littleEndian ((data.drop buf.bytes.length).take 2) = msg.topicID.toNat := by
    rw [hrest]
    exact (littleEndian_put 2 _).trans (Nat.mod_eq_of_lt msg.topicID.toNat_lt)
  have hnext : next data buf.bytes.length = some
      ⟨msg.topicID, buf.bytes.length + 8, buf.bytes.length + 8 + msg.payload.length⟩ := by
    simp only [next, hlen, htopic]
    simp [hrest, putLittleEndian]
    omega
  refine ⟨_, hnext, ?_, ?_⟩
  · rw [BatchView.msg, ← drop_drop, hrest]
    simp [putLittleEndian]
  · simp [appendBatchMessage, putLittleEndian, hpad]
    omega

/-- A batch is read as it was written. -/
theorem iterate_foldl {msgs : List BatchMsg} (hsize : ∀ msg ∈ msgs, msg.payload.length < 2 ^ 32)
    (buf : ByteSlice) : batchMsgs (msgs.foldl appendBatchMessage buf).bytes buf.bytes.length = msgs := by
  induction msgs generalizing buf with
  | nil =>
    have hnone : next buf.bytes buf.bytes.length = none := by simp [next]
    rw [foldl_nil, batchMsgs, iterate, hnone, map_nil]
  | cons msg rest ih =>
    obtain ⟨hfirst, hlater⟩ := forall_mem_cons.mp hsize
    obtain ⟨view, hnext, hmsg, hstop⟩ :=
      next_appended hfirst (bytes_prefix_foldl rest (appendBatchMessage buf msg))
    have hrest := ih hlater (appendBatchMessage buf msg)
    rw [batchMsgs] at hrest ⊢
    rw [foldl_cons, iterate, hnext]
    simp only [map_cons, hmsg, hstop, hrest]

/-- What was appended to an empty buffer is read in order, and from any bytes only payloads are read that
lie in them and do not overlap. -/
theorem batch_iteration :
    (∀ (spare : List UInt8) (msgs : List BatchMsg), (∀ msg ∈ msgs, msg.payload.length < 2 ^ 32) →
      batchMsgs (msgs.foldl appendBatchMessage ⟨[], spare⟩).bytes 0 = msgs) ∧
    ∀ data : List UInt8, (iterate data 0).Pairwise (fun v w => v.stop ≤ w.start) ∧
      ∀ v ∈ iterate data 0, v.start ≤ v.stop ∧ v.stop ≤ data.length := by
  refine ⟨fun spare msgs hsize => iterate_foldl hsize ⟨[], spare⟩, fun data => ?_⟩
  obtain ⟨hpairs, hranges⟩ := iterate_ranges data 0
  exact ⟨hpairs, fun v hv => (hranges v hv).2⟩

/-- Two messages, one of them empty. -/
theorem batch_iteration_two :
    let msgs : List BatchMsg := [⟨7, [1, 2]⟩, ⟨9, []⟩]
    batchMsgs (msgs.foldl appendBatchMessage ⟨[], []⟩).bytes 0 = msgs :=
  batch_iteration.1 [] _ (by decide)

end Espx.Broker
