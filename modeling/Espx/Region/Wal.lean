import Espx.Domain.Keys
import Espx.Foundation.Run
import Mathlib.Order.Basic
import Mathlib.Data.List.Basic
import Mathlib.Logic.Function.Iterate

/-!
# Records of the region WAL

The region proxy appends payloads to a segment, and key generation marks each record in place once its
dedup key is there. Record number `n` has the sequence number `n`. Key generation stops with an error at
the first record that is too large for it, whether it is ready or not; appends have no such limit. It also
stops where the disk gate sheds it: a gate that has once found the disk slow or not writable is degraded
for good, and refuses all writes of the low tier.
-/

namespace Espx.Region

open Espx.Foundation Espx.Domain List

/-- `HeaderSize`. -/
def headerSize : ℕ := 128

/-- `MaxPayloadSize`. -/
def maxPayloadSize : ℕ := 4096

/-- `Tier`. -/
inductive Tier
  | high
  | low
  deriving DecidableEq

/-- The parts of `DiskWriteGate` that decide whether it sheds a write. Its semaphores make callers wait
and are left out. -/
structure DiskWriteGate where
  latencyBudget : UInt64
  emaLatency : UInt64
  degraded : Bool

/-- `AcquireAppend`, which lets every caller pass where there is no gate; `writable` is the answer of
`DiskWritable`. -/
def acquireAppend (tier : Tier) (writable : Bool) : Option DiskWriteGate → Option DiskWriteGate × Bool
  | none => (none, true)
  | some g =>
    if tier = .low ∧ g.degraded then (some g, false)
    else if writable then (some g, true)
    else (some { g with degraded := true }, tier = .high)

/-- `recordFsyncLatency`. -/
def DiskWriteGate.recordFsyncLatency (g : DiskWriteGate) (latency : UInt64) : DiskWriteGate :=
  let ema := if g.emaLatency = 0 then latency else (latency + 9 * g.emaLatency) / 10
  { g with emaLatency := ema, degraded := g.degraded || g.latencyBudget < ema }

/-- What the disk does about an append: the answer of `DiskWritable`, and the latency of the sync after
it, if `NoteAppend` asks for one. -/
structure DiskIO where
  writable : Bool
  fsync : Option UInt64

/-- A record: its payload, and the flag `WalFlagDedupReady`, which no large record gets. -/
structure WalRecord where
  payload : List UInt8
  dedupReady : Bool
  fits : dedupReady = true → payload.length ≤ maxPayloadSize

/-- The WAL, and the fencing epoch of its `Partition`. The segment is smaller than 4 GiB, so that
`PayloadLen` holds every length. -/
structure Wal where
  capacity : UInt32
  gate : Option DiskWriteGate
  records : List WalRecord
  fencingEpoch : ℕ

/-- Why `ProcessPendingKeyGen` stops, with the sequence number. -/
inductive KeyGenError
  | payloadTooLarge (seq : ℕ)
  | derive (seq : ℕ)
  | shed (seq : ℕ)

/-- What `ProcessPendingKeyGen` returns and leaves. -/
structure KeyGenResult where
  processed : ℕ
  err : Option KeyGenError
  gate : Option DiskWriteGate
  records : List WalRecord

/-- The result for a record more, which is processed or skipped. -/
def KeyGenResult.cons (result : KeyGenResult) (record : WalRecord) (processed : ℕ) : KeyGenResult :=
  { result with processed := processed + result.processed, records := record :: result.records }

/-- The loop of `ProcessPendingKeyGen`, with `markKeyGenReadyLocked`; `derive` says whether a factor is
derived, and `disk` whether the disk is writable when the gate asks about a record. -/
def keyGenLoop (derive : ℕ → List UInt8 → Bool) (disk : ℕ → Bool) :
    ℕ → ℕ → Option DiskWriteGate → List WalRecord → KeyGenResult
  | _, _, gate, [] => ⟨0, none, gate, []⟩
  | 0, _, gate, records => ⟨0, none, gate, records⟩
  | max + 1, seq, gate, record :: rest =>
    if hlarge : maxPayloadSize < record.payload.length then
      ⟨0, some (.payloadTooLarge seq), gate, record :: rest⟩
    else if record.dedupReady then (keyGenLoop derive disk (max + 1) (seq + 1) gate rest).cons record 0
    else if derive seq record.payload then
      if (acquireAppend .low (disk seq) gate).2 then
        (keyGenLoop derive disk max (seq + 1) (acquireAppend .low (disk seq) gate).1 rest).cons
          { record with dedupReady := true, fits := fun _ => Nat.not_lt.mp hlarge } 1
      else ⟨0, some (.shed seq), (acquireAppend .low (disk seq) gate).1, record :: rest⟩
    else ⟨0, some (.derive seq), gate, record :: rest⟩

namespace Wal

/-- An empty WAL behind a gate. -/
def empty (capacity : UInt32) (gate : Option DiskWriteGate) : Wal := ⟨capacity, gate, [], 0⟩

/-- `WritePos`. -/
def writePos (w : Wal) : ℕ := (w.records.map fun record => headerSize + record.payload.length).sum

/-- The gate after `AcquireAppend`. -/
def acquired (w : Wal) (tier : Tier) (io : DiskIO) : Wal :=
  { w with gate := (acquireAppend tier io.writable w.gate).1 }

/-- The gate after the sync that an append asks for. -/
def synced (w : Wal) (io : DiskIO) : Wal :=
  { w with gate := w.gate.map fun g => io.fsync.elim g g.recordFsyncLatency }

/-- `appendLocked`, where the segment has room. -/
def appendLocked (w : Wal) (payload : List UInt8) : Option Wal :=
  if w.writePos + (headerSize + payload.length) ≤ w.capacity.toNat then
    some { w with records := w.records ++ [⟨payload, false, nofun⟩] }
  else none

/-- The loop of `AppendBatch`: it passes over empty payloads, and ends where the segment is full. -/
def appendEach (w : Wal) (io : DiskIO) : List (List UInt8) → Wal
  | [] => w.synced io
  | payload :: rest =>
    if payload = [] then appendEach w io rest
    else
      match w.appendLocked payload with
      | some appended => appendEach appended io rest
      | none => w

/-- `AppendBatch`. -/
def appendBatch (w : Wal) (payloads : List (List UInt8)) (io : DiskIO) : Wal :=
  if payloads = [] then w else (w.acquired .high io).appendEach io payloads

/-- `Append`, which does what `AppendBatch` does with one payload. -/
def append (w : Wal) (payload : List UInt8) (io : DiskIO) : Wal :=
  if payload = [] then w else w.appendBatch [payload] io

/-- `AppendLeader`. -/
def appendLeader (w : Wal) (epoch : ℕ) (payload : List UInt8) (io : DiskIO) : Wal :=
  if 0 < epoch ∧ epoch < w.fencingEpoch then w
  else { w with fencingEpoch := max w.fencingEpoch epoch }.append payload io

/-- `ProcessPendingKeyGen`. -/
def processPendingKeyGen (derive : ℕ → List UInt8 → Bool) (disk : ℕ → Bool) (max : ℕ) (w : Wal) : Wal :=
  let result := keyGenLoop derive disk max 0 w.gate w.records
  { w with gate := result.gate, records := result.records }

/-- `KeyGenQueueDepth`. -/
def keyGenQueueDepth (w : Wal) : ℕ := w.records.countP fun record => !record.dedupReady

end Wal

/-- What is done with the WAL, and by other users of its gate, up to key generation. -/
inductive WalAction
  | append (payload : List UInt8) (io : DiskIO)
  | appendBatch (payloads : List (List UInt8)) (io : DiskIO)
  | appendLeader (epoch : ℕ) (payload : List UInt8) (io : DiskIO)
  | otherWrite (tier : Tier) (io : DiskIO)
  | keyGen (derive : ℕ → List UInt8 → Bool) (disk : ℕ → Bool) (max : ℕ)

/-- One action. -/
def Wal.step (w : Wal) : WalAction → Wal
  | .append payload io => w.append payload io
  | .appendBatch payloads io => w.appendBatch payloads io
  | .appendLeader epoch payload io => w.appendLeader epoch payload io
  | .otherWrite tier io => (w.acquired tier io).synced io
  | .keyGen derive disk max => w.processPendingKeyGen derive disk max

/-- `SpendSyncTxn`, with a transaction id that is valid UTF-8. -/
structure SpendSyncTxn where
  campaignID : UUID
  amountMicro : ℤ
  txnID : String

/-- How `json.Marshal` writes a character of a string. -/
def jsonChar (c : Char) : List Char :=
  if c = '"' ∨ c = '\\' then ['\\', c]
  else if c.toNat = 8 then ['\\', 'b']
  else if c.toNat = 9 then ['\\', 't']
  else if c.toNat = 10 then ['\\', 'n']
  else if c.toNat = 12 then ['\\', 'f']
  else if c.toNat = 13 then ['\\', 'r']
  else if c.toNat < 32 ∨ c ∈ ['<', '>', '&'] then '\\' :: 'u' :: '0' :: '0' :: hexByte c.toNat.toUInt8
  else if c.toNat = 0x2028 then "\\u2028".toList
  else if c.toNat = 0x2029 then "\\u2029".toList
  else [c]

/-- The JSON text of a transaction. -/
def SpendSyncTxn.text (txn : SpendSyncTxn) : List Char :=
  "\x7b\"c\":\"".toList ++ (uuidString txn.campaignID).toList ++ "\",\"a\":".toList ++
    (toString txn.amountMicro).toList ++ ",\"t\":\"".toList ++ txn.txnID.toList.flatMap jsonChar ++
    "\"\x7d".toList

/-- `EncodeSpendSyncPayload`. -/
def encodeSpendSyncPayload (txns : List SpendSyncTxn) : Option (List UInt8) :=
  if txns = [] ∨ txns.any (fun txn => txn.campaignID = uuidNil ∨ txn.amountMicro ≤ 0 ∨ txn.txnID = "") then
    none
  else
    some (("\x7b\"kind\":\"spend_sync\",\"txns\":[".toList ++
      [','].intercalate (txns.map SpendSyncTxn.text) ++ "]\x7d".toList).flatMap String.utf8EncodeChar)

/-- The text of a transaction has at least 56 characters. -/
theorem SpendSyncTxn.text_length (txn : SpendSyncTxn) : 56 ≤ txn.text.length := by
  obtain ⟨first, second, third, last, h1, h2, h3, h4, htext⟩ : ∃ first second third last : List Char,
      first.length = 6 ∧ second.length = 6 ∧ third.length = 6 ∧ last.length = 2 ∧
      txn.text = first ++ (uuidString txn.campaignID).toList ++ second ++
        (toString txn.amountMicro).toList ++ third ++ txn.txnID.toList.flatMap jsonChar ++ last :=
    ⟨_, _, _, _, by decide, by decide, by decide, by decide, rfl⟩
  simp only [htext, length_append, uuidString_length]
  omega

/-- A batch of 74 transactions or more is larger than `MaxPayloadSize`. -/
theorem encodeSpendSyncPayload_large {txns : List SpendSyncTxn} {payload : List UInt8}
    (h : encodeSpendSyncPayload txns = some payload) (hmany : 74 ≤ txns.length) :
    maxPayloadSize < payload.length := by
  have hbytes (text : List Char) : text.length ≤ (text.flatMap String.utf8EncodeChar).length := by
    induction text with
    | nil => exact Nat.le_refl 0
    | cons c rest ih =>
      have hchar := c.utf8Size_pos
      rw [flatMap_cons, length_append, String.length_utf8EncodeChar, length_cons]
      omega
  have htexts : 56 * txns.length ≤ ([','].intercalate (txns.map SpendSyncTxn.text)).length := by
    clear h hmany
    induction txns with
    | nil => exact Nat.zero_le _
    | cons txn rest ih =>
      have hfirst := txn.text_length
      by_cases hnone : rest = []
      · rw [hnone, map_singleton, intercalate_singleton]
        exact hfirst
      · rw [map_cons, intercalate_cons_of_ne_nil (map_eq_nil_iff.not.mpr hnone), length_append,
          length_append, length_cons]
        omega
  unfold encodeSpendSyncPayload at h
  split at h
  · cases h
  cases h
  refine lt_of_lt_of_le ?_ (hbytes _)
  simp only [length_append, maxPayloadSize]
  omega

section

variable {derive : ℕ → List UInt8 → Bool} {disk : ℕ → Bool} {gate : Option DiskWriteGate} {max seq : ℕ}
  {records : List WalRecord}

/-- Key generation does not mark a record that is too large for it or that the gate sheds. -/
def Blocked (disk : ℕ → Bool) (gate : Option DiskWriteGate) (seq : ℕ) (record : WalRecord) : Prop :=
  maxPayloadSize < record.payload.length ∨ (acquireAppend .low (disk seq) gate).2 = false

/-- A gate lets a write of the low tier pass where it is not degraded and the disk is writable, and it is
degraded otherwise. -/
theorem acquireAppend_low (g : DiskWriteGate) (writable : Bool) :
    acquireAppend .low writable (some g) =
      (some { g with degraded := g.degraded || !writable }, !g.degraded && writable) := by
  obtain ⟨budget, ema, degraded⟩ := g
  cases degraded <;> cases writable <;> rfl

/-- The gate that lets a write of the low tier pass stays as it is. -/
theorem acquireAppend_open {writable : Bool} (h : (acquireAppend .low writable gate).2 = true) :
    (acquireAppend .low writable gate).1 = gate := by
  cases gate with
  | none => rfl
  | some g =>
    obtain ⟨budget, ema, degraded⟩ := g
    rw [acquireAppend_low, Bool.and_eq_true, Bool.not_eq_true'] at h
    obtain ⟨rfl, rfl⟩ := h
    rfl

/-- What the gate sheds, it sheds after every other write. -/
theorem Blocked.acquired {record : WalRecord} (h : Blocked disk gate seq record) (writable : Bool) :
    Blocked disk (acquireAppend .low writable gate).1 seq record := by
  refine h.imp_right fun hshed => ?_
  cases gate with
  | none => cases hshed
  | some g =>
    rw [acquireAppend_low] at hshed
    rw [acquireAppend_low, acquireAppend_low]
    cases hdegraded : g.degraded with
    | true => rfl
    | false =>
      have hdisk : disk seq = false := by
        rwa [hdegraded] at hshed
      dsimp only
      rw [hdisk, Bool.and_false]

/-- A pending record that is blocked stays as it is, and blocked. -/
theorem keyGenLoop_blocked {i : ℕ} {record : WalRecord} (hat : records[i]? = some record)
    (hpend : record.dedupReady = false) (hblock : Blocked disk gate (seq + i) record) :
    (keyGenLoop derive disk max seq gate records).records[i]? = some record ∧
      Blocked disk (keyGenLoop derive disk max seq gate records).gate (seq + i) record := by
  induction records generalizing max seq gate i with
  | nil => cases hat
  | cons head rest ih =>
    cases max with
    | zero => exact ⟨hat, hblock⟩
    | succ max =>
      unfold keyGenLoop
      split
      · exact ⟨hat, hblock⟩
      rename_i hsmall
      split
      · rename_i hready
        cases i with
        | zero =>
          cases hat
          rw [hpend] at hready
          cases hready
        | succ i =>
          rw [← Nat.add_assoc, Nat.add_right_comm] at hblock ⊢
          exact ih hat hblock
      split
      · split
        · rename_i hopen
          cases i with
          | zero =>
            cases hat
            rcases hblock with hlarge | hshed
            · exact absurd hlarge hsmall
            · rw [Nat.add_zero, hopen] at hshed
              cases hshed
          | succ i =>
            rw [← Nat.add_assoc, Nat.add_right_comm] at hblock ⊢
            exact ih hat (hblock.acquired _)
        · exact ⟨hat, hblock.acquired _⟩
      · exact ⟨hat, hblock⟩

/-- A record that key generation leaves has its payload, and was pending if it is. -/
theorem keyGenLoop_left {i : ℕ} {left : WalRecord}
    (hat : (keyGenLoop derive disk max seq gate records).records[i]? = some left) :
    ∃ record, records[i]? = some record ∧ left.payload = record.payload ∧
      (left.dedupReady = false → record.dedupReady = false) := by
  have hsame {l : List WalRecord} {i : ℕ} (h : l[i]? = some left) : ∃ record : WalRecord,
      l[i]? = some record ∧ left.payload = record.payload ∧
        (left.dedupReady = false → record.dedupReady = false) := ⟨left, h, rfl, id⟩
  induction records generalizing max seq gate i with
  | nil => cases max <;> exact hsame hat
  | cons head rest ih =>
    cases max with
    | zero => exact hsame hat
    | succ max =>
      unfold keyGenLoop at hat
      split at hat
      · exact hsame hat
      split at hat
      · cases i with
        | zero => exact hsame hat
        | succ i => exact ih hat
      split at hat
      · split at hat
        · cases i with
          | zero =>
            cases hat
            exact ⟨head, rfl, rfl, fun h => by cases h⟩
          | succ i => exact ih hat
        · exact hsame hat
      · exact hsame hat

/-- Key generation can mark every pending record. -/
def Markable (disk : ℕ → Bool) (gate : Option DiskWriteGate) (seq : ℕ) (records : List WalRecord) : Prop :=
  ∀ i record, records[i]? = some record → record.payload.length ≤ maxPayloadSize ∧
    (record.dedupReady = false → (acquireAppend .low (disk (seq + i)) gate).2 = true)

/-- A call marks as many pending records as it may, where it can mark all. -/
theorem keyGenLoop_marks (h : Markable disk gate seq records) :
    (keyGenLoop (fun _ _ => true) disk max seq gate records).gate = gate ∧
      (keyGenLoop (fun _ _ => true) disk max seq gate records).records.countP
        (fun record => !record.dedupReady) = records.countP (fun record => !record.dedupReady) - max := by
  induction records generalizing max seq with
  | nil => cases max <;> exact ⟨rfl, (Nat.zero_sub _).symm⟩
  | cons head rest ih =>
    obtain ⟨hsmall, hopen⟩ := h 0 head rfl
    have hrest : Markable disk gate (seq + 1) rest := by
      intro i record hat
      rw [Nat.add_assoc, Nat.add_comm 1]
      exact h (i + 1) record hat
    cases max with
    | zero => exact ⟨rfl, rfl⟩
    | succ max =>
      unfold keyGenLoop
      rw [dif_neg (Nat.not_lt.mpr hsmall)]
      cases hready : head.dedupReady with
      | true =>
        rw [if_pos rfl, KeyGenResult.cons, countP_cons_of_neg (by simp [hready]),
          countP_cons_of_neg (by simp [hready])]
        exact ih hrest
      | false =>
        have hpass := hopen hready
        rw [Nat.add_zero] at hpass
        rw [if_neg Bool.false_ne_true, if_pos rfl, if_pos hpass, acquireAppend_open hpass,
          KeyGenResult.cons, countP_cons_of_neg (by simp), countP_cons_of_pos (by simp [hready]),
          Nat.add_sub_add_right]
        exact ih hrest

end

namespace Wal

variable {w : Wal} {disk : ℕ → Bool} {max : ℕ}

/-- Calls of `ProcessPendingKeyGen` with a `derive` that never fails. -/
def keyGenCalls (disk : ℕ → Bool) (max n : ℕ) (w : Wal) : Wal :=
  (processPendingKeyGen (fun _ _ => true) disk max)^[n] w

/-- Each call marks as many records as it may, where key generation can mark all. -/
theorem keyGenQueueDepth_calls (n : ℕ) (h : Markable disk w.gate 0 w.records) :
    (w.keyGenCalls disk max n).keyGenQueueDepth = w.keyGenQueueDepth - n * max := by
  induction n generalizing w with
  | zero => rw [Nat.zero_mul, Nat.sub_zero, keyGenCalls, Function.iterate_zero_apply]
  | succ n ih =>
    obtain ⟨hgate, hcall⟩ := @keyGenLoop_marks disk w.gate max 0 w.records h
    have hagain : Markable disk (w.processPendingKeyGen (fun _ _ => true) disk max).gate 0
        (w.processPendingKeyGen (fun _ _ => true) disk max).records := by
      intro i left hat
      obtain ⟨record, hrec, hpayload, hpend⟩ := keyGenLoop_left hat
      obtain ⟨hsmall, hopen⟩ := h i record hrec
      refine ⟨by rwa [hpayload], fun hleft => ?_⟩
      change (acquireAppend .low _ (keyGenLoop _ _ _ _ _ _).gate).2 = true
      rw [hgate]
      exact hopen (hpend hleft)
    rw [keyGenCalls, Function.iterate_succ_apply, ← keyGenCalls, ih hagain, Nat.succ_mul,
      Nat.add_comm, ← Nat.sub_sub]
    exact congrArg (· - n * max) hcall

/-- A pending record that key generation cannot mark stays pending. -/
theorem keyGenQueueDepth_ne_zero {i : ℕ} {record : WalRecord} (hat : w.records[i]? = some record)
    (hpend : record.dedupReady = false) (hblock : Blocked disk w.gate i record) (n : ℕ) :
    (w.keyGenCalls disk max n).keyGenQueueDepth ≠ 0 := by
  induction n generalizing w with
  | zero =>
    have hmem : record ∈ w.records := mem_iff_getElem?.mpr ⟨i, hat⟩
    exact (countP_pos_iff.mpr ⟨record, hmem, by rw [hpend]; rfl⟩).ne'
  | succ n ih =>
    rw [← Nat.zero_add i] at hblock
    obtain ⟨hkept, hstill⟩ := @keyGenLoop_blocked (fun _ _ => true) disk w.gate max 0 w.records i record hat
      hpend hblock
    rw [Nat.zero_add] at hstill
    exact @ih (w.processPendingKeyGen (fun _ _ => true) disk max) hkept hstill

/-- After any appends, other writes and calls of key generation, further calls with a `derive` that never
fails empty the queue exactly when no record is larger than `MaxPayloadSize` and the gate lets every
pending record pass: there is none, or it is not degraded and finds the disk writable. A batch of 74
transactions or more is larger than `MaxPayloadSize`. -/
theorem keyGen_empties_queue_iff (capacity : UInt32) (gate : Option DiskWriteGate)
    (actions : List WalAction) (disk : ℕ → Bool) (max : ℕ) :
    let w := run step (empty capacity gate) actions
    ((∃ n, (w.keyGenCalls disk (max + 1) n).keyGenQueueDepth = 0) ↔
      ∀ i record, w.records[i]? = some record → record.payload.length ≤ maxPayloadSize ∧
        (record.dedupReady = false → (acquireAppend .low (disk i) w.gate).2 = true)) ∧
    ∀ txns payload, encodeSpendSyncPayload txns = some payload → 74 ≤ txns.length →
      maxPayloadSize < payload.length := by
  intro w
  refine ⟨⟨?_, ?_⟩, fun txns payload => encodeSpendSyncPayload_large⟩
  · rintro ⟨n, hn⟩ i record hat
    constructor
    · by_contra hlarge
      have hpend : record.dedupReady = false := Bool.eq_false_of_not_eq_true (mt record.fits hlarge)
      exact keyGenQueueDepth_ne_zero hat hpend (.inl (Nat.lt_of_not_le hlarge)) n hn
    · intro hpending
      by_contra hshed
      exact keyGenQueueDepth_ne_zero hat hpending (.inr (Bool.eq_false_of_not_eq_true hshed)) n hn
  · intro hmark
    refine ⟨w.keyGenQueueDepth, ?_⟩
    rw [keyGenQueueDepth_calls]
    · exact Nat.sub_eq_zero_of_le (Nat.le_mul_of_pos_right _ (Nat.succ_pos max))
    · simpa only [Markable, Nat.zero_add] using hmark

/-- Two WALs whose queue is never empty: one that has accepted a payload of one byte more than the limit,
and one whose gate has met a slow sync; and a batch of the default minimum size is above the limit. -/
theorem keyGen_stalls :
    let io : DiskIO := ⟨true, none⟩
    let large := run step (empty (64 * 1024 * 1024) none) [.append (replicate 4097 0) io, .append [1] io]
    let shed := run step (empty (64 * 1024 * 1024) (some ⟨50000000, 0, false⟩))
      [.append [1] ⟨true, some 60000000⟩]
    (large.records.length = 2 ∧ ¬∃ n, (large.keyGenCalls (fun _ => true) 100 n).keyGenQueueDepth = 0) ∧
      (shed.records.length = 1 ∧ ¬∃ n, (shed.keyGenCalls (fun _ => true) 100 n).keyGenQueueDepth = 0) ∧
      ∃ payload, encodeSpendSyncPayload (replicate 100 ⟨Vector.replicate 16 1, 1, "tx"⟩) = some payload ∧
        maxPayloadSize < payload.length := by
  have hlen : (replicate 4097 (0 : UInt8)).length = 4097 := length_replicate
  generalize replicate 4097 (0 : UInt8) = payload at hlen
  intro io large shed
  have hbody : payload ≠ [] := by
    rintro rfl
    exact absurd hlen (by decide)
  have hrecs : large.records = [⟨payload, false, nofun⟩, ⟨[1], false, nofun⟩] := by
    simp [large, io, run, step, append, appendBatch, appendEach, acquired, synced, acquireAppend,
      appendLocked, empty, writePos, headerSize, hbody, hlen]
  have hlarge : maxPayloadSize < payload.length := by
    rw [hlen]
    decide
  refine ⟨⟨by rw [hrecs]; rfl, ?_⟩, ⟨rfl, ?_⟩, _, if_neg (by decide), ?_⟩
  · rintro ⟨n, hn⟩
    exact keyGenQueueDepth_ne_zero (i := 0) (by rw [hrecs]; rfl) rfl (.inl hlarge) n hn
  · rintro ⟨n, hn⟩
    exact @keyGenQueueDepth_ne_zero shed _ _ 0 ⟨[1], false, nofun⟩ rfl rfl (.inr rfl) n hn
  · exact encodeSpendSyncPayload_large (if_neg (by decide)) (by rw [length_replicate]; decide)

end Wal

end Espx.Region
