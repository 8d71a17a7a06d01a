import Espx.Broker.BatchWire
import Mathlib.Data.Int.Notation

/-!
# Messages of a fetch response

`MessageIterator.Next` reads a length, an offset and a payload. The length counts the offset too, and only
its upper bound is tested: a length below 8 ends the payload before it begins.
-/

namespace Espx.Broker

open List

/-- A record of the broker's log. -/
structure LogRecord where
  offset : UInt64
  payload : List UInt8
deriving DecidableEq

/-- The bytes of a record: the length of what follows, the offset and the payload. -/
def LogRecord.bytes (r : LogRecord) : List UInt8 :=
  (putLittleEndian 4 (8 + r.payload.length)).reverse ++
    ((putLittleEndian 8 r.offset.toNat).reverse ++ r.payload)

/-- An unsigned number, highest byte first. -/
def bigEndian (bytes : List UInt8) : ℕ := littleEndian bytes.reverse

/-- A `MessageIterator`. -/
structure MessageIterator where
  data : List UInt8
  idx : ℕ
  count : UInt32
  curr : ℕ
  offset : UInt64
  payload : List UInt8

namespace MessageIterator

/-- `MessageIterator.Next`; a slice that ends before it begins is `none`. -/
def next (it : MessageIterator) : Option (Bool × MessageIterator) :=
  if it.count.toNat ≤ it.curr ∨ it.data.length < it.idx + 12 then some (false, it)
  else
    let rest := it.data.drop it.idx
    let it := { it with offset := UInt64.ofNat (bigEndian ((rest.drop 4).take 8)) }
    let payloadLen : ℤ := bigEndian (rest.take 4) - 8
    if (it.data.length : ℤ) < it.idx + 12 + payloadLen then some (false, it)
    else if payloadLen < 0 then none
    else some (true, { it with
      payload := (rest.drop 12).take payloadLen.toNat
      idx := it.idx + 12 + payloadLen.toNat
      curr := it.curr + 1 })

/-- The iterator of a response. -/
def new (data : List UInt8) (count : UInt32) : MessageIterator := ⟨data, 0, count, 0, 0, []⟩

/-- What a loop over an iterator sees in so many calls; `none` where a call takes a reversed slice. -/
def messages (it : MessageIterator) : ℕ → Option (List LogRecord)
  | 0 => some []
  | calls + 1 =>
    match it.next with
    | none => none
    | some (false, _) => some []
    | some (true, it') => (it'.messages calls).map (⟨it'.offset, it'.payload⟩ :: ·)

/-- Of so many records that follow each other, no one that is there has a length below 8. -/
def lengthsCount : ℕ → List UInt8 → Bool
  | 0, _ => true
  | count + 1, rest =>
    if rest.length < 12 ∨ rest.length < 4 + bigEndian (rest.take 4) then true
    else 8 ≤ bigEndian (rest.take 4) && lengthsCount count (rest.drop (4 + bigEndian (rest.take 4)))

/-- A loop takes no reversed slice exactly if no length that it reads is below 8. -/
theorem messages_isSome (it : MessageIterator) (calls : ℕ) (hcalls : it.count.toNat = it.curr + calls) :
    (it.messages calls).isSome = lengthsCount calls (it.data.drop it.idx) := by
  induction calls generalizing it with
  | zero => rfl
  | succ calls ih =>
    simp only [messages, lengthsCount, next, length_drop]
    generalize bigEndian ((it.data.drop it.idx).take 4) = length
    by_cases hstop : it.data.length < it.idx + 12
    · have hshort : it.data.length - it.idx < 12 := by omega
      simp [hstop, hshort]
    rw [if_neg (show ¬ (it.count.toNat ≤ it.curr ∨ _) by omega)]
    by_cases hlong : it.data.length < it.idx + (4 + length)
    · have hends : (it.data.length : ℤ) < it.idx + 12 + (length - 8) := by omega
      have hshort : it.data.length - it.idx < 4 + length := by omega
      simp [hends, hshort]
    have hends : ¬ (it.data.length : ℤ) < it.idx + 12 + (length - 8) := by omega
    have hfits : ¬ (it.data.length - it.idx < 12 ∨ it.data.length - it.idx < 4 + length) := by omega
    rw [if_neg hends, if_neg hfits]
    by_cases hsmall : length < 8
    · have hneg : (length : ℤ) - 8 < 0 := by omega
      simp [hneg, Nat.not_le.mpr hsmall]
    · have hidx : it.idx + 12 + ((length : ℤ) - 8).toNat = it.idx + (4 + length) := by omega
      rw [if_neg (by omega), hidx, decide_eq_true (Nat.not_lt.mp hsmall), Bool.true_and,
        Option.isSome_map]
      refine (ih _ ?_).trans (congrArg _ drop_drop.symm)
      dsimp only
      omega

/-- A loop over the bytes of records sees them. -/
theorem messages_records {records : List LogRecord} (hsize : ∀ r ∈ records, 8 + r.payload.length < 2 ^ 32)
    (it : MessageIterator) (hdata : it.data.drop it.idx = records.flatMap LogRecord.bytes)
    (hcount : it.count.toNat = it.curr + records.length) : it.messages records.length = some records := by
  induction records generalizing it with
  | nil => rfl
  | cons r rest ih =>
    obtain ⟨hfirst, hlater⟩ := forall_mem_cons.mp hsize
    rw [flatMap_cons] at hdata
    have hbytes : r.bytes.length = 12 + r.payload.length := by
      simp [LogRecord.bytes, putLittleEndian]
      omega
    have hlen := congrArg List.length hdata
    rw [length_drop, length_append, hbytes] at hlen
    have hlength : bigEndian ((it.data.drop it.idx).take 4) = 8 + r.payload.length := by
      rw [hdata]
      exact (littleEndian_put 4 _).trans (Nat.mod_eq_of_lt hfirst)
    have hoffset : bigEndian (((it.data.drop it.idx).drop 4).take 8) = r.offset.toNat := by
      rw [hdata]
      exact (littleEndian_put 8 _).trans (Nat.mod_eq_of_lt r.offset.toNat_lt)
    have hpayload : ((it.data.drop it.idx).drop 12).take r.payload.length = r.payload := by
      simp [hdata, LogRecord.bytes, putLittleEndian]
    have hnext : it.next = some (true, ⟨it.data, it.idx + r.bytes.length, it.count, it.curr + 1,
        r.offset, r.payload⟩) := by
      rw [next, if_neg (by rw [length_cons] at hcount; omega)]
      have hpos : ((8 + r.payload.length : ℕ) : ℤ) - 8 = r.payload.length := by omega
      simp only [hlength, hoffset, hpos]
      rw [if_neg (by omega), if_neg (by omega), Int.toNat_natCast, hpayload, UInt64.ofNat_toNat, hbytes,
        Nat.add_assoc]
    have hrest := ih hlater ⟨it.data, it.idx + r.bytes.length, it.count, it.curr + 1, r.offset, r.payload⟩
      (by simp [← drop_drop, hdata]) (by rw [length_cons] at hcount; dsimp only; omega)
    rw [length_cons, messages, hnext]
    simp only [hrest, Option.map_some]

/-- A loop over a response takes no slice that is out of range or reversed exactly if no length that it
reads is below 8; every message takes it on, and records of the log are seen as written. -/
theorem message_iteration_iff (data : List UInt8) (count : UInt32) :
    ((new data count).messages count.toNat ≠ none ↔ lengthsCount count.toNat data = true) ∧
    (∀ it it' : MessageIterator, it.next = some (true, it') →
      it.idx + 12 ≤ it'.idx ∧ it'.idx ≤ it.data.length ∧ it'.curr = it.curr + 1) ∧
    ∀ records : List LogRecord, (∀ r ∈ records, 8 + r.payload.length < 2 ^ 32) →
      count.toNat = records.length →
        (new (records.flatMap LogRecord.bytes) count).messages count.toNat = some records := by
  refine ⟨?_, fun it it' h => ?_, fun records hsize hcount => ?_⟩
  · rw [← Option.isSome_iff_ne_none, messages_isSome (new data count) count.toNat (Nat.zero_add _).symm]
    rfl
  · simp only [next] at h
    split_ifs at h with hdone hlong hshort
    · simp at h
    · simp at h
    · obtain rfl := (Prod.mk.inj (Option.some.inj h)).2
      dsimp only
      omega
  · rw [hcount]
    exact messages_records hsize _ rfl (hcount.trans (Nat.zero_add _).symm)

/-- One record. -/
theorem message_iteration_iff_one :
    (new (LogRecord.bytes ⟨5, [1, 2]⟩) 1).messages 1 = some [⟨5, [1, 2]⟩] :=
  (message_iteration_iff [] 1).2.2 [⟨5, [1, 2]⟩] (by decide) rfl

/-- A length of 7 gives a payload of length -1. -/
theorem reversed_slice : (new [0, 0, 0, 7, 0, 0, 0, 0, 0, 0, 0, 1] 1).messages 1 = none := by decide

end MessageIterator

end Espx.Broker
