import Espx.ControlPlane.RegionRelay

/-!
# Scopes that meet

A claim on a dedup key is answered from the row of its scope. `ScopeWithAttempt` scales the numbers of
later attempts and not those of the first one, and `InflightSeq` keeps four bytes of a transaction id;
both can give two operations one scope.
-/

namespace Espx.ControlPlane

open Espx.Foundation Espx.Domain Espx.Dedup

section

variable {stale : Bool} {newD : UUID} {scope other : Scope} {factorU : UUID}

theorem get?_dedupClaimConfirm_of_ne (h : other ≠ scope) (proposals : Table Scope Proposal) :
    (dedupClaimConfirm stale newD scope factorU proposals).2.get? other = proposals.get? other := by
  unfold dedupClaimConfirm
  split
  · exact proposals.get?_insert_of_ne _ h
  split
  · rfl
  · split <;> rfl
  · split
    · exact proposals.get?_modify_of_ne _ h
    · split <;> exact proposals.get?_modify_of_ne _ h

/-- A claim is answered from the row of its scope. -/
theorem dedupClaimConfirm_fst_congr {proposals proposals' : Table Scope Proposal}
    (h : proposals.get? scope = proposals'.get? scope) :
    (dedupClaimConfirm stale newD scope factorU proposals).1 =
      (dedupClaimConfirm stale newD scope factorU proposals').1 := by
  simp only [dedupClaimConfirm, h]
  split
  · rfl
  split
  · rfl
  · split <;> rfl
  · split
    · rfl
    · split <;> rfl

/-- The scopes differ, and a claim under the other one never changes the answer to a claim under the
first. -/
def ClaimsApart (scope other : Scope) : Prop :=
  scope ≠ other ∧ ∀ (stale stale' : Bool) (newD newD' factorU factorU' : UUID)
    (proposals : Table Scope Proposal),
    (dedupClaimConfirm stale newD scope factorU
        (dedupClaimConfirm stale' newD' other factorU' proposals).2).1 =
      (dedupClaimConfirm stale newD scope factorU proposals).1

theorem claimsApart_iff : ClaimsApart scope other ↔ scope ≠ other := by
  refine ⟨And.left, fun h => ⟨h, ?_⟩⟩
  intro stale stale' newD newD' factorU factorU' proposals
  exact dedupClaimConfirm_fst_congr (get?_dedupClaimConfirm_of_ne h proposals)

end

section

variable {a b : Scope} {i j : ℕ}

/-- The numbers of a scope are 64-bit numbers. -/
def SeqInRange (scope : Scope) : Prop :=
  (-2 ^ 63 ≤ scope.seqStart ∧ scope.seqStart < 2 ^ 63) ∧ -2 ^ 63 ≤ scope.seqEnd ∧ scope.seqEnd < 2 ^ 63

/-- The number `s` of attempt `i` and the number `t` of attempt `j` are taken for one another: one is
scaled to the other, which is not, or both are scaled and wrap around to one number. In the last case the
attempts differ by eight times a number, and `s` and `t` by that number over -125 modulo `2 ^ 61`. -/
def SeqsMeet (s : ℤ) (i : ℕ) (t : ℤ) (j : ℕ) : Prop :=
  if i = 1 then if j = 1 then s = t else (2 ^ 64 : ℤ) ∣ s - 1000 * t - j
  else if j = 1 then (2 ^ 64 : ℤ) ∣ t - 1000 * s - i
  else (8 : ℤ) ∣ i - j ∧ (2 ^ 61 : ℤ) ∣ s - t - 239807672958224171 * ((i - j) / 8)

/-- The scope of an attempt, in numbers. -/
theorem scopeWithAttempt_eq (hi : 1 ≤ i) : scopeWithAttempt a i =
    { a with
      seqStart := if i = 1 then a.seqStart else Int.bmod (a.seqStart * 1000 + i) (2 ^ 64)
      seqEnd := if i = 1 then a.seqEnd else Int.bmod (a.seqEnd * 1000 + i) (2 ^ 64) } := by
  unfold scopeWithAttempt
  by_cases h : i = 1
  · rw [if_pos h.le, if_pos h, if_pos h]
  · rw [if_neg (by omega), if_neg h, if_neg h]

/-- Numbers of attempts are equal when they meet. -/
theorem scaled_eq_iff {s t : ℤ} (hs : -2 ^ 63 ≤ s ∧ s < 2 ^ 63) (ht : -2 ^ 63 ≤ t ∧ t < 2 ^ 63) :
    ((if i = 1 then s else Int.bmod (s * 1000 + i) (2 ^ 64)) =
      if j = 1 then t else Int.bmod (t * 1000 + j) (2 ^ 64)) ↔ SeqsMeet s i t j := by
  simp only [SeqsMeet, Int.bmod_def]
  split_ifs <;> omega

/-- Two operations of one source have two scopes, and never meet in the dedup table, exactly when not
both of their numbers meet. -/
theorem attempts_apart_iff (ha : SeqInRange a) (hb : SeqInRange b) (hi : 1 ≤ i) (hj : 1 ≤ j)
    (hregion : a.regionID = b.regionID) (hsource : a.sourceID = b.sourceID)
    (hepoch : a.sourceEpoch = b.sourceEpoch) :
    ClaimsApart (scopeWithAttempt a i) (scopeWithAttempt b j) ↔
      ¬ (SeqsMeet a.seqStart i b.seqStart j ∧ SeqsMeet a.seqEnd i b.seqEnd j) := by
  rw [claimsApart_iff, Ne, not_iff_not, scopeWithAttempt_eq hi, scopeWithAttempt_eq hj,
    Scope.mk.injEq, ← scaled_eq_iff ha.1 hb.1, ← scaled_eq_iff ha.2 hb.2]
  simp only [hregion, hsource, hepoch, true_and]

/-- The scope of one number of a source. -/
def sampleScope (seq : ℤ) : Scope := ⟨uuidNil, uuidNil, 1, seq, seq⟩

/-- The first two attempts of number seven. -/
theorem attempts_apart_sample :
    ClaimsApart (scopeWithAttempt (sampleScope 7) 1) (scopeWithAttempt (sampleScope 7) 2) :=
  (attempts_apart_iff (by unfold SeqInRange; decide) (by unfold SeqInRange; decide) le_rfl (by decide)
    rfl rfl rfl).mpr (by unfold SeqsMeet; decide)

/-- The second attempt of number one and the first attempt of number 1002 have one scope: the later claim
is told that its hash does not match. -/
theorem attempts_meet :
    scopeWithAttempt (sampleScope 1) 2 = scopeWithAttempt (sampleScope 1002) 1 ∧
      (dedupClaimConfirm false uuidNil (scopeWithAttempt (sampleScope 1002) 1) uuidNil
        (dedupClaimConfirm false uuidNil (scopeWithAttempt (sampleScope 1) 2)
          (Vector.replicate 16 1) Table.empty).2).1.outcome = .hashMismatch := by
  decide

end

section

variable (lib : Libraries)

/-- `SyncWorkerSourceID`. -/
def syncWorkerSourceID (shardID : Int16) (campaignID : UUID) : UUID :=
  lib.newSHA1 ("espx-sync:" ++ toString shardID.toInt ++ ":" ++ uuidString campaignID)

/-- `uuid.UUID.ID`, as a 64-bit number. -/
def uuidID (u : UUID) : ℤ :=
  (((u.get 0).toNat * 256 + (u.get 1).toNat) * 256 + (u.get 2).toNat) * 256 + (u.get 3).toNat

/-- `InflightSeq`. -/
def inflightSeq (txID : String) : ℤ :=
  if txID = "" then 0
  else
    match lib.parse txID with
    | some u => uuidID u
    | none => uuidID (lib.factorU ("txid:" ++ txID).toUTF8.toList)

/-- The scope that `resolveSpendDedup` claims, under the region and the epoch of its adapter. -/
def spendScope (region : UInt8) (epoch : UInt32) (shardID : Int16) (campaignID : UUID) (txID : String) :
    Scope where
  regionID := regionUUID lib region
  sourceID := syncWorkerSourceID lib shardID campaignID
  sourceEpoch := epoch
  seqStart := inflightSeq lib txID
  seqEnd := inflightSeq lib txID

theorem uuidID_eq_iff (u v : UUID) :
    uuidID u = uuidID v ↔ u.get 0 = v.get 0 ∧ u.get 1 = v.get 1 ∧ u.get 2 = v.get 2 ∧ u.get 3 = v.get 3 := by
  simp only [uuidID, ← UInt8.toNat_inj]
  have hbound (b : UInt8) : b.toNat < 256 := b.toNat_lt
  have := hbound (u.get 1); have := hbound (u.get 2); have := hbound (u.get 3)
  have := hbound (v.get 1); have := hbound (v.get 2); have := hbound (v.get 3)
  omega

variable {lib}

theorem inflightSeq_uuidString {u : UUID} (h : lib.parse (uuidString u) = some u) :
    inflightSeq lib (uuidString u) = uuidID u := by
  have hne : uuidString u ≠ "" := by
    intro hempty
    have hlen := uuidString_length u
    rw [hempty] at hlen
    cases hlen
  rw [inflightSeq, if_neg hne, h]

/-- Two transactions of a campaign have two scopes, and never meet in the dedup table, exactly when the
first four bytes of their identifiers differ. -/
theorem spendScopes_apart_iff (region : UInt8) (epoch : UInt32) (shardID : Int16) (campaignID : UUID)
    {u v : UUID} (hu : lib.parse (uuidString u) = some u) (hv : lib.parse (uuidString v) = some v) :
    ClaimsApart (spendScope lib region epoch shardID campaignID (uuidString u))
        (spendScope lib region epoch shardID campaignID (uuidString v)) ↔
      ¬ (u.get 0 = v.get 0 ∧ u.get 1 = v.get 1 ∧ u.get 2 = v.get 2 ∧ u.get 3 = v.get 3) := by
  rw [claimsApart_iff, Ne, not_iff_not, ← uuidID_eq_iff]
  simp [spendScope, inflightSeq_uuidString hu, inflightSeq_uuidString hv]

/-- A random identifier whose first and last byte are given. -/
def sampleTxID (first last : UInt8) : UUID :=
  #v[first, 0x1c, 0x6e, 0xb4, 0x52, 0x0d, 0x4f, 0x97, 0xa8, 0x3b, 0xe1, 0x70, 0x25, 0xcd, 0x96, last]

/-- `NewSHA1` of the name of the region, and `uuid.Parse` of three transactions. -/
def sampleTxLibraries : Libraries where
  parse text := [sampleTxID 0x9d 0x3e, sampleTxID 0x9d 0x41, sampleTxID 0x27 0x3e].find? fun id =>
    uuidString id = text
  newSHA1 _ := sampleRegionID
  factorU _ :=
    #v[0x25, 0x5f, 0x40, 0x75, 0x6e, 0xc1, 0x41, 0x0e, 0x90, 0xe8, 0x2c, 0x2a, 0x71, 0x0b, 0xd5, 0x6b]

/-- Two transactions whose identifiers differ in the first byte. -/
theorem spendScopes_apart_sample :
    ClaimsApart (spendScope sampleTxLibraries 1 1 0 uuidNil (uuidString (sampleTxID 0x9d 0x3e)))
      (spendScope sampleTxLibraries 1 1 0 uuidNil (uuidString (sampleTxID 0x27 0x3e))) :=
  (spendScopes_apart_iff 1 1 0 uuidNil (by decide) (by decide)).mpr (by decide)

/-- Two transactions whose identifiers differ in the last byte have one scope: the second is told that its
key was confirmed before when it carries the same amount, or else that its hash does not match. -/
theorem spendScopes_meet :
    let first := spendScope sampleTxLibraries 1 1 0 uuidNil (uuidString (sampleTxID 0x9d 0x3e))
    let second := spendScope sampleTxLibraries 1 1 0 uuidNil (uuidString (sampleTxID 0x9d 0x41))
    let claimed := (dedupClaimConfirm false uuidNil first uuidNil Table.empty).2
    sampleTxID 0x9d 0x3e ≠ sampleTxID 0x9d 0x41 ∧ first = second ∧
      (dedupClaimConfirm false uuidNil second uuidNil claimed).1.outcome = .alreadyConfirmed ∧
      (dedupClaimConfirm false uuidNil second (sampleTxID 0x9d 0x3e) claimed).1.outcome = .hashMismatch := by
  decide

end

end Espx.ControlPlane
