import Mathlib.Tactic.Linarith

/-!
# The score of a bid

The bid weighted with its click-through rate and its boost, in parts per million, by which candidates are
ranked. The products are taken in `int64` before the division, so that at the default weights a bid of ten
million micro-units wraps. How ties are broken is not part of this.
-/

namespace Espx.Rtb

/-- `CTRPPMUnit`. -/
def ctrPPMUnit : UInt32 := 1000000

/-- `normalizeCTRPPM`: a weight that is not set counts as the unit. -/
def normalizeCTRPPM (ctrPPM : UInt32) : UInt32 := if ctrPPM = 0 then ctrPPMUnit else ctrPPM

/-- `effectiveScoreWithBoost`. -/
def effectiveScoreWithBoost (bid : Int64) (ctrPPM boostPPM : UInt32) : Int64 :=
  let ctr := normalizeCTRPPM ctrPPM
  let boost := normalizeCTRPPM boostPPM
  let denom := Int64.ofNat ctrPPMUnit.toNat * Int64.ofNat ctrPPMUnit.toNat
  bid * Int64.ofNat ctr.toNat * Int64.ofNat boost.toNat / denom

/-- The weighted bid over the integers. -/
def weighted (bid : Int64) (ctr boost : UInt32) : ℤ :=
  bid.toInt * (normalizeCTRPPM ctr).toNat * (normalizeCTRPPM boost).toNat

section

variable {bid : Int64} (ctr boost : UInt32)

theorem toInt_effectiveScoreWithBoost (bid : Int64) :
    (effectiveScoreWithBoost bid ctr boost).toInt =
      ((weighted bid ctr boost).bmod (2 ^ 64)).tdiv (10 ^ 12) := by
  have hdenom : (Int64.ofNat ctrPPMUnit.toNat * Int64.ofNat ctrPPMUnit.toNat).toInt = 10 ^ 12 := by
    decide
  have hweight (n : UInt32) : (Int64.ofNat n.toNat).toInt = n.toNat :=
    Int64.toInt_ofNat_of_lt (n.toNat_lt.trans (by decide))
  unfold effectiveScoreWithBoost
  rw [Int64.toInt_div_of_ne_right _ _ (by decide), hdenom, Int64.toInt_mul, Int64.toInt_mul, hweight,
    hweight, Int.bmod_mul_bmod]
  rfl

theorem weighted_mono {lower : Int64} (h : lower ≤ bid) :
    weighted lower ctr boost ≤ weighted bid ctr boost := by
  have hle := Int64.le_iff_toInt_le.mp h
  unfold weighted
  gcongr

/-- A weighted bid that fits has the exact quotient as its score. -/
theorem score_of_fits (hbid : 0 ≤ bid) (hfits : weighted bid ctr boost < 2 ^ 63) :
    (effectiveScoreWithBoost bid ctr boost).toInt = weighted bid ctr boost / 10 ^ 12 := by
  have hnonneg := weighted_mono ctr boost hbid
  simp only [weighted, Int64.toInt_zero, zero_mul] at hnonneg
  rw [toInt_effectiveScoreWithBoost, weighted, Int.bmod_eq_of_le (by omega) (by exact hfits),
    Int.tdiv_eq_ediv_of_nonneg hnonneg]

end

/-- Scores are exact, not negative and in the order of the bids up to this one exactly when the bid times
its weights is below `2^63`. -/
theorem score_exact_iff (bid : Int64) (ctr boost : UInt32) (hbid : 0 ≤ bid) :
    ((effectiveScoreWithBoost bid ctr boost).toInt = weighted bid ctr boost / 10 ^ 12 ∧
        0 ≤ effectiveScoreWithBoost bid ctr boost ∧
        ∀ lower, 0 ≤ lower → lower ≤ bid →
          effectiveScoreWithBoost lower ctr boost ≤ effectiveScoreWithBoost bid ctr boost) ↔
      weighted bid ctr boost < 2 ^ 63 := by
  constructor
  · rintro ⟨hscore, -⟩
    by_contra hlarge
    rw [toInt_effectiveScoreWithBoost, Int.tdiv_eq_ediv,
      show Int.sign (10 ^ 12) = 1 from rfl] at hscore
    have hturns := Int.bmod_eq_self_sub_mul_bdiv (weighted bid ctr boost) (2 ^ 64)
    have hmax : (weighted bid ctr boost).bmod (2 ^ 64) < 2 ^ 63 := Int.bmod_lt (by decide)
    split at hscore <;> omega
  intro hfits
  have hscore := score_of_fits ctr boost hbid hfits
  have hmono : ∀ lower, 0 ≤ lower → lower ≤ bid →
      effectiveScoreWithBoost lower ctr boost ≤ effectiveScoreWithBoost bid ctr boost := by
    intro lower hlow hle
    have hless := weighted_mono ctr boost hle
    rw [Int64.le_iff_toInt_le, hscore, score_of_fits ctr boost hlow (hless.trans_lt hfits)]
    exact Int.ediv_le_ediv (by decide) hless
  have hzero : effectiveScoreWithBoost 0 ctr boost = 0 := by
    simp [effectiveScoreWithBoost]
  exact ⟨hscore, hzero ▸ hmono 0 (Int64.le_refl 0) hbid, hmono⟩

/-- A bid of a million. -/
theorem score_exact_million :
    (effectiveScoreWithBoost 1000000 0 500000).toInt = weighted 1000000 0 500000 / 10 ^ 12 :=
  ((score_exact_iff 1000000 0 500000 (by decide)).mpr (by decide)).1

/-- A bid of ten million scores below zero, one of nine million above it. -/
theorem higher_bid_scores_lower :
    effectiveScoreWithBoost 10000000 ctrPPMUnit ctrPPMUnit = -8446744 ∧
      effectiveScoreWithBoost 9000000 ctrPPMUnit ctrPPMUnit = 9000000 := by
  decide

end Espx.Rtb
