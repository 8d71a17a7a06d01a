import Espx.ControlPlane.Outbox

/-!
# Repairs of a quota

`decideQuotaRepair` compares a reservation with what Redis is expected to hold. A top-up brings the two
closer when it is no larger than the gap, which goes through a float64 and can be rounded up. A release
lowers the reservation where Redis already holds more, and never does.
-/

namespace Espx.ControlPlane

/-- `quotaRow`, with the nanoseconds since its last update. -/
structure QuotaRow where
  reservedAmount : ℤ
  chunkSize : ℤ
  age : ℤ

/-- The chunk that `decideQuotaRepair` counts with. -/
def QuotaRow.chunk (r : QuotaRow) : ℤ := if r.chunkSize ≤ 0 then 1 else r.chunkSize

/-- The float64 next to a natural number, ties to even. -/
def roundFloat64 (n : ℕ) : ℕ :=
  let unit := 2 ^ (n.log2 - 52)
  if unit < 2 * (n % unit) ∨ unit = 2 * (n % unit) ∧ n / unit % 2 = 1 then (n / unit + 1) * unit
  else n / unit * unit

/-- `int64(math.Abs(float64(drift)))`; a result of 2^63 wraps around. -/
def absFloat64 (drift : ℤ) : ℤ := Int.bmod (roundFloat64 drift.natAbs) (2 ^ 64)

/-- The key of a row that is thirty seconds old is missing. -/
def crashGap (r : QuotaRow) (quotaKeyMissing : Bool) : Bool :=
  quotaKeyMissing ∧ 0 < r.reservedAmount ∧ 30 * 10 ^ 9 ≤ r.age

section

variable (r : QuotaRow) (redisExpected : ℤ) (quotaKeyMissing : Bool)

/-- `decideQuotaRepair`. -/
def decideQuotaRepair : Option (QuotaRepairAction × ℤ × String) :=
  let drift := r.reservedAmount - redisExpected
  let absDrift := absFloat64 drift
  if crashGap r quotaKeyMissing then
    some (.topUpRedis, if r.chunk < r.reservedAmount then r.chunk else r.reservedAmount,
      "crash_gap_missing_redis_key")
  else if absDrift ≤ r.chunk then none
  else if 0 < drift then
    some (.topUpRedis, if Int.bmod (r.chunk * 2) (2 ^ 64) < absDrift then r.chunk else absDrift,
      "pg_reserved_exceeds_redis")
  else some (.releasePG, absDrift, "redis_exceeds_pg_reserved")

/-- The reservation and what Redis is expected to hold after a repair. -/
def repaired (repair : ℤ) : QuotaRepairAction → ℤ × ℤ
  | .topUpRedis => (r.reservedAmount, redisExpected + repair)
  | .releasePG => (max 0 (r.reservedAmount - repair), redisExpected)
  | .unknown _ => (r.reservedAmount, redisExpected)

/-- A repair brings the two closer, and Redis above the reservation only where it was before. -/
def Converges : Prop :=
  match decideQuotaRepair r redisExpected quotaKeyMissing with
  | none => True
  | some (action, repair, _) =>
    let after := repaired r redisExpected repair action
    0 < repair → (after.1 - after.2).natAbs < (r.reservedAmount - redisExpected).natAbs ∧
      (redisExpected ≤ r.reservedAmount → after.2 ≤ after.1)

/-- A missing key is found where Redis holds nothing else or a chunk less than is reserved. Otherwise the
two are a chunk apart at most, or Redis holds less: by a chunk, where one is added, and by no less than
its float64, where the whole gap is. -/
def GapCovers : Prop :=
  let drift := r.reservedAmount - redisExpected
  let absDrift := absFloat64 drift
  let twice := Int.bmod (r.chunk * 2) (2 ^ 64)
  if crashGap r quotaKeyMissing then redisExpected = 0 ∨ r.chunk ≤ drift
  else absDrift ≤ r.chunk ∨ (twice < absDrift → r.chunk ≤ drift) ∧ (absDrift ≤ twice → absDrift ≤ drift)

instance : Decidable (GapCovers r redisExpected quotaKeyMissing) := by
  unfold GapCovers; infer_instance

end

/-- Repairs converge exactly where the gap covers them. -/
theorem repair_converges_iff {r : QuotaRow} {redisExpected : ℤ} {quotaKeyMissing : Bool}
    (hreserved : 0 ≤ r.reservedAmount) (hexpected : 0 ≤ redisExpected) :
    Converges r redisExpected quotaKeyMissing ↔ GapCovers r redisExpected quotaKeyMissing := by
  have hchunk : 0 < r.chunk := by
    unfold QuotaRow.chunk
    split <;> omega
  unfold Converges GapCovers decideQuotaRepair
  dsimp only
  generalize absFloat64 (r.reservedAmount - redisExpected) = absDrift
  generalize Int.bmod (r.chunk * 2) (2 ^ 64) = twice
  by_cases hgap : crashGap r quotaKeyMissing
  · have hpos : 0 < r.reservedAmount := (of_decide_eq_true hgap).2.1
    rw [if_pos hgap, if_pos hgap]
    dsimp only [repaired]
    omega
  rw [if_neg hgap, if_neg hgap]
  by_cases hsmall : absDrift ≤ r.chunk
  · rw [if_pos hsmall]
    exact iff_of_true trivial (Or.inl hsmall)
  rw [if_neg hsmall]
  by_cases hdrift : 0 < r.reservedAmount - redisExpected
  · rw [if_pos hdrift]
    dsimp only [repaired]
    omega
  · rw [if_neg hdrift]
    dsimp only [repaired]
    omega

/-- Half of what is reserved is missing in Redis, and one chunk of it is added. -/
theorem repair_converges_sample : Converges ⟨100, 20, 0⟩ 50 false :=
  (repair_converges_iff (by decide) (by decide)).mpr (by decide +kernel)

/-- A key is missing while all that was reserved waits to be settled, and is topped up beyond the
reservation; and Redis holds more than is reserved, and drifts further. -/
theorem repairs_diverge :
    decideQuotaRepair ⟨100, 20, 30 * 10 ^ 9⟩ 100 true =
        some (.topUpRedis, 20, "crash_gap_missing_redis_key") ∧
      repaired ⟨100, 20, 30 * 10 ^ 9⟩ 100 20 .topUpRedis = (100, 120) ∧
      decideQuotaRepair ⟨100, 20, 0⟩ 150 false = some (.releasePG, 50, "redis_exceeds_pg_reserved") ∧
      repaired ⟨100, 20, 0⟩ 150 50 .releasePG = (50, 150) :=
  ⟨rfl, rfl, rfl, rfl⟩

end Espx.ControlPlane
