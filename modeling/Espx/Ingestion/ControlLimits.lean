import Espx.Foundation.Run
import Mathlib.Data.ENat.Basic
import Mathlib.Data.List.GetD

/-!
# The limits that a tracker takes from its control channel

A packet for the next epoch, the first one and a snapshot set the limits of the shards; one behind a gap
does so when it is tighter. A channel that has gone silent puts every limit down to its canary floor. The
quota map gives each worker its share. A shard that it does not have, or that has the limit zero, is not
limited, so a packet behind a gap that leaves out a shard lifts its limit; and the floor is at least 100,
so it raises the limits below it.
-/

namespace Espx.Ingestion

open Espx.Foundation List

/-- A datagram as `ApplyPacket` reads it: refused, a barrier, or the limits of the first shards. -/
inductive ControlPacket
  | refused
  | barrier
  | limits (epochID : ℤ) (limits : List ℕ) (isSnapshot : Bool)

/-- A packet arrives, or the channel is checked, and its last packet is too old or not. -/
inductive ControlStep
  | applyPacket (packet : ControlPacket)
  | checkStale (overdue : Bool)

/-- `UDPControl`: the applied epoch, the limits of the snapshot, those from which the quota map was built,
and the state of the channel. -/
structure UDPControl where
  numWorkers : ℕ
  currentEpoch : ℤ
  limits : List ℕ
  quota : List ℕ
  stale : Bool
  built : limits = [] ∨ quota = limits

/-- `udpLimitsTightening`. -/
def udpLimitsTightening (prev next : List ℕ) : Bool := (prev.zip next).all fun (p, n) => n ≤ p

/-- The body of the loop of `udpApplyCanaryFloor`. -/
def canaryFloor (limit : ℕ) : ℕ :=
  let pct := limit * 5 % 2 ^ 64 / 100
  if 0 < limit ∧ 100 < pct then pct else 100

/-- The share of each worker in the limit of a shard, as `buildIngressQuotaMap` computes it. -/
def perWorker (numWorkers limit : ℕ) : ℕ :=
  if limit / numWorkers = 0 ∧ 0 < limit then 1 else limit / numWorkers

/-- What a share lets pass: zero is no limit. -/
def shareLimit (share : ℕ) : ℕ∞ := if share = 0 then ⊤ else share

namespace UDPControl

variable (c : UDPControl)

/-- `tryAcquire` for a worker whose cell has let `ops` requests pass. -/
def tryAcquire (shard ops : ℕ) : Bool :=
  match c.quota[shard]? with
  | none => true
  | some limit =>
    perWorker c.numWorkers limit = 0 ∨ ops + 1 ≤ perWorker c.numWorkers limit

/-- The limit in force: how many requests of a shard the cell of a worker lets pass. -/
def limitInForce (shard : ℕ) : ℕ∞ :=
  shareLimit (perWorker c.numWorkers (c.quota.getD shard 0))

/-- The packet is for the next epoch, the first one, or a snapshot. -/
def authorised (epochID : ℤ) (isSnapshot : Bool) : Bool :=
  epochID = c.currentEpoch + 1 ∨ c.currentEpoch = 0 ∨ isSnapshot

/-- `commitSnapshot`, which keeps the quota map where there is no shard. -/
def commitSnapshot (limits : List ℕ) : UDPControl :=
  { c with
    limits := limits
    quota := if limits = [] then c.quota else limits
    built := (em (limits = [])).imp_right fun h => if_neg h }

/-- `applyLimits`. -/
def applyLimits (epochID : ℤ) (limits : List ℕ) (isSnapshot : Bool) : UDPControl :=
  let committed := { c.commitSnapshot limits with currentEpoch := epochID, stale := false }
  if epochID ≤ c.currentEpoch then c
  else if epochID = c.currentEpoch + 1 ∨ c.currentEpoch = 0 then committed
  else if udpLimitsTightening c.limits limits then committed
  else if isSnapshot then committed
  else c

/-- `ApplyPacket` and `checkStale`. -/
def step : ControlStep → UDPControl
  | .applyPacket .refused => c
  | .applyPacket .barrier => { c with stale := false }
  | .applyPacket (.limits epochID limits isSnapshot) => c.applyLimits epochID limits isSnapshot
  | .checkStale overdue =>
    if overdue ∧ ¬ c.stale then { c.commitSnapshot (c.limits.map canaryFloor) with stale := true } else c

/-- The step is the application of a packet with authority. -/
def Authorised : ControlStep → Prop
  | .applyPacket (.limits epochID _ isSnapshot) => c.authorised epochID isSnapshot = true
  | _ => False

/-- The epoch does not go back, and no limit rises without authority. -/
def NeverLoosens (a : ControlStep) : Prop :=
  c.currentEpoch ≤ (c.step a).currentEpoch ∧
    ∀ shard, c.limitInForce shard < (c.step a).limitInForce shard → c.Authorised a

/-- The condition on a step: a tighter packet behind a gap that names a shard keeps a limit for every
shard that has one, and no larger one where the snapshot has no shard to compare it with; and a channel
goes silent only while every limit is zero or has shares no smaller than those of 100. -/
def keepsLimits : ControlStep → Bool
  | .applyPacket (.limits epochID limits isSnapshot) =>
    epochID ≤ c.currentEpoch ∨ c.authorised epochID isSnapshot ∨ limits = [] ∨
      (udpLimitsTightening c.limits limits → ∀ shard < c.quota.length, c.quota.getD shard 0 = 0 ∨
        0 < limits.getD shard 0 ∧ (c.limits = [] → perWorker c.numWorkers (limits.getD shard 0) ≤
          perWorker c.numWorkers (c.quota.getD shard 0)))
  | .checkStale overdue => overdue ∧ ¬ c.stale → ∀ limit ∈ c.limits,
      limit = 0 ∨ perWorker c.numWorkers 100 ≤ perWorker c.numWorkers limit
  | _ => true

variable {c} {n a b : ℕ}

/-- A share is zero only of the limit zero. -/
theorem perWorker_eq_zero : perWorker n a = 0 ↔ a = 0 := by
  unfold perWorker
  split
  · omega
  · rename_i h
    rw [not_and, not_lt] at h
    exact ⟨fun hzero => Nat.le_zero.mp (h hzero), fun hzero => by rw [hzero, Nat.zero_div]⟩

theorem perWorker_mono (h : a ≤ b) : perWorker n a ≤ perWorker n b := by
  have hdiv : a / n ≤ b / n := Nat.div_le_div_right h
  unfold perWorker
  split <;> split <;> omega

/-- What a share lets pass does not rise where there was no limit, or where there is one that is not
larger. -/
theorem shareLimit_le_iff : shareLimit (perWorker n a) ≤ shareLimit (perWorker n b) ↔
    b = 0 ∨ 0 < a ∧ perWorker n a ≤ perWorker n b := by
  unfold shareLimit
  by_cases hold : b = 0
  · rw [hold, if_pos (perWorker_eq_zero.mpr rfl)]
    exact iff_of_true le_top (.inl rfl)
  rw [if_neg (mt perWorker_eq_zero.mp hold), or_iff_right hold]
  by_cases hnew : a = 0
  · rw [hnew, if_pos (perWorker_eq_zero.mpr rfl), top_le_iff]
    exact iff_of_false (ENat.natCast_ne_top _) fun h => absurd h.1 (Nat.lt_irrefl 0)
  · rw [if_neg (mt perWorker_eq_zero.mp hnew), Nat.cast_le, and_iff_right (Nat.pos_of_ne_zero hnew)]

/-- `tryAcquire` lets a request pass while the limit in force is not reached. -/
theorem tryAcquire_iff (shard ops : ℕ) :
    c.tryAcquire shard ops = true ↔ (ops : ℕ∞) < c.limitInForce shard := by
  unfold tryAcquire limitInForce shareLimit
  cases hshard : c.quota[shard]? with
  | none => simp [getD_eq_getElem?_getD, hshard, perWorker]
  | some limit =>
    simp only [getD_eq_getElem?_getD, hshard, Option.getD_some]
    split
    · rename_i hfree
      simp [hfree]
    · rename_i hlimit
      simp [hlimit]

/-- The limits in force after a commit do not rise. -/
theorem commitSnapshot_le_iff (limits : List ℕ) :
    (∀ shard, (c.commitSnapshot limits).limitInForce shard ≤ c.limitInForce shard) ↔
      limits = [] ∨ ∀ shard, c.quota.getD shard 0 = 0 ∨ 0 < limits.getD shard 0 ∧
        perWorker c.numWorkers (limits.getD shard 0) ≤ perWorker c.numWorkers (c.quota.getD shard 0) := by
  by_cases hnone : limits = []
  · simp [hnone, limitInForce, commitSnapshot]
  · rw [or_iff_right hnone]
    simp only [limitInForce, commitSnapshot, if_neg hnone, shareLimit_le_iff]

/-- Tighter limits are at most those that they replace, where there is one. -/
theorem getD_le_of_tightening {prev next : List ℕ} {shard : ℕ} (h : udpLimitsTightening prev next = true)
    (hprev : shard < prev.length) : next.getD shard 0 ≤ prev.getD shard 0 := by
  by_cases hnext : shard < next.length
  · have hpair : shard < (prev.zip next).length := by
      rw [length_zip]
      exact lt_min hprev hnext
    have hall := all_eq_true.mp h _ (getElem_mem hpair)
    rw [getElem_zip, decide_eq_true_eq] at hall
    rwa [getD_eq_getElem _ _ hnext, getD_eq_getElem _ _ hprev]
  · rw [getD_eq_default _ _ (Nat.not_lt.mp hnext)]
    exact Nat.zero_le _

/-- The floor has larger shares only than a limit whose shares are smaller than those of 100. -/
theorem perWorker_canaryFloor_le_iff :
    perWorker n (canaryFloor a) ≤ perWorker n a ↔ perWorker n 100 ≤ perWorker n a := by
  have hmod := Nat.mod_le (a * 5) (2 ^ 64)
  unfold canaryFloor
  dsimp only
  split
  · exact iff_of_true (perWorker_mono (by omega)) (perWorker_mono (by omega))
  · rfl

/-- Without authority no limit may rise. -/
theorem neverLoosens_iff_of_not {a : ControlStep} (hepoch : c.currentEpoch ≤ (c.step a).currentEpoch)
    (ha : ¬ c.Authorised a) :
    c.NeverLoosens a ↔ ∀ shard, (c.step a).limitInForce shard ≤ c.limitInForce shard := by
  simp [NeverLoosens, hepoch, ha]

/-- A tighter packet behind a gap raises no limit exactly under the condition. -/
theorem tightening_iff {epochID : ℤ} {limits : List ℕ} {isSnapshot : Bool}
    (hold : ¬ epochID ≤ c.currentEpoch) (hauth : ¬ c.authorised epochID isSnapshot = true)
    (htight : udpLimitsTightening c.limits limits = true) :
    (∀ shard, (c.commitSnapshot limits).limitInForce shard ≤ c.limitInForce shard) ↔
      c.keepsLimits (.applyPacket (.limits epochID limits isSnapshot)) = true := by
  rw [commitSnapshot_le_iff, keepsLimits, decide_eq_true_eq, or_iff_right hold, or_iff_right hauth,
    imp_iff_right htight]
  refine or_congr_right ⟨fun h shard _ => (h shard).imp_right fun hkept => ⟨hkept.1, fun _ => hkept.2⟩, ?_⟩
  intro h shard
  by_cases hshard : shard < c.quota.length
  · refine (h shard hshard).imp_right fun hkept => ⟨hkept.1, ?_⟩
    by_cases hnone : c.limits = []
    · exact hkept.2 hnone
    · have hquota := c.built.resolve_left hnone
      rw [hquota] at hshard ⊢
      exact perWorker_mono (getD_le_of_tightening htight hshard)
  · exact .inl (getD_eq_default _ _ (Nat.not_lt.mp hshard))

/-- The canary floor raises no limit exactly where every limit is zero or has shares no smaller than those
of 100. -/
theorem canaryFloor_iff :
    (∀ shard, (c.commitSnapshot (c.limits.map canaryFloor)).limitInForce shard ≤ c.limitInForce shard) ↔
      ∀ limit ∈ c.limits, limit = 0 ∨ perWorker c.numWorkers 100 ≤ perWorker c.numWorkers limit := by
  have hpos (limit : ℕ) : 0 < canaryFloor limit := by
    unfold canaryFloor
    dsimp only
    split <;> omega
  rw [commitSnapshot_le_iff, map_eq_nil_iff]
  by_cases hnone : c.limits = []
  · simp [hnone]
  rw [or_iff_right hnone, c.built.resolve_left hnone]
  constructor
  · intro h limit hlimit
    obtain ⟨shard, hshard, rfl⟩ := mem_iff_getElem.mp hlimit
    have hkept := h shard
    rw [getD_eq_getElem _ _ hshard, getD_eq_getElem _ _ (by rwa [length_map]), getElem_map,
      perWorker_canaryFloor_le_iff] at hkept
    exact hkept.imp_right And.right
  · intro h shard
    by_cases hshard : shard < c.limits.length
    · rw [getD_eq_getElem _ _ hshard, getD_eq_getElem _ _ (by rwa [length_map]), getElem_map,
        perWorker_canaryFloor_le_iff]
      exact (h _ (getElem_mem hshard)).imp_right fun hkept => ⟨hpos _, hkept⟩
    · exact .inl (getD_eq_default _ _ (Nat.not_lt.mp hshard))

/-- A step keeps the limits exactly under the condition. -/
theorem neverLoosens_iff (c : UDPControl) (a : ControlStep) :
    c.NeverLoosens a ↔ c.keepsLimits a = true := by
  cases a with
  | applyPacket packet =>
    cases packet with
    | refused | barrier => simp [NeverLoosens, keepsLimits, step, limitInForce]
    | limits epochID limits isSnapshot =>
      by_cases hold : epochID ≤ c.currentEpoch
      · simp [NeverLoosens, keepsLimits, step, applyLimits, hold]
      have hepoch : c.currentEpoch ≤ epochID := Int.le_of_lt (Int.not_le.mp hold)
      by_cases hauth : c.authorised epochID isSnapshot = true
      · refine iff_of_true ⟨?_, fun _ _ => hauth⟩ (by simp [keepsLimits, hauth])
        simp only [step, applyLimits]
        split_ifs <;> first | exact hepoch | exact Int.le_refl _
      obtain ⟨hnext, hsnap⟩ : ¬ (epochID = c.currentEpoch + 1 ∨ c.currentEpoch = 0) ∧
          isSnapshot = false := by
        simpa [authorised, and_assoc] using hauth
      by_cases htight : udpLimitsTightening c.limits limits = true
      · have hstep : c.step (.applyPacket (.limits epochID limits isSnapshot)) =
            { c.commitSnapshot limits with currentEpoch := epochID, stale := false } := by
          simp [step, applyLimits, hold, hnext, htight]
        rw [neverLoosens_iff_of_not (by rwa [hstep]) (by exact hauth), hstep]
        exact tightening_iff hold hauth htight
      · simp [NeverLoosens, keepsLimits, step, applyLimits, hold, hnext, hsnap, htight]
  | checkStale overdue =>
    by_cases hstale : overdue = true ∧ ¬ c.stale = true
    · have hstep : c.step (.checkStale overdue) =
          { c.commitSnapshot (c.limits.map canaryFloor) with stale := true } := if_pos hstale
      rw [neverLoosens_iff_of_not (by rw [hstep]; exact Int.le_refl _) id, hstep, keepsLimits,
        decide_eq_true_eq, imp_iff_right hstale]
      exact canaryFloor_iff
    · have hstep : c.step (.checkStale overdue) = c := if_neg hstale
      refine iff_of_true ?_ (decide_eq_true fun h => absurd h hstale)
      simp [NeverLoosens, hstep]

/-- Limits, as `tryAcquire` enforces them, rise with authority only, and the epoch never goes back,
exactly in the runs whose steps all meet the condition. -/
theorem limits_keep_iff (start : UDPControl) (steps : List ControlStep) :
    (Admissible NeverLoosens step start steps ↔ Admissible (keepsLimits · ·) step start steps) ∧
      ∀ c : UDPControl, ∀ shard ops, c.tryAcquire shard ops = true ↔ (ops : ℕ∞) < c.limitInForce shard := by
  have hsame : NeverLoosens = fun c a => c.keepsLimits a = true :=
    funext fun c => funext fun a => propext (neverLoosens_iff c a)
  refine ⟨?_, fun c => tryAcquire_iff⟩
  rw [hsame]

/-- A limit of 50 is raised when the channel goes silent, and a packet behind a gap that leaves out the
second shard lifts its limit. -/
theorem limits_raised :
    ¬ Admissible NeverLoosens step ⟨1, 0, [50], [50], false, .inr rfl⟩
        [.applyPacket (.limits 1 [50] false), .checkStale true] ∧
      ¬ Admissible NeverLoosens step ⟨1, 0, [500, 500], [500, 500], false, .inr rfl⟩
        [.applyPacket (.limits 1 [500, 500] false), .applyPacket (.limits 3 [500] false)] :=
  ⟨fun h => absurd ((neverLoosens_iff _ _).mp h.2.1) (by decide),
    fun h => absurd ((neverLoosens_iff _ _).mp h.2.1) (by decide)⟩

end UDPControl

end Espx.Ingestion
