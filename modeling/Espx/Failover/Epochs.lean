import Espx.Foundation.Run
import Mathlib.Order.Basic
import Mathlib.Data.List.Nodup
import Mathlib.Logic.Function.Basic

/-!
# Epochs of a Postgres failover

A coordinator counts the fencing epoch up, promotes the standby and writes the DSN, its epoch and the
fencing epoch with plain SETs. Subscribers read the DSN and its epoch; when one has changed, they switch
their pool, and then the fields that the next refresh compares with. Each call to Redis is one step;
whether it succeeds is an input.

Epochs only move forward where no epoch has been counted up between a coordinator's own and its SETs, and
where the refreshes of one subscriber do not overlap.
-/

namespace Espx.Failover

open Espx.Foundation Function

/-- A DSN; with it, not in Redis, the epoch of the failover that wrote it. -/
structure WrittenDSN (D : Type*) where
  dsn : D
  writtenAt : ℕ
deriving DecidableEq

/-- The epoch of the failover that a DSN comes from, zero if there is none. -/
def writtenAt {D : Type*} (dsn : Option (WrittenDSN D)) : ℕ := (dsn.map WrittenDSN.writtenAt).getD 0

/-- The keys in Redis; an epoch that is not there reads as zero. -/
structure FailoverKeys (D : Type*) where
  fencingEpoch : ℕ
  activeDSN : Option (WrittenDSN D)
  dsnEpoch : ℕ

/-- Where a coordinator is in `executeFailover`, with its epoch and the promoted DSN. -/
inductive FailoverPoint (D : Type*)
  | outside
  | promoting (epoch : ℕ)
  | settingDSN (epoch : ℕ) (dsn : D)
  | settingDSNEpoch (epoch : ℕ) (dsn : D)
  | settingFencingEpoch (epoch : ℕ) (dsn : D)
  | publishing (epoch : ℕ) (dsn : D)

/-- The epoch that a coordinator works with, zero outside of a failover. -/
def FailoverPoint.epoch {D : Type*} : FailoverPoint D → ℕ
  | .outside => 0
  | .promoting epoch | .settingDSN epoch _ | .settingDSNEpoch epoch _ | .settingFencingEpoch epoch _
  | .publishing epoch _ => epoch

/-- The point after the next SET. -/
def FailoverPoint.next {D : Type*} : FailoverPoint D → FailoverPoint D
  | .settingDSN epoch dsn => .settingDSNEpoch epoch dsn
  | .settingDSNEpoch epoch dsn => .settingFencingEpoch epoch dsn
  | .settingFencingEpoch epoch dsn => .publishing epoch dsn
  | point => point

/-- The next SET. -/
def FailoverKeys.set {D : Type*} (keys : FailoverKeys D) : FailoverPoint D → FailoverKeys D
  | .settingDSN epoch dsn => { keys with activeDSN := some ⟨dsn, epoch⟩ }
  | .settingDSNEpoch epoch _ => { keys with dsnEpoch := epoch }
  | .settingFencingEpoch epoch _ => { keys with fencingEpoch := epoch }
  | _ => keys

/-- A coordinator: its flag `failover`, which a completed failover leaves set. -/
structure FailoverNode (D : Type*) where
  failover : Bool
  point : FailoverPoint D

/-- Where a poll or notify loop is in `refresh`, with what it has read. -/
inductive RefreshPoint (D : Type*)
  | outside
  | readingEpoch (dsn : WrittenDSN D)
  | comparing (dsn : WrittenDSN D) (epoch : ℕ)
  | connecting (dsn : WrittenDSN D) (epoch : ℕ)
  | switched (dsn : WrittenDSN D) (epoch : ℕ)

/-- A subscriber: the DSN of the pool that it has switched to, and the fields `currentDSN` and
`currentEpoch`; `none` before the first connection. -/
structure SubscriberState (D : Type*) where
  pool : Option (WrittenDSN D)
  current : Option (WrittenDSN D)
  currentEpoch : ℕ

/-- The pool and the DSN are of failovers up to one epoch, and the epoch is at most another. -/
def SubscriberState.UpTo {D : Type*} (s : SubscriberState D) (written epoch : ℕ) : Prop :=
  writtenAt s.pool ≤ written ∧ writtenAt s.current ≤ written ∧ s.currentEpoch ≤ epoch

/-- Bounds may be raised. -/
theorem SubscriberState.UpTo.mono {D : Type*} {s : SubscriberState D} {w w' e e' : ℕ} (h : s.UpTo w e)
    (hw : w ≤ w') (he : e ≤ e') : s.UpTo w' e' :=
  ⟨h.1.trans hw, h.2.1.trans hw, h.2.2.trans he⟩

/-- The state is of no newer failover than another one. -/
def SubscriberState.NotNewer {D : Type*} (s s' : SubscriberState D) : Prop :=
  writtenAt s.pool ≤ writtenAt s'.pool ∧ writtenAt s.current ≤ writtenAt s'.current ∧
    s.currentEpoch ≤ s'.currentEpoch

/-- What a loop has read is no older than what its subscriber has, and no newer than the keys. -/
def RefreshPoint.Between {D : Type*} (s : SubscriberState D) (keys : FailoverKeys D) :
    RefreshPoint D → Prop
  | .outside => True
  | .readingEpoch dsn => dsn.writtenAt ≤ writtenAt keys.activeDSN ∧ s.UpTo dsn.writtenAt keys.dsnEpoch
  | .comparing dsn epoch | .connecting dsn epoch | .switched dsn epoch =>
    dsn.writtenAt ≤ writtenAt keys.activeDSN ∧ epoch ≤ keys.dsnEpoch ∧ s.UpTo dsn.writtenAt epoch

/-- Redis, the coordinators, the loops and the subscribers; and all epochs `BumpEpoch` has returned. -/
structure FailoverSystem (ι τ σ D : Type*) where
  keys : FailoverKeys D
  node : ι → FailoverNode D
  loop : τ → RefreshPoint D
  subscriber : σ → SubscriberState D
  returned : List ℕ

/-- One step of a coordinator or of a loop. -/
inductive FailoverAction (ι τ D : Type*)
  | bump (i : ι) (executed replied : Bool)
  | promote (i : ι) (promoted : Option D)
  | set (i : ι) (executed : Bool)
  | publish (i : ι) (ok : Bool)
  | refresh (t : τ) (ok : Bool)

namespace FailoverSystem

variable {ι τ σ D : Type*}

section

variable [DecidableEq ι] [DecidableEq τ] [DecidableEq σ] [DecidableEq D]

/-- Nobody is in a failover or a refresh, and no subscriber is connected. -/
def start (epoch : ℕ) (dsn : Option D) : FailoverSystem ι τ σ D where
  keys := ⟨epoch, dsn.map fun d => ⟨d, epoch⟩, epoch⟩
  node _ := ⟨false, .outside⟩
  loop _ := .outside
  subscriber _ := ⟨none, none, 0⟩
  returned := []

/-- A coordinator moves on. -/
def goto (c : FailoverSystem ι τ σ D) (i : ι) (failover : Bool) (point : FailoverPoint D) :
    FailoverSystem ι τ σ D :=
  { c with node := update c.node i ⟨failover, point⟩ }

/-- A loop moves on, and leaves its subscriber in a state. -/
def goLoop (owner : τ → σ) (c : FailoverSystem ι τ σ D) (t : τ) (point : RefreshPoint D)
    (s : SubscriberState D) : FailoverSystem ι τ σ D :=
  { c with loop := update c.loop t point, subscriber := update c.subscriber (owner t) s }

/-- The keys are written. -/
def setKeys (c : FailoverSystem ι τ σ D) (keys : FailoverKeys D) : FailoverSystem ι τ σ D :=
  { c with keys := keys }

/-- `BumpEpoch`, once the flag `failover` has been swapped from false to true; its reply can be lost. -/
def bump (c : FailoverSystem ι τ σ D) (i : ι) (executed replied : Bool) : FailoverSystem ι τ σ D :=
  let epoch := c.keys.fencingEpoch + 1
  let counted := c.setKeys { c.keys with fencingEpoch := epoch }
  match c.node i with
  | ⟨false, .outside⟩ =>
    if ¬ executed then c
    else if replied then { counted with returned := c.returned ++ [epoch] }.goto i true (.promoting epoch)
    else counted
  | _ => c

/-- `Promote`, or the DSN of the standby; `none` if it fails or neither gives a DSN. -/
def promote (c : FailoverSystem ι τ σ D) (i : ι) (promoted : Option D) : FailoverSystem ι τ σ D :=
  match (c.node i).point, promoted with
  | .promoting _, none => c.goto i false .outside
  | .promoting epoch, some dsn => c.goto i true (.settingDSN epoch dsn)
  | _, _ => c

/-- The next SET of `PublishDSN`; the commands of a pipeline do not wait for each other. -/
def set (c : FailoverSystem ι τ σ D) (i : ι) (executed : Bool) : FailoverSystem ι τ σ D :=
  (c.setKeys (if executed then c.keys.set (c.node i).point else c.keys)).goto i (c.node i).failover
    (c.node i).point.next

/-- The end of `executeFailover`: the flag is taken back if a SET or the PUBLISH has failed. -/
def publish (c : FailoverSystem ι τ σ D) (i : ι) (ok : Bool) : FailoverSystem ι τ σ D :=
  match (c.node i).point with
  | .publishing _ _ => c.goto i ok .outside
  | _ => c

/-- The next part of `refresh` and `applyDSN`: read the DSN, read its epoch, compare them with the fields
of the subscriber, connect and switch the pool, set the fields. -/
def refresh (owner : τ → σ) (c : FailoverSystem ι τ σ D) (t : τ) (ok : Bool) : FailoverSystem ι τ σ D :=
  let s := c.subscriber (owner t)
  match c.loop t with
  | .outside =>
    match c.keys.activeDSN with
    | some dsn => if ok then c.goLoop owner t (.readingEpoch dsn) s else c
    | none => c
  | .readingEpoch dsn => c.goLoop owner t (if ok then .comparing dsn c.keys.dsnEpoch else .outside) s
  | .comparing dsn epoch =>
    c.goLoop owner t (if s.current.map WrittenDSN.dsn = some dsn.dsn ∧ s.currentEpoch = epoch then .outside
      else .connecting dsn epoch) s
  | .connecting dsn epoch =>
    if ok then c.goLoop owner t (.switched dsn epoch) { s with pool := some dsn }
    else c.goLoop owner t .outside s
  | .switched dsn epoch => c.goLoop owner t .outside ⟨s.pool, some dsn, epoch⟩

/-- One step. -/
def step (owner : τ → σ) (c : FailoverSystem ι τ σ D) : FailoverAction ι τ D → FailoverSystem ι τ σ D
  | .bump i executed replied => c.bump i executed replied
  | .promote i promoted => c.promote i promoted
  | .set i executed => c.set i executed
  | .publish i ok => c.publish i ok
  | .refresh t ok => c.refresh owner t ok

/-- No epoch has been counted up after that of a coordinator whose SET is executed, and a refresh begins
only when no loop of its subscriber is inside one. -/
def Ordered (owner : τ → σ) (c : FailoverSystem ι τ σ D) : FailoverAction ι τ D → Prop
  | .set i executed => executed = true → match (c.node i).point with
    | .settingDSN epoch _ | .settingDSNEpoch epoch _ | .settingFencingEpoch epoch _ =>
      c.keys.fencingEpoch ≤ epoch
    | _ => True
  | .refresh t _ => c.loop t = .outside → ∀ u, owner u = owner t → c.loop u = .outside
  | _ => True

/-- A step lowers neither the epoch next to the DSN, nor that of any subscriber, of its pool or of its
DSN. -/
def Forward (owner : τ → σ) (c : FailoverSystem ι τ σ D) (action : FailoverAction ι τ D) : Prop :=
  c.keys.dsnEpoch ≤ (c.step owner action).keys.dsnEpoch ∧
  ∀ s, (c.subscriber s).NotNewer ((c.step owner action).subscriber s)

end

/-- No epoch is above the counter, and none has been returned twice; what the one loop of a subscriber
inside a refresh has read lies between the subscriber and the keys. -/
structure Inv (owner : τ → σ) (c : FailoverSystem ι τ σ D) : Prop where
  nodup : c.returned.Nodup
  returned_le : ∀ epoch ∈ c.returned, epoch ≤ c.keys.fencingEpoch
  point_le : ∀ i, (c.node i).point.epoch ≤ c.keys.fencingEpoch
  dsnEpoch_le : c.keys.dsnEpoch ≤ c.keys.fencingEpoch
  written_le : writtenAt c.keys.activeDSN ≤ c.keys.fencingEpoch
  alone : ∀ t u, owner u = owner t → u ≠ t → c.loop t ≠ .outside → c.loop u = .outside
  upTo : ∀ s, (c.subscriber s).UpTo (writtenAt c.keys.activeDSN) c.keys.dsnEpoch
  between : ∀ t, (c.loop t).Between (c.subscriber (owner t)) c.keys

section

variable {owner : τ → σ} {c : FailoverSystem ι τ σ D} {action : FailoverAction ι τ D}

/-- Keys may be written that are newer in every respect. -/
theorem Inv.setKeys (h : c.Inv owner) (keys : FailoverKeys D)
    (hfence : c.keys.fencingEpoch ≤ keys.fencingEpoch)
    (hwritten : writtenAt c.keys.activeDSN ≤ writtenAt keys.activeDSN)
    (hepoch : c.keys.dsnEpoch ≤ keys.dsnEpoch) (hdsn : writtenAt keys.activeDSN ≤ keys.fencingEpoch)
    (hlast : keys.dsnEpoch ≤ keys.fencingEpoch) : (c.setKeys keys).Inv owner where
  nodup := h.nodup
  returned_le e he := (h.returned_le e he).trans hfence
  point_le i := (h.point_le i).trans hfence
  dsnEpoch_le := hlast
  written_le := hdsn
  alone := h.alone
  upTo s := (h.upTo s).mono hwritten hepoch
  between t := by
    have hread := h.between t
    change (c.loop t).Between (c.subscriber (owner t)) keys
    cases hat : c.loop t with
    | outside => trivial
    | readingEpoch dsn =>
      rw [hat] at hread
      exact ⟨hread.1.trans hwritten, hread.2.mono (Nat.le_refl _) hepoch⟩
    | comparing dsn epoch | connecting dsn epoch | switched dsn epoch =>
      rw [hat] at hread
      exact ⟨hread.1.trans hwritten, hread.2.1.trans hepoch, hread.2.2⟩

section

variable [DecidableEq ι]

/-- A coordinator may move to a point with an epoch that has been counted. -/
theorem Inv.goto (h : c.Inv owner) (i : ι) (failover : Bool) (point : FailoverPoint D)
    (hpoint : point.epoch ≤ c.keys.fencingEpoch) : (c.goto i failover point).Inv owner := by
  refine { h with point_le := ?_ }
  apply (forall_update_iff c.node fun _ n => n.point.epoch ≤ c.keys.fencingEpoch).mpr
  exact ⟨hpoint, fun j _ => h.point_le j⟩

/-- The counter gives an epoch that it has not given before. -/
theorem Inv.bump (h : c.Inv owner) (i : ι) (executed replied : Bool) :
    (c.bump i executed replied).Inv owner := by
  have hcount := h.setKeys { c.keys with fencingEpoch := c.keys.fencingEpoch + 1 } (Nat.le_succ _)
    (Nat.le_refl _) (Nat.le_refl _) (Nat.le_succ_of_le h.written_le) (Nat.le_succ_of_le h.dsnEpoch_le)
  unfold FailoverSystem.bump
  split
  · split
    · exact h
    split
    · refine Inv.goto (c := { c.setKeys _ with returned := c.returned ++ [c.keys.fencingEpoch + 1] })
        { hcount with nodup := ?_, returned_le := ?_ } i true _ (Nat.le_refl _)
      · refine List.nodup_append.mpr ⟨h.nodup, List.nodup_singleton _, ?_⟩
        intro epoch hold new hnew heq
        have hle := h.returned_le epoch hold
        rw [heq, List.mem_singleton.mp hnew] at hle
        exact Nat.not_succ_le_self _ hle
      · intro epoch hepoch
        rcases List.mem_append.mp hepoch with hold | hnew
        · exact Nat.le_succ_of_le (h.returned_le epoch hold)
        · exact (List.mem_singleton.mp hnew).le
    · exact hcount
  · exact h

/-- A SET that is in order only writes newer keys. -/
theorem Inv.set [DecidableEq τ] [DecidableEq σ] [DecidableEq D] (h : c.Inv owner) {i : ι}
    {executed : Bool} (hord : c.Ordered owner (.set i executed)) :
    (c.set i executed).Inv owner ∧ c.keys.dsnEpoch ≤ (c.set i executed).keys.dsnEpoch := by
  have hpoint := h.point_le i
  have hnext : (c.node i).point.next.epoch = (c.node i).point.epoch := by
    cases (c.node i).point <;> rfl
  have hsame := (h.goto i (c.node i).failover (c.node i).point.next (hnext.trans_le hpoint))
  cases executed with
  | false => exact ⟨hsame, Nat.le_refl _⟩
  | true =>
    have hle := hord rfl
    unfold FailoverSystem.set
    cases hat : (c.node i).point with
    | settingDSN epoch dsn =>
      rw [hat] at hpoint hle
      have hkeys := h.setKeys { c.keys with activeDSN := some ⟨dsn, epoch⟩ } (Nat.le_refl _)
        (h.written_le.trans hle) (Nat.le_refl _) hpoint h.dsnEpoch_le
      exact ⟨hkeys.goto i _ _ hpoint, Nat.le_refl _⟩
    | settingDSNEpoch epoch dsn =>
      rw [hat] at hpoint hle
      have hkeys := h.setKeys { c.keys with dsnEpoch := epoch } (Nat.le_refl _) (Nat.le_refl _)
        (h.dsnEpoch_le.trans hle) h.written_le hpoint
      exact ⟨hkeys.goto i _ _ hpoint, h.dsnEpoch_le.trans hle⟩
    | settingFencingEpoch epoch dsn =>
      rw [hat] at hpoint hle
      have hkeys := h.setKeys { c.keys with fencingEpoch := epoch } hle (Nat.le_refl _) (Nat.le_refl _)
        (h.written_le.trans hle) (h.dsnEpoch_le.trans hle)
      exact ⟨hkeys.goto i _ _ (Nat.le_refl _), Nat.le_refl _⟩
    | outside | promoting epoch | publishing epoch dsn =>
      rw [hat] at hsame
      exact ⟨hsame, Nat.le_refl _⟩

end

section

variable [DecidableEq τ] [DecidableEq σ] {t : τ} {point : RefreshPoint D} {s : SubscriberState D}

/-- A loop that is alone may move on, and leave its subscriber in a state up to what the keys have. -/
theorem Inv.goLoop (h : c.Inv owner) (halone : ∀ u, owner u = owner t → u ≠ t → c.loop u = .outside)
    (hs : s.UpTo (writtenAt c.keys.activeDSN) c.keys.dsnEpoch) (hpoint : point.Between s c.keys) :
    (c.goLoop owner t point s).Inv owner := by
  refine { h with alone := ?_, upTo := ?_, between := ?_ }
  · intro u v howner hne hinside
    by_cases hu : u = t
    · rw [hu] at howner hne
      simp only [FailoverSystem.goLoop, update_of_ne hne]
      exact halone v howner hne
    · simp only [FailoverSystem.goLoop, update_of_ne hu] at hinside
      by_cases hv : v = t
      · rw [hv] at howner
        exact absurd (halone u howner.symm hu) hinside
      · simp only [FailoverSystem.goLoop, update_of_ne hv]
        exact h.alone u v howner hne hinside
  · apply (forall_update_iff c.subscriber fun _ s =>
      s.UpTo (writtenAt c.keys.activeDSN) c.keys.dsnEpoch).mpr
    exact ⟨hs, fun other _ => h.upTo other⟩
  · intro u
    change (update c.loop t point u).Between (update c.subscriber (owner t) s (owner u)) c.keys
    by_cases hu : u = t
    · rw [hu, update_self, update_self]
      exact hpoint
    · rw [update_of_ne hu]
      by_cases howner : owner u = owner t
      · rw [halone u howner hu]
        trivial
      · rw [update_of_ne howner]
        exact h.between u

/-- A subscriber that goes on is of no newer failover than before. -/
theorem notNewer_goLoop (hs : (c.subscriber (owner t)).NotNewer s) (other : σ) :
    (c.subscriber other).NotNewer ((c.goLoop owner t point s).subscriber other) := by
  change (c.subscriber other).NotNewer (update c.subscriber (owner t) s other)
  by_cases howner : other = owner t
  · rw [howner, update_self]
    exact hs
  · rw [update_of_ne howner]
    exact ⟨Nat.le_refl _, Nat.le_refl _, Nat.le_refl _⟩

/-- A refresh moves its subscriber forward, where it does not overlap with another one. -/
theorem Inv.refresh [DecidableEq ι] [DecidableEq D] (h : c.Inv owner) {ok : Bool}
    (hord : c.Ordered owner (.refresh t ok)) : (c.refresh owner t ok).Inv owner ∧
      ∀ other, (c.subscriber other).NotNewer ((c.refresh owner t ok).subscriber other) := by
  have hread := h.between t
  have hup := h.upTo (owner t)
  have hrefl (s : SubscriberState D) : s.NotNewer s := ⟨Nat.le_refl _, Nat.le_refl _, Nat.le_refl _⟩
  have halone : ∀ u, owner u = owner t → u ≠ t → c.loop u = .outside := by
    intro u howner hne
    by_cases hout : c.loop t = .outside
    · exact hord hout u howner
    · exact h.alone t u howner hne hout
  have hkeep (point : RefreshPoint D) (hpoint : point.Between (c.subscriber (owner t)) c.keys) :
      (c.goLoop owner t point (c.subscriber (owner t))).Inv owner ∧ ∀ other, (c.subscriber other).NotNewer
        ((c.goLoop owner t point (c.subscriber (owner t))).subscriber other) :=
    ⟨h.goLoop halone hup hpoint, notNewer_goLoop (hrefl _)⟩
  unfold FailoverSystem.refresh
  dsimp only
  cases hat : c.loop t with
  | outside =>
    dsimp only
    split
    · rename_i dsn hdsn
      split
      · rw [hdsn] at hup
        exact hkeep _ ⟨by rw [hdsn]; exact Nat.le_refl _, hup⟩
      · exact ⟨h, fun other => hrefl _⟩
    · exact ⟨h, fun other => hrefl _⟩
  | readingEpoch dsn =>
    rw [hat] at hread
    dsimp only
    split
    · exact hkeep _ ⟨hread.1, Nat.le_refl _, hread.2⟩
    · exact hkeep _ trivial
  | comparing dsn epoch =>
    rw [hat] at hread
    dsimp only
    split
    · exact hkeep _ trivial
    · exact hkeep _ hread
  | connecting dsn epoch =>
    rw [hat] at hread
    obtain ⟨hdsn, hepoch, hpool, hcur, hcurEpoch⟩ := hread
    dsimp only
    split
    · exact ⟨h.goLoop halone ⟨hdsn, hup.2⟩ ⟨hdsn, hepoch, Nat.le_refl _, hcur, hcurEpoch⟩,
        notNewer_goLoop ⟨hpool, Nat.le_refl _, Nat.le_refl _⟩⟩
    · exact hkeep _ trivial
  | switched dsn epoch =>
    rw [hat] at hread
    obtain ⟨hdsn, hepoch, hpool, hcur, hcurEpoch⟩ := hread
    exact ⟨h.goLoop halone ⟨hup.1, hdsn, hepoch⟩ trivial,
      notNewer_goLoop ⟨Nat.le_refl _, hcur, hcurEpoch⟩⟩

end

variable [DecidableEq ι] [DecidableEq τ] [DecidableEq σ] [DecidableEq D]

/-- A step that is in order keeps the invariant and moves no epoch back. -/
theorem Inv.step (h : c.Inv owner) (hord : c.Ordered owner action) :
    (c.step owner action).Inv owner ∧ c.Forward owner action := by
  have hrefl (s : SubscriberState D) : s.NotNewer s := ⟨Nat.le_refl _, Nat.le_refl _, Nat.le_refl _⟩
  cases action with
  | bump i executed replied =>
    refine ⟨h.bump i executed replied, ?_⟩
    simp only [Forward, FailoverSystem.step, FailoverSystem.bump]
    repeat' split
    all_goals exact ⟨Nat.le_refl _, fun s => hrefl _⟩
  | promote i promoted =>
    have hpoint := h.point_le i
    simp only [Forward, FailoverSystem.step, promote]
    split
    next => exact ⟨h.goto i false .outside (Nat.zero_le _), Nat.le_refl _, fun s => hrefl _⟩
    next epoch dsn hat =>
      rw [hat] at hpoint
      exact ⟨h.goto i true (.settingDSN epoch dsn) hpoint, Nat.le_refl _, fun s => hrefl _⟩
    next => exact ⟨h, Nat.le_refl _, fun s => hrefl _⟩
  | set i executed => exact ⟨(h.set hord).1, (h.set hord).2, fun s => hrefl _⟩
  | publish i ok =>
    simp only [Forward, FailoverSystem.step, publish]
    split
    next => exact ⟨h.goto i ok .outside (Nat.zero_le _), Nat.le_refl _, fun s => hrefl _⟩
    next => exact ⟨h, Nat.le_refl _, fun s => hrefl _⟩
  | refresh t ok =>
    have hkeys : (c.refresh owner t ok).keys = c.keys := by
      unfold FailoverSystem.refresh
      repeat' split
      all_goals rfl
    exact ⟨(h.refresh hord).1, hkeys ▸ Nat.le_refl _, (h.refresh hord).2⟩

end

variable [DecidableEq ι] [DecidableEq τ] [DecidableEq σ] [DecidableEq D]

/-- Where every step is in order, no epoch is returned twice, the epoch next to the DSN never decreases
and no subscriber goes back to an older failover. -/
theorem failover_epochs_forward (owner : τ → σ) (epoch : ℕ) (dsn : Option D)
    {actions : List (FailoverAction ι τ D)}
    (hrun : Admissible (Ordered owner) (step owner) (start epoch dsn) actions) :
    (run (step owner) (start epoch dsn) actions).returned.Nodup ∧
      Admissible (Forward owner) (step owner) (start epoch dsn) actions := by
  have hstart : (start epoch dsn : FailoverSystem ι τ σ D).Inv owner := by
    refine ⟨List.nodup_nil, fun _ h => absurd h List.not_mem_nil, fun _ => Nat.zero_le _, Nat.le_refl _, ?_,
      fun _ _ _ _ _ => rfl, fun _ => ⟨Nat.zero_le _, Nat.zero_le _, Nat.zero_le _⟩, fun _ => trivial⟩
    cases dsn with
    | none => exact Nat.zero_le _
    | some d => exact Nat.le_refl _
  have hstep : ∀ (c : FailoverSystem ι τ σ D) action, c.Ordered owner action → c.Inv owner →
      (c.step owner action).Inv owner := fun _ _ hord h => (h.step hord).1
  exact ⟨(hrun.invariant hstep hstart).nodup, hrun.law hstep (fun _ _ hord h => (h.step hord).2) hstart⟩

/-- A failover of one coordinator: the promotion, three SETs and the PUBLISH. -/
def failoverOf (i : ι) (dsn : D) : List (FailoverAction ι τ D) :=
  [.promote i (some dsn), .set i true, .set i true, .set i true, .publish i true]

/-- A refresh that gets through, or the first steps of one. -/
def refreshOf (t : τ) (steps : ℕ) : List (FailoverAction ι τ D) := .replicate steps (.refresh t true)

/-- One failover that a subscriber follows. -/
theorem failover_epochs_forward_once :
    let actions : List (FailoverAction Unit Unit String) :=
      .bump () true true :: failoverOf () "b" ++ refreshOf () 5
    let c : FailoverSystem Unit Unit Unit String := run (step id) (start 0 none) actions
    (c.returned.Nodup ∧ Admissible (Forward id) (step id)
      (start 0 none : FailoverSystem Unit Unit Unit String) actions) ∧ (c.subscriber ()).currentEpoch = 1 := by
  refine ⟨failover_epochs_forward id 0 none ?_, by decide⟩
  have hone (c : FailoverSystem Unit Unit Unit String) : c.Ordered id (.refresh () true) := fun h _ _ => h
  exact ⟨trivial, trivial, fun _ => Nat.le_refl 1, fun _ => Nat.le_refl 1, fun _ => Nat.le_refl 1, trivial,
    hone _, hone _, hone _, hone _, hone _, trivial⟩

/-- Two failovers overlap: the older one publishes last. The epoch next to the DSN falls from 2 to 1, the
subscriber goes back to the DSN of epoch 1, and the counter returns 2 once more. And after two failovers
in order, two loops of a subscriber overlap: the one that has read first connects last, to the older DSN. -/
theorem failover_epochs_backward :
    let newer : List (FailoverAction (Fin 3) (Fin 2) String) :=
      [.bump 0 true true, .bump 1 true true] ++ failoverOf 1 "new" ++ refreshOf 0 5
    let older := newer ++ failoverOf 0 "old" ++ refreshOf 0 5
    let overlap : List (FailoverAction (Fin 3) (Fin 2) String) :=
      .bump 0 true true :: failoverOf 0 "old" ++ refreshOf 0 3 ++ .bump 1 true true :: failoverOf 1 "new" ++
        refreshOf 1 5
    let ran (actions : List (FailoverAction (Fin 3) (Fin 2) String)) :
      FailoverSystem (Fin 3) (Fin 2) Unit String := run (step fun _ => ()) (start 0 none) actions
    ((ran newer).keys.dsnEpoch = 2 ∧ ((ran newer).subscriber ()).pool = some ⟨"new", 2⟩ ∧
      (ran older).keys.dsnEpoch = 1 ∧ ((ran older).subscriber ()).pool = some ⟨"old", 1⟩ ∧
      (ran (older ++ [.bump 2 true true])).returned = [1, 2, 2]) ∧
    ((ran overlap).subscriber ()).pool = some ⟨"new", 2⟩ ∧
      ((ran (overlap ++ refreshOf 0 1)).subscriber ()).pool = some ⟨"old", 1⟩ := by
  decide

end FailoverSystem

end Espx.Failover
