import Espx.Ingestion.CircuitBreaker

/-!
# When the stream consumer recovers from an open breaker

Only `Allow` takes the breaker out of the open state, and only `tryFlush` calls it. A worker at the top of
its loop does not get there while the breaker is open: `pauseStreamReads` sends it back. So the consumer
recovers exactly while some worker is past that point.
-/

namespace Espx.Ingestion

open Espx.Foundation ConsumerLoops CircuitBreaker CanReach

section

variable (cb : CircuitBreaker) (now : ℤ) (workerID : String)

theorem CircuitBreaker.state_recordSuccess :
    (cb.recordSuccess workerID).state =
      if cb.state = .halfOpen then .closed else cb.state := by
  unfold recordSuccess
  split <;> rfl

/-- A failure opens a half-open breaker, may open a closed one, and leaves an open one open. -/
theorem CircuitBreaker.state_recordFailure :
    (cb.recordFailure now workerID).state = .opened ∨
      (cb.recordFailure now workerID).state = .closed ∧ cb.state = .closed := by
  unfold recordFailure
  dsimp only
  split
  · exact .inl rfl
  rename_i hhalf
  split
  · exact .inl rfl
  revert hhalf
  cases cb.state with
  | closed => exact fun _ => .inr ⟨rfl, rfl⟩
  | opened => exact fun _ => .inl rfl
  | halfOpen => exact fun hhalf => absurd rfl hhalf

theorem CircuitBreaker.state_recordCancellation :
    (cb.recordCancellation now).state = if cb.state = .halfOpen then .opened else cb.state := by
  unfold recordCancellation
  split <;> rfl

/-- No report leaves the breaker half-open. -/
theorem CircuitBreaker.reports_ne_halfOpen :
    (cb.recordSuccess workerID).state ≠ .halfOpen ∧ (cb.recordFailure now workerID).state ≠ .halfOpen ∧
      (cb.recordCancellation now).state ≠ .halfOpen := by
  rw [state_recordSuccess, state_recordCancellation]
  refine ⟨?_, ?_, ?_⟩
  · split
    · exact CircuitState.noConfusion
    · assumption
  · rcases cb.state_recordFailure now workerID with h | ⟨h, -⟩ <;> rw [h] <;>
      exact CircuitState.noConfusion
  · split
    · exact CircuitState.noConfusion
    · assumption

/-- Every report leaves an open breaker open. -/
theorem CircuitBreaker.reports_opened (h : cb.state = .opened) :
    (cb.recordSuccess workerID).state = .opened ∧ (cb.recordFailure now workerID).state = .opened ∧
      (cb.recordCancellation now).state = .opened := by
  rw [state_recordSuccess, state_recordCancellation, h]
  refine ⟨rfl, ?_, rfl⟩
  rcases cb.state_recordFailure now workerID with hopen | ⟨-, hclose⟩
  · exact hopen
  · exact CircuitState.noConfusion (h.symm.trans hclose)

theorem CircuitBreaker.allow_opened (h : cb.state = .opened) :
    cb.allow now = if cb.openTimeout ≤ now - cb.lastOpenedAt then
      (true, { cb with state := .halfOpen }) else (false, cb) := by
  rw [allow, h]

end

section

variable {ι : Type*} {cfg : LoopConfig ι} {s : ConsumerLoops ι} {w : ι}

/-- The worker has passed `pauseStreamReads` in this round and has not flushed yet. -/
def WorkerPhase.pastGuard : WorkerPhase → Bool
  | .reading | .blocked | .received => true
  | _ => false

/-- The breaker is open and no worker is past the top of its loop. -/
structure StuckOpen (s : ConsumerLoops ι) : Prop where
  state : s.breaker.state = .opened
  guarded : ∀ w, (s.workers w).phase.pastGuard = false

theorem StuckOpen.setBreaker (h : StuckOpen s) {breaker : CircuitBreaker}
    (hbrk : breaker.state = .opened) : StuckOpen { s with breaker := breaker } :=
  ⟨hbrk, h.guarded⟩

theorem StuckOpen.reportFlush (h : StuckOpen s) (workerID : String) (stored : Bool) :
    StuckOpen (reportFlush s workerID stored) := by
  apply h.setBreaker
  cases stored with
  | true => exact (s.breaker.reports_opened s.now workerID h.state).1
  | false => exact (s.breaker.reports_opened s.now workerID h.state).2.1

variable [DecidableEq ι]

theorem StuckOpen.setWorker (h : StuckOpen s) {worker : Worker}
    (hwork : worker.phase.pastGuard = false) : StuckOpen (s.setWorker w worker) := by
  refine ⟨h.state, ?_⟩
  exact (Function.forall_update_iff s.workers fun _ worker => worker.phase.pastGuard = false).mpr
    ⟨hwork, fun w' _ => h.guarded w'⟩

/-- A worker that goes on by itself does not get past the top of its loop. -/
theorem StuckOpen.advanceWorker (h : StuckOpen s) (w : ι) : StuckOpen (advanceWorker cfg s w) := by
  have hguard := h.guarded w
  unfold Espx.Ingestion.advanceWorker
  dsimp only
  cases hphase : (s.workers w).phase with
  | recovering | settling | draining => exact h.setWorker rfl
  | top =>
    rw [if_neg (not_not.mpr h.state)]
    exact h.setWorker rfl
  | pausing =>
    dsimp only
    split
    · exact h.setWorker rfl
    · split
      · exact h.setWorker rfl
      · exact h
  | reading | received => rw [hphase] at hguard; exact absurd hguard.symm Bool.false_ne_true
  | blocked | flushing | stopped => exact h
  | waiting denied =>
    dsimp only
    split
    · exact h.setWorker rfl
    · exact h

/-- No step leaves it. -/
theorem StuckOpen.step (h : StuckOpen s) (action : LoopAction ι) : StuckOpen (loopStep cfg s action) := by
  cases action with
  | tick duration | cancel => exact ⟨h.state, h.guarded⟩
  | janitor stored => exact h.reportFlush "janitor" stored
  | recover w stored =>
    simp only [loopStep]
    split
    · have hrep := h.reportFlush (cfg.workerID w) stored
      cases stored with
      | true => exact hrep
      | false => exact hrep.advanceWorker w
    · exact h
  | advance w => exact h.advanceWorker w
  | read w answer =>
    have hblock : (s.workers w).phase ≠ .blocked := by
      intro hphase
      have hguard := h.guarded w
      rw [hphase] at hguard
      exact absurd hguard.symm Bool.false_ne_true
    simp only [loopStep, readAnswered, if_pos hblock]
    exact h
  | flushed w answer =>
    simp only [loopStep, flushAnswered]
    split
    · exact h
    have hreports := s.breaker.reports_opened s.now (cfg.workerID w) h.state
    cases answer with
    | stored => exact (h.setBreaker hreports.1).setWorker rfl
    | canceled => exact (h.setBreaker hreports.2.2).setWorker rfl
    | refused kept => exact (h.setBreaker hreports.2.1).setWorker rfl

end

section

variable {ι : Type*} {cfg : LoopConfig ι} {s : ConsumerLoops ι} {w : ι} {breaker : CircuitBreaker}

/-- A half-open breaker is being probed by a worker, and workers leave their loops only when the
context has ended. -/
structure Supervised (s : ConsumerLoops ι) : Prop where
  probed : s.breaker.state = .halfOpen → ∃ w, (s.workers w).phase = .flushing
  live : ∀ w, (s.workers w).phase = .draining ∨ (s.workers w).phase = .stopped → s.cancelled = true

theorem supervised_start (failThreshold : Int32) (openTimeout : ℤ) :
    Supervised (start failThreshold openTimeout : ConsumerLoops ι) where
  probed := CircuitState.noConfusion
  live := fun _ h => h.elim WorkerPhase.noConfusion WorkerPhase.noConfusion

theorem Supervised.setBreaker (h : Supervised s) (hbrk : breaker.state ≠ .halfOpen) :
    Supervised { s with breaker := breaker } :=
  ⟨fun hhalf => absurd hhalf hbrk, h.live⟩

theorem Supervised.reportFlush (h : Supervised s) (workerID : String) (stored : Bool) :
    Supervised (reportFlush s workerID stored) := by
  apply h.setBreaker
  cases stored with
  | true => exact (s.breaker.reports_ne_halfOpen s.now workerID).1
  | false => exact (s.breaker.reports_ne_halfOpen s.now workerID).2.1

variable [DecidableEq ι]

theorem ConsumerLoops.workers_setWorker (s : ConsumerLoops ι) (w w' : ι) (worker : Worker) :
    (s.setWorker w worker).workers w' = if w' = w then worker else s.workers w' :=
  Function.update_apply s.workers w worker w'

/-- A worker that is not probing goes on. -/
theorem Supervised.setWorker (h : Supervised s) {worker : Worker} (hold : (s.workers w).phase ≠ .flushing)
    (hnew : worker.phase = .draining ∨ worker.phase = .stopped → s.cancelled = true) :
    Supervised (s.setWorker w worker) := by
  constructor
  · intro hhalf
    obtain ⟨w', hw'⟩ := h.probed hhalf
    refine ⟨w', ?_⟩
    rw [workers_setWorker, if_neg, hw']
    rintro rfl
    exact hold hw'
  · intro w' hw'
    rw [workers_setWorker] at hw'
    split at hw'
    · exact hnew hw'
    · exact h.live w' hw'

/-- The worker has left its loop. -/
def WorkerPhase.left : WorkerPhase → Bool
  | .draining | .stopped => true
  | _ => false

theorem Supervised.moveWorker (h : Supervised s) {worker : Worker}
    (hold : (s.workers w).phase ≠ .flushing) (hnew : worker.phase.left = false) :
    Supervised (s.setWorker w worker) := by
  refine h.setWorker hold fun hleft => ?_
  rcases hleft with hphase | hphase <;> rw [hphase] at hnew <;> cases hnew

theorem ConsumerLoops.tryFlush_of_allowed (s : ConsumerLoops ι) (w : ι) (worker : Worker)
    (h : s.breaker.allow s.now = (true, breaker)) :
    s.tryFlush w worker =
      { s with breaker := breaker }.setWorker w { worker with phase := .flushing } := by
  rw [tryFlush, h]
  rfl

theorem ConsumerLoops.tryFlush_of_denied (s : ConsumerLoops ι) (w : ι) (worker : Worker)
    (h : s.breaker.allow s.now = (false, breaker)) :
    s.tryFlush w worker =
      { s with breaker := breaker }.setWorker w
        { worker with phase := .waiting true, wake := s.now + breaker.pause s.now } := by
  rw [tryFlush, h]
  rfl

/-- A worker asks the breaker. -/
theorem Supervised.tryFlush (h : Supervised s) (hold : (s.workers w).phase ≠ .flushing)
    (worker : Worker) : Supervised (s.tryFlush w worker) := by
  cases hstate : s.breaker.state with
  | closed =>
    rw [s.tryFlush_of_allowed w worker (by rw [allow, hstate])]
    exact h.moveWorker hold rfl
  | halfOpen =>
    rw [s.tryFlush_of_denied w worker (by rw [allow, hstate])]
    exact h.moveWorker hold rfl
  | opened =>
    have hallow := s.breaker.allow_opened s.now hstate
    by_cases htime : s.breaker.openTimeout ≤ s.now - s.breaker.lastOpenedAt
    · rw [if_pos htime] at hallow
      rw [s.tryFlush_of_allowed w worker hallow]
      refine ⟨fun _ => ⟨w, ?_⟩, fun w' hw' => ?_⟩
      · rw [workers_setWorker, if_pos rfl]
      · rw [workers_setWorker] at hw'
        split at hw'
        · exact hw'.elim WorkerPhase.noConfusion WorkerPhase.noConfusion
        · exact h.live w' hw'
    · rw [if_neg htime] at hallow
      rw [s.tryFlush_of_denied w worker hallow]
      exact h.moveWorker hold rfl

/-- A worker goes on by itself. -/
theorem Supervised.advanceWorker (h : Supervised s) (w : ι) : Supervised (advanceWorker cfg s w) := by
  unfold Espx.Ingestion.advanceWorker
  dsimp only
  cases hphase : (s.workers w).phase with
  | recovering | settling => exact h.moveWorker (by simp [hphase]) rfl
  | top =>
    dsimp only
    split
    · refine h.setWorker (by simp [hphase]) ?_
      cases s.cancelled with
      | true => exact fun _ => rfl
      | false => exact fun h => h.elim WorkerPhase.noConfusion WorkerPhase.noConfusion
    · exact h.moveWorker (by simp [hphase]) rfl
  | pausing =>
    dsimp only
    split
    · rename_i hcancelled
      exact h.setWorker (by simp [hphase]) (fun _ => hcancelled)
    · split
      · exact h.moveWorker (by simp [hphase]) rfl
      · exact h
  | reading =>
    dsimp only
    split
    · exact h.tryFlush (by simp [hphase]) _
    · split
      · exact h.tryFlush (by simp [hphase]) _
      · exact h.moveWorker (by simp [hphase]) rfl
  | blocked | flushing | stopped => exact h
  | received =>
    dsimp only
    split
    · exact h.tryFlush (by simp [hphase]) _
    · exact h.moveWorker (by simp [hphase]) rfl
  | waiting denied =>
    dsimp only
    split
    · exact h.moveWorker (by simp [hphase]) rfl
    · exact h
  | draining => exact h.setWorker (by simp [hphase]) (fun _ => h.live w (.inl hphase))

/-- One step. -/
theorem Supervised.step (h : Supervised s) (action : LoopAction ι) :
    Supervised (loopStep cfg s action) := by
  cases action with
  | tick duration => exact ⟨h.probed, h.live⟩
  | cancel => exact ⟨h.probed, fun _ _ => rfl⟩
  | janitor stored => exact h.reportFlush "janitor" stored
  | recover w stored =>
    simp only [loopStep]
    split
    · have hrep := h.reportFlush (cfg.workerID w) stored
      cases stored with
      | true => exact hrep
      | false => exact hrep.advanceWorker w
    · exact h
  | advance w => exact h.advanceWorker w
  | read w answer =>
    simp only [loopStep, readAnswered]
    split
    · exact h
    rename_i hblock
    have hphase : (s.workers w).phase ≠ .flushing := by
      rw [not_not.mp hblock]
      exact WorkerPhase.noConfusion
    cases answer with
    | messages count | failed =>
      exact h.moveWorker hphase rfl
    | nothing =>
      dsimp only
      split
      · exact h.tryFlush hphase _
      · exact h.moveWorker hphase rfl
  | flushed w answer =>
    simp only [loopStep, flushAnswered]
    split
    · exact h
    have hreports := s.breaker.reports_ne_halfOpen s.now (cfg.workerID w)
    have hset : ∀ breaker worker, breaker.state ≠ .halfOpen → worker.phase = .settling →
        Supervised ({ s with breaker := breaker }.setWorker w worker) := by
      intro breaker worker hbrk hwork
      refine ⟨fun hhalf => absurd hhalf hbrk, fun w' hw' => ?_⟩
      rw [workers_setWorker] at hw'
      split at hw'
      · rw [hwork] at hw'
        exact hw'.elim WorkerPhase.noConfusion WorkerPhase.noConfusion
      · exact h.live w' hw'
    cases answer with
    | stored => exact hset _ _ hreports.1 rfl
    | canceled => exact hset _ _ hreports.2.2 rfl
    | refused kept => exact hset _ _ hreports.2.1 rfl

end

section

variable {ι : Type*} [DecidableEq ι] {cfg : LoopConfig ι} {s : ConsumerLoops ι} {w : ι}

/-- The breaker is closed and a worker reads from the stream. -/
structure Recovered (s : ConsumerLoops ι) : Prop where
  live : s.cancelled = false
  closed : s.breaker.state = .closed
  reads : ∃ w, (s.workers w).phase = .reading

/-- Some continuation recovers. -/
abbrev Recovers (cfg : LoopConfig ι) (s : ConsumerLoops ι) : Prop := CanReach (loopStep cfg) Recovered s

theorem phase_setWorker {worker : Worker} : ((s.setWorker w worker).workers w).phase = worker.phase := by
  rw [workers_setWorker, if_pos rfl]

theorem recovers_of_tick (moment : ℤ) (h : ∀ now, moment ≤ now → Recovers cfg { s with now := now }) :
    Recovers cfg s := by
  apply after (.tick (moment - s.now).toNat)
  apply h
  omega

section

variable (hlive : s.cancelled = false)
include hlive

/-- From the top of its loop a worker reads when the breaker is closed. -/
theorem recovers_of_top (hclose : s.breaker.state = .closed)
    (hphase : (s.workers w).phase = .top) : Recovers cfg s := by
  have hstep : loopStep cfg s (.advance w) = s.setWorker w { s.workers w with phase := .reading } := by
    simp [loopStep, advanceWorker, hphase, hclose, hlive]
  apply after (.advance w)
  apply here
  rw [hstep]
  exact ⟨hlive, hclose, w, phase_setWorker⟩

theorem recovers_of_setWorker_top (hclose : s.breaker.state = .closed) {worker : Worker}
    (hphase : worker.phase = .top) : Recovers cfg (s.setWorker w worker) :=
  recovers_of_top (w := w) hlive hclose (phase_setWorker.trans hphase)

/-- A worker settles its flush. -/
theorem recovers_of_settling (hclose : s.breaker.state = .closed)
    (hphase : (s.workers w).phase = .settling) : Recovers cfg s := by
  have hstep : loopStep cfg s (.advance w) =
      s.setWorker w { s.workers w with phase := .top, lastFlush := s.now } := by
    simp [loopStep, advanceWorker, hphase]
  apply after (.advance w)
  rw [hstep]
  exact recovers_of_setWorker_top hlive hclose rfl

/-- A flush that succeeds closes a half-open breaker and leaves a closed one closed. -/
theorem recovers_of_flushing (hnotOpen : s.breaker.state ≠ .opened)
    (hphase : (s.workers w).phase = .flushing) : Recovers cfg s := by
  have hclose : (s.breaker.recordSuccess (cfg.workerID w)).state = .closed := by
    rw [state_recordSuccess]
    cases hstate : s.breaker.state with
    | closed | halfOpen => rfl
    | opened => exact absurd hstate hnotOpen
  have hstep : loopStep cfg s (.flushed w .stored) =
      { s with breaker := s.breaker.recordSuccess (cfg.workerID w) }.setWorker w
        { s.workers w with phase := .settling, batch := 0 } := by
    simp [loopStep, flushAnswered, hphase]
  apply after (.flushed w .stored)
  rw [hstep]
  exact recovers_of_settling (w := w) hlive hclose phase_setWorker

/-- A permitted flush. -/
theorem recovers_of_allowed {worker : Worker}
    {breaker : CircuitBreaker} (hallow : s.breaker.allow s.now = (true, breaker))
    (hbrk : breaker.state ≠ .opened) : Recovers cfg (s.tryFlush w worker) := by
  rw [s.tryFlush_of_allowed w worker hallow]
  exact recovers_of_flushing (w := w) hlive hbrk phase_setWorker

theorem recovers_of_tryFlush_closed (hclose : s.breaker.state = .closed) (worker : Worker) :
    Recovers cfg (s.tryFlush w worker) := by
  have hallow : s.breaker.allow s.now = (true, s.breaker) := by rw [allow, hclose]
  apply recovers_of_allowed hlive hallow
  rw [hclose]
  exact CircuitState.noConfusion

/-- With a closed breaker every worker gets to reading. -/
theorem recovers_of_closed (hclose : s.breaker.state = .closed)
    (hsup : Supervised s) (w : ι) : Recovers cfg s := by
  cases hphase : (s.workers w).phase with
  | reading => exact here ⟨hlive, hclose, w, hphase⟩
  | top => exact recovers_of_top hlive hclose hphase
  | settling => exact recovers_of_settling hlive hclose hphase
  | flushing =>
    refine recovers_of_flushing hlive ?_ hphase
    rw [hclose]
    exact CircuitState.noConfusion
  | recovering =>
    apply after (.advance w)
    simp only [loopStep, advanceWorker, hphase]
    exact recovers_of_setWorker_top hlive hclose rfl
  | pausing =>
    apply recovers_of_tick (s.workers w).wake
    intro now hnow
    apply after (.advance w)
    simp only [loopStep, advanceWorker, hphase]
    rw [if_neg (by simp [hlive]), if_pos hnow]
    exact recovers_of_setWorker_top (s := { s with now := now }) hlive hclose rfl
  | waiting denied =>
    apply recovers_of_tick (s.workers w).wake
    intro now hnow
    apply after (.advance w)
    simp only [loopStep, advanceWorker, hphase, if_pos (Or.inr hnow)]
    exact recovers_of_setWorker_top (s := { s with now := now }) hlive hclose rfl
  | blocked =>
    apply after (.read w .nothing)
    simp only [loopStep, readAnswered, hphase, ne_eq, not_true_eq_false, if_false]
    split
    · exact recovers_of_tryFlush_closed hlive hclose _
    · exact recovers_of_setWorker_top hlive hclose rfl
  | received =>
    apply after (.advance w)
    simp only [loopStep, advanceWorker, hphase]
    split
    · exact recovers_of_tryFlush_closed hlive hclose _
    · exact recovers_of_setWorker_top hlive hclose rfl
  | draining =>
    exact absurd (hlive.symm.trans (hsup.live w (.inl hphase))) Bool.false_ne_true
  | stopped =>
    exact absurd (hlive.symm.trans (hsup.live w (.inr hphase))) Bool.false_ne_true

section

variable (hopen : s.breaker.state = .opened)
include hopen

/-- Once the timeout has elapsed a worker with messages to flush gets the breaker half-open. -/
theorem recovers_of_tryFlush_opened (htime : s.breaker.openTimeout ≤ s.now - s.breaker.lastOpenedAt)
    (worker : Worker) : Recovers cfg (s.tryFlush w worker) := by
  have hallow := s.breaker.allow_opened s.now hopen
  rw [if_pos htime] at hallow
  exact recovers_of_allowed hlive hallow CircuitState.noConfusion

/-- A worker that has read messages flushes them after the flush interval. -/
theorem recovers_of_received (hphase : (s.workers w).phase = .received) : Recovers cfg s := by
  apply recovers_of_tick (max (s.breaker.lastOpenedAt + s.breaker.openTimeout)
    ((s.workers w).lastFlush + cfg.flushInt))
  intro now hnow
  have htime : s.breaker.openTimeout ≤ now - s.breaker.lastOpenedAt := by omega
  have hdue : flushDue cfg { s with now := now } (s.workers w) = true := by
    rw [flushDue, decide_eq_true_iff]
    dsimp only
    omega
  apply after (.advance w)
  simp only [loopStep, advanceWorker, hphase, if_pos (Or.inr hdue)]
  exact recovers_of_tryFlush_opened (s := { s with now := now }) hlive hopen htime _

theorem recovers_of_blocked (hphase : (s.workers w).phase = .blocked) : Recovers cfg s := by
  apply after (.read w (.messages 1))
  simp only [loopStep, readAnswered, hphase, ne_eq, not_true_eq_false, if_false]
  exact recovers_of_received (w := w) hlive hopen phase_setWorker

/-- A worker that is past the top of its loop calls `Allow` after the timeout. -/
theorem recovers_of_pastGuard (hpast : (s.workers w).phase.pastGuard = true) : Recovers cfg s := by
  cases hphase : (s.workers w).phase with
  | reading =>
    apply recovers_of_tick (s.breaker.lastOpenedAt + s.breaker.openTimeout)
    intro now hnow
    have htime : s.breaker.openTimeout ≤ now - s.breaker.lastOpenedAt := by omega
    apply after (.advance w)
    simp only [loopStep, advanceWorker, hphase]
    have hflush := @recovers_of_tryFlush_opened _ _ cfg { s with now := now } w hlive hopen htime
    split
    · exact hflush _
    split
    · exact hflush _
    · exact recovers_of_blocked (w := w) hlive hopen phase_setWorker
  | blocked => exact recovers_of_blocked hlive hopen hphase
  | received => exact recovers_of_received hlive hopen hphase
  | _ => rw [hphase] at hpast; exact absurd hpast Bool.false_ne_true

end

end

theorem not_recovers_of_stuckOpen (h : StuckOpen s) : ¬ CanReach (loopStep cfg) Recovered s := by
  apply not_canReach_of_kept (fun _ action hs => hs.step action) ?_ h
  intro s hs hrecovered
  exact CircuitState.noConfusion (hs.state.symm.trans hrecovered.closed)

/-- Before the context ends, a continuation closes the breaker and reads from the stream exactly when the
breaker is not open or some worker is past the top of its loop. -/
theorem recovers_iff [Nonempty ι] (hsup : Supervised s) (hlive : s.cancelled = false) :
    CanReach (loopStep cfg) Recovered s ↔
      s.breaker.state ≠ .opened ∨ ∃ w, (s.workers w).phase.pastGuard = true := by
  constructor
  · intro hreach
    by_contra hneither
    rw [not_or, not_not, not_exists] at hneither
    have hstuck : StuckOpen s := ⟨hneither.1, fun w => Bool.not_eq_true _ ▸ hneither.2 w⟩
    exact not_recovers_of_stuckOpen hstuck hreach
  · intro hcondition
    cases hstate : s.breaker.state with
    | closed => exact recovers_of_closed hlive hstate hsup (Classical.arbitrary ι)
    | halfOpen =>
      obtain ⟨w, hw⟩ := hsup.probed hstate
      refine recovers_of_flushing hlive ?_ hw
      rw [hstate]
      exact CircuitState.noConfusion
    | opened =>
      rcases hcondition with hne | ⟨w, hw⟩
      · exact absurd hstate hne
      · exact recovers_of_pastGuard hlive hstate hw

end

end Espx.Ingestion
