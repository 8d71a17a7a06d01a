import Espx.Ingestion.BreakerRecovery

/-!
# The lanes of the settlement worker and the recovery from an open breaker

`SettlementWorker` has one reader, which sends each message to a lane over a channel of bounded length,
and lanes that batch and flush. The reader stops at `pauseStreamReads` while the breaker is open, the
lanes report to the breaker, and nobody asks it for permission.
-/

namespace Espx.Ingestion

open Espx.Foundation CanReach

section

variable {ι : Type*} [DecidableEq ι]

/-- Where the reader is in its loop. -/
inductive ReaderPhase (ι : Type*) where
  /-- In the `recoverPending` before the loop. -/
  | recovering
  /-- At the top of the loop, before `pauseStreamReads`. -/
  | top
  /-- In the wait of `pauseStreamReads`. -/
  | pausing
  /-- In `XReadGroup`. -/
  | reading
  /-- Sending messages to their lanes. -/
  | sending (rest : List ι)
  /-- In the wait after a failed read. -/
  | sleeping
  /-- The reader has returned. -/
  | stopped
deriving DecidableEq

/-- Where a lane is in its loop; the last flush is the one at the end of the context. -/
inductive LanePhase where
  | idle
  | flushing (last : Bool)
  | stopped
deriving DecidableEq

/-- A lane: its phase, the length of its channel, the length of its batch and its last flush. -/
structure Lane where
  phase : LanePhase
  queue : ℕ
  batch : ℕ
  lastFlush : ℤ

/-- The configuration of the settlement worker. -/
structure SettlementConfig (ι : Type*) where
  readerID : String
  laneID : ι → String
  batchSize : ℕ
  flushInt : ℤ

/-- The clock, whether the context has ended, the breaker, the reader and the lanes. -/
structure SettlementLoops (ι : Type*) where
  now : ℤ
  cancelled : Bool
  breaker : CircuitBreaker
  reader : ReaderPhase ι
  wake : ℤ
  lanes : ι → Lane

/-- `defaultSettlementLaneBuffer`. -/
def settlementLaneBuffer : ℕ := 4096

/-- What `XReadGroup` returns to the reader: messages, each for a lane, nothing in time, or another
error. -/
inductive LaneReadAnswer (ι : Type*) where
  | messages (lanes : List ι)
  | nothing
  | failed

/-- What `FlushBatch` returns to a lane. -/
inductive LaneFlushAnswer where
  | stored
  | canceled
  | refused

/-- The steps: time passes, the context ends, the janitor flushes claimed messages, the reader flushes
pending ones, goes on by itself or gets an answer; a lane takes a message, its ticker fires, it sees the
end of the context, or its flush returns. -/
inductive SettlementAction (ι : Type*) where
  | tick (duration : ℕ)
  | cancel
  | janitor (stored : Bool)
  | recover (stored : Bool)
  | reader
  | read (answer : LaneReadAnswer ι)
  | take (lane : ι)
  | ticker (lane : ι)
  | stop (lane : ι)
  | flushed (lane : ι) (answer : LaneFlushAnswer)

/-- A lane is replaced. -/
def SettlementLoops.setLane (s : SettlementLoops ι) (l : ι) (lane : Lane) : SettlementLoops ι :=
  { s with lanes := Function.update s.lanes l lane }

/-- The reader goes on by itself. -/
def advanceReader (s : SettlementLoops ι) : SettlementLoops ι :=
  match s.reader with
  | .recovering => { s with reader := .top }
  | .top =>
    if s.breaker.state ≠ .opened then
      { s with reader := if s.cancelled then .stopped else .reading }
    else { s with reader := .pausing, wake := s.now + s.breaker.pause s.now }
  | .pausing | .sleeping =>
    if s.cancelled then { s with reader := .stopped }
    else if s.wake ≤ s.now then { s with reader := .top }
    else s
  | .sending [] => { s with reader := .top }
  | .sending (l :: rest) =>
    if s.cancelled then { s with reader := .stopped }
    else if (s.lanes l).queue < settlementLaneBuffer then
      { s with reader := .sending rest }.setLane l
        { s.lanes l with queue := (s.lanes l).queue + 1 }
    else s
  | .reading | .stopped => s

/-- The report of a flush outside of the lanes. -/
def SettlementLoops.reportFlush (s : SettlementLoops ι) (workerID : String) (stored : Bool) :
    SettlementLoops ι :=
  { s with breaker :=
      if stored then s.breaker.recordSuccess workerID else s.breaker.recordFailure s.now workerID }

/-- A lane takes a message from its channel. -/
def takeMessage (cfg : SettlementConfig ι) (s : SettlementLoops ι) (l : ι) : SettlementLoops ι :=
  let lane := s.lanes l
  if lane.phase = .idle ∧ 0 < lane.queue then
    s.setLane l { lane with
      phase := if cfg.batchSize ≤ lane.batch + 1 then .flushing false else .idle
      queue := lane.queue - 1
      batch := lane.batch + 1 }
  else s

/-- The flush of a lane returns and is reported to the breaker. -/
def laneFlushed (cfg : SettlementConfig ι) (s : SettlementLoops ι) (l : ι)
    (answer : LaneFlushAnswer) : SettlementLoops ι :=
  let lane := s.lanes l
  match lane.phase with
  | .flushing last =>
    let breaker := match answer with
      | .stored => s.breaker.recordSuccess (cfg.laneID l)
      | .canceled => s.breaker
      | .refused => s.breaker.recordFailure s.now (cfg.laneID l)
    { s with breaker := breaker }.setLane l { lane with
      phase := if last then .stopped else .idle
      batch := 0
      lastFlush := s.now }
  | _ => s

/-- One step of the settlement worker. -/
def settlementStep (cfg : SettlementConfig ι) (s : SettlementLoops ι) :
    SettlementAction ι → SettlementLoops ι
  | .tick duration => { s with now := s.now + duration }
  | .cancel => { s with cancelled := true }
  | .janitor stored => s.reportFlush "janitor" stored
  | .recover stored =>
    if s.reader = .recovering then
      let s := s.reportFlush cfg.readerID stored
      if stored then s else { s with reader := .top }
    else s
  | .reader => advanceReader s
  | .read answer =>
    if s.reader ≠ .reading then s
    else
      match answer with
      | .messages lanes => { s with reader := .sending lanes }
      | .nothing => { s with reader := .top }
      | .failed => { s with reader := .sleeping, wake := s.now + 1000000000 }
  | .take l => takeMessage cfg s l
  | .ticker l =>
    let lane := s.lanes l
    if lane.phase = .idle ∧ 0 < lane.batch ∧ cfg.flushInt ≤ s.now - lane.lastFlush then
      s.setLane l { lane with phase := .flushing false }
    else s
  | .stop l =>
    let lane := s.lanes l
    if lane.phase = .idle ∧ s.cancelled then
      s.setLane l { lane with phase := if lane.batch = 0 then .stopped else .flushing true }
    else s
  | .flushed l answer => laneFlushed cfg s l answer

/-- The loops when the settlement worker is started. -/
def SettlementLoops.start (failThreshold : Int32) (openTimeout : ℤ) : SettlementLoops ι :=
  ⟨0, false, newCircuitBreaker failThreshold openTimeout, .recovering, 0, fun _ => ⟨.idle, 0, 0, 0⟩⟩

end

open SettlementLoops

section

variable {ι : Type*} {cfg : SettlementConfig ι} {s : SettlementLoops ι} {l : ι} {reader : ReaderPhase ι}

/-- The breaker is never half-open, the loops end only with the context, and no channel holds more
than its buffer. -/
structure SettlementSound (s : SettlementLoops ι) : Prop where
  notHalf : s.breaker.state ≠ .halfOpen
  reader : s.reader = .stopped → s.cancelled = true
  lanes : ∀ l, (s.lanes l).phase = .flushing true ∨ (s.lanes l).phase = .stopped → s.cancelled = true
  bounded : ∀ l, (s.lanes l).queue ≤ settlementLaneBuffer

theorem settlementSound_start (failThreshold : Int32) (openTimeout : ℤ) :
    SettlementSound (start failThreshold openTimeout : SettlementLoops ι) where
  notHalf := CircuitState.noConfusion
  reader := fun h => absurd h (by simp [start])
  lanes := fun _ h => h.elim LanePhase.noConfusion LanePhase.noConfusion
  bounded := fun _ => Nat.zero_le _

theorem SettlementSound.setReader (h : SettlementSound s) {wake : ℤ}
    (hread : reader = .stopped → s.cancelled = true) :
    SettlementSound { s with reader := reader, wake := wake } :=
  ⟨h.notHalf, hread, h.lanes, h.bounded⟩

theorem SettlementSound.goOn (h : SettlementSound s) {wake : ℤ}
    (hread : reader ≠ .stopped) : SettlementSound { s with reader := reader, wake := wake } :=
  h.setReader fun hstop => absurd hstop hread

variable [DecidableEq ι]

theorem SettlementLoops.lanes_setLane (s : SettlementLoops ι) (l l' : ι) (lane : Lane) :
    (s.setLane l lane).lanes l' = if l' = l then lane else s.lanes l' :=
  Function.update_apply s.lanes l lane l'

/-- What a step can do to the breaker: nothing, or a report. -/
theorem breaker_settlementStep (cfg : SettlementConfig ι) (s : SettlementLoops ι)
    (action : SettlementAction ι) :
    (settlementStep cfg s action).breaker = s.breaker ∨
      (∃ workerID, (settlementStep cfg s action).breaker = s.breaker.recordSuccess workerID) ∨
      ∃ workerID, (settlementStep cfg s action).breaker = s.breaker.recordFailure s.now workerID := by
  have hrep : ∀ workerID stored,
      (∃ id, (s.reportFlush workerID stored).breaker = s.breaker.recordSuccess id) ∨
        ∃ id, (s.reportFlush workerID stored).breaker = s.breaker.recordFailure s.now id := by
    intro workerID stored
    cases stored with
    | true => exact .inl ⟨workerID, rfl⟩
    | false => exact .inr ⟨workerID, rfl⟩
  cases action with
  | tick duration | cancel => exact .inl rfl
  | janitor stored => exact .inr (hrep "janitor" stored)
  | recover stored =>
    simp only [settlementStep]
    split
    · have := hrep cfg.readerID stored
      cases stored <;> exact .inr this
    · exact .inl rfl
  | reader =>
    refine .inl ?_
    simp only [settlementStep, advanceReader]
    repeat' split
    all_goals rfl
  | read answer =>
    refine .inl ?_
    simp only [settlementStep]
    repeat' split
    all_goals rfl
  | take l =>
    refine .inl ?_
    simp only [settlementStep, takeMessage]
    split <;> rfl
  | ticker l | stop l =>
    refine .inl ?_
    simp only [settlementStep]
    split <;> rfl
  | flushed l answer =>
    simp only [settlementStep, laneFlushed]
    cases (s.lanes l).phase with
    | flushing last =>
      cases answer with
      | stored => exact .inr (.inl ⟨_, rfl⟩)
      | canceled => exact .inl rfl
      | refused => exact .inr (.inr ⟨_, rfl⟩)
    | idle | stopped => exact .inl rfl

/-- No step takes the breaker out of the open state. -/
theorem opened_settlementStep (h : s.breaker.state = .opened) (action : SettlementAction ι) :
    (settlementStep cfg s action).breaker.state = .opened := by
  rcases breaker_settlementStep cfg s action with hsame | ⟨id, hok⟩ | ⟨id, hfail⟩
  · rw [hsame, h]
  · rw [hok]
    exact (s.breaker.reports_opened s.now id h).1
  · rw [hfail]
    exact (s.breaker.reports_opened s.now id h).2.1

/-- A lane goes on. -/
theorem SettlementSound.setLane (h : SettlementSound s) {lane : Lane}
    (hphase : lane.phase = .flushing true ∨ lane.phase = .stopped → s.cancelled = true)
    (hqueue : lane.queue ≤ settlementLaneBuffer) : SettlementSound (s.setLane l lane) := by
  refine ⟨h.notHalf, h.reader, fun l' hl' => ?_, fun l' => ?_⟩
  · rw [lanes_setLane] at hl'
    split at hl'
    · exact hphase hl'
    · exact h.lanes l' hl'
  · rw [lanes_setLane]
    split
    · exact hqueue
    · exact h.bounded l'

/-- The reader goes on by itself. -/
theorem SettlementSound.advanceReader (h : SettlementSound s) : SettlementSound (advanceReader s) := by
  unfold Espx.Ingestion.advanceReader
  cases hread : s.reader with
  | recovering => exact h.goOn (by simp)
  | top =>
    dsimp only
    split
    · apply h.setReader
      intro hstop
      by_contra hlive
      rw [if_neg hlive] at hstop
      exact absurd hstop (by simp)
    · exact h.goOn (by simp)
  | pausing | sleeping =>
    dsimp only
    split
    · exact h.setReader fun _ => by assumption
    · split
      · exact h.goOn (by simp)
      · exact h
  | sending rest =>
    cases rest with
    | nil => exact h.goOn (by simp)
    | cons l rest =>
      dsimp only
      split
      · exact h.setReader fun _ => by assumption
      split
      · rename_i hqueue
        exact (h.goOn (by simp)).setLane (h.lanes l) hqueue
      · exact h
  | reading | stopped => exact h

/-- One step. -/
theorem SettlementSound.step (h : SettlementSound s) (action : SettlementAction ι) :
    SettlementSound (settlementStep cfg s action) := by
  have hhalf : (settlementStep cfg s action).breaker.state ≠ .halfOpen := by
    rcases breaker_settlementStep cfg s action with hsame | ⟨id, hok⟩ | ⟨id, hfail⟩
    · rw [hsame]
      exact h.notHalf
    · rw [hok]
      exact (s.breaker.reports_ne_halfOpen s.now id).1
    · rw [hfail]
      exact (s.breaker.reports_ne_halfOpen s.now id).2.1
  cases action with
  | tick duration => exact { h with }
  | cancel => exact ⟨h.notHalf, fun _ => rfl, fun _ _ => rfl, h.bounded⟩
  | janitor stored => exact ⟨hhalf, h.reader, h.lanes, h.bounded⟩
  | recover stored =>
    revert hhalf
    simp only [settlementStep]
    intro hhalf
    split at hhalf <;> rename_i hread
    · rw [if_pos hread]
      cases stored with
      | true => exact ⟨hhalf, h.reader, h.lanes, h.bounded⟩
      | false => exact ⟨hhalf, fun h => absurd h (by simp), h.lanes, h.bounded⟩
    · rw [if_neg hread]
      exact h
  | reader => exact h.advanceReader
  | read answer =>
    simp only [settlementStep]
    split
    · exact h
    cases answer with
    | messages lanes | nothing | failed => exact h.goOn (by simp)
  | take l =>
    simp only [settlementStep, takeMessage]
    split
    · apply h.setLane
      · split <;> exact fun h => h.elim (by simp) (by simp)
      · exact Nat.le_trans (Nat.sub_le _ _) (h.bounded l)
    · exact h
  | ticker l =>
    simp only [settlementStep]
    split
    · exact h.setLane (fun h => h.elim (by simp) (by simp)) (h.bounded l)
    · exact h
  | stop l =>
    simp only [settlementStep]
    split
    · rename_i hstop
      exact h.setLane (fun _ => hstop.2) (h.bounded l)
    · exact h
  | flushed l answer =>
    revert hhalf
    simp only [settlementStep, laneFlushed]
    cases hphase : (s.lanes l).phase with
    | flushing last =>
      intro hhalf
      have hrep : SettlementSound { s with breaker := _ } :=
        ⟨hhalf, h.reader, h.lanes, h.bounded⟩
      apply hrep.setLane
      · cases last with
        | true => exact fun _ => h.lanes l (.inl hphase)
        | false => exact fun h => h.elim (by simp) (by simp)
      · exact h.bounded l
    | idle | stopped => exact fun _ => h

/-- The breaker is closed and the reader reads from the stream. -/
structure SettlementRecovered (s : SettlementLoops ι) : Prop where
  live : s.cancelled = false
  closed : s.breaker.state = .closed
  reads : s.reader = .reading

/-- The loops run with a closed breaker. -/
structure RunsClosed (s : SettlementLoops ι) : Prop where
  live : s.cancelled = false
  closed : s.breaker.state = .closed
  sound : SettlementSound s

/-- A step that keeps the context and leaves the breaker closed. -/
theorem RunsClosed.step (h : RunsClosed s) {action : SettlementAction ι} {s' : SettlementLoops ι}
    (hstep : settlementStep cfg s action = s') (hlive : s'.cancelled = s.cancelled)
    (hclose : s'.breaker.state = .closed) : RunsClosed (settlementStep cfg s action) :=
  ⟨hstep ▸ hlive.trans h.live, hstep ▸ hclose, h.sound.step action⟩

section

variable (h : RunsClosed s)
include h

theorem settles_of_top (hread : s.reader = .top) :
    CanReach (settlementStep cfg) SettlementRecovered s := by
  apply CanReach.after .reader
  apply here
  have hstep : settlementStep cfg s .reader = { s with reader := .reading } := by
    simp [settlementStep, advanceReader, hread, h.closed, h.live]
  rw [hstep]
  exact ⟨h.live, h.closed, rfl⟩

theorem settles_of_step_top (hstep : settlementStep cfg s .reader = { s with reader := .top }) :
    CanReach (settlementStep cfg) SettlementRecovered s := by
  apply CanReach.after .reader
  rw [hstep]
  exact settles_of_top ⟨h.live, h.closed, h.sound.goOn (by simp)⟩ rfl

/-- The reader waits. -/
theorem settles_of_wait (hread : s.reader = .pausing ∨ s.reader = .sleeping) :
    CanReach (settlementStep cfg) SettlementRecovered s := by
  obtain ⟨duration, hwake⟩ : ∃ duration : ℕ, s.wake ≤ s.now + duration :=
    ⟨(s.wake - s.now).toNat, by have := Int.self_le_toNat (s.wake - s.now); omega⟩
  have hlater : RunsClosed (settlementStep cfg s (.tick duration)) := h.step rfl rfl h.closed
  apply CanReach.after (.tick duration)
  apply settles_of_step_top hlater
  rcases hread with hread | hread <;>
    simp [settlementStep, advanceReader, hread, h.live, hwake]

/-- There is room in the channel of a lane. -/
structure HasRoom (l : ι) (reader : ReaderPhase ι) (s : SettlementLoops ι) : Prop where
  runs : RunsClosed s
  reader : s.reader = reader
  room : (s.lanes l).queue < settlementLaneBuffer

/-- An idle lane makes room in its channel. -/
theorem hasRoom_of_idle {l : ι} (hphase : (s.lanes l).phase = .idle) :
    CanReach (settlementStep cfg) (HasRoom l s.reader) s := by
  by_cases hroom : (s.lanes l).queue < settlementLaneBuffer
  · exact here ⟨h, rfl, hroom⟩
  have hpos : 0 < (s.lanes l).queue :=
    Nat.lt_of_lt_of_le (by decide : 0 < settlementLaneBuffer) (Nat.not_lt.mp hroom)
  have hstep : settlementStep cfg s (.take l) = s.setLane l { s.lanes l with
      phase := if cfg.batchSize ≤ (s.lanes l).batch + 1 then .flushing false else .idle
      queue := (s.lanes l).queue - 1
      batch := (s.lanes l).batch + 1 } := by
    simp only [settlementStep, takeMessage]
    rw [if_pos ⟨hphase, hpos⟩]
  apply CanReach.after (.take l)
  apply here
  refine ⟨h.step hstep rfl h.closed, by rw [hstep]; rfl, ?_⟩
  rw [hstep, lanes_setLane, if_pos rfl]
  have := h.sound.bounded l
  dsimp only
  omega

/-- Every lane makes room in its channel. -/
theorem hasRoom (l : ι) : CanReach (settlementStep cfg) (HasRoom l s.reader) s := by
  have hended : ∀ phase, (s.lanes l).phase = phase → phase = .flushing true ∨ phase = .stopped →
      False := by
    intro phase hphase hphase'
    rw [← hphase] at hphase'
    exact absurd (h.live.symm.trans (h.sound.lanes l hphase')) Bool.false_ne_true
  cases hphase : (s.lanes l).phase with
  | idle => exact hasRoom_of_idle h hphase
  | stopped => exact (hended _ hphase (.inr rfl)).elim
  | flushing last =>
    cases last with
    | true => exact (hended _ hphase (.inl rfl)).elim
    | false =>
      set next := settlementStep cfg s (.flushed l .stored) with hnext
      have hstep : next =
          { s with breaker := s.breaker.recordSuccess (cfg.laneID l) }.setLane l
            { s.lanes l with phase := .idle, batch := 0, lastFlush := s.now } := by
        simp [hnext, settlementStep, laneFlushed, hphase]
      have hruns : RunsClosed next := by
        refine h.step hstep rfl ?_
        change (s.breaker.recordSuccess (cfg.laneID l)).state = .closed
        rw [CircuitBreaker.state_recordSuccess, h.closed]
        rfl
      have hidle : (next.lanes l).phase = .idle := by
        rw [hstep, lanes_setLane, if_pos rfl]
      have hread : next.reader = s.reader := by
        rw [hstep]
        rfl
      apply CanReach.after (.flushed l .stored)
      rw [← hread]
      exact hasRoom_of_idle hruns hidle

end

/-- The reader sends its messages, one after the other, and gets back to the top of its loop. -/
theorem settles_of_sending (rest : List ι) (h : RunsClosed s) (hread : s.reader = .sending rest) :
    CanReach (settlementStep cfg) SettlementRecovered s := by
  induction rest generalizing s with
  | nil => exact settles_of_step_top h (by simp [settlementStep, advanceReader, hread])
  | cons l rest ih =>
    apply (hasRoom h l).trans
    intro s' hs'
    have hstep : settlementStep cfg s' .reader =
        { s' with reader := .sending rest }.setLane l
          { s'.lanes l with queue := (s'.lanes l).queue + 1 } := by
      simp [settlementStep, advanceReader, hs'.reader.trans hread, hs'.runs.live, hs'.room]
    apply CanReach.after .reader
    refine ih (hs'.runs.step hstep rfl hs'.runs.closed) ?_
    rw [hstep]
    rfl

/-- With a closed breaker the reader gets to reading. -/
theorem settles_of_closed (h : RunsClosed s) : CanReach (settlementStep cfg) SettlementRecovered s := by
  cases hread : s.reader with
  | recovering => exact settles_of_step_top h (by simp [settlementStep, advanceReader, hread])
  | top => exact settles_of_top h hread
  | pausing => exact settles_of_wait h (.inl hread)
  | reading => exact here ⟨h.live, h.closed, hread⟩
  | sending rest => exact settles_of_sending rest h hread
  | sleeping => exact settles_of_wait h (.inr hread)
  | stopped =>
    exact absurd (h.live.symm.trans (h.sound.reader hread)) Bool.false_ne_true

/-- With an open breaker it does not. -/
theorem not_settles_of_opened (h : s.breaker.state = .opened) :
    ¬ CanReach (settlementStep cfg) SettlementRecovered s := by
  have hkept : ∀ (s : SettlementLoops ι) (action : SettlementAction ι),
      s.breaker.state = .opened → (settlementStep cfg s action).breaker.state = .opened :=
    fun _ action hs => opened_settlementStep hs action
  apply not_canReach_of_kept hkept ?_ h
  intro s hs hrecovered
  exact CircuitState.noConfusion (hs.symm.trans hrecovered.closed)

/-- Before the context ends, there is a continuation that closes the breaker and reads from the stream
exactly when the breaker is not open. -/
theorem settles_iff (hsound : SettlementSound s) (hlive : s.cancelled = false) :
    CanReach (settlementStep cfg) SettlementRecovered s ↔ s.breaker.state ≠ .opened := by
  constructor
  · intro hreach hopen
    exact not_settles_of_opened hopen hreach
  · intro hnotOpen
    have hclose : s.breaker.state = .closed := by
      cases hstate : s.breaker.state with
      | closed => rfl
      | opened => exact absurd hstate hnotOpen
      | halfOpen => exact absurd hstate hsound.notHalf
    exact settles_of_closed ⟨hlive, hclose, hsound⟩

end

/-- In every state that is reached before the context ends, a continuation closes the breaker and reads
from the stream exactly when the breaker is not open or, in the stream consumer, a worker is past
`pauseStreamReads` and still to call `Allow`. -/
theorem breaker_recovers_iff {ι κ : Type*} [DecidableEq ι] [DecidableEq κ] [Nonempty ι]
    (cfg : LoopConfig ι) (settlement : SettlementConfig κ) (failThreshold : Int32) (openTimeout : ℤ) :
    (∀ actions, let s := run (loopStep cfg) (ConsumerLoops.start failThreshold openTimeout) actions
      s.cancelled = false →
        (CanReach (loopStep cfg) Recovered s ↔
          s.breaker.state ≠ .opened ∨ ∃ w, (s.workers w).phase.pastGuard = true)) ∧
    (∀ actions,
      let s := run (settlementStep settlement) (SettlementLoops.start failThreshold openTimeout) actions
      s.cancelled = false →
        (CanReach (settlementStep settlement) SettlementRecovered s ↔ s.breaker.state ≠ .opened)) :=
  ⟨fun _ => recovers_iff (run_invariant (fun _ action h => h.step action) (supervised_start _ _) _),
    fun _ => settles_iff (run_invariant (fun _ action h => h.step action) (settlementSound_start _ _) _)⟩

/-- One worker with batches of one message. -/
def oneWorker : LoopConfig Unit := ⟨fun _ => "c-w0", 1, 1000000000⟩

/-- One lane with batches of one message. -/
def oneLane : SettlementConfig Unit := ⟨"c-reader", fun _ => "c-lane-0", 1, 1000000000⟩

/-- The worker reads a message and its flush is refused. -/
def refusedFlush : List (LoopAction Unit) :=
  [.advance (), .advance (), .advance (), .read () (.messages 1), .advance (),
    .flushed () (.refused 1), .advance ()]

/-- The lane gets a message and its flush is refused. -/
def refusedLaneFlush : List (SettlementAction Unit) :=
  [.reader, .reader, .read (.messages [()]), .reader, .take (), .flushed () .refused, .reader]

/-- A worker that waits for a message. -/
theorem breaker_recovers_reading :
    let s := run (loopStep oneWorker) (ConsumerLoops.start 1 1000000000)
      [.advance (), .advance (), .advance ()]
    s.cancelled = false ∧ (CanReach (loopStep oneWorker) Recovered s ↔
      s.breaker.state ≠ .opened ∨ ∃ w, (s.workers w).phase.pastGuard = true) :=
  ⟨rfl, (breaker_recovers_iff oneWorker oneLane 1 1000000000).1 _ rfl⟩

/-- One refused flush opens a breaker with the threshold one. The worker and the reader are at the top of
their loops, and no continuation closes it. -/
theorem breaker_stays_open :
    ¬ CanReach (loopStep oneWorker) Recovered
        (run (loopStep oneWorker) (ConsumerLoops.start 1 1000000000) refusedFlush) ∧
      ¬ CanReach (settlementStep oneLane) SettlementRecovered
        (run (settlementStep oneLane) (SettlementLoops.start 1 1000000000) refusedLaneFlush) := by
  constructor
  · apply not_recovers_of_stuckOpen
    refine ⟨by decide +kernel, ?_⟩
    rintro ⟨⟩
    decide +kernel
  · apply not_settles_of_opened
    decide +kernel

end Espx.Ingestion
