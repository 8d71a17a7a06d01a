import Espx.Foundation.Run

/-!
# The circuit breaker and the loops around it

The workers of a `StreamConsumer` share one breaker: `pauseStreamReads` at the top of their loop looks at
its state, `tryFlush` asks it for permission and reports to it, and so do the recovery of pending messages
and the janitor. Time is a number of nanoseconds that only grows; what Redis and the store answer is an
input of each step.
-/

namespace Espx.Ingestion

/-- `CircuitState`. -/
inductive CircuitState where
  | closed
  | opened
  | halfOpen
deriving DecidableEq

/-- `CircuitBreaker`; an id without an entry in the map of failures has none. -/
structure CircuitBreaker where
  state : CircuitState
  failures : String → Int32
  lastOpenedAt : ℤ
  failThreshold : Int32
  openTimeout : ℤ

/-- `NewCircuitBreaker`. -/
def newCircuitBreaker (failThreshold : Int32) (openTimeout : ℤ) : CircuitBreaker :=
  ⟨.closed, fun _ => 0, 0, failThreshold, openTimeout⟩

/-- `Allow`. -/
def CircuitBreaker.allow (cb : CircuitBreaker) (now : ℤ) : Bool × CircuitBreaker :=
  match cb.state with
  | .closed => (true, cb)
  | .opened =>
    if cb.openTimeout ≤ now - cb.lastOpenedAt then (true, { cb with state := .halfOpen })
    else (false, cb)
  | .halfOpen => (false, cb)

/-- `RecordSuccess`. -/
def CircuitBreaker.recordSuccess (cb : CircuitBreaker) (workerID : String) : CircuitBreaker :=
  if cb.state = .halfOpen then { cb with failures := fun _ => 0, state := .closed }
  else { cb with failures := Function.update cb.failures workerID 0 }

/-- `RecordFailure`. -/
def CircuitBreaker.recordFailure (cb : CircuitBreaker) (now : ℤ) (workerID : String) :
    CircuitBreaker :=
  let failures := Function.update cb.failures workerID (cb.failures workerID + 1)
  if cb.state = .halfOpen then
    { cb with failures := failures, state := .opened, lastOpenedAt := now }
  else if cb.failThreshold ≤ failures workerID ∧ cb.state ≠ .opened then
    { cb with failures := failures, state := .opened, lastOpenedAt := now }
  else { cb with failures := failures }

/-- `RecordCancellation`. -/
def CircuitBreaker.recordCancellation (cb : CircuitBreaker) (now : ℤ) : CircuitBreaker :=
  if cb.state = .halfOpen then { cb with state := .opened, lastOpenedAt := now } else cb

/-- `WaitDuration`. -/
def CircuitBreaker.waitDuration (cb : CircuitBreaker) (now : ℤ) : ℤ :=
  if cb.state ≠ .opened then 0 else max 0 (cb.openTimeout - (now - cb.lastOpenedAt))

/-- The wait of `pauseStreamReads` and of `tryFlush`: what the breaker says, or a tenth of a
second. -/
def CircuitBreaker.pause (cb : CircuitBreaker) (now : ℤ) : ℤ :=
  if cb.waitDuration now ≤ 0 then 100000000 else cb.waitDuration now

section

variable {ι : Type*} [DecidableEq ι]

/-- Where a worker is in its loop. -/
inductive WorkerPhase where
  /-- In the `recoverPending` before the loop. -/
  | recovering
  /-- At the top of the loop, before `pauseStreamReads`. -/
  | top
  /-- In the wait of `pauseStreamReads`. -/
  | pausing
  /-- Past `pauseStreamReads` and the test of the context, before the read. -/
  | reading
  /-- In `XReadGroup`. -/
  | blocked
  /-- The messages are in the batch; before the test whether to flush. -/
  | received
  /-- In a wait: after a denied flush, or after a failed read. -/
  | waiting (denied : Bool)
  /-- In `flushBatch`, with the permission of the breaker. -/
  | flushing
  /-- In the rest of `tryFlush`, after the report to the breaker. -/
  | settling
  /-- In the flushes at the end of the context. -/
  | draining
  /-- The worker has returned. -/
  | stopped
deriving DecidableEq

/-- A worker: its phase, the length of its batch, its last flush and the end of its wait. -/
structure Worker where
  phase : WorkerPhase
  batch : ℤ
  lastFlush : ℤ
  wake : ℤ

/-- The configuration of the loops. -/
structure LoopConfig (ι : Type*) where
  workerID : ι → String
  batchSize : ℤ
  flushInt : ℤ

/-- The clock, whether the context has ended, the breaker and the workers. -/
structure ConsumerLoops (ι : Type*) where
  now : ℤ
  cancelled : Bool
  breaker : CircuitBreaker
  workers : ι → Worker

/-- What `XReadGroup` returns: up to so many messages as were asked for, nothing in time, or another
error. -/
inductive ReadAnswer where
  | messages (count : ℕ)
  | nothing
  | failed

/-- What `flushBatch` returns in `tryFlush`; a refused batch keeps some of its messages. -/
inductive FlushAnswer where
  | stored
  | canceled
  | refused (kept : ℕ)

/-- The steps: time passes, the context ends, the janitor flushes claimed messages, a worker flushes
pending messages, goes on by itself, or gets an answer. -/
inductive LoopAction (ι : Type*) where
  | tick (duration : ℕ)
  | cancel
  | janitor (stored : Bool)
  | recover (worker : ι) (stored : Bool)
  | advance (worker : ι)
  | read (worker : ι) (answer : ReadAnswer)
  | flushed (worker : ι) (answer : FlushAnswer)

/-- A worker is replaced. -/
def ConsumerLoops.setWorker (s : ConsumerLoops ι) (w : ι) (worker : Worker) : ConsumerLoops ι :=
  { s with workers := Function.update s.workers w worker }

/-- The start of `tryFlush`: the breaker is asked. -/
def ConsumerLoops.tryFlush (s : ConsumerLoops ι) (w : ι) (worker : Worker) : ConsumerLoops ι :=
  let (allowed, breaker) := s.breaker.allow s.now
  let worker := if allowed then { worker with phase := .flushing }
    else { worker with phase := .waiting true, wake := s.now + breaker.pause s.now }
  { s with breaker := breaker }.setWorker w worker

/-- The time since the last flush of a worker has reached the flush interval. -/
def flushDue (cfg : LoopConfig ι) (s : ConsumerLoops ι) (worker : Worker) : Bool :=
  cfg.flushInt ≤ s.now - worker.lastFlush

/-- A worker goes on by itself. -/
def advanceWorker (cfg : LoopConfig ι) (s : ConsumerLoops ι) (w : ι) : ConsumerLoops ι :=
  let worker := s.workers w
  match worker.phase with
  | .recovering => s.setWorker w { worker with phase := .top, lastFlush := s.now }
  | .top =>
    if s.breaker.state ≠ .opened then
      s.setWorker w { worker with phase := if s.cancelled then .draining else .reading }
    else s.setWorker w { worker with phase := .pausing, wake := s.now + s.breaker.pause s.now }
  | .pausing =>
    if s.cancelled then s.setWorker w { worker with phase := .draining }
    else if worker.wake ≤ s.now then s.setWorker w { worker with phase := .top }
    else s
  | .reading =>
    if cfg.batchSize - worker.batch ≤ 0 then s.tryFlush w worker
    else if worker.batch ≠ 0 ∧ flushDue cfg s worker then s.tryFlush w worker
    else s.setWorker w { worker with phase := .blocked }
  | .received =>
    if cfg.batchSize ≤ worker.batch ∨ flushDue cfg s worker then s.tryFlush w worker
    else s.setWorker w { worker with phase := .top }
  | .waiting denied =>
    if s.cancelled ∨ worker.wake ≤ s.now then
      s.setWorker w { worker with
        phase := .top, lastFlush := if denied then s.now else worker.lastFlush }
    else s
  | .settling => s.setWorker w { worker with phase := .top, lastFlush := s.now }
  | .draining => s.setWorker w { worker with phase := .stopped, batch := 0 }
  | .blocked | .flushing | .stopped => s

/-- A worker in `XReadGroup` gets an answer. -/
def readAnswered (cfg : LoopConfig ι) (s : ConsumerLoops ι) (w : ι) (answer : ReadAnswer) :
    ConsumerLoops ι :=
  let worker := s.workers w
  if worker.phase ≠ .blocked then s
  else
    match answer with
    | .messages count =>
      let batch := worker.batch + min (count : ℤ) (cfg.batchSize - worker.batch)
      s.setWorker w { worker with
        phase := .received
        batch := batch
        lastFlush := if worker.batch = 0 ∧ 0 < batch then s.now else worker.lastFlush }
    | .nothing =>
      if 0 < worker.batch ∧ flushDue cfg s worker then s.tryFlush w worker
      else s.setWorker w { worker with phase := .top }
    | .failed =>
      s.setWorker w { worker with phase := .waiting false, wake := s.now + 1000000000 }

/-- A worker in `flushBatch` gets an answer and reports it to the breaker. -/
def flushAnswered (cfg : LoopConfig ι) (s : ConsumerLoops ι) (w : ι) (answer : FlushAnswer) :
    ConsumerLoops ι :=
  let worker := s.workers w
  if worker.phase ≠ .flushing then s
  else
    match answer with
    | .stored =>
      { s with breaker := s.breaker.recordSuccess (cfg.workerID w) }.setWorker w
        { worker with phase := .settling, batch := 0 }
    | .canceled =>
      { s with breaker := s.breaker.recordCancellation s.now }.setWorker w
        { worker with phase := .settling }
    | .refused kept =>
      { s with breaker := s.breaker.recordFailure s.now (cfg.workerID w) }.setWorker w
        { worker with phase := .settling, batch := min (kept : ℤ) worker.batch }

/-- The report of a flush outside of `tryFlush`. -/
def reportFlush (s : ConsumerLoops ι) (workerID : String) (stored : Bool) : ConsumerLoops ι :=
  { s with breaker :=
      if stored then s.breaker.recordSuccess workerID else s.breaker.recordFailure s.now workerID }

/-- One step of the loops. -/
def loopStep (cfg : LoopConfig ι) (s : ConsumerLoops ι) : LoopAction ι → ConsumerLoops ι
  | .tick duration => { s with now := s.now + duration }
  | .cancel => { s with cancelled := true }
  | .janitor stored => reportFlush s "janitor" stored
  | .recover w stored =>
    if (s.workers w).phase = .recovering ∨ (s.workers w).phase = .draining then
      let s := reportFlush s (cfg.workerID w) stored
      if stored then s else advanceWorker cfg s w
    else s
  | .advance w => advanceWorker cfg s w
  | .read w answer => readAnswered cfg s w answer
  | .flushed w answer => flushAnswered cfg s w answer

/-- The loops when the consumer is started. -/
def ConsumerLoops.start (failThreshold : Int32) (openTimeout : ℤ) : ConsumerLoops ι :=
  ⟨0, false, newCircuitBreaker failThreshold openTimeout, fun _ => ⟨.recovering, 0, 0, 0⟩⟩

end

end Espx.Ingestion
