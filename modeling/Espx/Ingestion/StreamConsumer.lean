import Espx.Foundation.Pool
import Espx.Foundation.Run

/-!
# The stream consumer

`StreamConsumer` reads messages of a Redis stream, keeps their events in pooled objects, stores them in
batches, and acknowledges them or moves them to the dead-letter stream. The workers and the janitor share
one pool. An event is known by the id of its message; what the store, Redis and the pool answer is an
input of each step.
-/

namespace Espx.Ingestion

open Espx.Foundation

/-- How the consumer classifies an error: `errors.Is(err, context.Canceled)` and
`isRetriableStoreError`. -/
structure StoreError where
  canceled : Bool
  retriable : Bool
deriving DecidableEq

/-- What the consumer makes happen: the event of a message is stored in a successful `StoreBatch`; a
dead-letter entry for a message, with some event, is added; a message is acknowledged. -/
inductive Effect where
  | stored (event : String)
  | dead (id : String) (event : String)
  | acked (id : String)
deriving DecidableEq

/-- The pool of event objects. -/
abbrev EventPool := Pool String

/-- `parseMessage` for the messages of one read: the ids, each with the choice of the pool. -/
def parseMessages (pool : EventPool) (msgs : List (String × Option ℕ)) : List ℕ × EventPool :=
  pool.fillAll msgs

/-- `flushBatch`: the error and the effects, from the answers of the store and of `XAck`. -/
def flushBatch (contents : ℕ → String) (batch : List ℕ) (msgIDs : List String)
    (store xack : Option StoreError) : Option StoreError × List Effect :=
  if batch = [] then (none, [])
  else
    match store with
    | some err => (some err, [])
    | none => (xack, (batch.map contents).map .stored ++ msgIDs.map .acked)

/-- The result of `splitStoreBatch`, with the events of the parts that were stored. -/
structure Split where
  successIdx : List ℕ
  failIdx : List ℕ
  stored : List String

/-- `splitStoreBatch` on the part of a batch from `baseIdx`. The store answers by the start and the length
of a part; the fuel is the length of the batch. -/
def splitStoreBatch (answer : ℕ → ℕ → Option StoreError) : ℕ → List String → ℕ → Split
  | 0, _, _ => ⟨[], [], []⟩
  | fuel + 1, batch, baseIdx =>
    if batch = [] then ⟨[], [], []⟩
    else
      match answer baseIdx batch.length with
      | none => ⟨List.range' baseIdx batch.length, [], batch⟩
      | some err =>
        if err.retriable then ⟨[], List.range' baseIdx batch.length, []⟩
        else if batch.length = 1 then ⟨[], [baseIdx], []⟩
        else
          let mid := batch.length / 2
          let left := splitStoreBatch answer fuel (batch.take mid) baseIdx
          let right := splitStoreBatch answer fuel (batch.drop mid) (baseIdx + mid)
          ⟨left.successIdx ++ right.successIdx, left.failIdx ++ right.failIdx,
            left.stored ++ right.stored⟩

/-- What happens during one `moveToDLQ`: which entries cannot be marshalled, which commands of the write
pipeline fail, and the errors of the two pipelines. -/
structure DLQAnswers where
  marshalFails : ℕ → Bool
  xaddFails : ℕ → Bool
  execErr : Bool
  ackErr : Bool

/-- The entries of the list whose place, counted from `i`, does not fail. -/
def keepPlaces {α : Type*} (fails : ℕ → Bool) : ℕ → List α → List α
  | _, [] => []
  | i, x :: rest => if fails i then keepPlaces fails (i + 1) rest else x :: keepPlaces fails (i + 1) rest

/-- `moveToDLQ`: whether it returns an error, and the effects. Entries that were marshalled form the write
pipeline, whose results are matched with their ids by place. -/
def moveToDLQ (contents : ℕ → String) (batch : List ℕ) (msgIDs : List String)
    (dlq : DLQAnswers) : Bool × List Effect :=
  let written := keepPlaces dlq.marshalFails 0 (batch.zip msgIDs)
  if written = [] then (false, [])
  else
    let added := keepPlaces dlq.xaddFails 0 written
    let effects := added.map (fun entry => .dead entry.2 (contents entry.1)) ++
      added.map (fun entry => .acked entry.2)
    (added ≠ [] ∧ dlq.ackErr ∨ dlq.execErr ∨ added.length < written.length, effects)

/-- The batch of a worker with its message ids, the number of retries and the next wait. -/
structure Held where
  batch : List ℕ
  msgIDs : List String
  retryCount : ℤ
  retryWait : ℕ

/-- The configuration of the consumer. -/
structure ConsumerConfig where
  maxRetries : ℤ
  retryInitWait : ℕ
  retryMaxWait : ℕ

/-- What happens during one `tryFlush`: the breaker, the store, `XAck`, the retry counters by place (0
where the command failed), the store during the decomposition, the dead-letter stream, and whether the
context ends during a wait. -/
structure FlushAnswers where
  allowed : Bool
  store : Option StoreError
  xack : Option StoreError
  incr : ℕ → ℤ
  answer : ℕ → ℕ → Option StoreError
  dlq : DLQAnswers
  done : Bool

/-- What a call leaves: the batch, the objects that it put back, in order, and its effects. -/
structure Flushed where
  held : Held
  released : List ℕ
  effects : List Effect

/-- A hundred milliseconds. -/
def firstRetryWait : ℕ := 100000000

/-- The batch after it was stored or moved away. -/
def Held.cleared : Held := ⟨[], [], 0, firstRetryWait⟩

/-- The wait before the next attempt is doubled, up to its maximum. -/
def Held.backOff (cfg : ConsumerConfig) (done : Bool) (held : Held) : Held :=
  if done then held else { held with retryWait := min (2 * held.retryWait) cfg.retryMaxWait }

/-- The retry counters of the messages of a batch. -/
def incrValues (incr : ℕ → ℤ) (held : Held) : List ℤ := (List.range held.msgIDs.length).map incr

/-- Some message was retried more often than allowed. -/
def hasPoisonPill (cfg : ConsumerConfig) (incr : ℕ → ℤ) (held : Held) : Bool :=
  (incrValues incr held).any fun value => cfg.maxRetries < value

/-- The number of retries after one more failure. -/
def nextRetryCount (incr : ℕ → ℤ) (held : Held) : ℤ :=
  max (held.retryCount + 1) ((incrValues incr held).foldl max 0)

/-- The compaction loop of `tryFlush`: the entries at the failed indices are written to the places from
`k` on of the array they are read from. -/
def compact {α : Type*} : List α → ℕ → List ℕ → List α
  | array, _, [] => array
  | array, k, i :: rest =>
    match array[i]? with
    | some x => compact (array.set k x) (k + 1) rest
    | none => compact array (k + 1) rest

/-- The release loop of `tryFlush` over an array from index `i` on: the entries at indices other than
the failed ones. -/
def releaseOthers {α : Type*} : List α → ℕ → List ℕ → List α
  | [], _, _ => []
  | e :: rest, i, [] => e :: releaseOthers rest (i + 1) []
  | e :: rest, i, f :: fs =>
    if i = f then releaseOthers rest (i + 1) fs else e :: releaseOthers rest (i + 1) (f :: fs)

/-- The part of `tryFlush` after the decomposition: stored messages are acknowledged and the others moved
to the dead-letter stream; when that fails they are kept, in place. -/
def settleSplit (contents : ℕ → String) (dlq : DLQAnswers) (held : Held) (split : Split) : Flushed :=
  let effects := split.stored.map .stored ++ (split.successIdx.filterMap (held.msgIDs[·]?)).map .acked
  if split.failIdx = [] then ⟨.cleared, held.batch, effects⟩
  else
    let failedBatch := split.failIdx.filterMap (held.batch[·]?)
    let failedMsgIDs := split.failIdx.filterMap (held.msgIDs[·]?)
    let (failed, dlqEffects) := moveToDLQ contents failedBatch failedMsgIDs dlq
    if failed then
      let array := compact held.batch 0 split.failIdx
      let idArray := compact held.msgIDs 0 split.failIdx
      ⟨{ held with
          batch := array.take split.failIdx.length
          msgIDs := idArray.take split.failIdx.length },
        releaseOthers array 0 split.failIdx, effects ++ dlqEffects⟩
    else ⟨.cleared, held.batch, effects ++ dlqEffects⟩

/-- `tryFlush` for a given result of the decomposition. -/
def tryFlushSplit (cfg : ConsumerConfig) (contents : ℕ → String) (answers : FlushAnswers)
    (split : Split) (held : Held) : Flushed :=
  if answers.allowed = false then ⟨held, [], []⟩
  else
    match flushBatch contents held.batch held.msgIDs answers.store answers.xack with
    | (none, effects) => ⟨.cleared, held.batch, effects⟩
    | (some err, effects) =>
      if err.canceled then ⟨held, [], effects⟩
      else
        let counted := { held with retryCount := nextRetryCount answers.incr held }
        if hasPoisonPill cfg answers.incr held = false ∨ err.retriable then
          ⟨counted.backOff cfg answers.done, [], effects⟩
        else
          let settled := settleSplit contents answers.dlq counted split
          ⟨settled.held, settled.released, effects ++ settled.effects⟩

/-- `tryFlush`. -/
def tryFlush (cfg : ConsumerConfig) (contents : ℕ → String) (answers : FlushAnswers)
    (held : Held) : Flushed :=
  tryFlushSplit cfg contents answers
    (splitStoreBatch answers.answer held.batch.length (held.batch.map contents) 0) held

/-- One round of `recoverPending` or `drainNewMessages`: the messages read (none where the read fails),
and what the store, `XAck` and the dead-letter stream answer. -/
structure Round where
  msgs : List (String × Option ℕ)
  store : Option StoreError
  xack : Option StoreError
  dlq : DLQAnswers

/-- `recoverPending`. -/
def recoverPending : EventPool → List Round → EventPool × List Effect
  | pool, [] => (pool, [])
  | pool, round :: rest =>
    if round.msgs = [] then (pool, [])
    else
      let (batch, pool) := parseMessages pool round.msgs
      let msgIDs := round.msgs.map Prod.fst
      match flushBatch pool.contents batch msgIDs round.store round.xack with
      | (none, effects) =>
        let (pool, more) := recoverPending (pool.putAll batch) rest
        (pool, effects ++ more)
      | (some err, effects) =>
        if err.canceled ∨ err.retriable then (pool.putAll batch, effects)
        else
          let (_, dlqEffects) := moveToDLQ pool.contents batch msgIDs round.dlq
          (pool.putAll batch, effects ++ dlqEffects)

/-- `drainNewMessages`. -/
def drainNewMessages : EventPool → List Round → EventPool × List Effect
  | pool, [] => (pool, [])
  | pool, round :: rest =>
    if round.msgs = [] then (pool, [])
    else
      let (batch, pool) := parseMessages pool round.msgs
      let msgIDs := round.msgs.map Prod.fst
      match flushBatch pool.contents batch msgIDs round.store round.xack with
      | (none, effects) =>
        let (pool, more) := drainNewMessages (pool.putAll batch) rest
        (pool, effects ++ more)
      | (some _, effects) => (pool.putAll batch, effects)

/-- One round of `claimStuckMessages`, with the retry counters of its messages by place. -/
structure ClaimRound extends Round where
  incr : ℕ → ℤ

/-- `claimStuckMessages`; the loop ends with the last round. -/
def claimStuckMessages (cfg : ConsumerConfig) : EventPool → List ClaimRound → EventPool × List Effect
  | pool, [] => (pool, [])
  | pool, round :: rest =>
    let (events, pool) := parseMessages pool round.msgs
    let entries := events.zip (round.msgs.map Prod.fst)
    let exceeded := fun i => decide (cfg.maxRetries < round.incr i)
    let (dlqBatch, dlqMsgIDs) := (keepPlaces (fun i => !exceeded i) 0 entries).unzip
    let (batch, msgIDs) := (keepPlaces exceeded 0 entries).unzip
    let dlqEffects := (moveToDLQ pool.contents dlqBatch dlqMsgIDs round.dlq).2
    let pool := pool.putAll dlqBatch
    let effects := (flushBatch pool.contents batch msgIDs round.store round.xack).2
    let (pool, more) := claimStuckMessages cfg (pool.putAll batch) rest
    (pool, dlqEffects ++ effects ++ more)

section

variable {ι : Type*} [DecidableEq ι]

/-- The pool, the batches of the workers, and what happened outside. -/
structure Consumer (ι : Type*) where
  pool : EventPool
  workers : ι → Held
  trace : List Effect

/-- The steps of the workers and of the janitor. -/
inductive ConsumerAction (ι : Type*) where
  | read (worker : ι) (msgs : List (String × Option ℕ))
  | tryFlush (worker : ι) (answers : FlushAnswers)
  | stop (worker : ι) (store xack : Option StoreError)
  | recoverPending (rounds : List Round)
  | drainNewMessages (rounds : List Round)
  | claimStuckMessages (rounds : List ClaimRound)

/-- The batch of a worker is replaced. -/
def Consumer.setWorker (s : Consumer ι) (worker : ι) (held : Held) : Consumer ι :=
  { s with workers := Function.update s.workers worker held }

/-- One step. The worker loop appends what it reads to its batch; at the end of its context it flushes,
and returns the objects only when that succeeds. -/
def consumerStep (cfg : ConsumerConfig) (s : Consumer ι) : ConsumerAction ι → Consumer ι
  | .read worker msgs =>
    let held := s.workers worker
    let (objs, pool) := parseMessages s.pool msgs
    { s with pool := pool }.setWorker worker
      { held with batch := held.batch ++ objs, msgIDs := held.msgIDs ++ msgs.map Prod.fst }
  | .tryFlush worker answers =>
    let flushed := tryFlush cfg s.pool.contents answers (s.workers worker)
    { s with
      pool := s.pool.putAll flushed.released
      trace := s.trace ++ flushed.effects }.setWorker worker flushed.held
  | .stop worker store xack =>
    let held := s.workers worker
    let (err, effects) := flushBatch s.pool.contents held.batch held.msgIDs store xack
    { s with
      pool := if err = none then s.pool.putAll held.batch else s.pool
      trace := s.trace ++ effects }.setWorker worker { held with batch := [], msgIDs := [] }
  | .recoverPending rounds =>
    let (pool, effects) := recoverPending s.pool rounds
    { s with pool := pool, trace := s.trace ++ effects }
  | .drainNewMessages rounds =>
    let (pool, effects) := drainNewMessages s.pool rounds
    { s with pool := pool, trace := s.trace ++ effects }
  | .claimStuckMessages rounds =>
    let (pool, effects) := claimStuckMessages cfg s.pool rounds
    { s with pool := pool, trace := s.trace ++ effects }

/-- A started consumer, with an empty pool and no messages. -/
def Consumer.start (cfg : ConsumerConfig) : Consumer ι :=
  ⟨⟨fun _ => "", [], 0⟩, fun _ => ⟨[], [], 0, cfg.retryInitWait⟩, []⟩

end

end Espx.Ingestion
