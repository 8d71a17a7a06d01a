import Espx.Dedup.Adapter
import Espx.Settlement.System

/-!
# Operation leases

The lease tables, the quorum store in Redis, and the functions of the lease worker that book a lease and
count its quorum. A replica set has one lease per attempt, whatever operation it is for: booking a second
operation violates a constraint, which `isPgUnavailable` takes for an outage, so the booking goes to Redis
instead and is reported as made.

A request of the region relay has one replica node and none of its own to acknowledge it; the loops over
both are left out. Times are seconds of the database clock.
-/

namespace Espx.ControlPlane

open Espx.Foundation Espx.Domain Espx.Dedup Espx.Settlement

/-- `LeaseState`. -/
inductive LeaseState
  | booked
  | executing
  | completed
  | expired
  deriving DecidableEq, Repr

/-- A row of `operation_leases`. The column `dedup_scope` is the scope as `DecodeLeaseDedupScope` reads
it. -/
structure OperationLease where
  replicaSetID : UUID
  attempt : ℕ
  factorU : UUID
  dedupScope : Scope
  state : LeaseState
  executorNodeID : Option String
  fencingEpoch : ℕ
  deadlineAt : ℕ

/-- What the quorum store holds of an operation: the replica count and the nodes that acknowledged. -/
structure QuorumLease where
  replicaCount : ℕ
  acks : Finset String

/-- The lease tables, the quorum store and the database clock. A replica row is a node, and whether it
has acknowledged the booking. -/
structure LeaseStore where
  leases : Table UUID OperationLease
  replicas : UUID → List (String × Bool)
  quorum : UUID → Option QuorumLease
  now : ℕ

/-- The errors of the lease worker and of the relay that calls it. -/
inductive LeaseError
  | opKeyPoolShed
  | opIDRequired
  | replicaSetRequired
  | nodeIDRequired
  | leaseQuorumNotMet
  | deliveryQuorumNotMet
  | callFailed
  | noRows
  | notExecuting
  | expiredDeadline
  | executorMismatch
  | staleFencingEpoch
  | guard (err : GuardError)
  deriving DecidableEq, Repr

/-- The errors of a statement, as `isPgUnavailable` tells them apart. A violated constraint is one of
the first kind. -/
inductive PgError
  | unavailable
  | cancelled
  deriving DecidableEq, Repr

/-- The configuration of a lease worker and its service. -/
structure LeaseNode where
  cfgNodeID : String
  hostname : String
  hasRedis : Bool
  timeoutSec : ℕ
  timeout_pos : 0 < timeoutSec

/-- `nodeID` of the worker. -/
def LeaseNode.nodeID (node : LeaseNode) : String :=
  if node.cfgNodeID = "" then node.hostname else node.cfgNodeID

/-- `leaseReplicaNodes`, which is always one node. -/
def LeaseNode.leaseReplicaNode (node : LeaseNode) : String :=
  if node.cfgNodeID = "" then "management" else node.cfgNodeID

section

/-- `OperationLeaseBookResult`, without the lease, which no caller here reads. -/
structure OperationLeaseBookResult where
  ackCount : ℕ
  quorum : ℕ
  quorumMet : Bool

/-- The zero result that accompanies an error. -/
def emptyBookResult : OperationLeaseBookResult := ⟨0, 0, false⟩

/-- `QuorumRequired`, which is also `Required` of the quorum store. -/
def quorumRequired (replicaCount : ℕ) : ℕ := if replicaCount ≤ 1 then 1 else 2

/-- The result of a count. -/
def countedResult (replicaCount ackCount : ℕ) : OperationLeaseBookResult where
  ackCount := ackCount
  quorum := quorumRequired replicaCount
  quorumMet := quorumRequired replicaCount ≤ ackCount

/-- `readStatus` of the quorum store: a stored replica count comes before the caller's. -/
def readStatus (opID : UUID) (replicaCount : ℕ) (s : LeaseStore) : OperationLeaseBookResult :=
  match s.quorum opID with
  | none => countedResult replicaCount 0
  | some lease =>
    countedResult (if 0 < lease.replicaCount then lease.replicaCount else replicaCount) lease.acks.card

/-- What a quorum check meets: whether Postgres answers a ping, the errors of the two counts, and whether
Redis answers. -/
structure QuorumInput where
  ping : Bool
  replicas : Option PgError
  acks : Option PgError
  redis : Bool

variable (node : LeaseNode) (opID : UUID)

/-- `quorumStatusRedis`. -/
def quorumStatusRedis (replicaCount : ℕ) (redis : Bool) (s : LeaseStore) :
    Except LeaseError OperationLeaseBookResult :=
  if ¬ node.hasRedis then .error .leaseQuorumNotMet
  else if ¬ redis then .error .callFailed
  else .ok (readStatus opID (if replicaCount = 0 then 1 else replicaCount) s)

/-- `quorumStatus`. -/
def quorumStatus (input : QuorumInput) (s : LeaseStore) : Except LeaseError OperationLeaseBookResult :=
  if ¬ input.ping then quorumStatusRedis node opID 3 input.redis s
  else
    match input.replicas with
    | some .unavailable => quorumStatusRedis node opID 3 input.redis s
    | some .cancelled => .error .callFailed
    | none =>
      match input.acks with
      | some .unavailable => quorumStatusRedis node opID (s.replicas opID).length input.redis s
      | some .cancelled => .error .callFailed
      | none => .ok (countedResult (s.replicas opID).length ((s.replicas opID).countP Prod.snd))

/-- `OperationLeaseBookRequest`, as far as booking reads it. -/
structure OperationLeaseBookRequest where
  opID : UUID
  replicaSetID : UUID
  attempt : ℕ
  factorU : UUID
  scope : Scope
  replicaNode : String

/-- What a booking meets: the first read, the watermark of the key pool, the first ping, the three
statements, the kind of their error, the second ping, the two pipelines of the quorum store, and the
quorum check. -/
structure BookInput where
  get : Bool
  shed : Bool
  ping : Bool
  insertLease : Reply
  insertReplica : Reply
  upsertAck : Reply
  err : PgError
  pingAfter : Bool
  redisBook : Reply
  redisRead : Bool
  quorum : QuorumInput

/-- The lease takes the place of a replica set and attempt. -/
def OperationLease.holds (lease : OperationLease) (replicaSetID : UUID) (attempt : ℕ) : Bool :=
  lease.replicaSetID = replicaSetID ∧ lease.attempt = attempt

namespace LeaseStore

variable (s : LeaseStore)

/-- `operation_leases_attempt_uniq` has an entry for the replica set and attempt. -/
def attemptTaken (replicaSetID : UUID) (attempt : ℕ) : Bool :=
  s.leases.rows.any fun row => row.2.holds replicaSetID attempt

/-- The row that `BookOperationLease` inserts. -/
def bookedLease (timeoutSec : ℕ) (req : OperationLeaseBookRequest) : OperationLease where
  replicaSetID := req.replicaSetID
  attempt := req.attempt
  factorU := req.factorU
  dedupScope := req.scope
  state := .booked
  executorNodeID := none
  fencingEpoch := 0
  deadlineAt := s.now + timeoutSec

/-- `BookOperationLease`, where no constraint is violated. -/
def insertLease (timeoutSec : ℕ) (req : OperationLeaseBookRequest) : LeaseStore :=
  { s with leases := s.leases.insert req.opID (s.bookedLease timeoutSec req) }

/-- `InsertOperationLeaseReplica`. -/
def insertReplica (opID : UUID) (nodeID : String) : LeaseStore :=
  if nodeID ∈ (s.replicas opID).map Prod.fst then s
  else
    { s with replicas := Function.update s.replicas opID ((nodeID, false) :: s.replicas opID) }

/-- `UpsertOperationLeaseReplicaBookAck`. -/
def upsertAck (opID : UUID) (nodeID : String) : LeaseStore :=
  let rest := (s.replicas opID).filter fun row => row.1 ≠ nodeID
  { s with replicas := Function.update s.replicas opID ((nodeID, true) :: rest) }

/-- The pipeline of the quorum store's `Book`. -/
def redisBook (opID : UUID) (replicaCount : ℕ) (nodeID : String) : LeaseStore :=
  let acks := ((s.quorum opID).map QuorumLease.acks).getD ∅
  { s with quorum := Function.update s.quorum opID (some ⟨replicaCount, insert nodeID acks⟩) }

end LeaseStore

variable (req : OperationLeaseBookRequest) (input : BookInput) (s : LeaseStore)

/-- `bookRedis`. -/
def bookRedis : OperationLeaseBookResult × Option LeaseError × LeaseStore :=
  if ¬ node.hasRedis then (emptyBookResult, some .leaseQuorumNotMet, s)
  else if node.nodeID = "" then (emptyBookResult, some .nodeIDRequired, s)
  else
    let booked := input.redisBook.after s (s.redisBook req.opID 1 node.nodeID)
    if input.redisBook ≠ .received ∨ ¬ input.redisRead then
      (emptyBookResult, some .callFailed, booked)
    else
      let result := readStatus req.opID 1 booked
      (result, if result.quorumMet then none else some .leaseQuorumNotMet, booked)

/-- The statements of `Book`, each of its own transaction. -/
def bookPg : Option PgError × LeaseStore :=
  if input.insertLease = .failed then (some input.err, s)
  else if (s.leases.get? req.opID).isSome ∨ s.attemptTaken req.replicaSetID req.attempt then
    (some (if input.insertLease = .received then .unavailable else input.err), s)
  else
    let inserted := s.insertLease node.timeoutSec req
    if input.insertLease = .lost then (some input.err, inserted)
    else
      let replica := input.insertReplica.after inserted (inserted.insertReplica req.opID req.replicaNode)
      if input.insertReplica ≠ .received then (some input.err, replica)
      else
        let acked := input.upsertAck.after replica (replica.upsertAck req.opID req.replicaNode)
        (if input.upsertAck = .received then none else some input.err, acked)

/-- `Book`. -/
def book : OperationLeaseBookResult × Option LeaseError × LeaseStore :=
  if input.shed then (emptyBookResult, some .opKeyPoolShed, s)
  else if req.opID = uuidNil then (emptyBookResult, some .opIDRequired, s)
  else if req.replicaSetID = uuidNil then (emptyBookResult, some .replicaSetRequired, s)
  else if ¬ input.ping then bookRedis node req input s
  else
    match bookPg node req input s with
    | (some err, booked) =>
      if ¬ input.pingAfter ∨ err = .unavailable then bookRedis node req input booked
      else (emptyBookResult, some .callFailed, booked)
    | (none, booked) =>
      match quorumStatus node req.opID input.quorum booked with
      | .error err => (emptyBookResult, some err, booked)
      | .ok result => (result, if result.quorumMet then none else some .leaseQuorumNotMet, booked)

/-- `EnsureBook`. -/
def ensureBook : Except LeaseError OperationLeaseBookResult × LeaseStore :=
  if ¬ input.get then (.error .callFailed, s)
  else
    match s.leases.get? req.opID with
    | some _ => (quorumStatus node req.opID input.quorum s, s)
    | none =>
      match book node req input s with
      | (result, none, booked) => (.ok result, booked)
      | (result, some .leaseQuorumNotMet, booked) => (.ok result, booked)
      | (_, some err, booked) => (.error err, booked)

end

section

/-- The `INSERT` of a booking is executed, constraints permitting. -/
def BookInput.inserts (input : BookInput) : Bool :=
  input.get ∧ ¬ input.shed ∧ input.ping ∧ input.insertLease ≠ .failed

/-- The three statements of a booking are executed. -/
def BookInput.completes (input : BookInput) : Bool :=
  input.insertLease = .received ∧ input.insertReplica = .received ∧ input.upsertAck ≠ .failed

/-- The lease tables and the clock are the same. -/
structure LeaseStore.SamePg (s s' : LeaseStore) : Prop where
  leases : s'.leases = s.leases
  replicas : s'.replicas = s.replicas
  now : s'.now = s.now

/-- A lease was inserted for the request, and no other operation's rows have changed. -/
structure LeaseStore.Booked (node : LeaseNode) (req : OperationLeaseBookRequest) (input : BookInput)
    (s s' : LeaseStore) : Prop where
  inserts : input.inserts = true
  free : s.leases.get? req.opID = none
  untaken : s.attemptTaken req.replicaSetID req.attempt = false
  leases : s'.leases = s.leases.insert req.opID (s.bookedLease node.timeoutSec req)
  now : s'.now = s.now
  others : ∀ opID, opID ≠ req.opID → s'.replicas opID = s.replicas opID
  acked : input.completes = true → s.replicas req.opID = [] →
    s'.replicas req.opID = [(req.replicaNode, true)]

variable {node : LeaseNode} {req : OperationLeaseBookRequest} {input : BookInput} {s : LeaseStore}
  {s' : LeaseStore} {opID : UUID}

/-- A taken attempt is that of a row. -/
theorem LeaseStore.attemptTaken_iff {replicaSetID : UUID} {attempt : ℕ} :
    s.attemptTaken replicaSetID attempt = true ↔
      ∃ opID lease, s.leases.get? opID = some lease ∧ lease.holds replicaSetID attempt = true := by
  rw [attemptTaken, List.any_eq_true]
  constructor
  · rintro ⟨⟨opID, lease⟩, hmem, hholds⟩
    exact ⟨opID, lease, s.leases.get?_of_mem hmem, hholds⟩
  · rintro ⟨opID, lease, hget, hholds⟩
    exact ⟨(opID, lease), s.leases.mem_of_get? hget, hholds⟩

/-- The quorum store is apart from the tables. -/
theorem LeaseStore.SamePg.bookRedis (h : s.SamePg s') : s.SamePg (bookRedis node req input s').2.2 := by
  have hafter : s.SamePg (input.redisBook.after s' (s'.redisBook req.opID 1 node.nodeID)) :=
    input.redisBook.after_of h ⟨h.leases, h.replicas, h.now⟩
  unfold ControlPlane.bookRedis
  split
  · exact h
  split
  · exact h
  split
  · exact hafter
  · exact hafter

/-- Only the replica rows of one operation have changed. -/
structure LeaseStore.RowsOnly (opID : UUID) (s s' : LeaseStore) : Prop where
  leases : s'.leases = s.leases
  now : s'.now = s.now
  others : ∀ other, other ≠ opID → s'.replicas other = s.replicas other

theorem LeaseStore.RowsOnly.insertReplica (h : s.RowsOnly opID s') (nodeID : String) :
    s.RowsOnly opID (s'.insertReplica opID nodeID) := by
  unfold LeaseStore.insertReplica
  split
  · exact h
  · refine ⟨h.leases, h.now, fun other hother => ?_⟩
    rw [← h.others other hother]
    exact Function.update_of_ne hother _ _

theorem LeaseStore.RowsOnly.upsertAck (h : s.RowsOnly opID s') (nodeID : String) :
    s.RowsOnly opID (s'.upsertAck opID nodeID) := by
  refine ⟨h.leases, h.now, fun other hother => ?_⟩
  rw [← h.others other hother]
  exact Function.update_of_ne hother _ _

theorem LeaseStore.replicas_insertReplica_upsertAck (nodeID : String) (h : s.replicas opID = []) :
    ((s.insertReplica opID nodeID).upsertAck opID nodeID).replicas opID = [(nodeID, true)] := by
  simp [insertReplica, LeaseStore.upsertAck, h]

/-- A booking in the tables. -/
theorem bookPg_cases (hget : input.get = true) (hshed : input.shed = false) (hping : input.ping = true) :
    s.SamePg (bookPg node req input s).2 ∨ s.Booked node req input (bookPg node req input s).2 := by
  by_cases hfail : input.insertLease = .failed
  · rw [bookPg, if_pos hfail]
    exact .inl ⟨rfl, rfl, rfl⟩
  by_cases hconf : (s.leases.get? req.opID).isSome ∨ s.attemptTaken req.replicaSetID req.attempt
  · rw [bookPg, if_neg hfail, if_pos hconf]
    exact .inl ⟨rfl, rfl, rfl⟩
  have hinserts : input.inserts = true := decide_eq_true ⟨hget, by simp [hshed], hping, hfail⟩
  obtain ⟨hfree, huntaken⟩ := not_or.mp hconf
  have hbook {s' : LeaseStore} (hrows : (s.insertLease node.timeoutSec req).RowsOnly req.opID s')
      (hacked : input.completes = true → s.replicas req.opID = [] →
        s'.replicas req.opID = [(req.replicaNode, true)]) : s.Booked node req input s' :=
    ⟨hinserts, Option.not_isSome_iff_eq_none.mp hfree, Bool.not_eq_true _ ▸ huntaken, hrows.leases,
      hrows.now, hrows.others, hacked⟩
  have hins : (s.insertLease node.timeoutSec req).RowsOnly req.opID
      (s.insertLease node.timeoutSec req) := ⟨rfl, rfl, fun _ _ => rfl⟩
  have hrep := input.insertReplica.after_of hins (hins.insertReplica req.replicaNode)
  right
  rw [bookPg, if_neg hfail, if_neg hconf]
  split
  · rename_i hlost
    refine hbook hins fun hdone => ?_
    simp [BookInput.completes, hlost] at hdone
  split
  · rename_i href
    refine hbook hrep fun hdone => ?_
    simp [BookInput.completes, href] at hdone
  refine hbook (input.upsertAck.after_of hrep (hrep.upsertAck req.replicaNode)) ?_
  intro hdone hnone
  obtain ⟨_, hrow, hack⟩ := of_decide_eq_true hdone
  rw [hrow]
  cases hups : input.upsertAck with
  | failed => exact absurd hups hack
  | received | lost =>
    exact (s.insertLease node.timeoutSec req).replicas_insertReplica_upsertAck _ hnone

/-- A booking. -/
theorem book_cases (hget : input.get = true) :
    s.SamePg (book node req input s).2.2 ∨ s.Booked node req input (book node req input s).2.2 := by
  have hsame : s.SamePg s := ⟨rfl, rfl, rfl⟩
  unfold book
  split
  · exact .inl hsame
  rename_i hshed
  split
  · exact .inl hsame
  split
  · exact .inl hsame
  split
  · exact .inl hsame.bookRedis
  rename_i hping
  have hpg := @bookPg_cases node req input s hget (Bool.eq_false_of_not_eq_true hshed) (not_not.mp hping)
  split
  · rename_i err booked hbook
    rw [hbook] at hpg
    split
    · rcases hpg with hkept | hbooked
      · exact .inl hkept.bookRedis
      have hredis : booked.SamePg (bookRedis node req input booked).2.2 :=
        LeaseStore.SamePg.bookRedis ⟨rfl, rfl, rfl⟩
      right
      refine ⟨hbooked.inserts, hbooked.free, hbooked.untaken, hredis.leases.trans hbooked.leases,
        hredis.now.trans hbooked.now, ?_, ?_⟩
      · rw [hredis.replicas]
        exact hbooked.others
      · rw [hredis.replicas]
        exact hbooked.acked
    · exact hpg
  · rename_i booked hbook
    rw [hbook] at hpg
    split
    · exact hpg
    · exact hpg

/-- What `EnsureBook` leaves: the tables as they were, or with one more lease. -/
theorem ensureBook_cases :
    s.SamePg (ensureBook node req input s).2 ∨
      s.Booked node req input (ensureBook node req input s).2 := by
  have hsame : s.SamePg s := ⟨rfl, rfl, rfl⟩
  unfold ensureBook
  split
  · exact .inl hsame
  rename_i hget
  have hbook := @book_cases node req input s (not_not.mp hget)
  split
  · exact .inl hsame
  split
  all_goals
    rename_i heq
    rw [heq] at hbook
    exact hbook

/-- All calls of a quorum check are answered by Postgres. -/
def QuorumInput.answered : QuorumInput := ⟨true, none, none, true⟩

/-- All calls of a booking are answered. -/
def BookInput.answered : BookInput where
  get := true
  shed := false
  ping := true
  insertLease := .received
  insertReplica := .received
  upsertAck := .received
  err := .unavailable
  pingAfter := true
  redisBook := .received
  redisRead := true
  quorum := .answered

theorem quorumStatus_answered {opID : UUID} {replica : String} (h : s.replicas opID = [(replica, true)]) :
    ∃ result, quorumStatus node opID .answered s = .ok result ∧ result.quorumMet = true := by
  refine ⟨countedResult 1 1, ?_, by decide⟩
  simp [quorumStatus, QuorumInput.answered, h]

/-- The tables after the three statements of a booking. -/
def LeaseStore.bookAcked (s : LeaseStore) (node : LeaseNode) (req : OperationLeaseBookRequest) :
    LeaseStore :=
  ((s.insertLease node.timeoutSec req).insertReplica req.opID req.replicaNode).upsertAck req.opID
    req.replicaNode

/-- A booking all of whose calls are answered, of an operation without a lease. -/
theorem book_answered (hop : req.opID ≠ uuidNil) (hset : req.replicaSetID ≠ uuidNil)
    (hfree : s.leases.get? req.opID = none)
    (huntaken : s.attemptTaken req.replicaSetID req.attempt = false) (hnone : s.replicas req.opID = []) :
    ∃ result, book node req .answered s = (result, none, s.bookAcked node req) ∧
      result.quorumMet = true := by
  have hrow : (s.bookAcked node req).replicas req.opID = [(req.replicaNode, true)] :=
    (s.insertLease node.timeoutSec req).replicas_insertReplica_upsertAck req.replicaNode hnone
  have hpg : bookPg node req .answered s = (none, s.bookAcked node req) := by
    simp [bookPg, BookInput.answered, hfree, huntaken, Reply.after, LeaseStore.bookAcked]
  obtain ⟨result, hstat, hmet⟩ := @quorumStatus_answered node _ req.opID req.replicaNode hrow
  refine ⟨result, ?_, hmet⟩
  rw [book, hpg]
  simp only [BookInput.answered, Bool.false_eq_true, if_false, if_neg hop, if_neg hset,
    not_true_eq_false, hstat, hmet, if_true]

/-- A booking all of whose calls are answered meets its quorum: where the operation has a lease, because
its only replica has acknowledged; where the attempt is free, because the booking node does. -/
theorem ensureBook_answered (hop : req.opID ≠ uuidNil) (hset : req.replicaSetID ≠ uuidNil)
    (h : ((s.leases.get? req.opID).isSome ∧ ∃ replica, s.replicas req.opID = [(replica, true)]) ∨
      (s.leases.get? req.opID = none ∧ s.attemptTaken req.replicaSetID req.attempt = false ∧
        s.replicas req.opID = [])) :
    ∃ result booked, ensureBook node req .answered s = (.ok result, booked) ∧
      result.quorumMet = true ∧ (booked.leases.get? req.opID).isSome := by
  have hget : BookInput.answered.get = true := rfl
  rcases h with ⟨hsome, replica, hrep⟩ | ⟨hfree, huntaken, hnone⟩
  · obtain ⟨lease, hlease⟩ := Option.isSome_iff_exists.mp hsome
    obtain ⟨result, hstat, hmet⟩ := @quorumStatus_answered node _ _ _ hrep
    refine ⟨result, s, ?_, hmet, hsome⟩
    rw [ensureBook, if_neg (not_not.mpr hget), hlease]
    exact congrArg (Prod.mk · s) hstat
  · obtain ⟨result, hbook, hmet⟩ := @book_answered node req s hop hset hfree huntaken hnone
    have hins : (s.insertLease node.timeoutSec req).RowsOnly req.opID
        (s.insertLease node.timeoutSec req) := ⟨rfl, rfl, fun _ _ => rfl⟩
    have hrows := (hins.insertReplica req.replicaNode).upsertAck req.replicaNode
    refine ⟨result, s.bookAcked node req, ?_, hmet, ?_⟩
    · rw [ensureBook, if_neg (not_not.mpr hget), hfree, hbook]
    · rw [LeaseStore.bookAcked, hrows.leases]
      exact Option.isSome_of_eq_some (s.leases.get?_insert_self _ hfree)

end

end Espx.ControlPlane
