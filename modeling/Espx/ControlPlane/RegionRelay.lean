import Espx.ControlPlane.OperationLeases
import Espx.Foundation.Run

/-!
# Leased deliveries of the region relay

`applyDeliveryLeased` books a lease for an outbox event, and `ExecuteOp` claims it, applies the event's
side effects and completes the lease. A call is cut in three, where others can come between: it books,
claims and executes. Each part is atomic, and each of its statements has an outcome of its own. The
handler of an event either is executed or not.

Three of the outcomes of `ExecuteOp` are silent: no quorum, a lease that is not there to be claimed, and
the end. The relay counts all three as delivered.
-/

namespace Espx.ControlPlane

open Espx.Foundation Espx.Domain Espx.Dedup Espx.Settlement

/-- What the program takes from libraries: `uuid.Parse`, `uuid.NewSHA1` in its namespace, and the hash of
`FactorU`. -/
structure Libraries where
  parse : String → Option UUID
  newSHA1 : String → UUID
  factorU : List UInt8 → UUID

/-- `RegionUUID`. -/
def regionUUID (lib : Libraries) (regionCode : UInt8) : UUID :=
  lib.newSHA1 ("espx-region:" ++ toString regionCode.toNat)

/-- `RegionUUID` of region 1. -/
def sampleRegionID : UUID :=
  #v[0x38, 0x69, 0x57, 0xca, 0x21, 0xcf, 0x58, 0x27, 0xb6, 0xdb, 0xfa, 0x0a, 0xf8, 0x7e, 0x0f, 0x63]

/-- `RegionOutboxRelay` of a region, and the outbox events, which never change. -/
structure RegionRelay where
  lib : Libraries
  regionCode : UInt8
  eventType : Int64 → String
  payload : Int64 → List UInt8

/-- `CanonicalRelayPayload`. -/
def canonicalRelayPayload (outboxEventID : Int64) (eventType : String) (payload : List UInt8) :
    List UInt8 :=
  ("relay|" ++ toString outboxEventID.toInt ++ "|" ++ eventType ++ "|").toUTF8.toList ++ payload

namespace RegionRelay

variable (r : RegionRelay)

/-- `RelaySourceID`. -/
def relaySourceID : UUID := r.lib.newSHA1 ("espx-relay:" ++ toString r.regionCode.toNat)

/-- `RelayDeliveryOpID`. -/
def relayDeliveryOpID (event : Int64) : UUID :=
  r.lib.newSHA1 ("espx-relay-op:" ++ toString r.regionCode.toNat ++ ":" ++ toString event.toInt)

/-- The replica set of the relay, which is the same for all events. -/
def replicaSetID : UUID := r.lib.newSHA1 ("espx-relay-set:" ++ toString r.regionCode.toNat)

/-- `RegionScope` of an event. -/
def regionScope (epoch : UInt32) (event : Int64) : Scope where
  regionID := regionUUID r.lib r.regionCode
  sourceID := r.relaySourceID
  sourceEpoch := epoch
  seqStart := event.toInt
  seqEnd := event.toInt

/-- `FactorU` of an event. -/
def factorU (event : Int64) : UUID :=
  r.lib.factorU (canonicalRelayPayload event (r.eventType event) (r.payload event))

/-- `RelayDeliveryBookRequest` with the attempt that the relay asks for. -/
def relayDeliveryBookRequest (node : LeaseNode) (epoch : UInt32) (event : Int64) :
    OperationLeaseBookRequest where
  opID := r.relayDeliveryOpID event
  replicaSetID := r.replicaSetID
  attempt := 1
  factorU := r.factorU event
  scope := r.regionScope epoch event
  replicaNode := node.leaseReplicaNode

end RegionRelay

/-- `ScopeWithAttempt`, on 64-bit numbers; its two branches for later attempts compute the same. -/
def scopeWithAttempt (scope : Scope) (attempt : ℕ) : Scope :=
  if attempt ≤ 1 then scope
  else
    { scope with
      seqStart := Int.bmod (scope.seqStart * 1000 + attempt) (2 ^ 64)
      seqEnd := Int.bmod (scope.seqEnd * 1000 + attempt) (2 ^ 64) }

/-- `DedupScopeForLease`. -/
def dedupScopeForLease (lease : OperationLease) : Scope :=
  scopeWithAttempt lease.dedupScope lease.attempt

/-- The leases, the fencing floor of each node for each replica set, the dedup tables, the region's rows
of `region_apply_idempotency`, its delivered rows, and the handled events. -/
structure RelayStore where
  tables : LeaseStore
  fencing : String → UUID → ℕ
  proposals : Table Scope Proposal
  pg : Pg
  regionApplied : Finset Int64
  delivered : Finset Int64
  handled : Finset Int64

/-- The side effects of the event have been applied in the region, and it is recorded there. -/
def RelayStore.applied (s : RelayStore) (event : Int64) : Bool :=
  event ∈ s.handled ∧ event ∈ s.regionApplied

/-- How far a call of `applyDeliveryLeased` is: it goes on to `ExecuteOp`, it has won the lease, it has
returned, or its process is gone. -/
inductive CallPhase
  | ensured
  | claimed
  | returned (err : Option LeaseError)
  | crashed
  deriving DecidableEq

/-- What the first part of `ExecuteOp` meets: its quorum check, its read of the lease, whether there is a
fencing registry, the next epoch (lost when it was counted and not written), and the claim. -/
structure ClaimInput where
  quorum : QuorumInput
  get : Bool
  registry : Bool
  next : Reply
  claim : Reply

/-- The fencing floor of a node after it has drawn the next epoch. -/
def RelayStore.raise (s : RelayStore) (node : LeaseNode) (replicaSetID : UUID) : RelayStore :=
  { s with
    fencing := Function.update s.fencing node.nodeID (Function.update (s.fencing node.nodeID)
      replicaSetID (s.fencing node.nodeID replicaSetID + 1)) }

/-- `nextFencingEpoch`. -/
def nextFencingEpoch (node : LeaseNode) (replicaSetID : UUID) (input : ClaimInput) (s : RelayStore) :
    Option ℕ × RelayStore :=
  if ¬ input.registry then (some 1, s)
  else
    (if input.next = .received then some (s.fencing node.nodeID replicaSetID + 1) else none,
      input.next.after s (s.raise node replicaSetID))

/-- The lease can be claimed: it is booked and its deadline is ahead. -/
def LeaseStore.claimable (s : LeaseStore) (lease : OperationLease) : Bool :=
  lease.state = .booked ∧ s.now < lease.deadlineAt

/-- `operation_lease_claim_executing`, where the lease can be claimed. -/
def LeaseStore.claimExecuting (s : LeaseStore) (opID : UUID) (nodeID : String) (epoch : ℕ) :
    LeaseStore :=
  { s with leases := s.leases.modify opID fun lease =>
      { lease with state := .executing, executorNodeID := some nodeID, fencingEpoch := epoch } }

/-- The claim of `ExecuteOp` on a lease that it has read. -/
def claimLease (node : LeaseNode) (opID : UUID) (lease : OperationLease) (input : ClaimInput)
    (s : RelayStore) : CallPhase × RelayStore :=
  match nextFencingEpoch node lease.replicaSetID input s with
  | (none, raised) => (.returned (some .callFailed), raised)
  | (some epoch, raised) =>
    let won := s.tables.claimable lease
    let tables := if won then s.tables.claimExecuting opID node.nodeID epoch else s.tables
    let claimed := input.claim.after raised { raised with tables := tables }
    if input.claim ≠ .received then (.returned (some .callFailed), claimed)
    else (if won then .claimed else .returned none, claimed)

/-- `ExecuteOp` up to and with its claim. -/
def claimOp (node : LeaseNode) (opID : UUID) (input : ClaimInput) (s : RelayStore) :
    CallPhase × RelayStore :=
  match quorumStatus node opID input.quorum s.tables with
  | .error err => (.returned (some err), s)
  | .ok quorum =>
    if ¬ quorum.quorumMet then (.returned none, s)
    else if ¬ input.get then (.returned (some .callFailed), s)
    else
      match s.tables.leases.get? opID with
      | none => (.returned (some .noRows), s)
      | some lease => claimLease node opID lease input s

/-- What the second part of `ExecuteOp` meets: its two reads of the lease with the clock at each, the
fencing registry, the dedup claim with its random factor, the reads of the two marks, the update of a
delivered row, the Redis key, the handler, the transaction, the mark, and the completion. -/
structure ExecuteInput where
  get : Bool
  now : ℕ
  registry : Bool
  confirm : Reply
  stale : Bool
  factorD : UUID
  resume : Bool
  getAgain : Bool
  nowAgain : ℕ
  already : Bool
  mark : Reply
  setNX : Option Bool
  handle : Reply
  tx : Reply
  record : Reply
  complete : Reply

/-- `AuthoritativeLeaseView`. -/
def authoritativeLeaseView (lease : OperationLease) (executorNodeID : String) (now : ℕ) :
    Option LeaseError :=
  if lease.state ≠ .executing then some .notExecuting
  else if ¬ now < lease.deadlineAt then some .expiredDeadline
  else if lease.executorNodeID ≠ some executorNodeID then some .executorMismatch
  else none

/-- `Validate` of the fencing registry. -/
def validateFencing (registry : Bool) (floor epoch : ℕ) : Option LeaseError :=
  if ¬ registry then some .callFailed
  else if floor ≠ 0 ∧ (epoch = 0 ∨ epoch < floor) then some .staleFencingEpoch
  else none

/-- The read of the lease, with the two checks that follow it each time. -/
def readLease (node : LeaseNode) (opID : UUID) (get : Bool) (now : ℕ) (registry : Bool)
    (s : RelayStore) : Except LeaseError OperationLease :=
  if ¬ get then .error .callFailed
  else
    match s.tables.leases.get? opID with
    | none => .error .noRows
    | some lease =>
      match authoritativeLeaseView lease node.nodeID now with
      | some err => .error err
      | none =>
        match validateFencing registry (s.fencing node.nodeID lease.replicaSetID) lease.fencingEpoch with
        | some err => .error err
        | none => .ok lease

/-- `markDelivered`. -/
def markDelivered (event : Int64) (reply : Reply) (s : RelayStore) : Option LeaseError × RelayStore :=
  (if reply = .received then none else some .callFailed,
    reply.after s { s with delivered := insert event s.delivered })

/-- `handleOutboxEvent` and the transaction after it. The transaction leaves a row that is there. -/
def handleAndRecord (event : Int64) (input : ExecuteInput) (s : RelayStore) :
    Option LeaseError × RelayStore :=
  let handled := input.handle.after s { s with handled := insert event s.handled }
  if input.handle ≠ .received then (some .callFailed, handled)
  else
    let recorded := if event ∈ s.regionApplied then handled
      else
        { handled with
          regionApplied := insert event s.regionApplied
          delivered := insert event s.delivered }
    (if input.tx = .received then none else some .callFailed, input.tx.after handled recorded)

/-- `applyDeliverySideEffects`. A claim that was confirmed before, or else a Redis key that is there
already, makes it ask whether the event was applied. -/
def applyDeliverySideEffects (node : LeaseNode) (event : Int64) (input : ExecuteInput)
    (claim : ClaimResult) (s : RelayStore) : Option LeaseError × RelayStore :=
  if claim.outcome = .alreadyConfirmed ∨
      (node.hasRedis ∧ claim.dedupKey ≠ "" ∧ claim.outcome = .confirmed ∧ input.setNX = some false) then
    if ¬ input.already then (some .callFailed, s)
    else if event ∈ s.regionApplied then markDelivered event input.mark s
    else handleAndRecord event input s
  else handleAndRecord event input s

/-- `NeedsResumeApply`. -/
def needsResumeApply (dedupKey : String) (pg : Pg) : Bool :=
  dedupKey = "" ∨ dedupKey ∉ pg.syncIdempotency

/-- `CompleteOperationLease`. -/
def completeOp (opID : UUID) (reply : Reply) (s : RelayStore) : Option LeaseError × RelayStore :=
  let executing := (s.tables.leases.get? opID).any fun lease => lease.state = .executing
  let leases := s.tables.leases.modify opID fun lease =>
    if lease.state = .executing then { lease with state := .completed } else lease
  (if reply ≠ .received then some .callFailed else if executing then none else some .noRows,
    reply.after s { s with tables := { s.tables with leases := leases } })

/-- The end of `ExecuteOp`, from the side effects on. -/
def applyOp (node : LeaseNode) (opID : UUID) (event : Int64) (input : ExecuteInput) (claim : ClaimResult)
    (s : RelayStore) : Option LeaseError × RelayStore :=
  match readLease node opID input.getAgain input.nowAgain input.registry s with
  | .error err => (some err, s)
  | .ok _ =>
    match applyDeliverySideEffects node event input claim s with
    | (some err, applied) => (some err, applied)
    | (none, applied) =>
      let recorded := input.record.after applied
        { applied with pg := recordApply claim.dedupKey applied.pg }
      if input.record ≠ .received then (some .callFailed, recorded)
      else completeOp opID input.complete recorded

/-- `ExecuteOp` from its claim on. -/
def executeOp (node : LeaseNode) (opID : UUID) (event : Int64) (input : ExecuteInput) (s : RelayStore) :
    Option LeaseError × RelayStore :=
  match readLease node opID input.get input.now input.registry s with
  | .error err => (some err, s)
  | .ok lease =>
    match dedupClaimConfirm input.stale input.factorD (dedupScopeForLease lease) lease.factorU
      s.proposals with
    | (claim, proposals) =>
      let confirmed := input.confirm.after s { s with proposals := proposals }
      if input.confirm ≠ .received then (some .callFailed, confirmed)
      else
        match guardOutcome claim with
        | some err => (some (.guard err), confirmed)
        | none =>
          if claim.outcome = .alreadyConfirmed then
            if ¬ input.resume then (some .callFailed, confirmed)
            else if needsResumeApply claim.dedupKey confirmed.pg then
              applyOp node opID event input claim confirmed
            else completeOp opID input.complete confirmed
          else if claim.shouldApply then applyOp node opID event input claim confirmed
          else completeOp opID input.complete confirmed

/-- Whether a call goes on to `ExecuteOp` after `EnsureBook`, or returns. -/
def ensuredPhase : Except LeaseError OperationLeaseBookResult → CallPhase
  | .error err => .returned (some err)
  | .ok result => if result.quorumMet then .ensured else .returned (some .deliveryQuorumNotMet)

/-- `applyDeliveryLeased`, where no other call comes between its parts. -/
def applyDeliveryLeased (r : RegionRelay) (node : LeaseNode) (event : Int64) (epoch : UInt32)
    (book : BookInput) (claim : ClaimInput) (execute : ExecuteInput) (s : RelayStore) :
    Option LeaseError × RelayStore :=
  let opID := r.relayDeliveryOpID event
  let booked := ensureBook node (r.relayDeliveryBookRequest node epoch event) book s.tables
  match ensuredPhase booked.1 with
  | .returned err => (err, { s with tables := booked.2 })
  | _ =>
    match claimOp node opID claim { s with tables := booked.2 } with
    | (.returned err, claimed) => (err, claimed)
    | (_, claimed) => executeOp node opID event execute claimed

/-- A call of `applyDeliveryLeased`. -/
structure RelayCall where
  node : LeaseNode
  event : Int64
  phase : CallPhase

/-- The stores and all calls so far. -/
structure RelayState where
  store : RelayStore
  calls : List RelayCall

/-- The parts of the calls, a process that is gone, time, the janitor's update of the leases it has
selected, and the end of a quorum lease. -/
inductive RelayAction
  | ensureBook (node : LeaseNode) (event : Int64) (epoch : UInt32) (input : BookInput)
  | claim (call : ℕ) (input : ClaimInput)
  | execute (call : ℕ) (input : ExecuteInput)
  | crash (call : ℕ)
  | elapse (seconds : ℕ)
  | runJanitor (opIDs : List UUID)
  | quorumExpires (opID : UUID)

/-- `operation_lease_expire_stale` for one lease. -/
def OperationLease.expireStale (now : ℕ) (lease : OperationLease) : OperationLease :=
  if (lease.state = .booked ∨ lease.state = .executing) ∧ lease.deadlineAt < now then
    { lease with state := .expired }
  else lease

/-- `operation_lease_expire_stale`, for the leases that its query selects. -/
def LeaseStore.expireStale (s : LeaseStore) (opIDs : List UUID) : LeaseStore :=
  { s with leases := opIDs.foldl (fun leases opID =>
      leases.modify opID (OperationLease.expireStale s.now)) s.leases }

/-- The keys of an operation in the quorum store reach the end of their life. -/
def LeaseStore.quorumExpires (s : LeaseStore) (opID : UUID) : LeaseStore :=
  { s with quorum := Function.update s.quorum opID none }

namespace RelayState

variable (r : RegionRelay) (s : RelayState)

/-- The call number `i` is in a new phase, and the stores are what it has made of them. -/
def proceed (i : ℕ) (call : RelayCall) (result : CallPhase × RelayStore) : RelayState where
  store := result.2
  calls := s.calls.set i { call with phase := result.1 }

/-- One step. -/
def step : RelayAction → RelayState
  | .ensureBook node event epoch input =>
    let booked := ControlPlane.ensureBook node (r.relayDeliveryBookRequest node epoch event) input
      s.store.tables
    { store := { s.store with tables := booked.2 }
      calls := s.calls ++ [⟨node, event, ensuredPhase booked.1⟩] }
  | .claim i input =>
    match s.calls[i]? with
    | none => s
    | some call =>
      if call.phase = .ensured then
        s.proceed i call (claimOp call.node (r.relayDeliveryOpID call.event) input s.store)
      else s
  | .execute i input =>
    match s.calls[i]? with
    | none => s
    | some call =>
      if call.phase = .claimed then
        s.proceed i call ((executeOp call.node (r.relayDeliveryOpID call.event) call.event input
          s.store).map .returned id)
      else s
  | .crash i =>
    match s.calls[i]? with
    | none => s
    | some call =>
      if call.phase = .ensured ∨ call.phase = .claimed then s.proceed i call (.crashed, s.store) else s
  | .elapse seconds =>
    { s with
      store :=
        { s.store with tables := { s.store.tables with now := s.store.tables.now + seconds } } }
  | .runJanitor opIDs =>
    { s with store := { s.store with tables := s.store.tables.expireStale opIDs } }
  | .quorumExpires opID =>
    { s with store := { s.store with tables := s.store.tables.quorumExpires opID } }

variable {r s} {i : ℕ}

/-- What holds of a state, and after the call number `i` has gone on, holds after a step of that call. -/
theorem of_call {P : RelayState → Prop} {ready : RelayCall → Prop} [DecidablePred ready]
    {next : RelayCall → RelayState} (hidle : P s)
    (hnext : ∀ call, s.calls[i]? = some call → ready call → P (next call)) :
    P (match s.calls[i]? with
      | none => s
      | some call => if ready call then next call else s) := by
  split
  · exact hidle
  rename_i call hcall
  split
  · rename_i hready
    exact hnext call hcall hready
  · exact hidle

theorem ensuredPhase_cases (result : Except LeaseError OperationLeaseBookResult) :
    ensuredPhase result = .ensured ∨ ∃ err, ensuredPhase result = .returned (some err) := by
  unfold ensuredPhase
  split
  · exact .inr ⟨_, rfl⟩
  · split
    · exact .inl rfl
    · exact .inr ⟨_, rfl⟩

/-- A claim is won or makes the call return. -/
theorem claimOp_phase (node : LeaseNode) (opID : UUID) (input : ClaimInput) (store : RelayStore) :
    (claimOp node opID input store).1 = .claimed ∨
      ∃ err, (claimOp node opID input store).1 = .returned err := by
  unfold claimOp claimLease
  split
  · exact .inr ⟨_, rfl⟩
  split
  · exact .inr ⟨_, rfl⟩
  split
  · exact .inr ⟨_, rfl⟩
  split
  · exact .inr ⟨_, rfl⟩
  split
  · exact .inr ⟨_, rfl⟩
  split
  · exact .inr ⟨_, rfl⟩
  dsimp only
  split
  · exact .inl rfl
  · exact .inr ⟨_, rfl⟩

/-- A call that nothing comes between is its three parts in a row. -/
theorem run_applyDeliveryLeased (node : LeaseNode) (event : Int64) (epoch : UInt32) (book : BookInput)
    (claim : ClaimInput) (execute : ExecuteInput) :
    run (step r) s [.ensureBook node event epoch book, .claim s.calls.length claim,
        .execute s.calls.length execute] =
      ⟨(applyDeliveryLeased r node event epoch book claim execute s.store).2,
        s.calls ++ [⟨node, event,
          .returned (applyDeliveryLeased r node event epoch book claim execute s.store).1⟩]⟩ := by
  have hget (call : RelayCall) : (s.calls ++ [call])[s.calls.length]? = some call :=
    List.getElem?_concat_length
  have hset (call call' : RelayCall) : (s.calls ++ [call]).set s.calls.length call' =
      s.calls ++ [call'] := by
    rw [List.set_append_right _ _ (le_refl _), Nat.sub_self, List.set_cons_zero]
  cases hbook : ControlPlane.ensureBook node (r.relayDeliveryBookRequest node epoch event) book
    s.store.tables with
  | mk result tables =>
    have hfirst : s.step r (.ensureBook node event epoch book) =
        ⟨{ s.store with tables := tables }, s.calls ++ [⟨node, event, ensuredPhase result⟩]⟩ := by
      simp only [step, hbook]
    simp only [run, hfirst, applyDeliveryLeased, hbook]
    rcases ensuredPhase_cases result with hphase | ⟨err, hphase⟩
    swap
    · simp [step, hphase]
    cases hclaim : claimOp node (r.relayDeliveryOpID event) claim { s.store with tables := tables } with
    | mk phase claimed =>
      have hsnd : step r ⟨{ s.store with tables := tables }, s.calls ++ [⟨node, event, .ensured⟩]⟩
          (.claim s.calls.length claim) = ⟨claimed, s.calls ++ [⟨node, event, phase⟩]⟩ := by
        simp only [step, hget, proceed, hset, hclaim, if_true]
      rw [hphase, hsnd]
      rcases hclaim ▸ claimOp_phase node (r.relayDeliveryOpID event) claim
        { s.store with tables := tables } with rfl | ⟨err, rfl⟩
      · simp only [step, hget, proceed, hset, if_true, Prod.map]
        rfl
      · simp [step]

end RelayState

section

/-- What a part of a call may do: handled and recorded events stay so, it records no other event than its
own, changes no other lease than its own, and gives no attempt free. -/
structure RelayStore.Proceeds (opID : UUID) (event : Int64) (s s' : RelayStore) : Prop where
  handled : s.handled ⊆ s'.handled
  regionApplied : s.regionApplied ⊆ s'.regionApplied
  onlyEvent : ∀ other, other ≠ event → other ∈ s'.regionApplied → other ∈ s.regionApplied
  onlyLease : ∀ other, other ≠ opID → s'.tables.leases.get? other = s.tables.leases.get? other
  taken : ∀ replicaSetID attempt, s.tables.attemptTaken replicaSetID attempt = true →
    s'.tables.attemptTaken replicaSetID attempt = true

/-- An update of a lease that keeps its replica set and attempt gives no attempt free. -/
theorem LeaseStore.attemptTaken_modify {s : LeaseStore} {opID : UUID} {f : OperationLease → OperationLease}
    (hf : ∀ lease replicaSetID attempt,
      (f lease).holds replicaSetID attempt = lease.holds replicaSetID attempt)
    {replicaSetID : UUID} {attempt : ℕ} (h : s.attemptTaken replicaSetID attempt = true) :
    ({ s with leases := s.leases.modify opID f }).attemptTaken replicaSetID attempt = true := by
  obtain ⟨other, lease, hget, hholds⟩ := LeaseStore.attemptTaken_iff.mp h
  apply LeaseStore.attemptTaken_iff.mpr
  by_cases hother : other = opID
  · refine ⟨other, f lease, ?_, (hf lease _ _).trans hholds⟩
    rw [hother] at hget ⊢
    rw [Table.get?_modify_self, hget, Option.map_some]
  · exact ⟨other, lease, (Table.get?_modify_of_ne _ _ hother).trans hget, hholds⟩

namespace RelayStore.Proceeds

variable {opID : UUID} {event : Int64} {s s' s'' : RelayStore}

/-- Nothing was handled or recorded, and the tables are the same. -/
theorem of_eq (htabs : s'.tables = s.tables) (hcall : s'.handled = s.handled)
    (hreg : s'.regionApplied = s.regionApplied) : s.Proceeds opID event s' where
  handled := hcall ▸ Finset.Subset.refl _
  regionApplied := hreg ▸ Finset.Subset.refl _
  onlyEvent := fun _ _ hmem => hreg ▸ hmem
  onlyLease := fun _ _ => by rw [htabs]
  taken := fun _ _ htaken => htabs ▸ htaken

/-- One change after another. -/
theorem trans (h : s.Proceeds opID event s') (h' : s'.Proceeds opID event s'') :
    s.Proceeds opID event s'' where
  handled := h.handled.trans h'.handled
  regionApplied := h.regionApplied.trans h'.regionApplied
  onlyEvent := fun other hother hmem => h.onlyEvent other hother (h'.onlyEvent other hother hmem)
  onlyLease := fun other hother => (h'.onlyLease other hother).trans (h.onlyLease other hother)
  taken := fun replicaSetID attempt htaken => h'.taken _ _ (h.taken replicaSetID attempt htaken)

/-- The call's lease is updated. -/
theorem modify (f : OperationLease → OperationLease)
    (hf : ∀ lease replicaSetID attempt,
      (f lease).holds replicaSetID attempt = lease.holds replicaSetID attempt) :
    s.Proceeds opID event
      { s with tables := { s.tables with leases := s.tables.leases.modify opID f } } where
  handled := Finset.Subset.refl _
  regionApplied := Finset.Subset.refl _
  onlyEvent := fun _ _ hmem => hmem
  onlyLease := fun _ hother => Table.get?_modify_of_ne _ _ hother
  taken := fun _ _ htaken => LeaseStore.attemptTaken_modify hf htaken

theorem applied (h : s.Proceeds opID event s') {other : Int64} (happ : s.applied other = true) :
    s'.applied other = true := by
  obtain ⟨hcall, hreg⟩ := of_decide_eq_true happ
  exact decide_eq_true ⟨h.handled hcall, h.regionApplied hreg⟩

end RelayStore.Proceeds

variable (node : LeaseNode) (opID : UUID) (event : Int64) (s : RelayStore)

/-- The next epoch changes the floors alone. -/
theorem nextFencingEpoch_proceeds (replicaSetID : UUID) (input : ClaimInput) :
    s.Proceeds opID event (nextFencingEpoch node replicaSetID input s).2 ∧
      (nextFencingEpoch node replicaSetID input s).2.tables = s.tables := by
  unfold nextFencingEpoch
  split
  · exact ⟨.of_eq rfl rfl rfl, rfl⟩
  · exact ⟨input.next.after_of (.of_eq rfl rfl rfl) (.of_eq rfl rfl rfl),
      input.next.after_of (P := fun s' : RelayStore => s'.tables = s.tables) rfl rfl⟩

/-- A claim of a lease. -/
theorem claimLease_proceeds (lease : OperationLease) (input : ClaimInput) :
    s.Proceeds opID event (claimLease node opID lease input s).2 := by
  obtain ⟨hnext, htabs⟩ := nextFencingEpoch_proceeds node opID event s lease.replicaSetID input
  unfold claimLease
  split
  · rename_i raised hraised
    rw [hraised] at hnext
    exact hnext
  rename_i epoch raised hraised
  rw [hraised] at hnext htabs
  have hclaim : s.Proceeds opID event (input.claim.after raised { raised with
      tables := if s.tables.claimable lease then s.tables.claimExecuting opID node.nodeID epoch
        else s.tables }) := by
    apply input.claim.after_of hnext
    rw [← htabs]
    split
    · exact hnext.trans (.modify _ fun _ _ _ => rfl)
    · exact hnext.trans (.of_eq rfl rfl rfl)
  split
  · exact hclaim
  · exact hclaim

/-- A claim. -/
theorem claimOp_proceeds (input : ClaimInput) : s.Proceeds opID event (claimOp node opID input s).2 := by
  have hsame : s.Proceeds opID event s := .of_eq rfl rfl rfl
  unfold claimOp
  split
  · exact hsame
  split
  · exact hsame
  split
  · exact hsame
  · split
    · exact hsame
    · exact claimLease_proceeds node opID event s _ input

theorem completeOp_proceeds (reply : Reply) : s.Proceeds opID event (completeOp opID reply s).2 := by
  refine reply.after_of (.of_eq rfl rfl rfl) (.modify _ fun lease replicaSetID attempt => ?_)
  split
  · rfl
  · rfl

/-- The handler and the transaction. -/
theorem handleAndRecord_proceeds (input : ExecuteInput) :
    s.Proceeds opID event (handleAndRecord event input s).2 := by
  have hcall : s.Proceeds opID event
      (input.handle.after s { s with handled := insert event s.handled }) :=
    input.handle.after_of (.of_eq rfl rfl rfl)
      ⟨Finset.subset_insert _ _, Finset.Subset.refl _, fun _ _ hmem => hmem, fun _ _ => rfl,
        fun _ _ htaken => htaken⟩
  unfold handleAndRecord
  split
  · exact hcall
  apply input.tx.after_of hcall
  split
  · exact hcall
  · exact ⟨hcall.handled, Finset.subset_insert _ _,
      fun other hother hmem => (Finset.mem_insert.mp hmem).resolve_left hother,
      hcall.onlyLease, hcall.taken⟩

/-- The side effects. -/
theorem applyDeliverySideEffects_proceeds (input : ExecuteInput) (claim : ClaimResult) :
    s.Proceeds opID event (applyDeliverySideEffects node event input claim s).2 := by
  unfold applyDeliverySideEffects
  split
  · split
    · exact .of_eq rfl rfl rfl
    · split
      · exact input.mark.after_of (.of_eq rfl rfl rfl) (.of_eq rfl rfl rfl)
      · exact handleAndRecord_proceeds opID event s input
  · exact handleAndRecord_proceeds opID event s input

/-- The end of an execution. -/
theorem applyOp_proceeds (input : ExecuteInput) (claim : ClaimResult) :
    s.Proceeds opID event (applyOp node opID event input claim s).2 := by
  have heff := applyDeliverySideEffects_proceeds node opID event s input claim
  unfold applyOp
  split
  · exact .of_eq rfl rfl rfl
  split
  · rename_i err applied happ
    rw [happ] at heff
    exact heff
  rename_i applied happ
  rw [happ] at heff
  have hrec : s.Proceeds opID event (input.record.after applied
      { applied with pg := recordApply claim.dedupKey applied.pg }) :=
    input.record.after_of heff (heff.trans (.of_eq rfl rfl rfl))
  split
  · exact hrec
  · exact hrec.trans (completeOp_proceeds opID event _ input.complete)

/-- An execution. -/
theorem executeOp_proceeds (input : ExecuteInput) :
    s.Proceeds opID event (executeOp node opID event input s).2 := by
  unfold executeOp
  split
  · exact .of_eq rfl rfl rfl
  split
  rename_i claim proposals hclaim
  have hconf : s.Proceeds opID event (input.confirm.after s { s with proposals := proposals }) :=
    input.confirm.after_of (.of_eq rfl rfl rfl) (.of_eq rfl rfl rfl)
  have happly := hconf.trans (applyOp_proceeds node opID event _ input claim)
  have hfull := hconf.trans (completeOp_proceeds opID event _ input.complete)
  dsimp only
  split
  · exact hconf
  split
  · exact hconf
  split
  · split
    · exact hconf
    · split
      · exact happly
      · exact hfull
  · split
    · exact happly
    · exact hfull

/-- Applied events stay applied. -/
theorem RelayState.step_applied (r : RegionRelay) (s : RelayState) (a : RelayAction) {event : Int64}
    (happ : s.store.applied event = true) : (s.step r a).store.applied event = true := by
  cases a with
  | claim i input =>
    refine of_call (P := fun s => s.store.applied event = true) happ fun call _ _ => ?_
    exact (claimOp_proceeds _ _ call.event _ _).applied happ
  | execute i input =>
    refine of_call (P := fun s => s.store.applied event = true) happ fun call _ _ => ?_
    exact (executeOp_proceeds _ _ _ _ _).applied happ
  | crash i =>
    exact of_call (P := fun s => s.store.applied event = true) happ fun _ _ _ => happ
  | _ => exact happ

end

end Espx.ControlPlane
