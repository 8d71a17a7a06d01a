import Espx.ControlPlane.RegionRelay

/-!
# When a leased delivery is applied

A delivery that returns nothing has applied its event, and an event that is not applied can still be,
under a condition that few runs meet. The replica set and the attempt are the same for all events of a
region, and a lease is never booked again: an event that comes second, and one whose lease has expired or
whose execution has failed, are reported as delivered forever and never applied.
-/

namespace Espx.ControlPlane

open Espx.Foundation Espx.Domain Espx.Dedup Espx.Settlement RelayState OperationLease List

/-- The claim ends in an error before anything has changed. -/
def ClaimInput.idle (input : ClaimInput) : Bool :=
  (input.registry ∧ input.next = .failed) ∨ (¬ input.registry ∧ input.claim = .failed)

/-- The claim is not executed, or the call knows that it was and can go on. -/
def ClaimInput.whole (input : ClaimInput) : Bool :=
  (input.registry ∧ input.next = .lost) ∨ input.claim = .failed ∨
    (input.registry ∧ input.claim = .received)

/-- Nothing fails before the event is recorded, and the deadline is ahead whenever it is checked. The two
marks count where they are read. -/
def ExecuteInput.applies (input : ExecuteInput) (node : LeaseNode) (confirmed : Bool) (deadlineAt : ℕ) :
    Bool :=
  input.get ∧ input.now < deadlineAt ∧ input.registry ∧ input.confirm = .received ∧
    (confirmed → input.resume ∧ input.already) ∧
    (node.hasRedis → input.setNX = some false → input.already) ∧
    input.getAgain ∧ input.nowAgain < deadlineAt ∧ input.handle = .received ∧ input.tx ≠ .failed

namespace RelayState

variable (r : RegionRelay) (event : Int64) (s : RelayState)

/-- The lease of the event. -/
def lease : Option OperationLease := s.store.tables.leases.get? (r.relayDeliveryOpID event)

/-- The condition on a claim of the event: its quorum check does not find that there is none, and where it
gets to the claim, the lease is free. -/
def claimSafe (node : LeaseNode) (input : ClaimInput) : Bool :=
  match quorumStatus node (r.relayDeliveryOpID event) input.quorum s.store.tables with
  | .error _ => true
  | .ok quorum =>
    quorum.quorumMet ∧ (¬ input.get ∨
      (s.lease r event).all fun lease =>
        input.idle ∨ (s.store.tables.claimable lease ∧ input.whole))

/-- The condition on a step, for the sake of one event that is not applied yet. -/
def stepSafe : RelayAction → Bool
  | .ensureBook _ other _ input =>
    (s.lease r event).isSome ∨ ¬ input.inserts ∨ (other = event ∧ input.completes)
  | .claim i input =>
    s.calls[i]?.all fun call =>
      call.phase ≠ .ensured ∨ call.event ≠ event ∨ s.claimSafe r event call.node input
  | .execute i input =>
    s.calls[i]?.all fun call =>
      call.phase ≠ .claimed ∨ call.event ≠ event ∨
        (s.lease r event).all fun lease =>
          input.applies call.node
            (s.store.proposals.get? (dedupScopeForLease lease)).isSome lease.deadlineAt
  | .crash i => s.calls[i]?.all fun call => call.phase ≠ .claimed ∨ call.event ≠ event
  | .elapse seconds =>
    (s.lease r event).all fun lease => s.store.tables.now + seconds < lease.deadlineAt
  | .runJanitor _ | .quorumExpires _ => true

/-- The condition on a step, for the sake of one event. -/
def safe (a : RelayAction) : Bool := s.store.applied event ∨ s.stepSafe r event a

end RelayState

section

/-- The library hashes no other event of the region to the identifier of this one, and nothing to the nil
identifier. -/
structure RegionRelay.Apart (r : RegionRelay) (event : Int64) : Prop where
  opID_ne : ∀ other, other ≠ event → r.relayDeliveryOpID other ≠ r.relayDeliveryOpID event
  opID_ne_nil : r.relayDeliveryOpID event ≠ uuidNil
  replicaSetID_ne_nil : r.replicaSetID ≠ uuidNil

variable (r : RegionRelay) (event : Int64)

/-- No other event of the region has a lease, and no other operation has one in the relay's replica
set. -/
def Lone (tables : LeaseStore) : Prop :=
  ∀ opID lease, tables.leases.get? opID = some lease → opID ≠ r.relayDeliveryOpID event →
    lease.holds r.replicaSetID 1 = false ∧ ∀ other, opID ≠ r.relayDeliveryOpID other

/-- A claim on the event's scope is confirmed, or was confirmed for its payload and not marked since. -/
def Confirmable (epoch : UInt32) (s : RelayStore) : Prop :=
  s.proposals.get? (r.regionScope epoch event) = none ∨
    ∃ key, ConfirmedAs (r.regionScope epoch event) (r.factorU event) key s.proposals ∧
      key ∉ s.pg.syncIdempotency

/-- The lease is held by a node that may execute. -/
structure HeldBy (s : RelayState) (lease : OperationLease) (node : LeaseNode) : Prop where
  state : lease.state = .executing
  executor : lease.executorNodeID = some node.nodeID
  epoch_pos : 0 < lease.fencingEpoch
  floor : s.store.fencing node.nodeID r.replicaSetID ≤ lease.fencingEpoch

/-- A lease that can still lead to the event's application: it can be claimed, or a call that has claimed
it is on its way. -/
structure Live (s : RelayState) (lease : OperationLease) : Prop where
  holds : lease.holds r.replicaSetID 1 = true
  scope : ∃ epoch, lease.dedupScope = r.regionScope epoch event
  factor : lease.factorU = r.factorU event
  ahead : s.store.tables.now < lease.deadlineAt
  acked : ∃ replica, s.store.tables.replicas (r.relayDeliveryOpID event) = [(replica, true)]
  held : lease.state = .booked ∨ ∃ call ∈ s.calls, call.phase = .claimed

/-- An event that is not applied, was not reported as delivered, and can still be applied. -/
structure Pending (s : RelayState) : Prop where
  lone : Lone r event s.store.tables
  unleased : s.lease r event = none → s.store.tables.replicas (r.relayDeliveryOpID event) = []
  live : ∀ lease, s.lease r event = some lease → Live r event s lease
  confirmable : ∀ epoch, Confirmable r event epoch s.store
  unrecorded : event ∉ s.store.regionApplied
  silent : ∀ call ∈ s.calls, call.event = event → call.phase ≠ .returned none
  claimed : ∀ call ∈ s.calls, call.phase = .claimed → call.event = event ∧
    ∃ lease, s.lease r event = some lease ∧ HeldBy r s lease call.node

section

variable {r : RegionRelay} {event : Int64} {s s' : RelayState}

/-- A step that touches nothing the event depends on. -/
theorem Pending.frame (h : Pending r event s) (hlone : Lone r event s'.store.tables)
    (hlease : s'.lease r event = s.lease r event)
    (hreps : s'.store.tables.replicas (r.relayDeliveryOpID event) =
      s.store.tables.replicas (r.relayDeliveryOpID event))
    (hahead : ∀ lease, s.lease r event = some lease → s'.store.tables.now < lease.deadlineAt)
    (hfencing : s'.store.fencing = s.store.fencing)
    (hprop : s'.store.proposals = s.store.proposals) (hpg : s'.store.pg = s.store.pg)
    (hreg : s'.store.regionApplied = s.store.regionApplied)
    (hsilent : ∀ call ∈ s'.calls, call.event = event → call.phase ≠ .returned none)
    (hfrom : ∀ call ∈ s'.calls, call.phase = .claimed → call ∈ s.calls)
    (hto : ∀ call ∈ s.calls, call.phase = .claimed → call ∈ s'.calls) : Pending r event s' := by
  refine ⟨hlone, ?_, ?_, ?_, ?_, hsilent, ?_⟩
  · rw [hlease, hreps]
    exact h.unleased
  · intro lease hsome
    rw [hlease] at hsome
    have hlive := h.live lease hsome
    refine ⟨hlive.holds, hlive.scope, hlive.factor, hahead lease hsome, ?_, ?_⟩
    · rw [hreps]
      exact hlive.acked
    · rcases hlive.held with hbook | ⟨call, hcall, hphase⟩
      · exact .inl hbook
      · exact .inr ⟨call, hto call hcall hphase, hphase⟩
  · intro epoch
    have hconf := h.confirmable epoch
    rw [Confirmable] at hconf ⊢
    rw [hprop, hpg]
    exact hconf
  · rw [hreg]
    exact h.unrecorded
  · intro call hcall hphase
    obtain ⟨hevent, lease, hsome, hheld⟩ := h.claimed call (hfrom call hcall hphase) hphase
    refine ⟨hevent, lease, hlease.trans hsome, hheld.state, hheld.executor, hheld.epoch_pos, ?_⟩
    rw [hfencing]
    exact hheld.floor

/-- A call that proceeds, and was not in possession of the lease, and does not come into it. -/
theorem Pending.proceed (h : Pending r event s) {i : ℕ} {call : RelayCall}
    (hcall : s.calls[i]? = some call) (hpre : call.phase ≠ .claimed) {phase : CallPhase}
    (hafter : phase ≠ .claimed) (hsilent : call.event = event → phase ≠ .returned none) :
    Pending r event (s.proceed i call (phase, s.store)) := by
  refine h.frame h.lone rfl rfl (fun lease hsome => (h.live lease hsome).ahead) rfl rfl rfl rfl ?_ ?_ ?_
  · intro other hother
    rcases mem_or_eq_of_mem_set hother with hmem | rfl
    · exact h.silent other hmem
    · exact hsilent
  · intro other hother hphase
    rcases mem_or_eq_of_mem_set hother with hmem | rfl
    · exact hmem
    · exact absurd hphase hafter
  · intro other hother hphase
    obtain ⟨j, hj⟩ := mem_iff_getElem?.mp hother
    have hne : i ≠ j := by
      rintro rfl
      rw [hcall, Option.some.injEq] at hj
      rw [hj] at hpre
      exact hpre hphase
    apply mem_iff_getElem?.mpr
    refine ⟨j, ?_⟩
    change (s.calls.set i _)[j]? = _
    rw [getElem?_set_ne hne]
    exact hj

/-- `EnsureBook` alone neither claims a lease nor returns nothing. -/
theorem ensuredPhase_ne (result : Except LeaseError OperationLeaseBookResult) :
    ensuredPhase result ≠ .claimed ∧ ensuredPhase result ≠ .returned none := by
  rcases ensuredPhase_cases result with hphase | ⟨err, hphase⟩
  · simp [hphase]
  · simp [hphase]

section

variable (h : Pending r event s)
include h

theorem Pending.taken {lease : OperationLease} (hlease : s.lease r event = some lease) :
    s.store.tables.attemptTaken r.replicaSetID 1 = true :=
  LeaseStore.attemptTaken_iff.mpr ⟨_, lease, hlease, (h.live lease hlease).holds⟩

/-- Where the event has no lease, the attempt is free. -/
theorem Pending.untaken (hlease : s.lease r event = none) :
    s.store.tables.attemptTaken r.replicaSetID 1 = false := by
  apply Bool.eq_false_of_not_eq_true
  intro htaken
  obtain ⟨opID, lease, hget, hholds⟩ := LeaseStore.attemptTaken_iff.mp htaken
  have hne : opID ≠ r.relayDeliveryOpID event := by
    rintro rfl
    rw [RelayState.lease, hget] at hlease
    cases hlease
  rw [(h.lone opID lease hget hne).1] at hholds
  cases hholds

/-- A call is added that neither holds the lease nor has returned nothing. -/
theorem Pending.addCall {call : RelayCall} (hclaim : call.phase ≠ .claimed)
    (hsilent : call.phase ≠ .returned none) {tables : LeaseStore} (hsame : s.store.tables.SamePg tables) :
    Pending r event ⟨{ s.store with tables := tables }, s.calls ++ [call]⟩ := by
  have hlease : tables.leases.get? (r.relayDeliveryOpID event) = s.lease r event := by
    rw [hsame.leases]
    rfl
  refine h.frame ?_ hlease (congrFun hsame.replicas _) ?_ rfl rfl rfl rfl ?_ ?_ ?_
  · intro opID lease hget
    rw [hsame.leases] at hget
    exact h.lone opID lease hget
  · intro lease hsome
    rw [hsame.now]
    exact (h.live lease hsome).ahead
  · intro other hother
    rcases mem_append.mp hother with hmem | hnew
    · exact h.silent other hmem
    · rw [mem_singleton.mp hnew]
      exact fun _ => hsilent
  · intro other hother hphase
    rcases mem_append.mp hother with hmem | hnew
    · exact hmem
    · rw [mem_singleton.mp hnew] at hphase
      exact absurd hphase hclaim
  · intro other hother _
    exact mem_append_left _ hother

/-- The event's own booking, in whole. -/
theorem Pending.booked {node : LeaseNode} {epoch : UInt32} {input : BookInput} {tables : LeaseStore}
    (hbook : s.store.tables.Booked node (r.relayDeliveryBookRequest node epoch event) input tables)
    (hdone : input.completes = true) :
    Pending r event { s with store := { s.store with tables := tables } } := by
  have hnone : s.lease r event = none := hbook.free
  have hget : tables.leases.get? (r.relayDeliveryOpID event) = some
      (s.store.tables.bookedLease node.timeoutSec (r.relayDeliveryBookRequest node epoch event)) := by
    rw [hbook.leases]
    exact Table.get?_insert_self _ _ hnone
  refine ⟨?_, ?_, ?_, h.confirmable, h.unrecorded, h.silent, ?_⟩
  · intro opID lease hother hne
    have hpre : s.store.tables.leases.get? opID = some lease := by
      rw [← hother, hbook.leases]
      exact (Table.get?_insert_of_ne _ _ hne).symm
    exact h.lone opID lease hpre hne
  · intro hlease
    rw [lease, hget] at hlease
    cases hlease
  · intro lease hlease
    rw [RelayState.lease, hget] at hlease
    cases hlease
    refine ⟨by simp [holds, LeaseStore.bookedLease, RegionRelay.relayDeliveryBookRequest],
      ⟨epoch, rfl⟩, rfl, ?_, ⟨_, hbook.acked hdone (h.unleased hnone)⟩, .inl rfl⟩
    rw [hbook.now]
    exact Nat.lt_add_of_pos_right node.timeout_pos
  · intro call hcall hphase
    obtain ⟨_, lease, hlease, _⟩ := h.claimed call hcall hphase
    rw [hnone] at hlease
    cases hlease

/-- Bookings. -/
theorem Pending.ensureBook {node : LeaseNode} {other : Int64} {epoch : UInt32} {input : BookInput}
    (hsafe : s.stepSafe r event (.ensureBook node other epoch input) = true) :
    Pending r event (s.step r (.ensureBook node other epoch input)) := by
  obtain ⟨hclaim, hsilent⟩ := ensuredPhase_ne (ControlPlane.ensureBook node
    (r.relayDeliveryBookRequest node epoch other) input s.store.tables).1
  rcases @ensureBook_cases node (r.relayDeliveryBookRequest node epoch other) input s.store.tables with
    hsame | hbook
  · exact h.addCall hclaim hsilent hsame
  have hnone : s.lease r event = none := by
    cases hlease : s.lease r event with
    | none => rfl
    | some lease =>
      exact absurd (h.taken hlease) (Bool.eq_false_iff.mp hbook.untaken)
  rcases of_decide_eq_true hsafe with hsome | hidle | ⟨rfl, hdone⟩
  · rw [hnone] at hsome
    cases hsome
  · exact absurd hbook.inserts hidle
  · exact (h.booked hbook hdone).addCall hclaim hsilent ⟨rfl, rfl, rfl⟩

end

variable {node : LeaseNode} {opID : UUID} {input : ClaimInput} {store : RelayStore}
  {lease : OperationLease}

theorem claimOp_of_none (hnone : store.tables.leases.get? opID = none) :
    (claimOp node opID input store).2 = store ∧ (claimOp node opID input store).1 ≠ .claimed := by
  unfold claimOp
  split
  · simp
  split
  · simp
  split
  · simp
  · rw [hnone]
    simp

theorem claimLease_of_idle (hidle : input.idle = true) :
    claimLease node opID lease input store = (.returned (some .callFailed), store) := by
  rcases of_decide_eq_true hidle with ⟨hreg, hnext⟩ | ⟨hreg, hclaim⟩
  · simp [claimLease, nextFencingEpoch, hreg, hnext, Reply.after]
  · simp [claimLease, nextFencingEpoch, hreg, hclaim, Reply.after]

/-- A claim of a lease that can be claimed ends in an error and has at most raised the floor, or it
wins. -/
theorem claimLease_of_whole (hfree : store.tables.claimable lease = true) (hwhole : input.whole = true) :
    claimLease node opID lease input store = (.returned (some .callFailed), store) ∨
      claimLease node opID lease input store =
        (.returned (some .callFailed), store.raise node lease.replicaSetID) ∨
      claimLease node opID lease input store = (.claimed,
        { store.raise node lease.replicaSetID with
          tables := store.tables.claimExecuting opID node.nodeID
            (store.fencing node.nodeID lease.replicaSetID + 1) }) := by
  by_cases hreg : input.registry = true
  · cases hnext : input.next with
    | failed =>
      refine .inl (claimLease_of_idle (decide_eq_true (.inl ⟨hreg, hnext⟩)))
    | lost =>
      refine .inr (.inl ?_)
      simp [claimLease, nextFencingEpoch, hreg, hnext, Reply.after]
    | received =>
      rcases of_decide_eq_true hwhole with ⟨_, hlost⟩ | hfail | ⟨_, hrecv⟩
      · rw [hnext] at hlost
        cases hlost
      · refine .inr (.inl ?_)
        simp [claimLease, nextFencingEpoch, hreg, hnext, hfail, Reply.after]
      · refine .inr (.inr ?_)
        simp [claimLease, nextFencingEpoch, hreg, hnext, hrecv, hfree, Reply.after]
  · rcases of_decide_eq_true hwhole with ⟨hyes, _⟩ | hfail | ⟨hyes, _⟩
    · exact absurd hyes hreg
    · exact .inl (claimLease_of_idle (decide_eq_true (.inr ⟨hreg, hfail⟩)))
    · exact absurd hyes hreg

/-- A claim that the condition allows: it ends in an error, or it gets to a lease and the condition holds
of that. -/
theorem claimOp_of_safe (hsafe : s.claimSafe r event node input = true) :
    (∃ err, claimOp node (r.relayDeliveryOpID event) input s.store = (.returned (some err), s.store)) ∨
      ∃ lease, s.lease r event = some lease ∧ s.store.tables.claimable lease = true ∧
        input.whole = true ∧ claimOp node (r.relayDeliveryOpID event) input s.store =
          claimLease node (r.relayDeliveryOpID event) lease input s.store := by
  unfold claimSafe at hsafe
  cases hquorum : quorumStatus node (r.relayDeliveryOpID event) input.quorum s.store.tables with
  | error err =>
    refine .inl ⟨err, ?_⟩
    rw [claimOp, hquorum]
  | ok quorum =>
    rw [hquorum] at hsafe
    obtain ⟨hmet, hclaim⟩ := of_decide_eq_true hsafe
    by_cases hget : input.get = true
    swap
    · refine .inl ⟨.callFailed, ?_⟩
      simp [claimOp, hquorum, hmet, hget]
    have hall := hclaim.resolve_left (not_not.mpr hget)
    cases hlease : s.lease r event with
    | none =>
      refine .inl ⟨.noRows, ?_⟩
      rw [lease] at hlease
      simp [claimOp, hquorum, hmet, hget, hlease]
    | some lease =>
      have hcall : claimOp node (r.relayDeliveryOpID event) input s.store =
          claimLease node (r.relayDeliveryOpID event) lease input s.store := by
        rw [RelayState.lease] at hlease
        simp [claimOp, hquorum, hmet, hget, hlease]
      rw [hlease, Option.all_some] at hall
      rcases of_decide_eq_true hall with hidle | ⟨hfree, hwhole⟩
      · exact .inl ⟨_, hcall.trans (claimLease_of_idle hidle)⟩
      · exact .inr ⟨lease, rfl, hfree, hwhole, hcall⟩

section

variable (h : Pending r event s)
include h

section

variable (hlease : s.lease r event = some lease) (hfree : s.store.tables.claimable lease = true)
include hlease hfree

theorem Pending.not_claimed {call : RelayCall} (hcall : call ∈ s.calls) : call.phase ≠ .claimed := by
  intro hphase
  obtain ⟨_, other, hother, hheld⟩ := h.claimed call hcall hphase
  rw [hlease, Option.some.injEq] at hother
  have hbook : lease.state = .booked := (of_decide_eq_true hfree).1
  rw [hother, hheld.state] at hbook
  cases hbook

/-- A floor is raised while no call holds the lease. -/
theorem Pending.raise (node : LeaseNode) :
    Pending r event { s with store := s.store.raise node lease.replicaSetID } :=
  { h with
    live := fun lease hsome => { h.live lease hsome with }
    claimed := fun _ hcall hphase => absurd hphase (h.not_claimed hlease hfree hcall) }

/-- A call of the event wins its lease. -/
theorem Pending.win {i : ℕ} {call : RelayCall} (hcall : s.calls[i]? = some call)
    (hevent : call.event = event) :
    Pending r event (s.proceed i call (.claimed,
      { s.store.raise call.node lease.replicaSetID with
        tables := s.store.tables.claimExecuting (r.relayDeliveryOpID event) call.node.nodeID
          (s.store.fencing call.node.nodeID lease.replicaSetID + 1) })) := by
  have hlive := h.live lease hlease
  have hset : lease.replicaSetID = r.replicaSetID := (of_decide_eq_true hlive.holds).1
  have hmem : { call with phase := .claimed } ∈ s.calls.set i { call with phase := .claimed } :=
    List.mem_set (List.getElem?_eq_some_iff.mp hcall).1 _
  have hget : (s.store.tables.leases.modify (r.relayDeliveryOpID event) fun lease =>
      { lease with
        state := .executing
        executorNodeID := some call.node.nodeID
        fencingEpoch := s.store.fencing call.node.nodeID r.replicaSetID + 1 }).get?
          (r.relayDeliveryOpID event) = some
      { lease with
        state := .executing
        executorNodeID := some call.node.nodeID
        fencingEpoch := s.store.fencing call.node.nodeID r.replicaSetID + 1 } := by
    rw [Table.get?_modify_self]
    rw [RelayState.lease] at hlease
    rw [hlease, Option.map_some]
  rw [hset]
  refine ⟨?_, ?_, ?_, h.confirmable, h.unrecorded, ?_, ?_⟩
  · intro opID other hother hne
    have hpre : s.store.tables.leases.get? opID = some other := by
      rw [← hother]
      exact (Table.get?_modify_of_ne _ _ hne).symm
    exact h.lone opID other hpre hne
  · intro hnone
    exact absurd (hnone.symm.trans hget) (by simp)
  · intro other hother
    cases Option.some.inj (hget.symm.trans hother)
    exact ⟨hlive.holds, hlive.scope, hlive.factor, hlive.ahead, hlive.acked, .inr ⟨_, hmem, rfl⟩⟩
  · intro other hother
    rcases mem_or_eq_of_mem_set hother with hold | rfl
    · exact h.silent other hold
    · simp
  · intro other hother hphase
    rcases mem_or_eq_of_mem_set hother with hold | rfl
    · exact absurd hphase (h.not_claimed hlease hfree hold)
    · refine ⟨hevent, _, hget, rfl, rfl, Nat.succ_pos _, ?_⟩
      change Function.update s.store.fencing call.node.nodeID _ call.node.nodeID r.replicaSetID ≤ _
      rw [Function.update_self, Function.update_self]

end

theorem Pending.lease_other (hapart : r.Apart event) {other : Int64} (hother : other ≠ event) :
    s.lease r other = none := by
  cases hget : s.lease r other with
  | none => rfl
  | some lease =>
    exact absurd rfl ((h.lone _ lease hget (hapart.opID_ne other hother)).2 other)

/-- Claims. -/
theorem Pending.claim (hapart : r.Apart event) {i : ℕ}
    (hsafe : s.stepSafe r event (.claim i input) = true) :
    Pending r event (s.step r (.claim i input)) := by
  refine of_call (P := Pending r event) h fun call hcall hphase => ?_
  have hpre : call.phase ≠ .claimed := by
    rw [hphase]
    simp
  rw [stepSafe, hcall, Option.all_some] at hsafe
  by_cases hevent : call.event = event
  swap
  · obtain ⟨hstore, hclaimed⟩ :=
      @claimOp_of_none call.node _ input s.store (h.lease_other hapart hevent)
    rw [← Prod.mk.eta (p := claimOp _ _ _ _), hstore]
    exact h.proceed hcall hpre hclaimed fun heq => absurd heq hevent
  rcases of_decide_eq_true hsafe with hother | hother | hclaim
  · exact absurd hphase hother
  · exact absurd hevent hother
  rw [hevent]
  rcases claimOp_of_safe hclaim with ⟨err, herr⟩ | ⟨lease, hlease, hfree, hwhole, hclaimed⟩
  · rw [herr]
    exact h.proceed hcall hpre (by simp) (by simp)
  rw [hclaimed]
  rcases @claimLease_of_whole call.node (r.relayDeliveryOpID event) input s.store lease hfree
    hwhole with hsame | hraised | hwon
  · rw [hsame]
    exact h.proceed hcall hpre (by simp) (by simp)
  · rw [hraised]
    exact (h.raise hlease hfree call.node).proceed hcall hpre (by simp) (by simp)
  · rw [hwon]
    exact h.win hlease hfree hcall hevent

end

end

section

variable {r : RegionRelay} {event : Int64} {node : LeaseNode} {opID : UUID} {input : ExecuteInput}
  {store : RelayStore} {lease : OperationLease}

/-- The handler and the transaction, where they are executed. -/
theorem handleAndRecord_applied (hnew : event ∉ store.regionApplied) (hhandle : input.handle = .received)
    (htx : input.tx ≠ .failed) : (handleAndRecord event input store).2.applied event = true := by
  cases htx' : input.tx with
  | failed => exact absurd htx' htx
  | received | lost =>
    simp [handleAndRecord, hhandle, htx', hnew, Reply.after, RelayStore.applied]

/-- The side effects, where the reads that they need are answered. -/
theorem applyDeliverySideEffects_applied {claim : ClaimResult} (hnew : event ∉ store.regionApplied)
    (hhandle : input.handle = .received) (htx : input.tx ≠ .failed)
    (hold : claim.outcome = .alreadyConfirmed ∨ (node.hasRedis = true ∧ input.setNX = some false) →
      input.already = true) :
    (applyDeliverySideEffects node event input claim store).2.applied event = true := by
  have happ := @handleAndRecord_applied event input store hnew hhandle htx
  unfold applyDeliverySideEffects
  split
  · rename_i hasks
    have hread : input.already = true :=
      hold (hasks.imp_right fun hkey => ⟨hkey.1, hkey.2.2.2⟩)
    rw [if_neg (not_not.mpr hread)]
    exact happ
  · exact happ

/-- The end of an execution whose side effects are applied. -/
theorem applyOp_applied {claim : ClaimResult}
    (hread : readLease node opID input.getAgain input.nowAgain input.registry store = .ok lease)
    (heff : (applyDeliverySideEffects node event input claim store).2.applied event = true) :
    (applyOp node opID event input claim store).2.applied event = true := by
  unfold applyOp
  rw [hread]
  dsimp only
  split
  · rename_i err applied happ
    rw [happ] at heff
    exact heff
  rename_i applied happ
  rw [happ] at heff
  have hrec : (input.record.after applied
      { applied with pg := recordApply claim.dedupKey applied.pg }).applied event = true :=
    input.record.after_of (P := fun s : RelayStore => s.applied event = true) heff heff
  split
  · exact hrec
  · exact (completeOp_proceeds opID event _ input.complete).applied hrec

variable (hlease : store.tables.leases.get? opID = some lease) (hstate : lease.state = .executing)
  (hexec : lease.executorNodeID = some node.nodeID) (hepoch : 0 < lease.fencingEpoch)
  (hfloor : store.fencing node.nodeID lease.replicaSetID ≤ lease.fencingEpoch)
include hlease hstate hexec hepoch hfloor

/-- The checks of a lease that the node holds. -/
theorem readLease_of_held {now : ℕ} (hnow : now < lease.deadlineAt) :
    readLease node opID true now true store = .ok lease := by
  have hview : authoritativeLeaseView lease node.nodeID now = none := by
    simp [authoritativeLeaseView, hstate, hnow, hexec]
  have hvalid : validateFencing true (store.fencing node.nodeID lease.replicaSetID)
      lease.fencingEpoch = none := by
    rw [validateFencing, if_neg (by simp), if_neg]
    omega
  simp [readLease, hlease, hview, hvalid]

/-- An execution by a node that holds the lease, of an event that is not recorded, under the condition on
its calls. -/
theorem executeOp_applied {epoch : UInt32} (hscope : dedupScopeForLease lease = r.regionScope epoch event)
    (hfactor : lease.factorU = r.factorU event) (hconf : Confirmable r event epoch store)
    (hnew : event ∉ store.regionApplied)
    (happ : input.applies node (store.proposals.get? (dedupScopeForLease lease)).isSome
      lease.deadlineAt = true) : (executeOp node opID event input store).2.applied event = true := by
  obtain ⟨hget, hnow, hreg, hconfirm, hresume, hnx, hagain, hnowAgain, hhandle, htx⟩ :=
    of_decide_eq_true happ
  have hread := @readLease_of_held node opID store lease hlease hstate hexec hepoch hfloor
  unfold executeOp
  rw [hget, hreg, hread hnow]
  dsimp only
  rw [hconfirm, if_neg (not_not.mpr rfl)]
  rw [hscope] at hresume ⊢
  rw [hfactor]
  have happly {claim : ClaimResult} {proposals : Table Scope Proposal}
      (hold : claim.outcome = .alreadyConfirmed → input.already = true) :
      (applyOp node opID event input claim { store with proposals := proposals }).2.applied event =
        true := by
    apply applyOp_applied
    · rw [hagain, hreg]
      exact readLease_of_held hlease hstate hexec hepoch hfloor hnowAgain
    · refine applyDeliverySideEffects_applied hnew hhandle htx ?_
      rintro (hpre | ⟨hredis, hset⟩)
      · exact hold hpre
      · exact hnx hredis hset
  rcases hconf with hnone | ⟨key, ⟨row, hrow, hstat, hrowFactor, hkey⟩, hmark⟩
  · simp only [dedupClaimConfirm, hnone, guardOutcome, ClaimResult.shouldApply, Reply.after]
    exact happly fun h => by cases h
  have hans := hresume (by rw [hrow]; rfl)
  simp only [dedupClaimConfirm, hrow, hstat, hrowFactor, if_true, guardOutcome, Reply.after,
    hans.1, not_true_eq_false, if_false, needsResumeApply, hkey, hmark,
    not_false_eq_true, or_true, decide_true]
  exact happly fun _ => hans.2

end

section

variable {r : RegionRelay} {event : Int64} {s : RelayState}

/-- An execution by the call that holds the lease. -/
theorem Pending.execute_call (h : Pending r event s) {i : ℕ} {call : RelayCall}
    (hcall : s.calls[i]? = some call) (hphase : call.phase = .claimed) {input : ExecuteInput}
    (happ : ∀ lease, s.lease r event = some lease → input.applies call.node
      (s.store.proposals.get? (dedupScopeForLease lease)).isSome lease.deadlineAt = true) :
    (s.step r (.execute i input)).store.applied event = true := by
  obtain ⟨hevent, lease, hlease, hheld⟩ := h.claimed call (mem_of_getElem? hcall) hphase
  have hlive := h.live lease hlease
  obtain ⟨hset, hattempt⟩ := of_decide_eq_true hlive.holds
  obtain ⟨epoch, hscope⟩ := hlive.scope
  have hfloor := hheld.floor
  rw [← hset] at hfloor
  have hdec : dedupScopeForLease lease = r.regionScope epoch event := by
    rw [dedupScopeForLease, hattempt, hscope]
    rfl
  rw [step, hcall]
  dsimp only
  rw [if_pos hphase, hevent]
  exact executeOp_applied hlease hheld.state hheld.executor hheld.epoch_pos hfloor hdec
    hlive.factor (h.confirmable epoch) h.unrecorded (happ lease hlease)

/-- Executions: the only ones under way are of the event, and they apply it. -/
theorem Pending.execute (h : Pending r event s) {i : ℕ} {input : ExecuteInput}
    (hsafe : s.stepSafe r event (.execute i input) = true) :
    s.step r (.execute i input) = s ∨ (s.step r (.execute i input)).store.applied event = true := by
  refine of_call (P := fun t => t = s ∨ (s.step r (.execute i input)).store.applied event = true)
    (.inl rfl) fun call hcall hphase => ?_
  refine .inr (h.execute_call hcall hphase fun lease hlease => ?_)
  rw [stepSafe, hcall, Option.all_some] at hsafe
  rcases of_decide_eq_true hsafe with hother | hother | happ
  · exact absurd hphase hother
  · exact absurd (h.claimed call (mem_of_getElem? hcall) hphase).1 hother
  · rw [hlease, Option.all_some] at happ
    exact happ

/-- The end of a process. -/
theorem Pending.crash (h : Pending r event s) {i : ℕ}
    (hsafe : s.stepSafe r event (.crash i) = true) : Pending r event (s.step r (.crash i)) := by
  refine of_call (P := Pending r event) h fun call hcall _ => ?_
  rw [stepSafe, hcall, Option.all_some] at hsafe
  have hpre : call.phase ≠ .claimed := by
    intro hphase
    rcases of_decide_eq_true hsafe with hother | hother
    · exact hother hphase
    · exact hother (h.claimed call (mem_of_getElem? hcall) hphase).1
  exact h.proceed hcall hpre (by simp) (by simp)

/-- Time passes. -/
theorem Pending.elapse (h : Pending r event s) {seconds : ℕ}
    (hsafe : s.stepSafe r event (.elapse seconds) = true) :
    Pending r event (s.step r (.elapse seconds)) := by
  refine h.frame h.lone rfl rfl ?_ rfl rfl rfl rfl h.silent (fun _ hcall _ => hcall)
    (fun _ hcall _ => hcall)
  intro lease hlease
  rw [stepSafe, hlease, Option.all_some] at hsafe
  exact of_decide_eq_true hsafe

/-- A lease after the janitor is as it was or has been expired. -/
theorem LeaseStore.get?_expireStale (tables : LeaseStore) (opIDs : List UUID) (opID : UUID) :
    (tables.expireStale opIDs).leases.get? opID = tables.leases.get? opID ∨
      (tables.expireStale opIDs).leases.get? opID =
        (tables.leases.get? opID).map (OperationLease.expireStale tables.now) := by
  change (opIDs.foldl _ tables.leases).get? opID = _ ∨ (opIDs.foldl _ tables.leases).get? opID = _
  generalize tables.leases = leases
  induction opIDs generalizing leases with
  | nil => exact .inl rfl
  | cons first rest ih =>
    have hone := ih (leases.modify first (OperationLease.expireStale tables.now))
    by_cases hfirst : opID = first
    · right
      rw [hfirst] at hone ⊢
      rw [Table.get?_modify_self, Option.map_map] at hone
      have hidem : OperationLease.expireStale tables.now ∘ OperationLease.expireStale tables.now =
          OperationLease.expireStale tables.now := by
        funext lease
        unfold Function.comp OperationLease.expireStale
        split
        · simp
        · rfl
      rw [hidem, or_self] at hone
      exact hone
    · rw [Table.get?_modify_of_ne _ _ hfirst] at hone
      exact hone

theorem OperationLease.expireStale_holds (now : ℕ) (lease : OperationLease) (replicaSetID : UUID)
    (attempt : ℕ) :
    (lease.expireStale now).holds replicaSetID attempt = lease.holds replicaSetID attempt := by
  unfold expireStale
  split
  · rfl
  · rfl

/-- The janitor finds the deadline of the event's lease ahead. -/
theorem Pending.runJanitor (h : Pending r event s) (opIDs : List UUID) :
    Pending r event (s.step r (.runJanitor opIDs)) := by
  have hlease : (s.store.tables.expireStale opIDs).leases.get? (r.relayDeliveryOpID event) =
      s.lease r event := by
    rcases s.store.tables.get?_expireStale opIDs (r.relayDeliveryOpID event) with hkept | hexp
    · exact hkept
    rw [hexp]
    change (s.lease r event).map _ = _
    cases hsome : s.lease r event with
    | none => rfl
    | some lease =>
      have hahead := (h.live lease hsome).ahead
      rw [Option.map_some, expireStale, if_neg]
      omega
  refine h.frame ?_ hlease rfl (fun lease hsome => (h.live lease hsome).ahead) rfl rfl rfl rfl h.silent
    (fun _ hcall _ => hcall) (fun _ hcall _ => hcall)
  intro opID lease hget hne
  rcases s.store.tables.get?_expireStale opIDs opID with hkept | hexp
  · exact h.lone opID lease (hkept.symm.trans hget) hne
  rw [show (s.step r (.runJanitor opIDs)).store.tables = s.store.tables.expireStale opIDs from rfl,
    hexp] at hget
  obtain ⟨before, hpre, rfl⟩ := Option.map_eq_some_iff.mp hget
  rw [OperationLease.expireStale_holds]
  exact h.lone opID before hpre hne

theorem Pending.quorumExpires (h : Pending r event s) (opID : UUID) :
    Pending r event (s.step r (.quorumExpires opID)) :=
  h.frame h.lone rfl rfl (fun lease hsome => (h.live lease hsome).ahead) rfl rfl rfl rfl h.silent
    (fun _ hcall _ => hcall) (fun _ hcall _ => hcall)

/-- A step that the condition allows applies the event or leaves it pending. -/
theorem Pending.step (h : Pending r event s) (hapart : r.Apart event) {a : RelayAction}
    (hsafe : s.stepSafe r event a = true) :
    (s.step r a).store.applied event = true ∨ Pending r event (s.step r a) := by
  cases a with
  | ensureBook node other epoch input => exact .inr (h.ensureBook hsafe)
  | claim i input => exact .inr (h.claim hapart hsafe)
  | execute i input =>
    rcases h.execute hsafe with hidle | happ
    · rw [hidle]
      exact .inr h
    · exact .inl happ
  | crash i => exact .inr (h.crash hsafe)
  | elapse seconds => exact .inr (h.elapse hsafe)
  | runJanitor opIDs => exact .inr (h.runJanitor opIDs)
  | quorumExpires opID => exact .inr (h.quorumExpires opID)

/-- Every run under the condition applies the event or leaves it pending. -/
theorem run_applied_or_pending (hapart : r.Apart event) {actions : List RelayAction}
    (hsafe : Admissible (fun s a => s.safe r event a) (step r) s actions)
    (hinit : s.store.applied event = true ∨ Pending r event s) :
    (run (step r) s actions).store.applied event = true ∨ Pending r event (run (step r) s actions) := by
  have hstep (s : RelayState) (a : RelayAction) (hok : s.safe r event a = true)
      (hinv : s.store.applied event = true ∨ Pending r event s) :
      (s.step r a).store.applied event = true ∨ Pending r event (s.step r a) := by
    by_cases happ : s.store.applied event = true
    · exact .inl (s.step_applied r a happ)
    · exact (hinv.resolve_left happ).step hapart ((of_decide_eq_true hok).resolve_left happ)
  exact hsafe.invariant hstep hinit

end

end

end Espx.ControlPlane
