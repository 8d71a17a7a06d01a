import Espx.ControlPlane.LeasedDeliveries
import Mathlib

/-!
# Deliveries that are applied, and deliveries that never are

Where an event is pending, one more call that succeeds in all it asks for applies the event. Where another
event of the region was booked first no run does: the place of the replica set and attempt is taken for
good.
-/

namespace Espx.ControlPlane

open Espx.Foundation Espx.Domain Espx.Dedup Espx.Settlement RelayState List

section

/-- All calls of a claim are answered. -/
def ClaimInput.answered : ClaimInput := ⟨.answered, true, true, .received, .received⟩

/-- All calls of an execution are answered, and its clock stands still. -/
def ExecuteInput.answered (now : ℕ) (factorD : UUID) : ExecuteInput where
  get := true
  now := now
  registry := true
  confirm := .received
  stale := false
  factorD := factorD
  resume := true
  getAgain := true
  nowAgain := now
  already := true
  mark := .received
  setNX := some true
  handle := .received
  tx := .received
  record := .received
  complete := .received

/-- A part of a call that succeeds in all that it asks for; new calls are those of a node. -/
def RelayAction.Succeeds (node : LeaseNode) : RelayAction → Prop
  | .ensureBook booking _ _ input => booking = node ∧ input = .answered
  | .claim _ input => input = .answered
  | .execute _ input => ∃ now factorD, input = .answered now factorD
  | _ => False

variable {r : RegionRelay} {event : Int64} {s : RelayState}

/-- The call that holds the lease can finish. -/
theorem Pending.finish (h : Pending r event s) {i : ℕ} {call : RelayCall}
    (hcall : s.calls[i]? = some call) (hphase : call.phase = .claimed) (factorD : UUID) :
    (s.step r (.execute i (.answered s.store.tables.now factorD))).store.applied event = true :=
  h.execute_call hcall hphase fun lease hlease => by
    simp [ExecuteInput.answered, ExecuteInput.applies, (h.live lease hlease).ahead]

/-- A claim all of whose calls are answered wins a lease that can be claimed. -/
theorem claimOp_answered {node : LeaseNode} {opID : UUID} {store : RelayStore} {lease : OperationLease}
    {replica : String} (hrep : store.tables.replicas opID = [(replica, true)])
    (hlease : store.tables.leases.get? opID = some lease) (hfree : store.tables.claimable lease = true) :
    claimOp node opID .answered store = (.claimed,
      { store.raise node lease.replicaSetID with
        tables := store.tables.claimExecuting opID node.nodeID
          (store.fencing node.nodeID lease.replicaSetID + 1) }) := by
  obtain ⟨result, hstat, hmet⟩ := @quorumStatus_answered node store.tables opID replica hrep
  simp [claimOp, claimLease, nextFencingEpoch, ClaimInput.answered, hstat, hmet, hlease, hfree,
    Reply.after]

/-- A booking of the event all of whose calls are answered: the event has a lease, and the call goes
on. -/
theorem Pending.ensureBook_answered (h : Pending r event s) (hapart : r.Apart event) (node : LeaseNode)
    (epoch : UInt32) :
    ((s.step r (.ensureBook node event epoch .answered)).lease r event).isSome ∧
      (s.step r (.ensureBook node event epoch .answered)).calls =
        s.calls ++ [⟨node, event, .ensured⟩] := by
  have hready : ((s.lease r event).isSome ∧
        ∃ replica, s.store.tables.replicas (r.relayDeliveryOpID event) = [(replica, true)]) ∨
      (s.lease r event = none ∧ s.store.tables.attemptTaken r.replicaSetID 1 = false ∧
        s.store.tables.replicas (r.relayDeliveryOpID event) = []) := by
    cases hlease : s.lease r event with
    | none => exact .inr ⟨rfl, h.untaken hlease, h.unleased hlease⟩
    | some lease => exact .inl ⟨rfl, (h.live lease hlease).acked⟩
  obtain ⟨result, booked, hbook, hmet, hsome⟩ := @ControlPlane.ensureBook_answered node
    (r.relayDeliveryBookRequest node epoch event) s.store.tables hapart.opID_ne_nil
    hapart.replicaSetID_ne_nil hready
  have hstep : s.step r (.ensureBook node event epoch .answered) =
      ⟨{ s.store with tables := booked }, s.calls ++ [⟨node, event, .ensured⟩]⟩ := by
    simp only [RelayState.step, hbook, ensuredPhase, hmet, if_true]
  rw [hstep]
  exact ⟨hsome, rfl⟩

/-- A claim of the event all of whose calls are answered: the call holds the lease. -/
theorem Pending.claim_answered (h : Pending r event s) {lease : OperationLease}
    (hlease : s.lease r event = some lease) (hfree : s.store.tables.claimable lease = true)
    {i : ℕ} {call : RelayCall} (hcall : s.calls[i]? = some call) (hphase : call.phase = .ensured)
    (hevent : call.event = event) :
    Pending r event (s.step r (.claim i .answered)) ∧
      (s.step r (.claim i .answered)).calls[i]? = some { call with phase := .claimed } := by
  obtain ⟨replica, hrep⟩ := (h.live lease hlease).acked
  have hstep : s.step r (.claim i .answered) = s.proceed i call
      (claimOp call.node (r.relayDeliveryOpID event) .answered s.store) := by
    rw [RelayState.step, hcall, ← hevent]
    exact if_pos hphase
  rw [hstep, claimOp_answered hrep hlease hfree]
  refine ⟨h.win hlease hfree hcall hevent, ?_⟩
  exact List.getElem?_set_self (List.getElem?_eq_some_iff.mp hcall).1

/-- A new call of the event can go all the way, where no other one holds the lease. -/
theorem Pending.deliver (h : Pending r event s) (hapart : r.Apart event)
    (hnone : ∀ call ∈ s.calls, call.phase ≠ .claimed) (node : LeaseNode) (epoch : UInt32)
    (factorD : UUID) : ∃ now, (run (RelayState.step r) s
      [.ensureBook node event epoch .answered, .claim s.calls.length .answered,
        .execute s.calls.length (.answered now factorD)]).store.applied event = true := by
  have hbook : Pending r event (s.step r (.ensureBook node event epoch .answered)) :=
    h.ensureBook (decide_eq_true (.inr (.inr ⟨rfl, by decide⟩)))
  obtain ⟨hsome, hcalls⟩ := h.ensureBook_answered hapart node epoch
  obtain ⟨lease, hlease⟩ := Option.isSome_iff_exists.mp hsome
  have hlive := hbook.live lease hlease
  have hbookedState : lease.state = .booked := by
    rcases hlive.held with hstate | ⟨call, hcall, hphase⟩
    · exact hstate
    rw [hcalls] at hcall
    rcases mem_append.mp hcall with hold | hnew
    · exact absurd hphase (hnone call hold)
    · rw [mem_singleton.mp hnew] at hphase
      cases hphase
  have hcall : (s.step r (.ensureBook node event epoch .answered)).calls[s.calls.length]? =
      some ⟨node, event, .ensured⟩ := by
    rw [hcalls]
    exact getElem?_concat_length
  obtain ⟨hwon, hclaim⟩ := hbook.claim_answered hlease
    (decide_eq_true ⟨hbookedState, hlive.ahead⟩) hcall rfl rfl
  exact ⟨_, hwon.finish hclaim rfl factorD⟩

/-- An event that is pending can be applied by calls that succeed. -/
theorem Pending.continuation (h : Pending r event s) (hapart : r.Apart event) (node : LeaseNode) :
    ∃ continuation : List RelayAction, (∀ a ∈ continuation, a.Succeeds node) ∧
      (run (RelayState.step r) s continuation).store.applied event = true := by
  by_cases hclaim : ∃ call ∈ s.calls, call.phase = .claimed
  · obtain ⟨call, hmem, hphase⟩ := hclaim
    obtain ⟨i, hcall⟩ := mem_iff_getElem?.mp hmem
    refine ⟨[.execute i (.answered s.store.tables.now uuidNil)], ?_, h.finish hcall hphase uuidNil⟩
    intro a ha
    rw [mem_singleton.mp ha]
    exact ⟨_, _, rfl⟩
  · push Not at hclaim
    obtain ⟨now, happ⟩ := h.deliver hapart hclaim node 0 uuidNil
    refine ⟨_, ?_, happ⟩
    intro a ha
    simp only [mem_cons, not_mem_nil, or_false] at ha
    rcases ha with rfl | rfl | rfl
    · exact ⟨rfl, rfl⟩
    · rfl
    · exact ⟨_, _, rfl⟩

/-- Another operation has taken the attempt, and the event has neither a lease nor a call that ever had
one. -/
structure Stranded (r : RegionRelay) (event : Int64) (s : RelayState) : Prop where
  taken : s.store.tables.attemptTaken r.replicaSetID 1 = true
  unleased : s.lease r event = none
  unrecorded : event ∉ s.store.regionApplied
  unclaimed : ∀ call ∈ s.calls, call.phase = .claimed → call.event ≠ event

section

variable (h : Stranded r event s)
include h

/-- A part of a call of another event. -/
theorem Stranded.proceed (hapart : r.Apart event) {i : ℕ} {call : RelayCall}
    (hevent : call.event ≠ event) {phase : CallPhase} {store : RelayStore}
    (hstore : s.store.Proceeds (r.relayDeliveryOpID call.event) call.event store) :
    Stranded r event (s.proceed i call (phase, store)) where
  taken := hstore.taken _ _ h.taken
  unleased := by
    exact (hstore.onlyLease _ (hapart.opID_ne call.event hevent).symm).trans h.unleased
  unrecorded := fun hmem => h.unrecorded (hstore.onlyEvent event hevent.symm hmem)
  unclaimed := by
    intro other hother hphase
    rcases mem_or_eq_of_mem_set hother with hmem | rfl
    · exact h.unclaimed other hmem hphase
    · exact hevent

/-- A part of a call that leaves the stores as they are and wins nothing. -/
theorem Stranded.idle {i : ℕ} {call : RelayCall} {phase : CallPhase} (hphase : phase ≠ .claimed) :
    Stranded r event (s.proceed i call (phase, s.store)) := by
  refine { h with unclaimed := fun other hother hclaim => ?_ }
  rcases mem_or_eq_of_mem_set hother with hmem | rfl
  · exact h.unclaimed other hmem hclaim
  · exact absurd hclaim hphase

/-- No booking of the relay finds the attempt free. -/
theorem Stranded.ensureBook {node : LeaseNode} {other : Int64} {epoch : UInt32} {input : BookInput}
    : Stranded r event (s.step r (.ensureBook node other epoch input)) := by
  rcases @ensureBook_cases node (r.relayDeliveryBookRequest node epoch other) input s.store.tables with
    hsame | hbook
  swap
  · exact absurd h.taken (Bool.eq_false_iff.mp hbook.untaken)
  have hleases := hsame.leases
  refine ⟨?_, ?_, h.unrecorded, ?_⟩
  · apply LeaseStore.attemptTaken_iff.mpr
    obtain ⟨opID, lease, hget, hholds⟩ := LeaseStore.attemptTaken_iff.mp h.taken
    exact ⟨opID, lease, by rw [← hget, ← hleases]; rfl, hholds⟩
  · rw [← h.unleased, lease, lease, ← hleases]
    rfl
  · intro call hcall hphase
    rcases mem_append.mp hcall with hmem | hnew
    · exact h.unclaimed call hmem hphase
    · rw [mem_singleton.mp hnew] at hphase
      exact absurd hphase (ensuredPhase_ne _).1

/-- The janitor gives no attempt free. -/
theorem Stranded.runJanitor (opIDs : List UUID) : Stranded r event (s.step r (.runJanitor opIDs)) := by
  refine ⟨?_, ?_, h.unrecorded, h.unclaimed⟩
  · apply LeaseStore.attemptTaken_iff.mpr
    obtain ⟨opID, lease, hget, hholds⟩ := LeaseStore.attemptTaken_iff.mp h.taken
    rcases s.store.tables.get?_expireStale opIDs opID with hkept | hexp
    · exact ⟨opID, lease, hkept.trans hget, hholds⟩
    · rw [hget, Option.map_some] at hexp
      exact ⟨opID, _, hexp, (lease.expireStale_holds _ _ _).trans hholds⟩
  · have hnone : s.store.tables.leases.get? (r.relayDeliveryOpID event) = none := h.unleased
    rcases s.store.tables.get?_expireStale opIDs (r.relayDeliveryOpID event) with hkept | hexp
    · exact hkept.trans hnone
    · rw [hnone] at hexp
      exact hexp

/-- A stranded event stays so, whatever happens. -/
theorem Stranded.step (hapart : r.Apart event) (a : RelayAction) : Stranded r event (s.step r a) := by
  cases a with
  | ensureBook node other epoch input => exact h.ensureBook
  | claim i input =>
    refine of_call (P := Stranded r event) h fun call _ _ => ?_
    by_cases hevent : call.event = event
    · rw [hevent, ← Prod.mk.eta (p := claimOp _ _ _ _)]
      obtain ⟨hstore, hclaim⟩ := @claimOp_of_none call.node _ input s.store h.unleased
      rw [hstore]
      exact h.idle hclaim
    · exact h.proceed hapart hevent (claimOp_proceeds _ _ _ _ _)
  | execute i input =>
    refine of_call (P := Stranded r event) h fun call hcall hphase => ?_
    exact h.proceed hapart (h.unclaimed call (mem_of_getElem? hcall) hphase)
      (executeOp_proceeds _ _ _ _ _)
  | crash i => exact of_call (P := Stranded r event) h fun _ _ _ => h.idle (by simp)
  | elapse seconds | quorumExpires opID => exact { h with }
  | runJanitor opIDs => exact h.runJanitor opIDs

/-- A stranded event is never applied. -/
theorem Stranded.never_applied (hapart : r.Apart event) (actions : List RelayAction) :
    (run (RelayState.step r) s actions).store.applied event = false := by
  have hstep (s : RelayState) (a : RelayAction) (hinv : Stranded r event s) :
      Stranded r event (RelayState.step r s a) := hinv.step hapart a
  have hrun := run_invariant hstep h actions
  simp [RelayStore.applied, hrun.unrecorded]

end

/-- The event has no lease and no delivery yet, its region has no lease of another event, and what was
recorded of it was handled. -/
structure Undelivered (r : RegionRelay) (event : Int64) (s : RelayState) : Prop where
  lone : Lone r event s.store.tables
  unleased : s.lease r event = none
  replicas : s.store.tables.replicas (r.relayDeliveryOpID event) = []
  confirmable : ∀ epoch, Confirmable r event epoch s.store
  handled : event ∈ s.store.regionApplied → event ∈ s.store.handled
  calls : s.calls = []

variable {start : RelayState}

/-- An undelivered event is applied or pending. -/
theorem Undelivered.applied_or_pending (h : Undelivered r event start) :
    start.store.applied event = true ∨ Pending r event start := by
  by_cases hreg : event ∈ start.store.regionApplied
  · exact .inl (decide_eq_true ⟨h.handled hreg, hreg⟩)
  right
  refine ⟨h.lone, fun _ => h.replicas, ?_, h.confirmable, hreg, ?_, ?_⟩
  · intro lease hlease
    rw [h.unleased] at hlease
    cases hlease
  · rw [h.calls]
    simp
  · rw [h.calls]
    simp

/-- In every run whose steps meet the condition, a call that returns nothing has applied its event, and
from each state reached an event that is not applied can be applied by calls that succeed. -/
theorem leased_delivery_applied (hapart : r.Apart event) (hstart : Undelivered r event start)
    {actions : List RelayAction}
    (hsafe : Admissible (fun s a => s.safe r event a) (RelayState.step r) start actions) :
    (∀ call ∈ (run (RelayState.step r) start actions).calls, call.event = event →
        call.phase = .returned none →
          (run (RelayState.step r) start actions).store.applied event = true) ∧
      ((run (RelayState.step r) start actions).store.applied event = false →
        ∀ node : LeaseNode, ∃ continuation : List RelayAction, (∀ a ∈ continuation, a.Succeeds node) ∧
          (run (RelayState.step r) start (actions ++ continuation)).store.applied event = true) := by
  rcases run_applied_or_pending hapart hsafe hstart.applied_or_pending with happ | hpend
  · refine ⟨fun _ _ _ _ => happ, fun hnot => ?_⟩
    rw [happ] at hnot
    cases hnot
  refine ⟨fun call hcall hevent hphase => absurd hphase (hpend.silent call hcall hevent), ?_⟩
  intro _ node
  obtain ⟨continuation, hsucceeds, happ⟩ := hpend.continuation hapart node
  refine ⟨continuation, hsucceeds, ?_⟩
  rw [run_append]
  exact happ

/-- `NewSHA1` of the name of the first operation. -/
def sampleFirstOp : UUID :=
  #v[0x3e, 0xbe, 0x0a, 0xad, 0x81, 0x59, 0x52, 0x64, 0x8d, 0x4b, 0x7c, 0x18, 0x62, 0xcc, 0xe5, 0x6e]

/-- `NewSHA1` of the name of the second. -/
def sampleSecondOp : UUID :=
  #v[0xfc, 0xf1, 0x53, 0x76, 0xdc, 0xc4, 0x56, 0x6d, 0xa0, 0x96, 0x34, 0x44, 0x60, 0x35, 0x09, 0x0b]

/-- The hashes of three names and of one payload; those of the others do not matter. -/
def sampleRelayLibraries : Libraries where
  parse _ := none
  newSHA1 text :=
    if text = "espx-relay-op:1:1" then sampleFirstOp
    else if text = "espx-relay-op:1:2" then sampleSecondOp
    else sampleRegionID
  factorU _ :=
    #v[0xf7, 0x85, 0x77, 0xdd, 0xb5, 0x4f, 0x45, 0x28, 0x86, 0xbd, 0x62, 0x43, 0x4a, 0x02, 0x7d, 0x2b]

/-- A region with two events. -/
def sampleRelay : RegionRelay where
  lib := sampleRelayLibraries
  regionCode := 1
  eventType _ := "CAMPAIGN_UPDATED"
  payload _ := []

/-- A management node. -/
def sampleLeaseNode : LeaseNode := ⟨"node-1", "host-1", true, 30, by decide⟩

/-- Nothing is booked and nothing delivered. -/
def sampleRelayStart : RelayState where
  store :=
    { tables := ⟨Table.empty, fun _ => [], fun _ => none, 0⟩
      fencing := fun _ _ => 0
      proposals := Table.empty
      pg := ⟨Table.empty, Table.empty, [], ∅, Table.empty⟩
      regionApplied := ∅
      delivered := ∅
      handled := ∅ }
  calls := []

/-- A call of an event all of whose calls are answered, at a time. -/
def sampleRelayCall (call : ℕ) (event : Int64) (now : ℕ) : List RelayAction :=
  [.ensureBook sampleLeaseNode event 0 .answered, .claim call .answered,
    .execute call (.answered now sampleFirstOp)]

/-- The operations of the sample region. -/
theorem sampleRelay_opID (other : Int64) :
    sampleRelay.relayDeliveryOpID other =
      if other = 1 then sampleFirstOp
      else if other = 2 then sampleSecondOp
      else sampleRegionID := by
  have hname (first : Int64) : "espx-relay-op:1:" ++ toString other.toInt =
      "espx-relay-op:1:" ++ toString first.toInt ↔ other = first := by
    rw [String.append_right_inj]
    exact ⟨fun heq => Int64.toInt_inj.mp (Int.repr_injective heq), fun heq => heq ▸ rfl⟩
  change sampleRelayLibraries.newSHA1 ("espx-relay-op:1:" ++ toString other.toInt) = _
  have hone : "espx-relay-op:1:1" = "espx-relay-op:1:" ++ toString (1 : Int64).toInt := by
    decide +kernel
  have htwo : "espx-relay-op:1:2" = "espx-relay-op:1:" ++ toString (2 : Int64).toInt := by
    decide +kernel
  simp only [sampleRelayLibraries, hone, htwo, hname]

theorem sampleRelay_apart_one : sampleRelay.Apart 1 := by
  refine ⟨fun other hother => ?_, by decide +kernel, by decide +kernel⟩
  rw [sampleRelay_opID, sampleRelay_opID, if_neg hother, if_pos rfl]
  split
  · decide
  · decide

theorem sampleRelay_apart_two : sampleRelay.Apart 2 := by
  refine ⟨fun other hother => ?_, by decide +kernel, by decide +kernel⟩
  have hne : ¬ (2 : Int64) = 1 := by decide
  rw [sampleRelay_opID, sampleRelay_opID, if_neg hother, if_neg hne, if_pos rfl]
  split
  · decide
  · decide

theorem sampleRelayStart_undelivered (event : Int64) :
    Undelivered sampleRelay event sampleRelayStart where
  lone := by
    intro opID lease hlease
    cases hlease
  unleased := rfl
  replicas := rfl
  confirmable := fun _ => .inl rfl
  handled := fun hmem => absurd hmem (Finset.notMem_empty _)
  calls := rfl

/-- A delivery whose first attempt to claim fails, a janitor, some time, and another delivery of the
same event. -/
def sampleDeliveries : List RelayAction :=
  [.ensureBook sampleLeaseNode 1 0 .answered, .claim 0 { ClaimInput.answered with claim := .failed },
    .elapse 7, .runJanitor [sampleFirstOp]] ++ sampleRelayCall 1 1 8

/-- The run of one event meets the condition, and its second call has applied it. -/
theorem leased_delivery_applied_again :
    Admissible (fun s a => s.safe sampleRelay 1 a) (RelayState.step sampleRelay) sampleRelayStart
        sampleDeliveries ∧
      (∃ call ∈ (run (RelayState.step sampleRelay) sampleRelayStart sampleDeliveries).calls,
        call.event = 1 ∧ call.phase = .returned none) ∧
      (run (RelayState.step sampleRelay) sampleRelayStart sampleDeliveries).store.applied 1 = true := by
  have hsafe : Admissible (fun s a => s.safe sampleRelay 1 a) (RelayState.step sampleRelay)
      sampleRelayStart sampleDeliveries := by decide +kernel
  have hcall : ∃ call ∈ (run (RelayState.step sampleRelay) sampleRelayStart sampleDeliveries).calls,
      call.event = 1 ∧ call.phase = .returned none := by decide +kernel
  obtain ⟨call, hmem, hevent, hphase⟩ := hcall
  exact ⟨hsafe, ⟨call, hmem, hevent, hphase⟩,
    (leased_delivery_applied sampleRelay_apart_one (sampleRelayStart_undelivered 1) hsafe).1 call hmem
      hevent hphase⟩

/-- Two events of a region are delivered, each by a call that succeeds in all it asks for. The second
event is not applied, and it never will be. -/
theorem second_event_never_applied :
    (∀ a ∈ sampleRelayCall 0 1 0 ++ sampleRelayCall 1 2 0, a.Succeeds sampleLeaseNode) ∧
      (∃ call ∈ (run (RelayState.step sampleRelay) sampleRelayStart
          (sampleRelayCall 0 1 0 ++ sampleRelayCall 1 2 0)).calls,
        call.event = 2 ∧ call.phase = .returned none) ∧
      ∀ continuation, (run (RelayState.step sampleRelay) sampleRelayStart
        (sampleRelayCall 0 1 0 ++ sampleRelayCall 1 2 0 ++ continuation)).store.applied 2 = false := by
  refine ⟨?_, by decide +kernel, fun continuation => ?_⟩
  · intro a ha
    simp only [sampleRelayCall, List.cons_append, List.nil_append, List.mem_cons, List.not_mem_nil,
      or_false] at ha
    rcases ha with rfl | rfl | rfl | rfl | rfl | rfl
    all_goals first
      | exact ⟨rfl, rfl⟩
      | rfl
      | exact ⟨_, _, rfl⟩
  · rw [run_append]
    refine Stranded.never_applied ⟨?_, ?_, ?_, ?_⟩ sampleRelay_apart_two continuation
    · decide +kernel
    · decide +kernel
    · decide +kernel
    · decide +kernel

end

end Espx.ControlPlane
