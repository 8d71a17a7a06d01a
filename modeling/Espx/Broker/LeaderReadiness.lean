import Espx.Broker.Coordinator

/-!
# When a leader serves, and what becomes of the high-water mark

A ready leader has caught up with the HWM that was in Redis when it acquired the key, or its grace period
has elapsed, as long as nothing makes it ready unchecked. The HWM is lowered by the end of a grace period
and by each plain write of a smaller offset.
-/

namespace Espx.Broker

open Espx.Foundation

/-- The node has caught up with the HWM of its acquisition, or its grace period has elapsed. -/
def BrokerNode.CaughtUp (n : BrokerNode) : Prop := n.acquiredHWM ≤ n.nextOffset ∨ n.graceElapsed = true

/-- The node reports itself ready only if it has caught up. -/
def BrokerNode.Serves (n : BrokerNode) : Prop :=
  n.state.isLeader = true → n.state.ready = true → n.CaughtUp

namespace NodeView

variable {ι : Type*} {v : NodeView ι} {i : ι}

section

variable [DecidableEq ι]

/-- The node gets an epoch for the leader key: it won a moment ago, or Redis counts one up. -/
def Wins (v : NodeView ι) (i : ι) (answers : TickAnswers) : Prop :=
  (v.keys.lastWinner = some i ∧ answers.recent = true ∧ 0 < v.readEpoch answers) ∨ answers.incr = true

/-- What a tick does not make sure of: a new leader has caught up where its log or the HWM cannot be read,
or where it keeps a key that it could not give back; and a leader whose lease is renewed has caught up. -/
@[mk_iff] structure TickChecked (v : NodeView ι) (i : ι) (answers : TickAnswers) : Prop where
  unread : answers.setNX = true → v.keys.leader = none → v.Wins i answers →
    answers.partition = false ∨ answers.readHWM = false → v.keys.logHWM ≤ v.node.nextOffset
  kept : answers.setNX = true → v.keys.leader = none → ¬v.Wins i answers → answers.del = false →
    v.node.state.isLeader = true → v.node.state.ready = true → v.keys.logHWM ≤ v.node.nextOffset
  renewed : answers.setNX = true → v.keys.leader = some i → answers.get = true →
    answers.renewed = true → v.node.CaughtUp

/-- What an action does not make sure of before it makes the node ready; a goroutine may belong to an
earlier acquisition. -/
def Checked (v : NodeView ι) (i : ι) : NodeAction → Prop
  | .tick answers => v.TickChecked i answers
  | .catchUp k partition => ∀ recovery ∈ v.node.recoveries[k]?, partition = true →
      recovery.targetHWM ≤ v.node.nextOffset → v.node.state.isLeader = true → v.node.CaughtUp
  | .timeout k _ _ => ∀ recovery ∈ v.node.recoveries[k]?, v.node.state.isLeader = true →
      recovery.term = v.node.term ∨ v.node.CaughtUp
  | .produce _ _ | .replicate _ | .publish _ _ => True

/-- What an action other than the end of a grace period does not make sure of: the HWM that it writes is
not smaller. -/
def Raises (v : NodeView ι) (i : ι) : NodeAction → Prop
  | .tick answers => answers.setNX = true → answers.partition = true → answers.publish = true →
      (v.keys.leader = none ∧ v.Wins i answers) ∨ (v.keys.leader = some i ∧ answers.get = true) →
      v.keys.logHWM ≤ v.node.nextOffset
  | .publish k ok => ∀ hwm ∈ v.node.publications[k]?, ok = true → v.keys.logHWM ≤ hwm
  | .timeout _ _ _ | .catchUp _ _ | .produce _ _ | .replicate _ => True

end

/-- Which of its two results `acquireEpoch` has. -/
theorem acquireEpoch_cases [DecidableEq ι] (v : NodeView ι) (i : ι) (answers : TickAnswers) :
    (v.Wins i answers ∧ ∃ epoch w, v.acquireEpoch i answers = (some epoch, w) ∧ w.node = v.node ∧
        w.keys.logHWM = v.keys.logHWM) ∨ (¬v.Wins i answers ∧ v.acquireEpoch i answers = (none, v)) := by
  unfold acquireEpoch Wins
  split
  next hrecent => exact .inl ⟨.inl hrecent, _, _, rfl, rfl, rfl⟩
  next hrecent =>
    split
    next hincr => exact .inl ⟨.inr hincr, _, _, rfl, rfl, rfl⟩
    next hincr => exact .inr ⟨not_or.mpr ⟨hrecent, hincr⟩, rfl⟩

@[simp] theorem node_publishLogHWM (v : NodeView ι) (hwm : ℕ) (ok : Bool) :
    (v.publishLogHWM hwm ok).node = v.node := by
  cases ok <;> rfl

/-- A node that has acquired the key serves as it should exactly when its log and the HWM could be read,
or it is not behind. -/
theorem serves_onAcquiredLeadership (v : NodeView ι) (epoch : ℕ) (answers : TickAnswers) :
    (v.onAcquiredLeadership epoch answers).node.Serves ↔
      (answers.partition = false ∨ answers.readHWM = false → v.keys.logHWM ≤ v.node.nextOffset) := by
  have hrecovery : ∀ (w : NodeView ι) (hwm : ℕ) (ready : Bool),
      (w.startRecovery hwm ready).node.Serves ↔ w.node.Serves := by
    intro w hwm ready
    cases ready <;> rfl
  unfold onAcquiredLeadership
  cases answers.partition with
  | false => simp [BrokerNode.Serves, BrokerNode.CaughtUp, setLeaderState, beginTerm]
  | true =>
    rw [if_neg (by decide), hrecovery, node_publishLogHWM]
    cases answers.readHWM <;> simp [BrokerNode.Serves, BrokerNode.CaughtUp, setLeaderState, beginTerm]

theorem serves_demoteTopic (v : NodeView ι) (clusterEpoch : ℕ) (answers : TickAnswers) :
    (v.demoteTopic clusterEpoch answers).node.Serves := by
  have hfollower : (v.demoteTopic clusterEpoch answers).node.state.isLeader = false := by
    unfold demoteTopic
    split
    · rfl
    · split <;> rfl
  intro hlead
  rw [hfollower] at hlead
  cases hlead

/-- A write of the HWM lowers it exactly when it succeeds with a smaller offset. -/
theorem le_logHWM_publishLogHWM (v : NodeView ι) (hwm : ℕ) (ok : Bool) :
    v.keys.logHWM ≤ (v.publishLogHWM hwm ok).keys.logHWM ↔ (ok = true → v.keys.logHWM ≤ hwm) := by
  cases ok with
  | false => exact ⟨fun _ h => absurd h Bool.false_ne_true, fun _ => Nat.le_refl _⟩
  | true => exact ⟨fun h _ => h, fun h => h rfl⟩

/-- What a new leader writes. -/
theorem logHWM_onAcquiredLeadership (v : NodeView ι) (epoch : ℕ) (answers : TickAnswers) :
    (v.onAcquiredLeadership epoch answers).keys.logHWM =
      if answers.partition = true ∧ answers.publish = true then v.node.nextOffset else v.keys.logHWM := by
  unfold onAcquiredLeadership
  cases answers.partition with
  | false => rfl
  | true =>
    have hkeys : ∀ (w : NodeView ι) (hwm : ℕ) (ready : Bool), (w.startRecovery hwm ready).keys = w.keys := by
      intro w hwm ready
      cases ready <;> rfl
    rw [if_neg (by decide), hkeys]
    cases answers.publish <;> rfl

theorem keys_demoteTopic (v : NodeView ι) (clusterEpoch : ℕ) (answers : TickAnswers) :
    (v.demoteTopic clusterEpoch answers).keys = v.keys := by
  unfold demoteTopic
  split
  · rfl
  · split <;> rfl

/-- A tick leaves a node that serves as it should exactly when it makes sure, and lowers the HWM exactly
when it writes a smaller offset. -/
theorem coordTopic_spec [DecidableEq ι] (v : NodeView ι) (i : ι) (answers : TickAnswers) :
    (v.node.Serves → ((v.coordTopic i answers).node.Serves ↔ v.TickChecked i answers)) ∧
      (v.keys.logHWM ≤ (v.coordTopic i answers).keys.logHWM ↔ v.Raises i (.tick answers)) := by
  rw [tickChecked_iff]
  unfold coordTopic Raises
  by_cases hsetNX : answers.setNX = false
  · simp [hsetNX]
  rw [if_neg hsetNX]
  cases hleader : v.keys.leader with
  | none =>
    dsimp only
    rcases acquireEpoch_cases { v with keys := { v.keys with leader := some i } } i answers with
      ⟨hwins, epoch, w, hacq, hnode, hhwm⟩ | ⟨hwins, hacq⟩
    · have hwins : v.Wins i answers := hwins
      rw [hacq]
      rw [serves_onAcquiredLeadership, logHWM_onAcquiredLeadership, hnode, hhwm]
      refine ⟨fun _ => by simp [hsetNX, hwins], ?_⟩
      split
      next hwrites => simp [hsetNX, hwins, hwrites]
      next hno => exact ⟨fun _ _ hpart hpub => absurd ⟨hpart, hpub⟩ hno, fun _ => Nat.le_refl _⟩
    have hwins : ¬v.Wins i answers := hwins
    rw [hacq]
    cases hdel : answers.del with
    | true => simp [hwins]
    | false => simp [hsetNX, hwins, beginTerm, BrokerNode.Serves, BrokerNode.CaughtUp]
  | some currentLeader =>
    dsimp only
    by_cases hown : answers.get = true ∧ currentLeader = i
    · obtain ⟨hget, rfl⟩ := hown
      have hnode : (if answers.partition = true then v.publishLogHWM v.node.nextOffset answers.publish
          else v).node = v.node := by
        split
        · rw [node_publishLogHWM]
        · rfl
      have hhwm : v.keys.logHWM ≤ (if answers.partition = true then
          v.publishLogHWM v.node.nextOffset answers.publish else v).keys.logHWM ↔
          (answers.partition = true → answers.publish = true → v.keys.logHWM ≤ v.node.nextOffset) := by
        split
        next hpart => simp [le_logHWM_publishLogHWM, hpart]
        next hpart => simp [hpart]
      cases hrenew : answers.renewed with
      | false => simp [hsetNX, hget, serves_demoteTopic, keys_demoteTopic, hhwm]
      | true => simp [hsetNX, hget, setLeaderState, BrokerNode.Serves, BrokerNode.CaughtUp, hnode, hhwm]
    · rw [if_neg hown]
      split
      · simp only [serves_demoteTopic, keys_demoteTopic, true_iff, reduceCtorEq, false_and, false_or,
          Option.some.injEq, Nat.le_refl, false_imp_iff, imp_true_iff, true_and]
        exact ⟨fun _ _ heq hget => absurd ⟨hget, heq⟩ hown,
          fun _ _ _ hmine => absurd ⟨hmine.2, hmine.1⟩ hown⟩
      · refine ⟨fun hv => ⟨fun _ => ?_, fun _ => hv⟩, ?_⟩
        · simpa using fun _ heq hget => absurd ⟨hget, heq⟩ hown
        · simpa using fun _ _ _ heq hget => absurd ⟨hget, heq⟩ hown

/-- A node that is made ready serves as it should exactly when it does not lead or has caught up. -/
theorem serves_endRecovery (v : NodeView ι) (k : ℕ) :
    ((v.setLeaderReady true).endRecovery k).node.Serves ↔
      (v.node.state.isLeader = true → v.node.CaughtUp) := by
  unfold setLeaderReady BrokerNode.Serves BrokerNode.CaughtUp
  cases hlead : v.node.state.isLeader with
  | false | true => simp [endRecovery, hlead]

/-- A look of a goroutine before its deadline. -/
theorem serves_catchUp (hv : v.node.Serves) (k : ℕ) (partition : Bool) :
    (v.catchUp k partition).node.Serves ↔ ∀ recovery ∈ v.node.recoveries[k]?, partition = true →
      recovery.targetHWM ≤ v.node.nextOffset → v.node.state.isLeader = true → v.node.CaughtUp := by
  unfold catchUp
  cases v.node.recoveries[k]? with
  | none => exact ⟨fun _ _ hmem => absurd hmem (Option.not_mem_none _), fun _ => hv⟩
  | some recovery =>
    dsimp only
    by_cases hdone : partition = true ∧ v.node.nextOffset ≥ recovery.targetHWM
    · rw [if_pos hdone, serves_endRecovery]
      exact ⟨fun h _ _ _ _ => h, fun h => h recovery rfl hdone.1 hdone.2⟩
    rw [if_neg hdone]
    refine ⟨fun _ other hmem hpart hle => ?_, fun _ => hv⟩
    obtain rfl := Option.some.inj hmem
    exact absurd ⟨hpart, hle⟩ hdone

/-- The end of a goroutine after its deadline. -/
theorem serves_timeout (hv : v.node.Serves) (k : ℕ) (partition publish : Bool) :
    (v.timeout k partition publish).node.Serves ↔ ∀ recovery ∈ v.node.recoveries[k]?,
      v.node.state.isLeader = true → recovery.term = v.node.term ∨ v.node.CaughtUp := by
  unfold timeout
  cases v.node.recoveries[k]? with
  | none => exact ⟨fun _ _ hmem => absurd hmem (Option.not_mem_none _), fun _ => hv⟩
  | some recovery =>
    rw [serves_endRecovery]
    have hgot : { v.node with graceElapsed :=
        v.node.graceElapsed || recovery.term == v.node.term }.CaughtUp ↔
        recovery.term = v.node.term ∨ v.node.CaughtUp := by
      simp only [BrokerNode.CaughtUp, Bool.or_eq_true, beq_iff_eq]
      tauto
    have hforall : (∀ other ∈ some recovery, v.node.state.isLeader = true →
        other.term = v.node.term ∨ v.node.CaughtUp) ↔
        (v.node.state.isLeader = true → recovery.term = v.node.term ∨ v.node.CaughtUp) :=
      ⟨fun h => h recovery rfl, fun h other hmem => Option.some.inj hmem ▸ h⟩
    rw [hforall]
    cases partition with
    | false => exact imp_congr_right fun _ => hgot
    | true =>
      simp only [if_true, node_publishLogHWM]
      exact imp_congr_right fun _ => hgot

/-- More records keep a node that serves as it should. -/
theorem serves_of_longer (hv : v.node.Serves) {n : BrokerNode} (hstate : n.state = v.node.state)
    (hoffset : v.node.nextOffset ≤ n.nextOffset) (hhwm : n.acquiredHWM = v.node.acquiredHWM)
    (hgrace : n.graceElapsed = v.node.graceElapsed) : n.Serves := by
  intro hlead hready
  rw [hstate] at hlead hready
  unfold BrokerNode.CaughtUp
  rw [hhwm, hgrace]
  exact (hv hlead hready).imp_left fun hle => Nat.le_trans hle hoffset

/-- An action leaves a node that serves as it should exactly when it makes sure. -/
theorem serves_act [DecidableEq ι] (hv : v.node.Serves) (action : NodeAction) :
    (BrokerCluster.act v i action).node.Serves ↔ v.Checked i action := by
  cases action with
  | tick answers => exact (v.coordTopic_spec i answers).1 hv
  | catchUp k partition => exact serves_catchUp hv k partition
  | timeout k partition publish => exact serves_timeout hv k partition publish
  | produce leaderKnown appended =>
    refine ⟨fun _ => trivial, fun _ => ?_⟩
    change (v.produce leaderKnown appended).node.Serves
    unfold produce
    split
    · exact hv
    split
    · exact hv
    · split
      · exact hv
      · exact serves_of_longer hv rfl (Nat.le_succ _) rfl rfl
  | replicate count =>
    exact ⟨fun _ => trivial, fun _ => serves_of_longer hv rfl (Nat.le_add_right _ count) rfl rfl⟩
  | publish k ok =>
    refine ⟨fun _ => trivial, fun _ => ?_⟩
    change (v.publish k ok).node.Serves
    unfold publish
    split
    · exact hv
    · rw [node_publishLogHWM]
      exact serves_of_longer hv rfl (Nat.le_refl _) rfl rfl

/-- An action lowers the HWM exactly when it is the end of a grace period or writes a smaller offset. -/
theorem le_logHWM_act [DecidableEq ι] (v : NodeView ι) (i : ι) (action : NodeAction) :
    ((∃ k partition publish, action = .timeout k partition publish) ∨
      v.keys.logHWM ≤ (BrokerCluster.act v i action).keys.logHWM) ↔ v.Raises i action := by
  cases action with
  | tick answers =>
    rw [← (v.coordTopic_spec i answers).2]
    exact or_iff_right fun ⟨_, _, _, h⟩ => by cases h
  | timeout k partition publish => exact ⟨fun _ => trivial, fun _ => .inl ⟨k, partition, publish, rfl⟩⟩
  | catchUp k partition =>
    refine ⟨fun _ => trivial, fun _ => .inr ?_⟩
    change v.keys.logHWM ≤ (v.catchUp k partition).keys.logHWM
    unfold catchUp
    split
    · exact Nat.le_refl _
    split
    · unfold setLeaderReady
      split <;> exact Nat.le_refl _
    · exact Nat.le_refl _
  | produce leaderKnown appended =>
    refine ⟨fun _ => trivial, fun _ => .inr ?_⟩
    change v.keys.logHWM ≤ (v.produce leaderKnown appended).keys.logHWM
    unfold produce
    split
    · exact Nat.le_refl _
    · split
      · exact Nat.le_refl _
      · split <;> exact Nat.le_refl _
  | replicate count => exact ⟨fun _ => trivial, fun _ => .inr (Nat.le_refl _)⟩
  | publish k ok =>
    refine (or_iff_right fun ⟨_, _, _, h⟩ => by cases h).trans ?_
    change v.keys.logHWM ≤ (v.publish k ok).keys.logHWM ↔ ∀ hwm ∈ v.node.publications[k]?, _
    unfold publish
    cases v.node.publications[k]? with
    | none => exact ⟨fun _ _ hmem => absurd hmem (Option.not_mem_none _), fun _ => Nat.le_refl _⟩
    | some hwm =>
      have hwrite := le_logHWM_publishLogHWM
        { v with node := { v.node with publications := v.node.publications.eraseIdx k } } hwm ok
      exact hwrite.trans ⟨fun h other hmem => Option.some.inj hmem ▸ h, fun h => h hwm rfl⟩

end NodeView

namespace BrokerCluster

variable {ι : Type*} [DecidableEq ι]

/-- What an action does not make sure of before it makes a node ready. -/
def Checked (c : BrokerCluster ι) : ClusterAction ι → Prop
  | .node i action => (c.view i).Checked i action
  | .expire => True

/-- What an action does not make sure of before it writes the HWM. -/
def Raises (c : BrokerCluster ι) : ClusterAction ι → Prop
  | .node i action => (c.view i).Raises i action
  | .expire => True

/-- The end of a grace period. -/
def EndsGrace (action : ClusterAction ι) : Prop :=
  ∃ i k partition publish, action = .node i (.timeout k partition publish)

/-- All nodes serve as they should. -/
def Serve (c : BrokerCluster ι) : Prop := ∀ i, (c.node i).Serves

/-- An action leaves nodes that serve as they should exactly when it makes sure. -/
theorem serve_step_iff {c : BrokerCluster ι} (hc : c.Serve) (action : ClusterAction ι) :
    (c.step action).Serve ↔ c.Checked action := by
  cases action with
  | expire => exact ⟨fun _ => trivial, fun _ => hc⟩
  | node i action =>
    have hact := NodeView.serves_act (v := c.view i) (i := i) (hc i) action
    refine (Function.forall_update_iff c.node fun _ node => node.Serves).trans ?_
    rw [hact]
    exact and_iff_left fun j _ => hc j

/-- An action lowers the HWM exactly when it is the end of a grace period or writes a smaller offset. -/
theorem raises_step_iff (c : BrokerCluster ι) (action : ClusterAction ι) :
    (EndsGrace action ∨ c.keys.logHWM ≤ (c.step action).keys.logHWM) ↔ c.Raises action := by
  cases action with
  | expire => exact ⟨fun _ => trivial, fun _ => .inr (Nat.le_refl _)⟩
  | node i action =>
    refine Iff.trans (or_congr_left ?_) (NodeView.le_logHWM_act (c.view i) i action)
    constructor
    · rintro ⟨j, k, partition, publish, heq⟩
      obtain ⟨-, rfl⟩ := ClusterAction.node.inj heq
      exact ⟨k, partition, publish, rfl⟩
    · rintro ⟨k, partition, publish, rfl⟩
      exact ⟨i, k, partition, publish, rfl⟩

/-- In every run, a node that reports itself ready has caught up with the HWM of its acquisition, or its
grace period has elapsed, exactly when every step makes sure of it; and only the end of a grace period
lowers the HWM exactly when no other step writes a smaller offset. -/
theorem leaders_caught_up_iff (offsets : ι → ℕ) (logHWM : ℕ) (actions : List (ClusterAction ι)) :
    ((∀ done, done <+: actions → ∀ i, (run step (start offsets logHWM) done).isLeaderReady i = true →
        ((run step (start offsets logHWM) done).node i).CaughtUp) ↔
      Admissible Checked step (start offsets logHWM) actions) ∧
    (Admissible (fun c action => EndsGrace action ∨ c.keys.logHWM ≤ (c.step action).keys.logHWM) step
        (start offsets logHWM) actions ↔ Admissible Raises step (start offsets logHWM) actions) := by
  have hready : ∀ c : BrokerCluster ι,
      (∀ i, c.isLeaderReady i = true → (c.node i).CaughtUp) ↔ c.Serve := by
    intro c
    refine forall_congr' fun i => ?_
    rw [isLeaderReady, Bool.and_eq_true, and_imp]
    exact Iff.rfl
  constructor
  · simp only [hready]
    have hvalid : Admissible (fun _ _ => True) step (start offsets logHWM) actions :=
      Admissible.of_forall (fun _ _ => trivial) _
    have hstart : (start offsets logHWM).Serve := fun i hlead => by cases hlead
    have hgood : ∀ c : BrokerCluster ι, c.Serve → c.Serve := fun _ hc => hc
    apply forall_reached_iff_admissible hgood _ _ hstart hvalid
    · exact fun c action _ hok hc => (serve_step_iff hc action).mpr hok
    · exact fun c action _ hc hafter => (serve_step_iff hc action).mp hafter
  · have hpointwise : (fun (c : BrokerCluster ι) action =>
        EndsGrace action ∨ c.keys.logHWM ≤ (c.step action).keys.logHWM) = Raises := by
      funext c action
      exact propext (raises_step_iff c action)
    rw [hpointwise]

/-- All calls in the tick succeed; the last win was not a moment ago. -/
def allSucceed : TickAnswers := ⟨true, false, true, true, true, true, true, true, true, true⟩

/-- A node that is behind acquires the key, and renews its lease: it is ready at once, and the HWM is
lowered to its own offset when it acquires. -/
theorem leader_behind_ready :
    let actions : List (ClusterAction ℕ) := [.node 0 (.tick allSucceed), .node 0 (.tick allSucceed)]
    let c := run step (start (fun _ => 0) 5) actions
    c.isLeaderReady 0 = true ∧ ¬(c.node 0).CaughtUp ∧ (c.node 0).acquiredHWM = 5 ∧
      (c.node 0).nextOffset = 0 ∧
      (run step (start (fun _ : ℕ => 0) 5) [.node 0 (.tick allSucceed)]).keys.logHWM = 0 := by
  refine ⟨by decide, ?_, by decide, by decide, by decide⟩
  unfold BrokerNode.CaughtUp
  decide

end BrokerCluster

end Espx.Broker
