import Espx.Foundation.Run

/-!
# Leaders of a topic

The nodes of a cluster compete for the leader key of a topic in Redis. A node that gets it is ready if its
log is not behind the high-water mark (HWM) in Redis, and otherwise once a goroutine finds it caught up,
or after five seconds. A tick is one step; the answers of Redis and of the partition log in it are inputs.
Topics share no key and no state, so this is about one.
-/

namespace Espx.Broker

open Espx.Foundation

/-- `topicLeaderState`. -/
structure TopicLeaderState where
  isLeader : Bool
  epoch : ℕ
  ready : Bool

/-- A goroutine in `recoverLeaderReadiness`: its target, and the acquisition that it was started for. -/
structure Recovery where
  targetHWM : ℕ
  term : ℕ

/-- A node: its state for the topic, the next offset and the fencing epoch of its log, the goroutines that
wait for it to catch up and the HWMs still to be published. Not in the code: the number of its
acquisitions, the HWM at the last one, and whether its grace period has elapsed. -/
structure BrokerNode where
  state : TopicLeaderState
  nextOffset : ℕ
  fencingEpoch : ℕ
  recoveries : List Recovery
  publications : List ℕ
  term : ℕ
  acquiredHWM : ℕ
  graceElapsed : Bool

/-- The keys of the topic in Redis; a HWM that is not there reads as zero. -/
structure TopicKeys (ι : Type*) where
  leader : Option ι
  leaderEpoch : ℕ
  lastWinner : Option ι
  logHWM : ℕ

/-- The answers in a tick: which calls to Redis succeed, whether the last win was a moment ago, whether
the log can be opened, and whether the lease was renewed. -/
structure TickAnswers where
  setNX : Bool
  recent : Bool
  readEpoch : Bool
  incr : Bool
  del : Bool
  partition : Bool
  readHWM : Bool
  publish : Bool
  get : Bool
  renewed : Bool

/-- What one node sees: the keys, and itself. -/
structure NodeView (ι : Type*) where
  keys : TopicKeys ι
  node : BrokerNode

namespace NodeView

variable {ι : Type*}

/-- `PublishLogHWM`. -/
def publishLogHWM (v : NodeView ι) (hwm : ℕ) (ok : Bool) : NodeView ι :=
  if ok then { v with keys := { v.keys with logHWM := hwm } } else v

/-- `setLeaderState`. -/
def setLeaderState (v : NodeView ι) (isLeader : Bool) (epoch : ℕ) (ready : Bool) : NodeView ι :=
  { v with node := { v.node with state := ⟨isLeader, epoch, if isLeader then ready else false⟩ } }

/-- `setLeaderReady`. -/
def setLeaderReady (v : NodeView ι) (ready : Bool) : NodeView ι :=
  if v.node.state.isLeader then
    { v with node := { v.node with state := { v.node.state with ready := ready } } }
  else v

/-- `readEpoch`. -/
def readEpoch (v : NodeView ι) (answers : TickAnswers) : ℕ :=
  if answers.readEpoch then v.keys.leaderEpoch else 0

/-- `demoteTopic`. -/
def demoteTopic (v : NodeView ι) (clusterEpoch : ℕ) (answers : TickAnswers) : NodeView ι :=
  let v := v.setLeaderState false 0 false
  if clusterEpoch = 0 then v
  else if answers.partition then
    { v with node := { v.node with fencingEpoch := max v.node.fencingEpoch clusterEpoch } }
  else v

/-- The node has acquired the leader key, and notes the HWM in Redis. -/
def beginTerm (v : NodeView ι) : NodeView ι :=
  { v with
    node :=
      { v.node with term := v.node.term + 1, acquiredHWM := v.keys.logHWM, graceElapsed := false } }

variable [DecidableEq ι]

/-- `acquireEpoch`: a node that won a moment ago keeps its epoch. -/
def acquireEpoch (v : NodeView ι) (i : ι) (answers : TickAnswers) : Option ℕ × NodeView ι :=
  if v.keys.lastWinner = some i ∧ answers.recent = true ∧ 0 < v.readEpoch answers then
    (some (v.readEpoch answers), v)
  else if answers.incr then
    (some (v.keys.leaderEpoch + 1),
      { v with keys := { v.keys with leaderEpoch := v.keys.leaderEpoch + 1, lastWinner := some i } })
  else (none, v)

/-- The goroutine that waits for a leader that is not ready. -/
def startRecovery (v : NodeView ι) (hwm : ℕ) (ready : Bool) : NodeView ι :=
  if ready then v
  else { v with node := { v.node with recoveries := v.node.recoveries ++ [⟨hwm, v.node.term⟩] } }

/-- `onAcquiredLeadership`. -/
def onAcquiredLeadership (v : NodeView ι) (epoch : ℕ) (answers : TickAnswers) : NodeView ι :=
  let v := v.beginTerm
  if answers.partition = false then v.setLeaderState true epoch true
  else
    let localOffset := v.node.nextOffset
    let hwm := if answers.readHWM then v.keys.logHWM else 0
    let ready := decide (localOffset ≥ hwm)
    ((v.setLeaderState true epoch ready).publishLogHWM localOffset answers.publish).startRecovery hwm ready

/-- `coordTopic`. -/
def coordTopic (v : NodeView ι) (i : ι) (answers : TickAnswers) : NodeView ι :=
  if answers.setNX = false then v
  else
    match v.keys.leader with
    | none =>
      let won := { v with keys := { v.keys with leader := some i } }
      match won.acquireEpoch i answers with
      | (none, w) => if answers.del then { w with keys := { w.keys with leader := none } } else w.beginTerm
      | (some epoch, w) => w.onAcquiredLeadership epoch answers
    | some currentLeader =>
      if answers.get = true ∧ currentLeader = i then
        let epoch := v.readEpoch answers
        let v := if answers.partition then v.publishLogHWM v.node.nextOffset answers.publish else v
        if answers.renewed = false then v.demoteTopic (v.readEpoch answers) answers
        else v.setLeaderState true epoch true
      else if v.node.state.isLeader then v.demoteTopic (v.readEpoch answers) answers
      else v

/-- A goroutine of `recoverLeaderReadiness` has returned. -/
def endRecovery (v : NodeView ι) (k : ℕ) : NodeView ι :=
  { v with node := { v.node with recoveries := v.node.recoveries.eraseIdx k } }

/-- A look of the goroutine before its deadline. -/
def catchUp (v : NodeView ι) (k : ℕ) (partition : Bool) : NodeView ι :=
  match v.node.recoveries[k]? with
  | none => v
  | some recovery =>
    if partition = true ∧ v.node.nextOffset ≥ recovery.targetHWM then
      (v.setLeaderReady true).endRecovery k
    else v

/-- The end of the goroutine, after its deadline. -/
def timeout (v : NodeView ι) (k : ℕ) (partition publish : Bool) : NodeView ι :=
  match v.node.recoveries[k]? with
  | none => v
  | some recovery =>
    let v :=
      { v with
        node := { v.node with graceElapsed := v.node.graceElapsed || recovery.term == v.node.term } }
    let v := if partition then v.publishLogHWM v.node.nextOffset publish else v
    (v.setLeaderReady true).endRecovery k

/-- `handleProduce` and `appendLeader`, by whether `HasLeader` answers and `AppendFenced` succeeds. The
HWM is published later. -/
def produce (v : NodeView ι) (leaderKnown appended : Bool) : NodeView ι :=
  if v.node.state.isLeader = false ∧ leaderKnown = true ∧ v.keys.leader.isSome = true then v
  else if v.node.state.isLeader = true ∧ v.node.state.ready = false then v
  else if appended = false then v
  else
    { v with
      node :=
        { v.node with
          nextOffset := v.node.nextOffset + 1
          publications :=
            if v.node.state.isLeader then v.node.publications ++ [v.node.nextOffset + 1]
            else v.node.publications } }

/-- Records that are replicated from the leader. -/
def replicate (v : NodeView ι) (count : ℕ) : NodeView ι :=
  { v with node := { v.node with nextOffset := v.node.nextOffset + count } }

/-- The publication of an append reaches Redis, or it is lost. -/
def publish (v : NodeView ι) (k : ℕ) (ok : Bool) : NodeView ι :=
  match v.node.publications[k]? with
  | none => v
  | some hwm =>
    ({ v with node := { v.node with publications := v.node.publications.eraseIdx k } }).publishLogHWM hwm
      ok

end NodeView

/-- What a node does. -/
inductive NodeAction
  | tick (answers : TickAnswers)
  | catchUp (k : ℕ) (partition : Bool)
  | timeout (k : ℕ) (partition publish : Bool)
  | produce (leaderKnown appended : Bool)
  | replicate (count : ℕ)
  | publish (k : ℕ) (ok : Bool)

/-- A node does something, or the lease of the leader key expires. -/
inductive ClusterAction (ι : Type*)
  | node (i : ι) (action : NodeAction)
  | expire

/-- The keys in Redis, and the nodes. -/
structure BrokerCluster (ι : Type*) where
  keys : TopicKeys ι
  node : ι → BrokerNode

namespace BrokerCluster

variable {ι : Type*}

/-- Nodes with any logs, none of them leader, and any HWM. -/
def start (offsets : ι → ℕ) (logHWM : ℕ) : BrokerCluster ι where
  keys := ⟨none, 0, none, logHWM⟩
  node i := ⟨⟨false, 0, false⟩, offsets i, 0, [], [], 0, 0, false⟩

/-- What a node sees. -/
def view (c : BrokerCluster ι) (i : ι) : NodeView ι := ⟨c.keys, c.node i⟩

variable [DecidableEq ι]

/-- What a node's action makes of what it sees. -/
def act (v : NodeView ι) (i : ι) : NodeAction → NodeView ι
  | .tick answers => v.coordTopic i answers
  | .catchUp k partition => v.catchUp k partition
  | .timeout k partition publish => v.timeout k partition publish
  | .produce leaderKnown appended => v.produce leaderKnown appended
  | .replicate count => v.replicate count
  | .publish k ok => v.publish k ok

/-- One action. -/
def step (c : BrokerCluster ι) : ClusterAction ι → BrokerCluster ι
  | .node i action =>
    let v := act (c.view i) i action
    ⟨v.keys, Function.update c.node i v.node⟩
  | .expire => { c with keys := { c.keys with leader := none } }

/-- `IsLeaderReady`. -/
def isLeaderReady (c : BrokerCluster ι) (i : ι) : Bool := (c.node i).state.isLeader && (c.node i).state.ready

end BrokerCluster

end Espx.Broker
