import Espx.SlotMigration.DualWrite

/-!
# Several slots that leave one shard

The flag, the delta stream and its cursor are single keys of the source shard, while each slot has its own
target. A call for one slot applies every entry after the cursor to that slot's target; enabling a slot
deletes the cursor, and finalising one deletes all three keys. The applied entries are kept as a history
of places and shards.
-/

namespace Espx.SlotMigration

open Espx.Foundation Espx.Domain Espx.Ingestion Espx.Settlement

/-- `CampaignSlotIndex`. -/
def campaignSlotIndex (id : UUID) : ℕ := (crc32Castagnoli id &&& 1023).toNat

/-- The slots that leave the shard, the targets of their jobs, `SlotMigrationDualWriteConfig` and the
readers of texts. -/
structure SourcePlan where
  texts : Texts
  migrating : List ℕ
  target : ℕ → ℕ
  lagEpsilon : ℤ
  lagThreshold : ℤ

/-- The state of a slot's job, as far as it matters to the stream. -/
inductive SlotJob
  | copying
  | dualWriting
  | copied
  deriving DecidableEq

/-- Where the control plane is: between its calls for slots, inside `EnableSlotMigrationDualWrite`, inside
`finalizeDualWriteSlot`, or about to disable dual writes because of the lag of a slot or a slot that was
marked as copied. -/
inductive Phase
  | ready
  | flagSet (slot : ℕ)
  | finalizing (slot : ℕ)
  | overdue (slot : ℕ)
  | checked (slot : ℕ)
  | marked (slot : ℕ)
  deriving DecidableEq

/-- The source shard, the other shards, the jobs, the control plane with the call of
`CatchUpSlotMigrationDeltas` under way, and the places and shards of the entries applied so far. -/
structure SharedSource where
  src : Shard
  shards : ℕ → Redis
  job : ℕ → SlotJob
  phase : Phase
  caller : ℕ
  call : CatchUp
  applied : List (ℕ × ℕ)

/-- The steps: debits and the environment on the source shard, and the calls of the control plane. -/
inductive SharedAction
  | debit (x : FilterExecution)
  | trim (upTo : ℕ)
  | cursorExpires
  | flagExpires
  | copyKey (slot : ℕ) (key : String)
  | setFlag (slot : ℕ) (value : String)
  | delCursor
  | catchUp (slot : ℕ) (part : Part)
  | checkLag (slot : ℕ)
  | fence (id : UUID) (gen : ℤ)
  | disable
  | reject
  | markCopied

/-- Where the control plane is after a part of a call of `CatchUpSlotMigrationDeltas`. -/
def SourcePlan.after (p : SourcePlan) (slot : ℕ) : Phase → Option Returned → Phase
  | .ready, some (.counted _ lag _ false) => if p.lagThreshold < lag then .overdue slot else .ready
  | .finalizing slot', some (.counted _ lag _ false) =>
    if p.lagEpsilon < lag then .ready else .checked slot'
  | .finalizing _, some _ => .ready
  | phase, _ => phase

/-- A slot may be caught up: in the loop of `CatchUpDualWriteSlots`, or by its own finalisation. -/
def Phase.admits (slot : ℕ) : Phase → Bool
  | .ready => true
  | .finalizing slot' => slot' = slot
  | _ => false

namespace SharedSource

variable (p : SourcePlan) (s : SharedSource)

/-- The slots that are in dual write. -/
def writing : List ℕ := p.migrating.filter fun slot => s.job slot = .dualWriting

/-- The source and the target of a slot, with the call that is under way. -/
def transfer (slot : ℕ) : Transfer := ⟨s.src, s.shards (p.target slot), s.call⟩

/-- No call is under way. -/
def resting : Bool := (s.transfer p 0).resting

/-- The state after a part of a call for a slot. -/
def caughtUp (slot : ℕ) (part : Part) : SharedSource :=
  let result := (s.transfer p slot).perform p.texts part
  { s with
    src := result.1.src
    shards := Function.update s.shards (p.target slot) result.1.dst
    phase := p.after slot s.phase result.2
    caller := slot
    call := result.1.call
    applied := s.applied ++
      ((s.transfer p slot).appliedBy result.1).toList.map fun place => (place, p.target slot) }

/-- The state after the keys of the source shard changed. -/
def onSource (redis : Redis) : SharedSource := { s with src := { s.src with redis := redis } }

/-- One step. -/
def step : SharedAction → SharedSource
  | .debit x => s.onSource (x.execute s.src.redis).2
  | .trim upTo => { s with src := s.src.trim upTo }
  | .cursorExpires => { s with src := s.src.delCursor }
  | .flagExpires => s.onSource (s.src.redis.delText dualWriteFlag)
  | .copyKey slot key =>
    if s.phase = .ready ∧ s.resting p ∧ slot ∈ p.migrating ∧ s.job slot = .copying then
      { s with
        shards := Function.update s.shards (p.target slot)
          (migrateKey s.src.redis (s.shards (p.target slot)) key) }
    else s
  | .setFlag slot value =>
    if s.phase = .ready ∧ s.resting p ∧ slot ∈ p.migrating ∧ s.job slot = .copying then
      { s.onSource (s.src.redis.setText dualWriteFlag value) with phase := .flagSet slot }
    else s
  | .delCursor =>
    match s.phase with
    | .flagSet slot =>
      { s with
        src := s.src.delCursor
        job := Function.update s.job slot .dualWriting
        phase := .ready }
    | _ => s
  | .catchUp slot part =>
    if s.phase.admits slot ∧ slot ∈ s.writing p ∧ (s.resting p ∨ slot = s.caller) then
      s.caughtUp p slot part
    else s
  | .checkLag slot =>
    if s.phase = .ready ∧ s.resting p ∧ slot ∈ s.writing p then
      if p.lagThreshold < s.src.pending.length then { s with phase := .overdue slot }
      else if p.lagEpsilon < s.src.pending.length then s
      else { s with phase := .finalizing slot }
    else s
  | .fence id gen =>
    match s.phase with
    | .overdue _ => s.onSource (s.src.redis.setNum (migrationFenceRedisKey id) gen)
    | _ => s
  | .disable =>
    match s.phase with
    | .overdue _ | .marked _ => { s with src := s.src.disabled, phase := .ready }
    | _ => s
  | .reject =>
    match s.phase with
    | .flagSet _ | .overdue _ | .checked _ | .marked _ => { s with phase := .ready }
    | _ => s
  | .markCopied =>
    match s.phase with
    | .checked slot =>
      { s with job := Function.update s.job slot .copied, phase := .marked slot }
    | _ => s

end SharedSource

/-- The slot of the campaign whose debit an entry is, where that slot leaves the shard. -/
def SourcePlan.slotOf (p : SourcePlan) (entry : Entry) : Option ℕ :=
  match parseSlotMigrationDelta p.texts entry with
  | none => none
  | some delta =>
    if campaignSlotIndex delta.campaignID ∈ p.migrating then some (campaignSlotIndex delta.campaignID)
    else none

/-- The slot that the control plane is about to enable or has just taken out of dual write. -/
def Phase.slot : Phase → Option ℕ
  | .ready => none
  | .flagSet slot | .finalizing slot | .overdue slot | .checked slot | .marked slot => some slot

/-- The steps of `EnableSlotMigrationDualWrite`, of the end of `finalizeDualWriteSlot` and of
`DisableSlotMigrationDualWrite`. -/
def SharedAction.enablesOrFinalises : SharedAction → Bool
  | .setFlag _ _ | .delCursor | .markCopied | .disable => true
  | _ => false

namespace SharedSource

variable (p : SourcePlan)

/-- Each delta of a slot from a state on has been applied once, to the target of its slot and to no other
shard; or not yet, and it is still in the stream after the cursor. -/
def AppliedOnce (s₀ s : SharedSource) : Prop :=
  ∀ place entry slot, s₀.src.start ≤ place → s.src.log.entries[place]? = some entry →
    p.slotOf entry = some slot →
    s.applied.filter (fun item => item.1 = place) = [(place, p.target slot)] ∨
      s.applied.filter (fun item => item.1 = place) = [] ∧ s.src.start ≤ place

variable (s : SharedSource)

/-- Other slots than the one the control plane is at are in dual write. -/
def othersWriting : Bool := (s.writing p).any fun slot => some slot ≠ s.phase.slot

/-- A step that enables or finalises a slot leaves what is pending for the others, and the cursor. -/
def Intact (a : SharedAction) : Prop :=
  a.enablesOrFinalises = true → s.othersWriting p = true →
    (s.step p a).src.pending = s.src.pending ∧ (s.step p a).src.cursorKey = s.src.cursorKey

/-- A step that copies no key writes to the shards what the entry says that it adds to the history. -/
def Recorded (a : SharedAction) : Prop :=
  (∃ slot key, a = .copyKey slot key) ∨
    (s.step p a).applied = s.applied ∧ (s.step p a).shards = s.shards ∨
    ∃ place entry shard, s.src.log.entries[place]? = some entry ∧
      (s.step p a).applied = s.applied ++ [(place, shard)] ∧
      (s.step p a).shards =
        Function.update s.shards shard ((s.shards shard).execAll (entryCommands p.texts entry))

/-- Entries that are deltas of the slots with a target, or of no slot that leaves the shard. -/
def goTo (shard : ℕ) (entries : List Entry) : Bool :=
  entries.all fun entry => ∀ slot ∈ p.slotOf entry, p.target slot = shard

/-- The condition on a step. A debit is reported only while all slots in dual write have the target of its
slot, and a slot is enabled only when the entries that wait have its target, none that was applied is left
in the stream, and no other slot uses the cursor; what is deleted or trimmed is no slot's, and nothing is
deleted while other slots are in dual write; calls fail, if they do, before they have had any effect. -/
def safe : SharedAction → Bool
  | .debit x =>
    x.filter.streamName ≠ dualWriteStream ∧ readable p.texts x ∧
      ((x.execute s.src.redis).2.streams dualWriteStream = s.src.redis.streams dualWriteStream ∨
        campaignSlotIndex x.event.campaignID ∉ p.migrating ∨
        ∀ slot ∈ s.writing p, p.target (campaignSlotIndex x.event.campaignID) = p.target slot)
  | .trim upTo =>
    upTo ≤ s.src.cursor ∨ s.resting p ∧
      (s.src.log.between s.src.start (s.src.trim upTo).start).all fun entry => p.slotOf entry = none
  | .cursorExpires => s.src.cursor ≤ s.src.gone
  | .delCursor =>
    match s.phase with
    | .flagSet slot => s.src.cursor ≤ s.src.gone ∧ goTo p (p.target slot) s.src.pending ∧
        (s.othersWriting p → s.src.cursorKey = none)
    | _ => true
  | .catchUp slot part => (s.transfer p slot).clean p.texts part
  | .disable =>
    match s.phase with
    | .overdue _ | .marked _ => (s.src.pending.all fun entry => p.slotOf entry = none) ∧
        (s.othersWriting p → s.src.pending = [] ∧ s.src.cursorKey = none)
    | _ => true
  | _ => true

end SharedSource

end Espx.SlotMigration
