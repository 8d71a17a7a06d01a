import Espx.Foundation.Run

/-!
# The fencing epoch of a partition log

`AppendFenced` compares its epoch with the log's before it takes the lock, and under the lock it only
raises the log's epoch; `AdvanceFencingEpoch` raises it without the lock. Either writes a raised epoch to
the epoch file, which is what a restart reads. Any number of calls run at the same time, each in atomic
steps, and the epoch can be raised in between.
-/

namespace Espx.Broker

open Espx.Foundation List

/-- Who calls `persistFencingEpoch`. -/
inductive EpochWriter
  | append (epoch : ℕ)
  | advance (epoch : ℕ)
deriving DecidableEq

/-- The epoch that is written. -/
def EpochWriter.epoch : EpochWriter → ℕ
  | .append epoch => epoch
  | .advance epoch => epoch

/-- Where a call stands: before which of its atomic steps. -/
inductive FencingPoint
  | idle
  | check (epoch : ℕ)
  | lock (epoch : ℕ)
  | compare (epoch : ℕ)
  | store (epoch : ℕ)
  | load (epoch : ℕ)
  | swap (epoch cur : ℕ)
  | writeTmp (writer : EpochWriter)
  | rename (writer : EpochWriter)
  | write (epoch : ℕ)
deriving DecidableEq

/-- What has happened: a record was appended and its call has returned, or `AdvanceFencingEpoch` has. -/
inductive FencingEvent
  | appended (epoch : ℕ)
  | advanced (epoch : ℕ)
deriving DecidableEq

/-- The epoch of an event. -/
def FencingEvent.epoch : FencingEvent → ℕ
  | .appended epoch => epoch
  | .advanced epoch => epoch

/-- The log's epoch, the two files, the write lock, where each call stands, and what has happened. -/
structure FencedLog (ι : Type*) where
  fencingEpoch : ℕ
  tmp : Option ℕ
  file : Option ℕ
  writeMu : Bool
  point : ι → FencingPoint
  trace : List FencingEvent

/-- A call starts, or does its next atomic step; `ok` says whether the file call or the write in it
succeeds. -/
inductive FencingAction (ι : Type*)
  | appendFenced (i : ι) (epoch : ℕ)
  | advanceFencingEpoch (i : ι) (epoch : ℕ)
  | next (i : ι) (ok : Bool)

namespace FencedLog

variable {ι : Type*}

/-- A log that was opened without an epoch file. -/
def new : FencedLog ι := ⟨0, none, none, false, fun _ => .idle, []⟩

/-- What `loadFencingEpoch` reads after a crash. -/
def loadFencingEpoch (s : FencedLog ι) : ℕ := s.file.getD 0

/-- An event happens. -/
def emit (s : FencedLog ι) (event : FencingEvent) : FencedLog ι := { s with trace := s.trace ++ [event] }

/-- The write lock is given back. -/
def unlock (s : FencedLog ι) : FencedLog ι := { s with writeMu := false }

/-- The log's epoch is set. -/
def setEpoch (s : FencedLog ι) (epoch : ℕ) : FencedLog ι := { s with fencingEpoch := epoch }

variable [DecidableEq ι]

/-- A call moves on. -/
def moveTo (s : FencedLog ι) (i : ι) (point : FencingPoint) : FencedLog ι :=
  { s with point := Function.update s.point i point }

/-- The end of `persistFencingEpoch`: an append goes on if it succeeded, or it returns and unlocks. -/
def persisted (s : FencedLog ι) (i : ι) (writer : EpochWriter) (ok : Bool) : FencedLog ι :=
  match writer with
  | .append epoch => if ok then s.moveTo i (.write epoch) else s.unlock.moveTo i .idle
  | .advance epoch => (s.emit (.advanced epoch)).moveTo i .idle

/-- The next atomic step of a call. `WriteFile` is one step, and no process starts again. -/
def next (s : FencedLog ι) (i : ι) (ok : Bool) : FencedLog ι :=
  match s.point i with
  | .idle => s
  | .check epoch =>
    if epoch < s.fencingEpoch then s.moveTo i .idle else s.moveTo i (.lock epoch)
  | .lock epoch =>
    if s.writeMu then s
    else { s with writeMu := true }.moveTo i (if epoch = 0 then .write 0 else .compare epoch)
  | .compare epoch =>
    if epoch > s.fencingEpoch then s.moveTo i (.store epoch) else s.moveTo i (.write epoch)
  | .store epoch => (s.setEpoch epoch).moveTo i (.writeTmp (.append epoch))
  | .load epoch =>
    if epoch ≤ s.fencingEpoch then
      (s.emit (.advanced epoch)).moveTo i .idle
    else s.moveTo i (.swap epoch s.fencingEpoch)
  | .swap epoch cur =>
    if s.fencingEpoch = cur then
      (s.setEpoch epoch).moveTo i (.writeTmp (.advance epoch))
    else s.moveTo i (.load epoch)
  | .writeTmp writer =>
    if ok then { s with tmp := some writer.epoch }.moveTo i (.rename writer)
    else s.persisted i writer false
  | .rename writer =>
    match s.tmp with
    | some epoch =>
      if ok then { s with file := some epoch, tmp := none }.persisted i writer true
      else s.persisted i writer false
    | none => s.persisted i writer false
  | .write epoch =>
    if ok then (s.emit (.appended epoch)).unlock.moveTo i .idle
    else s.unlock.moveTo i .idle

/-- One action. -/
def step (s : FencedLog ι) : FencingAction ι → FencedLog ι
  | .appendFenced i epoch =>
    if s.point i = .idle then s.moveTo i (if epoch = 0 then .lock 0 else .check epoch) else s
  | .advanceFencingEpoch i epoch => if s.point i = .idle then s.moveTo i (.load epoch) else s
  | .next i ok => s.next i ok

/-- What the code does not make sure of: the log's epoch was not raised above the call's own since the
call looked, a record's epoch is in the epoch file, and a rename does not lower the file's. -/
def UnracedAt (s : FencedLog ι) (ok : Bool) : FencingPoint → Prop
  | .store epoch => s.fencingEpoch ≤ epoch
  | .write epoch => ok = true → 0 < epoch → s.fencingEpoch ≤ epoch ∧ epoch ≤ s.loadFencingEpoch
  | .rename _ => ok = true → ∀ epoch ∈ s.tmp, s.loadFencingEpoch ≤ epoch
  | .idle | .check _ | .lock _ | .compare _ | .load _ | .swap _ _ | .writeTmp _ => True

instance (s : FencedLog ι) (ok : Bool) (point : FencingPoint) : Decidable (s.UnracedAt ok point) :=
  match point with
  | .store epoch => inferInstanceAs (Decidable (s.fencingEpoch ≤ epoch))
  | .write epoch => inferInstanceAs
      (Decidable (ok = true → 0 < epoch → s.fencingEpoch ≤ epoch ∧ epoch ≤ s.loadFencingEpoch))
  | .rename _ => inferInstanceAs (Decidable (ok = true → ∀ epoch ∈ s.tmp, s.loadFencingEpoch ≤ epoch))
  | .idle | .check _ | .lock _ | .compare _ | .load _ | .swap _ _ | .writeTmp _ =>
    inferInstanceAs (Decidable True)

/-- An action that is not a race. -/
def Unraced (s : FencedLog ι) : FencingAction ι → Prop
  | .next i ok => s.UnracedAt ok (s.point i)
  | .appendFenced _ _ | .advanceFencingEpoch _ _ => True

instance (s : FencedLog ι) (action : FencingAction ι) : Decidable (s.Unraced action) :=
  match action with
  | .next i ok => inferInstanceAs (Decidable (s.UnracedAt ok (s.point i)))
  | .appendFenced _ _ | .advanceFencingEpoch _ _ => inferInstanceAs (Decidable True)

end FencedLog

/-- A record with an epoch comes after no completed call with a larger one. -/
def fenced (before : List FencingEvent) (event : FencingEvent) : Prop :=
  ∀ epoch, event = .appended epoch → 0 < epoch → ∀ earlier ∈ before, earlier.epoch ≤ epoch

/-- What a call that has looked at the log's epoch, or raised it, relies on. -/
def FencingPoint.Raised (cur : ℕ) : FencingPoint → Prop
  | .writeTmp writer => writer.epoch ≤ cur
  | .rename writer => writer.epoch ≤ cur
  | .write epoch => epoch ≤ cur
  | .swap epoch seen => seen < epoch
  | _ => True

theorem FencingPoint.Raised.mono {cur cur' : ℕ} (hle : cur ≤ cur') {point : FencingPoint}
    (h : FencingPoint.Raised cur point) : FencingPoint.Raised cur' point := by
  cases point with
  | writeTmp writer | rename writer | write epoch => exact Nat.le_trans h hle
  | swap epoch seen => exact h
  | idle | check | lock | compare | store | load => trivial

namespace FencedLog

variable {ι : Type*} {s : FencedLog ι}

/-- What a run without races keeps: the log's epoch is not behind what has happened, the file not behind
the appended records, and no record came after a larger epoch. -/
structure Linear (s : FencedLog ι) : Prop where
  behind : ∀ event ∈ s.trace, event.epoch ≤ s.fencingEpoch
  onDisk : ∀ epoch, .appended epoch ∈ s.trace → epoch ≤ s.loadFencingEpoch
  justified : Justified fenced s.trace
  raised : ∀ i, FencingPoint.Raised s.fencingEpoch (s.point i)

section

/-- The lock and the temporary file do not matter, and the epoch file may hold a larger epoch. -/
theorem Linear.of_same {s' : FencedLog ι} (h : s.Linear) (hepoch : s'.fencingEpoch = s.fencingEpoch)
    (hpoint : s'.point = s.point) (htrace : s'.trace = s.trace)
    (hfile : s.loadFencingEpoch ≤ s'.loadFencingEpoch) : s'.Linear := by
  constructor
  · rw [hepoch, htrace]
    exact h.behind
  · rw [htrace]
    exact fun epoch hevent => Nat.le_trans (h.onDisk epoch hevent) hfile
  · rw [htrace]
    exact h.justified
  · rw [hepoch, hpoint]
    exact h.raised

theorem Linear.unlock (h : s.Linear) : s.unlock.Linear := h.of_same rfl rfl rfl (Nat.le_refl _)

variable {epoch : ℕ}

theorem Linear.setEpoch (h : s.Linear) (hle : s.fencingEpoch ≤ epoch) : (s.setEpoch epoch).Linear :=
  ⟨fun event hevent => Nat.le_trans (h.behind event hevent) hle, h.onDisk, h.justified,
    fun i => (h.raised i).mono hle⟩

/-- `AdvanceFencingEpoch` has returned. -/
theorem Linear.emit_advanced (h : s.Linear) (hle : epoch ≤ s.fencingEpoch) :
    (s.emit (.advanced epoch)).Linear := by
  refine ⟨?_, ?_, h.justified.concat (fun _ heq => by cases heq), h.raised⟩
  · intro event hevent
    rcases mem_append.mp hevent with hold | hnew
    · exact h.behind event hold
    · obtain rfl := mem_singleton.mp hnew
      exact hle
  · intro other hevent
    rcases mem_append.mp hevent with hold | hnew
    · exact h.onDisk other hold
    · cases mem_singleton.mp hnew

/-- A record is appended whose epoch is the log's and is in the epoch file. -/
theorem Linear.emit_appended (h : s.Linear) (hle : epoch ≤ s.fencingEpoch)
    (hok : 0 < epoch → s.fencingEpoch ≤ epoch ∧ epoch ≤ s.loadFencingEpoch) :
    (s.emit (.appended epoch)).Linear := by
  refine ⟨?_, ?_, h.justified.concat ?_, h.raised⟩
  · intro event hevent
    rcases mem_append.mp hevent with hold | hnew
    · exact h.behind event hold
    · obtain rfl := mem_singleton.mp hnew
      exact hle
  · intro other hevent
    rcases mem_append.mp hevent with hold | hnew
    · exact h.onDisk other hold
    obtain rfl := FencingEvent.appended.inj (mem_singleton.mp hnew)
    rcases Nat.eq_zero_or_pos other with rfl | hpos
    · exact Nat.zero_le _
    · exact (hok hpos).2
  · intro other heq hpos earlier hearlier
    obtain rfl := FencingEvent.appended.inj heq
    exact Nat.le_trans (h.behind earlier hearlier) (hok hpos).1

variable [DecidableEq ι]

/-- A call moves on to a point that the log's epoch allows. -/
theorem Linear.moveTo (h : s.Linear) (i : ι) {point : FencingPoint}
    (hpoint : FencingPoint.Raised s.fencingEpoch point) : (s.moveTo i point).Linear := by
  refine ⟨h.behind, h.onDisk, h.justified, ?_⟩
  exact (Function.forall_update_iff s.point fun _ => FencingPoint.Raised s.fencingEpoch).mpr
    ⟨hpoint, fun j _ => h.raised j⟩

/-- The end of `persistFencingEpoch`. -/
theorem Linear.persisted (h : s.Linear) (i : ι) {writer : EpochWriter}
    (hle : writer.epoch ≤ s.fencingEpoch) (ok : Bool) : (s.persisted i writer ok).Linear := by
  cases writer with
  | append epoch =>
    cases ok with
    | true => exact h.moveTo i hle
    | false => exact h.unlock.moveTo i trivial
  | advance epoch => exact (h.emit_advanced hle).moveTo i trivial

/-- One atomic step of a call. -/
theorem Linear.next (h : s.Linear) (i : ι) (ok : Bool) (hok : s.Unraced (.next i ok)) :
    (s.next i ok).Linear := by
  have hraised := h.raised i
  unfold FencedLog.next
  change s.UnracedAt ok (s.point i) at hok
  cases hpoint : s.point i with
  | idle => exact h
  | check epoch =>
    dsimp only
    split
    · exact h.moveTo i trivial
    · exact h.moveTo i trivial
  | lock epoch =>
    dsimp only
    split
    · exact h
    have hlocked : { s with writeMu := true }.Linear := h.of_same rfl rfl rfl (Nat.le_refl _)
    refine hlocked.moveTo i ?_
    split
    · exact Nat.zero_le _
    · trivial
  | compare epoch =>
    dsimp only
    split
    · exact h.moveTo i trivial
    next hle => exact h.moveTo i (Nat.le_of_not_lt hle)
  | store epoch =>
    rw [hpoint] at hok
    exact (h.setEpoch hok).moveTo i (Nat.le_refl epoch)
  | load epoch =>
    dsimp only
    split
    next hle => exact (h.emit_advanced hle).moveTo i trivial
    next hlt => exact h.moveTo i (Nat.lt_of_not_le hlt)
  | swap epoch seen =>
    rw [hpoint] at hraised
    dsimp only
    split
    next heq => exact (h.setEpoch (heq ▸ Nat.le_of_lt hraised)).moveTo i (Nat.le_refl epoch)
    · exact h.moveTo i trivial
  | writeTmp writer =>
    rw [hpoint] at hraised
    dsimp only
    split
    · have htmp : { s with tmp := some writer.epoch }.Linear := h.of_same rfl rfl rfl (Nat.le_refl _)
      exact htmp.moveTo i hraised
    · exact h.persisted i hraised false
  | rename writer =>
    rw [hpoint] at hraised hok
    dsimp only
    split
    next epoch htmp =>
      split
      next hyes =>
        have hrenamed : { s with file := some epoch, tmp := none }.Linear :=
          h.of_same rfl rfl rfl (hok hyes epoch htmp)
        exact hrenamed.persisted i hraised true
      · exact h.persisted i hraised false
    · exact h.persisted i hraised false
  | write epoch =>
    rw [hpoint] at hraised hok
    dsimp only
    split
    next hyes => exact (h.emit_appended hraised (hok hyes)).unlock.moveTo i trivial
    · exact h.unlock.moveTo i trivial

/-- One action. -/
theorem Linear.step (h : s.Linear) (action : FencingAction ι) (hok : s.Unraced action) :
    (s.step action).Linear := by
  cases action with
  | appendFenced i epoch =>
    simp only [FencedLog.step]
    split
    · refine h.moveTo i ?_
      split <;> trivial
    · exact h
  | advanceFencingEpoch i epoch =>
    simp only [FencedLog.step]
    split
    · exact h.moveTo i trivial
    · exact h
  | next i ok => exact h.next i ok hok

/-- In a run without races, no record comes after a completed call with a larger epoch, and after a crash
in any state the epoch file has at least the epoch of every appended record. -/
theorem fencing_linear (actions : List (FencingAction ι))
    (hactions : Admissible Unraced step (new : FencedLog ι) actions) :
    Justified fenced (run step new actions).trace ∧
      ∀ done, done <+: actions → ∀ epoch, .appended epoch ∈ (run step new done).trace →
        epoch ≤ (run step (new : FencedLog ι) done).loadFencingEpoch := by
  have hnew : (new : FencedLog ι).Linear := by
    refine ⟨fun event h => absurd h not_mem_nil, fun epoch h => absurd h not_mem_nil, ?_,
      fun _ => trivial⟩
    intro before event after h
    exact absurd h.symm (append_ne_nil_of_right_ne_nil before (cons_ne_nil event after))
  have hlinear : ∀ done, done <+: actions → (run step (new : FencedLog ι) done).Linear := by
    rintro done ⟨rest, rfl⟩
    exact hactions.left.invariant (fun s action hok h => h.step action hok) hnew
  exact ⟨(hlinear actions prefix_rfl).justified, fun done hdone => (hlinear done hdone).onDisk⟩

end

/-- An epoch is advanced and persisted, and a record is appended with it. -/
theorem fencing_linear_sequential :
    let actions : List (FencingAction ℕ) :=
      [.advanceFencingEpoch 0 1, .next 0 true, .next 0 true, .next 0 true, .next 0 true,
        .appendFenced 0 1, .next 0 true, .next 0 true, .next 0 true, .next 0 true]
    Admissible Unraced step (new : FencedLog ℕ) actions ∧
      (run step new actions).trace = [.advanced 1, .appended 1] ∧
      Justified fenced (run step (new : FencedLog ℕ) actions).trace := by
  intro actions
  have hacts : Admissible Unraced step (new : FencedLog ℕ) actions := by decide
  exact ⟨hacts, by decide, (fencing_linear actions hacts).1⟩

/-- A call looks at the log's epoch, another one advances it and completes, and the first one appends; and
a record is appended with an epoch that is not in the epoch file yet. -/
theorem fencing_raced :
    let late : List (FencingAction ℕ) :=
      [.appendFenced 0 1, .next 0 true, .advanceFencingEpoch 1 2, .next 1 true, .next 1 true, .next 1 true,
        .next 1 true, .next 0 true, .next 0 true, .next 0 true]
    let early : List (FencingAction ℕ) :=
      [.advanceFencingEpoch 1 2, .next 1 true, .next 1 true, .appendFenced 0 2, .next 0 true, .next 0 true,
        .next 0 true, .next 0 true]
    (run step (new : FencedLog ℕ) late).trace = [.advanced 2, .appended 1] ∧
      ¬Justified fenced (run step (new : FencedLog ℕ) late).trace ∧
      (run step (new : FencedLog ℕ) early).trace = [.appended 2] ∧
      (run step (new : FencedLog ℕ) early).loadFencingEpoch = 0 := by
  intro late early
  have htrace : (run step (new : FencedLog ℕ) late).trace = [.advanced 2] ++ .appended 1 :: [] := by
    decide
  refine ⟨htrace, ?_, by decide, by decide⟩
  intro hjustified
  have hle := hjustified [.advanced 2] (.appended 1) [] htrace 1 rfl Nat.zero_lt_one (.advanced 2)
    (mem_singleton_self _)
  exact absurd hle (by decide)

end FencedLog

end Espx.Broker
