import Espx.SlotMigration.Deltas

/-!
# Each delta once

A call that fails after it has applied entries leaves the cursor in front of them, and the next call
applies them again. So each entry is applied once, in the order of the stream, where a failing call fails
before it has had any effect.
-/

namespace Espx.SlotMigration

open Espx.Foundation Espx.Domain Espx.Ingestion Espx.Settlement

/-- The shards and the call between them, and what the last step returned. -/
structure DeltaState where
  transfer : Transfer
  returned : Option Returned

/-- The steps: debits and the environment on the source shard, and the parts of a call. -/
inductive DeltaAction
  | append (entry : Entry)
  | trim (upTo : ℕ)
  | cursorExpires
  | call (part : Part)

namespace DeltaState

variable (texts : Texts) (s : DeltaState)

/-- The delta stream. -/
def log : Log Entry := s.transfer.src.log

/-- The state after a step on the source shard. -/
def withSource (src : Shard) : DeltaState := ⟨{ s.transfer with src := src }, none⟩

/-- One step. -/
def step : DeltaAction → DeltaState
  | .append entry => s.withSource (s.transfer.src.append entry)
  | .trim upTo => s.withSource (s.transfer.src.trim upTo)
  | .cursorExpires => s.withSource s.transfer.src.delCursor
  | .call part => ⟨(s.transfer.perform texts part).1, (s.transfer.perform texts part).2⟩

/-- No entry goes or comes back by itself, and a call fails, if it does, before it has had any effect:
entries are trimmed and the cursor expires only behind what is pending. -/
def clean : DeltaAction → Bool
  | .append _ => true
  | .trim upTo => upTo ≤ s.transfer.src.cursor
  | .cursorExpires => s.transfer.src.cursor ≤ s.transfer.src.gone
  | .call part => s.transfer.clean texts part

/-- From a state on, the target has got each of the first entries once and in their order, and none of the
others; and the returned lag is the number of these others, as the stream was when it was read, and
without an error as it is. -/
def AppliedOnce (s₀ s : DeltaState) : Prop :=
  ∃ done, s₀.transfer.src.start ≤ done ∧ done ≤ s.log.entries.length ∧
    s.transfer.dst = s₀.transfer.dst.execAll
      ((s.log.between s₀.transfer.src.start done).flatMap (entryCommands texts)) ∧
    ∀ applied lag ended failed, s.returned = some (.counted applied lag ended failed) →
      lag = ended - done ∧ (failed = false → ended = s.log.entries.length)

end DeltaState

namespace DeltaState

variable {texts : Texts} {s₀ s : DeltaState}

/-- The invariant of the runs from a state. -/
structure Inv (texts : Texts) (s₀ s : DeltaState) : Prop where
  agrees : s.transfer.Agrees
  start_le : s₀.transfer.src.start ≤ s.transfer.position
  le_length : s.transfer.position ≤ s.log.entries.length
  target : s.transfer.dst = s₀.transfer.dst.execAll
    ((s.log.between s₀.transfer.src.start s.transfer.position).flatMap (entryCommands texts))
  lag : Transfer.CountsFrom s.transfer s.returned

theorem Inv.appliedOnce (h : Inv texts s₀ s) : AppliedOnce texts s₀ s :=
  ⟨s.transfer.position, h.start_le, h.le_length, h.target, h.lag⟩

/-- A step on the source that only appends to the stream. -/
theorem Inv.withSource (h : Inv texts s₀ s) {src : Shard} {more : List Entry}
    (hlog : src.log.entries = s.log.entries ++ more) (hstart : src.start = s.transfer.src.start) :
    Inv texts s₀ (s.withSource src) := by
  obtain ⟨hagree, hpos⟩ := Transfer.agrees_source h.agrees h.le_length hlog hstart
  refine ⟨hagree, ?_, ?_, ?_, Transfer.countsFrom_none⟩
  · exact h.start_le.trans_eq hpos.symm
  · change Transfer.position { s.transfer with src := src } ≤ src.log.entries.length
    rw [hpos, hlog, List.length_append]
    exact Nat.le_add_right_of_le h.le_length
  · change s.transfer.dst = s₀.transfer.dst.execAll ((src.log.between s₀.transfer.src.start
      (Transfer.position { s.transfer with src := src })).flatMap (entryCommands texts))
    rw [hpos, Log.between_append hlog h.le_length]
    exact h.target

/-- A clean part of a call. -/
theorem Inv.perform (h : Inv texts s₀ s) {part : Part} (hclean : s.transfer.clean texts part) :
    Inv texts s₀ ⟨(s.transfer.perform texts part).1, (s.transfer.perform texts part).2⟩ := by
  obtain ⟨⟨hredis, hgone, hagree, hmoved⟩, hcount⟩ := Transfer.perform_moved h.agrees hclean
  have hlog : (s.transfer.perform texts part).1.src.log = s.log := by
    rw [Shard.log, hredis, hgone]
    rfl
  rcases hmoved with ⟨-, hpos, hdst⟩ | ⟨entry, -, hentry, hpos, hdst⟩
  · refine ⟨hagree, ?_, ?_, ?_, hcount⟩
    · rw [hpos]
      exact h.start_le
    · rw [hpos, log, hlog]
      exact h.le_length
    · rw [hpos, log, hlog, hdst]
      exact h.target
  · refine ⟨hagree, ?_, ?_, ?_, hcount⟩
    · rw [hpos]
      exact Nat.le_succ_of_le h.start_le
    · rw [hpos, log, hlog]
      exact (List.getElem?_eq_some_iff.mp hentry).1
    · have hone : s.log.between s₀.transfer.src.start (s.transfer.position + 1) = _ :=
        Log.between_succ h.start_le hentry
      rw [hpos, log, hlog, hdst, hone, List.flatMap_append, List.flatMap_singleton,
        Redis.execAll_append, ← h.target]

/-- A clean step keeps the invariant. -/
theorem Inv.step (h : Inv texts s₀ s) {a : DeltaAction} (hclean : s.clean texts a) :
    Inv texts s₀ (s.step texts a) := by
  cases a with
  | append entry => exact h.withSource (Shard.append_entries entry) rfl
  | trim upTo =>
    exact h.withSource (List.append_nil _).symm (Shard.trim_start (of_decide_eq_true hclean))
  | cursorExpires =>
    exact h.withSource (List.append_nil _).symm (Shard.delCursor_start (of_decide_eq_true hclean))
  | call part => exact h.perform hclean

/-- A state between two calls. -/
structure Between (s : DeltaState) : Prop where
  idle : s.transfer.call = .idle
  start_le : s.transfer.src.start ≤ s.log.entries.length
  unreturned : s.returned = none

/-- The invariant holds at the start. -/
theorem Between.inv (h : Between s) : Inv texts s s := by
  have hpos : s.transfer.position = s.transfer.src.start := by
    rw [Transfer.position, h.idle]
  refine ⟨?_, ?_, ?_, ?_, ?_⟩
  · rw [Transfer.Agrees, h.idle]
    trivial
  · rw [hpos]
  · rw [hpos]
    exact h.start_le
  · rw [hpos, Log.between_self]
    rfl
  · rw [h.unreturned]
    exact Transfer.countsFrom_none

end DeltaState

open DeltaState in
/-- From every state between two calls, in every run of clean steps, each entry of the stream is applied
once to the target, in order, and the returned lag is the number of entries that are not applied yet. -/
theorem deltas_applied_once (texts : Texts) {s₀ : DeltaState} (hstart : Between s₀)
    {actions : List DeltaAction}
    (hclean : Admissible (fun s a => clean texts s a) (step texts) s₀ actions) :
    AppliedOnce texts s₀ (run (step texts) s₀ actions) :=
  (hclean.invariant (fun _ _ hok hinv => Inv.step hinv hok) hstart.inv).appliedOnce

/-- A campaign. -/
def sampleCampaign : UUID := Vector.replicate 16 7

/-- The text of that campaign. -/
def sampleTexts : Texts where
  parseUUID text := if text = uuidString sampleCampaign then some sampleCampaign else none

/-- A debit of the campaign, as the scripts report it. -/
def sampleEntry (amount : ℤ) : Entry :=
  dualWriteEntry (budgetCampaignKey sampleCampaign) (uuidString sampleCampaign) amount

/-- Two debits are reported, and the target holds a budget of one hundred. -/
def sampleDeltas : DeltaState where
  transfer :=
    { src := ⟨(Redis.empty.xadd dualWriteStream (sampleEntry 10)).xadd dualWriteStream
        (sampleEntry 20), 0, none⟩
      dst := Redis.empty.setNum (budgetCampaignKey sampleCampaign) 100
      call := .idle }
  returned := none

/-- An entry is applied without failures. -/
def applySucceeds : DeltaAction := .call (.applyNext ⟨true, .done⟩)

/-- A call fails at its first entry, and the next one gets through: both entries are applied once. -/
theorem deltas_applied_once_retry :
    let actions := [.call (.read true), .call (.applyNext ⟨true, .failed 0⟩), .call (.read true),
      applySucceeds, applySucceeds, .call (.advance .received), .call (.measure true)]
    Admissible (fun s a => DeltaState.clean sampleTexts s a) (DeltaState.step sampleTexts) sampleDeltas
        actions ∧
      DeltaState.AppliedOnce sampleTexts sampleDeltas
        (run (DeltaState.step sampleTexts) sampleDeltas actions) := by
  intro actions
  have hclean : Admissible (fun s a => DeltaState.clean sampleTexts s a) (DeltaState.step sampleTexts)
      sampleDeltas actions := by
    decide +kernel
  exact ⟨hclean, deltas_applied_once sampleTexts ⟨rfl, by decide +kernel, rfl⟩ hclean⟩

/-- A call fails at its second entry, and the next one applies the first entry again. -/
theorem deltas_applied_twice :
    ¬ DeltaState.AppliedOnce sampleTexts sampleDeltas
      (run (DeltaState.step sampleTexts) sampleDeltas
        [.call (.read true), applySucceeds, .call (.applyNext ⟨true, .failed 0⟩), .call (.read true),
          applySucceeds, applySucceeds, .call (.advance .received), .call (.measure true)]) := by
  rintro ⟨done, -, hle, htgt, -⟩
  have hspent := congrArg (Redis.count · (budgetCampaignKey sampleCampaign)) htgt
  have hbound : done ≤ 2 := hle
  revert hspent
  interval_cases done <;> decide +kernel

end Espx.SlotMigration
