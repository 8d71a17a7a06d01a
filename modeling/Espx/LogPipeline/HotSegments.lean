import Mathlib.Logic.Function.Basic

/-!
# Claims on hot segments

The compactor claims a hot segment by a rename that replaces the suffix `.log.zst.ready`, or appends to a
name `segment_*.log`; a failed compaction is rolled back to the name that is made of what is left. The two
are inverse on names of the second kind only. Of the recovery of stuck segments, only the key is here that
`ListStuckCompacting` would look for.
-/

namespace Espx.LogPipeline

open List Function

/-- The suffix of a segment that is ready. -/
def readySuffix : List Char := ".log.zst.ready".toList

/-- The suffix of a segment that is being evacuated. -/
def evacuatingSuffix : List Char := ".log.zst.evacuating".toList

/-- The suffix of a claimed segment. -/
def compactingSuffix : List Char := ".compacting".toList

/-- `strings.TrimSuffix`. -/
def trimSuffix (name suffix : List Char) : List Char :=
  if suffix <:+ name then name.take (name.length - suffix.length) else name

/-- `hotKeyFromCompacting`. -/
def hotKeyFromCompacting (name : List Char) : List Char :=
  if ¬ compactingSuffix <:+ name then name
  else if ".log.zst".toList <:+ trimSuffix name compactingSuffix then
    trimSuffix name compactingSuffix ++ ".ready".toList
  else trimSuffix name compactingSuffix

/-- `compactingPathFor`, on the name of a file in the source directory. -/
def compactingPathFor (name : List Char) : List Char :=
  if readySuffix <:+ name then trimSuffix name readySuffix ++ compactingSuffix
  else name ++ compactingSuffix

/-- `isHotSegmentName`. -/
def isHotSegmentName (name : List Char) : Bool :=
  if compactingSuffix <:+ name then false
  else if evacuatingSuffix <:+ name then false
  else if readySuffix <:+ name then true
  else "segment_".toList <+: name ∧ ".log".toList <:+ name

/-- The files of the source directory. -/
abbrev SourceDir := List Char → Option (List UInt8)

/-- `os.Rename`. -/
def SourceDir.rename (dir : SourceDir) (old new : List Char) : SourceDir :=
  match dir old with
  | none => dir
  | some bytes => update (update dir old none) new (some bytes)

/-- `ListHot` reports a file under its name. -/
def SourceDir.ListsHot (dir : SourceDir) (name : List Char) (bytes : List UInt8) : Prop :=
  isHotSegmentName name = true ∧ dir name = some bytes

/-- `RollbackHot`. -/
def SourceDir.rollbackHot (dir : SourceDir) (obj : List Char) : SourceDir :=
  if compactingSuffix <:+ obj then dir.rename obj (hotKeyFromCompacting obj) else dir

/-- The calls of `compactClaimedObject` between the look at the checkpoint and the removal. -/
inductive CompactCall
  | mkdirAll
  | openSegment
  | openFiltered
  | filter
  | closeSegment
  | sync
  | closeFiltered
  | verifyFiltered
  | writeWarm
  | verifyWarm
  | save
  | writeMarker
deriving DecidableEq

/-- The two settings that `compactClaimedObject` looks at, what its calls answer, and whether the
checkpoint has the segment; `stat` is the look of `ClaimHot` at the claimed file. -/
structure CompactInput where
  stat : Bool
  hasSourceDir : Bool
  deleteSourceAfterCompact : Bool
  digest : Bool
  compacted : Bool
  answers : CompactCall → Bool
  remove : Bool

/-- The calls that are made one after the other. -/
def CompactInput.calls (input : CompactInput) : List CompactCall :=
  [.mkdirAll, .openSegment, .openFiltered, .filter, .closeSegment, .sync, .closeFiltered, .verifyFiltered,
    .writeWarm, .verifyWarm, .save] ++ if input.hasSourceDir then [.writeMarker] else []

/-- `compactClaimedObject`, as far as the source directory goes, and whether it returns nil. -/
def compactClaimedObject (input : CompactInput) (obj : List Char) (dir : SourceDir) : SourceDir × Bool :=
  if ¬ input.digest then (dir.rollbackHot obj, false)
  else if input.compacted then (if input.remove then update dir obj none else dir, true)
  else if ¬ input.calls.all input.answers then (dir.rollbackHot obj, false)
  else if ¬ input.deleteSourceAfterCompact then (dir, true)
  else if ¬ input.remove then (dir, false)
  else (update dir obj none, true)

/-- `compactHotObject` from `ClaimHot` on. -/
def compactHotObject (input : CompactInput) (name : List Char) (dir : SourceDir) : SourceDir × Bool :=
  if ¬ input.stat then (dir.rename name (compactingPathFor name), false)
  else compactClaimedObject input (compactingPathFor name) (dir.rename name (compactingPathFor name))

/-- A call after the claim and before the removal of the claimed file fails. -/
def CompactInput.failsEarly (input : CompactInput) : Bool :=
  input.stat ∧ (¬ input.digest ∨ ¬ input.calls.all input.answers)

/-- A failed call leaves the claimed file where it is, unless it fails early. -/
theorem compactHotObject_of_fails {input : CompactInput} {name : List Char} {dir : SourceDir}
    (h : (compactHotObject input name dir).2 = false) :
    (compactHotObject input name dir).1 =
      let claimed := dir.rename name (compactingPathFor name)
      if input.failsEarly then claimed.rollbackHot (compactingPathFor name) else claimed := by
  revert h
  unfold compactHotObject compactClaimedObject CompactInput.failsEarly
  cases input.stat
  · exact fun _ => rfl
  cases input.digest
  · exact fun _ => rfl
  cases input.compacted
  · cases input.calls.all input.answers
    · exact fun _ => rfl
    cases input.deleteSourceAfterCompact
    · exact fun h => Bool.noConfusion h
    cases input.remove
    · exact fun _ => rfl
    · exact fun h => Bool.noConfusion h
  · exact fun h => Bool.noConfusion h

theorem trimSuffix_append (base suffix : List Char) : trimSuffix (base ++ suffix) suffix = base := by
  simp [trimSuffix]

variable {name : List Char}

theorem exists_compactingPathFor (name : List Char) :
    ∃ base, compactingPathFor name = base ++ compactingSuffix := by
  unfold compactingPathFor
  split
  · exact ⟨_, rfl⟩
  · exact ⟨_, rfl⟩

/-- A claimed segment has its key back exactly if it had no suffix to lose. -/
theorem hotKey_compactingPathFor (hhot : isHotSegmentName name = true) :
    hotKeyFromCompacting (compactingPathFor name) = name ↔ ¬ readySuffix <:+ name := by
  unfold hotKeyFromCompacting compactingPathFor
  by_cases hready : readySuffix <:+ name
  · obtain ⟨base, rfl⟩ := hready
    rw [if_pos (suffix_append _ _), trimSuffix_append, if_neg (not_not.mpr (suffix_append _ _)),
      trimSuffix_append]
    refine iff_of_false (fun heq => ?_) (not_not.mpr (suffix_append _ _))
    split at heq
    · exact absurd (append_cancel_left heq) (by decide)
    · exact absurd (append_right_eq_self.mp heq.symm) (by decide)
  · rw [if_neg hready, if_neg (not_not.mpr (suffix_append _ _)), trimSuffix_append, if_neg]
    · exact iff_of_true rfl hready
    · intro hzst
      simp only [isHotSegmentName, if_neg hready, Bool.if_false_left, Bool.and_eq_true,
        decide_eq_true_iff] at hhot
      obtain ⟨front, hfront⟩ := hhot.2.2.2
      obtain ⟨front', rfl⟩ := hzst
      have hlast := congrArg getLast? hfront
      simp at hlast

/-- The name of a claimed segment is no hot one. -/
theorem ne_compactingPathFor (hhot : isHotSegmentName name = true) : name ≠ compactingPathFor name := by
  obtain ⟨base, hbase⟩ := exists_compactingPathFor name
  rw [hbase]
  intro heq
  rw [isHotSegmentName, if_pos ⟨base, heq.symm⟩] at hhot
  cases hhot

/-- After a failed compaction the segment is listed under its key with its bytes, and a claimed file is
recovered under the key, exactly if the name does not end in `.log.zst.ready` and a call before the
removal of the claimed file has failed. -/
theorem failed_compaction_invisible_iff {dir : SourceDir} {bytes : List UInt8} {input : CompactInput}
    (hlist : dir.ListsHot name bytes) (hfails : (compactHotObject input name dir).2 = false) :
    (compactHotObject input name dir).1.ListsHot name bytes ∧
        hotKeyFromCompacting (compactingPathFor name) = name ↔
      ¬ readySuffix <:+ name ∧ input.failsEarly = true := by
  obtain ⟨hhot, hfile⟩ := hlist
  have hne := ne_compactingPathFor hhot
  obtain ⟨base, hbase⟩ := exists_compactingPathFor name
  have hclaimed : dir.rename name (compactingPathFor name) =
      update (update dir name none) (compactingPathFor name) (some bytes) := by
    rw [SourceDir.rename, hfile]
  have hgone : dir.rename name (compactingPathFor name) name = none := by
    rw [hclaimed, update_of_ne hne, update_self]
  rw [← hotKey_compactingPathFor hhot, and_comm, and_congr_right_iff]
  intro hkey
  have hback : (dir.rename name (compactingPathFor name)).rollbackHot (compactingPathFor name) name =
      some bytes := by
    rw [SourceDir.rollbackHot, hbase, if_pos (suffix_append _ _), ← hbase, hkey, SourceDir.rename, hclaimed,
      update_self]
    exact update_self ..
  rw [SourceDir.ListsHot, compactHotObject_of_fails hfails]
  cases input.failsEarly with
  | true => exact iff_of_true ⟨hhot, hback⟩ rfl
  | false =>
    refine iff_of_false (fun h => ?_) Bool.false_ne_true
    cases hgone.symm.trans h.2

/-- Everything succeeds but one call. -/
def failsAt (call : CompactCall) : CompactInput := ⟨true, true, true, true, false, (· ≠ call), true⟩

/-- The write of the warm file fails. -/
theorem failed_compaction_invisible_iff_log :
    let name := "segment_1.log".toList
    (compactHotObject (failsAt .writeWarm) name
        (update (fun _ => none) name (some [1]))).1.ListsHot name [1] ∧
      hotKeyFromCompacting (compactingPathFor name) = name :=
  (failed_compaction_invisible_iff ⟨rfl, rfl⟩ rfl).mpr ⟨by decide, rfl⟩

/-- A compressed segment is left under a name that is not listed. -/
theorem ready_segment_unlisted :
    let name := "a.log.zst.ready".toList
    let after := compactHotObject (failsAt .writeWarm) name (update (fun _ => none) name (some [1]))
    after.2 = false ∧ after.1 name = none ∧ after.1 ['a'] = some [1] ∧ isHotSegmentName ['a'] = false := by
  decide

end Espx.LogPipeline
