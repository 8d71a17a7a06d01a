import Mathlib.Data.Finset.Sort
import Mathlib.Tactic.IntervalCases
import Espx.Foundation.Run

/-!
# The blocklist in the kernel

`Store.ApplyDiff` brings a BPF map in line with three deny lists. It writes the difference to a mirror of
the keys that it has written. Protected addresses are not written but enter the mirror, and a call that
fails half-way leaves the mirror behind the map. A key is an address with its bytes in the other order.
-/

namespace Espx.Edge

open Espx.Foundation List

/-- The loop of `parseIPv4`; at the start `afterDot` stands for the missing byte before it. -/
def parseIPv4Loop (afterDot : Bool) (oct bits : UInt32) (dots : ℕ) : List UInt8 → Option UInt32
  | [] => if dots = 3 then some (bits <<< 8 ||| oct) else none
  | c :: rest =>
    if 48 ≤ c ∧ c ≤ 57 then
      let oct := oct * 10 + (c - 48).toUInt32
      if 255 < oct then none else parseIPv4Loop false oct bits dots rest
    else if c = 46 then
      if 3 ≤ dots ∨ afterDot then none
      else parseIPv4Loop true 0 (bits <<< 8 ||| oct) (dots + 1) rest
    else none

/-- `ParseHost`. -/
def parseHost (s : List UInt8) : Option UInt32 :=
  if s.length < 7 ∨ 15 < s.length then none else parseIPv4Loop true 0 0 0 s

/-- `beToBPFAddr`: the bytes of an address, the highest first, read with the lowest first. -/
def beToBPFAddr (be : UInt32) : UInt32 :=
  (be >>> 24).toUInt8.toUInt32 ||| (be >>> 16).toUInt8.toUInt32 <<< 8 |||
    (be >>> 8).toUInt8.toUInt32 <<< 16 ||| be.toUInt8.toUInt32 <<< 24

/-- `bpfAddrToBE`: the bytes of a key, the lowest first, read with the highest first. -/
def bpfAddrToBE (addr : UInt32) : UInt32 :=
  addr.toUInt8.toUInt32 <<< 24 ||| (addr >>> 8).toUInt8.toUInt32 <<< 16 |||
    (addr >>> 16).toUInt8.toUInt32 <<< 8 ||| (addr >>> 24).toUInt8.toUInt32

/-- The address of a key is the one that the key was made of. -/
theorem bpfAddrToBE_beToBPFAddr (be : UInt32) : bpfAddrToBE (beToBPFAddr be) = be := by
  apply UInt32.toBitVec_inj.mp
  apply BitVec.eq_of_getLsbD_eq
  intro i hi
  simp only [bpfAddrToBE, beToBPFAddr, UInt32.toBitVec_or, UInt32.toBitVec_shiftLeft,
    UInt32.toBitVec_shiftRight, UInt32.toBitVec_toUInt8, UInt8.toBitVec_toUInt32, UInt32.toBitVec_ofNat,
    BitVec.shiftLeft_eq', BitVec.ushiftRight_eq', BitVec.getLsbD_or, BitVec.getLsbD_shiftLeft,
    BitVec.getLsbD_ushiftRight, BitVec.getLsbD_setWidth]
  grind

/-- `IsProtected`: the two resolvers, the loopback network and the network of the installation. -/
def isProtected (lan : UInt32 → Bool) (addr : UInt32) : Bool :=
  addr = 0x08080808 ∨ addr = 0x01010101 ∨ addr >>> 24 = 127 ∨ lan addr

/-- `Store` with the BPF map that it writes to. -/
structure Blocklist where
  hosts : Finset UInt32
  map : Finset UInt32
deriving DecidableEq

/-- `NewStore` on an empty map. -/
def Blocklist.new : Blocklist := ⟨∅, ∅⟩

/-- An operation on the BPF map. -/
inductive MapOp where
  | upsert (addr : UInt32)
  | delete (addr : UInt32)
deriving DecidableEq

namespace MapOp

/-- The key an operation is about. -/
def addr : MapOp → UInt32
  | upsert addr | delete addr => addr

/-- What an operation does to the map. -/
def apply (map : Finset UInt32) : MapOp → Finset UInt32
  | upsert addr => insert addr map
  | delete addr => map.erase addr

/-- The key that an operation needs is missing. -/
def misses (map : Finset UInt32) : MapOp → Bool
  | upsert _ => false
  | delete addr => addr ∉ map

end MapOp

/-- A call of `ApplyDiff`: the deny lists, the order in which Go walks a map, and the operations that fail
for another reason than a missing key. -/
structure DiffCall where
  manual : List (List UInt8)
  auto : List (List UInt8)
  fraud : List (List UInt8)
  walk : Finset UInt32 → List UInt32
  nodup_walk : ∀ s, (walk s).Nodup
  mem_walk : ∀ s a, a ∈ walk s ↔ a ∈ s
  breaks : MapOp → Bool

namespace DiffCall

variable (call : DiffCall)

/-- The addresses of the three lists. -/
def listed : Finset UInt32 := ((call.manual ++ call.auto ++ call.fraud).filterMap parseHost).toFinset

/-- `MergeHosts` of the three lists: the keys of their addresses. -/
def scratch : Finset UInt32 := call.listed.image beToBPFAddr

/-- The operations of the two loops up to the first that fails: those done, that one, and the map. -/
def perform : List MapOp → Finset UInt32 → List MapOp × Option MapOp × Finset UInt32
  | [], map => ([], none, map)
  | op :: rest, map =>
    if call.breaks op ∨ op.misses map then ([], some op, map)
    else (op :: (perform rest (op.apply map)).1, (perform rest (op.apply map)).2)

end DiffCall

/-- What `ApplyDiff` returns; an error names its operation. -/
structure DiffResult where
  added : ℕ
  removed : ℕ
  err : Option MapOp

namespace Blocklist

variable (lan : UInt32 → Bool) (s : Blocklist) (call : DiffCall)

/-- The operations of the two loops: a loop passes over the keys of protected addresses and those in both
sets. -/
def operations : List MapOp :=
  ((call.walk call.scratch).filter fun addr =>
      !isProtected lan (bpfAddrToBE addr) && addr ∉ s.hosts).map .upsert ++
    ((call.walk s.hosts).filter (· ∉ call.scratch)).map .delete

/-- `ApplyDiff`. -/
def applyDiff : DiffResult × Blocklist :=
  let (done, failed, map) := call.perform (s.operations lan call) s.map
  (⟨done.countP (· matches .upsert _), done.countP (· matches .delete _), failed⟩,
    ⟨if failed.isNone then call.scratch else s.hosts, map⟩)

/-- A call as a step. -/
def step : Blocklist := (s.applyDiff lan call).2

/-- A call that returns nil leaves the keys of the addresses of its lists that are not protected in the
map, and it returns nil when operations fail for a missing key only. -/
def Follows : Prop :=
  ∀ call : DiffCall,
    ((s.applyDiff lan call).1.err = none →
      (s.step lan call).map = (call.listed.filter fun addr => !isProtected lan addr).image beToBPFAddr) ∧
    ((∀ op, call.breaks op = false) → (s.applyDiff lan call).1.err = none)

/-- A call does nothing, because its first operation fails, or does everything, and no address of its lists
is protected. -/
def Whole : Prop :=
  (∃ op rest, s.operations lan call = op :: rest ∧ call.breaks op) ∨
    (∀ op ∈ s.operations lan call, call.breaks op = false) ∧
      ∀ addr ∈ call.listed, isProtected lan addr = false

end Blocklist

open MapOp

open DiffCall

section

variable {call : DiffCall} {ops : List MapOp} (map : Finset UInt32)

/-- An operation on another key leaves a key in the map or out of it. -/
theorem MapOp.mem_apply_of_ne {a : UInt32} {op : MapOp} (h : a ≠ op.addr) :
    a ∈ op.apply map ↔ a ∈ map := by
  cases op with
  | upsert b => exact Finset.mem_insert.trans (or_iff_right h)
  | delete b => exact Finset.mem_erase.trans (and_iff_right h)

/-- Nor does it change what an operation on that key misses. -/
theorem MapOp.misses_apply {op other : MapOp} (h : other.addr ≠ op.addr) :
    other.misses (op.apply map) = other.misses map := by
  cases other with
  | upsert b => rfl
  | delete b => exact decide_eq_decide.mpr (not_congr (mem_apply_of_ne map h))

/-- Operations on different keys come to an end if none fails on the map as it was. -/
theorem perform_eq_none_iff (hkeys : (ops.map addr).Nodup) :
    (call.perform ops map).2.1 = none ↔ ∀ op ∈ ops, call.breaks op = false ∧ op.misses map = false := by
  induction ops generalizing map with
  | nil => simp [perform]
  | cons op rest ih =>
    obtain ⟨hnew, hrest⟩ := nodup_cons.mp hkeys
    rw [perform, forall_mem_cons]
    by_cases hfails : call.breaks op ∨ op.misses map
    · rw [if_pos hfails]
      simp only [reduceCtorEq, false_iff]
      rintro ⟨⟨hbreak, hmisses⟩, -⟩
      simp [hbreak, hmisses] at hfails
    · rw [if_neg hfails]
      simp only [not_or, Bool.not_eq_true] at hfails
      rw [ih _ hrest, and_iff_right hfails]
      refine forall₂_congr fun other hother => ?_
      rw [misses_apply map fun heq => hnew (heq ▸ mem_map_of_mem hother)]

/-- Only operations of the list are done. -/
theorem performed_subset : (call.perform ops map).1 ⊆ ops := by
  induction ops generalizing map with
  | nil => exact nil_subset _
  | cons op rest ih =>
    rw [perform]
    split
    · exact nil_subset _
    · exact cons_subset_cons op (ih _)

/-- If none fails, all of them are. -/
theorem perform_all (h : (call.perform ops map).2.1 = none) : (call.perform ops map).1 = ops := by
  induction ops generalizing map with
  | nil => rfl
  | cons op rest ih =>
    rw [perform] at h ⊢
    split at h
    · cases h
    · rename_i hfails
      rw [if_neg hfails, ih _ h]

/-- Operations on different keys change the keys of those that are done. -/
theorem mem_perform (hkeys : (ops.map addr).Nodup) (a : UInt32) :
    a ∈ (call.perform ops map).2.2 ↔ .upsert a ∈ (call.perform ops map).1 ∨
      a ∈ map ∧ .delete a ∉ (call.perform ops map).1 := by
  induction ops generalizing map with
  | nil => simp [perform]
  | cons op rest ih =>
    obtain ⟨hnew, hrest⟩ := nodup_cons.mp hkeys
    have hdone {other : MapOp} (h : other ∈ (call.perform rest (op.apply map)).1) :
        other.addr ≠ op.addr :=
      fun heq => hnew (heq ▸ mem_map_of_mem (performed_subset _ h))
    rw [perform]
    split
    · simp
    rw [ih _ hrest]
    by_cases ha : a = op.addr
    · have hdel := mt (@hdone (.delete a)) (not_not.mpr ha)
      cases op <;> simp_all [apply, addr]
    · have hups : upsert a ≠ op := fun heq => ha (heq ▸ rfl)
      have hdel : delete a ≠ op := fun heq => ha (heq ▸ rfl)
      simp [mem_apply_of_ne map ha, hups, hdel]

end

namespace Blocklist

variable {lan : UInt32 → Bool} {s : Blocklist} {call : DiffCall}

/-- The unprotected keys of a call are those of the addresses that are not protected. -/
theorem filter_scratch (lan : UInt32 → Bool) (call : DiffCall) :
    (call.scratch.filter fun key => !isProtected lan (bpfAddrToBE key)) =
      (call.listed.filter fun addr => !isProtected lan addr).image beToBPFAddr := by
  rw [scratch, Finset.filter_image]
  simp only [bpfAddrToBE_beToBPFAddr]

/-- The mirror holds the keys in the map, and none of an address that is protected. -/
structure Mirrored (lan : UInt32 → Bool) (s : Blocklist) : Prop where
  map_eq : s.map = s.hosts
  unprotected : ∀ a ∈ s.hosts, isProtected lan (bpfAddrToBE a) = false

/-- A call writes the unprotected keys of its lists that are new. -/
theorem upsert_mem_operations {a : UInt32} : .upsert a ∈ s.operations lan call ↔
    a ∈ call.scratch ∧ isProtected lan (bpfAddrToBE a) = false ∧ a ∉ s.hosts := by
  simp [operations, call.mem_walk]

/-- A call deletes the keys that have left its lists. -/
theorem delete_mem_operations {a : UInt32} : .delete a ∈ s.operations lan call ↔
    a ∈ s.hosts ∧ a ∉ call.scratch := by
  simp [operations, call.mem_walk]

/-- No key is the subject of two operations. -/
theorem nodup_operations : ((s.operations lan call).map addr).Nodup := by
  have hups : addr ∘ upsert = id := rfl
  have hdel : addr ∘ delete = id := rfl
  rw [operations, map_append, map_map, map_map, hups, hdel, map_id, map_id, nodup_append]
  refine ⟨(call.nodup_walk _).filter _, (call.nodup_walk _).filter _, ?_⟩
  rintro a ha b hb rfl
  simp_all [call.mem_walk]

/-- The operations that a call has done. -/
def done (lan : UInt32 → Bool) (s : Blocklist) (call : DiffCall) : List MapOp :=
  (call.perform (s.operations lan call) s.map).1

/-- The map after a call, key by key. -/
theorem mem_step (a : UInt32) : a ∈ (s.step lan call).map ↔
    .upsert a ∈ s.done lan call ∨ a ∈ s.map ∧ .delete a ∉ s.done lan call :=
  mem_perform s.map nodup_operations a

/-- The mirror after a call. -/
theorem hosts_step : (s.step lan call).hosts =
    if (s.applyDiff lan call).1.err.isNone then call.scratch else s.hosts := rfl

section

variable (h : Mirrored lan s)
include h

/-- Behind a good mirror no key is missing. -/
theorem Mirrored.misses_eq_false {op : MapOp} (hop : op ∈ s.operations lan call) :
    op.misses s.map = false := by
  cases op with
  | upsert a => rfl
  | delete a => exact decide_eq_false (not_not.mpr (h.map_eq ▸ (delete_mem_operations.mp hop).1))

/-- So a call fails for other reasons only. -/
theorem Mirrored.err_eq_none_iff : (s.applyDiff lan call).1.err = none ↔
    ∀ op ∈ s.operations lan call, call.breaks op = false :=
  (perform_eq_none_iff s.map nodup_operations).trans
    (forall₂_congr fun _ hop => and_iff_left (h.misses_eq_false hop))

/-- A call that returns nil leaves the map in line with its lists. -/
theorem Mirrored.map_step (herr : (s.applyDiff lan call).1.err = none) :
    (s.step lan call).map = (call.listed.filter fun addr => !isProtected lan addr).image beToBPFAddr := by
  rw [← filter_scratch]
  ext a
  have hunprotected := h.unprotected a
  rw [mem_step, done, perform_all _ herr, upsert_mem_operations, delete_mem_operations, h.map_eq,
    Finset.mem_filter, Bool.not_eq_true']
  tauto

/-- A good mirror is all that a call needs. -/
theorem Mirrored.follows : Follows lan s :=
  fun _ => ⟨h.map_step, fun hnone => h.err_eq_none_iff.mpr fun op _ => hnone op⟩

/-- The first operation leaves the map as it is only when it fails. -/
theorem Mirrored.map_ne_of_first {op : MapOp} {rest : List MapOp}
    (hops : s.operations lan call = op :: rest) (hbreak : call.breaks op = false) :
    (s.step lan call).map ≠ s.hosts := by
  have hop : op ∈ s.operations lan call := hops ▸ mem_cons_self
  have hdone : op ∈ s.done lan call := by
    rw [done, hops, perform, if_neg (by simp [hbreak, h.misses_eq_false hop])]
    exact mem_cons_self
  intro heq
  cases op with
  | upsert a => exact (upsert_mem_operations.mp hop).2.2 (heq ▸ (mem_step a).mpr (Or.inl hdone))
  | delete a =>
    have ha := (delete_mem_operations.mp hop).1
    rcases (mem_step a).mp (heq ▸ ha) with hups | ⟨-, hkept⟩
    · exact (upsert_mem_operations.mp (performed_subset s.map hups)).2.2 ha
    · exact hkept hdone

/-- The mirror is in line with the map after a call that does nothing or everything, and after no other. -/
theorem Mirrored.map_step_iff : (s.step lan call).map = (s.step lan call).hosts ↔ Whole lan s call := by
  have herr := @Mirrored.err_eq_none_iff lan s call h
  by_cases hnil : (s.applyDiff lan call).1.err = none
  · have hnone := herr.mp hnil
    rw [hosts_step, hnil, h.map_step hnil, ← filter_scratch, Whole, and_iff_right hnone, or_iff_right]
    · simp [Finset.filter_eq_self, scratch, bpfAddrToBE_beToBPFAddr]
    · rintro ⟨op, rest, hops, hbreak⟩
      simp [hnone op (hops ▸ mem_cons_self)] at hbreak
  have hsome := mt herr.mpr hnil
  rw [hosts_step, if_neg (by simpa using hnil), Whole, or_iff_left fun hall => hsome hall.1]
  constructor
  · intro heq
    cases hops : s.operations lan call with
    | nil => simp [hops] at hsome
    | cons op rest =>
      cases hbreak : call.breaks op with
      | true => exact ⟨op, rest, rfl, hbreak⟩
      | false => exact absurd heq (h.map_ne_of_first hops hbreak)
  · rintro ⟨op, rest, hops, hbreak⟩
    change (call.perform (s.operations lan call) s.map).2.2 = s.hosts
    rw [hops, perform, if_pos (Or.inl hbreak)]
    exact h.map_eq

/-- A call that leaves the mirror in line with the map leaves no protected address in it. -/
theorem Mirrored.step (heq : (s.step lan call).map = (s.step lan call).hosts) :
    Mirrored lan (s.step lan call) := by
  refine ⟨heq, fun a ha => ?_⟩
  by_cases hnil : (s.applyDiff lan call).1.err = none
  · rw [← heq, h.map_step hnil, ← filter_scratch] at ha
    simpa using (Finset.mem_filter.mp ha).2
  · rw [hosts_step, if_neg (by simpa using hnil)] at ha
    exact h.unprotected a ha

end

/-- A call with empty lists and no faults. -/
def emptyCall : DiffCall where
  manual := []
  auto := []
  fraud := []
  walk s := s.sort
  nodup_walk s := s.sort_nodup _
  mem_walk s a := Finset.mem_sort _
  breaks _ := false

/-- A state in which the call with empty lists keeps to its lists has a good mirror. -/
theorem Follows.map_eq (h : Follows lan s) : s.map = s.hosts := by
  obtain ⟨hmap, hnil⟩ := h emptyCall
  have herr := hnil fun _ => rfl
  have hops (op : MapOp) := ((perform_eq_none_iff s.map nodup_operations).mp herr op)
  ext a
  have ha := @mem_step lan s emptyCall a
  rw [hmap herr, ← filter_scratch, done, perform_all _ herr, upsert_mem_operations,
    delete_mem_operations] at ha
  have hscr : emptyCall.scratch = ∅ := rfl
  have hdel := hops (.delete a)
  simp [delete_mem_operations, hscr, misses] at ha hdel
  exact ⟨ha, fun hmem => (hdel hmem).2⟩

/-- Every state of a run from a new store follows the deny lists exactly when each call does nothing or
everything, and takes no protected address. -/
theorem follows_iff_whole (lan : UInt32 → Bool) (calls : List DiffCall) :
    (∀ done, done <+: calls → Follows lan (run (step lan) new done)) ↔
      Admissible (Whole lan) (step lan) new calls := by
  have hinit : Mirrored lan new := ⟨rfl, by simp [new]⟩
  refine forall_reached_iff_admissible (fun s h => h.follows) ?_ ?_ hinit
    (Admissible.of_forall (fun _ _ => trivial) new)
  · intro s call _ hwhole h
    exact h.step (h.map_step_iff.mpr hwhole)
  · intro s call _ h hgood
    exact h.map_step_iff.mp hgood.map_eq

/-- A list with a resolver is applied, without writing it; then no call without it returns nil. -/
theorem protected_address_blocks_calls :
    let listed := { emptyCall with manual := [[56, 46, 56, 46, 56, 46, 56]] }
    let s := run (step fun _ => false) new [listed]
    s.hosts = {0x08080808} ∧ s.map = ∅ ∧
      (s.applyDiff (fun _ => false) emptyCall).1.err = some (.delete 0x08080808) := by
  decide +kernel

end Blocklist

end Espx.Edge
