import Espx.SlotMigration.SharedSource

/-!
# Slots that do not disturb each other

The shared keys serve several slots only while all of them have one target and none is enabled or
finalised beside another. In the runs whose steps keep to that, each delta of a slot is applied once, to
the target of its slot.
-/

namespace Espx.SlotMigration

open Espx.Foundation Espx.Domain Espx.Ingestion Espx.Settlement SharedSource Transfer List

section

/-- A call may be under way. -/
def Phase.calling : Phase → Bool
  | .ready | .finalizing _ => true
  | _ => false

variable {p : SourcePlan}

/-- The slot of a report. -/
theorem slotOf_report {x : FilterExecution} (h : readable p.texts x) {slot : ℕ}
    (hslot : p.slotOf x.report = some slot) :
    slot = campaignSlotIndex x.event.campaignID ∧ slot ∈ p.migrating := by
  rw [SourcePlan.slotOf, parse_report h] at hslot
  dsimp only at hslot
  split at hslot
  · rename_i hmem
    cases hslot
    exact ⟨rfl, hmem⟩
  · cases hslot

/-- In a list of items in the order of their places, an item is the only one of its place. -/
theorem filter_place {items : List (ℕ × ℕ)} (hsort : (items.map Prod.fst).Pairwise (· < ·))
    {item : ℕ × ℕ} (h : item ∈ items) :
    items.filter (fun other => other.1 = item.1) = [item] := by
  have hnodup : (items.map Prod.fst).Nodup := hsort.imp Nat.ne_of_lt
  induction items with
  | nil => cases h
  | cons first rest ih =>
    obtain ⟨hfirst, hrest⟩ := nodup_cons.mp hnodup
    rcases mem_cons.mp h with rfl | hmem
    · rw [filter_cons_of_pos (by simp)]
      congr 1
      rw [filter_eq_nil_iff]
      intro other hother heq
      exact hfirst (of_decide_eq_true heq ▸ mem_map_of_mem hother)
    · have hne : first.1 ≠ item.1 := fun heq => hfirst (heq ▸ mem_map_of_mem hmem)
      rw [filter_cons_of_neg (by simpa using hne)]
      exact ih (pairwise_cons.mp hsort).2 hmem hrest

namespace SharedSource

variable {s₀ s : SharedSource} {src : Shard} {slot : ℕ}

/-- The place up to which entries have been applied. -/
def position (p : SourcePlan) (s : SharedSource) : ℕ := (s.transfer p 0).position

/-- The entry at a place is a delta of a slot that leaves the shard. -/
def DeltaAt (p : SourcePlan) (s : SharedSource) (place slot : ℕ) : Prop :=
  ∃ entry, s.src.log.entries[place]? = some entry ∧ p.slotOf entry = some slot

/-- The invariant of the runs from a state. -/
structure Inv (p : SourcePlan) (s₀ s : SharedSource) : Prop where
  agrees : (s.transfer p 0).Agrees
  idle : s.phase.calling = false → s.call = .idle
  le_length : s.position p ≤ s.src.log.entries.length
  oneTarget : ∀ place slot, s.position p ≤ place → s.DeltaAt p place slot →
    ∀ other ∈ s.writing p, p.target slot = p.target other
  delivered : ∀ place slot, s₀.src.start ≤ place → place < s.position p → s.DeltaAt p place slot →
    (place, p.target slot) ∈ s.applied
  applied_lt : ∀ item ∈ s.applied, item.1 < s.position p
  sorted : (s.applied.map Prod.fst).Pairwise (· < ·)

theorem position_idle (h : s.call = .idle) : s.position p = s.src.start := by
  have hcall : (s.transfer p 0).call = .idle := h
  rw [position, Transfer.position, hcall]
  rfl

/-- What is pending starts at the latest where entries have not been applied. -/
theorem Inv.start_le (h : Inv p s₀ s) : s.src.start ≤ s.position p := by
  have hagree := h.agrees
  unfold position Transfer.position
  unfold Transfer.Agrees at hagree
  split
  · rename_i next applied entries hcall
    rw [hcall] at hagree
    exact hagree.1
  · exact Nat.le_refl _

/-- The invariant says how each delta was applied. -/
theorem Inv.appliedOnce (h : Inv p s₀ s) : AppliedOnce p s₀ s := by
  intro place entry slot hstart hentry hslot
  rcases Nat.lt_or_ge place (s.position p) with hlt | hge
  · exact .inl (filter_place h.sorted (h.delivered place slot hstart hlt ⟨entry, hentry, hslot⟩))
  refine .inr ⟨?_, h.start_le.trans hge⟩
  rw [filter_eq_nil_iff]
  intro item hitem heq
  have hitem_lt := h.applied_lt item hitem
  have hplace : item.1 = place := of_decide_eq_true heq
  omega

/-- A delta in a longer stream was there before, or is one of those that were appended. -/
theorem DeltaAt.of_append {more : List Entry} {place slot : ℕ}
    (h : DeltaAt p { s with src := src } place slot)
    (hlog : src.log.entries = s.src.log.entries ++ more) :
    s.DeltaAt p place slot ∨
      s.src.log.entries.length ≤ place ∧ ∃ entry ∈ more, p.slotOf entry = some slot := by
  obtain ⟨entry, hentry, hslot⟩ := h
  rw [hlog] at hentry
  rcases Nat.lt_or_ge place s.src.log.entries.length with hlt | hge
  · rw [getElem?_append_left hlt] at hentry
    exact .inl ⟨entry, hentry, hslot⟩
  · rw [getElem?_append_right hge] at hentry
    exact .inr ⟨hge, entry, mem_of_getElem? hentry, hslot⟩

/-- A step on the source that only appends to the stream. -/
theorem Inv.source (h : Inv p s₀ s) {more : List Entry}
    (hlog : src.log.entries = s.src.log.entries ++ more) (hstart : src.start = s.src.start)
    (hmore : ∀ entry ∈ more, ∀ slot, p.slotOf entry = some slot →
      ∀ other ∈ s.writing p, p.target slot = p.target other) : Inv p s₀ { s with src := src } := by
  obtain ⟨hagree, hpos⟩ := agrees_source h.agrees h.le_length hlog hstart
  have hpos' : position p { s with src := src } = s.position p := hpos
  refine ⟨hagree, h.idle, ?_, ?_, ?_, ?_, h.sorted⟩
  · rw [hpos']
    rw [hlog, length_append]
    exact Nat.le_add_right_of_le h.le_length
  · rw [hpos']
    intro place slot hplace hdelta
    rcases hdelta.of_append hlog with hold | ⟨-, entry, hentry, hslot⟩
    · exact h.oneTarget place slot hplace hold
    · exact hmore entry hentry slot hslot
  · rw [hpos']
    intro place slot hbase hplace hdelta
    rcases hdelta.of_append hlog with hold | ⟨hge, -⟩
    · exact h.delivered place slot hbase hplace hold
    · have hle := h.le_length
      omega
  · rw [hpos']
    exact h.applied_lt

/-- A step between two calls that moves the start of what is pending over entries of no slot. -/
theorem Inv.rest (h : Inv p s₀ s) (hidle : s.call = .idle) {s' : SharedSource} (hcall : s'.call = .idle)
    (happ : s'.applied = s.applied) (hlog : s'.src.log.entries = s.src.log.entries)
    (hstart : s.src.start ≤ s'.src.start) (hle : s'.src.start ≤ s.src.log.entries.length)
    (hskipped : ∀ place slot, s.src.start ≤ place → place < s'.src.start → ¬ s.DeltaAt p place slot)
    (hwrite : ∀ other ∈ s'.writing p, other ∈ s.writing p ∨
      ∀ place slot, s'.src.start ≤ place → s.DeltaAt p place slot → p.target slot = p.target other) :
    Inv p s₀ s' := by
  have hpos : s.position p = s.src.start := position_idle hidle
  have hpos' : s'.position p = s'.src.start := position_idle hcall
  have hdelta (place slot : ℕ) (hdelta : s'.DeltaAt p place slot) : s.DeltaAt p place slot := by
    obtain ⟨entry, hentry, hslot⟩ := hdelta
    rw [hlog] at hentry
    exact ⟨entry, hentry, hslot⟩
  refine ⟨agrees_idle hcall, fun _ => hcall, ?_, ?_, ?_, ?_, ?_⟩
  · rw [hpos', hlog]
    exact hle
  · rw [hpos']
    intro place slot hplace hat other hother
    rcases hwrite other hother with hold | hnew
    · refine h.oneTarget place slot ?_ (hdelta place slot hat) other hold
      rw [hpos]
      exact hstart.trans hplace
    · exact hnew place slot hplace (hdelta place slot hat)
  · rw [hpos', happ]
    intro place slot hbase hplace hat
    rcases Nat.lt_or_ge place s.src.start with hlt | hge
    · exact h.delivered place slot hbase (hpos ▸ hlt) (hdelta place slot hat)
    · exact absurd (hdelta place slot hat) (hskipped place slot hge hplace)
  · rw [hpos', happ]
    intro item hitem
    exact (h.applied_lt item hitem).trans_le (hpos.trans_le hstart)
  · rw [happ]
    exact h.sorted

/-- A step between two calls that leaves the source and the history. -/
theorem Inv.next (h : Inv p s₀ s) (hidle : s.call = .idle) {s' : SharedSource} (hcall : s'.call = .idle)
    (happ : s'.applied = s.applied) (hlog : s'.src.log = s.src.log) (hcur : s'.src.cursor = s.src.cursor)
    (hwrite : ∀ other ∈ s'.writing p, other ∈ s.writing p) : Inv p s₀ s' := by
  have hstart : s'.src.start = s.src.start := by
    rw [Shard.start, hlog, hcur]
    rfl
  have hle := h.start_le.trans h.le_length
  refine h.rest hidle hcall happ (congrArg Log.entries hlog) hstart.ge (hstart.trans_le hle) ?_
    fun other hother => .inl (hwrite other hother)
  intro place slot hge hlt
  omega

/-- A debit. -/
theorem Inv.debit (h : Inv p s₀ s) {x : FilterExecution} (hsafe : s.safe p (.debit x)) :
    Inv p s₀ (s.step p (.debit x)) := by
  obtain ⟨hstream, hread, hrep⟩ := of_decide_eq_true hsafe
  have hsame (hstr : (x.execute s.src.redis).2.streams dualWriteStream =
      s.src.redis.streams dualWriteStream) : Inv p s₀ (s.step p (.debit x)) :=
    h.source (hstr.trans (append_nil _).symm) rfl (by simp)
  rcases x.execute_shows s.src.redis hstream with ⟨hstr, -⟩ | ⟨hstr, -⟩
  · exact hsame hstr
  rcases hrep with hnone | hrep
  · exact hsame hnone
  refine h.source hstr rfl ?_
  intro entry hentry slot hslot
  rw [mem_singleton.mp hentry] at hslot
  obtain ⟨rfl, hmem⟩ := slotOf_report hread hslot
  exact hrep.resolve_left fun hnot => hnot hmem

theorem Inv.onSource_same (h : Inv p s₀ s) {redis : Redis} (hstr : redis.streams = s.src.redis.streams) :
    Inv p s₀ (s.onSource redis) := by
  have hlog : redis.streams dualWriteStream = s.src.log.entries ++ [] := by
    rw [hstr, append_nil]
    rfl
  exact h.source hlog rfl (by simp)

/-- No slot has a delta among entries that are of no slot. -/
theorem not_deltaAt_of_between {i j : ℕ}
    (h : (s.src.log.between i j).all fun entry => p.slotOf entry = none) (place slot : ℕ) (hi : i ≤ place)
    (hj : place < j) : ¬ s.DeltaAt p place slot := by
  rintro ⟨entry, hentry, hslot⟩
  have hmem : entry ∈ s.src.log.between i j := by
    rw [Log.between]
    apply mem_of_getElem? (i := place - i)
    rw [getElem?_take_of_lt (by omega), getElem?_drop, Nat.add_sub_cancel' hi]
    exact hentry
  have hnone := of_decide_eq_true (all_eq_true.mp h entry hmem)
  rw [hslot] at hnone
  cases hnone

/-- The stream is trimmed. -/
theorem Inv.trim (h : Inv p s₀ s) {upTo : ℕ} (hsafe : s.safe p (.trim upTo)) :
    Inv p s₀ (s.step p (.trim upTo)) := by
  rcases of_decide_eq_true hsafe with hcur | ⟨hrest, hforeign⟩
  · exact h.source (append_nil _).symm (Shard.trim_start hcur) (by simp)
  have hidle : s.call = .idle := call_of_resting hrest
  have hle := h.start_le.trans h.le_length
  have hstarts : s.src.start ≤ (s.src.trim upTo).start ∧
      (s.src.trim upTo).start ≤ s.src.log.entries.length := by
    change max s.src.cursor s.src.gone ≤ s.src.log.entries.length at hle
    change max s.src.cursor s.src.gone ≤
        max s.src.cursor (max s.src.gone (min upTo s.src.log.entries.length)) ∧
      max s.src.cursor (max s.src.gone (min upTo s.src.log.entries.length)) ≤ s.src.log.entries.length
    omega
  exact h.rest hidle hidle rfl rfl hstarts.1 hstarts.2
    (not_deltaAt_of_between hforeign) fun other hother => .inl hother

/-- A slot that is in dual write after its job was updated. -/
theorem mem_writing_update {slot other : ℕ} {job : SlotJob} {phase : Phase}
    (h : other ∈ writing p { s with src := src, job := Function.update s.job slot job, phase := phase }) :
    other ∈ s.writing p ∨ other = slot ∧ job = .dualWriting := by
  obtain ⟨hmem, hjob⟩ := mem_filter.mp h
  have hjob' : Function.update s.job slot job other = .dualWriting := of_decide_eq_true hjob
  by_cases heq : other = slot
  · rw [heq, Function.update_self] at hjob'
    exact .inr ⟨heq, hjob'⟩
  · rw [Function.update_of_ne heq] at hjob'
    exact .inl (mem_filter.mpr ⟨hmem, decide_eq_true hjob'⟩)

/-- A slot is enabled. -/
theorem Inv.delCursor (h : Inv p s₀ s) (hphase : s.phase = .flagSet slot) (hsafe : s.safe p .delCursor) :
    Inv p s₀ { s with
      src := s.src.delCursor, job := Function.update s.job slot .dualWriting, phase := .ready } := by
  rw [safe, hphase] at hsafe
  obtain ⟨hcur, hgoes, -⟩ := of_decide_eq_true hsafe
  have hidle := h.idle (hphase ▸ rfl)
  have hstart := Shard.delCursor_start hcur
  have hle := h.start_le.trans h.le_length
  refine h.rest hidle hidle rfl rfl hstart.ge (hstart.trans_le hle) ?_ ?_
  · intro place _ hge hlt
    exact absurd hlt (Nat.not_lt.mpr (hstart.trans_le hge))
  · intro other hother
    rcases mem_writing_update hother with hold | ⟨rfl, -⟩
    · exact .inl hold
    refine .inr fun place slot hplace hat => ?_
    obtain ⟨entry, hentry, hslot⟩ := hat
    have hmem : entry ∈ s.src.pending := by
      apply mem_of_getElem? (i := place - s.src.start)
      change (s.src.log.entries.drop s.src.start)[place - s.src.start]? = some entry
      rw [getElem?_drop, Nat.add_sub_cancel' (hstart.symm.trans_le hplace)]
      exact hentry
    exact of_decide_eq_true (all_eq_true.mp hgoes entry hmem) slot hslot

/-- Dual writes are disabled. -/
theorem Inv.disable (h : Inv p s₀ s) (hidle : s.call = .idle)
    (hforeign : s.src.pending.all fun entry => p.slotOf entry = none) :
    Inv p s₀ { s with src := s.src.disabled, phase := .ready } := by
  have hle := h.start_le.trans h.le_length
  have hstart := s.src.start_disabled
  have hbetween : (s.src.log.between s.src.start s.src.disabled.start).all
      fun entry => p.slotOf entry = none := by
    rw [hstart, Log.between, take_of_length_le (by rw [length_drop])]
    exact hforeign
  exact h.rest hidle hidle rfl rfl (hle.trans_eq hstart.symm) hstart.le
    (not_deltaAt_of_between hbetween) fun other hother => .inl hother

/-- Where a part of a call leads. -/
theorem after_calling {phase : Phase} (h : phase.admits slot = true) (returned : Option Returned) :
    (p.after slot phase returned).calling = true ∨ returned.isSome := by
  cases returned with
  | some value => exact .inr rfl
  | none =>
    left
    cases phase <;> first | rfl | cases h

/-- A part of a call for a slot in dual write. -/
theorem Inv.catchUp (h : Inv p s₀ s) (hadmits : s.phase.admits slot = true)
    (hwrite : slot ∈ s.writing p) {part : Part} (hclean : (s.transfer p slot).clean p.texts part) :
    Inv p s₀ (s.caughtUp p slot part) := by
  have hagree : (s.transfer p slot).Agrees := h.agrees
  obtain ⟨hmoved, -⟩ := perform_moved hagree hclean
  have hret := (s.transfer p slot).perform_returned p.texts part
  unfold caughtUp
  generalize (s.transfer p slot).perform p.texts part = result at hmoved hret ⊢
  obtain ⟨t', returned⟩ := result
  dsimp only at hmoved hret ⊢
  have hlog : t'.src.log.entries = s.src.log.entries := by
    rw [Shard.log, hmoved.redis]
    rfl
  have hdelta (place other : ℕ) (hat : ∃ entry, t'.src.log.entries[place]? = some entry ∧
      p.slotOf entry = some other) : s.DeltaAt p place other := by
    rw [hlog] at hat
    exact hat
  have hidle : (p.after slot s.phase returned).calling = false → t'.call = .idle := by
    intro hcall
    rcases after_calling hadmits returned with htrue | hsome
    · exact absurd (htrue.symm.trans hcall) (by simp)
    · exact hret hsome
  rcases hmoved.moved with ⟨hnone, hpos, -⟩ | ⟨entry, hsome, hentry, hpos, -⟩
  · rw [hnone, Option.toList_none, map_nil, append_nil]
    refine ⟨hmoved.agrees, hidle, ?_, ?_, ?_, ?_, h.sorted⟩
    · change t'.position ≤ t'.src.log.entries.length
      rw [hpos, hlog]
      exact h.le_length
    · intro place other hplace hat
      exact h.oneTarget place other (hpos.symm.trans_le hplace) (hdelta place other hat)
    · intro place other hbase hplace hat
      exact h.delivered place other hbase (hplace.trans_eq hpos) (hdelta place other hat)
    · intro item hitem
      exact (h.applied_lt item hitem).trans_eq hpos.symm
  · rw [hsome, Option.toList_some, map_singleton]
    change t'.position = s.position p + 1 at hpos
    refine ⟨hmoved.agrees, hidle, ?_, ?_, ?_, ?_, ?_⟩
    · change t'.position ≤ t'.src.log.entries.length
      rw [hpos, hlog]
      exact (List.getElem?_eq_some_iff.mp hentry).1
    · intro place other hplace hat
      change t'.position ≤ place at hplace
      exact h.oneTarget place other (by omega) (hdelta place other hat)
    · intro place other hbase hplace hat
      rw [mem_append]
      rcases Nat.lt_or_eq_of_le (Nat.le_of_lt_succ (hplace.trans_eq hpos)) with hlt | heq
      · exact .inl (h.delivered place other hbase hlt (hdelta place other hat))
      right
      rw [h.oneTarget place other heq.ge (hdelta place other hat) slot hwrite, heq]
      exact mem_singleton.mpr rfl
    · intro item hitem
      change item.1 < t'.position
      rcases mem_append.mp hitem with hold | hnew
      · have hlt := h.applied_lt item hold
        omega
      · rw [mem_singleton.mp hnew]
        change s.position p < t'.position
        omega
    · rw [map_append, pairwise_append]
      refine ⟨h.sorted, pairwise_singleton _ _, ?_⟩
      intro place hplace next hnext
      obtain ⟨item, hitem, rfl⟩ := mem_map.mp hplace
      rw [mem_singleton.mp hnext]
      exact h.applied_lt item hitem

/-- A step that meets the condition keeps the invariant. -/
theorem Inv.step (h : Inv p s₀ s) {a : SharedAction} (hsafe : s.safe p a) : Inv p s₀ (s.step p a) := by
  cases a with
  | debit x => exact h.debit hsafe
  | trim upTo => exact h.trim hsafe
  | cursorExpires =>
    exact h.source (append_nil _).symm (Shard.delCursor_start (of_decide_eq_true hsafe)) (by simp)
  | flagExpires => exact h.onSource_same rfl
  | copyKey slot key =>
    simp only [SharedSource.step]
    split
    · exact { h with }
    · exact h
  | setFlag slot value =>
    simp only [SharedSource.step]
    split
    · rename_i hready
      have hidle : s.call = .idle := call_of_resting hready.2.1
      exact h.next hidle hidle rfl rfl rfl fun _ hother => hother
    · exact h
  | delCursor =>
    simp only [SharedSource.step]
    split
    · rename_i slot hphase
      exact h.delCursor hphase hsafe
    · exact h
  | catchUp slot part =>
    simp only [SharedSource.step]
    split
    · rename_i hcalls
      exact h.catchUp hcalls.1 hcalls.2.1 hsafe
    · exact h
  | checkLag slot =>
    simp only [SharedSource.step]
    split
    · rename_i hready
      have hidle : s.call = .idle := call_of_resting hready.2.1
      split
      · exact h.next hidle hidle rfl rfl rfl fun _ hother => hother
      · split
        · exact h
        · exact h.next hidle hidle rfl rfl rfl fun _ hother => hother
    · exact h
  | fence id gen =>
    simp only [SharedSource.step]
    split
    · exact h.onSource_same rfl
    · exact h
  | disable =>
    simp only [SharedSource.step]
    rw [safe] at hsafe
    split
    · rename_i slot hphase
      rw [hphase] at hsafe
      exact h.disable (h.idle (hphase ▸ rfl)) (of_decide_eq_true hsafe).1
    · rename_i slot hphase
      rw [hphase] at hsafe
      exact h.disable (h.idle (hphase ▸ rfl)) (of_decide_eq_true hsafe).1
    · exact h
  | reject =>
    have hnext (hphase : s.phase.calling = false) : Inv p s₀ { s with phase := .ready } :=
      h.next (h.idle hphase) (h.idle hphase) rfl rfl rfl fun _ hother => hother
    simp only [SharedSource.step]
    split <;> first | exact hnext (by simp_all [Phase.calling]) | exact h
  | markCopied =>
    simp only [SharedSource.step]
    split
    · rename_i slot hphase
      have hidle := h.idle (hphase ▸ rfl)
      refine h.next hidle hidle rfl rfl rfl fun other hother => ?_
      exact (mem_writing_update hother).resolve_right fun hnew => absurd hnew.2 (by simp)
    · exact h

/-- The history of the applied entries is what was done to the shards. -/
theorem Inv.recorded (h : Inv p s₀ s) {a : SharedAction} (hsafe : s.safe p a) : s.Recorded p a := by
  cases a with
  | copyKey slot key => exact .inl ⟨slot, key, rfl⟩
  | catchUp slot part =>
    right
    simp only [SharedSource.step]
    split
    · have hagree : (s.transfer p slot).Agrees := h.agrees
      obtain ⟨hmoved, -⟩ := perform_moved hagree hsafe
      unfold caughtUp
      dsimp only
      rcases hmoved.moved with ⟨hnone, -, hdst⟩ | ⟨entry, hsome, hentry, -, hdst⟩
      · rw [hnone, hdst]
        exact .inl ⟨append_nil _, Function.update_eq_self _ _⟩
      · rw [hsome, hdst]
        exact .inr ⟨_, entry, p.target slot, hentry, rfl, rfl⟩
    · exact .inl ⟨rfl, rfl⟩
  | debit _ | trim _ | cursorExpires | flagExpires => exact .inr (.inl ⟨rfl, rfl⟩)
  | checkLag _ =>
    refine .inr (.inl ?_)
    simp only [SharedSource.step]
    split_ifs <;> exact ⟨rfl, rfl⟩
  | setFlag _ _ | delCursor | fence _ _ | disable | reject | markCopied =>
    refine .inr (.inl ?_)
    simp only [SharedSource.step]
    split <;> exact ⟨rfl, rfl⟩

/-- A step that meets the condition disturbs no other slot. -/
theorem intact_of_safe {a : SharedAction} (hsafe : s.safe p a) : s.Intact p a := by
  intro hkind hothers
  cases a with
  | setFlag slot value | markCopied =>
    simp only [step]
    split <;> exact ⟨rfl, rfl⟩
  | delCursor =>
    simp only [step]
    split
    · rename_i slot hphase
      rw [safe, hphase] at hsafe
      have hcur := (of_decide_eq_true hsafe).2.2 hothers
      have hsame : s.src.delCursor = s.src := by
        rw [Shard.delCursor, ← hcur]
      rw [hsame]
      exact ⟨rfl, rfl⟩
    · exact ⟨rfl, rfl⟩
  | disable =>
    have hoff (h : s.src.pending = [] ∧ s.src.cursorKey = none) :
        s.src.disabled.pending = s.src.pending ∧ s.src.disabled.cursorKey = s.src.cursorKey := by
      refine ⟨?_, h.2.symm⟩
      rw [h.1]
      change s.src.log.entries.drop s.src.disabled.start = []
      rw [Shard.start_disabled, drop_length]
    simp only [step]
    rw [safe] at hsafe
    split
    · rename_i slot hphase
      rw [hphase] at hsafe
      exact hoff ((of_decide_eq_true hsafe).2 hothers)
    · rename_i slot hphase
      rw [hphase] at hsafe
      exact hoff ((of_decide_eq_true hsafe).2 hothers)
    · exact ⟨rfl, rfl⟩
  | _ => cases hkind

/-- No slot is in dual write yet. -/
structure Quiet (p : SourcePlan) (s : SharedSource) : Prop where
  phase : s.phase = .ready
  idle : s.call = .idle
  start_le : s.src.start ≤ s.src.log.entries.length
  writing : s.writing p = []
  applied : s.applied = []

/-- The invariant holds at the start. -/
theorem Quiet.inv (h : Quiet p s) : Inv p s s := by
  have hpos : s.position p = s.src.start := position_idle h.idle
  refine ⟨agrees_idle h.idle, fun _ => h.idle, ?_, ?_, ?_, ?_, ?_⟩
  · rw [hpos]
    exact h.start_le
  · rw [h.writing]
    simp
  · intro place slot hbase hplace
    omega
  · rw [h.applied]
    simp
  · rw [h.applied]
    exact List.Pairwise.nil

end SharedSource

end

open SharedSource in
/-- In every run whose steps all meet the condition, from a state in which no slot is in dual write, each
delta of a slot is applied once, to the target of its slot and to no other shard; enabling or finalising
one slot leaves what is pending for the others and the cursor; and the shards get what the history of the
applied entries says. -/
theorem slots_do_not_interfere (p : SourcePlan) {s : SharedSource} (hstart : Quiet p s)
    {actions : List SharedAction} (hsafe : Admissible (fun s a => safe p s a) (step p) s actions) :
    AppliedOnce p s (run (step p) s actions) ∧ Admissible (Intact p) (step p) s actions ∧
      Admissible (Recorded p) (step p) s actions := by
  have hstep (t : SharedSource) (a : SharedAction) (hok : safe p t a) (hinv : Inv p s t) :
      Inv p s (step p t a) := Inv.step hinv hok
  have hinv : Inv p s (run (step p) s actions) := hsafe.invariant hstep hstart.inv
  refine ⟨hinv.appliedOnce, admissible_iff_forall.mpr fun done a hdone => ?_, ?_⟩
  · exact intact_of_safe (admissible_iff_forall.mp hsafe done a hdone)
  · exact Admissible.law hstep (fun _ _ hok hinv => hinv.recorded hok) hsafe hstart.inv

/-- A campaign of another slot. -/
def sampleOther : UUID := Vector.replicate 16 8

/-- The slots of the two campaigns go to the shards one and two. -/
def sampleSource : SourcePlan where
  texts :=
    { parseUUID := fun text => [sampleRow.id, sampleOther].find? fun id => uuidString id = text }
  migrating := [306, 938]
  target slot := if slot = 306 then 1 else 2
  lagEpsilon := 0
  lagThreshold := 1000

/-- A click on one of the two campaigns. -/
def sampleDebitOf (id : UUID) (clickID : String) : FilterExecution where
  filter := sampleFilter
  event := { sampleClick with campaignID := id, clickID := clickID }
  row := { sampleRow with id := id }
  now := sampleClock
  registered := sampleRow_id id
  brandKey := sampleRow_brandKey

/-- Both campaigns have a budget of one hundred on the source. -/
def sampleShared : SharedSource where
  src := ⟨(Redis.empty.setNum (budgetCampaignKey sampleRow.id) 100).setNum
    (budgetCampaignKey sampleOther) 100, 0, none⟩
  shards _ := Redis.empty
  job _ := .copying
  phase := .ready
  caller := 0
  call := .idle
  applied := []

theorem sampleShared_quiet : sampleShared.Quiet sampleSource :=
  ⟨rfl, rfl, Nat.le_refl _, by decide +kernel, rfl⟩

/-- A slot is copied and enabled. -/
def enableSlot (slot : ℕ) (id : UUID) : List SharedAction :=
  [.copyKey slot (budgetCampaignKey id), .setFlag slot "2:0:0", .delCursor]

/-- One entry is caught up for a slot. -/
def catchUpSlot (slot : ℕ) : List SharedAction :=
  [.catchUp slot (.read true), .catchUp slot (.applyNext ⟨true, .done⟩),
    .catchUp slot (.advance .received), .catchUp slot (.measure true)]

/-- A slot that has caught up is finalised. -/
def finalizeSlot (slot : ℕ) : List SharedAction :=
  [.checkLag slot, .catchUp slot (.read true), .catchUp slot (.advance .received),
    .catchUp slot (.measure true), .markCopied, .disable]

/-- The slots are moved one after the other. -/
theorem slots_do_not_interfere_in_turn :
    let actions := enableSlot 306 sampleRow.id ++ .debit (sampleDebitOf sampleRow.id "a") ::
      catchUpSlot 306 ++ finalizeSlot 306 ++ enableSlot 938 sampleOther ++
      .debit (sampleDebitOf sampleOther "b") :: catchUpSlot 938
    (run (SharedSource.step sampleSource) sampleShared actions).applied = [(0, 1), (1, 2)] ∧
      SharedSource.AppliedOnce sampleSource sampleShared
        (run (SharedSource.step sampleSource) sampleShared actions) := by
  intro actions
  have hsafe : Admissible (fun s a => safe sampleSource s a)
      (step sampleSource) sampleShared actions := by
    decide +kernel
  exact ⟨by decide +kernel, (slots_do_not_interfere sampleSource sampleShared_quiet hsafe).1⟩

/-- A delta of the first slot is caught up, then the second slot is enabled: the cursor is gone, and the
delta is applied again. -/
theorem slots_interfere :
    let enabled := enableSlot 306 sampleRow.id ++ .debit (sampleDebitOf sampleRow.id "a") ::
      catchUpSlot 306 ++ enableSlot 938 sampleOther
    (run (SharedSource.step sampleSource) sampleShared (enabled ++ catchUpSlot 306)).applied =
        [(0, 1), (0, 1)] ∧
      ¬ SharedSource.AppliedOnce sampleSource sampleShared
        (run (SharedSource.step sampleSource) sampleShared (enabled ++ catchUpSlot 306)) ∧
      ¬ Admissible (SharedSource.Intact sampleSource) (SharedSource.step sampleSource) sampleShared
        enabled := by
  intro enabled
  refine ⟨by decide +kernel, fun honce => ?_, fun hintact => ?_⟩
  · have hzero := honce 0 (sampleDebitOf sampleRow.id "a").report 306 (Nat.zero_le _) (by decide +kernel)
      (by decide +kernel)
    revert hzero
    decide +kernel
  · have hcur := (admissible_iff_forall.mp hintact (enabled.dropLast) .delCursor
      (by rw [show enabled.dropLast ++ [.delCursor] = enabled from rfl]) rfl (by decide +kernel)).2
    revert hcur
    decide +kernel

end Espx.SlotMigration
