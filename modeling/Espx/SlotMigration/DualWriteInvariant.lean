import Espx.SlotMigration.DualWrite

/-!
# No debit is lost, but in two windows

A debit that comes after its keys were copied and before the flag is set is in neither the copy nor the
stream, and one after the last look at the stream is left in it. In the runs without such debits the
counters of the two shards agree when the slot is marked as copied.
-/

namespace Espx.SlotMigration

open Espx.Foundation Espx.Domain Espx.Ingestion Espx.Settlement Migration Transfer List

section

variable {p : SlotPlan} {id : UUID} {counter : String}

theorem spendKey_of_mem {key : String} (h : key ∈ spendKeys id) : SpendKey id key := by
  rcases mem_cons.mp h with rfl | hquota
  · exact SpendKey.budget
  · obtain ⟨sub, -, rfl⟩ := mem_map.mp hquota
    exact SpendKey.quota sub

/-- A foreign entry owes nothing to a counter of the slot. -/
theorem owed_foreign {entry : Entry} (h : p.foreign entry) (hid : id ∈ p.campaigns)
    (hcount : Counter id counter) : owed p.texts counter [entry] = 0 := by
  rw [owed, flatMap_singleton, entryCommands]
  rw [SlotPlan.foreign] at h
  split
  · rfl
  rename_i delta hparse
  rw [hparse] at h
  unfold Delta.effect
  split
  · rfl
  rename_i hamt
  obtain ⟨hother, hspend⟩ := (of_decide_eq_true h).resolve_left hamt
  have hkeys (key : String) (hkey : Counter delta.campaignID key) : counter ≠ key := by
    rintro rfl
    exact hother (hcount.unique hkey ▸ hid)
  simp [Delta.commands, Command.adds, hkeys _ (.inl (spendKey_of_mem hspend)), hkeys _ (.inr rfl)]

/-- Foreign entries owe nothing to a counter of the slot. -/
theorem owed_all_foreign {entries : List Entry} (h : entries.all p.foreign) (hid : id ∈ p.campaigns)
    (hcount : Counter id counter) : owed p.texts counter entries = 0 := by
  induction entries with
  | nil => rfl
  | cons entry rest ih =>
    obtain ⟨hentry, hrest⟩ := (Bool.and_eq_true _ _).mp h
    rw [owed_cons, owed_foreign hentry hid hcount, ih hrest, add_zero]

/-- What entries from a place on owe, and those from a later place on. -/
theorem owed_drop (texts : Texts) (l : Log Entry) {i j : ℕ} (h : i ≤ j) :
    owed texts counter (l.entries.drop i) =
      owed texts counter (l.between i j) + owed texts counter (l.entries.drop j) := by
  have hj : l.entries.drop j = (l.entries.drop i).drop (j - i) := by
    rw [drop_drop, Nat.add_sub_cancel' h]
  rw [← owed_append, Log.between, hj, take_append_drop]

end

section

variable (p : SlotPlan)

/-- A key has been copied. -/
def Job.past (key : String) : Job → Prop
  | .copying todo => key ∉ todo
  | _ => True

/-- A call may be under way. -/
def Job.calling : Job → Bool
  | .dualWriting | .finalizing => true
  | _ => false

theorem Job.early_of_calling {job : Job} (h : job.calling = true) : job.early = false := by
  cases job <;> first | rfl | cases h

theorem Job.calling_of_early {job : Job} (h : job.early = true) : job.calling = false := by
  cases job <;> first | rfl | cases h

namespace Migration

variable {p} {m : Migration} {job : Job}

/-- Until the slot is marked as copied, for every counter that has been copied, the source is ahead of the
target by what the stream still owes. -/
structure Sound (p : SlotPlan) (m : Migration) : Prop where
  agrees : m.transfer.Agrees
  idle : m.job.calling = false → m.transfer.call = .idle
  le_length : m.place ≤ m.log.entries.length
  todo : ∀ todo, m.job = .copying todo → todo <:+ p.keys
  owing : ∀ id ∈ p.campaigns, ∀ counter, Counter id counter → m.job.past counter →
    m.transfer.src.redis.count counter =
      m.transfer.dst.count counter + owed p.texts counter (m.log.entries.drop m.place)
  equal : m.job = .checked → m.CountersEqual p

theorem place_early (h : m.job.early = true) : m.place = m.transfer.src.gone := if_pos h

theorem place_late (h : m.job.early = false) : m.place = m.transfer.position :=
  if_neg (Bool.eq_false_iff.mp h)

/-- A step on the source that only appends to the stream, and appends what it does to the counters. -/
theorem Sound.source (h : Sound p m) {src : Shard} {more : List Entry}
    (hlog : src.log.entries = m.log.entries ++ more)
    (hgone : m.job.early = true → src.gone = m.transfer.src.gone)
    (hstart : m.job.early = false → src.start = m.transfer.src.start)
    (hcount : ∀ id ∈ p.campaigns, ∀ counter, Counter id counter → m.job.past counter →
      src.redis.count counter = m.transfer.src.redis.count counter + owed p.texts counter more)
    (hequal : m.job = .checked → ∀ id ∈ p.campaigns, ∀ counter, Counter id counter →
      src.redis.count counter = m.transfer.src.redis.count counter) : Sound p (m.withSource src) := by
  have hmoved : Transfer.Agrees { m.transfer with src := src } ∧ (m.withSource src).place = m.place := by
    cases hearly : m.job.early with
    | true =>
      refine ⟨agrees_idle (h.idle (Job.calling_of_early hearly)), ?_⟩
      have hearly' : (m.withSource src).job.early = true := hearly
      rw [place_early hearly, place_early hearly']
      exact hgone hearly
    | false =>
      have hle := h.le_length
      have hearly' : (m.withSource src).job.early = false := hearly
      rw [place_late hearly] at hle
      rw [place_late hearly, place_late hearly']
      exact agrees_source h.agrees hle hlog (hstart hearly)
  obtain ⟨hagree, hplace⟩ := hmoved
  refine ⟨hagree, h.idle, ?_, h.todo, ?_, ?_⟩
  · change (m.withSource src).place ≤ src.log.entries.length
    rw [hplace, hlog, length_append]
    exact Nat.le_add_right_of_le h.le_length
  · intro id hid counter hcnt hpast
    change src.redis.count counter = m.transfer.dst.count counter +
      owed p.texts counter (src.log.entries.drop (m.withSource src).place)
    rw [hplace, hlog, drop_append_of_le_length h.le_length, owed_append,
      hcount id hid counter hcnt hpast, h.owing id hid counter hcnt hpast, add_assoc]
  · intro hcheck id hid counter hcnt
    exact (h.equal hcheck id hid counter hcnt).trans (hequal hcheck id hid counter hcnt).symm

/-- A step between two calls after which the stream owes the same. -/
theorem Sound.move (h : Sound p m) (hidle : m.transfer.call = .idle) {src : Shard}
    (hlog : src.log.entries = m.log.entries)
    (hcount : ∀ counter, src.redis.count counter = m.transfer.src.redis.count counter)
    (htodo : ∀ todo, job = .copying todo → todo <:+ p.keys)
    (hpast : ∀ counter, job.past counter → m.job.past counter)
    (hcheck : job = .checked → m.job = .checked)
    (hle : place ⟨{ m.transfer with src := src }, job⟩ ≤ m.log.entries.length)
    (howed : ∀ id ∈ p.campaigns, ∀ counter, Counter id counter →
      owed p.texts counter (m.log.entries.drop (place ⟨{ m.transfer with src := src }, job⟩)) =
        owed p.texts counter (m.log.entries.drop m.place)) :
    Sound p ⟨{ m.transfer with src := src }, job⟩ := by
  refine ⟨agrees_idle hidle, fun _ => hidle, hle.trans_eq (congrArg _ hlog.symm), htodo, ?_, ?_⟩
  · intro id hid counter hcnt hcopy
    change src.redis.count counter = m.transfer.dst.count counter +
      owed p.texts counter (src.log.entries.drop _)
    rw [hlog, hcount, howed id hid counter hcnt]
    exact h.owing id hid counter hcnt (hpast counter hcopy)
  · intro hjob id hid counter hcnt
    exact (h.equal (hcheck hjob) id hid counter hcnt).trans (hcount counter).symm

theorem place_resting {t : Transfer} (hidle : t.call = .idle) (h : job.early = false) :
    place ⟨t, job⟩ = t.src.start := by
  have hlate : (mk t job).job.early = false := h
  rw [place_late hlate, position, hidle]

/-- The migration goes on to another job and leaves the shards. -/
theorem Sound.next (h : Sound p m) (hidle : m.transfer.call = .idle)
    (hearly : job.early = m.job.early) (htodo : ∀ todo, job = .copying todo → todo <:+ p.keys)
    (hpast : ∀ counter, job.past counter → m.job.past counter) (hcheck : job ≠ .checked) :
    Sound p { m with job := job } := by
  have hplace : place { m with job := job } = m.place := by
    rw [place, place, hearly]
  exact h.move hidle rfl (fun _ => rfl) htodo hpast (fun heq => absurd heq hcheck)
    (hplace.trans_le h.le_length) (fun _ _ _ _ => by rw [← hplace])

/-- A debit that reaches the target and whose keys have been copied is reported. -/
theorem flagged_of_reaches (m : Migration) (hcopy : m.job ≠ .copied) {x : FilterExecution}
    (h : m.reaches x) {counter : String} (hpast : m.job.past counter) (htouch : touches x counter) :
    m.flagged = true := by
  obtain ⟨t, job⟩ := m
  cases job with
  | copying todo =>
    rcases of_decide_eq_true h with hflag | ⟨hspend, hsync⟩
    · exact hflag
    · rcases htouch with rfl | rfl
      · exact absurd hspend hpast
      · exact absurd hsync hpast
  | checked => cases h
  | copied => exact absurd rfl hcopy
  | flagSet | dualWriting | finalizing | overdue => exact h

section

variable (h : Sound p m)
include h

/-- A debit. -/
theorem Sound.debit (hcopy : m.job ≠ .copied) {x : FilterExecution} (hsafe : m.safe p (.debit x)) :
    Sound p (m.step p (.debit x)) := by
  obtain ⟨hstr, hread, hreach⟩ := of_decide_eq_true hsafe
  obtain ⟨more, hmore, hcount⟩ := execute_owed hread hstr m.transfer.src.redis
  have hreaches {id : UUID} {counter : String} (hid : id ∈ p.campaigns) (hcnt : Counter id counter) :
      x.debited m.transfer.src.redis = 0 ∨ ¬ touches x counter ∨ m.reaches x := by
    by_cases htouch : touches x counter
    · rcases hreach with hzero | hother | hreach
      · exact .inl hzero
      · exact absurd (hcnt.campaign_eq htouch ▸ hid) hother
      · exact .inr (.inr hreach)
    · exact .inr (.inl htouch)
  refine h.source hmore (fun _ => rfl) (fun _ => rfl) ?_ ?_
  · intro id hid counter hcnt hpast
    apply hcount id counter hcnt
    rcases hreaches hid hcnt with hzero | htouch | hreach
    · exact .inr (.inl hzero)
    · exact .inr (.inr htouch)
    · by_cases htouch : touches x counter
      · exact .inl (m.flagged_of_reaches hcopy hreach hpast htouch)
      · exact .inr (.inr htouch)
  · intro hcheck id hid counter hcnt
    apply execute_count_same hcnt
    rcases hreaches hid hcnt with hzero | htouch | hreach
    · exact .inl hzero
    · exact .inr htouch
    · rw [reaches, hcheck] at hreach
      cases hreach

/-- A step on the source that leaves the stream, the cursor and the counters. -/
theorem Sound.onSource_same {redis : Redis} (hstr : redis.streams = m.transfer.src.redis.streams)
    (hcount : ∀ counter, MoneyKey counter →
      redis.count counter = m.transfer.src.redis.count counter) : Sound p (m.onSource redis) := by
  have hlog : redis.streams dualWriteStream = m.log.entries ++ [] := by
    rw [hstr, append_nil]
    rfl
  refine h.source hlog (fun _ => rfl) (fun _ => rfl) ?_ ?_
  · intro id _ counter hcnt _
    exact (hcount counter hcnt.money).trans (add_zero _).symm
  · intro _ id _ counter hcnt
    exact hcount counter hcnt.money

/-- The stream is trimmed. -/
theorem Sound.trim {upTo : ℕ} (hsafe : m.safe p (.trim upTo)) : Sound p (m.step p (.trim upTo)) := by
  rcases of_decide_eq_true hsafe with ⟨hlate, hcur⟩ | ⟨hrest, hother⟩
  · refine h.source (append_nil _).symm (fun hearly => ?_) (fun _ => Shard.trim_start hcur)
      (fun _ _ _ _ _ => (add_zero _).symm) (fun _ _ _ _ _ => rfl)
    rw [hlate] at hearly
    cases hearly
  have hidle := call_of_resting hrest
  have hplaces : m.place ≤ (m.step p (.trim upTo)).place ∧
      (m.step p (.trim upTo)).place ≤ m.log.entries.length := by
    have hle := h.le_length
    cases hearly : m.job.early with
    | true =>
      have hearly' : (m.step p (.trim upTo)).job.early = true := hearly
      rw [place_early hearly] at hle ⊢
      rw [place_early hearly']
      change m.transfer.src.gone ≤ max m.transfer.src.gone (min upTo m.log.entries.length) ∧
        max m.transfer.src.gone (min upTo m.log.entries.length) ≤ m.log.entries.length
      omega
    | false =>
      have hplace : m.place = m.transfer.src.start := place_resting hidle hearly
      have hplace' : (m.step p (.trim upTo)).place = (m.transfer.src.trim upTo).start :=
        place_resting hidle hearly
      rw [hplace] at hle ⊢
      rw [hplace']
      change max m.transfer.src.cursor m.transfer.src.gone ≤ m.log.entries.length at hle
      change max m.transfer.src.cursor m.transfer.src.gone ≤ max m.transfer.src.cursor
          (max m.transfer.src.gone (min upTo m.log.entries.length)) ∧
        max m.transfer.src.cursor (max m.transfer.src.gone (min upTo m.log.entries.length)) ≤
          m.log.entries.length
      omega
  refine h.move hidle rfl (fun _ => rfl) h.todo (fun _ => id) id hplaces.2 ?_
  intro id hid counter hcount
  rw [owed_drop p.texts m.log hplaces.1, owed_all_foreign hother hid hcount, zero_add]
  rfl

/-- The cursor expires. -/
theorem Sound.cursorExpires (hsafe : m.safe p .cursorExpires) : Sound p (m.step p .cursorExpires) := by
  have hsame (hgone : m.job.early = false → m.transfer.src.delCursor.start = m.transfer.src.start) :
      Sound p (m.step p .cursorExpires) :=
    h.source (append_nil _).symm (fun _ => rfl) hgone
      (fun _ _ _ _ _ => (add_zero _).symm) (fun _ _ _ _ _ => rfl)
  rcases of_decide_eq_true hsafe with hearly | hcur | ⟨hrest, hother⟩
  · apply hsame
    intro hlate
    rw [hearly] at hlate
    cases hlate
  · exact hsame fun _ => Shard.delCursor_start hcur
  cases hearly : m.job.early with
  | true =>
    apply hsame
    intro hlate
    rw [hearly] at hlate
    cases hlate
  | false =>
    have hidle := call_of_resting hrest
    have hplace : m.place = m.transfer.src.start := place_resting hidle hearly
    have hplace' : (m.step p .cursorExpires).place = m.transfer.src.delCursor.start :=
      place_resting hidle hearly
    rw [Shard.start_delCursor] at hplace'
    have hle : m.transfer.src.gone ≤ m.place := by
      rw [hplace]
      exact Nat.le_max_right _ _
    refine h.move hidle rfl (fun _ => rfl) h.todo (fun _ => id) id
      (hplace'.trans_le (hle.trans h.le_length)) ?_
    intro id hid counter hcount
    change owed p.texts counter (m.log.entries.drop (m.step p .cursorExpires).place) = _
    rw [hplace', owed_drop p.texts m.log hle, owed_all_foreign hother hid hcount, zero_add]

/-- The stream is deleted because too much is pending. -/
theorem Sound.disable (hjob : m.job = .overdue) (hsafe : m.safe p .disable) :
    Sound p { m.withSource m.transfer.src.disabled with job := .dualWriting } := by
  have hother := (of_decide_eq_true hsafe).resolve_left fun hne => hne hjob
  have hidle := h.idle (hjob ▸ rfl)
  have hplace : m.place = m.transfer.src.start := place_resting hidle (hjob ▸ rfl)
  have hplace' : place ⟨{ m.transfer with src := m.transfer.src.disabled }, .dualWriting⟩ =
      m.transfer.src.disabled.start :=
    place_resting hidle rfl
  refine h.move hidle rfl (fun _ => rfl) (by simp) (by simp [hjob, Job.past]) (by simp) hplace'.le ?_
  intro id hid counter hcount
  have hnone := owed_all_foreign hother hid hcount
  change owed p.texts counter (m.log.entries.drop m.transfer.src.start) = 0 at hnone
  rw [hplace, hnone, hplace']
  change owed p.texts counter (m.log.entries.drop m.log.entries.length) = 0
  rw [drop_length]
  rfl

/-- The target changes while keys are copied: its counters stay, or become those of the source when
the stream owes them nothing. -/
theorem Sound.target {todo todo' : List String} (hjob : m.job = .copying todo)
    (htodo : todo' <:+ p.keys) {dst : Redis}
    (hcount : ∀ id ∈ p.campaigns, ∀ counter, Counter id counter → counter ∉ todo' →
      counter ∉ todo ∧ dst.count counter = m.transfer.dst.count counter ∨
        dst.count counter = m.transfer.src.redis.count counter ∧
          owed p.texts counter (m.log.entries.drop m.transfer.src.gone) = 0) :
    Sound p { m.onTarget dst with job := .copying todo' } := by
  have hearly : m.job.early = true := hjob ▸ rfl
  have hidle := h.idle (Job.calling_of_early hearly)
  have hplace := place_early hearly
  have hle := h.le_length
  rw [hplace] at hle
  refine ⟨agrees_idle hidle, fun _ => hidle, hle, ?_, ?_, by simp⟩
  · intro todo'' heq
    cases heq
    exact htodo
  · intro id hid counter hcnt hpast
    change m.transfer.src.redis.count counter =
      dst.count counter + owed p.texts counter (m.log.entries.drop m.transfer.src.gone)
    rcases hcount id hid counter hcnt hpast with ⟨hold, hsame⟩ | ⟨hnew, hnone⟩
    · have howing := h.owing id hid counter hcnt (hjob ▸ hold)
      rw [hplace] at howing
      rw [hsame, howing]
    · rw [hnew, hnone, add_zero]

/-- A key is copied. -/
theorem Sound.copyKey {key : String} {todo : List String} (hjob : m.job = .copying (key :: todo))
    (hsafe : m.safe p .copyKey) :
    Sound p { m.onTarget (migrateKey m.transfer.src.redis m.transfer.dst key) with
      job := .copying todo } := by
  rw [safe, hjob] at hsafe
  obtain ⟨howed, hmiss⟩ := of_decide_eq_true hsafe
  refine h.target hjob ((suffix_cons key todo).trans (h.todo _ hjob)) ?_
  intro id hid counter hcount hpast
  by_cases heq : counter = key
  · rw [heq]
    exact .inr ⟨migrateKey_count_self _ _ hmiss, howed⟩
  · exact .inl ⟨not_mem_cons_of_ne_of_not_mem heq hpast, migrateKey_count_of_ne _ _ heq⟩

/-- A key that was found by its pattern is copied. -/
theorem Sound.copyScanned {todo : List String} (hjob : m.job = .copying todo) {pattern : String}
    (hpat : pattern ∈ p.campaigns.flatMap prefixPatterns) (rest : String) :
    Sound p (m.onTarget (migrateKey m.transfer.src.redis m.transfer.dst (pattern ++ rest))) := by
  obtain ⟨id, -, hid⟩ := mem_flatMap.mp hpat
  have hsame {counter : String} (hcount : MoneyKey counter) :
      (migrateKey m.transfer.src.redis m.transfer.dst (pattern ++ rest)).count counter =
        m.transfer.dst.count counter := by
    apply migrateKey_count_of_ne
    rintro rfl
    exact prefixPatterns_not_money hid rest hcount
  have htgt := h.target hjob (h.todo _ hjob) fun _ _ _ hcount hpast => .inl ⟨hpast, hsame hcount.money⟩
  rw [← hjob] at htgt
  exact htgt

end

/-- Where a part of a call leads. -/
theorem after_cases (h : job.calling = true) (returned : Option Returned) :
    (p.after job returned).calling = true ∨ p.after job returned = .overdue ∧ returned.isSome ∨
      p.after job returned = .checked ∧ ∃ applied lag ended,
        returned = some (.counted applied lag ended false) ∧ lag ≤ p.lagEpsilon := by
  unfold SlotPlan.after
  split
  · split
    · exact .inr (.inl ⟨rfl, rfl⟩)
    · exact .inl rfl
  · rename_i applied lag ended
    split
    · exact .inl rfl
    · exact .inr (.inr ⟨rfl, applied, lag, ended, rfl, by omega⟩)
  · exact .inl rfl
  · exact .inl h

/-- What a part of a call applies is no longer owed. -/
theorem Sound.debt (h : Sound p m) {t' : Transfer} (hplace : m.place = m.transfer.position)
    (hmoved : m.transfer.Moved p.texts t') :
    t'.position ≤ m.log.entries.length ∧ ∀ counter,
      t'.dst.count counter + owed p.texts counter (m.log.entries.drop t'.position) =
        m.transfer.dst.count counter + owed p.texts counter (m.log.entries.drop m.transfer.position) := by
  have hle := h.le_length
  rw [hplace] at hle
  rcases hmoved.moved with ⟨-, hpos, hdst⟩ | ⟨entry, -, hentry, hpos, hdst⟩
  · rw [hpos, hdst]
    exact ⟨hle, fun _ => rfl⟩
  change m.log.entries[m.transfer.position]? = some entry at hentry
  obtain ⟨hlt, hget⟩ := List.getElem?_eq_some_iff.mp hentry
  rw [hpos, hdst]
  refine ⟨hlt, fun counter => ?_⟩
  rw [Redis.execAll_count, List.drop_eq_getElem_cons hlt, hget,
    owed_cons _ _ entry (m.log.entries.drop _), add_assoc, ← List.flatMap_singleton (entryCommands _)]
  rfl

/-- A part of a call. -/
theorem Sound.call (h : Sound p m) (heps : p.lagEpsilon ≤ 0) (hjob : m.job.calling = true)
    {part : Part} (hclean : m.transfer.clean p.texts part) :
    Sound p ⟨(m.transfer.perform p.texts part).1, p.after m.job (m.transfer.perform p.texts part).2⟩ := by
  obtain ⟨hmoved, hcounts⟩ := perform_moved h.agrees hclean
  have hret := m.transfer.perform_returned p.texts part
  generalize (m.transfer.perform p.texts part).1 = t' at hmoved hcounts hret ⊢
  generalize (m.transfer.perform p.texts part).2 = returned at hcounts hret ⊢
  have hlog : t'.src.log.entries = m.log.entries := by
    rw [Shard.log, hmoved.redis]
    rfl
  have hplace : m.place = m.transfer.position := place_late (Job.early_of_calling hjob)
  have hafter : (p.after m.job returned).early = false := by
    rcases after_cases hjob returned with hcall | ⟨hnext, -⟩ | ⟨hnext, -⟩
    · exact Job.early_of_calling hcall
    · rw [hnext]
      rfl
    · rw [hnext]
      rfl
  have hplace' : place ⟨t', p.after m.job returned⟩ = t'.position := place_late hafter
  obtain ⟨hle, hdebt⟩ := h.debt hplace hmoved
  have howing : ∀ id ∈ p.campaigns, ∀ counter, Counter id counter →
      t'.src.redis.count counter =
        t'.dst.count counter + owed p.texts counter (m.log.entries.drop t'.position) := by
    intro id hid counter hcnt
    have hpast : m.job.past counter := by
      revert hjob
      cases m.job <;> simp [Job.calling, Job.past]
    rw [hmoved.redis, hdebt, h.owing id hid counter hcnt hpast, hplace]
  refine ⟨hmoved.agrees, ?_, ?_, ?_, ?_, ?_⟩
  · intro hcalls
    rcases after_cases hjob returned with hcall | ⟨-, hsome⟩ | ⟨-, _, _, _, hsome, -⟩
    · exact absurd (hcall.symm.trans hcalls) (by simp)
    · exact hret hsome
    · exact hret (hsome ▸ rfl)
  · rw [hplace', log, hlog]
    exact hle
  · intro todo hcopy
    change p.after m.job returned = .copying todo at hcopy
    rw [hcopy] at hafter
    cases hafter
  · intro id hid counter hcnt _
    rw [hplace', log, hlog]
    exact howing id hid counter hcnt
  · intro hcheck id hid counter hcnt
    rcases after_cases hjob returned with hcall | ⟨hnext, -⟩ | ⟨-, applied, lag, ended, hsome, hlag⟩
    · rw [show p.after m.job returned = .checked from hcheck] at hcall
      cases hcall
    · exact absurd (hnext.symm.trans hcheck) (by simp)
    obtain ⟨hcount, hended⟩ := hcounts applied lag ended false hsome
    have hend : m.log.entries.length ≤ t'.position := by
      rw [hended rfl, hlog] at hcount
      omega
    have hall := howing id hid counter hcnt
    rw [drop_of_length_le hend] at hall
    exact (hall.trans (add_zero _)).symm

/-- The copy starts again. -/
theorem Sound.restart (h : Sound p m) (hearly : m.job.early = true) :
    Sound p { m with job := .copying p.keys } := by
  refine h.next (h.idle (Job.calling_of_early hearly)) (by rw [hearly]; rfl) ?_ ?_ (by simp)
  · intro todo heq
    cases heq
    exact suffix_refl _
  · intro counter hpast
    cases hjob : m.job with
    | copying todo => exact fun hmem => hpast ((h.todo todo hjob).subset hmem)
    | _ => trivial

/-- The flag is set. -/
theorem Sound.setFlag (h : Sound p m) (hjob : m.job = .copying []) (value : String) :
    Sound p { m.onSource (m.transfer.src.redis.setText dualWriteFlag value) with job := .flagSet } := by
  have hearly : m.job.early = true := hjob ▸ rfl
  have hplace := place_early hearly
  have hle := h.le_length
  rw [hplace] at hle
  refine h.move (h.idle (Job.calling_of_early hearly)) rfl (fun _ => rfl) (by simp)
    (fun _ _ => hjob ▸ not_mem_nil) (by simp) hle ?_
  intro _ _ counter _
  rw [hplace]
  rfl

/-- The cursor is deleted. -/
theorem Sound.delCursor (h : Sound p m) (hjob : m.job = .flagSet) :
    Sound p { m.withSource m.transfer.src.delCursor with job := .dualWriting } := by
  have hearly : m.job.early = true := hjob ▸ rfl
  have hidle := h.idle (Job.calling_of_early hearly)
  have hplace : place ⟨{ m.transfer with src := m.transfer.src.delCursor }, .dualWriting⟩ =
      m.transfer.src.delCursor.start := place_resting hidle rfl
  rw [Shard.start_delCursor, ← place_early hearly] at hplace
  exact h.move hidle rfl (fun _ => rfl) (by simp) (fun _ _ => hjob ▸ trivial) (by simp)
    (hplace.trans_le h.le_length) fun _ _ _ _ => by rw [hplace]

/-- A step that meets the condition keeps the invariant, until the slot is marked as copied. -/
theorem Sound.step (h : Sound p m) (heps : p.lagEpsilon ≤ 0) (hcopy : m.job ≠ .copied)
    {a : MoveAction} (hsafe : m.safe p a) : (m.step p a).job = .copied ∨ Sound p (m.step p a) := by
  by_cases hmark : a = .markCopied
  · subst hmark
    simp only [Migration.step]
    split
    · exact .inl rfl
    · exact .inr h
  refine .inr ?_
  cases a with
  | debit x => exact h.debit hcopy hsafe
  | trim upTo => exact h.trim hsafe
  | cursorExpires => exact h.cursorExpires hsafe
  | flagExpires => exact h.onSource_same rfl fun _ _ => rfl
  | copyKey =>
    simp only [Migration.step]
    split
    · rename_i hjob
      exact h.copyKey hjob hsafe
    · exact h
  | copyScanned pattern rest =>
    simp only [Migration.step]
    split
    · rename_i hjob
      split
      · rename_i hpat
        exact h.copyScanned hjob hpat rest
      · exact h
    · exact h
  | restart =>
    simp only [Migration.step]
    split
    · rename_i hjob
      exact h.restart (hjob ▸ rfl)
    · rename_i hjob
      exact h.restart (hjob ▸ rfl)
    · exact h
  | setFlag value =>
    simp only [Migration.step]
    split
    · rename_i hjob
      split
      · exact h.setFlag hjob value
      · exact h.restart (hjob ▸ rfl)
    · exact h
  | delCursor =>
    simp only [Migration.step]
    split
    · rename_i hjob
      exact h.delCursor hjob
    · exact h
  | call part =>
    simp only [Migration.step]
    split
    · rename_i hjob
      exact h.call heps (hjob ▸ rfl) hsafe
    · rename_i hjob
      exact h.call heps (hjob ▸ rfl) hsafe
    · exact h
  | checkLag =>
    simp only [Migration.step]
    split
    · rename_i hjob hidle
      split
      · exact h.next hidle (by rw [hjob]; rfl) (by simp) (by simp [hjob, Job.past]) (by simp)
      · split
        · exact h
        · exact h.next hidle (by rw [hjob]; rfl) (by simp) (by simp [hjob, Job.past]) (by simp)
    · exact h
  | fence id gen =>
    simp only [Migration.step]
    split
    · refine h.onSource_same rfl fun counter hcount => ?_
      apply Redis.setNum_count_of_ne
      rintro rfl
      exact not_moneyKey_plain (by decide) hcount
    · exact h
  | disable =>
    simp only [Migration.step]
    split
    · rename_i hjob
      exact h.disable hjob hsafe
    · rename_i hjob
      exact absurd hjob hcopy
    · exact h
  | reject =>
    simp only [Migration.step]
    split
    · rename_i hjob
      exact h.next (h.idle (hjob ▸ rfl)) (by rw [hjob]; rfl) (by simp) (by simp [hjob, Job.past])
        (by simp)
    · rename_i hjob
      exact h.next (h.idle (hjob ▸ rfl)) (by rw [hjob]; rfl) (by simp) (by simp [hjob, Job.past])
        (by simp)
    · exact h
  | markCopied => exact absurd rfl hmark

/-- A migration before its first key is copied. Keys that are not copied by name, those of the sub-slots,
are behind by what the stream owes them. -/
structure Starts (p : SlotPlan) (m : Migration) : Prop where
  job : m.job = .copying p.keys
  idle : m.transfer.call = .idle
  gone_le : m.transfer.src.gone ≤ m.log.entries.length
  uncopied : ∀ id ∈ p.campaigns, ∀ counter, Counter id counter → counter ∉ p.keys →
    m.transfer.src.redis.count counter = m.transfer.dst.count counter +
      owed p.texts counter (m.log.entries.drop m.transfer.src.gone)

/-- The invariant holds at the start. -/
theorem Starts.sound (h : Starts p m) : Sound p m := by
  have hearly : m.job.early = true := h.job ▸ rfl
  refine ⟨agrees_idle h.idle, fun _ => h.idle, ?_, ?_, ?_, ?_⟩
  · rw [place_early hearly]
    exact h.gone_le
  · intro todo heq
    cases h.job.symm.trans heq
    exact suffix_refl _
  · intro id hid counter hcount hpast
    rw [h.job] at hpast
    rw [place_early hearly]
    exact h.uncopied id hid counter hcount hpast
  · intro heq
    cases h.job.symm.trans heq

end Migration

end

open Migration in
/-- In every run of a migration whose steps all meet the condition, the counters of the slot are the
same on both shards when the slot is marked as copied. -/
theorem dualWrite_loses_no_debit {p : SlotPlan} (hepsilon : p.lagEpsilon = 0) {m : Migration}
    (hstart : Starts p m) {actions : List MoveAction}
    (hsafe : Admissible (fun m a => safe p m a) (step p) m actions)
    (hchecked : (run (step p) m actions).job = .checked) :
    (step p (run (step p) m actions) .markCopied).job = .copied ∧
      CountersEqual p (step p (run (step p) m actions) .markCopied) := by
  have hinv : (run (step p) m actions).job = .copied ∨ Sound p (run (step p) m actions) := by
    have hstep (m : Migration) (a : MoveAction) (hok : safe p m a) (hinv : m.job = .copied ∨ Sound p m) :
        (step p m a).job = .copied ∨ Sound p (step p m a) := by
      by_cases hcopy : m.job = .copied
      · exact .inl (by cases a <;> simp [step, hcopy, onSource, withSource])
      · exact (hinv.resolve_left hcopy).step hepsilon.le hcopy hok
    exact hsafe.invariant hstep (.inr hstart.sound)
  have hequal := (hinv.resolve_left (by simp [hchecked])).equal hchecked
  have hstep : step p (run (step p) m actions) .markCopied =
      { run (step p) m actions with job := .copied } := by
    rw [step, hchecked]
  rw [hstep]
  exact ⟨rfl, hequal⟩

/-- A slot with the campaign of the samples. -/
def samplePlan : SlotPlan where
  texts :=
    { parseUUID := fun text => if text = uuidString sampleRow.id then some sampleRow.id else none }
  campaigns := [sampleRow.id]
  lagEpsilon := 0
  lagThreshold := 1000

/-- A click on that campaign. -/
def sampleDebit (clickID : String) : FilterExecution where
  filter := sampleFilter
  event := { sampleClick with clickID := clickID }
  row := sampleRow
  now := sampleClock
  registered := sampleClick_registered
  brandKey := sampleRow_brandKey

/-- The campaign has a budget of one hundred on the source shard, and none on the target. -/
def sampleMigration : Migration where
  transfer := ⟨⟨Redis.empty.setNum (budgetCampaignKey sampleRow.id) 100, 0, none⟩, Redis.empty, .idle⟩
  job := .copying samplePlan.keys

/-- The migration can start. -/
theorem sampleMigration_starts : sampleMigration.Starts samplePlan := by
  refine ⟨rfl, rfl, Nat.le_refl _, ?_⟩
  intro id hid counter _ hkeys
  have hne : counter ≠ budgetCampaignKey sampleRow.id := by
    rintro rfl
    exact hkeys mem_cons_self
  exact Redis.setNum_count_of_ne _ _ hne

/-- All keys of the campaign are copied. -/
def copyAll : List MoveAction := List.replicate 10 .copyKey

/-- Dual writing starts. -/
def enableDualWrite : List MoveAction := [.setFlag "2:5:1", .delCursor]

/-- One entry is caught up. -/
def catchUpOne : List MoveAction :=
  [.call (.read true), .call (.applyNext ⟨true, .done⟩), .call (.advance .received),
    .call (.measure true)]

/-- The slot is found to have caught up. -/
def finalize : List MoveAction :=
  [.checkLag, .call (.read true), .call (.advance .received), .call (.measure true)]

/-- Debits before the copy and during the dual write reach the target. -/
theorem dualWrite_loses_no_debit_two :
    let actions := .debit (sampleDebit "a") :: copyAll ++ enableDualWrite ++
      .debit (sampleDebit "b") :: catchUpOne ++ finalize
    (run (Migration.step samplePlan) sampleMigration actions).job = .checked ∧
      ((run (Migration.step samplePlan) sampleMigration actions).step samplePlan .markCopied).CountersEqual
        samplePlan := by
  intro actions
  have hsafe : Admissible (fun m a => safe samplePlan m a) (step samplePlan)
      sampleMigration actions := by
    decide +kernel
  have hcheck : (run (step samplePlan) sampleMigration actions).job = .checked := by
    decide +kernel
  exact ⟨hcheck, (dualWrite_loses_no_debit rfl sampleMigration_starts hsafe hcheck).2⟩

/-- The slot of the samples is found to have caught up, and its counters differ when it is marked. -/
def LosesDebit (actions : List MoveAction) : Prop :=
  (run (step samplePlan) sampleMigration actions).job = .checked ∧
    ¬ ((run (step samplePlan) sampleMigration actions).step samplePlan
      .markCopied).CountersEqual samplePlan

/-- The budgets differ. -/
theorem losesDebit_of_budget {actions : List MoveAction}
    (hcheck : (run (step samplePlan) sampleMigration actions).job = .checked)
    (hbudget : ((run (step samplePlan) sampleMigration actions).step samplePlan
        .markCopied).transfer.dst.count (budgetCampaignKey sampleRow.id) ≠
      ((run (step samplePlan) sampleMigration actions).step samplePlan
        .markCopied).transfer.src.redis.count (budgetCampaignKey sampleRow.id)) : LosesDebit actions := by
  refine ⟨hcheck, fun hequal => hbudget ?_⟩
  exact hequal sampleRow.id mem_cons_self _ (.inl SpendKey.budget)

/-- A debit between the copy and the flag does not reach the target, and neither does one after the
last look at the stream. -/
theorem dualWrite_loses_debits :
    LosesDebit (copyAll ++ .debit (sampleDebit "a") :: enableDualWrite ++ finalize) ∧
      LosesDebit (copyAll ++ enableDualWrite ++ finalize ++ [.debit (sampleDebit "a")]) :=
  ⟨losesDebit_of_budget (by decide +kernel) (by decide +kernel),
    losesDebit_of_budget (by decide +kernel) (by decide +kernel)⟩

end Espx.SlotMigration
