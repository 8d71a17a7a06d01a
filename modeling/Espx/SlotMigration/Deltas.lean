import Mathlib.Data.Nat.Digits.Defs
import Espx.Foundation.Log
import Espx.Foundation.Run
import Espx.Settlement.System

/-!
# Debits that follow a slot to another shard

While a slot is moved, the scripts report their debits to a stream on the source shard.
`CatchUpSlotMigrationDeltas` reads it after a cursor, applies the entries to the target one by one, and
moves the cursor once, after the last one. A call is a sequence of steps, one for each call of Redis,
between which debits may come.
-/

namespace Espx.SlotMigration

open Espx.Foundation Espx.Domain Espx.Ingestion Espx.Settlement

/-- An entry of the delta stream. -/
abbrev Entry := List (String × String)

/-- The source shard: its keys, how many entries of the delta stream are gone, and what
`SlotMigrationDeltaCursorKey` holds. An entry's identifier is its place among all that were ever appended.
-/
structure Shard where
  redis : Redis
  gone : ℕ
  cursorKey : Option ℕ

namespace Shard

variable (s : Shard)

/-- The delta stream. -/
def log : Log Entry := ⟨s.redis.streams dualWriteStream, s.gone⟩

/-- The cursor; where there is none, the stream is read from its start. -/
def cursor : ℕ := s.cursorKey.getD 0

/-- The place of the first entry after the cursor. -/
def start : ℕ := s.log.start s.cursor

/-- The entries after the cursor. -/
def pending : List Entry := s.log.range s.cursor

/-- `SET` of the cursor to the identifier of an entry. -/
def setCursor (id : ℕ) : Shard := { s with cursorKey := some id }

/-- The cursor is deleted, or its time to live ends. -/
def delCursor : Shard := { s with cursorKey := none }

/-- A debit is reported. -/
def append (entry : Entry) : Shard := { s with redis := s.redis.xadd dualWriteStream entry }

/-- The stream is trimmed up to an identifier. -/
def trim (upTo : ℕ) : Shard := { s with gone := max s.gone (min upTo s.log.entries.length) }

variable {s}

theorem append_entries (entry : Entry) : (s.append entry).log.entries = s.log.entries ++ [entry] :=
  s.redis.xadd_streams_self dualWriteStream entry

theorem setCursor_start {id : ℕ} (h : s.start ≤ id) : (s.setCursor id).start = id := by
  change max s.cursor s.gone ≤ id at h
  change max id s.gone = id
  omega

theorem start_delCursor : s.delCursor.start = s.gone := Nat.zero_max _

theorem delCursor_start (h : s.cursor ≤ s.gone) : s.delCursor.start = s.start := by
  change max 0 s.gone = max s.cursor s.gone
  omega

theorem trim_start {upTo : ℕ} (h : upTo ≤ s.cursor) : (s.trim upTo).start = s.start := by
  change max s.cursor (max s.gone (min upTo s.log.entries.length)) = max s.cursor s.gone
  omega

end Shard

section

/-- `SlotMigrationDelta`. -/
structure Delta where
  campaignID : UUID
  amount : ℤ
  spendKey : String

/-- The digits that `strconv.ParseInt` reads behind a sign. -/
def parseDigits (sign : ℤ) (digits : List Char) : Option ℤ :=
  let n := sign * Nat.ofDigitChars 10 digits 0
  if digits ≠ [] ∧ digits.all Char.isDigit ∧ -2 ^ 63 ≤ n ∧ n < 2 ^ 63 then some n else none

/-- `strconv.ParseInt` in base ten with 64 bits. -/
def parseInt (text : String) : Option ℤ :=
  match text.toList with
  | '-' :: digits => parseDigits (-1) digits
  | '+' :: digits => parseDigits 1 digits
  | digits => parseDigits 1 digits

/-- The digits of a number are read as the number. -/
theorem parseDigits_toDigits {sign : ℤ} {m : ℕ} (h : -2 ^ 63 ≤ sign * m ∧ sign * m < 2 ^ 63) :
    parseDigits sign (Nat.toDigits 10 m) = some (sign * m) := by
  have hdigits : (Nat.toDigits 10 m).all Char.isDigit = true :=
    List.all_eq_true.mpr fun c hc => Nat.isDigit_of_mem_toDigits (by decide) (by decide) hc
  unfold parseDigits
  rw [Nat.ofDigitChars_ten_toDigits]
  exact if_pos ⟨Nat.toDigits_ne_nil, hdigits, h⟩

/-- `ParseInt` reads what is printed of a number of 64 bits. -/
theorem parseInt_repr {n : ℤ} (h : -2 ^ 63 ≤ n ∧ n < 2 ^ 63) : parseInt n.repr = some n := by
  unfold parseInt
  cases n with
  | ofNat m =>
    have htext : (Int.ofNat m).repr.toList = Nat.toDigits 10 m := by
      simp [Int.repr, Nat.repr_eq_ofList_toDigits]
    have hdigit : ∀ c ∈ Nat.toDigits 10 m, c.isDigit = true :=
      fun c hc => Nat.isDigit_of_mem_toDigits (by decide) (by decide) hc
    have hread := @parseDigits_toDigits 1 m (by simpa using h)
    rw [one_mul] at hread
    rw [htext]
    split
    · rename_i heq
      simp [heq] at hdigit
    · rename_i heq
      simp [heq] at hdigit
    · exact hread
  | negSucc m =>
    have htext : (Int.negSucc m).repr.toList = '-' :: Nat.toDigits 10 (m + 1) := by
      simp [Int.repr, Nat.repr_eq_ofList_toDigits]
    have hneg : Int.negSucc m = -1 * (m + 1 : ℕ) := by
      rw [neg_one_mul]
      rfl
    rw [htext]
    exact (parseDigits_toDigits (hneg ▸ h)).trans (congrArg some hneg.symm)

/-- `uuid.Parse`. -/
structure Texts where
  parseUUID : String → Option UUID

variable (texts : Texts)

/-- `parseSlotMigrationDelta`, without the text of its error. -/
def parseSlotMigrationDelta (values : Entry) : Option Delta := do
  let campStr ← values.lookup "campaign_id"
  let id ← texts.parseUUID campStr
  let amountStr ← values.lookup "amount"
  let amount ← parseInt amountStr
  match values.lookup "spend_key" with
  | none => return ⟨id, amount, budgetCampaignKey id⟩
  | some spendStr => return ⟨id, amount, spendStr⟩

/-- The commands of the pipeline of `applySlotMigrationDelta`. -/
def Delta.commands (delta : Delta) : List Command :=
  [.incrBy delta.spendKey (-delta.amount), .incrBy (campaignSyncKey delta.campaignID) delta.amount]

/-- What the calls of `applySlotMigrationDelta` meet. -/
structure ApplyEnv where
  existsAnswers : Bool
  pipe : PipeOutcome

/-- `applySlotMigrationDelta`: whether it succeeds, and the target after it. -/
def applySlotMigrationDelta (dst : Redis) (delta : Delta) (env : ApplyEnv) : Bool × Redis :=
  if delta.amount = 0 then (true, dst)
  else if ¬ env.existsAnswers then (false, dst)
  else if dst.num delta.spendKey = none then (false, dst)
  else
    match env.pipe with
    | .done => (true, dst.execAll delta.commands)
    | .failed n => (false, dst.execAll (delta.commands.take n))

variable {texts} {dst dst' : Redis} {delta : Delta} {env : ApplyEnv}

/-- The commands that a delta stands for. -/
def Delta.effect (delta : Delta) : List Command := if delta.amount = 0 then [] else delta.commands

/-- A delta that was applied has had its effect. -/
theorem apply_true (h : applySlotMigrationDelta dst delta env = (true, dst')) :
    dst' = dst.execAll delta.effect := by
  unfold applySlotMigrationDelta at h
  unfold Delta.effect
  split at h
  · rename_i hzero
    rw [if_pos hzero]
    exact (Prod.mk.inj h).2.symm
  rename_i hzero
  rw [if_neg hzero]
  split at h
  · cases h
  split at h
  · cases h
  split at h
  · exact (Prod.mk.inj h).2.symm
  · cases h

/-- A delta that failed has had no effect, where its pipeline did not execute anything. -/
theorem apply_false (h : applySlotMigrationDelta dst delta env = (false, dst'))
    (hpipe : env.pipe = .done ∨ env.pipe = .failed 0) : dst' = dst := by
  unfold applySlotMigrationDelta at h
  split at h
  · cases h
  split at h
  · exact (Prod.mk.inj h).2.symm
  split at h
  · exact (Prod.mk.inj h).2.symm
  split at h
  · cases h
  rename_i n hfail
  rw [hfail] at hpipe
  obtain rfl : n = 0 := by simpa using hpipe
  exact (Prod.mk.inj h).2.symm

/-- A delta is applied where its calls succeed. -/
theorem apply_succeeds (h : delta.amount = 0 ∨ env.existsAnswers = true ∧
    (dst.num delta.spendKey).isSome ∧ env.pipe = .done) :
    (applySlotMigrationDelta dst delta env).1 = true := by
  unfold applySlotMigrationDelta
  split
  · rfl
  · rename_i hzero
    obtain ⟨hexists, hkey, hpipe⟩ := h.resolve_left hzero
    rw [if_neg (by simp [hexists]), if_neg (Option.isSome_iff_ne_none.mp hkey), hpipe]

end

/-- How far a call of `CatchUpSlotMigrationDeltas` is: with the place of the next entry, the number of
entries it has applied and those still to apply, or at the last count. -/
inductive CatchUp
  | idle
  | applying (next applied : ℕ) (entries : List Entry)
  | measuring (applied : ℕ)

/-- What a call returns: nothing where it could not read the stream, or `applied` and `lag`, with an error
or without. Kept with it is where the stream ended then. -/
inductive Returned
  | unread
  | counted (applied lag ended : ℕ) (failed : Bool)
  deriving DecidableEq, Repr

/-- The two shards and the call that is under way between them. -/
structure Transfer where
  src : Shard
  dst : Redis
  call : CatchUp

namespace Transfer

variable (texts : Texts) (t : Transfer)

/-- A call starts: the cursor and the stream are read. -/
def read (answers : Bool) : Transfer × Option Returned :=
  match t.call with
  | .idle =>
    if answers then ({ t with call := .applying t.src.start 0 t.src.pending }, none)
    else (t, some .unread)
  | _ => (t, none)

/-- The call ends with an error at an entry. -/
def stopAt (next applied : ℕ) (entries : List Entry) : Transfer × Option Returned :=
  ({ t with call := .idle }, some (.counted applied entries.length (next + entries.length) true))

/-- The next entry is applied, or the call ends with an error. -/
def applyNext (env : ApplyEnv) : Transfer × Option Returned :=
  match t.call with
  | .applying next applied (entry :: rest) =>
    match parseSlotMigrationDelta texts entry with
    | none => t.stopAt next applied (entry :: rest)
    | some delta =>
      match applySlotMigrationDelta t.dst delta env with
      | (true, dst) => ({ t with dst := dst, call := .applying (next + 1) (applied + 1) rest }, none)
      | (false, dst) => { t with dst := dst }.stopAt next applied (entry :: rest)
  | _ => (t, none)

/-- After the last entry the cursor is moved, where any was applied. -/
def advance (reply : Reply) : Transfer × Option Returned :=
  match t.call with
  | .applying next applied [] =>
    if applied = 0 then ({ t with call := .measuring 0 }, none)
    else
      match reply with
      | .received => ({ t with src := t.src.setCursor next, call := .measuring applied }, none)
      | .failed => t.stopAt next applied []
      | .lost => { t with src := t.src.setCursor next }.stopAt next applied []
  | _ => (t, none)

/-- `SlotMigrationReplicationLag` at the end of a call. -/
def measure (answers : Bool) : Transfer × Option Returned :=
  match t.call with
  | .measuring applied =>
    if answers then
      ({ t with call := .idle },
        some (.counted applied t.src.pending.length t.src.log.entries.length false))
    else t.stopAt t.src.start applied []
  | _ => (t, none)

end Transfer

/-- The parts of a call. -/
inductive Part
  | read (answers : Bool)
  | applyNext (env : ApplyEnv)
  | advance (reply : Reply)
  | measure (answers : Bool)

/-- A part of a call is performed. -/
def Transfer.perform (texts : Texts) (t : Transfer) : Part → Transfer × Option Returned
  | .read answers => t.read answers
  | .applyNext env => t.applyNext texts env
  | .advance reply => t.advance reply
  | .measure answers => t.measure answers

section

variable (texts : Texts)

/-- The commands of an entry. -/
def entryCommands (entry : Entry) : List Command :=
  match parseSlotMigrationDelta texts entry with
  | none => []
  | some delta => delta.effect

namespace Transfer

variable (t : Transfer)

/-- An entry gets through: it can be read, and its calls of the target succeed. -/
def getsThrough (entry : Entry) (env : ApplyEnv) : Bool :=
  match parseSlotMigrationDelta texts entry with
  | none => false
  | some delta => delta.amount = 0 ∨
      env.existsAnswers ∧ (t.dst.num delta.spendKey).isSome ∧ env.pipe = .done

/-- The call fails, if it does, before it has had any effect: an entry gets through, or it is the first
one and its pipeline does not execute anything; and the cursor is moved. -/
def clean : Part → Bool
  | .applyNext env =>
    match t.call with
    | .applying _ applied (entry :: _) =>
      t.getsThrough texts entry env ∨ applied = 0 ∧ (env.pipe = .done ∨ env.pipe = .failed 0)
    | _ => true
  | .advance reply =>
    match t.call with
    | .applying _ applied [] => applied = 0 ∨ reply ≠ .failed
    | _ => true
  | _ => true

/-- The place up to which entries have been applied. -/
def position : ℕ :=
  match t.call with
  | .applying next _ _ => next
  | _ => t.src.start

/-- What a call holds agrees with the stream. -/
def Agrees : Prop :=
  match t.call with
  | .applying next applied entries =>
    t.src.start ≤ next ∧ entries <+: t.src.log.entries.drop next ∧ (applied = 0 → next = t.src.start)
  | _ => True

/-- The place of the entry that a part of a call has applied. -/
def appliedBy (t' : Transfer) : Option ℕ :=
  match t.call, t'.call with
  | .applying next _ _, .applying next' _ _ => if next < next' then some next else none
  | _, _ => none

/-- What a clean part of a call does: it applies the next entry, or only the call itself and the cursor
change. The source keeps its keys and its stream. -/
structure Moved (t' : Transfer) : Prop where
  redis : t'.src.redis = t.src.redis
  gone : t'.src.gone = t.src.gone
  agrees : t'.Agrees
  moved : t.appliedBy t' = none ∧ t'.position = t.position ∧ t'.dst = t.dst ∨
    ∃ entry, t.appliedBy t' = some t.position ∧ t.src.log.entries[t.position]? = some entry ∧
      t'.position = t.position + 1 ∧ t'.dst = t.dst.execAll (entryCommands texts entry)

/-- The lag that a part returns counts from the place up to which entries have been applied. -/
def CountsFrom (t' : Transfer) (returned : Option Returned) : Prop :=
  ∀ applied lag ended failed, returned = some (.counted applied lag ended failed) →
    lag = ended - t'.position ∧ (failed = false → ended = t'.src.log.entries.length)

/-- A clean part of a call, with what it returns. -/
def MovedTo (result : Transfer × Option Returned) : Prop :=
  t.Moved texts result.1 ∧ CountsFrom result.1 result.2

variable {texts} {t}

/-- A part after which no entries are being applied has applied none. -/
theorem appliedBy_eq_none {t' : Transfer}
    (h : ∀ next applied entries, t'.call = .applying next applied entries →
      t.call = .idle ∨ t'.call = t.call) : t.appliedBy t' = none := by
  unfold appliedBy
  split
  · rename_i next applied entries next' applied' entries' hcall hcall'
    rcases h _ _ _ hcall' with hidle | heq
    · rw [hcall] at hidle
      cases hidle
    · cases hcall'.symm.trans (heq.trans hcall)
      exact if_neg (Nat.lt_irrefl _)
  · rfl

theorem Moved.refl (h : t.Agrees) : t.Moved texts t :=
  ⟨rfl, rfl, h, .inl ⟨appliedBy_eq_none fun _ _ _ _ => .inr rfl, rfl, rfl⟩⟩

theorem countsFrom_none : CountsFrom t none := by simp [CountsFrom]

/-- A call that stops at the place up to which it has applied entries counts from there. -/
theorem countsFrom_stopAt {next applied : ℕ} {entries : List Entry} (h : next = t.src.start) :
    CountsFrom (t.stopAt next applied entries).1 (t.stopAt next applied entries).2 := by
  intro applied' lag ended failed hret
  obtain ⟨-, rfl, rfl, rfl⟩ := Returned.counted.inj (Option.some.inj hret)
  refine ⟨?_, by simp⟩
  change _ = next + entries.length - t.src.start
  omega

section

variable (hagree : t.Agrees)
include hagree

/-- Reading the stream. -/
theorem read_moved (answers : Bool) : t.MovedTo texts (t.read answers) := by
  unfold read
  split
  · rename_i hidle
    split
    · refine ⟨⟨rfl, rfl, ⟨Nat.le_refl _, List.prefix_refl _, fun _ => rfl⟩, .inl ⟨?_, ?_, rfl⟩⟩,
        countsFrom_none⟩
      · exact appliedBy_eq_none fun _ _ _ _ => .inl hidle
      · rw [position, position, hidle]
    · exact ⟨.refl hagree, by simp [CountsFrom]⟩
  · exact ⟨.refl hagree, countsFrom_none⟩

/-- Applying the next entry. -/
theorem applyNext_moved {env : ApplyEnv} (hclean : t.clean texts (.applyNext env)) :
    t.MovedTo texts (t.applyNext texts env) := by
  unfold applyNext
  split
  · rename_i next applied entry rest hcall
    have hpos : t.position = next := by rw [position, hcall]
    rw [Agrees, hcall] at hagree
    rw [clean, hcall] at hclean
    obtain ⟨hstart, hents, hfirst⟩ := hagree
    have hstop (dst : Redis) (hdst : dst = t.dst) (hzero : applied = 0) :
        t.MovedTo texts ({ t with dst := dst }.stopAt next applied (entry :: rest)) := by
      refine ⟨⟨rfl, rfl, trivial, .inl ⟨appliedBy_eq_none (by simp [stopAt]), ?_, hdst⟩⟩,
        countsFrom_stopAt (hfirst hzero)⟩
      rw [hpos, hfirst hzero]
      rfl
    split
    · rename_i hparse
      rcases of_decide_eq_true hclean with hthru | ⟨hzero, -⟩
      · rw [getsThrough, hparse] at hthru
        cases hthru
      · exact hstop t.dst rfl hzero
    rename_i delta hparse
    split
    · rename_i dst happly
      obtain ⟨tail, htail⟩ := hents
      have hget : t.src.log.entries[next]? = some entry := by
        have hhead := congrArg (·[0]?) htail
        simpa using hhead.symm
      refine ⟨⟨rfl, rfl, ⟨Nat.le_succ_of_le hstart, ⟨tail, ?_⟩, by simp⟩, .inr ⟨entry, ?_⟩⟩,
        countsFrom_none⟩
      · rw [← List.drop_drop, ← htail]
        rfl
      · refine ⟨?_, by rw [hpos, hget], by rw [hpos]; rfl, ?_⟩
        · rw [appliedBy, hcall, hpos]
          exact if_pos (Nat.lt_succ_self _)
        · rw [entryCommands, hparse]
          exact apply_true happly
    · rename_i dst happly
      rcases of_decide_eq_true hclean with hthru | ⟨hzero, hpipe⟩
      · rw [getsThrough, hparse] at hthru
        have hdone := apply_succeeds (of_decide_eq_true hthru)
        rw [happly] at hdone
        cases hdone
      · exact hstop dst (apply_false happly hpipe) hzero
  · exact ⟨.refl hagree, countsFrom_none⟩

/-- Moving the cursor. -/
theorem advance_moved {reply : Reply} (hclean : t.clean texts (.advance reply)) :
    t.MovedTo texts (t.advance reply) := by
  unfold advance
  split
  · rename_i next applied hcall
    have hpos : t.position = next := by rw [position, hcall]
    rw [Agrees, hcall] at hagree
    rw [clean, hcall] at hclean
    obtain ⟨hstart, -, hfirst⟩ := hagree
    have hset := Shard.setCursor_start hstart
    split
    · rename_i hzero
      refine ⟨⟨rfl, rfl, trivial, .inl ⟨appliedBy_eq_none (by simp), ?_, rfl⟩⟩, countsFrom_none⟩
      rw [hpos, hfirst hzero]
      rfl
    rename_i happ
    split
    · exact ⟨⟨rfl, rfl, trivial, .inl ⟨appliedBy_eq_none (by simp), hset.trans hpos.symm,
        rfl⟩⟩, countsFrom_none⟩
    · exact absurd rfl ((of_decide_eq_true hclean).resolve_left happ)
    · exact ⟨⟨rfl, rfl, trivial, .inl ⟨appliedBy_eq_none (by simp [stopAt]),
        hset.trans hpos.symm, rfl⟩⟩, countsFrom_stopAt hset.symm⟩
  · exact ⟨.refl hagree, countsFrom_none⟩

/-- Counting what is pending. -/
theorem measure_moved (answers : Bool) : t.MovedTo texts (t.measure answers) := by
  unfold measure
  split
  · rename_i applied hcall
    have hpos : t.position = t.src.start := by rw [position, hcall]
    split
    · refine ⟨⟨rfl, rfl, trivial, .inl ⟨appliedBy_eq_none (by simp), hpos.symm, rfl⟩⟩, ?_⟩
      intro applied' lag ended failed hret
      obtain ⟨-, rfl, rfl, rfl⟩ := Returned.counted.inj (Option.some.inj hret)
      exact ⟨Log.length_range _, fun _ => rfl⟩
    · exact ⟨⟨rfl, rfl, trivial, .inl ⟨appliedBy_eq_none (by simp [stopAt]), hpos.symm, rfl⟩⟩,
        countsFrom_stopAt rfl⟩
  · exact ⟨.refl hagree, countsFrom_none⟩

/-- A step on the source that only appends to the stream leaves the call as it is. -/
theorem agrees_source (hle : t.position ≤ t.src.log.entries.length) {src : Shard}
    {more : List Entry} (hlog : src.log.entries = t.src.log.entries ++ more)
    (hstart : src.start = t.src.start) :
    Agrees { t with src := src } ∧ position { t with src := src } = t.position := by
  obtain ⟨old, dst, call⟩ := t
  cases call with
  | applying next applied entries =>
    obtain ⟨hnext, hents, hfirst⟩ := hagree
    refine ⟨⟨hstart.trans_le hnext, ?_, fun hzero => (hfirst hzero).trans hstart.symm⟩, rfl⟩
    change next ≤ old.log.entries.length at hle
    rw [hlog, List.drop_append_of_le_length hle]
    exact hents.trans (List.prefix_append _ _)
  | idle | measuring applied => exact ⟨trivial, hstart⟩

/-- A clean part of a call. -/
theorem perform_moved {part : Part} (hclean : t.clean texts part) :
    t.MovedTo texts (t.perform texts part) := by
  cases part with
  | read answers => exact read_moved hagree answers
  | applyNext env => exact applyNext_moved hagree hclean
  | advance reply => exact advance_moved hagree hclean
  | measure answers => exact measure_moved hagree answers

end

/-- No call is under way. -/
def resting (t : Transfer) : Bool :=
  match t.call with
  | .idle => true
  | _ => false

theorem agrees_idle {t : Transfer} (h : t.call = .idle) : t.Agrees := by
  rw [Agrees, h]
  trivial

theorem call_of_resting {t : Transfer} (h : t.resting = true) : t.call = .idle := by
  unfold resting at h
  split at h
  · assumption
  · cases h

/-- A call that returns is over. -/
theorem perform_returned (t : Transfer) (texts : Texts) (part : Part)
    (h : (t.perform texts part).2.isSome) : (t.perform texts part).1.call = .idle := by
  cases part with
  | read answers =>
    revert h
    simp only [perform, read]
    split
    · split <;> simp_all
    · simp
  | applyNext env =>
    revert h
    simp only [perform, applyNext]
    split
    · split
      · simp [stopAt]
      · split <;> simp [stopAt]
    · simp
  | advance reply =>
    revert h
    simp only [perform, advance]
    split
    · split
      · simp
      · split <;> simp [stopAt]
    · simp
  | measure answers =>
    revert h
    simp only [perform, measure]
    split
    · split <;> simp [stopAt]
    · simp

end Transfer

end

end Espx.SlotMigration
