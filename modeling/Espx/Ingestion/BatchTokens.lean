import Mathlib.Data.List.Nodup
import Espx.Ingestion.ClickHouseStore

/-!
# The deduplication tokens of stream batches

`flushBatch` and `splitStoreBatch` name a batch by its first and last stream id and its length. Such a
token tells batches apart, but `ValidCHHexToken` allows neither its dash nor its underscore: the store
refuses every one.
-/

namespace Espx.Ingestion

open List

/-- A decimal number as a text. -/
def Decimal (text : String) : Prop := text ≠ "" ∧ ∀ c ∈ text.toList, c.isDigit = true

/-- The text of a Redis stream id, a decimal, a dash and a decimal. -/
def IsStreamID (id : String) : Prop :=
  ∃ ms seq, Decimal ms ∧ Decimal seq ∧ id = ms ++ "-" ++ seq

/-- The token that `flushBatch` and `splitStoreBatch` put into the context of `StoreBatch`. -/
def batchToken : List String → Option String
  | [] => none
  | first :: rest =>
    some (first ++ "_" ++ (first :: rest).getLast (List.cons_ne_nil first rest) ++ "_" ++
      Nat.repr (first :: rest).length)

/-- The character after the first part of a text without it is found again. -/
theorem append_cons_inj_of_notMem_left {a b s t : List Char} {c : Char} (ha : c ∉ a) (hb : c ∉ b)
    (h : a ++ c :: s = b ++ c :: t) : a = b ∧ s = t := by
  have htake {a s : List Char} (ha : c ∉ a) : (a ++ c :: s).takeWhile (· ≠ c) = a := by
    have hne : ∀ x ∈ a, decide (x ≠ c) = true := fun x hx => decide_eq_true fun heq => ha (heq ▸ hx)
    rw [takeWhile_append_of_pos hne]
    simp
  have hab : a = b := by
    rw [← htake ha, h, htake hb]
  subst hab
  exact ⟨rfl, (List.cons.inj (append_cancel_left h)).2⟩

/-- A contiguous part of a list without repetition is given by its first and its last entry. -/
theorem infix_ext_of_ends {α : Type*} {ids a b : List α} (hnodup : ids.Nodup)
    (ha : a <:+: ids) (hb : b <:+: ids) (hane : a ≠ []) (hbne : b ≠ [])
    (hhead : a.head hane = b.head hbne) (hlast : a.getLast hane = b.getLast hbne) : a = b := by
  obtain ⟨s, t, hs⟩ := ha
  obtain ⟨u, v, hu⟩ := hb
  rw [append_assoc] at hs hu
  have hfirst : (a ++ t).head (by simp [hane]) = (b ++ v).head (by simp [hbne]) := by
    rw [head_append_of_ne_nil hane, head_append_of_ne_nil hbne, hhead]
  have htails : a ++ t = b ++ v := by
    rcases suffix_or_suffix_of_suffix ⟨s, hs⟩ ⟨u, hu⟩ with h | h
    · exact List.Nodup.eq_of_head_mem_of_suffix h (hfirst ▸ head_mem _) (hu ▸ hnodup).of_append_right
    · exact (List.Nodup.eq_of_head_mem_of_suffix h (hfirst.symm ▸ head_mem _)
        (hs ▸ hnodup).of_append_right).symm
  have hleft := (hs ▸ hnodup).of_append_right.of_append_left
  have hright := (hu ▸ hnodup).of_append_right.of_append_left
  rcases prefix_or_prefix_of_prefix ⟨t, rfl⟩ ⟨v, htails.symm⟩ with h | h
  · exact List.Nodup.eq_of_getLast_mem_of_prefix h (hlast ▸ getLast_mem hane) hright
  · exact (List.Nodup.eq_of_getLast_mem_of_prefix h (hlast.symm ▸ getLast_mem hbne) hleft).symm

/-- A stream id has digits and a dash. -/
theorem IsStreamID.mem {id : String} (hid : IsStreamID id) :
    '-' ∈ id.toList ∧ ∀ c ∈ id.toList, c.isDigit = true ∨ c = '-' := by
  obtain ⟨ms, seq, hms, hseq, rfl⟩ := hid
  constructor
  · simp
  · intro c hc
    simp only [String.toList_append, mem_append] at hc
    rcases hc with (hc | hc) | hc
    · exact .inl (hms.2 c hc)
    · exact .inr (by simpa using hc)
    · exact .inl (hseq.2 c hc)

theorem IsStreamID.underscore_notMem {id : String} (hid : IsStreamID id) : '_' ∉ id.toList := by
  intro hc
  rcases hid.mem.2 '_' hc with h | h
  · exact absurd h (by decide)
  · exact absurd h (by decide)

theorem batchToken_eq {ids : List String} (hne : ids ≠ []) :
    batchToken ids = some (ids.head hne ++ "_" ++ ids.getLast hne ++ "_" ++ Nat.repr ids.length) := by
  cases ids with
  | nil => exact absurd rfl hne
  | cons first rest => rfl

theorem toList_token (first last count : String) :
    (first ++ "_" ++ last ++ "_" ++ count).toList =
      first.toList ++ '_' :: (last.toList ++ '_' :: count.toList) := by
  simp

/-- Batches of stream ids with one token have the same ends. -/
theorem batchToken_ends {a b : List String} (ha : ∀ id ∈ a, IsStreamID id)
    (hb : ∀ id ∈ b, IsStreamID id) (hane : a ≠ []) (hbne : b ≠ []) (h : batchToken a = batchToken b) :
    a.head hane = b.head hbne ∧ a.getLast hane = b.getLast hbne := by
  rw [batchToken_eq hane, batchToken_eq hbne, Option.some.injEq] at h
  have hchars := congrArg String.toList h
  rw [toList_token, toList_token] at hchars
  obtain ⟨hhead, hrest⟩ := append_cons_inj_of_notMem_left
    (ha _ (head_mem hane)).underscore_notMem (hb _ (head_mem hbne)).underscore_notMem hchars
  obtain ⟨hlast, -⟩ := append_cons_inj_of_notMem_left
    (ha _ (getLast_mem hane)).underscore_notMem (hb _ (getLast_mem hbne)).underscore_notMem
    hrest
  exact ⟨String.toList_inj.mp hhead, String.toList_inj.mp hlast⟩

/-- Two contiguous parts of a list of distinct stream ids with one token are the same part. -/
theorem batchToken_inj_of_parts {ids a b : List String} (hids : ∀ id ∈ ids, IsStreamID id)
    (hnodup : ids.Nodup) (ha : a <:+: ids) (hb : b <:+: ids) (hane : a ≠ []) (hbne : b ≠ [])
    (h : batchToken a = batchToken b) : a = b := by
  obtain ⟨hhead, hlast⟩ := batchToken_ends (fun id hid => hids id (ha.subset hid))
    (fun id hid => hids id (hb.subset hid)) hane hbne h
  exact infix_ext_of_ends hnodup ha hb hane hbne hhead hlast

section

variable (unicode : UnicodeClasses) (sha256 : Digest) {token : String} {events : List StoredEvent}

theorem validCHHexToken_eq_false (hdash : '-' ∈ token.toList) : validCHHexToken token = false := by
  unfold validCHHexToken
  split
  · rfl
  rw [Bool.eq_false_iff]
  intro hall
  have := all_eq_true.mp hall '-' hdash
  exact absurd this (by decide)

/-- The token of a nonempty batch is a nonempty text that the validator refuses. -/
theorem batchToken_refused {ids : List String} (hids : ∀ id ∈ ids, IsStreamID id) (hne : ids ≠ []) :
    ∃ token, batchToken ids = some token ∧ token ≠ "" ∧ validCHHexToken token = false := by
  refine ⟨_, batchToken_eq hne, ?_, ?_⟩
  · intro hempty
    have := congrArg String.toList hempty
    exact absurd this (by simp)
  · apply validCHHexToken_eq_false
    rw [toList_token]
    exact mem_append_left _ (hids _ (head_mem hne)).mem.1

theorem getDeduplicationToken_some (hne : token ≠ "") (events : List StoredEvent) :
    getDeduplicationToken sha256 (some token) events = token := by
  simp [getDeduplicationToken, Option.filter, hne]

/-- The names of the tables are identifiers. -/
theorem validClickHouseIdentifier_name (table : CHTable) :
    validClickHouseIdentifier unicode table.name = true := by
  have hchars : table.name.toList.all (fun c => c.isAlpha ∨ c = '_') = true := by
    cases table <;> decide
  have hsize : ¬ (table.name = "" ∨ 128 < table.name.utf8ByteSize) := by
    cases table <;> decide
  rw [validClickHouseIdentifier, if_neg hsize, all_eq_true]
  intro c hc
  rcases of_decide_eq_true (all_eq_true.mp hchars c hc) with halpha | hunder
  · simp [unicode.isLetter_ascii c halpha]
  · simp [hunder]

/-- An insert under a refused token fails, and into a table of the store it fails for the token. -/
theorem insertTable_refused (hne : token ≠ "") (hbad : validCHHexToken token = false)
    (conn : Conn) (table : String) (evts : List StoredEvent) :
    insertTable unicode sha256 conn (some token) table evts =
      some (if validClickHouseIdentifier unicode table = false then .invalidTableName table
        else .invalidDeduplicationToken) := by
  unfold insertTable
  by_cases htable : validClickHouseIdentifier unicode table = false
  · rw [if_pos htable, if_pos htable]
  · rw [if_neg htable, if_neg htable]
    rw [getDeduplicationToken_some sha256 hne, if_pos ⟨hne, hbad⟩]

/-- A batch with an event of some table is refused for its token, whatever the driver does. -/
theorem insertToClickHouse_refused (hne : token ≠ "") (hbad : validCHHexToken token = false)
    (conn : Conn) (finish : Completion) {e : StoredEvent}
    (he : e ∈ events) {table : CHTable} (htable : tableOf e = some table) :
    insertToClickHouse unicode sha256 conn finish (some token) events =
      some .invalidDeduplicationToken := by
  unfold insertToClickHouse
  set started := chTables.filter fun table => eventsOf events table ≠ [] with hstarted
  have hmem : table ∈ finish.order started := by
    rw [(finish.perm started).mem_iff, hstarted, mem_filter]
    refine ⟨by cases table <;> decide, ?_⟩
    rw [decide_eq_true_iff]
    apply ne_nil_of_mem
    exact mem_filter.mpr ⟨he, decide_eq_true htable⟩
  have hall : ∀ table : CHTable,
      insertTable unicode sha256 conn (some token) table.name (eventsOf events table) =
        some .invalidDeduplicationToken := by
    intro table
    rw [insertTable_refused unicode sha256 hne hbad, if_neg]
    rw [validClickHouseIdentifier_name]
    exact Bool.noConfusion
  cases horder : finish.order started with
  | nil => rw [horder] at hmem; exact absurd hmem not_mem_nil
  | cons first rest => rw [findSome?_cons, hall first]

/-- Where no attempt can write the batch, the loop ends without having written it. -/
theorem insertAttempts_ne_none {insert : ℕ → Option CHError} {cancelled : ℕ → Bool}
    (hfail : ∀ i, insert i ≠ none) (i left : ℕ) : insertAttempts insert cancelled i left ≠ none := by
  induction left generalizing i with
  | zero =>
    intro h
    exact hfail i (Option.map_eq_none_iff.mp h)
  | succ left ih =>
    intro h
    rw [insertAttempts] at h
    cases hi : insert i with
    | none => exact hfail i hi
    | some err =>
      rw [hi] at h
      dsimp only at h
      split at h
      · exact absurd h (Option.some_ne_none _)
      · exact ih (i + 1) h

/-- A batch that no attempt can write is not inserted by `StoreBatch`. -/
theorem storeBatch_ne_inserted {around : StoreSurroundings} {ctxToken : Option String} (hne : events ≠ [])
    (hfail : ∀ i, insertToClickHouse unicode sha256 (around.conn i) (around.finish i) ctxToken
      events ≠ none) : storeBatch unicode sha256 around ctxToken events ≠ .inserted := by
  unfold storeBatch
  rw [if_neg hne]
  cases around.gate with
  | some err => exact fun h => StoreOutcome.noConfusion h
  | none =>
    dsimp only
    split
    · rename_i h
      exact absurd h (insertAttempts_ne_none hfail 0 maxRetries)
    · exact fun h => StoreOutcome.noConfusion h
    · split <;> exact fun h => StoreOutcome.noConfusion h

/-- No batch of stream messages is inserted: its token is refused by every insert, of the consumer and of
the replay, although it is a token of no other part of the same messages. -/
theorem stream_batches_refused {ids : List String} (hids : ∀ id ∈ ids, IsStreamID id) (hne : ids ≠ []) :
    ∃ token, batchToken ids = some token ∧
      (∀ conn table evts, validClickHouseIdentifier unicode table = true →
        insertTable unicode sha256 conn (batchToken ids) table evts = some .invalidDeduplicationToken) ∧
      (∀ around events, (∃ e ∈ events, tableOf e ≠ none) →
        storeBatch unicode sha256 around (batchToken ids) events ≠ .inserted) ∧
      (∀ conn finish events, (∃ e ∈ events, tableOf e ≠ none) →
        replayInsert unicode sha256 conn finish token events = some .invalidDeduplicationToken) ∧
      (ids.Nodup → ∀ a b, a <:+: ids → b <:+: ids → a ≠ [] → b ≠ [] → a ≠ b →
        batchToken a ≠ batchToken b) := by
  obtain ⟨token, htoken, hnonempty, hbad⟩ := batchToken_refused hids hne
  have href : ∀ conn finish events, (∃ e ∈ events, tableOf e ≠ none) →
      insertToClickHouse unicode sha256 conn finish (some token) events =
        some .invalidDeduplicationToken := by
    intro conn finish events hrouted
    obtain ⟨e, he, hroute⟩ := hrouted
    obtain ⟨table, htable⟩ := Option.ne_none_iff_exists'.mp hroute
    exact insertToClickHouse_refused unicode sha256 hnonempty hbad conn finish he htable
  refine ⟨token, htoken, ?_, ?_, href, ?_⟩
  · intro conn table evts hvalid
    rw [htoken, insertTable_refused unicode sha256 hnonempty hbad, hvalid]
    rfl
  · intro around events hrouted
    rw [htoken]
    have hevts : events ≠ [] := by
      obtain ⟨e, he, -⟩ := hrouted
      exact List.ne_nil_of_mem he
    apply storeBatch_ne_inserted unicode sha256 hevts
    intro i
    rw [href (around.conn i) (around.finish i) events hrouted]
    exact Option.some_ne_none _
  · intro hnodup a b ha hb hane hbne hab htokens
    exact hab (batchToken_inj_of_parts hids hnodup ha hb hane hbne htokens)

end

/-- The letters and digits of ASCII. -/
def asciiClasses : UnicodeClasses := ⟨Char.isAlpha, Char.isDigit, fun _ h => h⟩

/-- `sha256.Sum256` at the text of the sample click. -/
def sampleDigest : Digest where
  sum _ := [0xc1, 0xbe, 0xff, 0x63, 0x38, 0x88, 0x53, 0xf2, 0x85, 0xcb, 0x12, 0xb3, 0x32, 0x70, 0xb3, 0x5d,
    0x8c, 0xfd, 0x2b, 0xe9, 0xd0, 0xb8, 0x5f, 0xfa, 0xb0, 0x2d, 0xe4, 0xce, 0xbe, 0xe0, 0xc4, 0x40]
  length_sum _ := rfl

/-- A driver whose calls succeed. -/
def workingConn : Conn := ⟨fun _ => none, fun _ _ => none, fun _ => none⟩

/-- A click without signs of fraud. -/
def plainClick : StoredEvent := ⟨"c-1", "click", [], "", 0, false, 0⟩

/-- Two messages of one stream. -/
def twoStreamIDs : List String := ["1526919030474-0", "1526919030474-1"]

/-- The messages of the sample have stream ids. -/
theorem isStreamID_of_mem_twoStreamIDs : ∀ id ∈ twoStreamIDs, IsStreamID id := by
  have hdec : Decimal "1526919030474" ∧ Decimal "0" ∧ Decimal "1" := by
    refine ⟨⟨?_, all_eq_true.mp ?_⟩, ⟨?_, all_eq_true.mp ?_⟩, ?_, all_eq_true.mp ?_⟩ <;> decide
  intro id hid
  simp only [twoStreamIDs, mem_cons, not_mem_nil, or_false] at hid
  rcases hid with rfl | rfl
  · exact ⟨_, _, hdec.1, hdec.2.1, rfl⟩
  · exact ⟨_, _, hdec.1, hdec.2.2, rfl⟩

/-- The two messages as one batch. -/
theorem stream_batches_refused_two :
    ∃ token, batchToken twoStreamIDs = some token ∧
      (∀ conn table evts, validClickHouseIdentifier asciiClasses table = true →
        insertTable asciiClasses sampleDigest conn (batchToken twoStreamIDs) table evts =
          some .invalidDeduplicationToken) ∧
      (∀ around events, (∃ e ∈ events, tableOf e ≠ none) →
        storeBatch asciiClasses sampleDigest around (batchToken twoStreamIDs) events ≠ .inserted) ∧
      (∀ conn finish events, (∃ e ∈ events, tableOf e ≠ none) →
        replayInsert asciiClasses sampleDigest conn finish token events =
          some .invalidDeduplicationToken) ∧
      (twoStreamIDs.Nodup → ∀ a b, a <:+: twoStreamIDs → b <:+: twoStreamIDs → a ≠ [] → b ≠ [] →
        a ≠ b → batchToken a ≠ batchToken b) :=
  stream_batches_refused asciiClasses sampleDigest isStreamID_of_mem_twoStreamIDs
    (List.cons_ne_nil _ _)

/-- A click that is inserted under the token of its digest is refused under the token of its
message, with a driver whose calls succeed. -/
theorem click_refused_for_token :
    insertTable asciiClasses sampleDigest workingConn none "clicks" [plainClick] = none ∧
      insertTable asciiClasses sampleDigest workingConn (batchToken ["1526919030474-0"]) "clicks"
        [plainClick] = some .invalidDeduplicationToken := by
  decide +kernel

end Espx.Ingestion
