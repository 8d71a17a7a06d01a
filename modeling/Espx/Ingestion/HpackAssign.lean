import Mathlib.Data.List.GetD
import Mathlib.Tactic.IntervalCases
import Espx.Ingestion.Hpack

/-!
# What the fields of a header block assign

The names that `http1AssignHeader` recognises by packed words, and the loop of `h2AssignHeader` over a
list of fields: each part of a request holds the last value under its name. What a field does to the rest
does not depend on the content type, the user agent or the transfer encoding.
-/

namespace Espx.Ingestion

open Espx.Foundation HeaderState List

section

theorem or_shiftLeft {a b : ℕ} (i : ℕ) (h : a < 2 ^ i) : a ||| b <<< i = a + 2 ^ i * b := by
  have hsum := Nat.two_pow_add_eq_or_of_lt h b
  rw [Nat.shiftLeft_eq, Nat.mul_comm b, Nat.or_comm, ← hsum, Nat.add_comm]

/-- The number of a word of four bytes. -/
theorem foldKeyU32_toNat (key : List UInt8) (off : ℕ) :
    (foldKeyU32 key off).toNat = (foldAt key off).toNat + 2 ^ 8 * (foldAt key (off + 1)).toNat +
      2 ^ 16 * (foldAt key (off + 2)).toNat + 2 ^ 24 * (foldAt key (off + 3)).toNat := by
  have hshift (b : UInt8) (i : UInt32) (hi : i.toNat ≤ 24) :
      (b.toUInt32 <<< i).toNat = b.toNat <<< i.toNat := by
    have hlt : b.toNat * 2 ^ i.toNat < 2 ^ 32 := by
      calc b.toNat * 2 ^ i.toNat ≤ b.toNat * 2 ^ 24 :=
            Nat.mul_le_mul_left _ (Nat.pow_le_pow_right (by omega) hi)
        _ < 2 ^ 32 := by
            have := b.toNat_lt
            omega
    rw [UInt32.toNat_shiftLeft, UInt8.toNat_toUInt32, Nat.mod_eq_of_lt (show i.toNat < 32 by omega),
      Nat.shiftLeft_eq, Nat.mod_eq_of_lt hlt]
  have h0 := (foldAt key off).toNat_lt
  have h1 := (foldAt key (off + 1)).toNat_lt
  have h2 := (foldAt key (off + 2)).toNat_lt
  unfold foldKeyU32
  rw [UInt32.toNat_or, UInt32.toNat_or, UInt32.toNat_or, hshift _ 8 (by decide), hshift _ 16 (by decide),
    hshift _ 24 (by decide), UInt8.toNat_toUInt32]
  change _ ||| _ <<< 8 ||| _ <<< 16 ||| _ <<< 24 = _
  rw [or_shiftLeft 8 (by omega), or_shiftLeft 16 (by omega), or_shiftLeft 24 (by omega)]

/-- The number of a word of eight bytes. -/
theorem foldKeyU64_toNat (key : List UInt8) (off : ℕ) :
    (foldKeyU64 key off).toNat =
      (foldKeyU32 key off).toNat + 2 ^ 32 * (foldKeyU32 key (off + 4)).toNat := by
  have h0 := (foldKeyU32 key off).toNat_lt
  have h1 := (foldKeyU32 key (off + 4)).toNat_lt
  have hlt : (foldKeyU32 key (off + 4)).toNat <<< 32 < 2 ^ 64 := by
    omega
  unfold foldKeyU64
  rw [UInt64.toNat_or, UInt64.toNat_shiftLeft, UInt32.toNat_toUInt64, UInt32.toNat_toUInt64]
  change _ ||| (_ <<< 32 % 2 ^ 64) = _
  rw [Nat.mod_eq_of_lt hlt, or_shiftLeft 32 (by omega)]

variable {key other : List UInt8} {off : ℕ}

/-- Words of four bytes are equal where their bytes are. -/
theorem foldKeyU32_eq_iff :
    foldKeyU32 key off = foldKeyU32 other off ↔
      foldAt key off = foldAt other off ∧ foldAt key (off + 1) = foldAt other (off + 1) ∧
        foldAt key (off + 2) = foldAt other (off + 2) ∧ foldAt key (off + 3) = foldAt other (off + 3) := by
  have hlt (l : List UInt8) :=
    And.intro (foldAt l off).toNat_lt (And.intro (foldAt l (off + 1)).toNat_lt (And.intro
      (foldAt l (off + 2)).toNat_lt (foldAt l (off + 3)).toNat_lt))
  have hkey := hlt key
  have hother := hlt other
  simp only [← UInt32.toNat_inj, ← UInt8.toNat_inj, foldKeyU32_toNat]
  omega

/-- Words of eight bytes are equal where their halves are. -/
theorem foldKeyU64_eq_iff :
    foldKeyU64 key off = foldKeyU64 other off ↔
      foldKeyU32 key off = foldKeyU32 other off ∧
        foldKeyU32 key (off + 4) = foldKeyU32 other (off + 4) := by
  have hkey := (foldKeyU32 key off).toNat_lt
  have hother := (foldKeyU32 other off).toNat_lt
  simp only [← UInt32.toNat_inj, ← UInt64.toNat_inj, foldKeyU64_toNat]
  omega

/-- A key is a name where its folded bytes are. -/
theorem map_httpFold_eq_iff (h : key.length = other.length) :
    key.map httpFold = other.map httpFold ↔ ∀ i < other.length, foldAt key i = foldAt other i := by
  have hat (l : List UInt8) (i : ℕ) (hi : i < l.length) : foldAt l i = httpFold l[i] := by
    rw [foldAt, getD_eq_getElem l 0 hi]
  rw [ext_getElem_iff]
  simp only [length_map, h, true_and, getElem_map]
  refine forall_congr' fun i => ?_
  constructor
  · intro hi hlt
    rw [hat key i (by omega), hat other i hlt]
    exact hi hlt hlt
  · intro hi _ hlt
    have hfold := hi hlt
    rwa [hat key i (by omega), hat other i hlt] at hfold

/-- The name of a header, in any case. -/
def isHeader (name : String) (key : List UInt8) : Bool := key.map httpFold = bytesOf name

/-- The source recognises `content-type`. -/
theorem contentType_test (h : key.length = 12) :
    foldKeyU64 key 0 = 0x2d746e65746e6f63 ∧ foldKeyU32 key 8 = 0x65707974 ↔
      isHeader "content-type" key = true := by
  have hlow : foldKeyU64 (bytesOf "content-type") 0 = 0x2d746e65746e6f63 := by decide
  have hhigh : foldKeyU32 (bytesOf "content-type") 8 = 0x65707974 := by decide
  have hfold : (bytesOf "content-type").map httpFold = bytesOf "content-type" := by decide
  have hlen : (bytesOf "content-type").length = 12 := by decide
  rw [isHeader, decide_eq_true_iff, ← hlow, ← hhigh, ← hfold, map_httpFold_eq_iff (by omega), hlen,
    foldKeyU64_eq_iff, foldKeyU32_eq_iff, foldKeyU32_eq_iff, foldKeyU32_eq_iff]
  constructor
  · rintro ⟨⟨⟨h0, h1, h2, h3⟩, h4, h5, h6, h7⟩, h8, h9, h10, h11⟩ i hi
    interval_cases i <;> assumption
  · intro hall
    refine ⟨⟨⟨?_, ?_, ?_, ?_⟩, ?_, ?_, ?_, ?_⟩, ?_, ?_, ?_, ?_⟩ <;> exact hall _ (by omega)

/-- The source recognises `user-agent`. -/
theorem userAgent_test (h : key.length = 10) :
    foldKeyU32 key 0 = 0x72657375 ∧ foldKeyU32 key 4 = 0x6567612d ∧ foldAt key 8 = 110 ∧
        foldAt key 9 = 116 ↔ isHeader "user-agent" key = true := by
  have hlow : foldKeyU32 (bytesOf "user-agent") 0 = 0x72657375 := by decide
  have hhigh : foldKeyU32 (bytesOf "user-agent") 4 = 0x6567612d := by decide
  have h8 : foldAt (bytesOf "user-agent") 8 = 110 := by decide
  have h9 : foldAt (bytesOf "user-agent") 9 = 116 := by decide
  have hfold : (bytesOf "user-agent").map httpFold = bytesOf "user-agent" := by decide
  have hlen : (bytesOf "user-agent").length = 10 := by decide
  rw [isHeader, decide_eq_true_iff, ← hlow, ← hhigh, ← h8, ← h9, ← hfold,
    map_httpFold_eq_iff (by omega), hlen, foldKeyU32_eq_iff, foldKeyU32_eq_iff]
  constructor
  · rintro ⟨⟨h0, h1, h2, h3⟩, ⟨h4, h5, h6, h7⟩, h8, h9⟩ i hi
    interval_cases i <;> assumption
  · intro hall
    refine ⟨⟨?_, ?_, ?_, ?_⟩, ⟨?_, ?_, ?_, ?_⟩, ?_, ?_⟩ <;> exact hall _ (by omega)

end

/-- The state without what the two static tables can read differently: the content type, the user agent
and the flags of `transfer-encoding`. -/
def HeaderState.masked (st : HeaderState) : HeaderState :=
  { st with
    req := { st.req with contentType := [], userAgent := [] }
    chunkedTE := false
    hasTE := false
    invalidTE := false }

namespace HeaderState

variable (st : HeaderState) (key val : List UInt8)

theorem masked_setContentLength :
    (st.masked.setContentLength val).map masked = (st.setContentLength val).map masked := by
  unfold setContentLength
  split
  · rfl
  · rw [show st.masked.clSet = st.clSet from rfl, show st.masked.clValue = st.clValue from rfl]
    split <;> rfl

theorem masked_setTransferEncoding : (st.setTransferEncoding val).masked = st.masked := by
  unfold setTransferEncoding
  split <;> rfl

theorem masked_setRealIP : (st.masked.setRealIP val).masked = (st.setRealIP val).masked := by
  unfold setRealIP
  rw [show st.masked.req.clientIP = st.req.clientIP from rfl]
  split <;> rfl

theorem masked_setAcceptDetail :
    (st.masked.setAcceptDetail key val).masked = (st.setAcceptDetail key val).masked := by
  unfold setAcceptDetail
  split
  · rfl
  · split <;> rfl

/-- No header depends on what is masked. -/
theorem masked_http1AssignHeader :
    (st.masked.http1AssignHeader key val).map masked = (st.http1AssignHeader key val).map masked := by
  have henc := (masked_setTransferEncoding st.masked val).trans (masked_setTransferEncoding st val).symm
  unfold http1AssignHeader
  split
  all_goals try split_ifs
  all_goals first
    | rfl
    | exact masked_setContentLength st val
    | exact congrArg some (masked_setRealIP st val)
    | exact congrArg some (masked_setAcceptDetail st key val)
    | exact congrArg some henc

/-- The request is its masked part, its content type and its user agent. -/
theorem req_eq_iff {a b : HeaderState} :
    a.req = b.req ↔ a.masked.req = b.masked.req ∧ a.req.contentType = b.req.contentType ∧
      a.req.userAgent = b.req.userAgent := by
  obtain ⟨⟨⟩⟩ := a
  obtain ⟨⟨⟩⟩ := b
  simp only [masked, ParsedHTTPRequest.mk.injEq]
  tauto

end HeaderState

section

variable (st : HeaderState)

/-- The loop of `h2AssignHeader` over a list of fields, up to the first that is refused. -/
def assignFields : HeaderState → List HeaderField → HeaderState × Bool
  | st, [] => (st, true)
  | st, field :: rest =>
    if (h2AssignHeader st field).2 then assignFields (h2AssignHeader st field).1 rest
    else ((h2AssignHeader st field).1, false)

/-- The fields up to the first that is refused, with that one. -/
def appliedFields : HeaderState → List HeaderField → List HeaderField
  | _, [] => []
  | st, field :: rest =>
    field :: if (h2AssignHeader st field).2 then appliedFields (h2AssignHeader st field).1 rest else []

/-- The last value under a name. -/
def lastUnder (p : List UInt8 → Bool) (fields : List HeaderField) : Option (List UInt8) :=
  (fields.reverse.find? fun field => p field.1).map Prod.snd

/-- The name of a pseudo-header. -/
def isPseudo (name : String) (key : List UInt8) : Bool := key = bytesOf name

/-- The last value of a list that begins with a field. -/
theorem lastUnder_cons (p : List UInt8 → Bool) (field : HeaderField) (rest : List HeaderField) :
    lastUnder p (field :: rest) = (lastUnder p rest).or (if p field.1 then some field.2 else none) := by
  unfold lastUnder
  rw [reverse_cons, find?_append, Option.map_or]
  by_cases hp : p field.1 = true
  · rw [if_pos hp, find?_singleton, if_pos hp]
    rfl
  · rw [if_neg hp, find?_singleton, if_neg hp]
    rfl

/-- What every field under a name replaces holds the last value under that name. -/
theorem assignFields_last {p : List UInt8 → Bool} {part : HeaderState → List UInt8}
    (hpart : ∀ st field, part (h2AssignHeader st field).1 = if p field.1 then field.2 else part st)
    (fields : List HeaderField) :
    part (assignFields st fields).1 = (lastUnder p (appliedFields st fields)).getD (part st) := by
  induction fields generalizing st with
  | nil => rfl
  | cons field rest ih =>
    rw [assignFields, appliedFields, lastUnder_cons, Option.getD_or]
    have hfirst : part (h2AssignHeader st field).1 =
        (if p field.1 then some field.2 else none).getD (part st) := by
      rw [hpart]
      split <;> rfl
    by_cases hacc : (h2AssignHeader st field).2 = true
    · rw [if_pos hacc, if_pos hacc, ih, hfirst]
    · rw [if_neg hacc, if_neg hacc]
      exact hfirst

/-- Every field of a list that is accepted is applied. -/
theorem appliedFields_of_accepted {fields : List HeaderField} (h : (assignFields st fields).2 = true) :
    appliedFields st fields = fields := by
  induction fields generalizing st with
  | nil => rfl
  | cons field rest ih =>
    rw [assignFields] at h
    by_cases hacc : (h2AssignHeader st field).2 = true
    · rw [if_pos hacc] at h
      rw [appliedFields, if_pos hacc, ih _ h]
    · rw [if_neg hacc] at h
      exact absurd h Bool.false_ne_true

/-- A list that is accepted is accepted part by part. -/
theorem assignFields_append {first second : List HeaderField}
    (h : (assignFields st (first ++ second)).2 = true) :
    (assignFields st first).2 = true ∧
      assignFields st (first ++ second) = assignFields (assignFields st first).1 second := by
  induction first generalizing st with
  | nil => exact ⟨rfl, rfl⟩
  | cons field rest ih =>
    rw [cons_append, assignFields] at h
    rw [cons_append, assignFields, assignFields]
    by_cases hacc : (h2AssignHeader st field).2 = true
    · rw [if_pos hacc] at h
      rw [if_pos hacc, if_pos hacc]
      exact ih _ h
    · rw [if_neg hacc] at h
      exact absurd h Bool.false_ne_true

variable (key val : List UInt8) {name : String}

/-- The parts of the request that are compared: method, path, content type and user agent. -/
def HeaderState.parts : List UInt8 × List UInt8 × List UInt8 × List UInt8 :=
  (st.req.method, st.req.path, st.req.contentType, st.req.userAgent)

theorem setContentLength_parts {next : HeaderState} (h : st.setContentLength val = some next) :
    next.parts = st.parts := by
  unfold setContentLength at h
  split at h
  · cases h
  split at h
  · cases h
  · cases h
    rfl

theorem setters_parts : (st.setTransferEncoding val).parts = st.parts ∧
    (st.setRealIP val).parts = st.parts ∧ (st.setAcceptDetail key val).parts = st.parts := by
  unfold setTransferEncoding setRealIP setAcceptDetail
  refine ⟨?_, ?_, ?_⟩
  · split <;> rfl
  · split <;> rfl
  · split
    · rfl
    · split <;> rfl

theorem isHeader_of_length {key : List UInt8} (h : key.length ≠ (bytesOf name).length) :
    isHeader name key = false := by
  refine decide_eq_false fun heq => h ?_
  rw [← heq, length_map]

/-- `http1AssignHeader` replaces the content type and the user agent under their names. -/
theorem http1AssignHeader_parts {next : HeaderState} (h : st.http1AssignHeader key val = some next) :
    next.parts = (st.req.method, st.req.path,
      if isHeader "content-type" key then val else st.req.contentType,
      if isHeader "user-agent" key then val else st.req.userAgent) := by
  obtain ⟨henc, hrealIP, hdetail⟩ := setters_parts st key val
  by_cases hcont : key.length = 12
  · have hagent : isHeader "user-agent" key = false := by
      refine isHeader_of_length ?_
      rw [hcont]
      decide
    simp only [http1AssignHeader, hcont, contentType_test hcont] at h
    rw [hagent]
    split at h <;> rename_i htest <;> cases h
    · rw [if_pos htest]
      rfl
    · rw [if_neg htest]
      rfl
  by_cases hagent : key.length = 10
  · have hother : isHeader "content-type" key = false := by
      refine isHeader_of_length ?_
      rw [hagent]
      decide
    simp only [http1AssignHeader, hagent, userAgent_test hagent] at h
    rw [hother]
    split at h <;> rename_i htest
    · cases h
      rw [if_pos htest]
      rfl
    · rw [if_neg htest]
      split at h <;> (cases h; rfl)
  · have hnotContent : isHeader "content-type" key = false := isHeader_of_length hcont
    have hnotAgent : isHeader "user-agent" key = false := isHeader_of_length hagent
    rw [hnotContent, hnotAgent]
    unfold http1AssignHeader at h
    split at h
    all_goals try split_ifs at h
    all_goals first
      | exact setContentLength_parts st val h
      | exact absurd ‹key.length = 10› hagent
      | exact absurd ‹key.length = 12› hcont
      | skip
    all_goals obtain rfl := Option.some.inj h
    all_goals first
      | rfl
      | exact henc
      | exact hrealIP
      | exact hdetail

theorem http1AssignHeader_none (h : st.http1AssignHeader key val = none) : key.length = 14 := by
  unfold http1AssignHeader at h
  split at h
  all_goals try split_ifs at h
  all_goals first
    | exact absurd h (Option.some_ne_none _)
    | assumption

theorem isHeader_fold (name : String) : isHeader name (key.map httpFold) = isHeader name key := by
  have hbyte : ∀ i : Fin 256, httpFold (httpFold (UInt8.ofFin i)) = httpFold (UInt8.ofFin i) := by
    decide +kernel
  have hfold : httpFold ∘ httpFold = httpFold := by
    funext b
    exact hbyte b.toFin
  unfold isHeader
  rw [map_map, hfold]

theorem isHeader_of_colon {key : List UInt8} (h : key.head? = some 58)
    (hname : (bytesOf name).head? ≠ some 58) : isHeader name key = false := by
  refine decide_eq_false fun heq => hname ?_
  rw [← heq, head?_map, h]
  rfl

theorem isPseudo_of_not_colon {key : List UInt8} (h : key.head? ≠ some 58)
    (hname : (bytesOf name).head? = some 58) : isPseudo name key = false := by
  refine decide_eq_false fun heq => h ?_
  rw [heq, hname]

variable (field : HeaderField)

/-- `h2AssignHeader` replaces the parts under their names. -/
theorem h2AssignHeader_parts : (h2AssignHeader st field).1.parts =
    (if isPseudo ":method" field.1 then field.2 else st.req.method,
      if isPseudo ":path" field.1 then field.2 else st.req.path,
      if isHeader "content-type" field.1 then field.2 else st.req.contentType,
      if isHeader "user-agent" field.1 then field.2 else st.req.userAgent) := by
  obtain ⟨key, val⟩ := field
  unfold h2AssignHeader
  dsimp only
  by_cases hcolon : key.head? = some 58
  · have hcont : isHeader "content-type" key = false := isHeader_of_colon hcolon (by decide)
    have hagent : isHeader "user-agent" key = false := isHeader_of_colon hcolon (by decide)
    rw [if_pos hcolon, hcont, hagent]
    by_cases hmeth : key = bytesOf ":method"
    · rw [if_pos hmeth, hmeth]
      rfl
    by_cases hpath : key = bytesOf ":path"
    · rw [if_neg hmeth, if_pos hpath, hpath]
      rfl
    · rw [if_neg hmeth, if_neg hpath, show isPseudo ":method" key = false from decide_eq_false hmeth,
        show isPseudo ":path" key = false from decide_eq_false hpath]
      split <;> rfl
  · have hmeth : isPseudo ":method" key = false := isPseudo_of_not_colon hcolon (by decide)
    have hpath : isPseudo ":path" key = false := isPseudo_of_not_colon hcolon (by decide)
    have hsame (hlen : key.length ≠ 12) (hother : key.length ≠ 10) :
        st.parts = (st.req.method, st.req.path,
          if isHeader "content-type" key then val else st.req.contentType,
          if isHeader "user-agent" key then val else st.req.userAgent) := by
      rw [isHeader_of_length (show key.length ≠ (bytesOf "content-type").length from hlen),
        isHeader_of_length (show key.length ≠ (bytesOf "user-agent").length from hother)]
      rfl
    rw [if_neg hcolon, hmeth, hpath]
    by_cases hlong : 256 < key.length
    · rw [if_pos hlong]
      exact hsame (by omega) (by omega)
    rw [if_neg hlong]
    cases hset : st.http1AssignHeader (key.map httpFold) val with
    | none =>
      have hlen := http1AssignHeader_none st _ val hset
      rw [length_map] at hlen
      exact hsame (by omega) (by omega)
    | some next =>
      have hparts := http1AssignHeader_parts st _ val hset
      rwa [isHeader_fold, isHeader_fold] at hparts

end

end Espx.Ingestion
