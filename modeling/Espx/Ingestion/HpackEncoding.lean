import Espx.Ingestion.Hpack

/-!
# Header fields as RFC 7541 encodes them

The static table of Appendix A, the integer and string representations, and the field representations that
the source supports. An encoded field is decoded as the table of the source names it, where its strings
are not too long for the integers that the source reads. What the writers of the source write its readers
read back.
-/

namespace Espx.Ingestion

open Espx.Foundation Scan List

/-- The static table of RFC 7541, Appendix A. -/
def rfcStaticTable : List (String × String) :=
  [(":authority", ""), (":method", "GET"), (":method", "POST"), (":path", "/"),
    (":path", "/index.html"), (":scheme", "http"), (":scheme", "https"), (":status", "200"),
    (":status", "204"), (":status", "206"), (":status", "304"), (":status", "400"), (":status", "404"),
    (":status", "500"), ("accept-charset", ""), ("accept-encoding", "gzip, deflate"),
    ("accept-language", ""), ("accept-ranges", ""), ("accept", ""),
    ("access-control-allow-origin", ""), ("age", ""), ("allow", ""), ("authorization", ""),
    ("cache-control", ""), ("content-disposition", ""), ("content-encoding", ""),
    ("content-language", ""), ("content-length", ""), ("content-location", ""), ("content-range", ""),
    ("content-type", ""), ("cookie", ""), ("date", ""), ("etag", ""), ("expect", ""), ("expires", ""),
    ("from", ""), ("host", ""), ("if-match", ""), ("if-modified-since", ""), ("if-none-match", ""),
    ("if-range", ""), ("if-unmodified-since", ""), ("last-modified", ""), ("link", ""),
    ("location", ""), ("max-forwards", ""), ("proxy-authenticate", ""), ("proxy-authorization", ""),
    ("range", ""), ("referer", ""), ("refresh", ""), ("retry-after", ""), ("server", ""),
    ("set-cookie", ""), ("strict-transport-security", ""), ("transfer-encoding", ""),
    ("user-agent", ""), ("vary", ""), ("via", ""), ("www-authenticate", "")]

/-- The place of an entry of the static table, which counts from zero. -/
abbrev StaticPlace := Fin 61

/-- The name of a literal field. -/
inductive FieldName
  | static (place : StaticPlace)
  | text (bytes : List UInt8)

/-- A header field in one of the supported representations. -/
inductive Encoded
  | indexed (place : StaticPlace)
  | literal (never : Bool) (name : FieldName) (value : List UInt8)

/-- The entry of a table at a place. -/
def entryAt (table : List (String × String)) (place : StaticPlace) : HeaderField :=
  (staticEntry table (place + 1)).getD ([], [])

/-- The header field that a representation stands for by a table. -/
def Encoded.field (table : List (String × String)) : Encoded → HeaderField
  | .indexed place => entryAt table place
  | .literal _ (.static place) value => ((entryAt table place).1, value)
  | .literal _ (.text bytes) value => (bytes, value)

/-- The bytes after the first one of an integer; the first argument bounds their number. -/
def intTail : ℕ → ℕ → List UInt8
  | 0, n => [UInt8.ofNat n]
  | fuel + 1, n =>
    if n < 128 then [UInt8.ofNat n] else UInt8.ofNat (n % 128 + 128) :: intTail fuel (n / 128)

/-- An integer behind flags, with the mask of its prefix. -/
def encodeInt (flags mask : UInt8) (n : ℕ) : List UInt8 :=
  if n < mask.toNat then [flags ||| UInt8.ofNat n]
  else (flags ||| mask) :: intTail (n - mask.toNat) (n - mask.toNat)

/-- A string without Huffman coding. -/
def encodeString (bytes : List UInt8) : List UInt8 := encodeInt 0 0x7f bytes.length ++ bytes

/-- The flags of a literal. -/
def literalFlags (never : Bool) : UInt8 := if never then 0x10 else 0

/-- The name of a literal. -/
def encodeName (never : Bool) : FieldName → List UInt8
  | .static place => encodeInt (literalFlags never) 0x0f (place + 1)
  | .text bytes => encodeInt (literalFlags never) 0x0f 0 ++ encodeString bytes

/-- A header field. -/
def Encoded.bytes : Encoded → List UInt8
  | .indexed place => encodeInt 0x80 0x7f (place + 1)
  | .literal never name value => encodeName never name ++ encodeString value

/-- A header block. -/
def encodeBlock (fields : List Encoded) : List UInt8 := fields.flatMap Encoded.bytes

/-- The source reads the length of a string of this length. -/
def readableString (bytes : List UInt8) : Bool := bytes.length < 2 ^ 35 + 127

/-- The source reads the name. -/
def FieldName.readable : FieldName → Bool
  | .static _ => true
  | .text bytes => readableString bytes

/-- The source reads the strings of a field. -/
def Encoded.readable : Encoded → Bool
  | .indexed _ => true
  | .literal _ name value => name.readable ∧ readableString value

open Encoded

section

section

variable {n : ℕ} (mult val off : ℕ) (rest : List UInt8) (hn : n < 128)
include hn

theorem intLoop_last : intLoop mult val off (UInt8.ofNat n :: rest) = .ok (val + n * mult, off + 1) := by
  have hbyte : ∀ n < 128, (UInt8.ofNat n &&& 0x7f).toNat = n ∧ UInt8.ofNat n < 0x80 := by
    decide +kernel
  rw [intLoop, if_pos (hbyte n hn).2, (hbyte n hn).1]

/-- A byte of an integer after which another one comes is read. -/
theorem intLoop_more :
    intLoop mult val off (UInt8.ofNat (n + 128) :: rest) =
      if 2 ^ 30 < mult * 128 then .error ()
      else intLoop (mult * 128) (val + n * mult) (off + 1) rest := by
  have hbyte : ∀ n < 128,
      (UInt8.ofNat (n + 128) &&& 0x7f).toNat = n ∧ ¬ UInt8.ofNat (n + 128) < 0x80 := by
    decide +kernel
  rw [intLoop, if_neg (hbyte n hn).2, (hbyte n hn).1]

end

/-- The bytes after the first are read where five of them are enough. -/
theorem intLoop_intTail {fuel n val off k : ℕ} (rest : List UInt8) (hfuel : n ≤ fuel) (hk : k ≤ 4) :
    intLoop (128 ^ k) val off (intTail fuel n ++ rest) =
      if n < 128 ^ (5 - k) then .ok (val + n * 128 ^ k, off + (intTail fuel n).length)
      else .error () := by
  have hpow : (128 : ℕ) ≤ 128 ^ (5 - k) := Nat.le_self_pow (by omega) 128
  induction fuel generalizing n val off k with
  | zero =>
    rw [if_pos (by omega), intTail]
    exact intLoop_last _ val off rest (by omega)
  | succ fuel ih =>
    rw [intTail]
    by_cases hn : n < 128
    · rw [if_pos hn, if_pos (by omega)]
      exact intLoop_last _ val off rest hn
    have hval : val + n % 128 * 128 ^ k + n / 128 * 128 ^ (k + 1) = val + n * 128 ^ k := by
      rw [pow_succ, Nat.add_assoc, ← mul_assoc, mul_right_comm, ← add_mul, mul_comm (n / 128),
        Nat.mod_add_div]
    rw [if_neg hn, cons_append, intLoop_more _ val off _ (Nat.mod_lt n (by omega)), ← pow_succ,
      length_cons]
    by_cases hlast : k = 4
    · subst hlast
      rw [if_pos (by decide), if_neg (by omega)]
    have hmult : ¬ 2 ^ 30 < 128 ^ (k + 1) := by
      have := Nat.pow_le_pow_right (show 0 < 128 by omega) (show k + 1 ≤ 4 by omega)
      omega
    have hiff : n / 128 < 128 ^ (5 - (k + 1)) ↔ n < 128 ^ (5 - k) := by
      rw [Nat.div_lt_iff_lt_mul (by omega), ← pow_succ, show 5 - (k + 1) + 1 = 5 - k by omega]
    rw [if_neg hmult, ih (by omega) (by omega) (Nat.le_self_pow (by omega) 128), hval]
    simp only [hiff, show off + 1 + (intTail fuel (n / 128)).length =
      off + ((intTail fuel (n / 128)).length + 1) by omega]

/-- What a prefix mask does: the low bits hold a number below the mask or the mask itself. -/
def Separates (flags mask : UInt8) : Prop :=
  (∀ n < mask.toNat, ((flags ||| UInt8.ofNat n) &&& mask).toNat = n) ∧ (flags ||| mask) &&& mask = mask

instance (flags mask : UInt8) : Decidable (Separates flags mask) :=
  inferInstanceAs (Decidable (_ ∧ _))

variable {data rest : List UInt8} {off : ℕ}

/-- An encoded integer is read. -/
theorem h2DecodeInt_encodeInt {flags mask : UInt8} (n : ℕ) (hmask : Separates flags mask)
    (h : data.drop off = encodeInt flags mask n ++ rest) :
    h2DecodeInt data off mask =
      if n < 2 ^ 35 + mask.toNat then .ok (n, off + (encodeInt flags mask n).length) else .error () := by
  unfold encodeInt at h ⊢
  by_cases hn : n < mask.toNat
  · rw [if_pos hn] at h
    have hlt := lt_length_of_drop h
    unfold h2DecodeInt
    rw [if_neg (by omega), index_of_drop h, ok_bind]
    rw [hmask.1 n hn, if_pos hn, if_pos hn, if_pos (by omega)]
    rfl
  · rw [if_neg hn, cons_append] at h
    have hlt := lt_length_of_drop h
    unfold h2DecodeInt
    rw [if_neg (by omega), index_of_drop h, ok_bind]
    rw [hmask.2, if_neg (by omega), if_neg hn, drop_succ h]
    have hloop := @intLoop_intTail (n - mask.toNat) (n - mask.toNat) mask.toNat (off + 1) 0 rest le_rfl
      (by omega)
    rw [pow_zero] at hloop
    rw [hloop, length_cons]
    by_cases hlong : n < 2 ^ 35 + mask.toNat
    · rw [if_pos (by omega), if_pos hlong]
      congr 2 <;> omega
    · rw [if_neg (by omega), if_neg hlong]

/-- The first byte of an encoded integer meets what every byte with these flags does. -/
theorem encodeInt_cons {flags mask : UInt8} (P : UInt8 → Prop) (n : ℕ)
    (hlow : ∀ n < mask.toNat, P (flags ||| UInt8.ofNat n)) (hmask : P (flags ||| mask)) :
    ∃ b tail, encodeInt flags mask n = b :: tail ∧ P b := by
  unfold encodeInt
  by_cases hn : n < mask.toNat
  · rw [if_pos hn]
    exact ⟨_, _, rfl, hlow n hn⟩
  · rw [if_neg hn]
    exact ⟨_, _, rfl, hmask⟩

/-- An encoded string is read where its length is. -/
theorem h2DecodeString_encodeString (bytes : List UInt8)
    (h : data.drop off = encodeString bytes ++ rest) :
    h2DecodeString data off =
      if readableString bytes then .ok (bytes, off + (encodeString bytes).length) else .error () := by
  unfold encodeString at h ⊢
  rw [append_assoc] at h
  obtain ⟨b, tail, hfirst, hplain⟩ := @encodeInt_cons 0 0x7f (fun b => ¬ b &&& 0x80 ≠ 0) bytes.length
    (by decide +kernel) (by decide)
  have hb : data.drop off = b :: (tail ++ (bytes ++ rest)) := by
    rw [h, hfirst, cons_append]
  have hlt := lt_length_of_drop hb
  have hint := h2DecodeInt_encodeInt bytes.length (by decide +kernel : Separates 0 0x7f) h
  have hafter := drop_add h
  have hmask : (0x7f : UInt8).toNat = 127 := rfl
  unfold h2DecodeString readableString
  rw [if_neg (by omega), index_of_drop hb, ok_bind, hint, hmask]
  by_cases hread : bytes.length < 2 ^ 35 + 127
  · have hin : off + (encodeInt 0 0x7f bytes.length).length + bytes.length ≤ data.length := by
      have hlen := congrArg List.length h
      rw [length_drop, length_append, length_append] at hlen
      omega
    rw [if_pos hread, ok_bind]
    dsimp only
    rw [if_neg (by omega), slice_of_drop hafter (by omega), ok_bind, if_neg hplain,
      if_pos (decide_eq_true hread), length_append, Nat.add_assoc]
  · rw [if_neg hread, error_bind, if_neg (by simpa using hread)]

/-- The places of the table of the source. -/
theorem h2StaticNameValue_place (place : StaticPlace) :
    h2StaticNameValue (place + 1) = some (entryAt h2StaticTable place) := by
  have hall : ∀ place : StaticPlace, (h2StaticNameValue (place + 1)).isSome := by decide +kernel
  obtain ⟨entry, hentry⟩ := Option.isSome_iff_exists.mp (hall place)
  unfold entryAt
  rw [show staticEntry h2StaticTable (place + 1) = some entry from hentry, hentry, Option.getD_some]

/-- The name of a literal is read where its text is. -/
theorem literalName_encodeName (never : Bool) (name : FieldName) (value : List UInt8)
    (h : data.drop off = encodeName never name ++ rest) :
    literalName data off =
      if name.readable then
        .ok ((field h2StaticTable (.literal never name value)).1, off + (encodeName never name).length)
      else .error () := by
  have hflags : Separates (literalFlags never) 0x0f := by
    cases never <;> decide +kernel
  unfold literalName
  cases name with
  | static place =>
    rw [h2DecodeInt_encodeInt (place + 1) hflags h, if_pos (by omega), ok_bind]
    dsimp only
    rw [if_pos (by omega), h2StaticNameValue_place]
    rfl
  | text bytes =>
    unfold encodeName at h ⊢
    rw [h2DecodeInt_encodeInt 0 hflags h, if_pos (by omega), ok_bind]
    dsimp only
    rw [if_neg (by omega), h2DecodeString_encodeString bytes (drop_add h), length_append, Nat.add_assoc]
    rfl

/-- A literal is read where its strings are. -/
theorem literalField_encoded (never : Bool) (name : FieldName) (value : List UInt8)
    (h : data.drop off = (literal never name value).bytes ++ rest) :
    literalField data off =
      if (literal never name value).readable then
        .ok (field h2StaticTable (.literal never name value),
          off + (literal never name value).bytes.length)
      else .error () := by
  unfold bytes at h ⊢
  rw [append_assoc] at h
  unfold literalField readable
  rw [literalName_encodeName never name value h]
  by_cases hname : name.readable = true
  · rw [if_pos hname, ok_bind]
    dsimp only
    rw [h2DecodeString_encodeString value (drop_add h)]
    by_cases hvalue : readableString value = true
    · rw [if_pos hvalue, ok_bind, if_pos (by simp [hname, hvalue]), length_append, Nat.add_assoc]
      cases name <;> rfl
    · rw [if_neg hvalue, error_bind, if_neg (by simp [hvalue])]
  · rw [if_neg hname, error_bind, if_neg (by simp [hname])]

/-- An encoded field is read where its strings are, as the table of the source names it. -/
theorem decodeField_encoded (e : Encoded) (h : data.drop off = e.bytes ++ rest) :
    decodeField data off =
      if e.readable then .ok (e.field h2StaticTable, off + e.bytes.length) else .error () := by
  cases e with
  | indexed place =>
    obtain ⟨b, tail, hfirst, hflag⟩ := @encodeInt_cons 0x80 0x7f (fun b => b &&& 0x80 ≠ 0) (place + 1)
      (by decide +kernel) (by decide)
    have hb : data.drop off = b :: (tail ++ rest) := by
      rw [h, bytes, hfirst, cons_append]
    unfold decodeField
    rw [index_of_drop hb, ok_bind, if_pos hflag,
      h2DecodeInt_encodeInt (place + 1) (by decide +kernel : Separates 0x80 0x7f) h,
      if_pos (by omega), ok_bind]
    dsimp only
    rw [h2StaticNameValue_place]
    rfl
  | literal never name value =>
    have hbyte (n : ℕ) : ∃ b tail, encodeInt (literalFlags never) 0x0f n = b :: tail ∧
        (¬ b &&& 0x80 ≠ 0 ∧ ¬ b &&& 0x40 ≠ 0 ∧ ¬ b &&& 0x20 ≠ 0) := by
      cases never
      · exact encodeInt_cons _ n (by decide +kernel) (by decide)
      · exact encodeInt_cons _ n (by decide +kernel) (by decide)
    obtain ⟨b, tail, hfirst, hindexed, hincremental, hupd⟩ : ∃ b tail, encodeName never name = b :: tail ∧
        (¬ b &&& 0x80 ≠ 0 ∧ ¬ b &&& 0x40 ≠ 0 ∧ ¬ b &&& 0x20 ≠ 0) := by
      cases name with
      | static place => exact hbyte (place + 1)
      | text bytes =>
        obtain ⟨b, tail, hfirst, hflags⟩ := hbyte 0
        exact ⟨b, tail ++ encodeString bytes, by rw [encodeName, hfirst, cons_append], hflags⟩
    have hb : data.drop off = b :: (tail ++ (encodeString value ++ rest)) := by
      rw [h, bytes, hfirst, append_assoc, cons_append]
    unfold decodeField
    rw [index_of_drop hb, ok_bind, if_neg hindexed, if_neg hincremental, if_neg hupd, ite_self]
    exact literalField_encoded never name value h

theorem encodeInt_pos (flags mask : UInt8) (n : ℕ) : 0 < (encodeInt flags mask n).length := by
  unfold encodeInt
  split
  · exact Nat.one_pos
  · exact Nat.succ_pos _

theorem Encoded.bytes_pos (e : Encoded) : 0 < e.bytes.length := by
  cases e with
  | indexed place => exact encodeInt_pos _ _ _
  | literal never name value =>
    have := encodeInt_pos 0 0x7f value.length
    unfold bytes encodeString
    rw [length_append, length_append]
    omega

end

/-- The end of `h2EncodeInt`. -/
def lastByte (dst : List UInt8) (off value : ℕ) : List UInt8 × ℕ :=
  if off < dst.length then (dst.set off (UInt8.ofNat value), off + 1) else (dst, off)

/-- The loop of `h2EncodeInt`; the first argument bounds its passes. -/
def encodeLoop : ℕ → List UInt8 → ℕ → ℕ → List UInt8 × ℕ
  | 0, dst, off, value => lastByte dst off value
  | fuel + 1, dst, off, value =>
    if 0x80 ≤ value then
      if dst.length ≤ off then (dst, off)
      else encodeLoop fuel (dst.set off (UInt8.ofNat (value % 0x80 + 0x80))) (off + 1) (value / 0x80)
    else lastByte dst off value

/-- `h2EncodeInt`: the destination, and the offset after the integer. -/
def h2EncodeInt (dst : List UInt8) (off value : ℕ) (prefixMask : UInt8) : List UInt8 × ℕ :=
  if value < prefixMask.toNat then
    if dst.length ≤ off then (dst, off)
    else (dst.modify off fun b => (b &&& ~~~prefixMask) ||| UInt8.ofNat value, off + 1)
  else if dst.length ≤ off then (dst, off)
  else
    encodeLoop (value - prefixMask.toNat) (dst.modify off (· ||| prefixMask)) (off + 1)
      (value - prefixMask.toNat)

/-- Go's `copy(dst[off:], bytes)`, where the bytes fit. -/
def overwrite (dst : List UInt8) (off : ℕ) (bytes : List UInt8) : List UInt8 :=
  dst.take off ++ (bytes ++ dst.drop (off + bytes.length))

/-- `h2EncodeString`. -/
def h2EncodeString (dst : List UInt8) (off : ℕ) (val : List UInt8) : List UInt8 × ℕ :=
  let (dst, off) := h2EncodeInt dst off val.length 0x7f
  if dst.length < off + val.length then (dst, off)
  else (overwrite dst off val, off + val.length)

section

variable {dst : List UInt8} {off : ℕ}

theorem length_overwrite {bytes : List UInt8} (h : off + bytes.length ≤ dst.length) :
    (overwrite dst off bytes).length = dst.length := by
  rw [overwrite, length_append, length_append, length_take, length_drop]
  omega

theorem overwrite_append {front back : List UInt8} (h : off + front.length ≤ dst.length) :
    overwrite dst off (front ++ back) = overwrite (overwrite dst off front) (off + front.length) back := by
  have hoff : (dst.take off ++ front).length = off + front.length := by
    rw [length_append, length_take_of_le (by omega)]
  unfold overwrite
  rw [← append_assoc _ front (dst.drop _), take_left' hoff, ← @drop_drop _ back.length, drop_left' hoff,
    drop_drop, length_append, Nat.add_assoc, append_assoc, append_assoc]

theorem overwrite_cons (b : UInt8) (bytes : List UInt8) (h : off < dst.length) :
    overwrite dst off (b :: bytes) = overwrite (overwrite dst off [b]) (off + 1) bytes :=
  @overwrite_append dst off [b] bytes h

theorem set_eq_overwrite (b : UInt8) (h : off < dst.length) : dst.set off b = overwrite dst off [b] :=
  set_eq_take_append_cons_drop.trans (if_pos h)

theorem lastByte_eq (n : ℕ) (h : off < dst.length) :
    lastByte dst off n = (overwrite dst off [UInt8.ofNat n], off + 1) := by
  rw [lastByte, if_pos h, set_eq_overwrite _ h]

/-- The loop writes the bytes after the first. -/
theorem encodeLoop_eq {fuel n : ℕ} (h : off + (intTail fuel n).length ≤ dst.length) :
    encodeLoop fuel dst off n = (overwrite dst off (intTail fuel n), off + (intTail fuel n).length) := by
  induction fuel generalizing dst off n with
  | zero => exact lastByte_eq n h
  | succ fuel ih =>
    rw [intTail] at h ⊢
    by_cases hn : n < 128
    · rw [if_pos hn] at h ⊢
      rw [encodeLoop, if_neg (by omega)]
      exact lastByte_eq n h
    · rw [if_neg hn, length_cons] at h
      have hoff : off + 1 ≤ dst.length := by omega
      rw [if_neg hn, encodeLoop, if_pos (by omega), if_neg (by omega), set_eq_overwrite _ hoff,
        ih (by rw [length_overwrite hoff]; omega), ← overwrite_cons _ _ hoff, length_cons, Nat.add_assoc,
        Nat.add_comm 1]

theorem bits_kept (b x mask : UInt8) : ((b &&& ~~~mask) ||| x) &&& mask = x &&& mask := by
  apply UInt8.eq_of_toBitVec_eq
  ext i
  cases h : mask.toBitVec[i] <;> simp [h]

theorem bits_set (b mask : UInt8) : b ||| mask = (b &&& ~~~mask) ||| mask := by
  apply UInt8.eq_of_toBitVec_eq
  ext i
  cases h : mask.toBitVec[i] <;> simp [h]

/-- An integer is written as it is encoded, behind the flags that stand there. -/
theorem h2EncodeInt_eq {n : ℕ} {mask : UInt8} (h : off + (encodeInt 0 mask n).length ≤ dst.length) :
    ∃ b ∈ dst, h2EncodeInt dst off n mask =
      (overwrite dst off (encodeInt (b &&& ~~~mask) mask n),
        off + (encodeInt (b &&& ~~~mask) mask n).length) := by
  have hoff : off < dst.length := by
    have hpos := encodeInt_pos 0 mask n
    omega
  refine ⟨dst.get ⟨off, hoff⟩, get_mem dst _, ?_⟩
  have hmod (f : UInt8 → UInt8) : dst.modify off f = overwrite dst off [f (dst.get ⟨off, hoff⟩)] :=
    modify_eq_take_cons_drop hoff
  unfold h2EncodeInt
  unfold encodeInt at h ⊢
  by_cases hn : n < mask.toNat
  · rw [if_pos hn, if_pos hn, if_neg (by omega), hmod]
    rfl
  · rw [if_neg hn, length_cons] at h
    rw [if_neg hn, if_neg hn, if_neg (by omega), hmod, bits_set,
      encodeLoop_eq (by rw [length_overwrite hoff]; omega), ← overwrite_cons _ _ hoff, length_cons,
      Nat.add_assoc, Nat.add_comm 1]

end

/-- The mask of a prefix of some bits. -/
def prefixMaskOf (bits : ℕ) : UInt8 := UInt8.ofNat (2 ^ bits - 1)

theorem separates_prefixMaskOf {bits : ℕ} (hbits : 1 ≤ bits ∧ bits ≤ 8) (b : UInt8) :
    Separates (b &&& ~~~prefixMaskOf bits) (prefixMaskOf bits) := by
  have hall : ∀ bits ∈ List.range' 1 8, ∀ n < (prefixMaskOf bits).toNat,
      (UInt8.ofNat n &&& prefixMaskOf bits).toNat = n := by
    decide +kernel
  refine ⟨fun n hn => ?_, ?_⟩
  · rw [bits_kept]
    exact hall bits (mem_range'_1.mpr (by omega)) n hn
  · rw [bits_kept, UInt8.and_self]

/-- `h2DecodeInt` reads what `h2EncodeInt` wrote, and `h2DecodeString` what `h2EncodeString` wrote into a
zeroed buffer. -/
theorem codecs_round_trip (dst : List UInt8) (off bits v : ℕ) (val : List UInt8) :
    (1 ≤ bits ∧ bits ≤ 8 → v < 2 ^ 35 + (prefixMaskOf bits).toNat →
      off + (encodeInt 0 (prefixMaskOf bits) v).length ≤ dst.length →
      h2DecodeInt (h2EncodeInt dst off v (prefixMaskOf bits)).1 off (prefixMaskOf bits) =
        .ok (v, (h2EncodeInt dst off v (prefixMaskOf bits)).2)) ∧
    (val.length < 2 ^ 28 → (∀ b ∈ dst, b = 0) → off + (encodeString val).length ≤ dst.length →
      h2DecodeString (h2EncodeString dst off val).1 off = .ok (val, (h2EncodeString dst off val).2)) := by
  have hdrop (bytes : List UInt8) (h : off ≤ dst.length) :
      (overwrite dst off bytes).drop off = bytes ++ dst.drop (off + bytes.length) :=
    drop_left' (length_take_of_le h)
  constructor
  · intro hbits hv hroom
    obtain ⟨b, -, heq⟩ := h2EncodeInt_eq hroom
    rw [heq, h2DecodeInt_encodeInt v (separates_prefixMaskOf hbits b) (hdrop _ (by omega)), if_pos hv]
  · intro hval hzero hroom
    rw [encodeString, length_append] at hroom
    have hint : off + (encodeInt 0 0x7f val.length).length ≤ dst.length := by omega
    obtain ⟨b, hb, heq⟩ := h2EncodeInt_eq hint
    rw [hzero b hb, show (0 : UInt8) &&& ~~~0x7f = 0 from rfl] at heq
    unfold h2EncodeString
    rw [heq]
    dsimp only
    rw [length_overwrite hint, if_neg (by omega), ← overwrite_append hint]
    have hread : readableString val := decide_eq_true (by omega)
    refine (h2DecodeString_encodeString val (hdrop (encodeString val) (by omega))).trans ?_
    rw [if_pos hread, encodeString, length_append, Nat.add_assoc]

/-- A number of three bytes behind one of the buffer, and the text of a method. -/
theorem codecs_round_trip_method :
    h2DecodeInt (h2EncodeInt (replicate 8 0) 1 1337 (prefixMaskOf 5)).1 1 (prefixMaskOf 5) =
        .ok (1337, 4) ∧
      h2DecodeString (h2EncodeString (replicate 8 0) 1 [71, 69, 84]).1 1 = .ok ([71, 69, 84], 5) := by
  obtain ⟨hint, hstring⟩ := codecs_round_trip (replicate 8 0) 1 5 1337 [71, 69, 84]
  exact ⟨hint (by decide) (by decide) (by decide),
    hstring (by decide) (fun _ => eq_of_mem_replicate) (by decide)⟩

end Espx.Ingestion
