import Mathlib.Data.Nat.Digits.Lemmas
import Espx.Domain.Keys
import Espx.Foundation.Json
import Espx.Ingestion.Http1

/-!
# The track request parser

`parseTrackRequestJSON` with `matchTrackKey`, `skipJSONValue` and `ParseUUID`. Every index and slice can
panic. A loop whose condition compares the index with the length is a pass over the rest of the buffer. An
error carries the request as it was filled so far.
-/

namespace Espx.Ingestion

open Espx.Foundation Scan List
open Espx.Domain (UUID uuidNil)

section

/-- `TrackRequest`, as far as the parser fills it. -/
structure TrackRequest where
  campaignID : UUID
  userID : List UInt8
  type : List UInt8
  clickID : List UInt8
  placementID : List UInt8
  payload : List UInt8
  deriving DecidableEq

/-- `resetForParse`: the payload stays. -/
def TrackRequest.resetForParse (v : TrackRequest) : TrackRequest :=
  { v with campaignID := uuidNil, userID := [], type := [], clickID := [], placementID := [] }

/-- `keyID`. -/
inductive KeyID
  | unknown
  | type
  | userID
  | payload
  | clickID
  | campaignID
  | placementID
  deriving DecidableEq

/-- The word that little-endian bytes stand for. -/
def wordOf (bytes : List UInt8) : ℕ := Nat.ofDigits 256 (bytes.map UInt8.toNat)

variable {ε : Type}

/-- `loadU32`: four bytes from the start. -/
def loadU32 (b : List UInt8) : Scan ε ℕ := do return wordOf (← slice b 0 4)

/-- `loadU64`: eight bytes from the start. -/
def loadU64 (b : List UInt8) : Scan ε ℕ := do return wordOf (← slice b 0 8)

/-- The comparisons of single bytes from an offset on, up to the first that fails. -/
def bytesAt (key : List UInt8) : ℕ → List UInt8 → Scan ε Bool
  | _, [] => .ok true
  | off, c :: rest => do
    let b ← index key off
    if b = c then bytesAt key (off + 1) rest else .ok false

/-- `matchTrackKey`. -/
def matchTrackKey (key : List UInt8) : Scan ε KeyID :=
  if key.length = 4 then do
    let word ← loadU32 key
    if word = 0x65707974 then .ok .type else .ok .unknown
  else if key.length = 7 then do
    let word ← loadU32 key
    if word = 0x6c796170 then do
      if ← bytesAt key 4 [111, 97, 100] then .ok .payload else .ok .unknown
    else if word = 0x72657375 then do
      if ← bytesAt key 4 [95, 105, 100] then .ok .userID else .ok .unknown
    else .ok .unknown
  else if key.length = 8 then do
    let word ← loadU64 key
    if word = 0x64695f6b63696c63 then .ok .clickID else .ok .unknown
  else if key.length = 11 then do
    let word ← loadU64 key
    if word = 0x6e676961706d6163 then do
      if ← bytesAt key 8 [95, 105, 100] then .ok .campaignID else .ok .unknown
    else .ok .unknown
  else if key.length = 12 then do
    let word ← loadU64 key
    if word = 0x6e65636d65636170 then do
      if ← bytesAt key 8 [95, 105, 100] then .ok .placementID else .ok .unknown
    else .ok .unknown
  else .ok .unknown

/-- `hexLookup`. -/
def hexLookup (b : UInt8) : UInt8 :=
  if 48 ≤ b ∧ b ≤ 57 then b - 48
  else if 97 ≤ b ∧ b ≤ 102 then b - 97 + 10
  else if 65 ≤ b ∧ b ≤ 70 then b - 65 + 10
  else 0xff

/-- `decode` of `ParseUUID`. -/
def decodeHex (h l : UInt8) : Option UInt8 :=
  if hexLookup h = 0xff ∨ hexLookup l = 0xff then none
  else some ((hexLookup h <<< 4) ||| hexLookup l)

/-- The bytes of an identifier and where its digits stand. -/
def uuidPlaces : List (Fin 16 × ℕ) :=
  [(0, 0), (1, 2), (2, 4), (3, 6), (4, 9), (5, 11), (6, 14), (7, 16), (8, 19), (9, 21), (10, 24),
    (11, 26), (12, 28), (13, 30), (14, 32), (15, 34)]

/-- The decoding steps of `ParseUUID`; an invalid pair leaves a zero behind. -/
def decodeUUID (b : List UInt8) : List (Fin 16 × ℕ) → UUID → Scan UUID UUID
  | [], dst => .ok dst
  | (k, place) :: rest, dst => do
    let h ← index b place
    let l ← index b (place + 1)
    match decodeHex h l with
    | none => .error (dst.set k 0)
    | some byte => decodeUUID b rest (dst.set k byte)

/-- `ParseUUID`: the destination is returned where it succeeds and where it fails. -/
def parseUUID (b : List UInt8) (dst : UUID) : Scan UUID UUID :=
  if h : b.length = 16 then .ok ⟨b.toArray, by simpa using h⟩
  else if b.length ≠ 36 then .error dst
  else do
    let dashes := [← index b 8, ← index b 13, ← index b 18, ← index b 23]
    if dashes.all (· = 45) then decodeUUID b uuidPlaces dst else .error dst

/-- `skipJSONWS`. -/
def skipJSONWS (data : List UInt8) (i : ℕ) : ℕ :=
  i + ((data.drop i).takeWhile Json.isWhitespace).length

/-- The loop over a string from an index on, an escape taking two bytes. -/
def stringLoop : ℕ → List UInt8 → ℕ
  | i, [] => i
  | i, [b] => if b = 34 then i else if b = 92 then i + 2 else i + 1
  | i, b :: c :: rest =>
    if b = 34 then i
    else if b = 92 then stringLoop (i + 2) rest
    else stringLoop (i + 1) (c :: rest)

/-- The loop over a key, which fails at a backslash. -/
def keyLoop (rest : List UInt8) : Option ℕ :=
  let key := rest.takeWhile (· ≠ 34)
  if 92 ∈ key then none else some key.length

/-- `MaxJSONDepth`. -/
def maxJSONDepth : ℕ := 16

/-- The loop over a nested value from an index on, with the depth and whether a string is open. -/
def nestedLoop : ℕ → ℕ → Bool → List UInt8 → Option ℕ
  | i, 0, _, _ => some i
  | _, _ + 1, _, [] => none
  | i, depth + 1, true, [_] => nestedLoop (i + 1) (depth + 1) true []
  | i, depth + 1, true, b :: c :: rest =>
    if b = 34 then nestedLoop (i + 1) (depth + 1) false (c :: rest)
    else if b = 92 then nestedLoop (i + 2) (depth + 1) true rest
    else nestedLoop (i + 1) (depth + 1) true (c :: rest)
  | i, depth + 1, false, b :: rest =>
    if b = 34 then nestedLoop (i + 1) (depth + 1) true rest
    else if b = 123 ∨ b = 91 then
      if maxJSONDepth < depth + 2 then none else nestedLoop (i + 1) (depth + 2) false rest
    else if b = 125 ∨ b = 93 then nestedLoop (i + 1) depth false rest
    else nestedLoop (i + 1) (depth + 1) false rest

/-- `isDelimiter`. -/
def isDelimiter (b : UInt8) : Bool := b = 44 ∨ b = 125 ∨ b = 93 ∨ Json.isWhitespace b

/-- `skipJSONValue`: the index after the value, or the caller's error. -/
def skipJSONValue (fault : ε) (data : List UInt8) (start : ℕ) : Scan ε ℕ :=
  if data.length ≤ start then .error fault
  else do
    let b ← index data start
    if b = 34 then
      let i := stringLoop (start + 1) (data.drop (start + 1))
      if data.length ≤ i then .error fault else .ok (i + 1)
    else if b = 123 ∨ b = 91 then
      match nestedLoop (start + 1) 1 false (data.drop (start + 1)) with
      | none => .error fault
      | some i => .ok i
    else .ok (start + ((data.drop start).takeWhile fun c => ¬ isDelimiter c).length)

/-- A string value: its bytes and the index of its closing quote. -/
def stringValue (fault : ε) (data : List UInt8) (i : ℕ) : Scan ε (List UInt8 × ℕ) := do
  let b ← index data i
  if b ≠ 34 then .error fault
  else
    let stop := stringLoop (i + 1) (data.drop (i + 1))
    if data.length ≤ stop then .error fault
    else return (← slice data ((i + 1 : ℕ) : ℤ) stop, stop)

/-- `switch kid`: fill the field of a key from the value at an index. -/
def parseValue (data : List UInt8) (i : ℕ) (kid : KeyID) (v : TrackRequest) :
    Scan TrackRequest (TrackRequest × ℕ) :=
  match kid with
  | .type => do
    let (text, stop) ← stringValue v data i
    return ({ v with type := text }, stop + 1)
  | .userID => do
    let (text, stop) ← stringValue v data i
    return ({ v with userID := text }, stop + 1)
  | .clickID => do
    let (text, stop) ← stringValue v data i
    return ({ v with clickID := text }, stop + 1)
  | .placementID => do
    let (text, stop) ← stringValue v data i
    return ({ v with placementID := text }, stop + 1)
  | .campaignID => do
    let (text, stop) ← stringValue v data i
    match parseUUID text v.campaignID with
    | .ok id => .ok ({ v with campaignID := id }, stop + 1)
    | .error id => .error { v with campaignID := id }
    | .incomplete => .incomplete
    | .panic => .panic
    | .running => .running
  | .payload => do
    let stop ← skipJSONValue v data i
    return ({ v with payload := ← slice data i stop }, stop)
  | .unknown => do
    let stop ← skipJSONValue v data i
    return (v, stop)

/-- One member, from the index after the opening quote of its key. -/
def parseMember (data : List UInt8) (keyStart : ℕ) (v : TrackRequest) :
    Scan TrackRequest (TrackRequest × ℕ) :=
  match keyLoop (data.drop keyStart) with
  | none => .error v
  | some count =>
    let keyEnd := keyStart + count
    let colon := skipJSONWS data (keyEnd + 1)
    if data.length ≤ keyEnd then .error v
    else if data.length ≤ colon then .error v
    else do
      let b ← index data colon
      let i := skipJSONWS data (colon + 1)
      if b ≠ 58 then .error v
      else if data.length ≤ i then .error v
      else parseValue data i (← matchTrackKey (← slice data keyStart keyEnd)) v

/-- The loop over the members. -/
def parseMembers (data : List UInt8) : ℕ → ℕ → TrackRequest → Scan TrackRequest TrackRequest
  | 0, _, _ => .running
  | fuel + 1, start, v =>
    let i := skipJSONWS data start
    if data.length ≤ start then .error v
    else if data.length ≤ i then .error v
    else do
      let b ← index data i
      if b = 125 then .ok v
      else if b ≠ 34 then .error v
      else do
        let (v, stop) ← parseMember data (i + 1) v
        let i := skipJSONWS data stop
        if data.length ≤ i then .error v
        else do
          let c ← index data i
          if c = 44 then parseMembers data fuel (i + 1) v
          else if c = 125 then .ok v
          else .error v

/-- `parseTrackRequestJSON`; `fuel` bounds the passes of its loop. -/
def parseTrackRequestJSON (fuel : ℕ) (v : TrackRequest) (data : List UInt8) :
    Scan TrackRequest TrackRequest :=
  let v := v.resetForParse
  let i := skipJSONWS data 0
  if data.length = 0 then .error v
  else if data.length ≤ i then .error v
  else do
    let b ← index data i
    if b ≠ 123 then .error v else parseMembers data fuel (i + 1) v

/-- The field that a key selects. -/
def trackKey (key : List UInt8) : KeyID :=
  if key = bytesOf "type" then .type
  else if key = bytesOf "user_id" then .userID
  else if key = bytesOf "payload" then .payload
  else if key = bytesOf "click_id" then .clickID
  else if key = bytesOf "campaign_id" then .campaignID
  else if key.length = 12 ∧ key.take 11 = bytesOf "pacemcen_id" then .placementID
  else .unknown

theorem wordOf_inj {a b : List UInt8} (h : a.length = b.length) : wordOf a = wordOf b ↔ a = b := by
  have hdigit (l : List UInt8) : ∀ d ∈ l.map UInt8.toNat, d < 256 := by
    intro d hd
    obtain ⟨byte, -, rfl⟩ := mem_map.mp hd
    exact byte.toNat_lt
  refine ⟨fun hword => ?_, fun heq => heq ▸ rfl⟩
  have hmap := Nat.ofDigits_inj_of_len_eq (b := 256) (by decide)
    (by simpa using h) (hdigit a) (hdigit b) hword
  exact map_injective_iff.mpr (fun x y hxy => UInt8.toNat_inj.mp hxy) hmap

variable {key : List UInt8}

/-- The bytes from an offset on are compared one by one. -/
theorem bytesAt_eq {off : ℕ} {text : List UInt8} (h : off + text.length ≤ key.length) :
    (bytesAt key off text : Scan ε Bool) = .ok ((key.drop off).take text.length = text) := by
  induction text generalizing off with
  | nil => simp [bytesAt]
  | cons c rest ih =>
    rw [length_cons] at h
    have hlt : off < key.length := by omega
    have hdrop : key.drop off = key[off] :: key.drop (off + 1) := (getElem_cons_drop hlt).symm
    rw [bytesAt, index_of_drop hdrop, ok_bind, ih (by omega), hdrop, length_cons, take_succ_cons]
    by_cases hc : key[off] = c
    · simp [hc]
    · simp [hc]

theorem load_eq (size : ℕ) (h : size ≤ key.length) :
    (do return wordOf (← slice key 0 size) : Scan ε ℕ) = .ok (wordOf (key.take size)) := by
  have hslice : (slice key 0 size : Scan ε (List UInt8)) = .ok (key.take size) := by
    unfold slice
    rw [if_pos (by omega)]
    simp
  rw [hslice]
  rfl

theorem word_eq_iff (key : List UInt8) {text : List UInt8} {word size : ℕ} (hword : wordOf text = word)
    (hsize : text.length = size) (h : size ≤ key.length) :
    wordOf (key.take size) = word ↔ key.take size = text := by
  rw [← hword]
  exact wordOf_inj (by rw [length_take, Nat.min_eq_left h, hsize])

theorem take_eq_iff {key name : List UInt8} {total : ℕ} (size : ℕ) (hsize : size ≤ total) :
    key.take total = name ↔
      key.take size = name.take size ∧ (key.drop size).take (total - size) = name.drop size := by
  constructor
  · rintro rfl
    rw [take_take, Nat.min_eq_left hsize, drop_take]
    exact ⟨rfl, rfl⟩
  · rintro ⟨hfirst, hsnd⟩
    rw [← take_append_drop size (key.take total), take_take, Nat.min_eq_left hsize,
      drop_take, hfirst, hsnd, take_append_drop]

/-- A key is compared with a name: its first bytes as a word, the others one by one. -/
theorem matchTrackKey_name (name : List UInt8) {second : List UInt8} {size word : ℕ} (total : ℕ)
    (kid : KeyID) (hparts : wordOf (name.take size) = word ∧ (name.take size).length = size ∧
      name.drop size = second ∧ size + second.length = total) (h : total ≤ key.length) :
    (if wordOf (key.take size) = word then do
        if ← bytesAt key size second then .ok kid else .ok .unknown
      else .ok .unknown : Scan ε KeyID) = .ok (if key.take total = name then kid else .unknown) := by
  obtain ⟨hword, hsize, hsnd, htotal⟩ := hparts
  have hiff := word_eq_iff key hword hsize (by omega)
  have hname : key.take total = name ↔
      key.take size = name.take size ∧ (key.drop size).take second.length = second := by
    rw [take_eq_iff size (by omega), ← htotal, Nat.add_sub_cancel_left, hsnd]
  by_cases hfirst : key.take size = name.take size
  · rw [and_iff_right hfirst] at hname
    rw [if_pos (hiff.mpr hfirst), bytesAt_eq (by omega), ok_bind]
    by_cases hrest : (key.drop size).take second.length = second
    · simp [hrest, hname.mpr hrest]
    · simp [hrest, mt hname.mp hrest]
  · rw [if_neg (mt hiff.mp hfirst), if_neg fun heq => hfirst (hname.mp heq).1]

/-- `matchTrackKey` knows five of the six names; the sixth word was packed from other letters. -/
theorem matchTrackKey_eq (key : List UInt8) :
    (matchTrackKey key : Scan ε KeyID) = .ok (trackKey key) := by
  by_cases htype : key = bytesOf "type"
  · subst htype
    rfl
  by_cases huser : key = bytesOf "user_id"
  · subst huser
    rfl
  by_cases hbody : key = bytesOf "payload"
  · subst hbody
    rfl
  by_cases hclick : key = bytesOf "click_id"
  · subst hclick
    rfl
  by_cases hcamp : key = bytesOf "campaign_id"
  · subst hcamp
    rfl
  have hload4 (h : 4 ≤ key.length) : (loadU32 key : Scan ε ℕ) = .ok (wordOf (key.take 4)) := load_eq 4 h
  have hload8 (h : 8 ≤ key.length) : (loadU64 key : Scan ε ℕ) = .ok (wordOf (key.take 8)) := load_eq 8 h
  have hall {size : ℕ} {name : List UInt8} (h : key.length = size) (hne : key ≠ name) :
      key.take size ≠ name := by
    rwa [take_of_length_le h.le]
  unfold matchTrackKey trackKey
  split
  next h =>
    have hword := word_eq_iff key (show wordOf (bytesOf "type") = 0x65707974 by decide)
      (show _ = 4 by decide) h.ge
    rw [hload4 h.ge, ok_bind, if_neg (mt hword.mp (hall h htype)), if_neg (by omega)]
  split
  next h =>
    rw [hload4 (by omega), ok_bind,
      matchTrackKey_name (bytesOf "user_id") 7 .userID (by decide) h.ge, if_neg (hall h huser),
      matchTrackKey_name (bytesOf "payload") 7 .payload (by decide) h.ge,
      if_neg (hall h hbody), if_neg (by omega)]
  split
  next h =>
    have hword := word_eq_iff key (show wordOf (bytesOf "click_id") = 0x64695f6b63696c63 by decide)
      (show _ = 8 by decide) h.ge
    rw [hload8 h.ge, ok_bind, if_neg (mt hword.mp (hall h hclick)), if_neg (by omega)]
  split
  next h =>
    rw [hload8 (by omega), ok_bind,
      matchTrackKey_name (bytesOf "campaign_id") 11 .campaignID (by decide) h.ge,
      if_neg (hall h hcamp), if_neg (by omega)]
  split
  next h =>
    rw [hload8 (by omega), ok_bind,
      matchTrackKey_name (bytesOf "pacemcen_id") 11 .placementID (by decide) (by omega)]
    simp [h]
  next h => rw [if_neg fun hkey => h hkey.1]

theorem le_skipJSONWS (data : List UInt8) (i : ℕ) : i ≤ skipJSONWS data i := Nat.le_add_right _ _

/-- A key ends inside the buffer. -/
theorem keyLoop_le {rest : List UInt8} {count : ℕ} (h : keyLoop rest = some count) :
    count ≤ rest.length := by
  simp only [keyLoop] at h
  split at h
  · cases h
  · obtain rfl := Option.some.inj h
    have htaken := takeWhile_prefix (l := rest) fun x => decide (x ≠ 34)
    exact htaken.length_le

theorem le_stringLoop (i : ℕ) (rest : List UInt8) : i ≤ stringLoop i rest := by
  fun_induction stringLoop i rest <;> omega

/-- A nested value ends inside the buffer. -/
theorem nestedLoop_le {i depth stop : ℕ} {inString : Bool} {rest : List UInt8}
    (h : nestedLoop i depth inString rest = some stop) : i ≤ stop ∧ stop ≤ i + rest.length := by
  fun_induction nestedLoop i depth inString rest with
  | case1 =>
    obtain rfl := Option.some.inj h
    exact ⟨Nat.le_refl _, Nat.le_add_right _ _⟩
  | case2 | case8 => cases h
  | case3 => simp [nestedLoop] at h
  | _ =>
    rename_i ih
    have := ih h
    simp only [length_cons] at this ⊢
    omega

variable {E : ε → Prop} {fault : ε} {data : List UInt8} {i : ℕ}

/-- A key is matched inside its bytes. -/
theorem matchTrackKey_ends (key : List UInt8) :
    Scan.Ends False True E (fun _ => True) (matchTrackKey key : Scan ε KeyID) := by
  rw [matchTrackKey_eq]
  exact .ok trivial

/-- An identifier is decoded inside its text. -/
theorem decodeUUID_ends {b : List UInt8} {places : List (Fin 16 × ℕ)} {dst : UUID}
    (h : ∀ entry ∈ places, entry.2 + 1 < b.length) :
    Scan.Ends False True (fun _ => True) (fun _ => True) (decodeUUID b places dst) := by
  induction places generalizing dst with
  | nil => exact .ok trivial
  | cons entry rest ih =>
    have hentry := h entry mem_cons_self
    refine Scan.Ends.bind (Scan.Ends.index (by omega) (by omega)) fun high _ => ?_
    refine Scan.Ends.bind (Scan.Ends.index (by omega) (by omega)) fun low _ => ?_
    cases decodeHex high low with
    | none => exact .error trivial
    | some byte => exact ih fun entry hmem => h entry (mem_cons_of_mem _ hmem)

/-- `ParseUUID` does not index outside its text. -/
theorem parseUUID_ends (b : List UInt8) (dst : UUID) :
    Scan.Ends False True (fun _ => True) (fun _ => True) (parseUUID b dst) := by
  unfold parseUUID
  split
  · exact .ok trivial
  split
  · exact .error trivial
  rename_i hlen
  have hplace : ∀ entry ∈ uuidPlaces, entry.2 + 1 < b.length := by
    rw [not_not.mp hlen]
    decide
  refine Scan.Ends.bind (Scan.Ends.index (by omega) (by omega)) fun first _ => ?_
  refine Scan.Ends.bind (Scan.Ends.index (by omega) (by omega)) fun second _ => ?_
  refine Scan.Ends.bind (Scan.Ends.index (by omega) (by omega)) fun third _ => ?_
  refine Scan.Ends.bind (Scan.Ends.index (by omega) (by omega)) fun fourth _ => ?_
  dsimp only
  split
  · exact decodeUUID_ends hplace
  · exact .error trivial

/-- A value is skipped inside the buffer. -/
theorem skipJSONValue_ends (hfault : E fault) :
    Scan.Ends False True E (fun stop => i ≤ stop ∧ stop ≤ data.length) (skipJSONValue fault data i) := by
  unfold skipJSONValue
  split
  · exact .error hfault
  have hdrop : (data.drop (i + 1)).length = data.length - (i + 1) := length_drop
  refine Scan.Ends.bind (Scan.Ends.index (by omega) (by omega)) fun b _ => ?_
  dsimp only
  split
  · have hle := le_stringLoop (i + 1) (data.drop (i + 1))
    split
    · exact .error hfault
    · refine .ok ⟨?_, ?_⟩ <;> omega
  split
  · split
    · exact .error hfault
    rename_i stop hstop
    have hle := nestedLoop_le hstop
    exact .ok ⟨by omega, by omega⟩
  · have htaken := takeWhile_prefix (l := data.drop i) fun c => ¬ isDelimiter c
    have hle := htaken.length_le
    rw [length_drop] at hle
    exact .ok ⟨by omega, by omega⟩

theorem part_within (data : List UInt8) (low count : ℕ) : (data.drop low).take count <:+: data := by
  have htake := take_prefix count (data.drop low)
  exact htake.isInfix.trans (drop_suffix _ _).isInfix

/-- The bytes of a string value are a sub-range of the buffer. -/
theorem stringValue_ends (hfault : E fault) (h : i < data.length) :
    Scan.Ends False True E (fun out => out.1 <:+: data ∧ i < out.2 ∧ out.2 < data.length)
      (stringValue fault data i) := by
  refine Scan.Ends.bind (Scan.Ends.index (by omega) (by omega)) fun b _ => ?_
  dsimp only
  split
  · exact .error hfault
  split
  · exact .error hfault
  have hle := le_stringLoop (i + 1) (data.drop (i + 1))
  refine Scan.Ends.bind (Scan.Ends.slice (by omega) (by omega) (by omega)) ?_
  rintro _ rfl
  refine .ok ⟨part_within _ _ _, ?_, ?_⟩ <;>
    dsimp only <;> omega

/-- The identifiers that calls of `ParseUUID` on sub-ranges of the buffer leave behind. -/
inductive CampaignWritten (data : List UInt8) : UUID → Prop
  | reset : CampaignWritten data uuidNil
  | parsed {text : List UInt8} {dst id : UUID} (hdst : CampaignWritten data dst)
      (htext : text <:+: data) (hid : parseUUID text dst = .ok id ∨ parseUUID text dst = .error id) :
      CampaignWritten data id

/-- Every field is empty, as it was, or written from sub-ranges of the buffer. -/
structure TrackRequest.Within (data payload : List UInt8) (v : TrackRequest) : Prop where
  campaignID : CampaignWritten data v.campaignID
  userID : v.userID <:+: data
  type : v.type <:+: data
  clickID : v.clickID <:+: data
  placementID : v.placementID <:+: data
  payload : v.payload = payload ∨ v.payload <:+: data

variable {payload : List UInt8} {v : TrackRequest}

/-- A value is written from a sub-range of the buffer. -/
theorem parseValue_ends (kid : KeyID) (hv : v.Within data payload) (h : i < data.length) :
    Scan.Ends False True (TrackRequest.Within data payload)
      (fun out => out.1.Within data payload ∧ i ≤ out.2 ∧ out.2 ≤ data.length)
      (parseValue data i kid v) := by
  have hstr := stringValue_ends (i := i) hv h
  have hskip : Scan.Ends False True (TrackRequest.Within data payload)
      (fun stop => i ≤ stop ∧ stop ≤ data.length) (skipJSONValue v data i) := skipJSONValue_ends hv
  cases kid with
  | type =>
    refine hstr.bind fun out ⟨hin, _, _⟩ => ?_
    exact .ok ⟨{ hv with type := hin }, by omega, by omega⟩
  | userID =>
    refine hstr.bind fun out ⟨hin, _, _⟩ => ?_
    exact .ok ⟨{ hv with userID := hin }, by omega, by omega⟩
  | clickID =>
    refine hstr.bind fun out ⟨hin, _, _⟩ => ?_
    exact .ok ⟨{ hv with clickID := hin }, by omega, by omega⟩
  | placementID =>
    refine hstr.bind fun out ⟨hin, _, _⟩ => ?_
    exact .ok ⟨{ hv with placementID := hin }, by omega, by omega⟩
  | campaignID =>
    refine hstr.bind fun out ⟨hin, hlow, hhigh⟩ => ?_
    dsimp only
    rcases (parseUUID_ends out.1 v.campaignID).cases trivial with ⟨id, hid, -⟩ | ⟨id, hid, -⟩
    · rw [hid]
      exact .ok ⟨{ hv with campaignID := .parsed hv.campaignID hin (.inl hid) }, by omega, by omega⟩
    · rw [hid]
      exact .error { hv with campaignID := .parsed hv.campaignID hin (.inr hid) }
  | payload =>
    refine hskip.bind fun stop ⟨hle, hhigh⟩ =>
      (Scan.Ends.slice (by omega) (by omega) (by omega)).bind ?_
    rintro _ rfl
    exact .ok ⟨{ hv with payload := .inr (part_within _ _ _) }, hle, hhigh⟩
  | unknown => exact hskip.bind fun stop hstop => .ok ⟨hv, hstop⟩

/-- A member is read inside the buffer and takes at least one byte. -/
theorem parseMember_ends (hv : v.Within data payload) :
    Scan.Ends False True (TrackRequest.Within data payload)
      (fun out => out.1.Within data payload ∧ i < out.2 ∧ out.2 ≤ data.length)
      (parseMember data i v) := by
  unfold parseMember
  split
  · exact .error hv
  rename_i count hcount
  have hkey := keyLoop_le hcount
  have hcolon := le_skipJSONWS data (i + count + 1)
  have hvalue := le_skipJSONWS data (skipJSONWS data (i + count + 1) + 1)
  dsimp only
  split
  · exact .error hv
  split
  · exact .error hv
  refine Scan.Ends.bind (Scan.Ends.index (by omega) (by omega)) fun b _ => ?_
  split
  · exact .error hv
  split
  · exact .error hv
  refine Scan.Ends.bind (Scan.Ends.slice (by omega) (by omega) (by omega)) fun key _ => ?_
  refine Scan.Ends.bind (matchTrackKey_ends key) fun kid _ => ?_
  exact (parseValue_ends kid hv (by omega)).imp id fun out ⟨hwithin, hlow, hhigh⟩ =>
    ⟨hwithin, by omega, hhigh⟩

/-- The loop over the members ends, since every pass takes at least one byte. -/
theorem parseMembers_ends {fuel : ℕ} (hv : v.Within data payload) (h : i ≤ data.length) :
    Scan.Ends False (data.length < fuel + i) (TrackRequest.Within data payload)
      (TrackRequest.Within data payload) (parseMembers data fuel i v) := by
  induction fuel generalizing i v with
  | zero => exact .running (by omega)
  | succ fuel ih =>
    have hstart := le_skipJSONWS data i
    unfold parseMembers
    dsimp only
    split
    · exact .error hv
    split
    · exact .error hv
    refine Scan.Ends.bind (Scan.Ends.index (by omega) (by omega)) fun b _ => ?_
    split
    · exact .ok hv
    split
    · exact .error hv
    have hmem := (parseMember_ends (i := skipJSONWS data i + 1) hv).cases trivial
    rcases hmem with ⟨⟨w, stop⟩, hout, hw, hlow, -⟩ | ⟨w, hout, hw⟩
    · have hstop := le_skipJSONWS data stop
      rw [hout, ok_bind]
      dsimp only at hlow ⊢
      split
      · exact .error hw
      refine Scan.Ends.bind (Scan.Ends.index (by omega) (by omega)) fun c _ => ?_
      split
      · have hrest := ih (i := skipJSONWS data stop + 1) hw (by omega)
        exact hrest.imp (by omega) fun _ => id
      split
      · exact .ok hw
      · exact .error hw
    · rw [hout]
      exact .error hw

/-- On every buffer the parser ends without indexing outside it, and what it wrote are sub-ranges. -/
theorem parseTrackRequestJSON_ends (fuel : ℕ) (v : TrackRequest) (data : List UInt8)
    (hfuel : data.length < fuel) :
    Scan.Ends False True (TrackRequest.Within data v.payload) (TrackRequest.Within data v.payload)
      (parseTrackRequestJSON fuel v data) := by
  have hv : v.resetForParse.Within data v.payload :=
    ⟨.reset, nil_infix, nil_infix, nil_infix, nil_infix, .inl rfl⟩
  unfold parseTrackRequestJSON
  dsimp only
  split
  · exact .error hv
  split
  · exact .error hv
  refine Scan.Ends.bind (Scan.Ends.index (by omega) (by omega)) fun b _ => ?_
  split
  · exact .error hv
  · exact (parseMembers_ends hv (by omega)).imp (by omega) fun _ => id

end

end Espx.Ingestion
