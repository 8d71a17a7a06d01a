import Espx.Foundation.Json
import Espx.Ingestion.Http1

/-!
# The campaign scanner at the edge

`edge-parse-dfa.lua` as far as JSON bodies of the native schema go; the scanners of the other two formats
are parameters. A position is the rest of the body up to the scan limit; the bytes beyond the limit, which
a few reads can reach, are kept apart.
-/

namespace Espx.Edge

open Espx.Foundation List
open Espx.Ingestion (bytesOf)

/-- The errors of the scanner. -/
inductive ScanError
  | oversize
  | malformed
  deriving DecidableEq

/-- What the scanner returns. -/
abbrev Found := Scan ScanError (Option (List UInt8))

/-- `MAX_BODY_BYTES`. -/
def maxBodyBytes : ℕ := 1048576

/-- `MAX_SCAN_BYTES`. -/
def maxScanBytes : ℕ := 8192

/-- `MAX_CAMPAIGN_LEN`. -/
def maxCampaignLen : ℕ := 64

/-- The loops over whitespace. -/
def skipWs (rest : List UInt8) : List UInt8 := rest.dropWhile Json.isWhitespace

/-- The loop over a string, after its opening quote. -/
def skipString : List UInt8 → Scan ScanError (List UInt8)
  | [] => .error .malformed
  | [c] => if c = 34 then .ok [] else .error .malformed
  | c :: d :: rest =>
    if c = 34 then .ok (d :: rest)
    else if c = 92 then skipString rest
    else skipString (d :: rest)

/-- A literal name. -/
def skipWord (word rest beyond : List UInt8) : Scan ScanError (List UInt8) :=
  if (rest ++ beyond).take word.length = word then .ok (rest.drop word.length) else .error .malformed

mutual

/-- `skip_json_value`: what is left after a value. -/
def skipJsonValue (beyond : List UInt8) : ℕ → List UInt8 → Scan ScanError (List UInt8)
  | 0, _ => .running
  | fuel + 1, rest =>
    match (rest ++ beyond).head? with
    | none => .error .malformed
    | some b =>
      if b = 34 then skipString (rest.drop 1)
      else if b = 123 then skipMembers beyond fuel (rest.drop 1)
      else if b = 91 then skipItems beyond fuel (rest.drop 1)
      else if (48 ≤ b ∧ b ≤ 57) ∨ b = 45 then .ok ((rest.drop 1).dropWhile Json.isNumeric)
      else if b = 116 then skipWord [116, 114, 117, 101] rest beyond
      else if b = 102 then skipWord [102, 97, 108, 115, 101] rest beyond
      else if b = 110 then skipWord [110, 117, 108, 108] rest beyond
      else .error .malformed

/-- The loop over the members of an object. A key ends at the first quote, and the value is expected
right after the colon. -/
def skipMembers (beyond : List UInt8) : ℕ → List UInt8 → Scan ScanError (List UInt8)
  | 0, _ => .running
  | fuel + 1, rest =>
    match skipWs rest with
    | [] => .error .malformed
    | b :: rest =>
      if b = 125 then .ok rest
      else if b ≠ 34 then .error .malformed
      else
        match rest.dropWhile (· ≠ 34) with
        | [] => .error .malformed
        | _ :: rest =>
          match skipWs rest with
          | [] => .error .malformed
          | c :: rest =>
            if c ≠ 58 then .error .malformed
            else do
              let rest ← skipJsonValue beyond fuel rest
              match skipWs rest with
              | [] => .error .malformed
              | sep :: rest =>
                if sep = 125 then .ok rest
                else if sep ≠ 44 then .error .malformed
                else skipMembers beyond fuel rest

/-- The loop over the items of an array. -/
def skipItems (beyond : List UInt8) : ℕ → List UInt8 → Scan ScanError (List UInt8)
  | 0, _ => .running
  | fuel + 1, rest =>
    match skipWs rest with
    | [] => .error .malformed
    | b :: more =>
      if b = 93 then .ok more
      else do
        let rest ← skipJsonValue beyond fuel (b :: more)
        match skipWs rest with
        | [] => .error .malformed
        | sep :: rest =>
          if sep = 93 then .ok rest
          else if sep ≠ 44 then .error .malformed
          else skipItems beyond fuel rest

end

/-- The checks of `read_json_string` at the closing quote. -/
def checkString (raw rest : List UInt8) : Scan ScanError (List UInt8 × List UInt8) :=
  if maxCampaignLen < raw.length then .error .oversize
  else if 0 ∈ raw then .error .malformed
  else .ok (raw, rest)

/-- The loop of `read_json_string`, with the bytes since the opening quote. -/
def readString : List UInt8 → List UInt8 → Scan ScanError (List UInt8 × List UInt8)
  | _, [] => .error .malformed
  | raw, [c] => if c = 34 then checkString raw [] else .error .malformed
  | raw, c :: d :: rest =>
    if c = 34 then checkString raw (d :: rest)
    else if c = 0 then .error .malformed
    else if c = 92 then readString (raw ++ [c, d]) rest
    else readString (raw ++ [c]) (d :: rest)

/-- `read_json_string`, at a position up to the limit. -/
def readJsonString : List UInt8 → Scan ScanError (List UInt8 × List UInt8)
  | [] => .error .malformed
  | b :: rest => if b ≠ 34 then .error .malformed else readString [] rest

/-- The keys that `json_key_id` knows. -/
inductive JsonKey
  | campaignId
  | item
  | id
  deriving DecidableEq

/-- `json_key_id`. -/
def jsonKeyId (key : List UInt8) : Option JsonKey :=
  if 92 ∈ key then none
  else if key.length = 11 ∧ key.take 8 = bytesOf "campaign" ∧ (key.drop 8).take 3 = bytesOf "_id" then
    some .campaignId
  else if key.length = 4 ∧ key = bytesOf "item" then some .item
  else if key.length = 2 ∧ key = bytesOf "id" then some .id
  else none

/-- The value of a member of the body: the campaign is read, everything else is skipped. -/
def scanValue (beyond : List UInt8) (fuel : ℕ) (key rest : List UInt8) (lastCid : Option (List UInt8)) :
    Scan ScanError (Option (List UInt8) × List UInt8) :=
  if jsonKeyId key = some .campaignId then do
    let (raw, rest) ← readJsonString rest
    return (some raw, rest)
  else do
    let rest ← skipJsonValue beyond fuel rest
    return (lastCid, rest)

/-- The loop of `scan_json_dfa` over the members of the body. -/
def scanMembers (beyond : List UInt8) : ℕ → Option (List UInt8) → List UInt8 → Found
  | 0, _, _ => .running
  | fuel + 1, lastCid, rest =>
    match skipWs rest with
    | [] => .error .malformed
    | b :: rest =>
      if b = 125 then .ok lastCid
      else if b ≠ 34 then .error .malformed
      else if 92 ∈ rest.takeWhile (· ≠ 34) then .error .malformed
      else
        match rest.dropWhile (· ≠ 34) with
        | [] => .error .malformed
        | _ :: after =>
          match skipWs after with
          | [] => .error .malformed
          | c :: after =>
            if c ≠ 58 then .error .malformed
            else if skipWs after = [] then .error .malformed
            else do
              let (lastCid, rest) ← scanValue beyond fuel (rest.takeWhile (· ≠ 34)) (skipWs after) lastCid
              match skipWs rest with
              | [] => .error .malformed
              | sep :: rest =>
                if sep = 125 then .ok lastCid
                else if sep ≠ 44 then .error .malformed
                else scanMembers beyond fuel lastCid rest

/-- `scan_json_dfa`. -/
def scanJsonDfa (beyond : List UInt8) (fuel : ℕ) (rest : List UInt8) : Found :=
  match skipWs rest with
  | [] => .error .malformed
  | b :: rest => if b ≠ 123 then .error .malformed else scanMembers beyond fuel none rest

/-- `scan_limit_for`. -/
def scanLimitFor (bodyLen : ℕ) (contentLength : Option ℕ) : ℕ :=
  let limit :=
    match contentLength with
    | none => bodyLen
    | some length => if 0 < length ∧ length < bodyLen then length else bodyLen
  if maxScanBytes < limit then maxScanBytes else limit

/-- The scanners of the other two formats, given the body and the limit. -/
structure OtherScanners where
  protoDfa : List UInt8 → ℕ → Found
  openrtbDfa : List UInt8 → ℕ → Found

/-- `extract_campaign_id`; `env` is the environment's schema, and `fuel` bounds the loops. -/
def extractCampaignId (others : OtherScanners) (env : Option String) (fuel : ℕ) (body : List UInt8)
    (contentLength : Option ℕ) (schema : String) : Found :=
  if ∃ length ∈ contentLength, maxBodyBytes < length then .error .oversize
  else if body = [] then .ok none
  else if maxBodyBytes < body.length then .error .oversize
  else
    let limit := scanLimitFor body.length contentLength
    if limit = 0 then .ok none
    else
      let schema := if schema = "" then env.getD "espx_native" else schema
      let first := (skipWs (body.take limit) ++ body.drop limit).head?
      if first = some 123 then
        if schema = "openrtb_3" then others.openrtbDfa body limit
        else scanJsonDfa (body.drop limit) fuel (body.take limit)
      else if schema = "openrtb_3" then .error .malformed
      else others.protoDfa body limit

section

open Json

mutual

/-- No colon inside the value is followed by whitespace. -/
def tight : Value → Bool
  | .array items => tightItems items
  | .object members => tightMembers members
  | _ => true

/-- No colon inside the items is followed by whitespace. -/
def tightItems : Items → Bool
  | .last _ value _ => tight value
  | .cons _ value _ rest => tight value && tightItems rest

/-- No colon of these members, or inside them, is followed by whitespace. -/
def tightMembers : Members → Bool
  | .last _ gap value _ => gap.text.isEmpty && tight value
  | .cons _ gap value _ rest => (gap.text.isEmpty && tight value) && tightMembers rest

end

mutual

/-- No key inside the value has an escaped quote. -/
def plainKeys : Value → Prop
  | .array items => plainKeysItems items
  | .object members => plainKeysMembers members
  | _ => True

/-- No key inside the items has an escaped quote. -/
def plainKeysItems : Items → Prop
  | .last _ value _ => plainKeys value
  | .cons _ value _ rest => plainKeys value ∧ plainKeysItems rest

/-- No key of these members, or inside them, has an escaped quote. -/
def plainKeysMembers : Members → Prop
  | .last name _ value _ => 34 ∉ renderChars name.chars ∧ plainKeys value
  | .cons name _ value _ rest =>
    (34 ∉ renderChars name.chars ∧ plainKeys value) ∧ plainKeysMembers rest

end

/-- A string is passed up to its closing quote. -/
theorem skipString_chars (chars : List Character) (rest : List UInt8) :
    skipString (renderChars chars ++ 34 :: rest) = .ok rest := by
  have hpass := @scan_chars _ (fun _ => skipString) _ (cons_ne_nil 34 rest)
    (fun {b rest} hb _ hne _ => by
      cases rest with
      | nil => contradiction
      | cons c rest => simp [skipString, hb.1, hb.2])
    (fun b _ _ _ => by simp [skipString]) chars []
  refine hpass.trans ?_
  cases rest <;> simp [skipString]

/-- A text that begins with no byte of a number. -/
def NotNumeric (rest : List UInt8) : Prop := ∀ b ∈ rest.head?, isNumeric b = false

variable {b : UInt8}

theorem skipJsonValue_blank (hb : isWhitespace b = true) (fuel : ℕ) (rest : List UInt8) :
    skipJsonValue [] (fuel + 1) (b :: rest) = .error .malformed := by
  simp only [isWhitespace, decide_eq_true_eq] at hb
  rcases hb with rfl | rfl | rfl | rfl <;> simp [skipJsonValue]

/-- Scalars are skipped. -/
theorem skipJsonValue_number (n : Number) (fuel : ℕ) {rest : List UInt8} (hrest : NotNumeric rest) :
    skipJsonValue [] (fuel + 1) (n.render ++ rest) = .ok rest := by
  obtain ⟨first, digits, heq, hfirst, hdig⟩ := n.render_cases
  have hstart : (48 ≤ first ∧ first ≤ 57) ∨ first = 45 := by simpa [isDigit] using hfirst
  have hne {b : UInt8} (hb : isDigit b = false ∧ b ≠ 45) : first ≠ b := by
    rintro rfl
    rcases hfirst with h | h
    · rw [hb.1] at h
      cases h
    · exact hb.2 h
  rw [heq, skipJsonValue]
  simp only [append_nil, cons_append, head?_cons, drop_succ_cons, drop_zero]
  rw [if_neg (hne (by decide)), if_neg (hne (by decide)), if_neg (hne (by decide)), if_pos hstart,
    (span_append hdig hrest).2]

theorem skipJsonValue_word (w : Word) (fuel : ℕ) (rest : List UInt8) :
    skipJsonValue [] (fuel + 1) (w.render ++ rest) = .ok rest := by
  cases w <;> simp [skipJsonValue, Word.render, skipWord]

/-- A key without an escaped quote ends at its closing quote. -/
theorem dropWhile_key {chars : List Character} (h : 34 ∉ renderChars chars) (rest : List UInt8) :
    (renderChars chars ++ 34 :: rest).dropWhile (· ≠ 34) = 34 :: rest := by
  have hkey : ∀ b ∈ renderChars chars, decide (b ≠ 34) = true := by
    intro b hb
    exact decide_eq_true fun heq => h (heq ▸ hb)
  rw [dropWhile_append_of_pos hkey, dropWhile_cons_of_neg (by decide)]

theorem NotNumeric.blank (pad : Blank) (hb : isNumeric b = false) (rest : List UInt8) :
    NotNumeric (pad.text ++ b :: rest) := by
  refine pad.forall_head (fun c hblank => ?_) hb rest
  simp only [isWhitespace, decide_eq_true_eq] at hblank
  rcases hblank with rfl | rfl | rfl | rfl <;> decide

/-- What the scanner does with a value. -/
def Skips (fuel : ℕ) (value : Value) (rest : List UInt8) : Prop :=
  skipJsonValue [] fuel (value.render ++ rest) = if tight value then .ok rest else .error .malformed

/-- One pass of the loop over the members. -/
theorem skipMembers_member (name : Name) (gap : Blank) (value : Value) (after : Blank)
    (hb : b = 44 ∨ b = 125) (hname : 34 ∉ renderChars name.chars) {fuel : ℕ} (rest : List UInt8)
    (hvalue : Skips (fuel + 1) value (after.text ++ b :: rest)) :
    skipMembers [] (fuel + 2) (name.render ++ 58 :: gap.text ++ value.render ++ after.text ++ b :: rest) =
      if gap.text.isEmpty && tight value then
        if b = 125 then .ok rest else skipMembers [] (fuel + 1) rest
      else .error .malformed := by
  have hend : NotBlank (b :: rest) := .cons (by rcases hb with rfl | rfl <;> decide) rest
  rw [member_append, skipMembers, skipWs, name.before.dropWhile_append (.cons (by decide) _)]
  dsimp only
  rw [if_neg (by decide), if_neg (by decide), dropWhile_key hname]
  dsimp only
  rw [skipWs, name.after.dropWhile_append (.cons (by decide) _)]
  dsimp only
  rw [if_neg (by decide)]
  cases hgap : gap.text with
  | cons first more =>
    have hblank := gap.whitespace first (hgap ▸ mem_cons_self)
    rw [cons_append, skipJsonValue_blank hblank]
    rfl
  | nil =>
    rw [nil_append, hvalue]
    cases tight value with
    | false => rfl
    | true =>
      simp only [if_true, Scan.ok_bind, isEmpty_nil, Bool.and_self]
      rw [skipWs, after.dropWhile_append hend]
      rcases hb with rfl | rfl
      · simp
      · simp

/-- One pass of the loop over the items. -/
theorem skipItems_item (before : Blank) (value : Value) (after : Blank)
    (hb : b = 44 ∨ b = 93) {fuel : ℕ} (rest : List UInt8)
    (hvalue : Skips fuel value (after.text ++ b :: rest)) :
    skipItems [] (fuel + 1) (before.text ++ value.render ++ after.text ++ b :: rest) =
      if tight value then
        if b = 93 then .ok rest else skipItems [] fuel rest
      else .error .malformed := by
  have hend : NotBlank (b :: rest) := .cons (by rcases hb with rfl | rfl <;> decide) rest
  obtain ⟨first, more, hrend, -, -⟩ := value.render_head
  have hfirst : first ≠ 93 := by
    have hhead := value.head_ne_bracket
    rw [hrend, head?_cons] at hhead
    exact fun heq => hhead (congrArg some heq)
  have hshape : before.text ++ value.render ++ after.text ++ b :: rest =
      before.text ++ (value.render ++ (after.text ++ b :: rest)) := by simp
  rw [hshape, skipItems, skipWs, before.dropWhile_append (.value value _)]
  unfold Skips at hvalue
  rw [hrend, cons_append] at hvalue ⊢
  dsimp only
  rw [if_neg hfirst, hvalue]
  cases tight value with
  | false => rfl
  | true =>
    simp only [if_true, Scan.ok_bind]
    rw [skipWs, after.dropWhile_append hend]
    rcases hb with rfl | rfl
    · simp
    · simp

mutual

/-- A value without escaped quotes in its keys is skipped exactly where no colon inside it is followed by
whitespace. -/
theorem skips_value (value : Value) {fuel : ℕ} {rest : List UInt8} (hkeys : plainKeys value)
    (hfuel : 2 * (value.render ++ rest).length < fuel) (hrest : NotNumeric rest) :
    Skips fuel value rest := by
  obtain ⟨fuel, rfl⟩ : ∃ n, fuel = n + 1 := ⟨fuel - 1, by omega⟩
  have hshape (first last : UInt8) (text : List UInt8) :
      first :: text ++ [last] ++ rest = first :: (text ++ last :: rest) := by simp
  match value with
  | .string chars =>
    rw [Skips, Value.render, renderString, hshape, skipJsonValue]
    exact skipString_chars chars rest
  | .number n => exact skipJsonValue_number n fuel hrest
  | .word w => exact skipJsonValue_word w fuel rest
  | .emptyArray pad =>
    obtain ⟨fuel, rfl⟩ : ∃ n, fuel = n + 1 := ⟨fuel - 1, by simp [Value.render] at hfuel; omega⟩
    rw [Skips, Value.render, hshape, skipJsonValue]
    change skipItems [] (fuel + 1) (pad.text ++ 93 :: rest) = .ok rest
    rw [skipItems, skipWs, pad.dropWhile_append (.cons (by decide) rest)]
    rfl
  | .array items =>
    rw [Value.render, hshape, length_cons] at hfuel
    rw [Skips, Value.render, hshape, skipJsonValue]
    exact skips_items items hkeys (by omega)
  | .emptyObject pad =>
    obtain ⟨fuel, rfl⟩ : ∃ n, fuel = n + 1 := ⟨fuel - 1, by simp [Value.render] at hfuel; omega⟩
    rw [Skips, Value.render, hshape, skipJsonValue]
    change skipMembers [] (fuel + 1) (pad.text ++ 125 :: rest) = .ok rest
    rw [skipMembers, skipWs, pad.dropWhile_append (.cons (by decide) rest)]
    rfl
  | .object members =>
    rw [Value.render, hshape, length_cons] at hfuel
    rw [Skips, Value.render, hshape, skipJsonValue]
    exact skips_members members hkeys (by omega)

/-- The items of an array are skipped. -/
theorem skips_items (items : Items) {fuel : ℕ} {rest : List UInt8} (hkeys : plainKeysItems items)
    (hfuel : 2 * (items.render ++ 93 :: rest).length + 1 < fuel) :
    skipItems [] fuel (items.render ++ 93 :: rest) =
      if tightItems items then .ok rest else .error .malformed := by
  obtain ⟨fuel, rfl⟩ : ∃ n, fuel = n + 1 := ⟨fuel - 1, by omega⟩
  match items with
  | .last before value after =>
    simp only [Items.render, length_append, length_cons] at hfuel
    have hvalue : Skips fuel value (after.text ++ 93 :: rest) :=
      skips_value value hkeys (by simp only [length_append, length_cons]; omega)
        (.blank after (by decide) rest)
    exact skipItems_item before value after (.inr rfl) rest hvalue
  | .cons before value after more =>
    have hshape : (Items.cons before value after more).render ++ 93 :: rest =
        before.text ++ value.render ++ after.text ++ 44 :: (more.render ++ 93 :: rest) := by
      simp [Items.render]
    rw [hshape] at hfuel ⊢
    simp only [length_append, length_cons] at hfuel
    have hvalue : Skips fuel value (after.text ++ 44 :: (more.render ++ 93 :: rest)) :=
      skips_value value hkeys.1 (by simp only [length_append, length_cons]; omega)
        (.blank after (by decide) _)
    have hmore : skipItems [] fuel (more.render ++ 93 :: rest) =
        if tightItems more then .ok rest else .error .malformed :=
      skips_items more hkeys.2 (by simp only [length_append, length_cons]; omega)
    rw [skipItems_item before value after (.inl rfl) _ hvalue, hmore, tightItems]
    cases tight value <;> rfl

/-- The members of an object are skipped. -/
theorem skips_members (members : Members) {fuel : ℕ} {rest : List UInt8}
    (hkeys : plainKeysMembers members) (hfuel : 2 * (members.render ++ 125 :: rest).length + 1 < fuel) :
    skipMembers [] fuel (members.render ++ 125 :: rest) =
      if tightMembers members then .ok rest else .error .malformed := by
  obtain ⟨fuel, rfl⟩ : ∃ n, fuel = n + 2 := ⟨fuel - 2, by omega⟩
  match members with
  | .last name gap value after =>
    simp only [Members.render, length_append, length_cons] at hfuel
    have hvalue : Skips (fuel + 1) value (after.text ++ 125 :: rest) :=
      skips_value value hkeys.2 (by simp only [length_append, length_cons]; omega)
        (.blank after (by decide) rest)
    exact skipMembers_member name gap value after (.inr rfl) hkeys.1 rest hvalue
  | .cons name gap value after more =>
    rw [Members.cons_append] at hfuel ⊢
    simp only [length_append, length_cons] at hfuel
    have hvalue : Skips (fuel + 1) value (after.text ++ 44 :: (more.render ++ 125 :: rest)) :=
      skips_value value hkeys.1.2 (by simp only [length_append, length_cons]; omega)
        (.blank after (by decide) _)
    have hmore : skipMembers [] (fuel + 1) (more.render ++ 125 :: rest) =
        if tightMembers more then .ok rest else .error .malformed :=
      skips_members more hkeys.2 (by simp only [length_append, length_cons]; omega)
    rw [skipMembers_member name gap value after (.inl rfl) hkeys.1.1 _ hvalue, hmore, tightMembers]
    cases gap.text.isEmpty && tight value <;> rfl

end

end

end Espx.Edge
