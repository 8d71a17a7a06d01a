import Espx.Edge.CampaignScan
import Espx.Ingestion.TrackFields

/-!
# The campaign that edge and tracker read

On a body that the tracker accepts, the edge scanner returns the last campaign text, as long as it can
skip the other values. It takes an object with whitespace after a colon for a malformed body, and loses
its place in an object whose key has an escaped quote.
-/

namespace Espx.Edge

open Espx.Foundation Espx.Foundation.Json Espx.Ingestion Value List
open Espx.Domain (UUID uuidNil)

/-- The bytes of a string are not zero. -/
theorem zero_notMem_renderChars (chars : List Character) : 0 ∉ renderChars chars := by
  induction chars with
  | nil => simp
  | cons c chars ih =>
    rw [renderChars_cons, mem_append]
    refine not_or.mpr ⟨?_, ih⟩
    cases c with
    | plain b h =>
      have hne : b ≠ 0 := by
        rintro rfl
        exact absurd h.1 (by decide)
      simpa [Character.render] using hne.symm
    | escape b h =>
      have hne : b ≠ 0 := by
        rintro rfl
        exact absurd h (by decide)
      simpa [Character.render] using hne.symm
    | unicode digits h =>
      have hne : 0 ∉ digits := fun hmem => absurd (h.2 0 hmem) (by decide)
      simpa [Character.render] using hne

/-- A string is read up to its closing quote. -/
theorem readString_chars (chars : List Character) (raw rest : List UInt8) :
    readString raw (renderChars chars ++ 34 :: rest) = checkString (raw ++ renderChars chars) rest := by
  have hpass := @scan_chars _ readString _ (cons_ne_nil 34 rest)
    (fun {b rest} hb hzero hne _ => by
      cases rest with
      | nil => contradiction
      | cons c rest => simp [readString, hb.1, hb.2, hzero])
    (fun b _ _ _ => by simp [readString]) chars raw
  refine hpass.trans ?_
  cases rest <;> simp [readString]

/-- The scanner knows the campaign by its name. -/
theorem jsonKeyId_eq {key : List UInt8} (h : 92 ∉ key) :
    jsonKeyId key = some .campaignId ↔ key = bytesOf "campaign_id" := by
  unfold jsonKeyId
  rw [if_neg h]
  have hparts : key.length = 11 ∧ key.take 8 = bytesOf "campaign" ∧ (key.drop 8).take 3 = bytesOf "_id" ↔
      key = bytesOf "campaign_id" := by
    constructor
    · rintro ⟨hlen, hfirst, hsnd⟩
      have hrest : (key.drop 8).take 3 = key.drop 8 :=
        take_of_length_le (by rw [length_drop]; omega)
      rw [← take_append_drop 8 key, hfirst, ← hrest, hsnd]
      decide
    · rintro rfl
      decide
  rw [← hparts]
  by_cases hkey : key.length = 11 ∧ key.take 8 = bytesOf "campaign" ∧ (key.drop 8).take 3 = bytesOf "_id"
  · rw [if_pos hkey]
    exact iff_of_true rfl hkey
  rw [if_neg hkey]
  refine iff_of_false ?_ hkey
  split
  · decide
  · split <;> decide

/-- What the scanner needs of a member: a plain key, and a short string where it is the campaign. -/
structure Readable (entry : Entry) : Prop where
  key : 92 ∉ entry.1
  nested : plainKeys entry.2
  campaign : entry.1 = bytesOf "campaign_id" → ∃ text, stringText entry.2 = some text ∧
    text.length ≤ maxCampaignLen

/-- The campaign after a member. -/
def nextCid (cid : Option (List UInt8)) (entry : Entry) : Option (List UInt8) :=
  if entry.1 = bytesOf "campaign_id" then stringText entry.2 else cid

/-- The value of a member. -/
theorem scanValue_entry {key : List UInt8} {value : Value} (h : Readable (key, value)) {fuel : ℕ}
    {rest : List UInt8} (hfuel : 2 * (value.render ++ rest).length < fuel) (hrest : NotNumeric rest)
    (cid : Option (List UInt8)) :
    scanValue [] fuel key (value.render ++ rest) cid =
      if tight value then .ok (nextCid cid (key, value), rest) else .error .malformed := by
  unfold scanValue nextCid
  by_cases hkey : key = bytesOf "campaign_id"
  · obtain ⟨text, htext, hlen⟩ := h.campaign hkey
    rw [if_pos ((jsonKeyId_eq h.key).mpr hkey), if_pos hkey]
    cases value with
    | string chars =>
      obtain rfl : renderChars chars = text := Option.some.inj htext
      have hshape : render (.string chars) ++ rest = 34 :: (renderChars chars ++ 34 :: rest) := by
        simp [render, renderString]
      rw [hshape, readJsonString, if_neg (by decide), readString_chars, nil_append, checkString,
        if_neg (by omega), if_neg (zero_notMem_renderChars chars)]
      rfl
    | _ => cases htext
  · have hskip := skips_value value h.nested hfuel hrest
    rw [if_neg (mt (jsonKeyId_eq h.key).mp hkey), if_neg hkey, hskip]
    cases tight value <;> rfl

/-- One pass of the loop over the members of the body. -/
theorem scanMembers_member (name : Name) (gap : Blank) (value : Value) (after : Blank) {b : UInt8}
    (hb : b = 44 ∨ b = 125) (h : Readable (renderChars name.chars, value)) {fuel : ℕ} (rest : List UInt8)
    (hfuel : 2 * (value.render ++ (after.text ++ b :: rest)).length < fuel) (cid : Option (List UInt8)) :
    scanMembers [] (fuel + 1) cid
        (name.render ++ 58 :: gap.text ++ value.render ++ after.text ++ b :: rest) =
      if tight value then
        if b = 125 then .ok (nextCid cid (renderChars name.chars, value))
        else scanMembers [] fuel (nextCid cid (renderChars name.chars, value)) rest
      else .error .malformed := by
  have hend : NotBlank (b :: rest) := .cons (by rcases hb with rfl | rfl <;> decide) rest
  have hnum : isNumeric b = false := by rcases hb with rfl | rfl <;> decide
  have hord : ∀ c ∈ renderChars name.chars, Ordinary c := by
    rcases renderChars_cases name.chars with hall | ⟨text, more, heq, -⟩
    · exact hall
    · exact absurd (show 92 ∈ renderChars name.chars by simp [heq]) h.key
  have hkeyEnd : 34 ∉ renderChars name.chars := fun hmem => (hord 34 hmem).1 rfl
  have hkey (more : List UInt8) :
      (renderChars name.chars ++ 34 :: more).takeWhile (· ≠ 34) = renderChars name.chars := by
    rw [takeWhile_append_of_pos fun c hc => decide_eq_true (hord c hc).1,
      takeWhile_cons_of_neg (by decide), append_nil]
  have hgap := gap.dropWhile_append (.value value (after.text ++ b :: rest))
  obtain ⟨first, text, hrend, -, -⟩ := value.render_head
  rw [member_append, scanMembers, skipWs, name.before.dropWhile_append (.cons (by decide) _)]
  dsimp only
  rw [if_neg (by decide), if_neg (by decide), hkey, if_neg h.key, dropWhile_key hkeyEnd]
  dsimp only
  rw [skipWs, name.after.dropWhile_append (.cons (by decide) _)]
  dsimp only
  rw [if_neg (by decide), skipWs, hgap, if_neg (by simp [hrend]),
    scanValue_entry h hfuel (.blank after hnum rest)]
  cases tight value with
  | false => rfl
  | true =>
    simp only [if_true, Scan.ok_bind]
    rw [skipWs, after.dropWhile_append hend]
    rcases hb with rfl | rfl
    · simp
    · simp

/-- The scanner returns the last campaign where it can skip the other values. -/
theorem scanMembers_members (members : Members) {fuel : ℕ} {rest : List UInt8}
    (h : ∀ entry ∈ entries members, Readable entry)
    (hfuel : 2 * (members.render ++ 125 :: rest).length < fuel) (cid : Option (List UInt8)) :
    scanMembers [] fuel cid (members.render ++ 125 :: rest) =
      if (entries members).all fun entry => tight entry.2 then .ok ((entries members).foldl nextCid cid)
      else .error .malformed := by
  obtain ⟨fuel, rfl⟩ : ∃ n, fuel = n + 1 := ⟨fuel - 1, by omega⟩
  match members with
  | .last name gap value behind =>
    simp only [Members.render, length_append, length_cons] at hfuel
    have hpass := scanMembers_member name gap value behind (Or.inr rfl) (h _ (by simp [entries])) rest
      (by simp only [length_append, length_cons]; omega : _ < fuel) cid
    rw [Members.render, hpass]
    simp [entries]
  | .cons name gap value behind more =>
    rw [Members.cons_append] at hfuel ⊢
    simp only [length_append, length_cons] at hfuel
    have hpass := scanMembers_member name gap value behind (Or.inl rfl) (h _ (by simp [entries]))
      (more.render ++ 125 :: rest)
      (by simp only [length_append, length_cons]; omega : _ < fuel) cid
    have hmore := scanMembers_members more (fun entry hmem => h entry (by simp [entries, hmem]))
      (by simp only [length_append, length_cons]; omega : 2 * (more.render ++ 125 :: rest).length < fuel)
      (nextCid cid (renderChars name.chars, value))
    rw [hpass, hmore]
    cases htight : tight value with
    | false =>
      have hall : (entries (.cons name gap value behind more)).all (fun entry => tight entry.2) = false := by
        simp [entries, htight]
      rw [hall]
      rfl
    | true =>
      have hall : (entries (.cons name gap value behind more)).all (fun entry => tight entry.2) =
          (entries more).all fun entry => tight entry.2 := by
        simp [entries, htight]
      rw [hall]
      rfl

section

variable {list : List Entry} {v w : TrackRequest}

/-- The scanner keeps the last campaign. -/
theorem foldl_nextCid (list : List Entry) :
    list.foldl nextCid none = (lastNamed "campaign_id" list).bind stringText := by
  induction list using List.reverseRecOn with
  | nil => rfl
  | append_singleton list entry ih =>
    rw [foldl_append, foldl_cons, foldl_nil, nextCid, ih]
    unfold lastNamed
    rw [lastValue_concat]
    by_cases hkey : entry.1 = bytesOf "campaign_id" <;> simp [hkey]

theorem length_of_parseUUID {text : List UInt8} {dst id : UUID} (h : parseUUID text dst = .ok id) :
    text.length ≤ maxCampaignLen := by
  unfold parseUUID at h
  split at h
  · rename_i hlen
    rw [hlen]
    decide
  split at h
  · cases h
  · rename_i hlen
    rw [not_not.mp hlen]
    decide

/-- The campaign of a body that the tracker accepts is a text that `ParseUUID` accepts. -/
theorem campaign_accepted (h : assignAll list v = some w) {entry : Entry} (hmem : entry ∈ list)
    (hkey : entry.1 = bytesOf "campaign_id") :
    ∃ text id, stringText entry.2 = some text ∧ ∀ dst, parseUUID text dst = .ok id := by
  obtain ⟨before, after, hentry⟩ := assignEntry_of_assignAll h hmem
  have hkid : trackKey entry.1 = .campaignID := (trackKey_eq_iff entry.1).2.2.2.2.1.mpr hkey
  rw [assignEntry, hkid] at hentry
  split at hentry
  · cases hentry
  · obtain ⟨text, htext, hid⟩ := Option.bind_eq_some_iff.mp hentry
    obtain ⟨id, hid, -⟩ := Option.map_eq_some_iff.mp hid
    exact ⟨text, id, htext, parseUUID_dst (Scan.toOption_eq_some.mp hid)⟩

/-- The members of a body that the tracker accepts are readable at the edge. -/
theorem readable_of_accepted (h : assignAll list v = some w) (hkeys : ∀ entry ∈ list, plainKeys entry.2)
    {entry : Entry} (hmem : entry ∈ list) : Readable entry where
  key := by
    obtain ⟨before, after, hentry⟩ := assignEntry_of_assignAll h hmem
    unfold assignEntry at hentry
    split at hentry
    · cases hentry
    · assumption
  nested := hkeys entry hmem
  campaign := by
    intro hkey
    obtain ⟨text, id, htext, hid⟩ := campaign_accepted h hmem hkey
    exact ⟨text, htext, length_of_parseUUID (hid uuidNil)⟩

/-- The text that the edge returns is the tracker's campaign, and there is none exactly where the body
has no campaign. -/
def Agrees (list : List Entry) (w : TrackRequest) (cid : Option (List UInt8)) : Prop :=
  (cid = none ↔ ∀ entry ∈ list, entry.1 ≠ bytesOf "campaign_id") ∧
    ∀ text, cid = some text → ∀ dst, parseUUID text dst = .ok w.campaignID

/-- The last campaign agrees with the tracker's. -/
theorem agrees_last (h : assignAll list v.resetForParse = some w) :
    Agrees list w ((lastNamed "campaign_id" list).bind stringText) := by
  by_cases hsome : ∃ entry ∈ list, entry.1 = bytesOf "campaign_id"
  · obtain ⟨last, hlast, hkey, hnamed⟩ := exists_lastNamed hsome
    obtain ⟨text, id, htext, hid⟩ := campaign_accepted h hlast hkey
    have hcamp : w.campaignID = id := by
      rw [assignAll_campaignID h, lastValue_kind fun key => (trackKey_eq_iff key).2.2.2.2.1, hnamed]
      simp [idOf, htext, hid]
    rw [hnamed, Option.bind_some, htext]
    refine ⟨iff_of_false (by simp) fun hnone => hnone last hlast hkey, ?_⟩
    intro found hfound dst
    obtain rfl := Option.some.inj hfound
    rw [hcamp]
    exact hid dst
  · push Not at hsome
    have hnone : lastNamed "campaign_id" list = none := by
      have hfilter : (list.filter fun entry => decide (entry.1 = bytesOf "campaign_id")) = [] := by
        rw [filter_eq_nil_iff]
        intro entry hmem
        simpa using hsome entry hmem
      rw [lastNamed, lastValue, hfilter]
      rfl
    rw [hnone]
    exact ⟨iff_of_true rfl hsome, by simp⟩

/-- The scanner on an object whose members it can read. -/
theorem scanJsonDfa_object (before : Blank) {object : Value} (hobj : objectEntries object = some list)
    (after : List UInt8) {fuel : ℕ} (hfuel : 2 * (before.text ++ object.render ++ after).length < fuel)
    (h : ∀ entry ∈ list, Readable entry) :
    scanJsonDfa [] fuel (before.text ++ object.render ++ after) =
      if list.all fun entry => tight entry.2 then .ok ((lastNamed "campaign_id" list).bind stringText)
      else .error .malformed := by
  rw [append_assoc, scanJsonDfa, skipWs, before.dropWhile_append (.value object after)]
  cases object with
  | emptyObject pad =>
    obtain rfl : list = [] := (Option.some.inj hobj).symm
    obtain ⟨fuel, rfl⟩ : ∃ n, fuel = n + 1 := ⟨fuel - 1, by omega⟩
    have hshape : render (.emptyObject pad) ++ after = 123 :: (pad.text ++ 125 :: after) := by
      simp [render]
    rw [hshape]
    change scanMembers [] (fuel + 1) none (pad.text ++ 125 :: after) = .ok none
    rw [scanMembers, skipWs, pad.dropWhile_append (.cons (by decide) after)]
    rfl
  | object members =>
    obtain rfl : entries members = list := Option.some.inj hobj
    have hshape : render (.object members) ++ after = 123 :: (members.render ++ 125 :: after) := by
      simp [render]
    rw [append_assoc, hshape, length_append, length_cons] at hfuel
    rw [hshape, ← foldl_nextCid]
    exact scanMembers_members members h (by omega) none
  | _ => simp [objectEntries] at hobj

/-- The edge on an object of at most 8192 bytes with its true length. -/
theorem extractCampaignId_object (others : OtherScanners) (env : Option String) (before : Blank)
    {object : Value} (hobj : objectEntries object = some list) (after : List UInt8) (fuel : ℕ)
    {body : List UInt8} (hbody : before.text ++ object.render ++ after = body)
    (hlen : body.length ≤ 8192) :
    extractCampaignId others env fuel body (some body.length) "espx_native" = scanJsonDfa [] fuel body := by
  have hopen : ∃ text, object.render = 123 :: text := by
    cases object <;> simp [objectEntries, render] at hobj ⊢
  obtain ⟨text, htext⟩ := hopen
  have hfirst : skipWs body = object.render ++ after := by
    rw [← hbody, append_assoc, skipWs, before.dropWhile_append (.value object after)]
  have hne : body ≠ [] := by simp [← hbody, htext]
  have hpos := length_pos_of_ne_nil hne
  have hlimit : scanLimitFor body.length (some body.length) = body.length := by
    have hscan : ¬ maxScanBytes < body.length := Nat.not_lt.mpr hlen
    simp [scanLimitFor, hscan]
  have hsmall : ¬ maxBodyBytes < body.length := by
    simp only [maxBodyBytes]
    omega
  unfold extractCampaignId
  rw [if_neg (by simpa using hsmall), if_neg hne, if_neg hsmall, hlimit]
  simp only [take_length, drop_length, hfirst, htext]
  rw [if_neg (by omega)]
  simp

/-- The edge reads the tracker's campaign from a body that the tracker accepts exactly where no colon
inside the value of a member is followed by whitespace, as long as no key inside it has an escaped quote.
-/
theorem edge_reads_campaign (others : OtherScanners) (env : Option String) (before after : Blank)
    (object : Value) (list : List Entry) (hobject : objectEntries object = some list) (fuel : ℕ)
    (hlength : (before.text ++ object.render ++ after.text).length ≤ 8192)
    (hfuel : 2 * (before.text ++ object.render ++ after.text).length < fuel)
    (haccepted : parseTrackRequestJSON fuel v (before.text ++ object.render ++ after.text) = .ok w)
    (hkeys : ∀ entry ∈ list, plainKeys entry.2) :
    (∃ cid, extractCampaignId others env fuel (before.text ++ object.render ++ after.text)
        (some (before.text ++ object.render ++ after.text).length) "espx_native" = .ok cid ∧
      Agrees list w cid) ↔ ∀ entry ∈ list, tight entry.2 = true := by
  have hset := parseTrackRequestJSON_object hobject before after.text v (by omega : _ < fuel)
  rw [haccepted, Scan.toOption_ok] at hset
  have hread : ∀ entry ∈ list, Readable entry := fun entry hmem =>
    readable_of_accepted hset.symm hkeys hmem
  rw [extractCampaignId_object others env before hobject after.text fuel rfl hlength,
    scanJsonDfa_object before hobject after.text hfuel hread]
  by_cases hall : (list.all fun entry => tight entry.2) = true
  · rw [if_pos hall]
    refine iff_of_true ⟨_, rfl, agrees_last hset.symm⟩ ?_
    simpa using hall
  · rw [if_neg hall]
    refine iff_of_false (by simp) fun htight => hall ?_
    simpa using htight

/-- Scanners of the other formats that find nothing. -/
def noScanners : OtherScanners := ⟨fun _ _ => .ok none, fun _ _ => .ok none⟩

/-- The request that the tracker reads from the sample. -/
def sampleRead : TrackRequest :=
  { campaignID := sampleID, userID := bytesOf "u1", type := bytesOf "click", clickID := bytesOf "c1",
    placementID := [], payload := bytesOf "\x7b\x7d" }

/-- The edge reads the campaign of the sample. -/
theorem edge_reads_campaign_sample :
    ∃ cid, extractCampaignId noScanners none 1000
        (noBlank.text ++ (Value.object (sampleTrack "slot-1")).render ++ noBlank.text)
        (some (noBlank.text ++ (Value.object (sampleTrack "slot-1")).render ++ noBlank.text).length)
        "espx_native" = .ok cid ∧ Agrees (entries (sampleTrack "slot-1")) sampleRead cid :=
  (@edge_reads_campaign emptyTrack sampleRead noScanners none noBlank noBlank
    (.object (sampleTrack "slot-1")) _ rfl 1000 (by decide +kernel) (by decide +kernel)
    (by decide +kernel) (by simp [entries_sampleTrack, plainKeys])).mpr (by decide +kernel)

/-- One space. -/
def oneSpace : Blank := ⟨[32], by simp [isWhitespace]⟩

/-- A body with a space after a colon inside its payload. -/
def sampleSpaced : Members :=
  .cons (plainName "payload") noBlank
    (.object (.last (plainName "a") oneSpace (.word .null) noBlank)) noBlank
    (.last (plainName "campaign_id") noBlank
      (.string (plainChars "00000000-0000-0000-0000-0000000000Ab")) noBlank)

/-- A key with an escaped quote, whose remaining letters close two objects. -/
def sampleQuoted : Name :=
  ⟨noBlank, plainChars "a" ++ [.escape 34 (by decide)] ++ plainChars ":1\x7d\x7d", noBlank⟩

/-- A body with such a key inside its payload. -/
def sampleEscaped : Members :=
  .cons (plainName "payload") noBlank (.object (.last sampleQuoted noBlank (.word .null) noBlank)) noBlank
    (.last (plainName "campaign_id") noBlank
      (.string (plainChars "00000000-0000-0000-0000-0000000000Ab")) noBlank)

/-- The tracker reads the campaign of both bodies. The edge calls the first one malformed, and in the
second one it finds no campaign. -/
theorem edge_loses_campaign :
    let spaced := (Value.object sampleSpaced).render
    let escaped := (Value.object sampleEscaped).render
    parseTrackRequestJSON 1000 emptyTrack spaced =
        .ok { emptyTrack with campaignID := sampleID, payload := bytesOf "\x7b\"a\": null\x7d" } ∧
      extractCampaignId noScanners none 1000 spaced (some spaced.length) "espx_native" =
        .error .malformed ∧
      parseTrackRequestJSON 1000 emptyTrack escaped =
        .ok { emptyTrack with
          campaignID := sampleID, payload := bytesOf "\x7b\"a\\\":1\x7d\x7d\":null\x7d" } ∧
      extractCampaignId noScanners none 1000 escaped (some escaped.length) "espx_native" = .ok none := by
  decide +kernel

end

end Espx.Edge
