import Espx.Ingestion.TrackMembers

/-!
# The fields of a parsed track request

Each field of the request is the last value of the members whose key selects it. For five of the six named
members these are the members of that name. No member named `placement_id` is ever read: the word that it
is compared with was packed from other letters.
-/

namespace Espx.Ingestion

open Espx.Foundation Espx.Foundation.Json Scan List
open Espx.Domain (UUID uuidNil uuidString)

section

variable {b : List UInt8} {places : List (Fin 16 × ℕ)}

/-- Where the text is decoded, the destination did not matter. -/
theorem decodeUUID_dst {dst other id : UUID} (h : decodeUUID b places dst = .ok id)
    (hother : ∀ k : Fin 16, k ∉ places.map Prod.fst → other.get k = dst.get k) :
    decodeUUID b places other = .ok id := by
  induction places generalizing dst other with
  | nil =>
    have hsame : other = dst := Vector.ext fun k hk => hother ⟨k, hk⟩ (by simp)
    rw [hsame]
    exact h
  | cons entry rest ih =>
    rw [decodeUUID] at h ⊢
    obtain ⟨high, hhigh, h⟩ := bind_eq_ok.mp h
    obtain ⟨low, hlow, h⟩ := bind_eq_ok.mp h
    rw [hhigh, ok_bind, hlow, ok_bind]
    cases hbyte : decodeHex high low with
    | none =>
      rw [hbyte] at h
      cases h
    | some byte =>
      rw [hbyte] at h
      refine ih h fun k hk => ?_
      by_cases hplace : k = entry.1
      · simp [Domain.vector_get, hplace]
      · have hne : entry.1.val ≠ k.val := fun heq => hplace (Fin.ext heq.symm)
        have hkeep := hother k (by simpa [hplace] using hk)
        simpa [Domain.vector_get, Vector.getElem_set_ne, hne] using hkeep

/-- Where `ParseUUID` succeeds, the destination did not matter. -/
theorem parseUUID_dst {dst id : UUID} (h : parseUUID b dst = .ok id) (other : UUID) :
    parseUUID b other = .ok id := by
  unfold parseUUID at h ⊢
  split
  · rename_i hlen
    rw [dif_pos hlen] at h
    exact h
  rename_i hlen
  rw [dif_neg hlen] at h
  split
  · rename_i hbad
    rw [if_pos hbad] at h
    cases h
  rename_i hbad
  rw [if_neg hbad] at h
  obtain ⟨first, hfirst, h⟩ := bind_eq_ok.mp h
  obtain ⟨second, hsnd, h⟩ := bind_eq_ok.mp h
  obtain ⟨third, hthird, h⟩ := bind_eq_ok.mp h
  obtain ⟨fourth, hfourth, h⟩ := bind_eq_ok.mp h
  rw [hfirst, ok_bind, hsnd, ok_bind, hthird, ok_bind, hfourth, ok_bind]
  dsimp only at h ⊢
  split
  · rename_i hdashes
    rw [if_pos hdashes] at h
    exact decodeUUID_dst h fun k hk => absurd (by revert k; decide) hk
  · rename_i hdashes
    rw [if_neg hdashes] at h
    cases h

/-- A text is the canonical text of an identifier, in either case. -/
def Canonical (text : List UInt8) (id : UUID) : Prop := text.map httpFold = bytesOf (uuidString id)

theorem forall_byte {P : UInt8 → Prop} (h : ∀ i : Fin 256, P (UInt8.ofFin i)) (b : UInt8) : P b := h b.toFin

theorem hexLookup_fold (b : UInt8) : hexLookup (httpFold b) = hexLookup b :=
  forall_byte (P := fun b => hexLookup (httpFold b) = hexLookup b) (by decide +kernel) b

theorem httpFold_dash (b : UInt8) : decide (httpFold b = 45) = decide (b = 45) :=
  forall_byte (P := fun b => decide (httpFold b = 45) = decide (b = 45)) (by decide +kernel) b

/-- A byte of a mapped text. -/
theorem index_map_bind {ε α : Type} (f : UInt8 → UInt8) (b : List UInt8) (i : ℤ) (g : UInt8 → Scan ε α) :
    (index (b.map f) i >>= g) = index b i >>= fun c => g (f c) := by
  unfold index
  split
  · rfl
  · rw [getElem?_map]
    cases b[i.toNat]? <;> rfl

theorem decodeUUID_fold (b : List UInt8) (places : List (Fin 16 × ℕ)) (dst : UUID) :
    decodeUUID (b.map httpFold) places dst = decodeUUID b places dst := by
  induction places generalizing dst with
  | nil => rfl
  | cons entry rest ih =>
    simp only [decodeUUID, index_map_bind, decodeHex, hexLookup_fold, ih]

/-- The case of a text of 36 bytes does not matter. -/
theorem parseUUID_fold (h : b.length = 36) (dst : UUID) :
    parseUUID (b.map httpFold) dst = parseUUID b dst := by
  have hlen : (b.map httpFold).length = 36 := by rw [length_map, h]
  rw [parseUUID, parseUUID, dif_neg (by omega), dif_neg (by omega), if_neg (by omega), if_neg (by omega)]
  simp only [index_map_bind]
  refine bind_congr fun first => bind_congr fun second => bind_congr fun third => bind_congr fun fourth => ?_
  have hdashes : [httpFold first, httpFold second, httpFold third, httpFold fourth].all (· = 45) =
      [first, second, third, fourth].all (· = 45) := by
    simp only [all_cons, httpFold_dash]
  rw [hdashes, decodeUUID_fold]

/-- The first digit of a byte. -/
def highDigit (b : UInt8) : UInt8 := UInt8.ofNat (Domain.hexChar (b >>> 4)).toNat

/-- The second digit of a byte. -/
def lowDigit (b : UInt8) : UInt8 := UInt8.ofNat (Domain.hexChar (b &&& 0xf)).toNat

theorem decodeHex_digits (b : UInt8) : decodeHex (highDigit b) (lowDigit b) = some b :=
  forall_byte (P := fun b => decodeHex (highDigit b) (lowDigit b) = some b) (by decide +kernel) b

/-- Where the digits of an identifier stand in a text, they are read. -/
theorem decodeUUID_digits {id : UUID}
    (h : ∀ entry ∈ places, b[entry.2]? = some (highDigit (id.get entry.1)) ∧
      b[entry.2 + 1]? = some (lowDigit (id.get entry.1))) (dst : UUID) :
    ∃ out, decodeUUID b places dst = .ok out ∧
      ∀ k : Fin 16, out.get k = if k ∈ places.map Prod.fst then id.get k else dst.get k := by
  induction places generalizing dst with
  | nil => exact ⟨dst, rfl, by simp⟩
  | cons entry rest ih =>
    obtain ⟨hhigh, hlow⟩ := h entry mem_cons_self
    obtain ⟨out, hout, hbytes⟩ := ih (fun other hmem => h other (mem_cons_of_mem _ hmem))
      (dst.set entry.1 id[entry.1])
    have hfirst : (index b entry.2 : Scan UUID UInt8) = .ok (highDigit id[entry.1]) :=
      index_eq_ok.mpr ⟨Int.natCast_nonneg _, hhigh⟩
    have hsnd : (index b (entry.2 + 1) : Scan UUID UInt8) = .ok (lowDigit id[entry.1]) :=
      index_eq_ok.mpr ⟨by omega, hlow⟩
    refine ⟨out, ?_, fun k => ?_⟩
    · rw [decodeUUID, hfirst, ok_bind, hsnd, ok_bind, decodeHex_digits]
      exact hout
    · rw [hbytes k]
      by_cases hrest : k ∈ rest.map Prod.fst
      · rw [if_pos hrest, if_pos (by simpa using .inr (by simpa using hrest))]
      rw [if_neg hrest]
      by_cases hplace : k = entry.1
      · simp [Domain.vector_get, hplace]
      have hne : entry.1.val ≠ k.val := fun heq => hplace (Fin.ext heq.symm)
      have hnone : k ∉ (entry :: rest).map Prod.fst := by
        rw [map_cons, mem_cons]
        exact fun hmem => hmem.elim hplace hrest
      rw [if_neg hnone]
      simp [Domain.vector_get, Vector.getElem_set_ne, hne]

/-- The bytes of the canonical text. -/
def uuidText (u : UUID) : List UInt8 :=
  [highDigit (u.get 0), lowDigit (u.get 0), highDigit (u.get 1), lowDigit (u.get 1),
    highDigit (u.get 2), lowDigit (u.get 2), highDigit (u.get 3), lowDigit (u.get 3), 45,
    highDigit (u.get 4), lowDigit (u.get 4), highDigit (u.get 5), lowDigit (u.get 5), 45,
    highDigit (u.get 6), lowDigit (u.get 6), highDigit (u.get 7), lowDigit (u.get 7), 45,
    highDigit (u.get 8), lowDigit (u.get 8), highDigit (u.get 9), lowDigit (u.get 9), 45,
    highDigit (u.get 10), lowDigit (u.get 10), highDigit (u.get 11), lowDigit (u.get 11),
    highDigit (u.get 12), lowDigit (u.get 12), highDigit (u.get 13), lowDigit (u.get 13),
    highDigit (u.get 14), lowDigit (u.get 14), highDigit (u.get 15), lowDigit (u.get 15)]

/-- The text that `uuidString` returns. -/
theorem bytesOf_uuidString (u : UUID) : bytesOf (uuidString u) = uuidText u := by
  have hpair (b : UInt8) : (Domain.hexByte b).map (fun c => UInt8.ofNat c.toNat) =
      [highDigit b, lowDigit b] := rfl
  have hdash : ['-'].map (fun c => UInt8.ofNat c.toNat) = [45] := rfl
  unfold bytesOf uuidString uuidText
  rw [String.toList_ofList]
  simp only [map_append, hpair, hdash, cons_append, nil_append]
  rfl

/-- `ParseUUID` reads the canonical text of an identifier. -/
theorem parseUUID_uuidText (id dst : UUID) : parseUUID (uuidText id) dst = .ok id := by
  have hdig : ∀ entry ∈ uuidPlaces, (uuidText id)[entry.2]? = some (highDigit (id.get entry.1)) ∧
      (uuidText id)[entry.2 + 1]? = some (lowDigit (id.get entry.1)) := by
    simp only [uuidPlaces, forall_mem_cons]
    refine ⟨⟨rfl, rfl⟩, ⟨rfl, rfl⟩, ⟨rfl, rfl⟩, ⟨rfl, rfl⟩, ⟨rfl, rfl⟩, ⟨rfl, rfl⟩, ⟨rfl, rfl⟩, ⟨rfl, rfl⟩,
      ⟨rfl, rfl⟩, ⟨rfl, rfl⟩, ⟨rfl, rfl⟩, ⟨rfl, rfl⟩, ⟨rfl, rfl⟩, ⟨rfl, rfl⟩, ⟨rfl, rfl⟩, ⟨rfl, rfl⟩,
      by simp⟩
  obtain ⟨out, hout, hbytes⟩ := decodeUUID_digits hdig dst
  have hplace : ∀ k : Fin 16, k ∈ uuidPlaces.map Prod.fst := by decide
  have hid : out = id := Vector.ext fun k hk => by
    have hk := hbytes ⟨k, hk⟩
    rw [if_pos (hplace _)] at hk
    exact hk
  subst hid
  have hlen : (uuidText out).length = 36 := rfl
  rw [parseUUID, dif_neg (by rw [hlen]; decide), if_neg (by rw [hlen]; decide)]
  exact hout

/-- `ParseUUID` reads a canonical text in either case. -/
theorem parseUUID_canonical {text : List UInt8} {id : UUID} (h : Canonical text id) (dst : UUID) :
    parseUUID text dst = .ok id := by
  have hfold : text.map httpFold = bytesOf (uuidString id) := h
  have hlen : text.length = 36 := by
    have := congrArg List.length hfold
    rwa [length_map, bytesOf_uuidString] at this
  rw [← parseUUID_fold hlen, hfold, bytesOf_uuidString, parseUUID_uuidText]

end

section

variable {list : List Entry} {v w : TrackRequest} {kid : KeyID}

/-- The last value of the members whose key has a property. -/
def lastValue (p : List UInt8 → Bool) (list : List Entry) : Option Value :=
  (list.filter fun entry => p entry.1).getLast?.map Prod.snd

/-- The last value of the members with a name. -/
def lastNamed (name : String) (list : List Entry) : Option Value := lastValue (· = bytesOf name) list

theorem lastValue_concat (p : List UInt8 → Bool) (list : List Entry) (entry : Entry) :
    lastValue p (list ++ [entry]) = if p entry.1 then some entry.2 else lastValue p list := by
  unfold lastValue
  cases hp : p entry.1 with
  | true | false => simp [hp]

theorem assignAll_concat (list : List Entry) (entry : Entry) (v : TrackRequest) :
    assignAll (list ++ [entry]) v = (assignAll list v).bind fun w => assignEntry w entry := by
  cases h : list.foldlM assignEntry v <;> simp [assignAll, h]

/-- Members that can be assigned to every request are accepted. -/
theorem assignAll_isSome (h : ∀ entry ∈ list, ∀ v, (assignEntry v entry).isSome) (v : TrackRequest) :
    ∃ w, assignAll list v = some w := by
  induction list using List.reverseRecOn with
  | nil => exact ⟨v, rfl⟩
  | append_singleton list entry ih =>
    obtain ⟨mid, hmid⟩ := ih fun other hmem => h other (mem_append_left _ hmem)
    obtain ⟨w, hw⟩ := Option.isSome_iff_exists.mp (h entry (by simp) mid)
    exact ⟨w, by rw [assignAll_concat, hmid, Option.bind_some, hw]⟩

/-- The members of an accepted object were assigned. -/
theorem assignEntry_of_assignAll (h : assignAll list v = some w) {entry : Entry} (hmem : entry ∈ list) :
    ∃ before after, assignEntry before entry = some after := by
  induction list using List.reverseRecOn generalizing w with
  | nil => cases hmem
  | append_singleton list other ih =>
    rw [assignAll_concat] at h
    obtain ⟨mid, hmid, hother⟩ := Option.bind_eq_some_iff.mp h
    rcases mem_append.mp hmem with hmem | hmem
    · exact ih hmid hmem
    · obtain rfl := mem_singleton.mp hmem
      exact ⟨mid, w, hother⟩

/-- The bytes that a string field takes from a value. -/
def textOf (value : Value) : List UInt8 := (stringText value).getD []

/-- The identifier that the campaign field takes from a value. -/
def idOf (value : Value) : UUID :=
  ((stringText value).bind fun text => (parseUUID text uuidNil).toOption).getD uuidNil

/-- The request after a member that the parser accepts. -/
def TrackRequest.store (v : TrackRequest) (kid : KeyID) (value : Value) : TrackRequest :=
  match kid with
  | .type => { v with type := textOf value }
  | .userID => { v with userID := textOf value }
  | .clickID => { v with clickID := textOf value }
  | .placementID => { v with placementID := textOf value }
  | .campaignID => { v with campaignID := idOf value }
  | .payload => { v with payload := value.render }
  | .unknown => v

/-- A member that is accepted is stored. -/
theorem assign_eq_store {value : Value} (h : assign kid value v = some w) : w = v.store kid value := by
  have htext {set : List UInt8 → TrackRequest} (h : (stringText value).map set = some w) :
      w = set (textOf value) := by
    obtain ⟨text, htext, rfl⟩ := Option.map_eq_some_iff.mp h
    rw [textOf, htext, Option.getD_some]
  have hdeep {u : TrackRequest} (h : (if value.depth ≤ maxJSONDepth then some u else none) = some w) :
      w = u := by
    split at h
    · exact (Option.some.inj h).symm
    · cases h
  cases kid with
  | type | userID | clickID | placementID => exact htext h
  | campaignID =>
    obtain ⟨text, hvalue, h⟩ := Option.bind_eq_some_iff.mp h
    obtain ⟨id, hid, rfl⟩ := Option.map_eq_some_iff.mp h
    have hany := parseUUID_dst (toOption_eq_some.mp hid) uuidNil
    rw [TrackRequest.store, idOf, hvalue, Option.bind_some, hany, toOption_ok, Option.getD_some]
  | payload | unknown => exact hdeep h

/-- A field that storing under one kind of key changes holds the last value of that kind. -/
theorem assignAll_store {α : Type} {get : TrackRequest → α} {read : Value → α}
    (hset : ∀ (v : TrackRequest) value, get (v.store kid value) = read value)
    (hkeep : ∀ (v : TrackRequest) other value, other ≠ kid → get (v.store other value) = get v)
    (h : assignAll list v = some w) :
    get w = ((lastValue (fun key => trackKey key = kid) list).map read).getD (get v) := by
  induction list using List.reverseRecOn generalizing w with
  | nil =>
    obtain rfl := Option.some.inj h
    rfl
  | append_singleton list entry ih =>
    rw [assignAll_concat] at h
    obtain ⟨mid, hmid, hentry⟩ := Option.bind_eq_some_iff.mp h
    rw [lastValue_concat]
    unfold assignEntry at hentry
    split at hentry
    · cases hentry
    rw [assign_eq_store hentry]
    by_cases hkid : trackKey entry.1 = kid
    · rw [hkid, hset]
      simp
    · rw [hkeep _ _ _ hkid, ih hmid]
      simp [hkid]

/-- The string fields of an accepted request are the last values of their keys. -/
theorem assignAll_text (get : TrackRequest → List UInt8) (kid : KeyID) (h : assignAll list v = some w)
    (hfield : (get, kid) ∈ [(TrackRequest.type, KeyID.type), (TrackRequest.userID, KeyID.userID),
      (TrackRequest.clickID, KeyID.clickID), (TrackRequest.placementID, KeyID.placementID)]) :
    get w = ((lastValue (fun key => trackKey key = kid) list).map textOf).getD (get v) := by
  simp only [mem_cons, Prod.mk.injEq, not_mem_nil, or_false] at hfield
  rcases hfield with ⟨rfl, rfl⟩ | ⟨rfl, rfl⟩ | ⟨rfl, rfl⟩ | ⟨rfl, rfl⟩ <;>
    exact assignAll_store (fun v value => rfl) (fun v other value hne => by cases other <;> trivial) h

theorem assignAll_payload (h : assignAll list v = some w) :
    w.payload = ((lastValue (fun key => trackKey key = .payload) list).map Value.render).getD v.payload :=
  assignAll_store (fun v value => rfl) (fun v other value hne => by cases other <;> trivial) h

theorem assignAll_campaignID (h : assignAll list v = some w) :
    w.campaignID = ((lastValue (fun key => trackKey key = .campaignID) list).map idOf).getD v.campaignID :=
  assignAll_store (fun v value => rfl) (fun v other value hne => by cases other <;> trivial) h

/-- The keys that the parser takes for `placement_id`: these eleven bytes and any twelfth. -/
def misread (key : List UInt8) : Bool := key.length = 12 ∧ key.take 11 = bytesOf "pacemcen_id"

/-- Each kind of key is one name, except for that of the placement. -/
theorem trackKey_eq_iff (key : List UInt8) : (trackKey key = .type ↔ key = bytesOf "type") ∧
    (trackKey key = .userID ↔ key = bytesOf "user_id") ∧
    (trackKey key = .payload ↔ key = bytesOf "payload") ∧
    (trackKey key = .clickID ↔ key = bytesOf "click_id") ∧
    (trackKey key = .campaignID ↔ key = bytesOf "campaign_id") ∧
    (trackKey key = .placementID ↔ misread key = true) := by
  unfold trackKey misread
  split
  · rename_i h
    subst h
    decide
  split
  · rename_i h
    subst h
    decide
  split
  · rename_i h
    subst h
    decide
  split
  · rename_i h
    subst h
    decide
  split
  · rename_i h
    subst h
    decide
  split <;> simp_all

/-- The members of an object that a track request consists of. -/
structure TrackObject (list : List Entry) : Prop where
  plainKeys : ∀ entry ∈ list, 92 ∉ entry.1
  texts : ∀ name ∈ ["type", "user_id", "click_id", "placement_id"],
    (∃ entry ∈ list, entry.1 = bytesOf name) ∧
      ∀ entry ∈ list, entry.1 = bytesOf name → ∃ text ∈ stringText entry.2, 92 ∉ text
  campaign : (∃ entry ∈ list, entry.1 = bytesOf "campaign_id") ∧
    ∀ entry ∈ list, entry.1 = bytesOf "campaign_id" →
      ∃ text ∈ stringText entry.2, ∃ id, Canonical text id
  payload : ∃ entry ∈ list, entry.1 = bytesOf "payload"
  others : ∀ entry ∈ list, entry.2.depth ≤ maxJSONDepth

/-- The request holds the last value of every named member. -/
structure Faithful (list : List Entry) (w : TrackRequest) : Prop where
  type : (lastNamed "type" list).bind stringText = some w.type
  userID : (lastNamed "user_id" list).bind stringText = some w.userID
  clickID : (lastNamed "click_id" list).bind stringText = some w.clickID
  placementID : (lastNamed "placement_id" list).bind stringText = some w.placementID
  campaignID : ∃ text, (lastNamed "campaign_id" list).bind stringText = some text ∧
    Canonical text w.campaignID
  payload : (lastNamed "payload" list).map Value.render = some w.payload

/-- The members that are taken for the placement are strings, and the last of them, or the empty text,
is the last placement. -/
def PlacementRead (list : List Entry) : Prop :=
  (∀ entry ∈ list, misread entry.1 = true → (stringText entry.2).isSome) ∧
    ((lastValue misread list).map textOf).getD [] = ((lastNamed "placement_id" list).map textOf).getD []

variable {name : String}

theorem exists_lastNamed (h : ∃ entry ∈ list, entry.1 = bytesOf name) :
    ∃ entry ∈ list, entry.1 = bytesOf name ∧ lastNamed name list = some entry.2 := by
  obtain ⟨entry, hmem, hkey⟩ := h
  have hne : (list.filter fun entry => entry.1 = bytesOf name) ≠ [] :=
    ne_nil_of_mem (mem_filter.mpr ⟨hmem, decide_eq_true hkey⟩)
  have hlast := mem_filter.mp (getLast_mem hne)
  refine ⟨_, hlast.1, of_decide_eq_true hlast.2, ?_⟩
  rw [lastNamed, lastValue, getLast?_eq_some_getLast hne, Option.map_some]

/-- The members of a track request are accepted where those taken for the placement are strings. -/
theorem TrackObject.accepted (h : TrackObject list)
    (hmis : ∀ entry ∈ list, misread entry.1 = true → (stringText entry.2).isSome) (v : TrackRequest) :
    ∃ w, assignAll list v = some w := by
  refine assignAll_isSome (fun entry hmem v => ?_) v
  obtain ⟨htype, huser, -, hclick, hcamp, hplace⟩ := trackKey_eq_iff entry.1
  have htext {name : String} (hname : name ∈ ["type", "user_id", "click_id", "placement_id"])
      (hkey : entry.1 = bytesOf name) : ∃ text, stringText entry.2 = some text := by
    obtain ⟨text, hvalue, -⟩ := (h.texts name hname).2 entry hmem hkey
    exact ⟨text, hvalue⟩
  have hdepth := h.others entry hmem
  rw [assignEntry, if_neg (h.plainKeys entry hmem)]
  cases hkid : trackKey entry.1 with
  | type =>
    obtain ⟨text, hvalue⟩ := htext (by simp) (htype.mp hkid)
    simp [assign, hvalue]
  | userID =>
    obtain ⟨text, hvalue⟩ := htext (by simp) (huser.mp hkid)
    simp [assign, hvalue]
  | clickID =>
    obtain ⟨text, hvalue⟩ := htext (by simp) (hclick.mp hkid)
    simp [assign, hvalue]
  | placementID => simpa [assign] using hmis entry hmem (hplace.mp hkid)
  | campaignID =>
    obtain ⟨text, hvalue, id, hid⟩ := h.campaign.2 entry hmem (hcamp.mp hkid)
    have hsome : stringText entry.2 = some text := hvalue
    simp [assign, hsome, parseUUID_canonical hid]
  | payload | unknown => simp [assign, hdepth]

/-- A member that is taken for the placement and accepted is a string. -/
theorem isSome_of_misread (h : assignAll list v = some w) {entry : Entry} (hmem : entry ∈ list)
    (hmis : misread entry.1 = true) : (stringText entry.2).isSome := by
  obtain ⟨before, after, hentry⟩ := assignEntry_of_assignAll h hmem
  have hkid : trackKey entry.1 = .placementID := (trackKey_eq_iff entry.1).2.2.2.2.2.mpr hmis
  rw [assignEntry, hkid] at hentry
  split at hentry
  · cases hentry
  · obtain ⟨text, hvalue, -⟩ := Option.map_eq_some_iff.mp hentry
    simp [hvalue]

/-- The last member with the name of a text. -/
theorem TrackObject.lastText (h : TrackObject list)
    (hname : name ∈ ["type", "user_id", "click_id", "placement_id"]) :
    (lastNamed name list).bind stringText = some (((lastNamed name list).map textOf).getD []) := by
  obtain ⟨hnames, htext⟩ := h.texts name hname
  obtain ⟨last, hlast, hkey, hnamed⟩ := exists_lastNamed hnames
  obtain ⟨text, hvalue, -⟩ := htext last hlast hkey
  have hsome : stringText last.2 = some text := hvalue
  rw [hnamed, Option.bind_some, hsome]
  simp [textOf, hsome]

theorem lastValue_kind (h : ∀ key, trackKey key = kid ↔ key = bytesOf name) :
    lastValue (fun key => trackKey key = kid) list = lastNamed name list := by
  congr 1
  funext key
  exact decide_eq_decide.mpr (h key)

/-- What the parser makes of a track request: every named field but the placement is the last value. -/
theorem TrackObject.fields (h : TrackObject list) (hw : assignAll list v.resetForParse = some w) :
    Faithful list w ↔
      ((lastValue misread list).map textOf).getD [] =
        ((lastNamed "placement_id" list).map textOf).getD [] := by
  have hplacementKeys : lastValue (fun key => trackKey key = .placementID) list =
      lastValue misread list := by
    congr 1
    funext key
    rw [Bool.eq_iff_iff, decide_eq_true_eq]
    exact (trackKey_eq_iff key).2.2.2.2.2
  have htype : w.type = ((lastNamed "type" list).map textOf).getD [] := by
    rw [← lastValue_kind fun key => (trackKey_eq_iff key).1]
    exact assignAll_text TrackRequest.type .type hw (by simp)
  have huserID : w.userID = ((lastNamed "user_id" list).map textOf).getD [] := by
    rw [← lastValue_kind fun key => (trackKey_eq_iff key).2.1]
    exact assignAll_text TrackRequest.userID .userID hw (by simp)
  have hclickID : w.clickID = ((lastNamed "click_id" list).map textOf).getD [] := by
    rw [← lastValue_kind fun key => (trackKey_eq_iff key).2.2.2.1]
    exact assignAll_text TrackRequest.clickID .clickID hw (by simp)
  have hplacementID : w.placementID = ((lastValue misread list).map textOf).getD [] := by
    rw [← hplacementKeys]
    exact assignAll_text TrackRequest.placementID .placementID hw (by simp)
  have hbody : (lastNamed "payload" list).map Value.render = some w.payload := by
    obtain ⟨last, -, -, hnamed⟩ := exists_lastNamed h.payload
    rw [assignAll_payload hw, lastValue_kind fun key => (trackKey_eq_iff key).2.2.1, hnamed]
    rfl
  have hcampaignID : ∃ text, (lastNamed "campaign_id" list).bind stringText = some text ∧
      Canonical text w.campaignID := by
    obtain ⟨last, hlast, hkey, hnamed⟩ := exists_lastNamed h.campaign.1
    obtain ⟨text, hvalue, id, hid⟩ := h.campaign.2 last hlast hkey
    have hsome : stringText last.2 = some text := hvalue
    have hread : w.campaignID = id := by
      rw [assignAll_campaignID hw, lastValue_kind fun key => (trackKey_eq_iff key).2.2.2.2.1, hnamed]
      simp [idOf, hsome, parseUUID_canonical hid]
    rw [hnamed, hread]
    exact ⟨text, hvalue, hid⟩
  constructor
  · intro hfaith
    have hplace := (h.lastText (by simp)).symm.trans hfaith.placementID
    rw [← hplacementID, Option.some.inj hplace]
  · intro hplace
    exact
      { type := htype ▸ h.lastText (by simp)
        userID := huserID ▸ h.lastText (by simp)
        clickID := hclickID ▸ h.lastText (by simp)
        placementID := by
          rw [hplacementID, hplace]
          exact h.lastText (by simp)
        campaignID := hcampaignID
        payload := hbody }

/-- The parser ends on every buffer without indexing outside it, with what it wrote being sub-ranges; and
it reads a track request faithfully exactly where the keys that it takes for the placement name it. -/
theorem track_request_parsed (fuel : ℕ) (v : TrackRequest) :
    (∀ data : List UInt8, data.length < fuel → ∃ w, w.Within data v.payload ∧
      (parseTrackRequestJSON fuel v data = .ok w ∨ parseTrackRequestJSON fuel v data = .error w)) ∧
    ∀ (before : Blank) (members : Members) (after : Blank), TrackObject (entries members) →
      (before.text ++ (Value.object members).render ++ after.text).length < fuel →
      ((∃ w, parseTrackRequestJSON fuel v (before.text ++ (Value.object members).render ++ after.text) =
          .ok w ∧ Faithful (entries members) w) ↔ PlacementRead (entries members)) := by
  constructor
  · intro data hfuel
    rcases (parseTrackRequestJSON_ends fuel v data hfuel).cases trivial with ⟨w, hw, hin⟩ | ⟨w, hw, hin⟩
    · exact ⟨w, hin, .inl hw⟩
    · exact ⟨w, hin, .inr hw⟩
  · intro before members after hobj hfuel
    have hparse := @parseTrackRequestJSON_object (.object members) _ rfl before after.text fuel v hfuel
    constructor
    · rintro ⟨w, hw, hfaith⟩
      rw [hw, Scan.toOption_ok] at hparse
      exact ⟨fun entry hmem hmis => isSome_of_misread hparse.symm hmem hmis,
        (hobj.fields hparse.symm).mp hfaith⟩
    · rintro ⟨hmis, hplace⟩
      obtain ⟨w, hw⟩ := hobj.accepted hmis v.resetForParse
      rw [hw] at hparse
      exact ⟨w, Scan.toOption_eq_some.mp hparse, (hobj.fields hw).mpr hplace⟩

/-- The characters of a plain text. -/
def plainChars (text : String) : List Character :=
  (bytesOf text).filterMap fun b => if h : 32 ≤ b ∧ b ≠ 34 ∧ b ≠ 92 then some (.plain b h) else none

/-- No whitespace. -/
def noBlank : Blank := ⟨[], by simp⟩

/-- A name without whitespace around it. -/
def plainName (text : String) : Name := ⟨noBlank, plainChars text, noBlank⟩

/-- A track request with a placement. -/
def sampleTrack (placement : String) : Members :=
  .cons (plainName "type") noBlank (.string (plainChars "click")) noBlank
    (.cons (plainName "user_id") noBlank (.string (plainChars "u1")) noBlank
      (.cons (plainName "click_id") noBlank (.string (plainChars "c1")) noBlank
        (.cons (plainName "placement_id") noBlank (.string (plainChars placement)) noBlank
          (.cons (plainName "campaign_id") noBlank
            (.string (plainChars "00000000-0000-0000-0000-0000000000Ab")) noBlank
            (.last (plainName "payload") noBlank (.emptyObject noBlank) noBlank)))))

/-- The identifier of the sample. -/
def sampleID : UUID := uuidNil.setIfInBounds 15 0xab

/-- An empty request. -/
def emptyTrack : TrackRequest := ⟨uuidNil, [], [], [], [], []⟩

/-- The members of the sample. -/
theorem entries_sampleTrack (placement : String) : entries (sampleTrack placement) =
    [(bytesOf "type", .string (plainChars "click")), (bytesOf "user_id", .string (plainChars "u1")),
      (bytesOf "click_id", .string (plainChars "c1")),
      (bytesOf "placement_id", .string (plainChars placement)),
      (bytesOf "campaign_id", .string (plainChars "00000000-0000-0000-0000-0000000000Ab")),
      (bytesOf "payload", .emptyObject noBlank)] := rfl

/-- The sample is a track request. -/
theorem trackObject_sample {placement : String} (h : placement ∈ ["", "slot-1"]) :
    TrackObject (entries (sampleTrack placement)) := by
  have hcamp : ∀ entry ∈ entries (sampleTrack placement), entry.1 = bytesOf "campaign_id" →
      ∃ text ∈ stringText entry.2, ∃ id, Canonical text id := by
    rw [entries_sampleTrack]
    simp only [forall_mem_cons, not_mem_nil, false_implies, implies_true, and_true]
    refine ⟨fun h => absurd h (by decide), fun h => absurd h (by decide), fun h => absurd h (by decide),
      fun h => absurd h (by decide), fun _ => ⟨_, rfl, sampleID, ?_⟩, fun h => absurd h (by decide)⟩
    unfold Canonical
    decide +kernel
  simp only [mem_cons, not_mem_nil, or_false] at h
  rcases h with rfl | rfl
  · exact ⟨by decide, by decide, ⟨by decide, hcamp⟩, by decide, by decide⟩
  · exact ⟨by decide, by decide, ⟨by decide, hcamp⟩, by decide, by decide⟩

/-- A request with an empty placement is read faithfully. -/
theorem track_request_parsed_without_placement :
    PlacementRead (entries (sampleTrack "")) ∧
      ∃ w, parseTrackRequestJSON 1000 emptyTrack
          (noBlank.text ++ (Value.object (sampleTrack "")).render ++ noBlank.text) = .ok w ∧
        Faithful (entries (sampleTrack "")) w := by
  have hread : PlacementRead (entries (sampleTrack "")) := by
    constructor <;> decide +kernel
  exact ⟨hread, ((track_request_parsed 1000 emptyTrack).2 noBlank (sampleTrack "") noBlank
    (trackObject_sample (by simp)) (by decide +kernel)).mpr hread⟩

/-- A placement is not read. -/
theorem placement_not_read :
    let body := (Value.object (sampleTrack "slot-1")).render
    TrackObject (entries (sampleTrack "slot-1")) ∧
      (lastNamed "placement_id" (entries (sampleTrack "slot-1"))).bind stringText =
        some (bytesOf "slot-1") ∧
      parseTrackRequestJSON 1000 emptyTrack body = .ok
        { campaignID := sampleID, userID := bytesOf "u1", type := bytesOf "click",
          clickID := bytesOf "c1", placementID := [], payload := bytesOf "\x7b\x7d" } ∧
      ¬ ∃ w, parseTrackRequestJSON 1000 emptyTrack body = .ok w ∧
        Faithful (entries (sampleTrack "slot-1")) w := by
  intro body
  have hlast : (lastNamed "placement_id" (entries (sampleTrack "slot-1"))).bind stringText =
      some (bytesOf "slot-1") := by decide +kernel
  have hparse : parseTrackRequestJSON 1000 emptyTrack body = .ok
      { campaignID := sampleID, userID := bytesOf "u1", type := bytesOf "click",
        clickID := bytesOf "c1", placementID := [], payload := bytesOf "\x7b\x7d" } := by decide +kernel
  refine ⟨trackObject_sample (by simp), hlast, hparse, ?_⟩
  rintro ⟨w, hw, hfaith⟩
  obtain rfl := Scan.ok.inj (hparse.symm.trans hw)
  have hplace := hlast.symm.trans hfaith.placementID
  exact absurd hplace (by decide)

end

end Espx.Ingestion
