import Espx.Ingestion.TrackScan

/-!
# What the track request parser does with a JSON object

The parser accepts an object where each member can be assigned, and the request is then the fold of
these assignments over the members in order.
-/

namespace Espx.Ingestion

open Espx.Foundation Scan

section

open Json

/-- The request after a member, where the parser accepts it. -/
def assign (kid : KeyID) (value : Value) (v : TrackRequest) : Option TrackRequest :=
  match kid with
  | .type => (stringText value).map fun text => { v with type := text }
  | .userID => (stringText value).map fun text => { v with userID := text }
  | .clickID => (stringText value).map fun text => { v with clickID := text }
  | .placementID => (stringText value).map fun text => { v with placementID := text }
  | .campaignID => (stringText value).bind fun text =>
    (parseUUID text v.campaignID).toOption.map fun id => { v with campaignID := id }
  | .payload => if value.depth ≤ maxJSONDepth then some { v with payload := value.render } else none
  | .unknown => if value.depth ≤ maxJSONDepth then some v else none

/-- The request after a member with a key. -/
def assignEntry (v : TrackRequest) (entry : Entry) : Option TrackRequest :=
  if 92 ∈ entry.1 then none else assign (trackKey entry.1) entry.2 v

/-- The request after the members of an object. -/
def assignAll (list : List Entry) (v : TrackRequest) : Option TrackRequest := list.foldlM assignEntry v

variable {ε : Type} {fault : ε} {data rest : List UInt8} {i : ℕ}

/-- A string value is read up to its closing quote; other values are refused. -/
theorem stringValue_value (v : Value) (h : data.drop i = v.render ++ rest) :
    (stringValue fault data i).toOption =
      (stringText v).map fun text => (text, i + v.render.length - 1) := by
  obtain ⟨b, text, hrend, -, hquote⟩ := Value.render_head v
  have hshape : data.drop i = b :: (text ++ rest) := by rw [h, hrend, List.cons_append]
  rw [stringValue, index_of_drop hshape, ok_bind]
  by_cases hb : b = 34
  · obtain ⟨value, hvalue⟩ := Option.isSome_iff_exists.mp (hquote.mp hb)
    cases v with
    | string chars =>
      obtain ⟨hloop, hle⟩ := stringLoop_of_drop h
      have hone : (renderString chars).length = (renderChars chars).length + 2 := by simp [renderString]
      have hnext : data.drop (i + 1) = renderChars chars ++ 34 :: rest := by
        have hopen : data.drop i = [34] ++ (renderChars chars ++ 34 :: rest) := by
          rw [h]
          simp [Value.render, renderString]
        exact drop_add hopen
      have hslice : (slice data ((i + 1 : ℕ) : ℤ) ((i + 1 + (renderChars chars).length : ℕ) : ℤ) :
          Scan ε (List UInt8)) = .ok (renderChars chars) := slice_of_drop hnext (by omega)
      rw [if_neg (not_not.mpr hb), hloop]
      rw [if_neg (by omega), hslice]
      have hstop : i + 1 + (renderChars chars).length = i + (Value.string chars).render.length - 1 := by
        change _ = i + (renderString chars).length - 1
        omega
      rw [hstop]
      rfl
    | _ => simp [stringText] at hvalue
  · rw [if_pos hb]
    cases htext : stringText v with
    | none => rfl
    | some value => exact absurd (hquote.mpr (by simp [htext])) hb

/-- A value is assigned to the field of its key. -/
theorem parseValue_value (kid : KeyID) (value : Value) (v : TrackRequest)
    (h : data.drop i = value.render ++ rest) (hi : i ≤ data.length) (hrest : Delimited rest) :
    (parseValue data i kid v).toOption =
      (assign kid value v).map fun w => (w, i + value.render.length) := by
  obtain ⟨b, text, hrend, -, -⟩ := Value.render_head value
  have hpos : i + value.render.length - 1 + 1 = i + value.render.length := by
    rw [hrend, List.length_cons]
    omega
  have hstr (f : List UInt8 → TrackRequest) :
      (stringValue v data i >>= fun found => pure (f found.1, found.2 + 1) :
        Scan TrackRequest (TrackRequest × ℕ)).toOption =
        ((stringText value).map f).map fun w => (w, i + value.render.length) := by
    rw [toOption_bind, stringValue_value value h]
    cases stringText value with
    | none => rfl
    | some text => rw [← hpos]; rfl
  cases kid with
  | type => exact hstr fun text => { v with type := text }
  | userID => exact hstr fun text => { v with userID := text }
  | clickID => exact hstr fun text => { v with clickID := text }
  | placementID => exact hstr fun text => { v with placementID := text }
  | campaignID =>
    rw [parseValue, assign, toOption_bind, stringValue_value value h]
    cases stringText value with
    | none => rfl
    | some text =>
      dsimp only [Option.map_some, Option.bind_some]
      rw [hpos]
      cases parseUUID text v.campaignID <;> rfl
  | payload =>
    rw [parseValue, assign, toOption_bind, skipJSONValue_value value h hrest]
    split
    · simp only [toOption_ok, Option.bind_some, slice_of_drop h hi, ok_bind]
      rfl
    · rfl
  | unknown =>
    rw [parseValue, assign, toOption_bind, skipJSONValue_value value h hrest]
    split <;> rfl

theorem skipJSONWS_of_drop (pad : Blank) (h : data.drop i = pad.text ++ rest) (hrest : NotBlank rest) :
    skipJSONWS data i = i + pad.text.length := by
  rw [skipJSONWS, h, (span_append pad.whitespace hrest).1]

/-- A member is assigned. -/
theorem parseMember_entry (chars : List Character) (after gap : Blank) (value : Value) (v : TrackRequest)
    (h : data.drop i = renderChars chars ++ 34 :: (after.text ++ 58 :: (gap.text ++ (value.render ++ rest))))
    (hi : i ≤ data.length) (hrest : Delimited rest) :
    ∃ stop, data.drop stop = rest ∧ stop ≤ data.length ∧
      (parseMember data i v).toOption =
        (assignEntry v (renderChars chars, value)).map fun w => (w, stop) := by
  have hquote := drop_add h
  have hafter := drop_succ hquote
  have hcolon := drop_add hafter
  have hgap := drop_succ hcolon
  have hvalue := drop_add hgap
  have hlengthValue : i + (renderChars chars).length + 1 + after.text.length + 1 + gap.text.length <
      data.length := by
    obtain ⟨b, text, hrend, -, -⟩ := Value.render_head value
    rw [hrend] at hvalue
    exact lt_length_of_drop hvalue
  refine ⟨_, drop_add hvalue, ?_, ?_⟩
  · have hend := congrArg List.length hvalue
    rw [List.length_drop, List.length_append] at hend
    omega
  rw [parseMember, h, keyLoop_chars, assignEntry]
  by_cases hesc : 92 ∈ renderChars chars
  · rw [if_pos hesc, if_pos hesc]
    rfl
  rw [if_neg hesc, if_neg hesc]
  dsimp only
  rw [skipJSONWS_of_drop after hafter (by simp [NotBlank, isWhitespace]), if_neg (by omega),
    if_neg (by omega), index_of_drop hcolon, ok_bind,
    skipJSONWS_of_drop gap hgap (.value value rest), if_neg (by decide), if_neg (by omega),
    slice_of_drop h hi, ok_bind, matchTrackKey_eq, ok_bind,
    parseValue_value _ value v hvalue (by omega) hrest]

theorem Delimited.blank (pad : Blank) {b : UInt8} (hb : isDelimiter b = true) (rest : List UInt8) :
    Delimited (pad.text ++ b :: rest) := by
  refine pad.forall_head (fun c hc => ?_) hb rest
  simp [isDelimiter, hc]

/-- One pass of the loop over the members. -/
theorem parseMembers_member (name : Name) (gap : Blank) (value : Value) (after : Blank) {b : UInt8}
    (hb : b = 44 ∨ b = 125) (fuel : ℕ) (v : TrackRequest)
    (h : data.drop i = name.render ++ 58 :: gap.text ++ value.render ++ after.text ++ b :: rest) :
    ∃ stop, data.drop stop = rest ∧
      (parseMembers data (fuel + 1) i v).toOption =
        (assignEntry v (renderChars name.chars, value)).bind fun w =>
          if b = 44 then (parseMembers data fuel stop w).toOption else some w := by
  rw [member_append] at h
  have hpre := skipJSONWS_of_drop name.before h (.cons (by decide) _)
  have hquote := drop_add h
  have hlen := lt_length_of_drop hquote
  have hdelim : isDelimiter b = true := by rcases hb with rfl | rfl <;> decide
  have hnotBlank : NotBlank (b :: rest) := .cons (by rcases hb with rfl | rfl <;> decide) rest
  obtain ⟨stop, hstop, -, hmem⟩ := parseMember_entry name.chars name.after gap value v
    (drop_succ hquote) (by omega) (Delimited.blank after hdelim rest)
  have hnext := skipJSONWS_of_drop after hstop hnotBlank
  have hend := drop_add hstop
  have hlengthEnd := lt_length_of_drop hend
  refine ⟨_, drop_succ hend, ?_⟩
  rw [parseMembers, hpre]
  rw [if_neg (by omega), if_neg (by omega), index_of_drop hquote, ok_bind,
    if_neg (by decide), if_neg (by decide), toOption_bind, hmem]
  cases assignEntry v (renderChars name.chars, value) with
  | none => rfl
  | some w =>
    simp only [Option.map_some, Option.bind_some]
    rw [hnext, if_neg (by omega), index_of_drop hend, ok_bind]
    rcases hb with rfl | rfl
    · rw [if_pos rfl, if_pos rfl]
    · rfl

/-- The parser assigns the members of an object in order. -/
theorem parseMembers_members (members : Members) {fuel start : ℕ} (hfuel : count members ≤ fuel)
    (v : TrackRequest) (h : data.drop start = members.render ++ 125 :: rest) :
    (parseMembers data fuel start v).toOption = assignAll (entries members) v := by
  match members, fuel with
  | .last name gap value after, fuel + 1 =>
    obtain ⟨stop, -, hpass⟩ := parseMembers_member name gap value after (Or.inr rfl) fuel v h
    rw [hpass]
    cases hentry : assignEntry v (renderChars name.chars, value) <;> simp [assignAll, entries, hentry]
  | .cons name gap value after more, fuel + 1 =>
    rw [Members.cons_append] at h
    obtain ⟨stop, hstop, hpass⟩ := parseMembers_member name gap value after (Or.inl rfl) fuel v h
    rw [hpass]
    cases hentry : assignEntry v (renderChars name.chars, value) with
    | none => simp [assignAll, entries, hentry]
    | some w =>
      have hrest := parseMembers_members more (Nat.le_of_succ_le_succ hfuel) w hstop
      simpa [assignAll, entries, hentry] using hrest
  | .last .., 0 => exact absurd hfuel (by simp [count])
  | .cons .., 0 => exact absurd hfuel (by simp [count])

/-- The parser accepts an object where its members can be assigned in order. -/
theorem parseTrackRequestJSON_object {object : Value} {list : List Entry}
    (hobj : objectEntries object = some list) (before : Blank) (after : List UInt8) {fuel : ℕ}
    (v : TrackRequest) (hfuel : (before.text ++ object.render ++ after).length < fuel) :
    (parseTrackRequestJSON fuel v (before.text ++ object.render ++ after)).toOption =
      assignAll list v.resetForParse := by
  generalize hdata : before.text ++ object.render ++ after = data at hfuel ⊢
  have hshape : data.drop 0 = before.text ++ (object.render ++ after) := by simp [← hdata]
  have hstart := skipJSONWS_of_drop before hshape (.value object after)
  rw [Nat.zero_add] at hstart
  have hopen : ∃ text, object.render = 123 :: text := by
    cases object <;> simp [objectEntries, Value.render] at hobj ⊢
  obtain ⟨text, htext⟩ := hopen
  have hbrace : data.drop before.text.length = 123 :: (text ++ after) := by
    have := drop_add hshape
    rwa [Nat.zero_add, htext, List.cons_append] at this
  have hlen := lt_length_of_drop hbrace
  have hnext := drop_succ hbrace
  rw [parseTrackRequestJSON, hstart, if_neg (by omega), if_neg (by omega), index_of_drop hbrace,
    ok_bind, if_neg (by decide)]
  cases object with
  | emptyObject pad =>
    obtain rfl : list = [] := (Option.some.inj hobj).symm
    have hclose : data.drop (before.text.length + 1) = pad.text ++ 125 :: after := by
      rw [hnext, ← (List.cons.inj htext).2]
      simp
    obtain ⟨fuel, rfl⟩ := Nat.exists_eq_add_of_lt (Nat.zero_lt_of_lt hfuel)
    have hend := drop_add hclose
    have hlengthEnd := lt_length_of_drop hend
    rw [parseMembers, skipJSONWS_of_drop pad hclose (by simp [NotBlank, isWhitespace]),
      if_neg (by omega), if_neg (by omega), index_of_drop hend]
    rfl
  | object members =>
    obtain rfl : entries members = list := Option.some.inj hobj
    have hclose : data.drop (before.text.length + 1) = members.render ++ 125 :: after := by
      rw [hnext, ← (List.cons.inj htext).2]
      simp
    have hcount := count_le members
    have hrend : members.render.length ≤ data.length := by
      have := congrArg List.length hclose
      rw [List.length_drop, List.length_append] at this
      omega
    exact parseMembers_members members (by omega) _ hclose
  | _ => simp [objectEntries] at hobj

end

end Espx.Ingestion
