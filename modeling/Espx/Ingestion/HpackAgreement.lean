import Espx.Ingestion.HpackAssign
import Espx.Ingestion.HpackEncoding

/-!
# Header blocks by the two static tables

`h2DecodeHeadersBlock` assigns the fields that the table of the source names. From its thirty-first entry
on that table is not the one of RFC 7541; what a request can lose or get by that is its content type and
its user agent. `http1IngressValid` is asked at `:path` only, so that a later `:method` is not looked at.
-/

namespace Espx.Ingestion

open Espx.Foundation HeaderState Encoded List

section

/-- A key that `http1AssignHeader` ignores, or of which it assigns only what is masked. -/
def quietKey (key : List UInt8) : Bool :=
  key.length ≠ 9 ∧ key.length ≠ 14 ∧ key.length ≠ 15 ∧
    (key.length = 6 → foldKeyU32 key 0 ≠ 0x65636361) ∧ (key.length = 10 → foldKeyU32 key 0 ≠ 0x6c742d78)

/-- A header field with a quiet key. -/
def quietField (field : HeaderField) : Bool :=
  field.1.head? ≠ some 58 ∧ ¬ 256 < field.1.length ∧ quietKey (field.1.map httpFold)

variable (st : HeaderState)

/-- A quiet key changes only what is masked. -/
theorem http1AssignHeader_quiet {key : List UInt8} (val : List UInt8) (h : quietKey key = true) :
    (st.http1AssignHeader key val).map masked = some st.masked := by
  obtain ⟨h9, h14, h15, h6, h10⟩ := of_decide_eq_true h
  unfold http1AssignHeader
  split
  case h_1 hlen =>
    rw [if_neg fun htest => h6 hlen htest.1]
    rfl
  case h_2 hlen => exact absurd hlen h9
  case h_3 hlen =>
    rw [if_neg (show ¬ (foldKeyU32 key 0 = 0x6c742d78 ∧ _) from fun htest => h10 hlen htest.1)]
    split <;> rfl
  case h_4 => split <;> rfl
  case h_5 hlen => exact absurd hlen h14
  case h_6 hlen => exact absurd hlen h15
  case h_7 =>
    split
    · exact congrArg some (masked_setTransferEncoding st val)
    · rfl
  case h_8 => rfl

/-- A quiet field is accepted and changes only what is masked. -/
theorem h2AssignHeader_quiet {field : HeaderField} (h : quietField field = true) :
    (h2AssignHeader st field).map masked id = (st.masked, true) := by
  obtain ⟨hcolon, hlong, hkey⟩ := of_decide_eq_true h
  have hquiet := http1AssignHeader_quiet st field.2 hkey
  unfold h2AssignHeader
  dsimp only
  rw [if_neg hcolon, if_neg hlong]
  cases hset : st.http1AssignHeader (field.1.map httpFold) field.2 with
  | none =>
    rw [hset] at hquiet
    cases hquiet
  | some next =>
    rw [hset] at hquiet
    exact congrArg (·, true) (Option.some.inj hquiet)

/-- Whether a field is accepted, and what it changes otherwise, does not depend on what is masked. -/
theorem h2AssignHeader_masked (field : HeaderField) :
    (h2AssignHeader st.masked field).map masked id = (h2AssignHeader st field).map masked id := by
  obtain ⟨key, val⟩ := field
  have hhdr := masked_http1AssignHeader st (key.map httpFold) val
  unfold h2AssignHeader
  dsimp only
  split
  · split
    · rfl
    split
    · rfl
    · split
      · rfl
      · rfl
  · split
    · rfl
    cases hset : st.http1AssignHeader (key.map httpFold) val with
    | none =>
      rw [hset, Option.map_none, Option.map_eq_none_iff] at hhdr
      rw [hhdr]
      rfl
    | some next =>
      rw [hset, Option.map_some, Option.map_eq_some_iff] at hhdr
      obtain ⟨other, hother, hmasked⟩ := hhdr
      rw [hother]
      exact congrArg (·, true) hmasked

/-- By the two tables a representation stands for the same field, or for two quiet ones. -/
theorem field_agrees (e : Encoded) :
    e.field rfcStaticTable = e.field h2StaticTable ∨
      quietField (e.field rfcStaticTable) = true ∧ quietField (e.field h2StaticTable) = true := by
  have hplace : ∀ place : StaticPlace, entryAt rfcStaticTable place = entryAt h2StaticTable place ∨
      quietField (entryAt rfcStaticTable place) = true ∧
        quietField (entryAt h2StaticTable place) = true := by
    decide +kernel
  rcases e with place | ⟨never, place | bytes, value⟩
  · exact hplace place
  · rcases hplace place with hsame | hquiet
    · exact .inl (congrArg (fun entry : HeaderField => (entry.1, value)) hsame)
    · exact .inr hquiet
  · exact .inl rfl

variable {a b : HeaderState}

/-- One field, read by the two tables. -/
theorem h2AssignHeader_tables (e : Encoded) (h : a.masked = b.masked) :
    (h2AssignHeader a (e.field rfcStaticTable)).map masked id =
      (h2AssignHeader b (e.field h2StaticTable)).map masked id := by
  rcases field_agrees e with hsame | ⟨hrfc, hsrc⟩
  · rw [hsame, ← h2AssignHeader_masked a, h, h2AssignHeader_masked b]
  · rw [h2AssignHeader_quiet a hrfc, h2AssignHeader_quiet b hsrc, h]

/-- A list of fields, read by the two tables. -/
theorem assignFields_tables (fields : List Encoded) (h : a.masked = b.masked) :
    (assignFields a (fields.map (field rfcStaticTable))).1.masked =
      (assignFields b (fields.map (field h2StaticTable))).1.masked := by
  induction fields generalizing a b with
  | nil => exact h
  | cons e rest ih =>
    have hnext := congrArg Prod.fst (h2AssignHeader_tables e h)
    have hacc := congrArg Prod.snd (h2AssignHeader_tables e h)
    dsimp only [Prod.map_snd, id] at hacc
    rw [map_cons, map_cons, assignFields, assignFields, hacc]
    split
    · exact ih hnext
    · exact hnext

end

section

/-- The fields of a list that the source reads. -/
def readablePart (fields : List Encoded) : List Encoded := fields.takeWhile readable

/-- An encoded list is assigned up to the first field that is refused or not read. -/
theorem headersLoop_encoded {block : List UInt8} {fuel off : ℕ} (st : HeaderState)
    (fields : List Encoded) (h : block.drop off = encodeBlock fields) (hfuel : fields.length < fuel) :
    (headersLoop block fuel off st).1 =
      (assignFields st ((readablePart fields).map (field h2StaticTable))).1 := by
  induction fields generalizing fuel off st with
  | nil =>
    obtain ⟨fuel, rfl⟩ : ∃ n, fuel = n + 1 := ⟨fuel - 1, by omega⟩
    have hend : block.length ≤ off := drop_eq_nil_iff.mp h
    rw [headersLoop, if_neg (by omega)]
    rfl
  | cons e rest ih =>
    obtain ⟨fuel, rfl⟩ : ∃ n, fuel = n + 1 := ⟨fuel - 1, by omega⟩
    rw [length_cons] at hfuel
    have hdrop : block.drop off = e.bytes ++ encodeBlock rest := by
      rw [h, encodeBlock, flatMap_cons]
      rfl
    have hlt : off < block.length := by
      have hlen := congrArg List.length hdrop
      have := e.bytes_pos
      rw [length_drop, length_append] at hlen
      omega
    rw [headersLoop, if_pos hlt, decodeField_encoded e hdrop]
    unfold readablePart
    by_cases hread : e.readable = true
    · rw [if_pos hread, takeWhile_cons_of_pos hread, map_cons, assignFields]
      dsimp only
      split
      · exact ih _ (Scan.drop_add hdrop) (by omega)
      · rfl
    · rw [if_neg hread, takeWhile_cons_of_neg hread]
      rfl

/-- The request that `h2DecodeHeadersBlock` fills from an encoded list. -/
theorem h2DecodeHeadersBlock_encoded (fields : List Encoded) (req : ParsedHTTPRequest) :
    (h2DecodeHeadersBlock (encodeBlock fields) req).1 =
      (assignFields (HeaderState.init req) ((readablePart fields).map (field h2StaticTable))).1.req := by
  have hlen : fields.length ≤ (encodeBlock fields).length := by
    induction fields with
    | nil => exact Nat.le_refl 0
    | cons e rest ih =>
      have := e.bytes_pos
      rw [encodeBlock, flatMap_cons, length_append, length_cons]
      unfold encodeBlock at ih
      omega
  unfold h2DecodeHeadersBlock
  dsimp only
  rw [headersLoop_encoded (HeaderState.init req) fields drop_zero (by omega)]

/-- The value of a header in the request that the fields up to the first refused one give. -/
def givenHeader (name : String) (given : List UInt8) (fields : List HeaderField) : List UInt8 :=
  (lastUnder (isHeader name) fields).getD given

/-- The two tables give the request the same content type and user agent, and no field that the source
does not read or that follows one gives it anything else. -/
structure TablesAgree (req : ParsedHTTPRequest) (fields : List Encoded) : Prop where
  contentType :
    givenHeader "content-type" req.contentType (appliedFields (HeaderState.init req)
        (fields.map (field rfcStaticTable))) =
      givenHeader "content-type" req.contentType (appliedFields (HeaderState.init req)
        ((readablePart fields).map (field h2StaticTable)))
  userAgent :
    givenHeader "user-agent" req.userAgent (appliedFields (HeaderState.init req)
        (fields.map (field rfcStaticTable))) =
      givenHeader "user-agent" req.userAgent (appliedFields (HeaderState.init req)
        ((readablePart fields).map (field h2StaticTable)))
  unread :
    (assignFields (HeaderState.init req) (fields.map (field rfcStaticTable))).1.masked.req =
      (assignFields (HeaderState.init req)
        ((readablePart fields).map (field rfcStaticTable))).1.masked.req

variable (req : ParsedHTTPRequest)

/-- The content type after a list of fields. -/
theorem contentType_assigned (fields : List HeaderField) :
    (assignFields (HeaderState.init req) fields).1.req.contentType =
      givenHeader "content-type" req.contentType (appliedFields (HeaderState.init req) fields) :=
  @assignFields_last (HeaderState.init req) (isHeader "content-type") (fun st => st.req.contentType)
    (fun st field => congrArg (fun parts => parts.2.2.1) (h2AssignHeader_parts st field)) fields

/-- The user agent after a list of fields. -/
theorem userAgent_assigned (fields : List HeaderField) :
    (assignFields (HeaderState.init req) fields).1.req.userAgent =
      givenHeader "user-agent" req.userAgent (appliedFields (HeaderState.init req) fields) :=
  @assignFields_last (HeaderState.init req) (isHeader "user-agent") (fun st => st.req.userAgent)
    (fun st field => congrArg (fun parts => parts.2.2.2) (h2AssignHeader_parts st field)) fields

/-- The request filled from an encoded list is that of RFC 7541 where the tables agree. -/
theorem block_assigned_iff (fields : List Encoded) :
    (h2DecodeHeadersBlock (encodeBlock fields) req).1 =
        (assignFields (HeaderState.init req) (fields.map (field rfcStaticTable))).1.req ↔
      TablesAgree req fields := by
  have htabs := congrArg HeaderState.req
    (assignFields_tables (readablePart fields) (Eq.refl (HeaderState.init req).masked))
  rw [h2DecodeHeadersBlock_encoded, req_eq_iff, ← htabs, contentType_assigned,
    contentType_assigned, userAgent_assigned, userAgent_assigned]
  constructor
  · rintro ⟨hunread, hcont, hagent⟩
    exact ⟨hcont.symm, hagent.symm, hunread.symm⟩
  · rintro ⟨hcont, hagent, hunread⟩
    exact ⟨hunread.symm, hcont.symm, hagent.symm⟩

end

section

/-- The fields that the loop of `h2DecodeHeadersBlock` decodes. -/
def decodedLoop (block : List UInt8) : ℕ → ℕ → List HeaderField
  | 0, _ => []
  | fuel + 1, off =>
    if off < block.length then
      match decodeField block off with
      | .ok (field, next) => field :: decodedLoop block fuel next
      | _ => []
    else []

/-- The fields of a block. -/
def decodedFields (block : List UInt8) : List HeaderField := decodedLoop block (block.length + 1) 0

/-- A block that is decoded without an error is accepted field by field. -/
theorem headersLoop_ok {block : List UInt8} {fuel off : ℕ} {st : HeaderState}
    (h : (headersLoop block fuel off st).2 = .ok ()) :
    (assignFields st (decodedLoop block fuel off)).2 = true ∧
      (headersLoop block fuel off st).1 = (assignFields st (decodedLoop block fuel off)).1 := by
  induction fuel generalizing off st with
  | zero => cases h
  | succ fuel ih =>
    rw [headersLoop] at h ⊢
    rw [decodedLoop]
    by_cases hlt : off < block.length
    · rw [if_pos hlt] at h ⊢
      rw [if_pos hlt]
      cases hfield : decodeField block off with
      | ok out =>
        obtain ⟨field, next⟩ := out
        rw [hfield] at h
        dsimp only at h ⊢
        rw [assignFields]
        by_cases hacc : (h2AssignHeader st field).2 = true
        · rw [if_pos hacc] at h ⊢
          rw [if_pos hacc]
          exact ih h
        · rw [if_neg hacc] at h
          cases h
      | error e | incomplete | panic | running =>
        rw [hfield] at h
        cases h
    · rw [if_neg hlt, if_neg hlt]
      exact ⟨rfl, rfl⟩

/-- The last of the fields `:method` and `:path` is a `:path`. -/
def pathComesLast (fields : List HeaderField) : Bool :=
  (fields.reverse.find? fun field => isPseudo ":method" field.1 || isPseudo ":path" field.1).map
    Prod.fst = some (bytesOf ":path")

variable {st : HeaderState} {fields : List HeaderField} {method path : List UInt8}

/-- The method and the path of an accepted list are the last ones. -/
theorem pseudo_assigned (h : (assignFields st fields).2 = true) :
    (assignFields st fields).1.req.method = (lastUnder (isPseudo ":method") fields).getD st.req.method ∧
      (assignFields st fields).1.req.path = (lastUnder (isPseudo ":path") fields).getD st.req.path := by
  have hmeth := @assignFields_last st (isPseudo ":method") (fun st => st.req.method)
    (fun st field => congrArg (fun parts => parts.1) (h2AssignHeader_parts st field)) fields
  have hpath := @assignFields_last st (isPseudo ":path") (fun st => st.req.path)
    (fun st field => congrArg (fun parts => parts.2.1) (h2AssignHeader_parts st field)) fields
  rw [appliedFields_of_accepted st h] at hmeth hpath
  exact ⟨hmeth, hpath⟩

/-- A `:path` that is accepted fits the method that the request has. -/
theorem path_accepted {val : List UInt8} (h : (h2AssignHeader st (bytesOf ":path", val)).2 = true)
    (hmeth : st.req.method ≠ []) : http1IngressValid st.req.method val = true := by
  have hpos : 0 < st.req.method.length := length_pos_iff.mpr hmeth
  have hcheck : (h2AssignHeader st (bytesOf ":path", val)).2 =
      decide (¬ (0 < st.req.method.length ∧ ¬ http1IngressValid st.req.method val)) := rfl
  rw [hcheck, decide_eq_true_iff] at h
  by_contra hbad
  exact h ⟨hpos, hbad⟩

/-- The last value after a field under which nothing follows. -/
theorem lastUnder_append_of_not {p : List UInt8 → Bool} (first : List HeaderField)
    {second : List HeaderField} (h : ∀ field ∈ second, p field.1 = false) :
    lastUnder p (first ++ second) = lastUnder p first := by
  have hnone : (second.reverse.find? fun field => p field.1) = none := by
    rw [find?_eq_none]
    intro field hfield
    rw [h field (mem_reverse.mp hfield)]
    exact Bool.false_ne_true
  unfold lastUnder
  rw [reverse_append, find?_append, hnone, Option.none_or]

/-- Where the last of the two is `:path`, the pair was looked at. -/
theorem ingress_of_path_last (h : (assignFields st fields).2 = true) (hlast : pathComesLast fields = true)
    (hmeth : lastUnder (isPseudo ":method") fields = some method)
    (hpath : lastUnder (isPseudo ":path") fields = some path) (hne : method ≠ []) :
    http1IngressValid method path = true := by
  obtain ⟨⟨key, val⟩, hfind, rfl⟩ := Option.map_eq_some_iff.mp (of_decide_eq_true hlast)
  obtain ⟨-, later, earlier, hsplit, hlater⟩ := find?_eq_some_iff_append.mp hfind
  have hflds : fields = (earlier.reverse ++ [(bytesOf ":path", val)]) ++ later.reverse := by
    rw [← reverse_reverse fields, hsplit, reverse_append, reverse_cons]
  have hnone (p : List UInt8 → Bool) (hp : ∀ key, p key = true →
      (isPseudo ":method" key || isPseudo ":path" key) = true) :
      ∀ field ∈ later.reverse, p field.1 = false := by
    intro field hfield
    have hnot := hlater field (mem_reverse.mp hfield)
    by_contra htrue
    rw [hp field.1 (by simpa using htrue)] at hnot
    cases hnot
  have hnoMethod := hnone (isPseudo ":method") fun key hkey => by rw [hkey, Bool.true_or]
  have hnoPath := hnone (isPseudo ":path") fun key hkey => by rw [hkey, Bool.or_true]
  have hpathKey : ∀ field ∈ [(bytesOf ":path", val)], isPseudo ":method" field.1 = false := by
    intro field hfield
    rw [mem_singleton.mp hfield]
    exact (by decide : isPseudo ":method" (bytesOf ":path") = false)
  rw [hflds, lastUnder_append_of_not _ hnoPath] at hpath
  rw [hflds, lastUnder_append_of_not _ hnoMethod, lastUnder_append_of_not _ hpathKey] at hmeth
  rw [hflds] at h
  have hpart := assignFields_append st h
  have hpre := assignFields_append st hpart.1
  have hcheck := hpart.1
  rw [hpre.2, assignFields] at hcheck
  have hstate := (pseudo_assigned hpre.1).1
  rw [hmeth, Option.getD_some] at hstate
  have hval : val = path := by
    unfold lastUnder at hpath
    rw [reverse_append] at hpath
    exact Option.some.inj hpath
  by_cases hacc : (h2AssignHeader (assignFields st earlier.reverse).1 (bytesOf ":path", val)).2 = true
  · have hvalid := path_accepted hacc (by rwa [hstate])
    rwa [hstate, hval] at hvalid
  · rw [if_neg hacc] at hcheck
    cases hcheck

/-- The pair that a decoded block gives. -/
theorem ingress_iff {block : List UInt8} {req : ParsedHTTPRequest}
    (h : (h2DecodeHeadersBlock block req).2 = .ok ())
    (hmeth : lastUnder (isPseudo ":method") (decodedFields block) = some method)
    (hpath : lastUnder (isPseudo ":path") (decodedFields block) = some path) :
    http1IngressValid (h2DecodeHeadersBlock block req).1.method
        (h2DecodeHeadersBlock block req).1.path = true ↔
      (pathComesLast (decodedFields block) = true ∧ method ≠ []) ∨
        http1IngressValid method path = true := by
  obtain ⟨hacc, hstate⟩ := headersLoop_ok h
  obtain ⟨hlastMethod, hlastPath⟩ := pseudo_assigned hacc
  have hflds : decodedLoop block (block.length + 1) 0 = decodedFields block := rfl
  rw [hflds] at hacc hstate hlastMethod hlastPath
  have hresultMethod : (h2DecodeHeadersBlock block req).1.method = method := by
    change (headersLoop block (block.length + 1) 0 (HeaderState.init req)).1.req.method = method
    rw [hstate, hlastMethod, hmeth, Option.getD_some]
  have hresultPath : (h2DecodeHeadersBlock block req).1.path = path := by
    change (headersLoop block (block.length + 1) 0 (HeaderState.init req)).1.req.path = path
    rw [hstate, hlastPath, hpath, Option.getD_some]
  rw [hresultMethod, hresultPath]
  constructor
  · exact fun hvalid => .inr hvalid
  · rintro (⟨hlast, hne⟩ | hvalid)
    · exact ingress_of_path_last hacc hlast hmeth hpath hne
    · exact hvalid

/-- A header block is decoded as RFC 7541 says exactly where the two static tables give the request the
same content type and user agent, and passes the check of ingress exactly where the last `:path` comes
after the last `:method`, which is not empty, or the check accepts the two. -/
theorem header_block_decoded (req : ParsedHTTPRequest) :
    (∀ fields : List Encoded,
      (h2DecodeHeadersBlock (encodeBlock fields) req).1 =
          (assignFields (HeaderState.init req) (fields.map (Encoded.field rfcStaticTable))).1.req ↔
        TablesAgree req fields) ∧
    ∀ block method path : List UInt8,
      (h2DecodeHeadersBlock block req).2 = .ok () →
      lastUnder (isPseudo ":method") (decodedFields block) = some method →
      lastUnder (isPseudo ":path") (decodedFields block) = some path →
      (http1IngressValid (h2DecodeHeadersBlock block req).1.method
          (h2DecodeHeadersBlock block req).1.path = true ↔
        (pathComesLast (decodedFields block) = true ∧ method ≠ []) ∨
          http1IngressValid method path = true) :=
  ⟨block_assigned_iff req, fun _ _ _ h hmeth hpath => ingress_iff h hmeth hpath⟩

/-- A user agent under its static name, place 57 of the table of RFC 7541. -/
def sampleAgent : List Encoded := [.literal false (.static 57) (bytesOf "curl")]

/-- A path that no method admits, before the method. -/
def samplePathFirst : List Encoded :=
  [.literal false (.static 3) (bytesOf "/admin"), .indexed 2]

/-- The user agent of a request is lost, and a block with its method last is decoded to a pair that the
check refuses. -/
theorem header_block_misread :
    ¬ ((h2DecodeHeadersBlock (encodeBlock sampleAgent) emptyRequest).1 =
        (assignFields (HeaderState.init emptyRequest)
          (sampleAgent.map (Encoded.field rfcStaticTable))).1.req) ∧
      (h2DecodeHeadersBlock (encodeBlock samplePathFirst) emptyRequest).2 = .ok () ∧
      (h2DecodeHeadersBlock (encodeBlock samplePathFirst) emptyRequest).1.method = bytesOf "POST" ∧
      (h2DecodeHeadersBlock (encodeBlock samplePathFirst) emptyRequest).1.path = bytesOf "/admin" ∧
      http1IngressValid (bytesOf "POST") (bytesOf "/admin") = false := by
  decide +kernel

/-- A list with its path last is decoded as RFC 7541 says and passes the check. -/
def sampleTracked : List Encoded :=
  [.indexed 2, .literal true (.static 3) (bytesOf "/track"), .literal false (.text (bytesOf "User-Agent"))
    (bytesOf "curl")]

/-- The block of a tracked request. -/
theorem header_block_decoded_tracked :
    (h2DecodeHeadersBlock (encodeBlock sampleTracked) emptyRequest).1 =
        (assignFields (HeaderState.init emptyRequest)
          (sampleTracked.map (Encoded.field rfcStaticTable))).1.req ∧
      http1IngressValid (h2DecodeHeadersBlock (encodeBlock sampleTracked) emptyRequest).1.method
        (h2DecodeHeadersBlock (encodeBlock sampleTracked) emptyRequest).1.path = true :=
  ⟨((header_block_decoded emptyRequest).1 sampleTracked).mpr
      ⟨by decide +kernel, by decide +kernel, by decide +kernel⟩,
    ((header_block_decoded emptyRequest).2 (encodeBlock sampleTracked) (bytesOf "POST") (bytesOf "/track")
      (by decide +kernel) (by decide +kernel) (by decide +kernel)).mpr (.inl (by decide +kernel))⟩

end

end Espx.Ingestion
