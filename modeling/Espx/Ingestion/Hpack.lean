import Espx.Ingestion.Http1

/-!
# Header blocks of HTTP/2

`h2DecodeHeadersBlock` with its helpers and the static table as the source has it. An incomplete block and
an invalid one are different errors. The request is returned as it was filled so far in every case.
-/

namespace Espx.Ingestion

open Espx.Foundation

/-- The loop of `h2DecodeInt` over the bytes after the prefix. -/
def intLoop : ℕ → ℕ → ℕ → List UInt8 → Scan Unit (ℕ × ℕ)
  | _, _, _, [] => .incomplete
  | mult, val, off, b :: rest =>
    let val := val + (b &&& 0x7f).toNat * mult
    if b < 0x80 then .ok (val, off + 1)
    else if 2 ^ 30 < mult * 128 then .error ()
    else intLoop (mult * 128) val (off + 1) rest

/-- `h2DecodeInt`: the value and the offset after it. -/
def h2DecodeInt (data : List UInt8) (off : ℕ) (prefixMask : UInt8) : Scan Unit (ℕ × ℕ) :=
  if data.length ≤ off then .incomplete
  else do
    let b ← Scan.index data off
    let val := (b &&& prefixMask).toNat
    if val < prefixMask.toNat then .ok (val, off + 1)
    else intLoop 1 val (off + 1) (data.drop (off + 1))

/-- `h2DecodeString`. -/
def h2DecodeString (data : List UInt8) (off : ℕ) : Scan Unit (List UInt8 × ℕ) :=
  if data.length ≤ off then .incomplete
  else do
    let b ← Scan.index data off
    let (strLen, off) ← h2DecodeInt data off 0x7f
    if data.length < off + strLen then .incomplete
    else do
      let raw ← Scan.slice data off ((off + strLen : ℕ) : ℤ)
      if b &&& 0x80 ≠ 0 then .error () else .ok (raw, off + strLen)

/-- `h2StaticTable`. -/
def h2StaticTable : List (String × String) :=
  [(":authority", ""), (":method", "GET"), (":method", "POST"), (":path", "/"),
    (":path", "/index.html"), (":scheme", "http"), (":scheme", "https"), (":status", "200"),
    (":status", "204"), (":status", "206"), (":status", "304"), (":status", "400"), (":status", "404"),
    (":status", "500"), ("accept-charset", ""), ("accept-encoding", "gzip, deflate"),
    ("accept-language", ""), ("accept-ranges", "bytes"), ("accept", ""),
    ("access-control-allow-origin", ""), ("age", ""), ("allow", ""), ("authorization", ""),
    ("cache-control", ""), ("content-disposition", ""), ("content-encoding", ""),
    ("content-language", ""), ("content-length", ""), ("content-location", ""), ("content-range", ""),
    ("content-type", "text/html; charset=utf-8"), ("content-type", "text/plain; charset=utf-8"),
    ("content-type", "application/json"), ("cookie", ""), ("date", ""), ("etag", ""), ("expect", ""),
    ("expires", ""), ("from", ""), ("host", ""), ("if-match", ""), ("if-modified-since", ""),
    ("if-none-match", ""), ("if-range", ""), ("if-unmodified-since", ""), ("last-modified", ""),
    ("link", ""), ("location", ""), ("max-forwards", ""), ("proxy-authenticate", ""),
    ("proxy-authorization", ""), ("range", ""), ("referer", ""), ("refresh", ""), ("retry-after", ""),
    ("server", ""), ("set-cookie", ""), ("strict-transport-security", ""), ("transfer-encoding", ""),
    ("user-agent", ""), ("vary", ""), ("via", ""), ("www-authenticate", "")]

/-- A header field: its name and its value. -/
abbrev HeaderField := List UInt8 × List UInt8

/-- The entry of a static table at an index, which counts from one. -/
def staticEntry (table : List (String × String)) (index : ℕ) : Option HeaderField :=
  if index = 0 then none
  else table[index - 1]?.map fun entry => (bytesOf entry.1, bytesOf entry.2)

/-- `h2StaticNameValue`. -/
def h2StaticNameValue (index : ℕ) : Option HeaderField := staticEntry h2StaticTable index

/-- The name of a literal field: an entry of the table, or a string. -/
def literalName (block : List UInt8) (off : ℕ) : Scan Unit (List UInt8 × ℕ) := do
  let (nameIdx, off) ← h2DecodeInt block off 0x0f
  if 0 < nameIdx then
    match h2StaticNameValue nameIdx with
    | none => .error ()
    | some entry => .ok (entry.1, off)
  else h2DecodeString block off

/-- The literal representations, which the source has twice. -/
def literalField (block : List UInt8) (off : ℕ) : Scan Unit (HeaderField × ℕ) := do
  let (name, off) ← literalName block off
  let (val, off) ← h2DecodeString block off
  return ((name, val), off)

/-- One pass of the loop of `h2DecodeHeadersBlock` up to the assignment. -/
def decodeField (block : List UInt8) (off : ℕ) : Scan Unit (HeaderField × ℕ) := do
  let b ← Scan.index block off
  if b &&& 0x80 ≠ 0 then do
    let (idx, next) ← h2DecodeInt block off 0x7f
    match h2StaticNameValue idx with
    | none => .error ()
    | some entry => .ok (entry, next)
  else if b &&& 0x40 ≠ 0 then .error ()
  else if b &&& 0x20 ≠ 0 then .error ()
  else if b &&& 0x10 ≠ 0 then literalField block off
  else literalField block off

/-- `h2AssignHeader`: the request, and whether the field is accepted. -/
def h2AssignHeader (st : HeaderState) (field : HeaderField) : HeaderState × Bool :=
  let (key, val) := field
  if key.head? = some 58 then
    if key = bytesOf ":method" then ({ st with req := { st.req with method := val } }, true)
    else if key = bytesOf ":path" then
      ({ st with req := { st.req with path := val } },
        ¬ (0 < st.req.method.length ∧ ¬ http1IngressValid st.req.method val))
    else if key = bytesOf ":authority" ∨ key = bytesOf ":scheme" then (st, true)
    else (st, false)
  else if 256 < key.length then (st, false)
  else
    match st.http1AssignHeader (key.map httpFold) val with
    | none => (st, false)
    | some next => (next, true)

/-- The loop of `h2DecodeHeadersBlock`: the request, and how the loop ends. -/
def headersLoop (block : List UInt8) : ℕ → ℕ → HeaderState → HeaderState × Scan Unit Unit
  | 0, _, st => (st, .running)
  | fuel + 1, off, st =>
    if off < block.length then
      match decodeField block off with
      | .ok (field, next) =>
        if (h2AssignHeader st field).2 then headersLoop block fuel next (h2AssignHeader st field).1
        else ((h2AssignHeader st field).1, .error ())
      | .error e => (st, .error e)
      | .incomplete => (st, .incomplete)
      | .panic => (st, .panic)
      | .running => (st, .running)
    else (st, if st.hasTE then .error () else .ok ())

/-- `h2DecodeHeadersBlock`. -/
def h2DecodeHeadersBlock (block : List UInt8) (req : ParsedHTTPRequest) :
    ParsedHTTPRequest × Scan Unit Unit :=
  let out := headersLoop block (block.length + 1) 0 (HeaderState.init req)
  (out.1.req, out.2)

/-- A request of which nothing is known, with which `parseH2Ingress` begins. -/
def emptyRequest : ParsedHTTPRequest := ParsedHTTPRequest.ofLine [] []

end Espx.Ingestion
