import Espx.Ingestion.Http1Chunked

/-!
# The HTTP/1 parser

`parseHTTP1` with its fast path, its header table and both framings of a body. The buffer is what
has arrived of a connection so far. The nested loops over a line are one pass over the bytes that
knows its place in the line.
-/

namespace Espx.Ingestion

open Espx.Foundation

/-- `httpFold`: letters in lower case. -/
def httpFold (b : UInt8) : UInt8 := if 65 ≤ b ∧ b ≤ 90 then b + 32 else b

/-- The folded byte at an index. -/
def foldAt (key : List UInt8) (i : ℕ) : UInt8 := httpFold (key.getD i 0)

/-- `foldKeyU32`. -/
def foldKeyU32 (key : List UInt8) (off : ℕ) : UInt32 :=
  (foldAt key off).toUInt32 ||| ((foldAt key (off + 1)).toUInt32 <<< 8) |||
    ((foldAt key (off + 2)).toUInt32 <<< 16) ||| ((foldAt key (off + 3)).toUInt32 <<< 24)

/-- `foldKeyU64`. -/
def foldKeyU64 (key : List UInt8) (off : ℕ) : UInt64 :=
  (foldKeyU32 key off).toUInt64 ||| ((foldKeyU32 key (off + 4)).toUInt64 <<< 32)

/-- A blank inside a line. -/
def isBlank (b : UInt8) : Bool := b = 32 ∨ b = 9

/-- A byte that no line may hold. -/
def isControl (b : UInt8) : Bool := b = 0 ∨ (b < 0x20 ∧ b ≠ 9)

/-- `trimHTTPKey`. -/
def trimHTTPKey (b : List UInt8) : List UInt8 := (b.reverse.dropWhile isBlank).reverse

/-- `trimHTTPVal`. -/
def trimHTTPVal (b : List UInt8) : List UInt8 := trimHTTPKey (b.dropWhile isBlank)

/-- `httpTokenValid`. -/
def httpTokenValid (b : List UInt8) : Bool := b.all (fun c => ¬ (c < 0x21 ∨ 0x7E < c)) ∧ b ≠ []

/-- `httpPathValid`. -/
def httpPathValid (b : List UInt8) : Bool := b.all (fun c => ¬ (c < 0x20 ∨ 0x7E < c)) ∧ b ≠ []

/-- `httpHeaderValValid`. -/
def httpHeaderValValid (b : List UInt8) : Bool := b.all fun c => ¬ (isControl c ∨ c = 0x7F)

/-- `http1VersionValid`. -/
def http1VersionValid (b : List UInt8) : Bool :=
  b.length = 8 ∧ foldKeyU32 b 0 = 0x70747468 ∧ foldKeyU32 b 4 = 0x312e312f

/-- The bytes of a text of the source. -/
def bytesOf (text : String) : List UInt8 := text.toList.map fun c => UInt8.ofNat c.toNat

/-- `httpPathHasPrefix`: the path is the given one, or goes on with a query or a segment. -/
def httpPathStarts (path : List UInt8) (text : String) : Bool :=
  path.take (bytesOf text).length = bytesOf text ∧
    (path.length = (bytesOf text).length ∨ path.getD (bytesOf text).length 0 = 63 ∨
      path.getD (bytesOf text).length 0 = 47)

/-- `http1IngressValid`. -/
def http1IngressValid (method path : List UInt8) : Bool :=
  if method = bytesOf "POST" then
    httpPathStarts path "/track" ∨ httpPathStarts path "/openrtb/bid" ∨ httpPathStarts path "/tg/bid"
  else if method = bytesOf "GET" then
    path = bytesOf "/health" ∨ path = bytesOf "/healthz" ∨ path = bytesOf "/ready" ∨
      path = bytesOf "/readyz" ∨ path = bytesOf "/metrics" ∨ httpPathStarts path "/click" ∨
      httpPathStarts path "/tg/click" ∨ httpPathStarts path "/tg/impression"
  else false

/-- The loop of `parseContentLengthStrict`. -/
def contentLengthLoop : ℤ → List UInt8 → Option ℤ
  | val, [] => some val
  | val, c :: rest =>
    if c < 48 ∨ 57 < c then none
    else if (2 ^ 31 - 1) / 10 < val then none
    else contentLengthLoop (val * 10 + (c - 48).toNat) rest

/-- `parseContentLengthStrict`. -/
def parseContentLengthStrict (b : List UInt8) : Option ℤ :=
  if b = [] then none else contentLengthLoop 0 b

/-- The tokens of a list of transfer encodings, as both loops find them: what stands between commas
without the blanks in front. -/
def teTokens (val : List UInt8) : List (List UInt8) :=
  ((val.splitOn 44).map (·.dropWhile isBlank)).filter (· ≠ [])

/-- The token is `chunked`. -/
def isChunkedToken (token : List UInt8) : Bool :=
  token.length = 7 ∧ foldKeyU32 token 0 = 0x6e756863 ∧ foldAt token 4 = 107 ∧
    foldAt token 5 = 101 ∧ foldAt token 6 = 100

/-- `teValueHasChunked`. -/
def teValueHasChunked (val : List UInt8) : Bool := (teTokens val).any isChunkedToken

/-- The loop of `teValueOnlyChunked`. -/
def onlyChunkedLoop (found : Bool) : List (List UInt8) → Bool
  | [] => found
  | token :: rest =>
    if isChunkedToken (trimHTTPVal token) then if found then false else onlyChunkedLoop true rest
    else false

/-- `teValueOnlyChunked`. -/
def teValueOnlyChunked (val : List UInt8) : Bool :=
  teValueHasChunked val ∧ onlyChunkedLoop false (teTokens val)

/-- `parsedHTTPRequest`. -/
structure ParsedHTTPRequest where
  method : List UInt8
  path : List UInt8
  contentType : List UInt8
  clientIP : List UInt8
  userAgent : List UInt8
  accept : List UInt8
  acceptEncoding : List UInt8
  tlsHash : List UInt8
  secCHUA : List UInt8
  acceptLang : List UInt8
  body : List UInt8
  contentLength : ℤ
  hasContentLength : Bool
  deriving DecidableEq, Repr

/-- A request of which the first line is known. -/
def ParsedHTTPRequest.ofLine (method path : List UInt8) : ParsedHTTPRequest :=
  ⟨method, path, [], [], [], [], [], [], [], [], [], 0, false⟩

/-- The request while its headers are read, with the flags `http1flChunkedTE`, `http1flHasTE`,
`http1flInvalidTE` and `http1flCLSet` and `clValue`. -/
structure HeaderState where
  req : ParsedHTTPRequest
  chunkedTE : Bool
  hasTE : Bool
  invalidTE : Bool
  clSet : Bool
  clValue : ℤ

/-- The request after its first line. -/
def HeaderState.init (req : ParsedHTTPRequest) : HeaderState := ⟨req, false, false, false, false, 0⟩

namespace HeaderState

variable (st : HeaderState) (key val : List UInt8)

/-- The header `content-length`. -/
def setContentLength : Option HeaderState :=
  match parseContentLengthStrict val with
  | none => none
  | some cl =>
    if st.clSet ∧ st.clValue ≠ cl then none
    else some { st with
      req := { st.req with contentLength := cl, hasContentLength := true }
      clSet := true
      clValue := cl }

/-- The header `transfer-encoding`. -/
def setTransferEncoding : HeaderState :=
  if teValueOnlyChunked val then { st with hasTE := true, chunkedTE := true }
  else { st with hasTE := true, invalidTE := true }

/-- The header `x-real-ip`, which does not replace an address. -/
def setRealIP : HeaderState :=
  if st.req.clientIP = [] then { st with req := { st.req with clientIP := val } } else st

/-- The headers `accept-language` and `accept-encoding`, told apart by one letter. -/
def setAcceptDetail : HeaderState :=
  if key.getD 6 0 = 45 ∧ foldAt key 7 = 108 then { st with req := { st.req with acceptLang := val } }
  else if key.getD 6 0 = 45 ∧ foldAt key 7 = 101 then
    { st with req := { st.req with acceptEncoding := val } }
  else st

/-- `http1AssignHeader`; the only error is `errInvalidRequest`. -/
def http1AssignHeader : Option HeaderState :=
  match key.length with
  | 6 =>
    if foldKeyU32 key 0 = 0x65636361 ∧ foldAt key 4 = 112 ∧ foldAt key 5 = 116 then
      some { st with req := { st.req with accept := val } }
    else some st
  | 9 =>
    if foldKeyU32 key 0 = 0x65722d78 then
      if foldKeyU32 key 4 = 0x692d6c61 ∧ foldAt key 8 = 112 then some (st.setRealIP val) else some st
    else if foldKeyU32 key 0 = 0x2d636573 ∧ foldKeyU32 key 4 = 0x752d6863 ∧ foldAt key 8 = 97 then
      some { st with req := { st.req with secCHUA := val } }
    else some st
  | 10 =>
    if foldKeyU32 key 0 = 0x72657375 ∧ foldKeyU32 key 4 = 0x6567612d ∧ foldAt key 8 = 110 ∧
        foldAt key 9 = 116 then
      some { st with req := { st.req with userAgent := val } }
    else if foldKeyU32 key 0 = 0x6c742d78 ∧ foldKeyU32 key 4 = 0x61682d73 ∧ foldAt key 8 = 115 ∧
        foldAt key 9 = 104 then
      some { st with req := { st.req with tlsHash := val } }
    else some st
  | 12 =>
    if foldKeyU64 key 0 = 0x2d746e65746e6f63 ∧ foldKeyU32 key 8 = 0x65707974 then
      some { st with req := { st.req with contentType := val } }
    else some st
  | 14 =>
    if foldKeyU64 key 0 = 0x2d746e65746e6f63 ∧ foldKeyU32 key 8 = 0x676e656c ∧
        foldAt key 12 = 116 ∧ foldAt key 13 = 104 then
      st.setContentLength val
    else some st
  | 15 =>
    if foldKeyU32 key 0 = 0x6f662d78 then
      if foldKeyU64 key 4 = 0x2d64656472617772 ∧ foldAt key 12 = 102 ∧ foldAt key 13 = 111 ∧
          foldAt key 14 = 114 then
        some { st with req := { st.req with clientIP := val } }
      else some st
    else if foldKeyU32 key 0 = 0x65636361 then some (st.setAcceptDetail key val)
    else some st
  | 17 =>
    if foldKeyU64 key 0 = 0x726566736e617274 ∧ foldKeyU64 key 8 = 0x6e69646f636e652d ∧
        foldAt key 16 = 103 then
      some (st.setTransferEncoding val)
    else some st
  | _ => some st

/-- The checks of a header line before its header is assigned. -/
def addHeader (name value : List UInt8) : Option HeaderState :=
  if trimHTTPKey name = [] ∨ 256 < (trimHTTPKey name).length ∨ ¬ httpTokenValid (trimHTTPKey name) then
    none
  else if 1024 < (trimHTTPVal value).length ∨ ¬ httpHeaderValValid (trimHTTPVal value) then none
  else st.http1AssignHeader (trimHTTPKey name) (trimHTTPVal value)

end HeaderState

/-- `trackReqLine`. -/
def trackReqLine : List UInt8 := bytesOf "POST /track HTTP/1.1" ++ [cr, lf]

/-- The request line up to a byte, with its first two spaces; after the carriage return it is at
its end. -/
structure RequestLine where
  line : List UInt8
  sp1 : Option ℕ
  sp2 : Option ℕ
  atEnd : Bool

/-- The checks of a request line whose two spaces are known. -/
def requestOfLine (line : List UInt8) (sp1 sp2 : ℕ) : Option ParsedHTTPRequest :=
  let method := line.take sp1
  let path := (line.drop (sp1 + 1)).take (sp2 - (sp1 + 1))
  if 16 < method.length ∨ 2048 < path.length then none
  else if ¬ httpTokenValid method ∨ ¬ httpPathValid path ∨
      ¬ http1VersionValid (line.drop (sp2 + 1)) then none
  else if ¬ http1IngressValid method path then none
  else some (.ofLine method path)

namespace RequestLine

/-- The request line so far with one more byte. -/
def push (r : RequestLine) (b : UInt8) : RequestLine :=
  let here := if b = 32 then some r.line.length else none
  { r with
    line := r.line ++ [b]
    sp1 := r.sp1.or here
    sp2 := if r.sp1.isSome then r.sp2.or here else r.sp2 }

/-- The loop of `parseHTTP1` over the request line. -/
def step (r : RequestLine) (b : UInt8) : Scan.Move HttpError RequestLine ParsedHTTPRequest :=
  if r.atEnd then
    if b ≠ lf then .fail .invalidRequest
    else
      match r.sp1, r.sp2 with
      | some sp1, some sp2 =>
        match requestOfLine r.line sp1 sp2 with
        | some req => .done req
        | none => .fail .invalidRequest
      | _, _ => .fail .invalidRequest
  else if b = cr then .next { r with atEnd := true }
  else if isControl b then .fail .invalidRequest
  else .next (r.push b)

end RequestLine

/-- The first line of a request, with the shortcut for the most common one. -/
def requestLine (data : List UInt8) : Scan HttpError (ℤ × ParsedHTTPRequest) :=
  if data.take 22 = trackReqLine then .ok (22, .ofLine (data.take 4) ((data.drop 5).take 6))
  else Scan.feedFrom RequestLine.step ⟨[], none, none, false⟩ data 0

/-- Where the loops over the headers stand: at the start of a line, at the end of the empty line, in a
name, in a value, or after its carriage return. -/
inductive HeaderPlace
  | start
  | sectionEnd
  | name (name : List UInt8)
  | value (name value : List UInt8)
  | valueEnd (name value : List UInt8)

/-- A byte of a header's name. -/
def nameStep (name : List UInt8) (b : UInt8) : Option HeaderPlace :=
  if isControl b then none else if b = 58 then some (.value name []) else some (.name (name ++ [b]))

/-- The loops of `parseHTTP1` over the headers. -/
def headerStep (s : HeaderPlace × HeaderState) (b : UInt8) :
    Scan.Move HttpError (HeaderPlace × HeaderState) HeaderState :=
  match s.1 with
  | .sectionEnd => if b ≠ lf then .fail .invalidRequest else .done s.2
  | .start =>
    if b = cr then .next (.sectionEnd, s.2)
    else (nameStep [] b).elim (.fail .invalidRequest) fun place => .next (place, s.2)
  | .name name => (nameStep name b).elim (.fail .invalidRequest) fun place => .next (place, s.2)
  | .value name value =>
    if b = cr then .next (.valueEnd name value, s.2)
    else if b = 0 then .fail .invalidRequest
    else .next (.value name (value ++ [b]), s.2)
  | .valueEnd name value =>
    if b ≠ lf then .fail .invalidRequest
    else (s.2.addHeader name value).elim (.fail .invalidRequest) fun st => .next (.start, st)

/-- The end of `parseHTTP1`: the body that the headers announce. An announced length is so small that no
sum with an index wraps around. -/
def finishRequest (fuel : ℕ) (data : List UInt8) (maxBody : ℤ) (scratch : List UInt8) (i : ℤ)
    (st : HeaderState) : Scan HttpError (ℤ × ParsedHTTPRequest) :=
  if st.invalidTE then .error .invalidRequest
  else if st.chunkedTE then
    if st.clSet then .error .invalidRequest
    else do
      let chunked ← parseHTTP1ChunkedBody fuel data i maxBody scratch
      return (chunked.consumed,
        { st.req with
          body := chunked.body, contentLength := chunked.contentLen, hasContentLength := true })
  else if st.hasTE then .error .invalidRequest
  else if st.req.hasContentLength ∧ maxBody < st.req.contentLength then .error .payloadTooLarge
  else if data.length < i + st.req.contentLength then .incomplete
  else if 0 < st.req.contentLength then do
    let body ← Scan.slice data i (i + st.req.contentLength)
    return (i + st.req.contentLength, { st.req with body := body })
  else .ok (i + st.req.contentLength, st.req)

/-- `parseHTTP1`: the consumed length and the request. -/
def parseHTTP1 (fuel : ℕ) (data : List UInt8) (maxBody : ℤ) (scratch : List UInt8) :
    Scan HttpError (ℤ × ParsedHTTPRequest) := do
  let (i, req) ← requestLine data
  let (j, st) ← Scan.feedFrom headerStep (.start, HeaderState.init req) data i
  finishRequest fuel data maxBody scratch j st

section

/-- How the handling of a connection ends: it waits with a buffer for more bytes, it is closed, or
the parser panics. -/
inductive Ending
  | waiting (buffer : List UInt8)
  | closed (e : Option HttpError)
  | crashed
  deriving DecidableEq, Repr

end

end Espx.Ingestion
