import Espx.Ingestion.Hpack

/-!
# Ingress over HTTP/2

`parseH2Ingress` and `onTrafficH2`, and the loop of `OnTraffic`, which speaks HTTP/1 until it has seen the
client preface. The state of a connection stays from one call of `parseH2Ingress` to the next; the request
that a call fills does not. Its values are ranges of the array behind the header block, which the next
block overwrites.
-/

namespace Espx.Ingestion

open Espx.Foundation

/-- `h2ClientPreface`. -/
def h2ClientPreface : List UInt8 := bytesOf "PRI * HTTP/2.0\r\n\r\nSM\r\n\r\n"

/-- `isH2ClientPreface`. -/
def isH2ClientPreface (buf : List UInt8) : Bool := 24 ≤ buf.length ∧ buf.take 24 = h2ClientPreface

/-- `h2Frame`, of which the length is that of the payload. -/
structure H2Frame where
  type : UInt8
  flags : UInt8
  streamID : ℕ
  payload : List UInt8
  deriving DecidableEq, Repr

/-- The number of a stream, without the reserved bit. -/
def streamNumber (b0 b1 b2 b3 : UInt8) : ℕ :=
  (b0 &&& 0x7f).toNat * 2 ^ 24 + b1.toNat * 2 ^ 16 + b2.toNat * 2 ^ 8 + b3.toNat

/-- `decodeH2FrameHeader`: the frame and its length, or `none` where the buffer ends too early. -/
def decodeH2FrameHeader : List UInt8 → Option (H2Frame × ℕ)
  | l0 :: l1 :: l2 :: type :: flags :: s0 :: s1 :: s2 :: s3 :: rest =>
    let length := l0.toNat * 2 ^ 16 + l1.toNat * 2 ^ 8 + l2.toNat
    if rest.length < length then none
    else some (⟨type, flags, streamNumber s0 s1 s2 s3, rest.take length⟩, 9 + length)
  | _ => none

/-- `h2ConnState`; `array` is the one behind `headerBlock`, as long as its capacity, and `settings` the used
part of `settingsScratch`. -/
structure H2ConnState where
  established : Bool
  settingsSent : Bool
  array : List UInt8
  blockLen : ℕ
  headerStreamID : ℕ
  expectData : Bool
  dataStreamID : ℕ
  settings : List UInt8
  incompleteSpin : ℕ
  deriving DecidableEq, Repr

/-- `newH2ConnState`. -/
def newH2ConnState : H2ConnState := ⟨false, false, .replicate 256 0, 0, 0, false, 0, [], 0⟩

/-- The header block. -/
def H2ConnState.headerBlock (st : H2ConnState) : List UInt8 := st.array.take st.blockLen

/-- `resetStream`. -/
def H2ConnState.resetStream (st : H2ConnState) : H2ConnState :=
  { st with blockLen := 0, expectData := false, dataStreamID := 0, headerStreamID := 0 }

/-- `appendSettingsOut`: the scratch buffer holds forty bytes. -/
def H2ConnState.appendSettingsOut (st : H2ConnState) (extra : List UInt8) : H2ConnState :=
  { st with settings := st.settings ++ extra.take (40 - st.settings.length) }

/-- `h2SettingsACK`. -/
def h2SettingsACK : List UInt8 := [0, 0, 0, 4, 1, 0, 0, 0, 0]

/-- `h2ServerSettings`. -/
def h2ServerSettings : List UInt8 :=
  [0, 0, 0x0c, 4, 0, 0, 0, 0, 0, 0, 3, 0, 0, 0, 0x80, 0, 2, 0, 0, 0, 0]

/-- `h2ConnBootstrap`. -/
def h2ConnBootstrap : List UInt8 := h2ServerSettings ++ h2SettingsACK

/-- The errors of `parseH2Ingress`; `crashed` stands for a scanner that panics or does not end. -/
inductive H2Error
  | incomplete
  | invalidRequest
  | payloadTooLarge
  | crashed
  deriving DecidableEq, Repr

/-- A value of a request: bytes of its own, or a range of the array behind the header block. -/
inductive HeaderValue
  | own (bytes : List UInt8)
  | range (off len : ℕ)
  deriving DecidableEq, Repr

/-- The bytes of a value, with what the array holds. -/
def HeaderValue.read (array : List UInt8) : HeaderValue → List UInt8
  | .own bytes => bytes
  | .range off len => (array.drop off).take len

/-- The request that a call of `parseH2Ingress` fills: the fields that were assigned, and the content
length. -/
structure FilledRequest where
  fields : List (List UInt8 × HeaderValue)
  contentLength : ℤ
  hasContentLength : Bool
  deriving DecidableEq, Repr

/-- The request with which a call begins. -/
def FilledRequest.empty : FilledRequest := ⟨[], 0, false⟩

/-- The request, with what the array holds. -/
def FilledRequest.read (array : List UInt8) (req : FilledRequest) : ParsedHTTPRequest :=
  { req.fields.foldl (fun req field =>
      (h2AssignHeader (.init req) (field.1, field.2.read array)).1.req) emptyRequest with
    contentLength := req.contentLength
    hasContentLength := req.hasContentLength }

/-- The request when the block moves to another array: its values stay in the old one. -/
def FilledRequest.keep (array : List UInt8) (req : FilledRequest) : FilledRequest :=
  { req with fields := req.fields.map fun field => (field.1, .own (field.2.read array)) }

/-- The fields that the loop of `h2DecodeHeadersBlock` assigns: indexed values are those of the table,
literal ones lie before the next field. -/
def assignedFields (block : List UInt8) : ℕ → ℕ → HeaderState → List (List UInt8 × HeaderValue)
  | 0, _, _ => []
  | fuel + 1, off, st =>
    match decodeField block off with
    | .ok (field, next) =>
      (field.1, if block.getD off 0 &&& 0x80 ≠ 0 then .own field.2
        else .range (next - field.2.length) field.2.length) ::
      if (h2AssignHeader st field).2 then assignedFields block fuel next (h2AssignHeader st field).1 else []
    | _ => []

/-- `h2DecodeHeadersBlock` on the header block of a connection. -/
def H2ConnState.decodeBlock (st : H2ConnState) (req : FilledRequest) : FilledRequest × Scan Unit Unit :=
  let decoded := h2DecodeHeadersBlock st.headerBlock (req.read st.array)
  (⟨req.fields ++ assignedFields st.headerBlock (st.headerBlock.length + 1) 0 (.init (req.read st.array)),
    decoded.1.contentLength, decoded.1.hasContentLength⟩, decoded.2)

/-- A request with the number of its stream, as `React` gets it. -/
abbrev Handed := ParsedHTTPRequest × ℕ

/-- What a connection is served with: `MaxRequestBodySize`, `H2IncompleteMax`, whether `React` closes, and
how much `append` adds to the array of a block that has outgrown it. -/
structure Ingress where
  maxBody : ℤ
  incompleteMax : ℕ
  closes : Handed → Bool
  spare : ℕ → ℕ → ℕ

/-- What the loop of `parseH2Ingress` does with a frame: it goes on, it returns a request, or it returns
an error. -/
inductive FrameStep
  | next (st : H2ConnState) (req : FilledRequest) (settingsOut : List UInt8)
  | done (st : H2ConnState) (req : ParsedHTTPRequest) (streamID : ℕ) (settingsOut : List UInt8)
  | fail (st : H2ConnState) (req : ParsedHTTPRequest) (settingsOut : List UInt8) (e : H2Error)

/-- The error of a header block. -/
def blockError : Scan Unit Unit → Option H2Error
  | .ok _ => none
  | .error _ => some .invalidRequest
  | .incomplete => some .incomplete
  | .panic => some .crashed
  | .running => some .crashed

variable (cfg : Ingress)

/-- A payload fits behind the header block into its array. -/
def H2ConnState.hasRoom (st : H2ConnState) (payload : List UInt8) : Bool :=
  st.blockLen + payload.length ≤ st.array.length

/-- The header block with one more payload, which overwrites the array where it fits. -/
def H2ConnState.appendBlock (st : H2ConnState) (payload : List UInt8) : H2ConnState :=
  let size := st.blockLen + payload.length
  { st with
    array := st.headerBlock ++ payload ++ if st.hasRoom payload then st.array.drop size
      else .replicate (cfg.spare st.array.length size) 0
    blockLen := size }

/-- The payload of HEADERS or CONTINUATION, which the source appends and decodes in the same way. -/
def headerPayload (st : H2ConnState) (req : FilledRequest) (out : List UInt8) (fr : H2Frame) :
    FrameStep :=
  let req := if st.hasRoom fr.payload then req else req.keep st.array
  let st := st.appendBlock cfg fr.payload
  if fr.flags &&& 0x4 ≠ 0 then
    let (req, err) := st.decodeBlock req
    match blockError err with
    | some e => .fail st (req.read st.array) out e
    | none =>
      let st := { st with blockLen := 0 }
      if fr.flags &&& 0x1 ≠ 0 then .done st (req.read st.array) fr.streamID out
      else .next { st with expectData := true, dataStreamID := fr.streamID } req out
  else .next st req out

/-- A DATA frame. -/
def dataPayload (st : H2ConnState) (req : FilledRequest) (out : List UInt8) (fr : H2Frame) : FrameStep :=
  if ¬ st.expectData ∨ fr.streamID ≠ st.dataStreamID then .next st req out
  else if cfg.maxBody < fr.payload.length then .fail st (req.read st.array) out .payloadTooLarge
  else
    .done st.resetStream
      { req.read st.array with
        body := fr.payload
        contentLength := fr.payload.length
        hasContentLength := true }
      fr.streamID out

/-- The body of the loop of `parseH2Ingress`. -/
def frameStep (st : H2ConnState) (req : FilledRequest) (out : List UInt8) (fr : H2Frame) : FrameStep :=
  if fr.type = 0x4 then
    if fr.flags &&& 0x1 = 0 then
      .next (st.appendSettingsOut h2SettingsACK) req (st.appendSettingsOut h2SettingsACK).settings
    else .next st req out
  else if fr.type = 0x1 then
    if fr.streamID = 0 then .fail st (req.read st.array) out .invalidRequest
    else if 0 < st.blockLen ∧ fr.streamID ≠ st.headerStreamID then
      .fail st (req.read st.array) out .invalidRequest
    else headerPayload cfg { st with headerStreamID := fr.streamID } req out fr
  else if fr.type = 0x9 then
    if fr.streamID ≠ st.headerStreamID then .fail st (req.read st.array) out .invalidRequest
    else headerPayload cfg st req out fr
  else if fr.type = 0x0 then dataPayload cfg st req out fr
  else if fr.type = 0x6 ∨ fr.type = 0x8 then .next st req out
  else .fail st (req.read st.array) out .invalidRequest

/-- What `parseH2Ingress` returns. -/
structure H2Call where
  consumed : ℕ
  req : ParsedHTTPRequest
  streamID : ℕ
  settingsOut : List UInt8
  err : Option H2Error

/-- The loop of `parseH2Ingress`. -/
def h2Loop (buf : List UInt8) :
    ℕ → ℕ → H2ConnState → FilledRequest → List UInt8 → H2ConnState × H2Call
  | 0, off, st, req, out => (st, ⟨off, req.read st.array, 0, out, some .crashed⟩)
  | fuel + 1, off, st, req, out =>
    if off < buf.length then
      match decodeH2FrameHeader (buf.drop off) with
      | none => (st, ⟨off, req.read st.array, 0, out, some .incomplete⟩)
      | some (fr, frameLen) =>
        match frameStep cfg st req out fr with
        | .next st req out => h2Loop buf fuel (off + frameLen) st req out
        | .done st req streamID out => (st, ⟨off + frameLen, req, streamID, out, none⟩)
        | .fail st req out e => (st, ⟨off + frameLen, req, 0, out, some e⟩)
    else (st, ⟨off, req.read st.array, 0, out, some .incomplete⟩)

/-- `parseH2Ingress`. -/
def parseH2Ingress (buf : List UInt8) (st : H2ConnState) : H2ConnState × H2Call :=
  if st.established then h2Loop cfg buf (buf.length + 1) 0 st .empty []
  else if buf.length < 24 then (st, ⟨0, emptyRequest, 0, [], some .incomplete⟩)
  else if ¬ isH2ClientPreface buf then (st, ⟨0, emptyRequest, 0, [], some .invalidRequest⟩)
  else if st.settingsSent then
    h2Loop cfg buf (buf.length + 1) 24 { st with established := true } .empty []
  else
    h2Loop cfg buf (buf.length + 1) 24
      { st with established := true, settingsSent := true, settings := h2ConnBootstrap.take 40 }
      .empty (h2ConnBootstrap.take 40)

/-- What `onTrafficH2` does: the state and the buffer it leaves, the request that it hands to `React`,
and how the connection ends, if it does. -/
structure H2Turn where
  st : H2ConnState
  left : List UInt8
  written : List UInt8
  handed : Option Handed
  ends : Option Ending

/-- The end of a connection by an error. -/
def H2Error.ending : H2Error → Ending
  | .incomplete => .closed none
  | .invalidRequest => .closed (some .invalidRequest)
  | .payloadTooLarge => .closed (some .payloadTooLarge)
  | .crashed => .crashed

/-- `onTrafficH2`. -/
def onTrafficH2 (buf : List UInt8) (st : H2ConnState) : H2Turn :=
  let (st, call) := parseH2Ingress cfg buf st
  let st := if 0 < call.consumed then { st with incompleteSpin := 0 } else st
  let left := buf.drop call.consumed
  match call.err with
  | some .incomplete =>
    if call.consumed = 0 then
      let st := { st with incompleteSpin := (st.incompleteSpin + 1) % 256 }
      if cfg.incompleteMax ≤ st.incompleteSpin then ⟨st, left, call.settingsOut, none, some (.closed none)⟩
      else ⟨st, left, call.settingsOut, none, none⟩
    else ⟨st, left, call.settingsOut, none, none⟩
  | some e => ⟨st, left, call.settingsOut, none, some e.ending⟩
  | none =>
    let st := { st with incompleteSpin := 0 }
    if call.req.method = [] then ⟨st, left, call.settingsOut, none, none⟩
    else
      ⟨st, left, call.settingsOut, some (call.req, call.streamID),
        if cfg.closes (call.req, call.streamID) then some (.closed none) else none⟩

/-- The context of a connection: `protoH2`, and the state of its HTTP/2 side. -/
structure ConnContext where
  protoH2 : Bool
  h2 : H2ConnState

/-- The context of a connection that was opened. -/
def ConnContext.new : ConnContext := ⟨false, newH2ConnState⟩

/-- The loop of `OnTraffic` over the buffer of a connection: the requests that it hands on, the context
and how it ends. -/
def trafficLoop : ℕ → ConnContext → List UInt8 → Option (List Handed × ConnContext × Ending)
  | 0, _, _ => none
  | fuel + 1, ctx, buffer =>
    if buffer = [] then some ([], ctx, .waiting [])
    else if isH2ClientPreface buffer ∨ ctx.protoH2 then
      let turn := onTrafficH2 cfg buffer ctx.h2
      match turn.ends with
      | some ending => some (turn.handed.toList, ⟨true, turn.st⟩, ending)
      | none =>
        (trafficLoop fuel ⟨true, turn.st⟩ turn.left).map fun out => (turn.handed.toList ++ out.1, out.2)
    else
      match parseHTTP1 fuel buffer cfg.maxBody [] with
      | .running => none
      | .panic => some ([], ctx, .crashed)
      | .incomplete => some ([], ctx, .waiting buffer)
      | .error e => some ([], ctx, .closed (some e))
      | .ok (consumed, req) =>
        if cfg.closes (req, 0) then some ([(req, 0)], ctx, .closed none)
        else (trafficLoop fuel ctx (buffer.drop consumed.toNat)).map fun out => ((req, 0) :: out.1, out.2)

/-- A connection whose bytes arrive in several reads: the requests it hands on and how it ends. -/
def trafficReads (fuel : ℕ) :
    ConnContext → List UInt8 → List (List UInt8) → Option (List Handed × Ending)
  | _, buffer, [] => some ([], .waiting buffer)
  | ctx, buffer, read :: reads =>
    match trafficLoop cfg fuel ctx (buffer ++ read) with
    | none => none
    | some (handed, ctx, .waiting left) =>
      (trafficReads fuel ctx left reads).map fun out => (handed ++ out.1, out.2)
    | some (handed, _, ending) => some (handed, ending)

/-- Bodies of up to 1024 bytes, three incomplete buffers, and arrays that double. -/
def sampleIngress : Ingress := ⟨1024, 3, fun _ => false, fun capacity _ => capacity⟩

end Espx.Ingestion
