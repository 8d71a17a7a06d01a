import Espx.Ingestion.TrackFields

/-!
# Click redirects

`parseClickQuery`, `expandRedirectMacros`, `buildRedirectLocation`, and the part of `reactClickRedirect`
from the path of a request to the response. One scratch buffer receives the decoded values of the
recognised keys and the segments of the other keys; it is the pass-through.
-/

namespace Espx.Ingestion

open Espx.Foundation
open Espx.Domain (UUID uuidNil)

/-- `clickQueryKeyID`. -/
inductive ClickQueryKeyID
  | unknown
  | campaignID
  | clickID
  | userID
  | type
  | placementID
  | sub (i : Fin 5)
  deriving DecidableEq

/-- `matchClickQueryKey`. -/
def matchClickQueryKey (key : List UInt8) : ClickQueryKeyID :=
  if key.length = 4 then
    if wordOf key = 0x65707974 then .type
    else if wordOf key = 0x31627573 then .sub 0
    else if wordOf key = 0x32627573 then .sub 1
    else if wordOf key = 0x33627573 then .sub 2
    else if wordOf key = 0x34627573 then .sub 3
    else if wordOf key = 0x35627573 then .sub 4
    else .unknown
  else if key.length = 7 then
    if wordOf (key.take 4) = 0x72657375 ∧ (key.drop 4).take 3 = [95, 105, 100] then .userID else .unknown
  else if key.length = 8 then if wordOf key = 0x64695f6b63696c63 then .clickID else .unknown
  else if key.length = 11 then
    if wordOf (key.take 8) = 0x6e676961706d6163 ∧ (key.drop 8).take 3 = [95, 105, 100] then .campaignID
    else .unknown
  else if key.length = 12 then
    if wordOf (key.take 8) = 0x6e65636d65636170 ∧ (key.drop 8).take 3 = [95, 105, 100] then .placementID
    else .unknown
  else .unknown

/-- `splitClickPathQuery`: the query, where the path is that of a click. -/
def splitClickPathQuery (path : List UInt8) : Option (List UInt8) :=
  if path.length < 6 then none
  else if path.take 6 ≠ bytesOf "/click" then none
  else if path.length = 6 then some []
  else if path.getD 6 0 = 63 then some (path.drop 7)
  else none

/-- The loop of `appendPctDecoded`. -/
def pctLoop : List UInt8 → List UInt8
  | [] => []
  | c :: rest =>
    if c = 37 then
      match rest with
      | h :: l :: tail =>
        if hexLookup h = 0xff ∨ hexLookup l = 0xff then c :: pctLoop (h :: l :: tail)
        else ((hexLookup h <<< 4) ||| hexLookup l) :: pctLoop tail
      | short => c :: pctLoop short
    else if c = 43 then 32 :: pctLoop rest
    else c :: pctLoop rest

/-- `appendPctDecoded`, with the shortcut for a value that has nothing to decode. -/
def appendPctDecoded (dst src : List UInt8) : List UInt8 :=
  if src = [] then dst
  else if ¬ (37 ∈ src ∨ 43 ∈ src) then dst ++ src
  else dst ++ pctLoop src

/-- `clickQueryParsed`. -/
structure ClickQueryParsed where
  campaignID : UUID
  eventType : List UInt8
  userID : List UInt8
  clickID : List UInt8
  placementID : List UInt8
  subs : Vector (List UInt8) 5
  passthrough : List UInt8
  ok : Bool

/-- `reset`. -/
def ClickQueryParsed.reset : ClickQueryParsed :=
  ⟨uuidNil, [], [], [], [], Vector.replicate 5 [], [], false⟩

/-- The segments between the characters `&`, of which the loop of `parseClickQuery` skips empty ones. -/
def querySegments : List UInt8 → List UInt8 → List (List UInt8)
  | seg, [] => [seg]
  | seg, b :: rest => if b = 38 then seg :: querySegments [] rest else querySegments (seg ++ [b]) rest

/-- The key of a segment. -/
def segmentKey (seg : List UInt8) : List UInt8 := seg.takeWhile (· ≠ 61)

/-- The value of a segment, which is empty where there is no `=`. -/
def segmentValue (seg : List UInt8) : List UInt8 := (seg.dropWhile (· ≠ 61)).drop 1

/-- The state of the loop of `parseClickQuery`. -/
structure ClickScan where
  scratch : List UInt8
  firstPassthrough : Bool
  out : ClickQueryParsed

/-- The value of a recognised key is assigned; an identifier that cannot be read ends the loop. -/
def assignClickValue (kid : ClickQueryKeyID) (decoded : List UInt8) (out : ClickQueryParsed) :
    Except ClickQueryParsed ClickQueryParsed :=
  match kid with
  | .unknown => .ok out
  | .campaignID =>
    match parseUUID decoded out.campaignID with
    | .ok id => .ok { out with campaignID := id }
    | .error id => .error { out with campaignID := id }
    | _ => .error out
  | .type => .ok { out with eventType := decoded }
  | .userID => .ok { out with userID := decoded }
  | .clickID => .ok { out with clickID := decoded }
  | .placementID => .ok { out with placementID := decoded }
  | .sub i => .ok { out with subs := out.subs.set i decoded }

/-- The body of the loop of `parseClickQuery`; an error is an early return. -/
def clickSegment (s : ClickScan) (seg : List UInt8) : Except ClickScan ClickScan :=
  if seg = [] then .ok s
  else if 2048 < (segmentValue seg).length then .error s
  else
    match matchClickQueryKey (segmentKey seg) with
    | .unknown =>
      .ok { s with
        scratch := (if s.firstPassthrough then s.scratch else s.scratch ++ [38]) ++ seg
        firstPassthrough := false }
    | kid =>
      let scratch := appendPctDecoded s.scratch (segmentValue seg)
      let decoded := scratch.drop s.scratch.length
      match assignClickValue kid decoded s.out with
      | .ok out => .ok { s with scratch := scratch, out := out }
      | .error out => .error { s with scratch := scratch, out := out }

/-- `parseClickQuery`: the scratch buffer and what was parsed. -/
def parseClickQuery (path scratch : List UInt8) : List UInt8 × ClickQueryParsed :=
  match splitClickPathQuery path with
  | none => (scratch, .reset)
  | some [] => (scratch, .reset)
  | some query =>
    match (querySegments [] query).foldlM clickSegment ⟨[], true, .reset⟩ with
    | .error s => (s.scratch, s.out)
    | .ok s =>
      if s.out.campaignID = uuidNil then (s.scratch, s.out)
      else
        (s.scratch, { s.out with
          eventType := if s.out.eventType = [] then bytesOf "click" else s.out.eventType
          passthrough := s.scratch
          ok := true })

section

/-- `redirectBaseValid`. -/
def redirectBaseValid (base : List UInt8) : Bool :=
  8 ≤ base.length ∧ (base.take 7 = bytesOf "http://" ∨
    (9 ≤ base.length ∧ base.take 8 = bytesOf "https://"))

/-- `redirectMacroID` without `redirectMacroNone`. -/
inductive RedirectMacroID
  | clickID
  | userID
  | sub (i : Fin 5)

/-- `dispatchRedirectMacro` at the start of a text: the macro and its length. -/
def dispatchRedirectMacro (base : List UInt8) : Option (RedirectMacroID × ℕ) :=
  if base.take 10 = bytesOf "\x7bclick_id\x7d" then some (.clickID, 10)
  else if base.take 9 = bytesOf "\x7buser_id\x7d" then some (.userID, 9)
  else if base.take 6 = bytesOf "\x7bsub1\x7d" then some (.sub 0, 6)
  else if base.take 6 = bytesOf "\x7bsub2\x7d" then some (.sub 1, 6)
  else if base.take 6 = bytesOf "\x7bsub3\x7d" then some (.sub 2, 6)
  else if base.take 6 = bytesOf "\x7bsub4\x7d" then some (.sub 3, 6)
  else if base.take 6 = bytesOf "\x7bsub5\x7d" then some (.sub 4, 6)
  else none

variable (clickID userID : List UInt8) (subs : Vector (List UInt8) 5)

/-- The value that replaces a macro. -/
def macroValue : RedirectMacroID → List UInt8
  | .clickID => clickID
  | .userID => userID
  | .sub i => subs[i]

/-- The loop of `expandRedirectMacros`. -/
def expandLoop : ℕ → List UInt8 → List UInt8
  | 0, _ => []
  | _ + 1, [] => []
  | fuel + 1, b :: rest =>
    if b ≠ 123 then b :: expandLoop fuel rest
    else
      match dispatchRedirectMacro (b :: rest) with
      | some (mid, size) => macroValue clickID userID subs mid ++ expandLoop fuel ((b :: rest).drop size)
      | none => b :: expandLoop fuel rest

/-- `expandRedirectMacros`. -/
def expandRedirectMacros (base : List UInt8) : List UInt8 :=
  expandLoop clickID userID subs (base.length + 1) base

/-- `buildRedirectLocation`, where it succeeds. -/
def buildRedirectLocation (base passthrough : List UInt8) : Option (List UInt8) :=
  if ¬ redirectBaseValid base then none
  else
    let dst := expandRedirectMacros clickID userID subs base
    if 4096 < dst.length then none
    else if passthrough = [] then some dst
    else
      let sep : UInt8 := if 63 ∈ dst then 38 else 63
      if 4096 < dst.length + 1 + passthrough.length then none
      else some (dst ++ sep :: passthrough)

end

/-- The location of the response to a click, as `reactClickRedirect` builds it from the path, the
identifier it made and the landing page, where it redirects. -/
def clickLocation (path scratch : List UInt8) (requestID : UUID) (landing : List UInt8) :
    Option (List UInt8) :=
  let parsed := (parseClickQuery path scratch).2
  if ¬ parsed.ok then none
  else
    let clickID := if parsed.clickID = [] then uuidText requestID else parsed.clickID
    if landing = [] then none
    else buildRedirectLocation clickID parsed.userID parsed.subs landing parsed.passthrough

/-- `redirectHdrPrefix`. -/
def redirectHdrStart : List UInt8 := bytesOf "HTTP/1.1 302 Found\r\nLocation: "

/-- `redirectHdrSuffix`. -/
def redirectHdrEnd : List UInt8 :=
  bytesOf "\r\nCache-Control: no-store\r\nContent-Length: 0\r\nConnection: keep-alive\r\n\r\n"

/-- The bytes that `writeGnetClickRedirect` writes. -/
def redirectResponse (location : List UInt8) : List UInt8 := redirectHdrStart ++ location ++ redirectHdrEnd

end Espx.Ingestion
