import Mathlib.Data.List.Infix
import Espx.Ingestion.Http1

/-!
# The ClickHouse store

`ClickHouseStore` writes a batch of events to their tables under a deduplication token, retries a failed
write and at last spools the batch. The driver, the order in which the concurrent inserts finish and the
cancellation of the context are inputs; a `none` is a nil error.
-/

namespace Espx.Ingestion

/-- The tables of `unicode.IsLetter` and `unicode.IsDigit`, of which only the letters of ASCII are
fixed here. -/
structure UnicodeClasses where
  isLetter : Char → Bool
  isDigit : Char → Bool
  isLetter_ascii : ∀ c, c.isAlpha = true → isLetter c = true

/-- `ValidClickHouseIdentifier`. -/
def validClickHouseIdentifier (unicode : UnicodeClasses) (name : String) : Bool :=
  if name = "" ∨ 128 < name.utf8ByteSize then false
  else name.toList.all fun r => unicode.isLetter r || unicode.isDigit r || r == '_'

/-- The class `[0-9a-f]` of `hexTokenRE`. -/
def hexTokenChar (c : Char) : Bool := c.isDigit || ('a' ≤ c && c ≤ 'f')

/-- `ValidCHHexToken`. -/
def validCHHexToken (token : String) : Bool :=
  if token = "" ∨ 128 < token.utf8ByteSize then false else token.toList.all hexTokenChar

/-- The fields of `Event` that the store reads to route and to identify a batch. -/
structure StoredEvent where
  clickID : String
  evtType : String
  payload : List UInt8
  fraudReason : String
  fraudScore : UInt32
  ghostEvent : Bool
  createdAtNano : Int64
deriving DecidableEq

/-- `sha256.Sum256`, of which only the length of a digest is used. -/
structure Digest where
  sum : List UInt8 → List UInt8
  length_sum : ∀ bytes, (sum bytes).length = 32

/-- The digits of `hex.EncodeToString`. -/
def hexDigits : List Char := "0123456789abcdef".toList

/-- `hex.EncodeToString`. -/
def hexEncodeToString (bytes : List UInt8) : String :=
  String.ofList <| bytes.flatMap fun b =>
    [hexDigits.getD (b.toNat / 16) '0', hexDigits.getD (b.toNat % 16) '0']

/-- The bytes of a 64-bit word, the most significant first. -/
def bigEndian64 (n : UInt64) : List UInt8 :=
  (List.range 8).map fun i => (n >>> (UInt64.ofNat (8 * (7 - i)))).toUInt8

/-- `getDeduplicationToken`: the token of the context, or the digest of the events. -/
def getDeduplicationToken (sha256 : Digest) (ctxToken : Option String)
    (events : List StoredEvent) : String :=
  match ctxToken.filter (· ≠ "") with
  | some token => token
  | none =>
    if events = [] then ""
    else hexEncodeToString <| sha256.sum <| events.flatMap fun e =>
      e.clickID.toUTF8.toList ++ bigEndian64 e.createdAtNano.toUInt64

section

/-- The errors of an insert. -/
inductive CHError where
  | invalidTableName (table : String)
  | invalidDeduplicationToken
  | prepareBatch (table : String) (err : String)
  | append (table : String) (err : String)
  | send (table : String) (err : String)
deriving DecidableEq

/-- The driver during one insert: the error, if any, of each of its calls. -/
structure Conn where
  prepareBatch : String → Option String
  append : String → StoredEvent → Option String
  send : String → Option String

variable (unicode : UnicodeClasses) (sha256 : Digest)

/-- `insertTable`. -/
def insertTable (conn : Conn) (ctxToken : Option String) (table : String)
    (evts : List StoredEvent) : Option CHError :=
  if validClickHouseIdentifier unicode table = false then some (.invalidTableName table)
  else
    let token := getDeduplicationToken sha256 ctxToken evts
    if token ≠ "" ∧ validCHHexToken token = false then some .invalidDeduplicationToken
    else
      let query := "INSERT INTO " ++ table ++
        (if token = "" then "" else
          " SETTINGS insert_deduplicate=1, insert_deduplication_token='" ++ token ++ "'")
      match conn.prepareBatch query with
      | some err => some (.prepareBatch table err)
      | none =>
        match evts.findSome? (conn.append table) with
        | some err => some (.append table err)
        | none => (conn.send table).map (.send table)

/-- The tables of events. -/
inductive CHTable where
  | impressions
  | clicks
  | conversions
  | fraudEvents
  | fraudAggregateSpikes
  | tgEventsRaw
deriving DecidableEq

/-- The name of a table. -/
def CHTable.name : CHTable → String
  | .impressions => "impressions"
  | .clicks => "clicks"
  | .conversions => "conversions"
  | .fraudEvents => "fraud_events"
  | .fraudAggregateSpikes => "fraud_aggregate_spikes"
  | .tgEventsRaw => "tg_events_raw"

/-- The tables in the order in which their inserts are started. -/
def chTables : List CHTable :=
  [.impressions, .clicks, .conversions, .fraudEvents, .fraudAggregateSpikes, .tgEventsRaw]

/-- `fraudAggregateEventType`. -/
def fraudAggregateEventType : String := "fraud_aggregate"

/-- `isTelegramEvent`. -/
def isTelegramEvent (e : StoredEvent) : Bool :=
  if e.evtType = "tg_click" ∨ e.evtType = "tg_impression" ∨ e.evtType = "tg_conversion" then true
  else if 0 < e.payload.length then
    decide (bytesOf "tg_user_id" <:+: e.payload) || decide (bytesOf "bot_id" <:+: e.payload)
  else false

/-- `isFraudAggregateSpike`. -/
def isFraudAggregateSpike (e : StoredEvent) : Bool := e.evtType == fraudAggregateEventType

/-- `isFraudTelemetry`. -/
def isFraudTelemetry (e : StoredEvent) : Bool :=
  if e.evtType = fraudAggregateEventType then false
  else e.ghostEvent || e.fraudReason != "" || decide (0 < e.fraudScore)

/-- The table of an event; an event of another type is written nowhere. -/
def tableOf (e : StoredEvent) : Option CHTable :=
  if isTelegramEvent e then some .tgEventsRaw
  else if isFraudAggregateSpike e then some .fraudAggregateSpikes
  else if isFraudTelemetry e then some .fraudEvents
  else if e.evtType = "impression" then some .impressions
  else if e.evtType = "click" then some .clicks
  else if e.evtType = "conversion" then some .conversions
  else none

/-- The events of a batch that belong to a table. -/
def eventsOf (events : List StoredEvent) (table : CHTable) : List StoredEvent :=
  events.filter fun e => tableOf e = some table

/-- The order in which the started inserts finish. -/
structure Completion where
  order : List CHTable → List CHTable
  perm : ∀ tables, (order tables).Perm tables

/-- `insertToClickHouse`: one insert for each table that has events, and the first error. -/
def insertToClickHouse (conn : Conn) (finish : Completion) (ctxToken : Option String)
    (events : List StoredEvent) : Option CHError :=
  (finish.order (chTables.filter fun table => eventsOf events table ≠ [])).findSome? fun table =>
    insertTable unicode sha256 conn ctxToken table.name (eventsOf events table)

/-- The error of `AppendDurably` or of the gate, as a text. -/
abbrev ErrorText := String

/-- What `StoreBatch` did with a batch. A batch that was inserted or spooled is a nil error. -/
inductive StoreOutcome where
  | inserted
  | spooled (token : String) (events : List StoredEvent)
  | gateClosed (err : ErrorText)
  | cancelled
  | insertFailed (err : CHError)
  | spoolFailed (err : CHError) (spoolErr : ErrorText)
deriving DecidableEq

/-- `MaxRetries`. -/
def maxRetries : ℕ := 3

/-- The loop of `StoreBatch` from attempt `i` on, with `left` attempts after it: nothing when an attempt
wrote the batch, or else the cancellation or the last error. -/
def insertAttempts (insert : ℕ → Option CHError) (cancelled : ℕ → Bool) :
    ℕ → ℕ → Option (Option CHError)
  | i, 0 => (insert i).map some
  | i, left + 1 =>
    match insert i with
    | none => none
    | some _ => if cancelled i then some none else insertAttempts insert cancelled (i + 1) left

/-- What the surroundings of one `StoreBatch` do: the gate, the driver and the order of the inserts at
each attempt, the cancellation after each, and the spool, if there is one. -/
structure StoreSurroundings where
  gate : Option ErrorText
  conn : ℕ → Conn
  finish : ℕ → Completion
  cancelled : ℕ → Bool
  spool : Option (Option ErrorText)

/-- `StoreBatch`. -/
def storeBatch (around : StoreSurroundings) (ctxToken : Option String)
    (events : List StoredEvent) : StoreOutcome :=
  if events = [] then .inserted
  else
    match around.gate with
    | some err => .gateClosed err
    | none =>
      let token := getDeduplicationToken sha256 ctxToken events
      match insertAttempts
          (fun i => insertToClickHouse unicode sha256 (around.conn i) (around.finish i) ctxToken events)
          around.cancelled 0 maxRetries with
      | none => .inserted
      | some none => .cancelled
      | some (some err) =>
        match around.spool with
        | none => .insertFailed err
        | some (some spoolErr) => .spoolFailed err spoolErr
        | some none => .spooled token events

/-- The insert of a spooled batch in `replaySpoolOnce` and `RecoverSpool`; the batch is released
when it has no error. -/
def replayInsert (conn : Conn) (finish : Completion) (token : String)
    (events : List StoredEvent) : Option CHError :=
  insertToClickHouse unicode sha256 conn finish (some token) events

end

end Espx.Ingestion
