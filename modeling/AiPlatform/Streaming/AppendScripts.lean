import AiPlatform.Foundation.AppendStream
import AiPlatform.Foundation.Runs
import AiPlatform.Streaming.Envelope

/-!
# Appending to a run stream

The two scripts that write to the stream key and its state hash, `_APPEND_WITH_TTL_LUA` and
`_APPEND_CALLBACK_BATCH`, and the checks made before they are called. A script is one atomic step.
The digests of canonical bytes and the derived id of a `stream.end` are parameters. The keys stay
alive: a script that writes renews both TTLs.
-/
namespace AiPlatform.Streaming

open AiPlatform.Foundation

/-! ## The two keys -/

inductive StreamPhase where
  | opened
  | terminal
  | ended
  deriving DecidableEq, Repr

/-- Three fields of the hash that are written together. -/
structure Receipt where
  eventId : String
  digest : String
  redisId : StreamId
  deriving DecidableEq

structure CallbackReceipt where
  sequence : Nat
  digest : String
  redisId : StreamId
  deriving DecidableEq

structure StreamState where
  phase : Option StreamPhase := none
  openProtocol : Option String := none
  openReceipt : Option Receipt := none
  terminalReceipt : Option Receipt := none
  endReceipt : Option Receipt := none
  lastEvent : Option Receipt := none
  callback : Option CallbackReceipt := none
  deriving DecidableEq

/-- A missing stream key is an empty stream: `XLEN` does not tell them apart. -/
structure StreamKeys where
  stream : AppendStream Envelope := .empty
  state : StreamState := {}

/-- `tonumber(HGET callback_sequence or '0')`. -/
def StreamState.callbackSequence (s : StreamState) : Nat :=
  s.callback.elim 0 CallbackReceipt.sequence

inductive AppendError where
  | projectionInvalid
  | controlNotReplayable
  | terminalEventIdMismatch
  | protocolInvalid
  | protocolConflict
  | streamMissing
  | openConflict
  | terminalConflict
  | endWithoutTerminal
  | terminalClosed
  | eventReceiptConflict
  | callbackPending
  | callbackBatchInvalid
  | callbackAuthorityUnavailable
  | callbackReceiptConflict
  | callbackClosed
  deriving DecidableEq

/-! ## `_APPEND_WITH_TTL_LUA` -/

/-- The transport type that `append_canonical` derives from the event type. -/
inductive TransportType where
  | streamOpen
  | terminal
  | streamEnd
  | event (type : EventType)
  deriving DecidableEq

def EventType.transportType : EventType → TransportType
  | .streamOpen => .streamOpen
  | .streamEnd => .streamEnd
  | type => if type.isTerminal then .terminal else .event type

structure AppendRequest where
  envelope : Envelope
  digest : String
  /-- `""` for events that name no terminal event. -/
  terminalEventId : String
  protocol : String

namespace AppendRequest

def transportType (r : AppendRequest) : TransportType := r.envelope.eventType.transportType

/-- The event and bytes of a receipt. -/
def matchesReceipt (r : AppendRequest) (receipt : Option Receipt) : Bool :=
  receipt.any fun receipt => receipt.eventId = r.envelope.eventId && receipt.digest = r.digest

end AppendRequest

def replyId (receipt : Option Receipt) : StreamId := receipt.elim .origin Receipt.redisId

/-- The branch on the transport type: refuse, answer from a receipt (`some`), or go on. -/
def admitRequest (r : AppendRequest) (k : StreamKeys) : Except AppendError (Option StreamId) :=
  let state := k.state
  match r.transportType with
  | .streamOpen =>
    if state.phase.isSome && r.matchesReceipt state.openReceipt then
      .ok (some (replyId state.openReceipt))
    else if state.phase.isSome || k.stream.entries.length ≠ 0 then .error .openConflict
    else .ok none
  | .terminal =>
    if (state.phase = some .terminal || state.phase = some .ended) &&
        r.matchesReceipt state.terminalReceipt then
      .ok (some (replyId state.terminalReceipt))
    else if state.phase.isNone && k.stream.entries.length = 0 then .error .streamMissing
    else if state.phase ≠ some .opened then .error .terminalConflict
    else .ok none
  | .streamEnd =>
    if state.phase = some .ended && r.matchesReceipt state.endReceipt then
      .ok (some (replyId state.endReceipt))
    else if state.phase ≠ some .terminal ∨
        state.terminalReceipt.map Receipt.eventId ≠ some r.terminalEventId then
      .error .endWithoutTerminal
    else .ok none
  | .event _ =>
    if state.phase ≠ some .opened then .error .terminalClosed
    else if state.lastEvent.map Receipt.eventId = some r.envelope.eventId then
      if state.lastEvent.map Receipt.digest ≠ some r.digest then .error .eventReceiptConflict
      else .ok (some (replyId state.lastEvent))
    else .ok none

/-- Run events wait for the callbacks committed before them. -/
def awaitsCallbacks (r : AppendRequest) (k : StreamKeys) : Bool :=
  (r.transportType = .terminal || r.transportType = .event .runCancelRequested) &&
    k.state.callbackSequence < r.envelope.callbackSequence

def AppendRequest.receipt (r : AppendRequest) (id : StreamId) : Receipt :=
  ⟨r.envelope.eventId, r.digest, id⟩

def StreamState.record (s : StreamState) (r : AppendRequest) (id : StreamId) : StreamState :=
  match r.transportType with
  | .streamOpen =>
    { s with phase := some .opened, openReceipt := some (r.receipt id),
             openProtocol := some r.protocol }
  | .terminal => { s with phase := some .terminal, terminalReceipt := some (r.receipt id) }
  | .streamEnd => { s with phase := some .ended, endReceipt := some (r.receipt id) }
  | .event _ => { s with lastEvent := some (r.receipt id) }

def StreamKeys.add (k : StreamKeys) (now : Nat) (r : AppendRequest) : StreamKeys where
  stream := k.stream.xadd now r.envelope
  state := k.state.record r (k.stream.nextEntry now r.envelope).id

/-- The reply and the keys after `_APPEND_WITH_TTL_LUA`. -/
def appendWithTtl (now : Nat) (r : AppendRequest) (k : StreamKeys) :
    Except AppendError StreamId × StreamKeys :=
  if r.protocol ≠ "v4" then (.error .protocolInvalid, k)
  else if k.state.phase.isSome && k.state.openProtocol ≠ some r.protocol then
    (.error .protocolConflict, k)
  else if k.state.phase.isSome && k.stream.entries.length = 0 then (.error .streamMissing, k)
  else
    match admitRequest r k with
    | .error e => (.error e, k)
    | .ok (some id) => (.ok id, k)
    | .ok none =>
      if awaitsCallbacks r k then (.error .callbackPending, k)
      else (.ok (k.stream.nextEntry now r.envelope).id, k.add now r)

/-! ## `_APPEND_CALLBACK_BATCH` -/

/-- `XADD` of one envelope after the other. -/
def addAll (now : Nat) (s : AppendStream Envelope) (envelopes : List Envelope) :
    AppendStream Envelope :=
  envelopes.foldl (fun s e => s.xadd now e) s

/-- The reply and the keys after `_APPEND_CALLBACK_BATCH`. -/
def appendCallbackScript (now sequence : Nat) (digest : String) (envelopes : List Envelope)
    (k : StreamKeys) : Except AppendError StreamId × StreamKeys :=
  if k.state.openProtocol ≠ some "v4" ∨ k.stream.entries.length = 0 then
    (.error .callbackAuthorityUnavailable, k)
  else if sequence ≤ k.state.callbackSequence then
    if k.state.callbackSequence = sequence ∧
        k.state.callback.map CallbackReceipt.digest ≠ some digest then
      (.error .callbackReceiptConflict, k)
    else (.ok (k.state.callback.elim .origin CallbackReceipt.redisId), k)
  else if k.state.phase ≠ some .opened then (.error .callbackClosed, k)
  else
    let stream := addAll now k.stream envelopes
    let id := stream.lastId
    (.ok id, ⟨stream, { k.state with callback := some ⟨sequence, digest, id⟩ }⟩)

/-! ## The calls around the scripts -/

structure Encoding where
  fieldRules : Envelope → Bool
  /-- `_sha256` of canonical bytes. -/
  digest : Envelope → String
  batchDigest : List Envelope → String
  /-- `stream_end_event_id`. -/
  endEventId : String → String

section

variable (enc : Encoding)

/-- The arguments of `append_canonical`. -/
def request (e : Envelope) (terminalEventId : String) : AppendRequest :=
  ⟨e, enc.digest e, terminalEventId, "v4"⟩

/-- The checks of `V4RedisStreamBridge.append` before its first call. -/
def canonicalRequest (e : Envelope) : Except AppendError AppendRequest :=
  if !e.validate enc.fieldRules then .error .projectionInvalid
  else if e.eventType = .streamHeartbeat ∨ e.eventType = .streamGap then
    .error .controlNotReplayable
  else if e.eventId = "" then .error .projectionInvalid
  else if e.eventType.isTerminal then
    if e.payloadField "terminal_event_id" ≠ some (.str e.eventId) then
      .error .terminalEventIdMismatch
    else .ok (request enc e e.eventId)
  else if e.eventType = .streamEnd then
    match e.payloadField "terminal_event_id" with
    | some (.str id) => if id = "" then .error .projectionInvalid else .ok (request enc e id)
    | _ => .error .projectionInvalid
  else .ok (request enc e "")

/-- The `stream.end` that follows a terminal event. -/
def endOf (terminal : Envelope) : Envelope where
  eventId := enc.endEventId terminal.eventId
  tenantScope := terminal.tenantScope
  runId := terminal.runId
  attemptId := terminal.attemptId
  messageId := none
  seq := none
  eventType := .streamEnd
  streamIncarnation := terminal.streamIncarnation
  causationEventId := some terminal.eventId
  emittedAt := terminal.emittedAt
  payload := .obj [("terminal_event_id", .str terminal.eventId)]
  source := terminal.source

/-- The loop of `append_callback_batch`; the sequence it ends with. -/
def checkCallbackBatch (first : Envelope) : Nat → List Envelope → Option Nat
  | previous, [] => some previous
  | previous, e :: rest =>
    match e.seq with
    | none => none
    | some seq =>
      if e.tenantScope ≠ first.tenantScope ∨ e.runId ≠ first.runId ∨
          e.attemptId ≠ first.attemptId ∨ e.streamIncarnation ≠ first.streamIncarnation ∨
          seq ≤ previous ∨ e.eventType.isControl ∨ e.eventType.isTerminal then
        none
      else checkCallbackBatch first seq rest

/-- The stream and, for reasoning only, every envelope ever appended to it. -/
structure Transport where
  keys : StreamKeys := {}
  history : List Envelope := []

namespace Transport

/-- One call of the first script. -/
def evalAppend (t : Transport) (now : Nat) (r : AppendRequest) :
    Except AppendError StreamId × Transport :=
  let (reply, keys) := appendWithTtl now r t.keys
  -- The history grows exactly when the stream does.
  (reply, ⟨keys, if keys.stream.lastId = t.keys.stream.lastId then t.history
    else t.history ++ [r.envelope]⟩)

/-- The first call of `V4RedisStreamBridge.append`. -/
def append (t : Transport) (now : Nat) (e : Envelope) : Except AppendError StreamId × Transport :=
  match canonicalRequest enc e with
  | .error error => (.error error, t)
  | .ok r => t.evalAppend now r

/-- The second call, for a terminal event. -/
def appendEnd (t : Transport) (now : Nat) (terminal : Envelope) :
    Except AppendError StreamId × Transport :=
  if !(endOf enc terminal).validate enc.fieldRules then (.error .projectionInvalid, t)
  else t.evalAppend now (request enc (endOf enc terminal) terminal.eventId)

/-- `append_callback_batch`. -/
def appendCallbackBatch (t : Transport) (now : Nat) (envelopes : List Envelope) :
    Except AppendError StreamId × Transport :=
  match envelopes with
  | [] => (.error .callbackBatchInvalid, t)
  | first :: _ =>
    if !envelopes.all (Envelope.validate enc.fieldRules) then (.error .projectionInvalid, t)
    else
      match checkCallbackBatch first 0 envelopes with
      | none => (.error .callbackBatchInvalid, t)
      | some sequence =>
        let (reply, keys) :=
          appendCallbackScript now sequence (enc.batchDigest envelopes) envelopes t.keys
        (reply, ⟨keys, if keys.stream.lastId = t.keys.stream.lastId then t.history
          else t.history ++ envelopes⟩)

def trim (t : Transport) (count : Nat) : Transport :=
  { t with keys := { t.keys with stream := t.keys.stream.trim count } }

end Transport

end

end AiPlatform.Streaming
