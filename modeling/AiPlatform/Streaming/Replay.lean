import AiPlatform.Foundation.AppendStream
import AiPlatform.Foundation.Runs
import AiPlatform.Streaming.Envelope

/-!
# Reading a run stream

`resolve_resume`, `replay_page` and `read_stream` under the loop of the SSE route that calls them.
A reader issues one command at a time; between two commands of it the stream may grow, lose entries
at its head or expire. Gap envelopes are reported by their reason, and the text of a cursor is
replaced by what it parses to.
-/
namespace AiPlatform.Streaming

open AiPlatform.Foundation

abbrev Entry : Type := StreamEntry Envelope

abbrev RunStream : Type := AppendStream Envelope

structure StreamCursor where
  streamIncarnation : Nat
  redisId : StreamId
  deriving DecidableEq

inductive GapReason where
  | retainedHistoryUnavailable
  | streamMissing
  | streamContinuityUnproven
  | streamIncarnationMismatch
  deriving DecidableEq

structure StreamGap where
  reason : GapReason
  requested : Option StreamCursor
  currentStreamIncarnation : Nat
  earliestAvailable : Option StreamCursor := none
  latestAvailable : Option StreamCursor := none
  deriving DecidableEq

/-- What `StreamContractError`, `StreamTransportUnavailable` and `V4ProjectionError` say. -/
inductive StreamFault where
  | cursorFutureIncarnation
  | cursorFutureRedisId
  | boundsUnproven
  | envelopeInvalid
  | authorityMismatch
  | terminalEventIdInvalid
  | streamMissing
  | replayContinuityUnproven
  | replayBoundsUnavailable
  | replayHistoryUnavailable
  | endWithoutObservedTerminal
  deriving DecidableEq

structure ResumeDecision where
  afterRedisId : Option StreamId
  gap : Option StreamGap
  terminalEventId : Option String := none
  ended : Bool := false
  replayTailRedisId : Option StreamId := none

structure ReaderContext where
  authority : StreamAuthority
  fieldRules : Envelope → Bool

def replayPageSize : Nat := 128

/-- The entries of the key; a missing key reads as empty. -/
def rowsOf (stream : Option RunStream) : List Entry := stream.elim [] AppendStream.entries

section

variable (ctx : ReaderContext)

def cursorOf (e : Entry) : StreamCursor := ⟨ctx.authority.streamIncarnation, e.id⟩

/-- `_decode`. -/
def decode (e : Entry) : Except StreamFault Entry :=
  if !e.value.validate ctx.fieldRules then .error .envelopeInvalid
  else if e.value.tenantScope ≠ ctx.authority.tenantScope ∨ e.value.runId ≠ ctx.authority.runId ∨
      e.value.attemptId ≠ ctx.authority.attemptId ∨
      e.value.streamIncarnation ≠ ctx.authority.streamIncarnation then
    .error .authorityMismatch
  else .ok e

/-! ## `resolve_resume` -/

def gapAt (reason : GapReason) (cursor : Option StreamCursor)
    (bounds : Option (Entry × Entry)) : ResumeDecision where
  afterRedisId := none
  gap := some
    { reason := reason
      requested := cursor
      currentStreamIncarnation := ctx.authority.streamIncarnation
      earliestAvailable := bounds.map fun b => cursorOf ctx b.1
      latestAvailable := bounds.map fun b => cursorOf ctx b.2 }

/-- The checks before the first command; `none` goes on to the bounds. -/
def checkIncarnation (cursor : Option StreamCursor) : Except StreamFault (Option ResumeDecision) :=
  match cursor with
  | none => .ok none
  | some c =>
    if ctx.authority.streamIncarnation < c.streamIncarnation then .error .cursorFutureIncarnation
    else if c.streamIncarnation < ctx.authority.streamIncarnation then
      .ok (some (gapAt ctx .streamIncarnationMismatch cursor none))
    else .ok none

/-- `retained_bounds`, once both of its commands have answered. -/
def retainedBounds (first last : Option Entry) : Except StreamFault (Option (Entry × Entry)) :=
  match first, last with
  | none, none => .ok none
  | some first, some last => do
    let first ← decode ctx first
    let last ← decode ctx last
    return some (first, last)
  | _, _ => .error .boundsUnproven

/-- What the bounds decide; a cursor between them is still to be looked up. -/
def decideByBounds (cursor : Option StreamCursor) (bounds : Option (Entry × Entry)) :
    Except StreamFault (ResumeDecision ⊕ (StreamCursor × Entry × Entry)) :=
  match bounds, cursor with
  | none, _ => .ok (.inl (gapAt ctx .streamMissing cursor none))
  | some (first, last), none =>
    if first.value.eventType = .streamOpen then
      .ok (.inl { afterRedisId := some .origin, gap := none, replayTailRedisId := some last.id })
    else .ok (.inl (gapAt ctx .retainedHistoryUnavailable none (some (first, last))))
  | some (first, last), some c =>
    if last.id < c.redisId then .error .cursorFutureRedisId
    else if c.redisId < first.id then
      .ok (.inl (gapAt ctx .retainedHistoryUnavailable cursor (some (first, last))))
    else .ok (.inr (c, first, last))

/-- `_nonempty` of the terminal event's id in a payload. -/
def terminalEventIdField (e : Envelope) : Except StreamFault String :=
  match e.payloadField "terminal_event_id" with
  | some (.str id) => if id = "" then .error .terminalEventIdInvalid else .ok id
  | _ => .error .terminalEventIdInvalid

/-- What the entry at the cursor decides. -/
def decideByEntry (cursor : StreamCursor) (first last : Entry) (found : Option Entry) :
    Except StreamFault ResumeDecision :=
  match found with
  | none => .ok (gapAt ctx .streamContinuityUnproven (some cursor) (some (first, last)))
  | some row => do
    let entry ← decode ctx row
    let goOn : ResumeDecision :=
      { afterRedisId := some cursor.redisId, gap := none, replayTailRedisId := some last.id }
    if entry.value.eventType.isTerminal then
      if entry.value.eventId = "" then .error .terminalEventIdInvalid
      else .ok { goOn with terminalEventId := some entry.value.eventId }
    else if entry.value.eventType = .streamEnd then
      let terminalEventId ← terminalEventIdField entry.value
      .ok { goOn with terminalEventId := some terminalEventId, ended := true }
    else .ok goOn

/-! ## `replay_page` -/

/-- The rows of the script and whether they continue after the predecessor. -/
def replayRows (stream : Option RunStream) (after through : StreamId) :
    Except StreamFault (List Entry) :=
  match stream with
  | none => .error .streamMissing
  | some s =>
    if after = .origin then .ok (s.xrangeAfter .origin through replayPageSize)
    else
      match s.xrange after through (replayPageSize + 1) with
      | [] => .error .replayContinuityUnproven
      | e :: rows => if e.id = after then .ok rows else .error .replayContinuityUnproven

def replayPage (stream : Option RunStream) (after through : StreamId) :
    Except StreamFault (List Entry) :=
  if through < after then .ok []
  else do
    let rows ← replayRows stream after through
    let entries ← rows.mapM (decode ctx)
    -- The origin is validated on this page: `stream.open` may be gone since the bounds were read.
    if after = .origin ∧ entries.head?.all fun e => e.value.eventType ≠ .streamOpen then
      .error .replayContinuityUnproven
    else .ok entries

/-! ## The loop of the route -/

inductive Outcome where
  | gap (reason : GapReason)
  | raised (fault : StreamFault)
  | ended
  /-- The lease was lost, the client left, or the transport failed. -/
  | closed
  deriving DecidableEq

/-- Where the entries being sent come from. -/
inductive PageSource where
  | replay (tail previous : StreamId)
  | live
  deriving DecidableEq

inductive Phase where
  | connecting
  | bounding (first : Option Entry)
  | looking (cursor : StreamCursor) (first last : Entry)
  | replaying (tail : StreamId)
  | waiting
  /-- `XREAD` returned nothing. -/
  | idle
  /-- `XREAD` returned rows up to this id. -/
  | confirming (tail : StreamId)
  | sending (page : List Entry) (source : PageSource)
  | stopped (outcome : Outcome)

structure Reader where
  phase : Phase
  after : StreamId
  terminalEventId : Option String
  delivered : List Entry

namespace Reader

/-- The first id is the one `resolve_resume` returns when it lets the reader go on. -/
def start (cursor : Option StreamCursor) : Reader where
  phase := .connecting
  after := cursor.elim .origin StreamCursor.redisId
  terminalEventId := none
  delivered := []

def stop (r : Reader) (outcome : Outcome) : Reader := { r with phase := .stopped outcome }

/-- A gap is reported for the two faults that mean lost history; the others end the stream. -/
def fail (r : Reader) (fault : StreamFault) : Reader :=
  match fault with
  | .streamMissing => r.stop (.gap .streamMissing)
  | .replayContinuityUnproven => r.stop (.gap .streamContinuityUnproven)
  | fault => r.stop (.raised fault)

/-- What the route does with the decision of `resolve_resume`. -/
def follow (r : Reader) (decision : ResumeDecision) : Reader :=
  match decision.gap with
  | some gap => r.stop (.gap gap.reason)
  | none =>
    if decision.ended then r.stop .ended
    else
      match decision.replayTailRedisId with
      | none => r.stop (.raised .replayBoundsUnavailable)
      | some tail =>
        { r with phase := .replaying tail, after := decision.afterRedisId.getD .origin,
                 terminalEventId := decision.terminalEventId }

/-- Move to an entry and remember the terminal event. -/
def observe (r : Reader) (e : Entry) : Reader :=
  { r with
    after := e.id
    terminalEventId :=
      if e.value.eventType.isTerminal then some e.value.eventId else r.terminalEventId }

/-- `project_entry` and the frame it yields. -/
def send (r : Reader) (e : Entry) (page : List Entry) (source : PageSource) : Reader :=
  let moved := r.observe e
  if e.value.eventType = .streamEnd then
    if e.value.payloadField "terminal_event_id" ≠ moved.terminalEventId.map Json.str then
      moved.stop (.raised .endWithoutObservedTerminal)
    else { moved with delivered := r.delivered ++ [e], phase := .stopped .ended }
  else { moved with delivered := r.delivered ++ [e], phase := .sending page source }

/-- One command, or one entry sent. -/
def step (cursor : Option StreamCursor) (stream : Option RunStream) (r : Reader) : Reader :=
  match r.phase with
  | .connecting =>
    match checkIncarnation ctx cursor with
    | .error fault => r.stop (.raised fault)
    | .ok (some decision) => r.follow decision
    | .ok none => { r with phase := .bounding (rowsOf stream).head? }
  | .bounding first =>
    match retainedBounds ctx first (rowsOf stream).getLast? >>= decideByBounds ctx cursor with
    | .error fault => r.stop (.raised fault)
    | .ok (.inl decision) => r.follow decision
    | .ok (.inr (cursor, first, last)) => { r with phase := .looking cursor first last }
  | .looking cursor first last =>
    let found := stream.elim [] fun s => s.xrange cursor.redisId cursor.redisId 1
    match decideByEntry ctx cursor first last found.head? with
    | .error fault => r.stop (.raised fault)
    | .ok decision => r.follow decision
  | .replaying tail =>
    if r.after = tail then { r with phase := .waiting }
    else
      match replayPage ctx stream r.after tail with
      | .error fault => r.fail fault
      | .ok [] => r.stop (.raised .replayHistoryUnavailable)
      | .ok page => { r with phase := .sending page (.replay tail r.after) }
  | .waiting =>
    match stream.elim [] fun s => s.xread r.after replayPageSize with
    | [] => { r with phase := .idle }
    | e :: rows => { r with phase := .confirming (rows.getLastD e).id }
  | .idle =>
    -- The anchor must still be there; otherwise an expired stream would look idle for ever.
    match replayPage ctx stream r.after r.after with
    | .error fault => r.fail fault
    | .ok page => { r with phase := .sending page .live }
  | .confirming tail =>
    if tail ≤ r.after then r.fail .replayContinuityUnproven
    else
      match replayPage ctx stream r.after tail with
      | .error fault => r.fail fault
      | .ok page =>
        if page.getLast?.map StreamEntry.id = some tail then
          { r with phase := .sending page .live }
        else r.fail .replayContinuityUnproven
  | .sending [] .live => { r with phase := .waiting }
  | .sending [] (.replay tail previous) =>
    if r.after = previous then r.stop (.raised .replayHistoryUnavailable)
    else { r with phase := .replaying tail }
  | .sending (e :: page) source =>
    if source = .live ∧ ¬ r.after < e.id then { r with phase := .sending page source }
    else r.send e page source
  | .stopped _ => r

end Reader

/-! ## The stream around a reader -/

/-- Both TTLs of the source have this value. -/
def streamTtlMs : Nat := 7200000

/-- The stream key, the clock of the store and, for reasoning only, all that was ever appended. -/
structure Channel where
  clock : Nat := 0
  appendedAt : Nat := 0
  stream : Option RunStream := none
  history : List Entry := []

inductive ChannelEvent where
  | append (now : Nat) (envelope : Envelope)
  | trim (count : Nat)
  | expire (now : Nat)

namespace Channel

/-- The clock does not run backwards. -/
def tick (c : Channel) (now : Nat) : Nat := max c.clock now

def apply (c : Channel) : ChannelEvent → Channel
  | .append now envelope =>
    let s := c.stream.getD .empty
    { clock := c.tick now
      appendedAt := c.tick now
      stream := some (s.xadd (c.tick now) envelope)
      history := c.history ++ [s.nextEntry (c.tick now) envelope] }
  | .trim count => { c with stream := c.stream.map fun s => s.trim count }
  -- Every append renews the TTL, so the key is removed at least that long after the last one.
  | .expire now =>
    if c.appendedAt + streamTtlMs ≤ c.tick now then
      { c with clock := c.tick now, stream := none }
    else { c with clock := c.tick now }

end Channel

structure Reading where
  channel : Channel
  reader : Reader

inductive ReadingLabel where
  | stream (event : ChannelEvent)
  | read
  | close

def Reading.step (cursor : Option StreamCursor) (s : Reading) : ReadingLabel → Reading
  | .stream event => { s with channel := s.channel.apply event }
  | .read => { s with reader := s.reader.step ctx cursor s.channel.stream }
  | .close =>
    match s.reader.phase with
    | .stopped _ => s
    | _ => { s with reader := s.reader.stop .closed }

def reading (cursor : Option StreamCursor) : Machine Reading ReadingLabel where
  start := ⟨{}, .start cursor⟩
  step := Reading.step ctx cursor

end

end AiPlatform.Streaming
