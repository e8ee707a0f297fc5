import AiPlatform.Foundation.Json

/-!
# Events of the v4 run stream

The internal envelope as it is validated before it is written to a stream and after it is read
back. The rules for single fields (lengths, reference characters, closed payload schemas) are a
parameter; the identity of control and application events is checked here.
-/
namespace AiPlatform.Streaming

open AiPlatform.Foundation

/-- `PUBLIC_STREAM_EVENT_TYPES`. -/
inductive EventType where
  | messageStarted
  | messageDelta
  | messagePartDelta
  | messagePartClassified
  | messageCompleted
  | commentaryDelta
  | thinkingStarted
  | thinkingDelta
  | thinkingCompleted
  | modelCompleted
  | agentProgress
  | toolStarted
  | toolCompleted
  | toolFailed
  | toolDenied
  | subagentStarted
  | subagentProgress
  | subagentCompleted
  | subagentFailed
  | subagentCancelled
  | artifactCreated
  | artifactReady
  | artifactFailed
  | policyChecking
  | policyAllowed
  | policyDenied
  | runCancelRequested
  | runSucceeded
  | runCancelled
  | runFailed
  | streamOpen
  | streamHeartbeat
  | streamGap
  | streamEnd
  deriving DecidableEq, Repr

namespace EventType

def isTerminal : EventType → Bool
  | runSucceeded | runCancelled | runFailed => true
  | _ => false

/-- `PUBLIC_CONTROL_EVENT_TYPES`. -/
def isControl : EventType → Bool
  | streamOpen | streamHeartbeat | streamGap | streamEnd => true
  | _ => false

end EventType

structure Envelope where
  eventId : String
  tenantScope : String
  runId : String
  attemptId : String
  messageId : Option String
  seq : Option Nat
  eventType : EventType
  streamIncarnation : Nat
  causationEventId : Option String
  emittedAt : String
  payload : Json
  /-- A mapping. -/
  source : List (String × Json)
  deriving DecidableEq

namespace Envelope

/-- The run-local order of an application event; control events have none. -/
def sequence (e : Envelope) : Nat := e.seq.getD 0

/-- `payload.get(key)`; an explicit `null` reads like a missing key. -/
def payloadField (e : Envelope) (key : String) : Option Json :=
  (e.payload.get? key).filter (· ≠ .null)

/-- `source.callback_sequence or 0`. -/
def callbackSequence (e : Envelope) : Nat :=
  match e.source.lookup "callback_sequence" with
  | some (.int n) => n.toNat
  | _ => 0

/-- `validate_internal_envelope_v4`. -/
def validate (fieldRules : Envelope → Bool) (e : Envelope) : Bool :=
  fieldRules e && decide (0 < e.streamIncarnation) &&
    if e.eventType.isControl then e.messageId.isNone && e.seq.isNone
    else e.seq.any (0 < ·)

end Envelope

/-- The stream a reader or writer works on: one attempt's incarnation. -/
structure StreamAuthority where
  tenantScope : String
  runId : String
  attemptId : String
  streamIncarnation : Nat
  deriving DecidableEq

end AiPlatform.Streaming
