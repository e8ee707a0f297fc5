import AiPlatform.Foundation.Keyspace
import AiPlatform.Foundation.Outcome
import AiPlatform.Foundation.Runs
import AiPlatform.Kernel.Identifiers
import AiPlatform.Streaming.AssistantTextParts

/-!
# The event adapter of the agent kernel

`ClaudeSdkAgentEventAdapter` turns what the SDK reports into candidates for public events. A
candidate is built first, which its payload schema and the sanitizers may refuse, and committed
afterwards, which a repeated event id refuses. A method that raises keeps the changes it has
made to the adapter, so every method is a new adapter together with a reply that may be an error.

The tool, policy, sub-agent and artifact methods never touch the answer: they build candidates of
other event types under identities of their own and are represented by the candidates they offer.
The verdict of the sanitizers may be different at every call and is part of the call.
-/
namespace AiPlatform.Execution.AgentEvents

open AiPlatform.Foundation AiPlatform.Kernel AiPlatform.Streaming Hash

def maxDelta : Nat := 8192

inductive Role where
  | answer
  | work
  deriving DecidableEq, Repr

def Role.partRole : Role → PartRole
  | .answer => .answer
  | .work => .work

/-- The identity texts under which the adapter files its candidates. -/
inductive Identity where
  | message
  | delta (count : Nat)
  | partDelta (partId : String) (count : Nat)
  | partClassified (partId : String) (role : Role)
  | messageCompleted
  | modelCompleted
  | commentary (identity : String) (count : Nat)
  | other (identity : String)
  deriving DecidableEq, Repr

inductive StopCategory where
  | completed
  | cancelled
  | failed
  | maxTurns
  | unknown
  deriving DecidableEq, Repr

inductive Payload where
  | started
  | delta (text : String)
  | partDelta (partId delta : String)
  | partClassified (partId : String) (role : Role)
  | completed (deltaCount textLength : Nat)
  | modelCompleted (durationMs turnCount : Nat) (stopCategory : StopCategory)
  | commentaryDelta (summaryId delta : String)
  | other (eventType : EventType) (fields : Json)
  deriving DecidableEq

namespace Payload

def eventType : Payload → EventType
  | started => .messageStarted
  | delta _ => .messageDelta
  | partDelta _ _ => .messagePartDelta
  | partClassified _ _ => .messagePartClassified
  | completed _ _ => .messageCompleted
  | modelCompleted _ _ _ => .modelCompleted
  | commentaryDelta _ _ => .commentaryDelta
  | other eventType _ => eventType

/-- `_validate_payload` on the fields that are not fixed texts. -/
def valid : Payload → Bool
  | started => true
  | delta text => validDelta text
  | partDelta partId text => safePublicRef partId && validDelta text
  | partClassified partId _ => safePublicRef partId
  | completed deltaCount textLength =>
    1 ≤ deltaCount && deltaCount ≤ 2 ^ 63 - 1 && 1 ≤ textLength && textLength ≤ 2 ^ 63 - 1
  | modelCompleted durationMs turnCount _ => durationMs ≤ 86400000 && turnCount ≤ 10000
  | commentaryDelta summaryId text => safePublicRef summaryId && validDelta text
  | other _ _ => true

end Payload

/-- The event types of the tool, policy, sub-agent and artifact methods. -/
def isOther : EventType → Bool
  | .toolStarted | .toolCompleted | .toolFailed | .toolDenied | .subagentStarted
  | .subagentProgress | .subagentCompleted | .subagentFailed | .subagentCancelled
  | .artifactCreated | .artifactReady | .artifactFailed | .policyChecking | .policyAllowed
  | .policyDenied => true
  | _ => false

/-- The hashes of the adapter's run and attempt. -/
structure AdapterEnvironment where
  messageId : String
  messageId_safe : safePublicRef messageId = true
  eventId : EventType → Identity → String
  /-- No collision between the digests of the two events that end an attempt. -/
  completed_ne_result : eventId .messageCompleted .messageCompleted ≠
    eventId .modelCompleted .modelCompleted
  eventId_safe : ∀ type identity, safePublicRef (eventId type identity) = true
  partId : String → Option String → String
  partId_safe : ∀ messageId parentId, safePublicRef (partId messageId parentId) = true
  summaryId : String → String

/-- `ClaudeAgentEventCandidate` of the adapter's own run. -/
structure Candidate where
  eventId : String
  messageId : String
  causationEventId : Option String
  payload : Payload
  deriving DecidableEq

/-- `_AssistantTextPartState`. -/
structure TextPart where
  partId : String
  firstSeen : Nat
  deltaCount : Nat
  textLength : Nat
  role : Option Role
  lastDeltaIdentity : Option Identity
  lastDeltaEventId : Option String
  lastDeltaSequence : Nat
  deriving DecidableEq

structure AnswerReceipt where
  messageId : String
  deltaCount : Nat
  textLength : Nat
  lastDeltaEventId : String
  deriving DecidableEq

structure Adapter where
  sealed : Bool
  answerStarted : Bool
  answerDeltaCount : Nat
  answerTextLength : Nat
  lastDeltaIdentity : Option Identity
  lastDeltaEventId : Option String
  answerCompleted : Bool
  partMode : Bool
  legacyAnswerMode : Bool
  /-- In the order in which the parts were first seen. -/
  textParts : List TextPart
  nextPartSequence : Nat
  nextPartDeltaSequence : Nat
  partAnswerReceipt : Option AnswerReceipt
  commentaryDeltaCounts : Hash String Nat
  publicProjectionOmissions : Nat
  acceptedEventIds : Hash Identity String
  seenEvents : List String

def Adapter.initial : Adapter :=
  ⟨false, false, 0, 0, none, none, false, false, false, [], 0, 0, none, ∅, 0, ∅, []⟩

inductive AdapterError where
  | duplicateSemanticEvent
  | candidateRefused
  | sourceInvalid
  | classificationAfterCompletion
  | classificationMissing
  | roleConflict
  | classificationPending
  | receiptInvalid
  deriving DecidableEq, Repr

abbrev Reply := Except AdapterError (List Candidate)

/-- A call that raises hands out nothing. -/
def emittedBy : Reply → List Candidate
  | .ok candidates => candidates
  | .error _ => []

/-- A provider message key; anything else is malformed. -/
inductive SourceIdentity where
  | key (messageId : String) (parentId : Option String)
  | malformed
  deriving DecidableEq, Repr

/-- The texts of a provider message key. -/
def validKeyText (text : String) : Bool := text ≠ "" && text.length ≤ 512

/-- `part_id_for_source`; the cache of the ids has no effect of its own. -/
def AdapterEnvironment.partIdForSource (env : AdapterEnvironment) : SourceIdentity → Option String
  | .key messageId parentId =>
    if validKeyText messageId && parentId.all validKeyText then some (env.partId messageId parentId)
    else none
  | .malformed => none

/-- `range(0, len(value), size)` cuts a text into pieces. -/
def slices (size : Nat) : Nat → List Char → List (List Char)
  | 0, _ => []
  | _, [] => []
  | fuel + 1, cs => cs.take size :: slices size fuel (cs.drop size)

def chunks (value : String) : List String :=
  (slices maxDelta value.length value.toList).map String.ofList

/-- The result fields that reach the event, bounded as the adapter bounds them. -/
structure ResultMessage where
  durationMs : Int
  numTurns : Int
  stopCategory : StopCategory
  deriving DecidableEq, Repr

def boundedInt (value : Int) (maximum : Nat) : Nat := (max 0 (min value maximum)).toNat

def ResultMessage.payload (result : ResultMessage) : Payload :=
  .modelCompleted (boundedInt result.durationMs 86400000) (boundedInt result.numTurns 10000)
    result.stopCategory

/-- A candidate that a tool, policy, sub-agent or artifact method offers. -/
structure OtherDraft where
  eventType : EventType
  other : isOther eventType = true
  identity : String
  fields : Json
  causationIdentity : Option Identity

namespace Adapter

def omitPublicProjection (a : Adapter) : Adapter :=
  { a with publicProjectionOmissions := a.publicProjectionOmissions + 1 }

section

variable (env : AdapterEnvironment) (accepts : Candidate → Bool)

def buildCandidate (a : Adapter) (payload : Payload) (identity : Identity)
    (causationIdentity : Option Identity) : Except AdapterError Candidate := do
  let eventId := env.eventId payload.eventType identity
  ensure (eventId ∉ a.seenEvents) .duplicateSemanticEvent
  let candidate : Candidate :=
    ⟨eventId, env.messageId, causationIdentity.bind (hget a.acceptedEventIds), payload⟩
  ensure (payload.valid = true ∧ accepts candidate = true) .candidateRefused
  pure candidate

def commitCandidates (a : Adapter) (candidates : List (Identity × Candidate)) :
    Except AdapterError Adapter := do
  let eventIds := candidates.map fun entry => entry.2.eventId
  ensure (eventIds.Nodup ∧ ∀ eventId ∈ eventIds, eventId ∉ a.seenEvents) .duplicateSemanticEvent
  pure { a with
    seenEvents := eventIds ++ a.seenEvents
    acceptedEventIds := candidates.foldl (fun ids entry => hset ids entry.1 entry.2.eventId)
      a.acceptedEventIds }

/-- `_candidate` with `commit`. -/
def candidate (a : Adapter) (payload : Payload) (identity : Identity)
    (causationIdentity : Option Identity) : Except AdapterError (Adapter × Candidate) := do
  let built ← a.buildCandidate env accepts payload identity causationIdentity
  let committed ← a.commitCandidates [(identity, built)]
  pure (committed, built)

/-- One candidate per piece of text, numbered from `count + 1`. -/
def buildDeltas (a : Adapter) (payload : String → Payload) (identity : Nat → Identity) :
    Nat → List String → Except AdapterError (List (Identity × Candidate))
  | _, [] => .ok []
  | count, chunk :: chunks => do
    let built ← a.buildCandidate env accepts (payload chunk) (identity (count + 1)) none
    let rest ← buildDeltas a payload identity (count + 1) chunks
    pure ((identity (count + 1), built) :: rest)

/-- The first text of an answer is preceded by `message.started`. -/
def buildStart (a : Adapter) : Except AdapterError (List (Identity × Candidate)) :=
  if a.answerStarted then .ok []
  else do
    let built ← a.buildCandidate env accepts .started .message none
    pure [(.message, built)]

def buildText (a : Adapter) (payload : String → Payload) (identity : Nat → Identity) (count : Nat)
    (value : String) : Except AdapterError (List (Identity × Candidate)) := do
  let started ← a.buildStart env accepts
  let deltas ← a.buildDeltas env accepts payload identity count (chunks value)
  pure (started ++ deltas)

/-- The part as it is filed, or a new one. -/
def textPart (a : Adapter) (partId : String) : TextPart :=
  (a.textParts.find? (·.partId = partId)).getD
    ⟨partId, a.nextPartSequence + 1, 0, 0, none, none, none, 0⟩

/-- Replace a part of the same id, or file a new one. -/
def putTextPart (parts : List TextPart) (part : TextPart) : List TextPart :=
  if parts.any (·.partId = part.partId) then
    parts.map fun old => if old.partId = part.partId then part else old
  else parts ++ [part]

/-- The bookkeeping of `accept_part_text` after its candidates are committed. -/
def recordPartText (a : Adapter) (partId value : String) (pending : List (Identity × Candidate)) :
    Adapter :=
  let part := a.textPart partId
  let count := (chunks value).length
  { a with
    textParts := putTextPart a.textParts
      { part with
        deltaCount := part.deltaCount + count
        textLength := part.textLength + value.length
        lastDeltaIdentity := pending.getLast?.map Prod.fst
        lastDeltaEventId := pending.getLast?.map fun entry => entry.2.eventId
        lastDeltaSequence := a.nextPartDeltaSequence + count }
    nextPartSequence :=
      if a.textParts.any (·.partId = partId) then a.nextPartSequence else a.nextPartSequence + 1
    nextPartDeltaSequence := a.nextPartDeltaSequence + count
    answerStarted := true }

def acceptPartText (a : Adapter) (source : SourceIdentity) (value : String) : Adapter × Reply :=
  if a.sealed ∨ value = "" then (a, .ok [])
  else if a.legacyAnswerMode ∨ a.answerCompleted then (a.omitPublicProjection, .ok [])
  else
    match env.partIdForSource source with
    | none => (a.omitPublicProjection, .ok [])
    | some partId =>
      let a := { a with partMode := true }
      match a.buildText env accepts (.partDelta partId) (.partDelta partId)
          (a.textPart partId).deltaCount value with
      | .error _ => (a.omitPublicProjection, .ok [])
      | .ok pending =>
        match a.commitCandidates pending with
        | .error e => (a, .error e)
        | .ok committed =>
          (committed.recordPartText partId value pending, .ok (pending.map Prod.snd))

def classifyTextPart (a : Adapter) (source : SourceIdentity) (role : Option Role) :
    Adapter × Reply :=
  match role with
  | none => (a, .ok [])
  | some role =>
    if a.sealed then (a, .ok [])
    else if a.legacyAnswerMode ∨ a.answerCompleted then (a, .error .classificationAfterCompletion)
    else
      match env.partIdForSource source with
      | none => (a, .error .sourceInvalid)
      | some partId =>
        match a.textParts.find? (·.partId = partId) with
        | none => (a, .error .classificationMissing)
        | some part =>
          if part.deltaCount = 0 then (a, .error .classificationMissing)
          else if part.role = some role then (a, .ok [])
          else if part.role = some .work ∧ role = .answer then (a, .error .roleConflict)
          else
            match a.candidate env accepts (.partClassified partId role)
                (.partClassified partId role) none with
            | .error e => (a, .error e)
            | .ok (committed, built) =>
              ({ committed with
                  textParts := putTextPart committed.textParts { part with role := some role } },
                .ok [built])

def hasUnclassifiedTextParts (a : Adapter) : Bool := a.textParts.any (·.role = none)

def answerParts (a : Adapter) : List TextPart := a.textParts.filter (·.role = some .answer)

/-- `max(parts, key=last_delta_sequence)`: the first of the greatest. -/
def lastPart : List TextPart → Option TextPart
  | [] => none
  | part :: parts =>
    match lastPart parts with
    | none => some part
    | some later => if part.lastDeltaSequence < later.lastDeltaSequence then some later
        else some part

/-- The counts that the completion of the answer parts reports. -/
def answerDeltaTotal (a : Adapter) : Nat := (a.answerParts.map TextPart.deltaCount).sum

def answerTextTotal (a : Adapter) : Nat :=
  (a.answerParts.map TextPart.textLength).sum + 2 * (a.answerParts.length - 1)

/-- Build the completion, and commit it if asked to. -/
def completion (a : Adapter) (payload : Payload) (causationIdentity : Option Identity)
    (commit : Bool) : Except AdapterError (Adapter × Candidate) :=
  if commit then a.candidate env accepts payload .messageCompleted causationIdentity
  else do
    let built ← a.buildCandidate env accepts payload .messageCompleted causationIdentity
    pure (a, built)

/-- `_complete_part_answer`. The receipt is written as soon as the candidate is built. -/
def completePartAnswer (a : Adapter) (commit : Bool) :
    Except AdapterError (Adapter × List Candidate) :=
  if a.sealed ∨ ¬ a.answerStarted ∨ a.answerCompleted then .ok (a, [])
  else if a.hasUnclassifiedTextParts then .error .classificationPending
  else
    match lastPart a.answerParts with
    | none => .ok ({ a with answerCompleted := a.answerCompleted || commit }, [])
    | some part =>
      match part.lastDeltaIdentity, part.lastDeltaEventId with
      | some identity, some eventId => do
        let (a, built) ← a.completion env accepts (.completed a.answerDeltaTotal a.answerTextTotal)
          (some identity) commit
        pure
          ({ a with
              partAnswerReceipt :=
                some ⟨env.messageId, a.answerDeltaTotal, a.answerTextTotal, eventId⟩
              answerCompleted := a.answerCompleted || commit },
            [built])
      | _, _ => .error .receiptInvalid

def completeAnswer (a : Adapter) (commit : Bool) : Adapter × List Candidate :=
  if a.partMode then
    match a.completePartAnswer env accepts commit with
    | .ok result => result
    | .error _ => (a.omitPublicProjection, [])
  else if a.sealed ∨ ¬ a.answerStarted ∨ a.answerCompleted then (a, [])
  else
    match a.completion env accepts (.completed a.answerDeltaCount a.answerTextLength)
        a.lastDeltaIdentity commit with
    | .error _ => (a.omitPublicProjection, [])
    | .ok (a, built) => ({ a with answerCompleted := a.answerCompleted || commit }, [built])

def acceptAnswerText (a : Adapter) (value : String) : Adapter × Reply :=
  if a.sealed ∨ value = "" then (a, .ok [])
  else if a.partMode then (a.omitPublicProjection, .ok [])
  else
    let a := { a with legacyAnswerMode := true }
    match a.buildText env accepts .delta .delta a.answerDeltaCount value with
    | .error _ => (a.omitPublicProjection, .ok [])
    | .ok pending =>
      match a.commitCandidates pending with
      | .error e => (a, .error e)
      | .ok committed =>
        ({ committed with
            answerStarted := true
            answerDeltaCount := a.answerDeltaCount + (chunks value).length
            answerTextLength := a.answerTextLength + value.length
            lastDeltaIdentity := pending.getLast?.map Prod.fst
            lastDeltaEventId := pending.getLast?.map fun entry => entry.2.eventId },
          .ok (pending.map Prod.snd))

/-- `clean` is the verdict of the sanitizers on the whole text. -/
def acceptCommentaryText (a : Adapter) (value identity : String) (clean : Bool) :
    Adapter × Reply :=
  if a.sealed ∨ value = "" then (a, .ok [])
  else if validKeyText identity = false then (a, .ok [])
  else if clean = false then (a.omitPublicProjection, .ok [])
  else
    let count := (hget a.commentaryDeltaCounts identity).getD 0
    match a.buildDeltas env accepts (.commentaryDelta (env.summaryId identity))
        (.commentary identity) count (chunks value) with
    | .error _ => (a.omitPublicProjection, .ok [])
    | .ok pending =>
      match a.commitCandidates pending with
      | .error e => (a, .error e)
      | .ok committed =>
        ({ committed with
            commentaryDeltaCounts :=
              hset a.commentaryDeltaCounts identity (count + (chunks value).length) },
          .ok (pending.map Prod.snd))

/-- The candidates of one tool, policy, sub-agent or artifact call, committed one by one. -/
def acceptOthers (a : Adapter) : List OtherDraft → Adapter × Reply
  | [] => (a, .ok [])
  | draft :: drafts =>
    match a.candidate env accepts (.other draft.eventType draft.fields) (.other draft.identity)
        draft.causationIdentity with
    | .error e => (a, .error e)
    | .ok (committed, built) =>
      match committed.acceptOthers drafts with
      | (a', .ok rest) => (a', .ok (built :: rest))
      | (a', .error e) => (a', .error e)

/-- The completion that was built and the result event are committed together. -/
def deliverResult (a : Adapter) (result : ResultMessage) (completed : List Candidate) :
    Adapter × Reply :=
  match a.buildCandidate env accepts result.payload .modelCompleted none with
  | .error e => (a, .error e)
  | .ok built =>
    let pending := completed.map (fun c => (Identity.messageCompleted, c)) ++
      [(Identity.modelCompleted, built)]
    match a.commitCandidates pending with
    | .error e => (a, .error e)
    | .ok committed =>
      ({ committed with
          answerCompleted := committed.answerCompleted || !completed.isEmpty || a.partMode },
        .ok (completed ++ [built]))

def acceptResult (a : Adapter) (result : ResultMessage) (sealing : Bool) : Adapter × Reply :=
  if a.sealed then (a, .ok [])
  else if a.partMode ∧ a.hasUnclassifiedTextParts then (a.omitPublicProjection, .ok [])
  else if sealing then ({ a with sealed := true }, .ok [])
  else
    let prepared := if a.answerStarted then a.completeAnswer env accepts false else (a, [])
    prepared.1.deliverResult env accepts result prepared.2

end

/-- The property `answer_receipt`. -/
def answerReceipt (env : AdapterEnvironment) (a : Adapter) : Option AnswerReceipt :=
  if a.partMode then a.partAnswerReceipt
  else if a.answerCompleted then
    a.lastDeltaEventId.map fun eventId =>
      ⟨env.messageId, a.answerDeltaCount, a.answerTextLength, eventId⟩
  else none

end Adapter

/-! ## Runs -/

inductive Action where
  | partText (source : SourceIdentity) (value : String)
  | classify (source : SourceIdentity) (role : Option Role)
  | answerText (value : String)
  | commentary (value identity : String) (clean : Bool)
  | completeAnswer (commit : Bool)
  | result (result : ResultMessage) (sealing : Bool)
  | others (drafts : List OtherDraft)
  | seal

/-- A method call and what the sanitizers say to the candidates it builds. -/
structure Call where
  action : Action
  accepts : Candidate → Bool

def Adapter.perform (env : AdapterEnvironment) (a : Adapter) (call : Call) : Adapter × Reply :=
  match call.action with
  | .partText source value => a.acceptPartText env call.accepts source value
  | .classify source role => a.classifyTextPart env call.accepts source role
  | .answerText value => a.acceptAnswerText env call.accepts value
  | .commentary value identity clean => a.acceptCommentaryText env call.accepts value identity clean
  | .completeAnswer commit =>
    let result := a.completeAnswer env call.accepts commit
    (result.1, .ok result.2)
  | .result result sealing => a.acceptResult env call.accepts result sealing
  | .others drafts => if a.sealed then (a, .ok []) else a.acceptOthers env call.accepts drafts
  | .seal => ({ a with sealed := true }, .ok [])

/-- The adapter and the candidates its calls have returned so far. -/
structure AdapterRun where
  adapter : Adapter
  emitted : List Candidate

def AdapterRun.step (env : AdapterEnvironment) (s : AdapterRun) (call : Call) : AdapterRun :=
  ⟨(s.adapter.perform env call).1, s.emitted ++ emittedBy (s.adapter.perform env call).2⟩

def adapterMachine (env : AdapterEnvironment) : Machine AdapterRun Call :=
  ⟨⟨.initial, []⟩, AdapterRun.step env⟩

end AiPlatform.Execution.AgentEvents
