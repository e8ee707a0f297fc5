import AiPlatform.Queue.Store

/-!
# Admission to the queue and removal from it

`ENQUEUE_WITH_METADATA_SCRIPT`, `REMOVE_QUEUED_WITH_METADATA_SCRIPT`, the admission readback and
the bounded fallback of `remove_queued_run`. A script is a function from the store to the store
and a reply; the refusals of each script leave the store as it was.
-/
namespace AiPlatform.Queue

open AiPlatform.Foundation Hash SortedSet

/-- The message ids listed by a value of the run index. -/
def decodeIndex : Option (Encoded (List String)) → List String
  | none => []
  | some (.table ids) => ids.filter (· ≠ "")
  | some (.text value) => if value ≠ "" then [value] else []

inductive EnqueueReply where
  | reconciliationFenced
  | alreadyEnqueued (position sequence : Nat)
  | alreadyLeased
  | enqueued (position sequence : Nat)
  deriving DecidableEq, Repr

/-- The rank and sequence of a message the index already lists, when its metadata and its place in
the order are both there. -/
def indexedAdmission (s : Store) (messageIds : List String) (messageId : String) :
    Option (Nat × Nat) :=
  if messageId ∈ messageIds then
    match hget s.queuedMeta messageId, zrank s.queuedOrder messageId with
    | some (.table existing), some rank => some (rank, existing.sequence.getD (rank + 1))
    | some (.text _), some rank => some (rank, rank + 1)
    | _, _ => none
  else none

/-- The writes of an admitted message. -/
def Store.pushQueued (s : Store) (raw : RunPayload) (messageId : String) (metadata : QueuedMeta)
    (messageIds : List String) : Store :=
  let sequence := s.queuedSequence + 1
  { s with
    queuedSequence := sequence
    queued := s.queued ++ [raw]
    queuedMeta := hset s.queuedMeta messageId
      (.table { metadata with sequence := some sequence, raw := some raw })
    queuedRunIndex := hset s.queuedRunIndex raw.indexField (.table messageIds)
    queuedOrder := zadd s.queuedOrder sequence messageId }

def queuedMetadata (raw : RunPayload) (enqueuedAt : Time) : QueuedMeta where
  runId := raw.runId
  tenantId := raw.tenantId
  workspaceId := raw.workspaceId
  userId := raw.userId
  enqueuedAt := enqueuedAt
  sequence := none
  raw := none

def enqueueWithMetadata (env : Environment) (s : Store) (raw : RunPayload) (enqueuedAt : Time) :
    Store × EnqueueReply :=
  let messageId := env.messageIdForRaw raw
  if hexists s.fences (raw.fenceKey env) then (s, .reconciliationFenced)
  else
    let messageIds := decodeIndex (hget s.queuedRunIndex raw.indexField)
    match indexedAdmission s messageIds messageId with
    | some (rank, sequence) => (s, .alreadyEnqueued (rank + 1) sequence)
    | none =>
      if hexists s.processingMeta messageId || hexists s.retryMeta messageId then
        (s, .alreadyLeased)
      else
        (s.pushQueued raw messageId (queuedMetadata raw enqueuedAt)
          (messageIds.filter (· ≠ messageId) ++ [messageId]),
          .enqueued (s.queued.length + 1) (s.queuedSequence + 1))

/-- `enqueue_run_with_metadata`: `none` is `QueueAdmissionRejected("queue_payload_invalid")`. -/
def enqueueRun (env : Environment) (s : Store) (payload : RunPayload) (enqueuedAt : Time) :
    Store × Option EnqueueReply :=
  if payload.validIds && env.validBody payload.body then
    let result := enqueueWithMetadata env s payload enqueuedAt
    (result.1, some result.2)
  else (s, none)

/-! ## Removal -/

inductive RemoveReply where
  | missingIndex
  | missingMetadata
  | removed (count : Nat)
  deriving DecidableEq, Repr

structure RemoveProgress where
  store : Store
  removedTotal : Nat
  matched : Nat

def Store.dropQueuedRow (s : Store) (messageId : String) : Store :=
  { s with
    queuedMeta := hdel s.queuedMeta messageId
    queuedOrder := zrem s.queuedOrder messageId }

/-- One turn of the loop over the indexed messages. -/
def removeMessage (tenantId runId : String) (p : RemoveProgress) (messageId : String) :
    RemoveProgress :=
  match hget p.store.queuedMeta messageId with
  | some (.table metadata) =>
    if metadata.tenantId = tenantId ∧ metadata.runId = runId then
      match metadata.raw with
      | some raw =>
        { store :=
            { p.store with queued := lremAll p.store.queued raw }.dropQueuedRow messageId
          removedTotal := p.removedTotal + p.store.queued.count raw
          matched := p.matched + 1 }
      | none => { p with store := p.store.dropQueuedRow messageId, matched := p.matched + 1 }
    else p
  | some (.text _) => { p with store := p.store.dropQueuedRow messageId }
  | none =>
    { p with store := { p.store with queuedOrder := zrem p.store.queuedOrder messageId } }

/-- An index value that is not a table counts as one message id, even when it is empty. -/
def removalIds : Encoded (List String) → List String
  | .table ids => ids.filter (· ≠ "")
  | .text value => [value]

def removeQueuedWithMetadata (s : Store) (tenantId runId : String) : Store × RemoveReply :=
  let field := queuedRunIndexField tenantId runId
  match hget s.queuedRunIndex field with
  | none => (s, .missingIndex)
  | some rawIndex =>
    let p := (removalIds rawIndex).foldl (removeMessage tenantId runId) ⟨s, 0, 0⟩
    let s' := { p.store with queuedRunIndex := hdel p.store.queuedRunIndex field }
    (s', if p.matched = 0 then .missingMetadata else .removed p.removedTotal)

abbrev RunIndex := Hash String (Encoded (List String))

/-- `_remove_message_id_from_run_index`. -/
def removeMessageIdFromRunIndex (index : RunIndex) (field messageId : String) : RunIndex :=
  let messageIds := decodeIndex (hget index field)
  if messageIds = [] then index
  else
    let remaining := messageIds.filter (· ≠ messageId)
    if remaining = [] then hdel index field else hset index field (.table remaining)

/-- `_delete_queued_metadata_for_payload`. -/
def Store.deleteQueuedMetadataForPayload (s : Store) (field messageId : String) : Store :=
  { s with
    queuedMeta := hdel s.queuedMeta messageId
    queuedRunIndex := removeMessageIdFromRunIndex s.queuedRunIndex field messageId
    queuedOrder := zrem s.queuedOrder messageId }

/-- One entry of the run taken out by the bounded fallback. -/
def removePayload (env : Environment) (tenantId runId : String) (acc : Store × Nat)
    (raw : RunPayload) : Store × Nat :=
  ({ acc.1 with queued := lremAll acc.1.queued raw }.deleteQueuedMetadataForPayload
      (queuedRunIndexField tenantId runId) (env.messageIdForRaw raw),
    acc.2 + acc.1.queued.count raw)

/-- `_remove_queued_run_bounded_fallback`, for entries older than the run index. -/
def removeQueuedRunBoundedFallback (env : Environment) (s : Store) (tenantId runId : String)
    (scanLimit : Int) : Store × Nat :=
  if scanLimit ≤ 0 then (s, 0)
  else
    (lrangeLast s.queued scanLimit.toNat).foldl
      (fun acc raw =>
        if env.acceptsRaw raw ∧ raw.IsFor tenantId runId then
          removePayload env tenantId runId acc raw
        else acc)
      (s, 0)

def removeQueuedRun (env : Environment) (s : Store) (tenantId runId : String) (scanLimit : Int) :
    Store × Nat :=
  match removeQueuedWithMetadata s tenantId runId with
  | (s', .removed n) => (s', n)
  | (s', _) => removeQueuedRunBoundedFallback env s' tenantId runId scanLimit

/-! ## Readback -/

inductive AdmissionSource where
  | readbackQueued
  | readbackProcessing
  | readbackRetry
  deriving DecidableEq, Repr

structure QueueAdmissionMetadata where
  queuePosition : Nat
  queueAdmissionOrdinal : Nat
  messageId : String
  source : AdmissionSource
  deriving DecidableEq, Repr

/-- `_queue_metadata_matches_run` on a lease row. -/
def leaseRowMatches (row : Option (Encoded LeaseMeta)) (raw : RunPayload) : Bool :=
  match row with
  | some (.table m) => m.tenantId = raw.tenantId ∧ m.runId = raw.runId
  | _ => false

def readLeaseAdmission (env : Environment) (s : Store) (raw : RunPayload) :
    Option QueueAdmissionMetadata :=
  let messageId := env.messageIdForRaw raw
  if leaseRowMatches (hget s.processingMeta messageId) raw then
    some ⟨0, 0, messageId, .readbackProcessing⟩
  else if leaseRowMatches (hget s.retryMeta messageId) raw then
    some ⟨0, 0, messageId, .readbackRetry⟩
  else none

/-- `read_queue_admission` of a payload that passes validation. -/
def readQueueAdmission (env : Environment) (s : Store) (raw : RunPayload) :
    Option QueueAdmissionMetadata :=
  let messageId := env.messageIdForRaw raw
  match hget s.queuedMeta messageId, zrank s.queuedOrder messageId with
  | some (.table m), some rank =>
    if m.tenantId = raw.tenantId ∧ m.runId = raw.runId then
      let ordinal := match m.sequence with
        | some (n + 1) => n + 1
        | _ => rank + 1
      some ⟨rank + 1, ordinal, messageId, .readbackQueued⟩
    else readLeaseAdmission env s raw
  | _, _ => readLeaseAdmission env s raw

end AiPlatform.Queue
