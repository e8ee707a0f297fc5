import AiPlatform.Queue.Admission

/-!
# Leases

`LEASE_QUOTA_SCRIPT` moves one queued entry to the processing list under the capacity and quota
limits, `DEAD_LETTER_INVALID_QUOTA_SCRIPT` takes out an entry that no longer validates, and the
heartbeat, ack, fail and verify scripts act for the holder of a lease handle. A limit that is not
positive is not configured.
-/
namespace AiPlatform.Queue

open AiPlatform.Foundation Hash SortedSet

/-- `remove_run_index_message` of the Lua scripts. -/
def removeRunIndexMessage (index : RunIndex) (field messageId : String) : RunIndex :=
  match hget index field with
  | none => index
  | some (.table ids) =>
    let remaining := ids.filter fun id => id ≠ "" ∧ id ≠ messageId
    if remaining = [] then hdel index field else hset index field (.table remaining)
  | some (.text value) => if value = messageId then hdel index field else index

/-- The attempt number of the next delivery, counted from the metadata of the last one. -/
def nextAttempt (s : Store) (messageId : String) : Int :=
  match (hget s.retryMeta messageId).or (hget s.processingMeta messageId) with
  | some (.table m) => max (m.attempts.getD 0 + 1) 1
  | _ => 1

structure QuotaLimits where
  maxProcessingRuns : Int
  tenantProcessingLimit : Int
  userProcessingLimit : Int
  deriving DecidableEq, Repr

structure LeaseRequest where
  raw : RunPayload
  absoluteIndex : Int
  workerId : String
  limits : QuotaLimits
  attemptId : String
  ownerToken : String
  deriving DecidableEq, Repr

inductive LeaseReply where
  | reconciliationFenced
  | capacityFull
  | conflict
  | quotaBlocked (tenantProcessing userProcessing : Nat)
  | leased (attempts : Int) (leasedAt : Time) (tenantProcessing userProcessing : Nat)
  deriving DecidableEq, Repr

def tenantProcessing (s : Store) (tenantId : String) : Nat :=
  s.processing.countP fun p => p.tenantId = tenantId

def userProcessing (s : Store) (tenantId userId : String) : Nat :=
  s.processing.countP fun p => p.tenantId = tenantId ∧ p.userId = userId

/-- A limit is reached when it is configured and the count is not below it. -/
def limitReached (limit : Int) (count : Nat) : Bool := 0 < limit && limit ≤ count

def leaseMetadata (env : Environment) (s : Store) (req : LeaseRequest) (now : Time) : LeaseMeta :=
  LeaseMeta.encoded env
    { messageId := env.messageIdForRaw req.raw
      raw := some req.raw
      attempts := some (nextAttempt s (env.messageIdForRaw req.raw))
      leasedAt := some now
      heartbeatAt := some now
      workerId := req.workerId
      attemptId := req.attemptId
      leaseProtocolVersion := some 2
      ownerToken := ""
      ownerTokenV2 := req.ownerToken
      runId := req.raw.runId
      tenantId := req.raw.tenantId
      userId := req.raw.userId
      requeuedAt := none }

/-- Take the entry at a list index out of the queue together with its order, metadata and index
rows. -/
def Store.takeQueued (s : Store) (index : Int) (field messageId : String) : Store :=
  { s with
    queued := removeAt s.queued index.toNat
    queuedMeta := hdel s.queuedMeta messageId
    queuedRunIndex := removeRunIndexMessage s.queuedRunIndex field messageId
    queuedOrder := zrem s.queuedOrder messageId }

/-- The writes of a granted lease. -/
def Store.grantLease (env : Environment) (s : Store) (req : LeaseRequest) (now : Time) : Store :=
  let messageId := env.messageIdForRaw req.raw
  let encoded := Encoded.table (leaseMetadata env s req now)
  let s := s.takeQueued req.absoluteIndex req.raw.indexField messageId
  { s with
    processing := req.raw :: s.processing
    processingMeta := hset s.processingMeta messageId encoded
    retryMeta := hset s.retryMeta messageId encoded
    workerHeartbeat := hset s.workerHeartbeat req.workerId (env.numberText now) }

def leaseQuota (env : Environment) (s : Store) (req : LeaseRequest) (now : Time) :
    Store × LeaseReply :=
  if hexists s.fences (req.raw.fenceKey env) then (s, .reconciliationFenced)
  else if limitReached req.limits.maxProcessingRuns s.processing.length then (s, .capacityFull)
  else if lindex s.queued req.absoluteIndex ≠ some req.raw then (s, .conflict)
  else
    let tenant := tenantProcessing s req.raw.tenantId
    let user := userProcessing s req.raw.tenantId req.raw.userId
    if limitReached req.limits.tenantProcessingLimit tenant then (s, .quotaBlocked tenant user)
    else if limitReached req.limits.userProcessingLimit user then (s, .quotaBlocked tenant user)
    else
      (s.grantLease env req now,
        .leased (nextAttempt s (env.messageIdForRaw req.raw)) (env.numberText now) tenant user)

/-! ## Entries that no longer validate -/

inductive DeadLetterInvalidReply where
  | conflict
  | deadLettered (attempts : Int)
  deriving DecidableEq, Repr

/-- The index row of an invalid entry is found through its metadata, not through its payload. -/
def invalidRunIndex (s : Store) (messageId : String) : RunIndex :=
  match hget s.queuedMeta messageId with
  | some (.table m) =>
    if m.tenantId ≠ "" ∧ m.runId ≠ "" then
      removeRunIndexMessage s.queuedRunIndex (queuedRunIndexField m.tenantId m.runId) messageId
    else s.queuedRunIndex
  | _ => s.queuedRunIndex

def Store.takeInvalid (s : Store) (index : Int) (messageId : String) : Store :=
  { s with
    queued := removeAt s.queued index.toNat
    queuedRunIndex := invalidRunIndex s messageId
    queuedMeta := hdel s.queuedMeta messageId
    queuedOrder := zrem s.queuedOrder messageId }

def deadLetterInvalidQuota (env : Environment) (s : Store) (raw : RunPayload)
    (absoluteIndex : Int) (workerId : String) (now : Time) (errorMessage : String) :
    Store × DeadLetterInvalidReply :=
  let messageId := env.messageIdForRaw raw
  if lindex s.queued absoluteIndex ≠ some raw then (s, .conflict)
  else
    let attempts := nextAttempt s messageId
    let s := s.takeInvalid absoluteIndex messageId
    ({ s with
        deadLetter := s.deadLetter ++
          [⟨"invalid_queue_payload", errorMessage, some attempts, some workerId, raw,
            env.numberText now⟩]
        retryMeta := hdel s.retryMeta messageId },
      .deadLettered attempts)

/-! ## The holder of a lease -/

/-- The parts of a lease handle `qls1:<message>:<attempt>:<owner>`. -/
structure LeaseHandle where
  messageId : String
  attemptId : String
  ownerToken : String
  deriving DecidableEq, Repr

def LeaseMeta.IsHeldBy (m : LeaseMeta) (h : LeaseHandle) : Prop :=
  m.IsLease h.messageId h.attemptId h.ownerToken

instance (m : LeaseMeta) (h : LeaseHandle) : Decidable (m.IsHeldBy h) :=
  inferInstanceAs (Decidable (m.IsLease _ _ _))

/-- The fence key named by the metadata's own ids. -/
def LeaseMeta.fenceKey (env : Environment) (m : LeaseMeta) : String :=
  reconciliationFenceKey env m.tenantId m.runId

inductive HeartbeatStatus where
  | missing
  | inconclusive
  | staleOwner
  | reconciliationFenced
  | clockRegressed
  | heartbeat (heartbeatAt : Time)
  deriving DecidableEq, Repr

def isFuture (now : Time) : Option Time → Bool
  | none => false
  | some t => now < t

/-- Some recorded activity of the lease or of its worker lies in the future. -/
def heartbeatClockRegressed (s : Store) (metadata : LeaseMeta) (retry : Option LeaseMeta)
    (workerId : String) (now : Time) : Bool :=
  isFuture now metadata.leasedAt || isFuture now metadata.heartbeatAt ||
    (match retry with
      | some r => isFuture now r.leasedAt || isFuture now r.heartbeatAt
      | none => false) ||
    isFuture now (hget s.workerHeartbeat workerId)

def Store.recordHeartbeat (env : Environment) (s : Store) (messageId workerId : String)
    (metadata : LeaseMeta) (now : Time) : Store :=
  { s with
    processingMeta := hset s.processingMeta messageId (.table (metadata.encoded env))
    retryMeta := hset s.retryMeta messageId (.table (metadata.encoded env))
    workerHeartbeat := hset s.workerHeartbeat workerId (env.numberText now) }

/-- The retry row either names the same lease and worker or is absent. -/
inductive RetryRow where
  | usable (row : Option LeaseMeta)
  | malformed
  | conflicting

def heartbeatRetryRow (s : Store) (h : LeaseHandle) (workerId : String) : RetryRow :=
  match hget s.retryMeta h.messageId with
  | none => .usable none
  | some (.text _) => .malformed
  | some (.table r) => if r.IsHeldBy h ∧ r.workerId = workerId then .usable (some r)
      else .conflicting

def heartbeatWithFence (env : Environment) (s : Store) (h : LeaseHandle) (workerId : String)
    (now : Time) : Store × HeartbeatStatus :=
  match hget s.processingMeta h.messageId with
  | none => (s, .missing)
  | some (.text _) => (s, .inconclusive)
  | some (.table metadata) =>
    if ¬ (metadata.IsHeldBy h ∧ metadata.workerId = workerId) then (s, .staleOwner)
    else
      match heartbeatRetryRow s h workerId with
      | .malformed => (s, .inconclusive)
      | .conflicting => (s, .staleOwner)
      | .usable retry =>
        if hexists s.fences (metadata.fenceKey env) then (s, .reconciliationFenced)
        else if heartbeatClockRegressed s metadata retry workerId now then
          (s.recordHeartbeat env h.messageId workerId
            { metadata with leasedAt := some now, heartbeatAt := some now } now, .clockRegressed)
        else
          (s.recordHeartbeat env h.messageId workerId
            { metadata with heartbeatAt := some now } now, .heartbeat (env.numberText now))

inductive MutationStatus where
  | invalidPayload
  | staleOwner
  | reconciliationFenced
  | acked
  | failed
  | current
  deriving DecidableEq, Repr

/-- The check shared by ack, fail and verify. `fenceKey` is the key computed from the raw payload;
it has to be the one the metadata names. -/
def ownedLease (env : Environment) (s : Store) (raw : RunPayload) (h : LeaseHandle)
    (holder : LeaseMeta → Bool) : Except MutationStatus LeaseMeta :=
  match hget s.processingMeta h.messageId with
  | some (.table m) =>
    if ¬ (m.IsHeldBy h ∧ m.raw = some raw ∧ holder m) then .error .staleOwner
    else if raw.fenceKey env ≠ m.fenceKey env then .error .staleOwner
    else if hexists s.fences (raw.fenceKey env) then .error .reconciliationFenced
    else .ok m
  | _ => .error .staleOwner

def Store.settleLease (s : Store) (raw : RunPayload) (messageId : String) : Store :=
  { s with
    processing := lremFirst s.processing raw
    processingMeta := hdel s.processingMeta messageId
    retryMeta := hdel s.retryMeta messageId }

def ackRun (env : Environment) (s : Store) (raw : RunPayload) (h : LeaseHandle) :
    Store × MutationStatus :=
  if ¬ env.acceptsRaw raw then (s, .invalidPayload)
  else
    match ownedLease env s raw h fun _ => true with
    | .error status => (s, status)
    | .ok _ => (s.settleLease raw h.messageId, .acked)

def failLeasedRun (env : Environment) (s : Store) (raw : RunPayload) (h : LeaseHandle)
    (errorCode errorMessage : String) (workerId : Option String) (now : Time) :
    Store × MutationStatus :=
  if ¬ env.acceptsRaw raw then (s, .invalidPayload)
  else
    match ownedLease env s raw h fun _ => true with
    | .error status => (s, status)
    | .ok m =>
      let s := s.settleLease raw h.messageId
      ({ s with
          deadLetter := s.deadLetter ++
            [⟨errorCode, errorMessage, some (m.attempts.getD 0), workerId, raw,
              env.numberText now⟩] },
        .failed)

def verifyLeaseOwnership (env : Environment) (s : Store) (raw : RunPayload) (h : LeaseHandle)
    (workerId : String) : MutationStatus :=
  if ¬ env.acceptsRaw raw then .invalidPayload
  else
    match ownedLease env s raw h fun m => m.workerId = workerId with
    | .error status => status
    | .ok _ => .current

/-- `PRUNE_STALE_WORKER_HEARTBEATS_SCRIPT`: compare and delete. -/
def pruneStaleWorkerHeartbeats (s : Store) (stale : List (String × Time)) : Store :=
  { s with
    workerHeartbeat := stale.foldl
      (fun h entry => if hget h entry.1 = some entry.2 then hdel h entry.1 else h)
      s.workerHeartbeat }

/-- `_trim_dead_letters`: `LTRIM key -n -1` with `n` at least one. -/
def trimDeadLetters (s : Store) (maxEntries : Nat) : Store :=
  { s with deadLetter := lrangeLast s.deadLetter (max maxEntries 1) }

end AiPlatform.Queue
