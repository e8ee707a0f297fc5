import AiPlatform.Queue.Lease

/-!
# Reconciliation fences

`ACQUIRE_RECONCILIATION_FENCE_SCRIPT` claims one run for a reconciler when no queue key shows a
live owner; the release and renew scripts compare the opaque owner token first. A fence key
expires by its time to live, which is a step of its own in the system.
-/
namespace AiPlatform.Queue

open AiPlatform.Foundation Hash

inductive OwnerState where
  | absent
  | owned
  | inconclusive
  deriving DecidableEq, Repr

inductive AcquireReply where
  | fenced
  | inconclusive
  | owned
  | claimed
  deriving DecidableEq, Repr

structure AcquireRequest where
  tenantId : String
  runId : String
  ownerToken : String
  workerTtl : Time
  scanLimit : Int
  fenceTtlMs : Int
  deriving DecidableEq, Repr

def listHasRun (items : List RunPayload) (tenantId runId : String) : OwnerState :=
  if items.any (·.IsFor tenantId runId) then .owned else .absent

/-- `metadata_state` on `queued-meta`: any row of the run is an owner. -/
def queuedMetadataState (rows : List (String × Encoded QueuedMeta)) (tenantId runId : String) :
    OwnerState :=
  match rows with
  | [] => .absent
  | (_, .text _) :: _ => .inconclusive
  | (_, .table m) :: rest =>
    if m.tenantId = tenantId ∧ m.runId = runId then .owned
    else queuedMetadataState rest tenantId runId

/-- The latest recorded activity of a lease, unless one of the times is in the future. -/
def lastActivity (m : LeaseMeta) (now : Time) : Option Time :=
  if isFuture now m.heartbeatAt || isFuture now m.leasedAt then none
  else
    match m.heartbeatAt, m.leasedAt with
    | some h, some l => some (max h l)
    | some h, none => some h
    | none, some l => some l
    | none, none => none

/-- What one lease row of the run says about a live owner. A row whose lease or whose worker has
gone silent says nothing. -/
def leaseRowState (s : Store) (req : AcquireRequest) (now : Time) (messageId : String)
    (m : LeaseMeta) : OwnerState :=
  if m.workerId = "" then .inconclusive
  else
    match lastActivity m now with
    | none => .inconclusive
    | some last =>
      let heartbeat := hget s.workerHeartbeat m.workerId
      if isFuture now heartbeat then .inconclusive
      else
        let workerActive := heartbeat.any fun t => now - t ≤ req.workerTtl
        if now - last ≤ req.workerTtl ∧ workerActive = true then
          match m.raw with
          | some raw =>
            if m.messageId = messageId ∧ raw.IsFor req.tenantId req.runId ∧ raw ∈ s.processing then
              .owned
            else .inconclusive
          | none => .inconclusive
        else .absent

/-- `metadata_state` on a lease hash: the first row of the run that is not silent decides. -/
def leaseMetadataState (s : Store) (req : AcquireRequest) (now : Time)
    (rows : List (String × Encoded LeaseMeta)) : OwnerState :=
  match rows with
  | [] => .absent
  | (_, .text _) :: _ => .inconclusive
  | (messageId, .table m) :: rest =>
    if m.tenantId = req.tenantId ∧ m.runId = req.runId then
      match leaseRowState s req now messageId m with
      | .absent => leaseMetadataState s req now rest
      | state => state
    else leaseMetadataState s req now rest

/-- A scan gives up on a hash larger than its limit. -/
def boundedState (count : Nat) (scanLimit : Int) (state : OwnerState) : OwnerState :=
  if scanLimit < count then .inconclusive else state

/-- The states of the three metadata hashes, the first that is not `absent` deciding. -/
def metadataState (s : Store) (req : AcquireRequest) (now : Time) : OwnerState :=
  match boundedState (hlen s.queuedMeta) req.scanLimit
      (queuedMetadataState (hgetall s.queuedMeta) req.tenantId req.runId) with
  | .absent =>
    match boundedState (hlen s.processingMeta) req.scanLimit
        (leaseMetadataState s req now (hgetall s.processingMeta)) with
    | .absent =>
      boundedState (hlen s.retryMeta) req.scanLimit
        (leaseMetadataState s req now (hgetall s.retryMeta))
    | state => state
  | state => state

def OwnerState.refusal : OwnerState → Option AcquireReply
  | .absent => none
  | .owned => some .owned
  | .inconclusive => some .inconclusive

def acquireReconciliationFence (env : Environment) (s : Store) (req : AcquireRequest)
    (now : Time) : Store × AcquireReply :=
  let key := reconciliationFenceKey env req.tenantId req.runId
  if hexists s.fences key then (s, .fenced)
  else if req.scanLimit < 1 ∨ req.fenceTtlMs < 1 then (s, .inconclusive)
  else if req.scanLimit < s.queued.length ∨ req.scanLimit < s.processing.length then
    (s, .inconclusive)
  else if listHasRun s.queued req.tenantId req.runId ≠ .absent then (s, .owned)
  else if listHasRun s.processing req.tenantId req.runId ≠ .absent then (s, .owned)
  else if hexists s.queuedRunIndex (queuedRunIndexField req.tenantId req.runId) then (s, .owned)
  else
    match (metadataState s req now).refusal with
    | some reply => (s, reply)
    | none =>
      ({ s with fences := hset s.fences key ⟨req.ownerToken, req.fenceTtlMs⟩ }, .claimed)

def releaseReconciliationFence (s : Store) (key ownerToken : String) : Store × Bool :=
  if (hget s.fences key).map (·.ownerToken) = some ownerToken then
    ({ s with fences := hdel s.fences key }, true)
  else (s, false)

inductive RenewReply where
  | invalidTtl
  | ownerLost
  | renewed
  deriving DecidableEq, Repr

def renewReconciliationFence (s : Store) (key ownerToken : String) (ttlMs : Int) :
    Store × RenewReply :=
  if ttlMs < 1 then (s, .invalidTtl)
  else if (hget s.fences key).map (·.ownerToken) = some ownerToken then
    ({ s with fences := hset s.fences key ⟨ownerToken, ttlMs⟩ }, .renewed)
  else (s, .ownerLost)

/-- The time to live of a fence key runs out. -/
def expireFence (s : Store) (key : String) : Store := { s with fences := hdel s.fences key }

end AiPlatform.Queue
