import AiPlatform.Queue.Fence

/-!
# Reclaiming expired leases

`reclaim_expired_leases` is a client program: it reads the processing list once and then, entry by
entry, the metadata, and asks one of two scripts to move the entry. Each read and each script is
one command, and other clients may run between any two of them, so the program is a state machine
over its next command (`ReclaimPhase`). Between commands it only computes.
-/
namespace AiPlatform.Queue

open AiPlatform.Foundation Hash SortedSet

/-! ## The two scripts -/

/-- Why a script leaves an entry of the processing list alone. -/
inductive ReclaimRefusal where
  | reconciliationFenced
  | staleOwner
  | inconclusive
  | leaseClockNormalized (heartbeatAt : Time)
  | leaseActive
  | processingMissing
  deriving DecidableEq, Repr

/-- The lease the caller has read and asks the script to act on. -/
structure ExpectedLease where
  raw : RunPayload
  attemptId : String
  ownerToken : String
  visibilityTimeoutSeconds : Int
  deriving DecidableEq, Repr

def LeaseMeta.normalizeFuture (env : Environment) (m : LeaseMeta) (now : Time) : LeaseMeta :=
  LeaseMeta.encoded env
    { m with
      heartbeatAt := if isFuture now m.heartbeatAt then some now else m.heartbeatAt
      leasedAt := if isFuture now m.leasedAt then some now else m.leasedAt }

/-- `normalize_matching_future_metadata` on one of the two lease hashes. -/
def normalizeRow (env : Environment) (h : Hash String (Encoded LeaseMeta)) (messageId : String)
    (lease : ExpectedLease) (now : Time) : Hash String (Encoded LeaseMeta) :=
  match hget h messageId with
  | some (.table m) =>
    if m.IsLease messageId lease.attemptId lease.ownerToken ∧
        (isFuture now m.heartbeatAt || isFuture now m.leasedAt) = true then
      hset h messageId (.table (m.normalizeFuture env now))
    else h
  | _ => h

def Store.normalizeFuture (env : Environment) (s : Store) (lease : ExpectedLease) (now : Time) :
    Store :=
  let messageId := env.messageIdForRaw lease.raw
  { s with
    processingMeta := normalizeRow env s.processingMeta messageId lease now
    retryMeta := normalizeRow env s.retryMeta messageId lease now }

/-- The metadata that speaks for a message: its processing row, or else its retry row. -/
def leaseRow (s : Store) (messageId : String) : Option (Encoded LeaseMeta) :=
  (hget s.processingMeta messageId).or (hget s.retryMeta messageId)

/-- The checks both scripts start with. `none` lets the script go on. -/
def expiredLeaseGuard (env : Environment) (s : Store) (fenceKey : String) (lease : ExpectedLease)
    (now : Time) : Store × Option ReclaimRefusal :=
  let messageId := env.messageIdForRaw lease.raw
  if hexists s.fences fenceKey then (s, some .reconciliationFenced)
  else
    match leaseRow s messageId with
    | some (.table m) =>
      if ¬ m.IsLease messageId lease.attemptId lease.ownerToken then (s, some .staleOwner)
      else if lease.visibilityTimeoutSeconds < 1 then (s, some .inconclusive)
      else
        match m.heartbeatAt.or m.leasedAt with
        | none => (s, some .inconclusive)
        | some activityAt =>
          let s := s.normalizeFuture env lease now
          if now < activityAt then (s, some (.leaseClockNormalized now))
          else if now - activityAt ≤ seconds lease.visibilityTimeoutSeconds then
            (s, some .leaseActive)
          else (s, none)
    | _ => (s, some .staleOwner)

structure RequeueCall where
  lease : ExpectedLease
  retryMetadata : LeaseMeta
  deriving DecidableEq, Repr

/-- `REQUEUE_WITH_FENCE_SCRIPT`; `none` is `requeued`. -/
def requeueWithFence (env : Environment) (s : Store) (call : RequeueCall) (enqueuedAt now : Time) :
    Store × Option ReclaimRefusal :=
  let raw := call.lease.raw
  let messageId := env.messageIdForRaw raw
  match expiredLeaseGuard env s (raw.fenceKey env) call.lease now with
  | (s, some refusal) => (s, some refusal)
  | (s, none) =>
    match hget s.queuedRunIndex raw.indexField with
    | some (.text _) => (s, some .inconclusive)
    | index =>
      if raw ∉ s.processing then (s, some .processingMissing)
      else
        let messageIds := (decodeIndex index).filter (· ≠ messageId) ++ [messageId]
        let s := { s with
          processing := lremFirst s.processing raw
          processingMeta := hdel s.processingMeta messageId }
        let s := s.pushQueued raw messageId (queuedMetadata raw enqueuedAt) messageIds
        ({ s with retryMeta := hset s.retryMeta messageId (.table call.retryMetadata) }, none)

structure DeadLetterCall where
  lease : ExpectedLease
  attempts : Int
  workerId : String
  removeProcessingMeta : Bool
  deriving DecidableEq, Repr

/-- `_dead_letter_expired_lease_with_fence` names an unused fence for a payload that does not
validate. -/
def deadLetterFenceKey (env : Environment) (raw : RunPayload) : String :=
  if env.acceptsRaw raw then raw.fenceKey env
  else env.reconciliationFencePrefix ++ ":invalid:" ++ env.messageIdForRaw raw

/-- `DEAD_LETTER_EXPIRED_LEASE_WITH_FENCE_SCRIPT`; `none` is `dead_lettered`. -/
def deadLetterExpiredLease (env : Environment) (s : Store) (call : DeadLetterCall)
    (createdAt now : Time) : Store × Option ReclaimRefusal :=
  let raw := call.lease.raw
  let messageId := env.messageIdForRaw raw
  match expiredLeaseGuard env s (deadLetterFenceKey env raw) call.lease now with
  | (s, some refusal) => (s, some refusal)
  | (s, none) =>
    ({ s with
        processing := lremFirst s.processing raw
        processingMeta :=
          if call.removeProcessingMeta then hdel s.processingMeta messageId else s.processingMeta
        deadLetter := s.deadLetter ++
          [⟨"lease_expired_max_attempts", "Leased queue message exceeded max attempts",
            some call.attempts, some call.workerId, raw, createdAt⟩]
        retryMeta := hdel s.retryMeta messageId }, none)

/-! ## The client program -/

inductive ReclaimPhase where
  | start
  | readProcessing (raw : RunPayload) (rest : List RunPayload)
  | readRetry (raw : RunPayload) (rest : List RunPayload)
  | requeue (call : RequeueCall) (rest : List RunPayload)
  | deadLetter (call : DeadLetterCall) (rest : List RunPayload)
  | trim (rest : List RunPayload)
  | finished
  deriving DecidableEq, Repr

structure ReclaimPass where
  visibilityTimeoutSeconds : Int
  maxAttempts : Int
  checkedAt : Time
  phase : ReclaimPhase
  deriving DecidableEq, Repr

/-- The loop over the entries read at the start. -/
def ReclaimPhase.next : List RunPayload → ReclaimPhase
  | [] => .finished
  | raw :: rest => .readProcessing raw rest

/-- `float(meta.get("heartbeat_at") or meta.get("leased_at") or 0)`: a zero is skipped too. -/
def reclaimHeartbeatAt (m : LeaseMeta) : Time :=
  match m.heartbeatAt with
  | some t => if t ≠ 0 then t else m.leasedAt.getD 0
  | none => m.leasedAt.getD 0

/-- What the pass does with an entry whose metadata it has read. `removeProcessingMeta` tells
which of the two hashes the metadata came from. -/
def ReclaimPass.decide (env : Environment) (p : ReclaimPass) (raw : RunPayload)
    (rest : List RunPayload) (m : LeaseMeta) (removeProcessingMeta : Bool) : ReclaimPhase :=
  let attempts := m.attempts.getD 0
  if m.attemptId = "" ∨ m.leaseOwnerToken = "" ∨ attempts < 1 then .next rest
  else
    let lease : ExpectedLease :=
      ⟨raw, m.attemptId, m.leaseOwnerToken, p.visibilityTimeoutSeconds⟩
    if p.maxAttempts ≤ attempts then
      .deadLetter ⟨lease, attempts, m.workerId, removeProcessingMeta⟩ rest
    -- `_requeue_run_with_fence` validates the payload first; the exception ends the pass.
    else if env.acceptsRaw raw then
      .requeue ⟨lease, { m with attempts := some attempts, requeuedAt := some p.checkedAt }⟩ rest
    else .finished

/-- The pass after reading the processing row of `raw`. -/
def ReclaimPass.onProcessingRow (env : Environment) (p : ReclaimPass) (raw : RunPayload)
    (rest : List RunPayload) : Option (Encoded LeaseMeta) → ReclaimPhase
  | none => .readRetry raw rest
  | some (.text _) => .next rest
  | some (.table m) =>
    let age := p.checkedAt - reclaimHeartbeatAt m
    if 0 ≤ age ∧ age ≤ seconds p.visibilityTimeoutSeconds then .next rest
    else p.decide env raw rest m true

/-- The pass after reading the retry row of `raw`, its processing row having been absent. -/
def ReclaimPass.onRetryRow (env : Environment) (p : ReclaimPass) (raw : RunPayload)
    (rest : List RunPayload) : Option (Encoded LeaseMeta) → ReclaimPhase
  | some (.table m) => p.decide env raw rest m false
  | _ => .next rest

/-- The clocks and settings one command of a pass reads. -/
structure Tick where
  redisTime : Time
  clientTime : Time
  deadLetterMaxEntries : Nat
  deriving DecidableEq, Repr

/-- The next command of a pass. -/
def ReclaimPass.command (env : Environment) (s : Store) (p : ReclaimPass) (t : Tick) :
    Store × ReclaimPass :=
  match p.phase with
  | .start => (s, { p with phase := .next s.processing })
  | .readProcessing raw rest =>
    let row := hget s.processingMeta (env.messageIdForRaw raw)
    (s, { p with phase := p.onProcessingRow env raw rest row })
  | .readRetry raw rest =>
    let row := hget s.retryMeta (env.messageIdForRaw raw)
    (s, { p with phase := p.onRetryRow env raw rest row })
  | .requeue call rest =>
    ((requeueWithFence env s call t.clientTime t.redisTime).1, { p with phase := .next rest })
  | .deadLetter call rest =>
    match deadLetterExpiredLease env s call t.clientTime t.redisTime with
    | (s, none) => (s, { p with phase := .trim rest })
    | (s, some _) => (s, { p with phase := .next rest })
  | .trim rest => (trimDeadLetters s t.deadLetterMaxEntries, { p with phase := .next rest })
  | .finished => (s, p)

end AiPlatform.Queue
