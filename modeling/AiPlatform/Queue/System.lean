import AiPlatform.Foundation.Runs
import AiPlatform.Queue.Reclaim

/-!
# The queue as a concurrent system

The store is shared by any number of clients. Scripts are atomic, so a client that sends one script
is one label; a reclaim pass sends many commands and is stepped one command at a time. Every value
a client may choose and every clock reading is part of the label, and stale or foreign handles,
payloads and indexes are allowed everywhere, so the runs include everything the Python callers can
do. `log` records what the scripts answered, newest first; no command reads it.
-/
namespace AiPlatform.Queue

open AiPlatform.Foundation Hash

inductive Settlement where
  | acked
  | failed
  | requeued
  | deadLettered
  deriving DecidableEq, Repr

inductive Event where
  | admitted (messageId : String)
  | leased (handle : LeaseHandle) (attempt : Int)
  | settled (handle : LeaseHandle) (how : Settlement)
  | droppedInvalid (messageId : String)
  | removed (tenantId runId : String)
  | claimed (tenantId runId : String)
  deriving DecidableEq, Repr

structure System where
  store : Store
  passes : Nat → ReclaimPass
  secretsDrawn : Nat
  log : List Event

inductive Label where
  | enqueue (payload : RunPayload) (enqueuedAt : Time)
  | removeQueued (tenantId runId : String)
  | removeQueuedRun (tenantId runId : String) (scanLimit : Int)
  | leaseCandidate (raw : RunPayload) (absoluteIndex : Int) (workerId : String)
      (limits : QuotaLimits) (now : Time) (errorMessage : String)
  | heartbeat (handle : LeaseHandle) (workerId : String) (now : Time)
  | ack (raw : RunPayload) (handle : LeaseHandle)
  | fail (raw : RunPayload) (handle : LeaseHandle) (errorCode errorMessage : String)
      (workerId : Option String) (now : Time)
  | verify (raw : RunPayload) (handle : LeaseHandle) (workerId : String)
  | startReclaim (pass : Nat) (visibilityTimeoutSeconds maxAttempts : Int) (checkedAt : Time)
  | reclaim (pass : Nat) (tick : Tick)
  | acquireFence (req : AcquireRequest) (now : Time)
  | renewFence (key ownerToken : String) (ttlMs : Int)
  | releaseFence (key ownerToken : String)
  | expireFence (key : String)
  | pruneHeartbeats (stale : List (String × Time))
  | trimDeadLetters (maxEntries : Nat)
  deriving DecidableEq, Repr

/-- `_new_lease_secret` twice: the attempt id and the owner token of one candidate. -/
def attemptSecret (env : Environment) (drawn : Nat) : String := "qat_" ++ env.tokenHex (2 * drawn)

def ownerSecret (env : Environment) (drawn : Nat) : String :=
  "qown_" ++ env.tokenHex (2 * drawn + 1)

def LeaseRequest.handle (env : Environment) (req : LeaseRequest) : LeaseHandle :=
  ⟨env.messageIdForRaw req.raw, req.attemptId, req.ownerToken⟩

def ExpectedLease.handle (env : Environment) (lease : ExpectedLease) : LeaseHandle :=
  ⟨env.messageIdForRaw lease.raw, lease.attemptId, lease.ownerToken⟩

def LeaseMeta.handle (m : LeaseMeta) : LeaseHandle := ⟨m.messageId, m.attemptId, m.leaseOwnerToken⟩

def EnqueueReply.events (messageId : String) : Option EnqueueReply → List Event
  | some (.enqueued _ _) => [.admitted messageId]
  | _ => []

def LeaseReply.events (handle : LeaseHandle) : LeaseReply → List Event
  | .leased attempts _ _ _ => [.leased handle attempts]
  | _ => []

def DeadLetterInvalidReply.events (messageId : String) : DeadLetterInvalidReply → List Event
  | .deadLettered _ => [.droppedInvalid messageId]
  | .conflict => []

def MutationStatus.events (handle : LeaseHandle) : MutationStatus → List Event
  | .acked => [.settled handle .acked]
  | .failed => [.settled handle .failed]
  | _ => []

def AcquireReply.events (req : AcquireRequest) : AcquireReply → List Event
  | .claimed => [.claimed req.tenantId req.runId]
  | _ => []

/-- What the next command of a pass settles. -/
def ReclaimPass.events (env : Environment) (s : Store) (p : ReclaimPass) (t : Tick) : List Event :=
  match p.phase with
  | .requeue call _ =>
    match (requeueWithFence env s call t.clientTime t.redisTime).2 with
    | none => [.settled (call.lease.handle env) .requeued]
    | some _ => []
  | .deadLetter call _ =>
    match (deadLetterExpiredLease env s call t.clientTime t.redisTime).2 with
    | none => [.settled (call.lease.handle env) .deadLettered]
    | some _ => []
  | _ => []

/-- One candidate of `_lease_run_with_quota`: the entry is leased if it validates and is taken out
otherwise. -/
def leaseCandidate (env : Environment) (s : Store) (req : LeaseRequest) (now : Time)
    (errorMessage : String) : Store × List Event :=
  if env.acceptsRaw req.raw then
    let result := leaseQuota env s req now
    (result.1, result.2.events (req.handle env))
  else
    let result :=
      deadLetterInvalidQuota env s req.raw req.absoluteIndex req.workerId now errorMessage
    (result.1, result.2.events (env.messageIdForRaw req.raw))

def System.leaseRequest (env : Environment) (sys : System) (raw : RunPayload) (absoluteIndex : Int)
    (workerId : String) (limits : QuotaLimits) : LeaseRequest :=
  ⟨raw, absoluteIndex, workerId, limits, attemptSecret env sys.secretsDrawn,
    ownerSecret env sys.secretsDrawn⟩

/-- The store after a label and the answers it adds to the log. -/
def System.effect (env : Environment) (sys : System) : Label → Store × List Event
  | .enqueue payload enqueuedAt =>
    let result := enqueueRun env sys.store payload enqueuedAt
    (result.1, EnqueueReply.events (env.messageIdForRaw payload) result.2)
  | .removeQueued tenantId runId =>
    ((removeQueuedWithMetadata sys.store tenantId runId).1, [.removed tenantId runId])
  | .removeQueuedRun tenantId runId scanLimit =>
    ((removeQueuedRun env sys.store tenantId runId scanLimit).1, [.removed tenantId runId])
  | .leaseCandidate raw absoluteIndex workerId limits now errorMessage =>
    leaseCandidate env sys.store (sys.leaseRequest env raw absoluteIndex workerId limits) now
      errorMessage
  | .heartbeat handle workerId now => ((heartbeatWithFence env sys.store handle workerId now).1, [])
  | .ack raw handle =>
    let result := ackRun env sys.store raw handle
    (result.1, result.2.events handle)
  | .fail raw handle errorCode errorMessage workerId now =>
    let result := failLeasedRun env sys.store raw handle errorCode errorMessage workerId now
    (result.1, result.2.events handle)
  | .verify _ _ _ => (sys.store, [])
  | .startReclaim _ _ _ _ => (sys.store, [])
  | .reclaim pass tick =>
    (((sys.passes pass).command env sys.store tick).1, (sys.passes pass).events env sys.store tick)
  | .acquireFence req now =>
    let result := acquireReconciliationFence env sys.store req now
    (result.1, result.2.events req)
  | .renewFence key ownerToken ttlMs =>
    ((renewReconciliationFence sys.store key ownerToken ttlMs).1, [])
  | .releaseFence key ownerToken => ((releaseReconciliationFence sys.store key ownerToken).1, [])
  | .expireFence key => (Queue.expireFence sys.store key, [])
  | .pruneHeartbeats stale => (pruneStaleWorkerHeartbeats sys.store stale, [])
  | .trimDeadLetters maxEntries => (Queue.trimDeadLetters sys.store maxEntries, [])

/-- The dead-letter call that the label executes. -/
def System.deadLetterCall (sys : System) : Label → Option DeadLetterCall
  | .reclaim i _ =>
    match (sys.passes i).phase with
    | .deadLetter call _ => some call
    | _ => none
  | _ => none

/-- The attempt limit that the label starts a pass with. -/
def Label.maxAttempts : Label → Option Int
  | .startReclaim _ _ maxAttempts _ => some maxAttempts
  | _ => none

def System.passesAfter (env : Environment) (sys : System) : Label → Nat → ReclaimPass
  | .startReclaim pass visibility maxAttempts checkedAt =>
    Function.update sys.passes pass ⟨visibility, maxAttempts, checkedAt, .start⟩
  | .reclaim pass tick =>
    Function.update sys.passes pass ((sys.passes pass).command env sys.store tick).2
  | _ => sys.passes

def System.secretsAfter (env : Environment) (sys : System) : Label → Nat
  | .leaseCandidate raw _ _ _ _ _ => if env.acceptsRaw raw then sys.secretsDrawn + 1
      else sys.secretsDrawn
  | _ => sys.secretsDrawn

def System.step (env : Environment) (sys : System) (l : Label) : System where
  store := (sys.effect env l).1
  passes := sys.passesAfter env l
  secretsDrawn := sys.secretsAfter env l
  log := (sys.effect env l).2 ++ sys.log

/-- Empty Redis, no reclaim pass under way. -/
def System.initial : System where
  store := .empty
  passes := fun _ => ⟨0, 0, 0, .finished⟩
  secretsDrawn := 0
  log := []

def machine (env : Environment) : Machine System Label := ⟨.initial, System.step env⟩

@[simp] theorem machine_start (env : Environment) : (machine env).start = .initial := rfl

@[simp] theorem machine_step (env : Environment) (sys : System) (l : Label) :
    (machine env).step sys l = sys.step env l := rfl

/-- A payload whose other fields do not matter. -/
def RunPayload.simple (tenantId runId : String) : RunPayload := ⟨tenantId, "w", "u", runId, ""⟩

def QuotaLimits.unlimited : QuotaLimits := ⟨0, 0, 0⟩

/-- A command of a pass at which all clocks agree. -/
def Label.reclaimAt (i : Nat) (now : Time) : Label := .reclaim i ⟨now, now, 1000⟩

end AiPlatform.Queue
