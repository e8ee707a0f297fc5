import AiPlatform.Foundation.Runs
import AiPlatform.Foundation.Claims
import AiPlatform.Foundation.JsonParse
import AiPlatform.Kernel.Unicode

/-!
# Sandbox leases

A row of `sandbox_leases` and the operations of the repository on it. Each operation is one guarded
update: it applies to the row as a whole or leaves it as it is. A claim query picks any rows that
qualify, so that it may or may not come to the row at hand; an operation on another row does not
concern it.
-/
namespace AiPlatform.Sandbox

open AiPlatform.Foundation AiPlatform.Kernel

inductive LeaseStatus where
  | active
  | released
  | quarantined
  deriving DecidableEq, Repr

inductive ExecutorStatus where
  | pending
  | accepted
  | running
  | completed
  | failed
  | cancelled
  deriving DecidableEq, Repr

inductive ReconciliationStatus where
  | waitingTerminal
  | pending
  | claimed
  | retry
  | cleanupPending
  | finalized
  | failed
  deriving DecidableEq, Repr

structure LeaseScope where
  tenantId : String
  workspaceId : String
  userId : String
  sessionId : String
  runId : String
  attemptId : Option String
  sandboxMode : String
  provider : String
  deriving DecidableEq, Repr

/-- Points in time are seconds on the clock of the database. -/
structure Lease where
  scope : LeaseScope
  status : LeaseStatus
  ownerGeneration : Option String
  terminalReconciliation : Option Json
  runtimeContainerId : Option String
  providerRenewedAt : Option Int
  providerExpiresAt : Option Int
  executorStatus : ExecutorStatus
  executorHeartbeatAt : Option Int
  executorTerminal : Option Json
  executorTerminalReceivedAt : Option Int
  reconciliationContext : Option Json
  reconciliationStatus : ReconciliationStatus
  claimToken : Option String
  claimedAt : Option Int
  retryNotBefore : Option Int
  attemptCount : Nat
  terminalAttemptCount : Nat
  reconciliationError : String
  reconciledAt : Option Int
  heartbeatAt : Option Int
  expiresAt : Option Int
  releasedAt : Option Int
  releaseReason : String
  createdAt : Int
  updatedAt : Int
  deriving DecidableEq

def runResultMaxBytes : Nat := 256 * 1024

/-- `error[:1000]` -/
def clipped (error : String) : String :=
  String.ofList (error.toList.take 1000)

structure AttemptKey where
  tenantId : String
  runId : String
  attemptId : String
  deriving DecidableEq, Repr

def AttemptKey.Matches (key : AttemptKey) (lease : Lease) : Prop :=
  lease.scope.tenantId = key.tenantId ∧ lease.scope.runId = key.runId ∧
    lease.scope.attemptId = some key.attemptId

instance (key : AttemptKey) (lease : Lease) : Decidable (key.Matches lease) :=
  inferInstanceAs (Decidable (_ ∧ _ ∧ _))

/-! ## Creation -/

/-- A container of `docker` or `opensandbox` needs an attempt and a verified handle; `attemptBound`
says that the payload names the attempt. An empty attempt id counts as none. -/
structure NewLease where
  scope : LeaseScope
  attemptBound : Bool
  handleVerified : Bool
  ownerGeneration : Option String
  runtimeContainerId : Option String
  ttlSeconds : Int
  deriving DecidableEq

@[grind]
def createSandboxLease (now : Int) (args : NewLease) : Option Lease :=
  if args.scope.attemptId.getD "" ≠ "" ∧ args.attemptBound = false then none
  else if args.scope.provider ∈ ["docker", "opensandbox"] ∧
      (args.scope.attemptId.getD "" = "" ∨ args.handleVerified = false) then none
  else some
    { scope := args.scope, status := .active, ownerGeneration := args.ownerGeneration
      terminalReconciliation := none, runtimeContainerId := args.runtimeContainerId
      providerRenewedAt := none, providerExpiresAt := none, executorStatus := .pending
      executorHeartbeatAt := none, executorTerminal := none, executorTerminalReceivedAt := none
      reconciliationContext := none, reconciliationStatus := .waitingTerminal, claimToken := none
      claimedAt := none, retryNotBefore := none, attemptCount := 0, terminalAttemptCount := 0
      reconciliationError := "", reconciledAt := none, heartbeatAt := some now
      expiresAt := some (now + args.ttlSeconds), releasedAt := none, releaseReason := ""
      createdAt := now, updatedAt := now }

/-! ## The executor's reports -/

section Reports

variable (now : Int)

@[grind]
def recordSandboxExecutorAccepted (key : AttemptKey) (context : Json) (ttlSeconds : Int)
    (lease : Lease) : Option Lease :=
  if key.Matches lease ∧ lease.status = .active then
    some { lease with
      executorStatus :=
        if lease.executorStatus ∈ [.running, .completed, .failed, .cancelled] then
          lease.executorStatus
        else .accepted
      executorHeartbeatAt := some now
      reconciliationContext := some context
      reconciliationStatus :=
        if lease.executorTerminal ≠ none ∧ lease.reconciliationStatus = .waitingTerminal then
          .pending
        else lease.reconciliationStatus
      expiresAt := some (now + ttlSeconds)
      updatedAt := now }
  else none

/-- `expires_at is null or expires_at > now()` -/
def Lease.NotExpired (lease : Lease) : Prop :=
  ∀ expiry ∈ lease.expiresAt, now < expiry

instance (lease : Lease) : Decidable (lease.NotExpired now) :=
  inferInstanceAs (Decidable (∀ _ ∈ _, _))

@[grind]
def recordSandboxExecutorHeartbeat (key : AttemptKey) (status : ExecutorStatus) (ttlSeconds : Int)
    (lease : Lease) : Option Lease :=
  if status ∈ [.accepted, .running] ∧ key.Matches lease ∧ lease.status = .active ∧
      lease.NotExpired now ∧ lease.executorTerminal = none then
    some { lease with
      executorStatus :=
        if lease.executorStatus = .running ∧ status = .accepted then lease.executorStatus
        else status
      executorHeartbeatAt := some now
      heartbeatAt := some now
      expiresAt := some (now + ttlSeconds)
      updatedAt := now }
  else none

@[grind]
def recordOpensandboxRenewalReceipt (key : AttemptKey) (providerExpiresAt : Int) (lease : Lease) :
    Option Lease :=
  if key.Matches lease ∧ lease.scope.provider = "opensandbox" ∧ lease.status = .active ∧
      lease.NotExpired now ∧ lease.executorTerminal = none then
    some { lease with
      providerRenewedAt := some now
      providerExpiresAt := some providerExpiresAt
      updatedAt := now }
  else none

@[grind]
def renewSandboxLease (tenantId userId runId : String) (ttlSeconds : Int) (lease : Lease) :
    Option Lease :=
  if lease.scope.tenantId = tenantId ∧ lease.scope.userId = userId ∧ lease.scope.runId = runId ∧
      lease.status = .active ∧ lease.NotExpired now then
    some { lease with
      heartbeatAt := some now
      expiresAt := some (now + ttlSeconds)
      updatedAt := now }
  else none

/-- The statuses a terminal result may bear under the executor's status. -/
def allowedResultStatuses : ExecutorStatus → List String
  | .completed => ["completed", "succeeded"]
  | .failed => ["failed"]
  | .cancelled => ["cancelled", "canceled"]
  | _ => []

/-- `str(value)`; the text of a float, a list or a mapping is left open. -/
def strText : Json → Option String
  | .null => some "None"
  | .bool b => some (if b then "True" else "False")
  | .int n => some (String.ofList (Json.intText n))
  | .str text => some text
  | .float _ | .arr _ | .obj _ => none

/-- `str(value or "")` -/
def orEmptyText : Option Json → Option String
  | none | some .null | some (.bool false) | some (.int 0) | some (.str "") | some (.arr [])
  | some (.obj []) => some ""
  | some value => strText value

/-- `str(terminal_result.get("status") or "").strip().lower()` -/
def resultStatus (u : Unicode) (result : Json) : Option String :=
  (orEmptyText (result.get? "status")).map fun text => String.ofList
    (u.lower ((text.toList.dropWhile u.isSpace).rdropWhile u.isSpace))

/-- A result that came first stays: the same one again is answered as recorded, another is a
conflict, and the row is left as it is in both cases. -/
@[grind]
def recordSandboxExecutorTerminal (u : Unicode) (key : AttemptKey) (status : ExecutorStatus)
    (result : Json) (claimToken : Option String) (lease : Lease) : Option Lease :=
  if result.size ≤ runResultMaxBytes ∧ status ∈ [.completed, .failed, .cancelled] ∧
      orEmptyText (result.get? "run_id") = some key.runId ∧
      resultStatus u result ∈ (allowedResultStatuses status).map some ∧
      key.Matches lease ∧ lease.status = .active ∧ lease.executorTerminal = none ∧
      (∀ token ∈ claimToken,
        lease.reconciliationStatus = .claimed ∧ lease.claimToken = some token) then
    some { lease with
      executorStatus := status
      executorHeartbeatAt := some now
      executorTerminal := some result
      executorTerminalReceivedAt := some now
      reconciliationStatus :=
        if lease.reconciliationContext = none then .waitingTerminal else .pending
      heartbeatAt := some now
      updatedAt := now }
  else none

end Reports

/-! ## Release -/

section Release

variable (now : Int)

/-- `executor_terminal_json is null or executor_reconciliation_status = 'finalized'` -/
@[grind]
def Lease.Releasable (lease : Lease) : Prop :=
  lease.executorTerminal = none ∨ lease.reconciliationStatus = .finalized

instance (lease : Lease) : Decidable lease.Releasable :=
  inferInstanceAs (Decidable (_ ∨ _))

@[grind]
def Lease.released (lease : Lease) (reason : String) : Lease :=
  { lease with
    status := .released
    releasedAt := some (lease.releasedAt.getD now)
    releaseReason := reason
    updatedAt := now }

/-- The releases differ in how they address the row. -/
@[grind]
def releaseWhere (addressed : Prop) [Decidable addressed] (reason : String) (lease : Lease) :
    Option Lease :=
  if addressed ∧ lease.status = .active ∧ lease.Releasable then some (lease.released now reason)
  else none

@[grind]
def releaseSandboxLease (tenantId userId runId reason : String) (lease : Lease) : Option Lease :=
  releaseWhere now (lease.scope.tenantId = tenantId ∧ lease.scope.userId = userId ∧
    lease.scope.runId = runId) reason lease

@[grind]
def releaseActiveSandboxLeasesForRun (tenantId runId reason : String) (lease : Lease) :
    Option Lease :=
  releaseWhere now (lease.scope.tenantId = tenantId ∧ lease.scope.runId = runId) reason lease

@[grind]
def releaseStoppedSandboxLeases (tenantId reason : String) (runId : Option String) (lease : Lease) :
    Option Lease :=
  releaseWhere now (lease.scope.tenantId = tenantId ∧ ∀ id ∈ runId, lease.scope.runId = id) reason
    lease

/-- `expires_at is not null and expires_at <= now()` -/
def Lease.Expired (lease : Lease) : Prop :=
  ∃ expiry ∈ lease.expiresAt, expiry ≤ now

instance (lease : Lease) : Decidable (lease.Expired now) :=
  inferInstanceAs (Decidable (∃ _ ∈ _, _))

@[grind]
def cleanupExpiredSandboxLeases (tenantId : Option String) (reason : String) (lease : Lease) :
    Option Lease :=
  releaseWhere now ((∀ id ∈ tenantId, lease.scope.tenantId = id) ∧ lease.Expired now ∧
    lease.scope.provider ∉ ["fake", "docker", "opensandbox"]) reason lease

/-- The row the fence leaves where there was none. -/
@[grind]
def fencedLease (scope : LeaseScope) (reason : String) : Lease :=
  { scope := scope, status := .released, ownerGeneration := none, terminalReconciliation := none
    runtimeContainerId := none, providerRenewedAt := none, providerExpiresAt := none
    executorStatus := .pending, executorHeartbeatAt := none, executorTerminal := none
    executorTerminalReceivedAt := none, reconciliationContext := none
    reconciliationStatus := .waitingTerminal, claimToken := none, claimedAt := none
    retryNotBefore := none, attemptCount := 0, terminalAttemptCount := 0, reconciliationError := ""
    reconciledAt := none, heartbeatAt := some now, expiresAt := some now, releasedAt := some now
    releaseReason := reason, createdAt := now, updatedAt := now }

/-- Unlike the releases, the fence does not ask whether the lease is active. -/
@[grind]
def fenceSandboxLeaseRelease (scope : LeaseScope) (reason : String) (lease : Lease) :
    Option Lease :=
  if { lease.scope with attemptId := some (lease.scope.attemptId.getD "") } =
      { scope with attemptId := some (scope.attemptId.getD "") } ∧ lease.Releasable then
    some (lease.released now reason)
  else none

end Release

/-! ## Claims -/

section Claims

variable (now : Int)

/-- `coalesce(executor_heartbeat_at, updated_at, created_at)` -/
def Lease.lastSeen (lease : Lease) : Int :=
  lease.executorHeartbeatAt.getD lease.updatedAt

@[grind]
def Lease.Suspect (staleAfter : Int) (lease : Lease) : Prop :=
  lease.status = .active ∧ lease.executorTerminal = none ∧ lease.reconciliationContext ≠ none ∧
    ((lease.reconciliationStatus = .waitingTerminal ∧ lease.lastSeen < now - staleAfter) ∨
      (lease.reconciliationStatus = .claimed ∧
        lease.claimedAt.getD lease.updatedAt < now - staleAfter))

instance (staleAfter : Int) (lease : Lease) : Decidable (lease.Suspect now staleAfter) :=
  inferInstanceAs (Decidable (_ ∧ _ ∧ _ ∧ _))

@[grind]
def claimSandboxExecutorSuspects (claimToken : String) (staleAfter : Int) (lease : Lease) :
    Option Lease :=
  if lease.Suspect now staleAfter then
    some { lease with
      reconciliationStatus := .claimed
      claimToken := some claimToken
      claimedAt := some now
      attemptCount := lease.attemptCount + 1
      reconciliationError := ""
      updatedAt := now }
  else none

/-- `status in ('active', 'released')` -/
@[grind]
def Lease.Kept (lease : Lease) : Prop :=
  lease.status = .active ∨ lease.status = .released

instance (lease : Lease) : Decidable lease.Kept :=
  inferInstanceAs (Decidable (_ ∨ _))

/-- `coalesce(executor_reconciliation_retry_not_before, '-infinity') <= now()` -/
def Lease.RetryDue (lease : Lease) : Prop :=
  ∀ t ∈ lease.retryNotBefore, t ≤ now

instance (lease : Lease) : Decidable (lease.RetryDue now) :=
  inferInstanceAs (Decidable (∀ _ ∈ _, _))

@[grind]
def Lease.Reconcilable (staleAfter : Int) (lease : Lease) : Prop :=
  lease.Kept ∧ lease.executorTerminal ≠ none ∧ lease.reconciliationContext ≠ none ∧
    (lease.reconciliationStatus = .pending ∨
      (lease.reconciliationStatus = .retry ∧ lease.RetryDue now) ∨
      (lease.reconciliationStatus = .claimed ∧ ∃ t ∈ lease.claimedAt, t < now - staleAfter))

instance (staleAfter : Int) (lease : Lease) : Decidable (lease.Reconcilable now staleAfter) :=
  inferInstanceAs (Decidable (_ ∧ _ ∧ _ ∧ _))

@[grind]
def claimSandboxExecutorReconciliations (claimToken : String) (staleAfter : Int) (lease : Lease) :
    Option Lease :=
  if lease.Reconcilable now staleAfter then
    some { lease with
      reconciliationStatus := .claimed
      claimToken := some claimToken
      claimedAt := some now
      retryNotBefore := none
      terminalAttemptCount := lease.terminalAttemptCount + 1
      reconciliationError := ""
      updatedAt := now }
  else none

/-- `executor_reconciliation_status in ('failed', 'cleanup_pending')` -/
@[grind]
def Lease.InCleanup (lease : Lease) : Prop :=
  lease.reconciliationStatus = .failed ∨ lease.reconciliationStatus = .cleanupPending

instance (lease : Lease) : Decidable lease.InCleanup :=
  inferInstanceAs (Decidable (_ ∨ _))

@[grind]
def Lease.CleanupDue (staleAfter : Int) (lease : Lease) : Prop :=
  lease.Kept ∧ lease.executorTerminal ≠ none ∧ lease.InCleanup ∧ lease.RetryDue now ∧
    (lease.claimToken = none ∨ ∀ t ∈ lease.claimedAt, t < now - staleAfter)

instance (staleAfter : Int) (lease : Lease) : Decidable (lease.CleanupDue now staleAfter) :=
  inferInstanceAs (Decidable (_ ∧ _ ∧ _ ∧ _ ∧ _))

@[grind]
def claimFailedSandboxExecutorReconciliationCleanups (claimToken : String)
    (tenantId : Option String) (staleAfter : Int) (lease : Lease) : Option Lease :=
  if lease.CleanupDue now staleAfter ∧ ∀ id ∈ tenantId, lease.scope.tenantId = id then
    some { lease with
      claimToken := some claimToken
      claimedAt := some now
      updatedAt := now }
  else none

end Claims

/-! ## Under a claim -/

section Claimed

variable (now : Int) (claimToken : String)

/-- A reconciliation claim that is held under the token. -/
@[grind]
def Lease.ClaimedBy (lease : Lease) : Prop :=
  lease.reconciliationStatus = .claimed ∧ lease.claimToken = some claimToken

instance (lease : Lease) : Decidable (lease.ClaimedBy claimToken) :=
  inferInstanceAs (Decidable (_ ∧ _))

/-- A cleanup claim that is held under the token. -/
@[grind]
def Lease.CleanupClaimedBy (lease : Lease) : Prop :=
  lease.Kept ∧ lease.InCleanup ∧ lease.claimToken = some claimToken

instance (lease : Lease) : Decidable (lease.CleanupClaimedBy claimToken) :=
  inferInstanceAs (Decidable (_ ∧ _ ∧ _))

/-- A check that is passed leaves the row as it is. -/
@[grind]
def hasSandboxExecutorReconciliationClaim (lease : Lease) : Option Lease :=
  if lease.Kept ∧ lease.ClaimedBy claimToken then some lease else none

@[grind]
def hasFailedSandboxExecutorReconciliationCleanupClaim (lease : Lease) : Option Lease :=
  if lease.CleanupClaimedBy claimToken then some lease else none

/-- The scope with its attempt, without what the queries do not compare. -/
def LeaseScope.SameAttempt (scope other : LeaseScope) : Prop :=
  scope.tenantId = other.tenantId ∧ scope.workspaceId = other.workspaceId ∧
    scope.userId = other.userId ∧ scope.sessionId = other.sessionId ∧
    scope.runId = other.runId ∧ scope.attemptId = other.attemptId ∧ other.attemptId ≠ none

instance (scope other : LeaseScope) : Decidable (scope.SameAttempt other) :=
  inferInstanceAs (Decidable (_ ∧ _ ∧ _ ∧ _ ∧ _ ∧ _ ∧ _))

@[grind]
def lockScopedReconciliationReceipt (scope : LeaseScope) (ownerGeneration : String)
    (lease : Lease) : Option Lease :=
  if lease.scope.SameAttempt scope ∧ lease.Kept ∧ lease.executorTerminal ≠ none ∧
      lease.ClaimedBy claimToken ∧ lease.ownerGeneration = some ownerGeneration then
    some lease
  else none

@[grind]
def recordSandboxExecutorTerminalDiagnostics (diagnostics : List String) (lease : Lease) :
    Option Lease :=
  match lease.executorTerminal with
  | some (.obj members) =>
    if lease.Kept ∧ lease.ClaimedBy claimToken then
      some { lease with
        executorTerminal :=
          some (.obj (Json.setMember members "diagnostics" (.arr (diagnostics.map .str))))
        updatedAt := now }
    else none
  | _ => none

@[grind]
def releaseSandboxExecutorProbeClaim (error : String) (lease : Lease) : Option Lease :=
  if lease.status = .active ∧ lease.executorTerminal = none ∧ lease.ClaimedBy claimToken then
    some { lease with
      reconciliationStatus := .waitingTerminal
      claimToken := none
      claimedAt := none
      reconciliationError := clipped error
      updatedAt := now }
  else none

@[grind]
def retrySandboxExecutorReconciliation (error : String) (lease : Lease) : Option Lease :=
  if lease.Kept ∧ lease.ClaimedBy claimToken then
    some { lease with
      reconciliationStatus := .retry
      retryNotBefore := some (now + min 30 (max 1 lease.terminalAttemptCount : Nat))
      claimToken := none
      claimedAt := none
      reconciliationError := clipped error
      updatedAt := now }
  else none

@[grind]
def markSandboxExecutorReconciliationCleanupPending (error : String) (lease : Lease) :
    Option Lease :=
  if lease.Kept ∧ lease.ClaimedBy claimToken then
    some { lease with
      reconciliationStatus := .cleanupPending
      retryNotBefore := none
      claimToken := none
      claimedAt := none
      reconciliationError := clipped error
      expiresAt := some (min (lease.expiresAt.getD now) now)
      updatedAt := now }
  else none

@[grind]
def releaseFailedSandboxExecutorReconciliationCleanupClaim (error : String) (lease : Lease) :
    Option Lease :=
  if lease.CleanupClaimedBy claimToken then
    some { lease with
      retryNotBefore := some (now + 30)
      claimToken := none
      claimedAt := some now
      reconciliationError := clipped error
      updatedAt := now }
  else none

@[grind]
def Lease.finalized (lease : Lease) (reason : String) : Lease :=
  { lease.released now reason with
    reconciliationStatus := .finalized
    retryNotBefore := none
    claimToken := none
    claimedAt := none
    reconciliationError := ""
    reconciledAt := some now }

@[grind]
def finalizeFailedSandboxExecutorReconciliationCleanup (tenantId userId runId reason : String)
    (lease : Lease) : Option Lease :=
  if lease.scope.tenantId = tenantId ∧ lease.scope.userId = userId ∧ lease.scope.runId = runId ∧
      lease.CleanupClaimedBy claimToken then
    some (lease.finalized now reason)
  else none

/-- The reconciliation status stays what it was. -/
@[grind]
def quarantineFailedSandboxExecutorReconciliationCleanup (error : String) (lease : Lease) :
    Option Lease :=
  if lease.CleanupClaimedBy claimToken then
    some { lease with
      status := .quarantined
      claimToken := none
      claimedAt := none
      reconciliationError := clipped error
      updatedAt := now }
  else none

@[grind]
def quarantineSandboxExecutorReconciliation (error : String) (lease : Lease) : Option Lease :=
  if lease.Kept ∧ lease.ClaimedBy claimToken then
    some { lease with
      status := .quarantined
      reconciliationStatus := .failed
      claimToken := none
      claimedAt := none
      reconciliationError := clipped error
      updatedAt := now }
  else none

/-- The row is the one of `stage["scope"]`. -/
def Lease.InScope (lease : Lease) (stage : Json) : Prop :=
  let scope := (stage.get? "scope").getD .null
  scope.get? "tenant_id" = some (.str lease.scope.tenantId) ∧
    scope.get? "run_id" = some (.str lease.scope.runId) ∧
    ∃ attemptId ∈ lease.scope.attemptId, scope.get? "attempt_id" = some (.str attemptId)

instance (lease : Lease) (stage : Json) : Decidable (lease.InScope stage) :=
  inferInstanceAs (Decidable (_ ∧ _ ∧ ∃ _ ∈ _, _))

/-- `lease_payload_json->>'owner_generation' = str(stage["owner_generation"])` and
`runtime_container_id = stage["container_id"]` -/
def Lease.OwnedAt (lease : Lease) (stage : Json) : Prop :=
  (∃ generation ∈ lease.ownerGeneration,
    (stage.get? "owner_generation").bind strText = some generation) ∧
  ∃ container ∈ lease.runtimeContainerId, stage.get? "container_id" = some (.str container)

instance (lease : Lease) (stage : Json) : Decidable (lease.OwnedAt stage) :=
  inferInstanceAs (Decidable ((∃ _ ∈ _, _) ∧ ∃ _ ∈ _, _))

@[grind]
def recordSandboxReconciliationStage (stage : Json) (lease : Lease) : Option Lease :=
  if stage.size ≤ runResultMaxBytes ∧ lease.ClaimedBy claimToken ∧ lease.Kept ∧
      lease.InScope stage ∧ lease.OwnedAt stage then
    some { lease with terminalReconciliation := some stage, updatedAt := now }
  else none

@[grind]
def finalizeStoppedExecutorCheckpoint (scope : LeaseScope) (expected : Json) (lease : Lease) :
    Option Lease :=
  if lease.scope.SameAttempt scope ∧ lease.Kept ∧ lease.ClaimedBy claimToken ∧
      lease.terminalReconciliation = some expected ∧ lease.OwnedAt expected ∧
      lease.executorTerminal ≠ none then
    some (lease.finalized now "executor_reconciled")
  else none

end Claimed

/-! ## The row and its history -/

inductive LeaseOp where
  | create (args : NewLease)
  | accepted (key : AttemptKey) (context : Json) (ttlSeconds : Int)
  | heartbeat (key : AttemptKey) (status : ExecutorStatus) (ttlSeconds : Int)
  | renewalReceipt (key : AttemptKey) (providerExpiresAt : Int)
  | renew (tenantId userId runId : String) (ttlSeconds : Int)
  | terminal (key : AttemptKey) (status : ExecutorStatus) (result : Json)
      (claimToken : Option String)
  | release (tenantId userId runId reason : String)
  | releaseForRun (tenantId runId reason : String)
  | releaseStopped (tenantId reason : String) (runId : Option String)
  | cleanupExpired (tenantId : Option String) (reason : String)
  | fence (scope : LeaseScope) (reason : String)
  | claimSuspect (claimToken : String) (staleAfter : Int)
  | claimReconciliation (claimToken : String) (staleAfter : Int)
  | claimCleanup (claimToken : String) (tenantId : Option String) (staleAfter : Int)
  | diagnostics (claimToken : String) (diagnostics : List String)
  | releaseProbeClaim (claimToken error : String)
  | retry (claimToken error : String)
  | cleanupPending (claimToken error : String)
  | releaseCleanupClaim (claimToken error : String)
  | finalizeCleanup (claimToken tenantId userId runId reason : String)
  | quarantineCleanup (claimToken error : String)
  | quarantine (claimToken error : String)
  | hasClaim (claimToken : String)
  | hasCleanupClaim (claimToken : String)
  | lockReceipt (claimToken : String) (scope : LeaseScope) (ownerGeneration : String)
  | stage (claimToken : String) (checkpoint : Json)
  | finalizeStopped (claimToken : String) (scope : LeaseScope) (expected : Json)
  deriving DecidableEq

namespace LeaseOp

/-- The operation on a row that is there; a second creation is refused by the primary key. -/
def update (u : Unicode) (now : Int) (lease : Lease) : LeaseOp → Option Lease
  | create _ => none
  | accepted key context ttl => recordSandboxExecutorAccepted now key context ttl lease
  | heartbeat key status ttl => recordSandboxExecutorHeartbeat now key status ttl lease
  | renewalReceipt key expiry => recordOpensandboxRenewalReceipt now key expiry lease
  | renew tenant user run ttl => renewSandboxLease now tenant user run ttl lease
  | terminal key status result token =>
    recordSandboxExecutorTerminal now u key status result token lease
  | release tenant user run reason => releaseSandboxLease now tenant user run reason lease
  | releaseForRun tenant run reason => releaseActiveSandboxLeasesForRun now tenant run reason lease
  | releaseStopped tenant reason run => releaseStoppedSandboxLeases now tenant reason run lease
  | cleanupExpired tenant reason => cleanupExpiredSandboxLeases now tenant reason lease
  | fence scope reason => fenceSandboxLeaseRelease now scope reason lease
  | claimSuspect token stale => claimSandboxExecutorSuspects now token stale lease
  | claimReconciliation token stale => claimSandboxExecutorReconciliations now token stale lease
  | claimCleanup token tenant stale =>
    claimFailedSandboxExecutorReconciliationCleanups now token tenant stale lease
  | diagnostics token texts => recordSandboxExecutorTerminalDiagnostics now token texts lease
  | releaseProbeClaim token error => releaseSandboxExecutorProbeClaim now token error lease
  | retry token error => retrySandboxExecutorReconciliation now token error lease
  | cleanupPending token error =>
    markSandboxExecutorReconciliationCleanupPending now token error lease
  | releaseCleanupClaim token error =>
    releaseFailedSandboxExecutorReconciliationCleanupClaim now token error lease
  | finalizeCleanup token tenant user run reason =>
    finalizeFailedSandboxExecutorReconciliationCleanup now token tenant user run reason lease
  | quarantineCleanup token error =>
    quarantineFailedSandboxExecutorReconciliationCleanup now token error lease
  | quarantine token error => quarantineSandboxExecutorReconciliation now token error lease
  | hasClaim token => hasSandboxExecutorReconciliationClaim token lease
  | hasCleanupClaim token => hasFailedSandboxExecutorReconciliationCleanupClaim token lease
  | lockReceipt token scope generation =>
    lockScopedReconciliationReceipt token scope generation lease
  | stage token checkpoint => recordSandboxReconciliationStage now token checkpoint lease
  | finalizeStopped token scope expected =>
    finalizeStoppedExecutorCheckpoint now token scope expected lease

/-- The row an operation leaves where it takes effect. -/
def apply (u : Unicode) (now : Int) : Option Lease → LeaseOp → Option Lease
  | some lease, op => update u now lease op
  | none, create args => createSandboxLease now args
  | none, fence scope reason => some (fencedLease now scope reason)
  | none, _ => none

end LeaseOp

/-- One operation, at one reading of the clock. -/
structure LeaseEvent where
  now : Int
  op : LeaseOp
  deriving DecidableEq

/-- The row, and the operations that took effect on it. -/
structure LeaseRow where
  lease : Option Lease
  history : List LeaseOp
  deriving DecidableEq

def LeaseRow.step (u : Unicode) (row : LeaseRow) (event : LeaseEvent) : LeaseRow :=
  match LeaseOp.apply u event.now row.lease event.op with
  | some lease => ⟨some lease, row.history ++ [event.op]⟩
  | none => row

def sandboxLease (u : Unicode) : Machine LeaseRow LeaseEvent where
  start := ⟨none, []⟩
  step := LeaseRow.step u

end AiPlatform.Sandbox
