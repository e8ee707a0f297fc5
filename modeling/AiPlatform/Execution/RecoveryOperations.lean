import AiPlatform.Foundation.Transactions
import AiPlatform.Foundation.JsonText
import AiPlatform.Context.ProviderSessions

/-!
# Recovery operations

The rows in which the host keeps what is known of external effects and of the invocations bound to
them, and the service on these rows as programs of SQL statements. What the ports of the service
answer (the current authority, the frozen binding, the clock, fresh identifiers) is an argument of
each call. A transaction makes any sequence of calls.
-/
namespace AiPlatform.Execution.Recovery

open AiPlatform.Foundation AiPlatform.Kernel AiPlatform.Context

def recoveryConfirmationTimeoutSeconds : Int := 300

/-! ## Identities -/

/-- `_identity` -/
def Identity (value : String) (maximum : Nat) : Prop :=
  value ≠ "" ∧ value.length ≤ maximum ∧ ∀ c ∈ value.toList, 32 ≤ c.toNat ∧ c.toNat < 128

instance (value : String) (maximum : Nat) : Decidable (Identity value maximum) :=
  -- by the characters of the text, not by all characters
  have := List.decidableBAll (fun c : Char => 32 ≤ c.toNat ∧ c.toNat < 128) value.toList
  inferInstanceAs (Decidable (_ ∧ _ ∧ _))

structure Scope where
  tenantId : String
  workspaceId : String
  userId : String
  sessionId : String
  deriving DecidableEq

def Scope.Valid (scope : Scope) : Prop :=
  Identity scope.tenantId 128 ∧ Identity scope.workspaceId 128 ∧ Identity scope.userId 128 ∧
    Identity scope.sessionId 128

instance (scope : Scope) : Decidable scope.Valid :=
  inferInstanceAs (Decidable (_ ∧ _ ∧ _ ∧ _))

/-- A `RecoverySourceConfirmation` is the identity of a question of the host; its `invocationId` is
the key of the operation asked about. -/
inductive BindingKind where
  | nativeInvocation
  | sourceOperation
  deriving DecidableEq

structure Invocation where
  scope : Scope
  runId : String
  attemptId : String
  ownerGeneration : Int
  invocationId : String
  toolIdentity : String
  bindingKind : BindingKind
  deriving DecidableEq

namespace Invocation

def IdentityValid (inv : Invocation) : Prop :=
  inv.scope.Valid ∧ Identity inv.runId 128 ∧ Identity inv.attemptId 128 ∧
    Identity inv.invocationId 512 ∧ inv.toolIdentity ≠ "" ∧ inv.toolIdentity.length ≤ 512

instance (inv : Invocation) : Decidable inv.IdentityValid :=
  inferInstanceAs (Decidable (_ ∧ _ ∧ _ ∧ _ ∧ _ ∧ _))

def NamesOperation (inv : Invocation) : Prop :=
  "rop_".toList <+: inv.invocationId.toList ∧ inv.invocationId.length = 36

instance (inv : Invocation) : Decidable inv.NamesOperation :=
  inferInstanceAs (Decidable (_ ∧ _))

end Invocation

/-! ## Rows -/

inductive ReportedStatus where
  | completed
  | failed
  | unknown
  deriving DecidableEq

inductive VerifiedOutcome where
  | unknown
  | succeeded
  | notEffective
  deriving DecidableEq

inductive VerifiedKind where
  | authoritativeQuery
  | manualAnswer
  deriving DecidableEq

structure Operation where
  operationKey : String
  scope : Scope
  sourceRunId : String
  sourceAttemptId : String
  sourceGeneration : Int
  nativeToolUseId : String
  toolIdentity : String
  toolFacts : Json
  publicSummary : String
  reportedStatus : Option ReportedStatus
  verifiedOutcome : VerifiedOutcome
  verifiedKind : Option VerifiedKind
  verifiedReference : Option String

inductive Authorization where
  | pending
  | hold
  | retry
  | currentInvocation
  deriving DecidableEq

inductive CloseReason where
  | cancelled
  | timeout
  | denied
  | queryFailed
  deriving DecidableEq

structure Binding where
  invocation : Invocation
  operationKey : String
  frozenBindingRef : String
  publicSummary : String
  questionId : Option String
  questionExpiresAt : Option Int
  authorization : Authorization
  answerInputId : Option String
  started : Bool
  closed : Bool
  closeReason : Option CloseReason

structure BindingKey where
  tenantId : String
  runId : String
  attemptId : String
  invocationId : String
  deriving DecidableEq

/-- The unique key of an operation by the call that it records. -/
structure SourceKey where
  tenantId : String
  sourceRunId : String
  sourceAttemptId : String
  nativeToolUseId : String
  deriving DecidableEq

structure QuestionKey where
  tenantId : String
  runId : String
  attemptId : String
  questionId : String
  deriving DecidableEq

/-- The two tables by their primary keys, and the two unique indexes that statements go by. -/
inductive RowKey where
  | operation (operationKey : String)
  | source (key : SourceKey)
  | binding (key : BindingKey)
  | question (key : QuestionKey)
  deriving DecidableEq

abbrev Row : RowKey → Type
  | .operation _ => Operation
  | .source _ => String
  | .binding _ => Binding
  | .question _ => BindingKey

def Invocation.bindingKey (inv : Invocation) : BindingKey :=
  ⟨inv.scope.tenantId, inv.runId, inv.attemptId, inv.invocationId⟩

def Invocation.sourceKey (inv : Invocation) : SourceKey :=
  ⟨inv.scope.tenantId, inv.runId, inv.attemptId, inv.invocationId⟩

/-! ## Answers of the owner -/

inductive AnswerOption where
  | o0
  | o1
  | o2
  | o3
  deriving DecidableEq

def answerOption? : String → Option AnswerOption
  | "o0" => some .o0
  | "o1" => some .o1
  | "o2" => some .o2
  | "o3" => some .o3
  | _ => none

structure OwnerAnswer where
  tenantId : String
  userId : String
  runId : String
  attemptId : String
  inputId : String
  questionId : String
  answers : List (String × Json)
  source : String

/-- `answers.get("q0") if set(answers) == {"q0"} else None`, where it is one of the options. -/
def OwnerAnswer.option (answer : OwnerAnswer) : Option AnswerOption :=
  match answer.answers with
  | [("q0", .str option)] => answerOption? option
  | _ => none

/-- The statements that write, with what the service had at hand when it issued them. -/
inductive Statement where
  | indexOperation
  | recordStarted
  | recordReported
  | verify
  | insertBinding
  | attachQuestion
  | indexQuestion
  | authorizeAnswer (answer : OwnerAnswer) (now : Int)
  | markStarted
  | closeBinding

abbrev RecoveryTxn := Txn Row Statement String

/-- The checks of the constructors. -/
def Invocation.validate (inv : Invocation) : RecoveryTxn Unit := do
  Txn.ensure inv.IdentityValid "recovery_operation_identity_invalid"
  Txn.ensure (1 ≤ inv.ownerGeneration) "recovery_operation_generation_invalid"
  Txn.ensure (inv.bindingKind = .sourceOperation → inv.NamesOperation)
    "recovery_operation_identity_invalid"

/-! ## Persistence -/

namespace Persistence

/-- The row of the operation is inserted together with its entry in the unique index. -/
def insertOperation (inv : Invocation) (operationKey : String) (toolFacts : Json)
    (publicSummary : String) : RecoveryTxn Unit := do
  let inserted ← Txn.insertRow (V := Row) .recordStarted (.operation operationKey)
    { operationKey
      scope := inv.scope
      sourceRunId := inv.runId
      sourceAttemptId := inv.attemptId
      sourceGeneration := inv.ownerGeneration
      nativeToolUseId := inv.invocationId
      toolIdentity := inv.toolIdentity
      toolFacts
      publicSummary
      reportedStatus := none
      verifiedOutcome := .unknown
      verifiedKind := none
      verifiedReference := none }
  Txn.ensure inserted "UniqueViolation"

def insertOperationOnce (inv : Invocation) (operationKey : String) (toolFacts : Json)
    (publicSummary : String) : RecoveryTxn Unit := do
  let absent ← Txn.insertRow (V := Row) .indexOperation (.source inv.sourceKey) operationKey
  if absent then insertOperation inv operationKey toolFacts publicSummary else pure ()

def lockSource (inv : Invocation) : Option String → RecoveryTxn (Option Operation)
  | none => pure none
  | some operationKey =>
    Txn.lockRow (V := Row) (.operation operationKey) fun operation =>
      operation.scope = inv.scope ∧ operation.sourceRunId = inv.runId ∧
        operation.sourceAttemptId = inv.attemptId ∧ operation.nativeToolUseId = inv.invocationId

def recordStarted (inv : Invocation) (operationKey : String) (toolFacts : Json)
    (publicSummary : String) : RecoveryTxn (Option Operation) := do
  insertOperationOnce inv operationKey toolFacts publicSummary
  let source ← Txn.readRow (V := Row) (.source inv.sourceKey) fun _ => true
  lockSource inv source

def getOperation (scope : Scope) (operationKey : String) : RecoveryTxn (Option Operation) :=
  Txn.lockRow (V := Row) (.operation operationKey) fun operation => operation.scope = scope

def recordReported (scope : Scope) (operationKey : String) (status : ReportedStatus) :
    RecoveryTxn Unit := do
  let _ ← Txn.updateRow (V := Row) .recordReported (.operation operationKey)
    (fun operation => operation.scope = scope)
    fun operation => { operation with reportedStatus := some status }

/-- `row if row is not None else await self.get_operation(...)` -/
def orOperation (scope : Scope) (operationKey : String) :
    Option Operation → RecoveryTxn (Option Operation)
  | some operation => pure (some operation)
  | none => getOperation scope operationKey

def verify (scope : Scope) (operationKey : String) (outcome : VerifiedOutcome) (kind : VerifiedKind)
    (reference : String) : RecoveryTxn (Option Operation) := do
  let row ← Txn.updateRow (V := Row) .verify (.operation operationKey)
    (fun operation => operation.scope = scope ∧ operation.verifiedOutcome ≠ .succeeded)
    fun operation => { operation with
      verifiedOutcome := outcome, verifiedKind := some kind, verifiedReference := some reference }
  orOperation scope operationKey row

def insertBinding (inv : Invocation) (operationKey frozenBindingRef publicSummary : String) :
    RecoveryTxn Unit := do
  let _ ← Txn.insertRow (V := Row) .insertBinding (.binding inv.bindingKey)
    { invocation := inv
      operationKey
      frozenBindingRef
      publicSummary
      questionId := none
      questionExpiresAt := none
      authorization := .pending
      answerInputId := none
      started := false
      closed := false
      closeReason := none }

def getBinding (inv : Invocation) : RecoveryTxn (Option Binding) :=
  Txn.readRow (V := Row) (.binding inv.bindingKey) fun binding => binding.invocation = inv

def getBindingForUpdate (inv : Invocation) : RecoveryTxn (Option Binding) :=
  Txn.lockRow (V := Row) (.binding inv.bindingKey) fun binding => binding.invocation = inv

/-- A question that is attached enters the unique index. -/
def indexQuestion (inv : Invocation) (questionId : String) :
    Option Binding → RecoveryTxn Unit
  | none => pure ()
  | some _ => do
    let fresh ← Txn.insertRow (V := Row) .indexQuestion
      (.question ⟨inv.scope.tenantId, inv.runId, inv.attemptId, questionId⟩) inv.bindingKey
    Txn.ensure fresh "UniqueViolation"

def attachQuestion (inv : Invocation) (questionId : String) (expiresAt : Int) :
    RecoveryTxn Unit := do
  let attached ← Txn.updateRow (V := Row) .attachQuestion (.binding inv.bindingKey)
    (fun binding => binding.invocation = inv ∧ binding.questionId = none)
    fun binding => { binding with
      questionId := some questionId, questionExpiresAt := some expiresAt }
  indexQuestion inv questionId attached

def readAsked (answer : OwnerAnswer) : Option BindingKey → RecoveryTxn (Option Binding)
  | none => pure none
  | some key =>
    Txn.readRow (V := Row) (.binding key) fun binding =>
      binding.invocation.scope.tenantId = answer.tenantId ∧
        binding.invocation.scope.userId = answer.userId ∧ binding.invocation.runId = answer.runId ∧
        binding.invocation.attemptId = answer.attemptId ∧
        binding.questionId = some answer.questionId

def findQuestion (answer : OwnerAnswer) : RecoveryTxn (Option Binding) := do
  let key ← Txn.readRow (V := Row)
    (.question ⟨answer.tenantId, answer.runId, answer.attemptId, answer.questionId⟩) fun _ => true
  readAsked answer key

def authorizeAnswer (inv : Invocation) (answer : OwnerAnswer) (now : Int)
    (authorization : Authorization) : RecoveryTxn Unit := do
  let _ ← Txn.updateRow (V := Row) (.authorizeAnswer answer now) (.binding inv.bindingKey)
    (fun binding => binding.invocation = inv ∧ binding.authorization = .pending)
    fun binding => { binding with authorization, answerInputId := some answer.inputId }

def closeBinding (inv : Invocation) (reason : CloseReason) : RecoveryTxn Unit := do
  let _ ← Txn.updateRow (V := Row) .closeBinding (.binding inv.bindingKey)
    (fun binding => binding.invocation = inv)
    fun binding => { binding with closed := true, closeReason := some reason }

def markStarted (inv : Invocation) : RecoveryTxn Unit := do
  let _ ← Txn.updateRow (V := Row) .markStarted (.binding inv.bindingKey)
    (fun binding => binding.invocation = inv) fun binding => { binding with started := true }

end Persistence

/-! ## Permission -/

inductive Decision where
  | allow
  | deny
  | wait
  deriving DecidableEq

def operationPermission (operation : Operation) (binding : Binding) : Decision × String :=
  if operation.verifiedOutcome = .succeeded then (.deny, "operation_already_completed")
  else if binding.started then (.deny, "operation_already_started")
  else if binding.closed then (.deny, "operation_confirmation_closed")
  else if binding.authorization = .retry ∧ operation.verifiedOutcome = .notEffective then
    (.allow, "retry_not_effective")
  else if binding.authorization = .currentInvocation then (.allow, "current_invocation_authorized")
  else if binding.authorization = .hold then (.deny, "operation_confirmation_declined")
  else (.wait, "operation_confirmation_required")

/-! ## The service -/

structure Authority where
  requiresRecoveryGate : Bool
  manualConfirmationAvailable : Bool
  publicSummary : Option String
  publicSummaryReason : String

/-- The parts of the service that stay the same: how texts are made public, and the tools that have
an authoritative query. -/
structure Service where
  unicode : Unicode
  sanitizeText : String → String
  hasAuthoritativeQuery : String → Bool

/-- Characters that `json.dumps` writes for a character of a string. -/
def dumpedWidth (c : Char) : Nat :=
  if c ∈ ['"', '\\', '\n', '\r', '\t', '\x0c', '\x08'] then 2
  else if 32 ≤ c.toNat ∧ c.toNat < 127 then 1
  else if c.toNat < 0x10000 then 6
  else 12

def dumpedString (s : String) : Nat :=
  2 + (s.toList.map dumpedWidth).sum

/-- The length of `json.dumps(value)`, with a blank after every comma and colon. -/
def dumpedLength : Json.Visitor Nat where
  null := 4
  bool b := if b then 4 else 5
  int n := (Json.intText n).length
  float text := text.length
  str := dumpedString
  arr items := 2 + items.sum + 2 * (items.length - 1)
  obj members := 2 + (members.map fun m => dumpedString m.1 + 2 + m.2).sum +
    2 * (members.length - 1)

/-- The answer to a query, as far as it goes beyond the identity of the invocation. -/
structure Evidence where
  operationKey : Option String
  decision : Decision
  reasonCode : String
  verifiedOutcome : Option VerifiedOutcome
  questionId : Option String

namespace Service

variable (service : Service)

/-- `_summary` -/
def summary (text : String) : RecoveryTxn String := do
  Txn.ensure (strip service.unicode (service.sanitizeText text) ≠ "" ∧
    (service.sanitizeText text).length ≤ 1000) "recovery_operation_summary_invalid"
  pure (service.sanitizeText text)

/-- `_authority`; the port may answer with nothing. -/
def current (authority : Option Authority) : RecoveryTxn Authority :=
  Txn.require authority "recovery_operation_authority_stale"

def CanConfirm (authority : Authority) (inv : Invocation) : Prop :=
  authority.manualConfirmationAvailable ∨ service.hasAuthoritativeQuery inv.toolIdentity

instance (authority : Authority) (inv : Invocation) :
    Decidable (service.CanConfirm authority inv) :=
  inferInstanceAs (Decidable (_ ∨ _))

/-- `_locked_binding`: the operation is locked before the binding. -/
def lockedBinding (inv : Invocation) : RecoveryTxn (Operation × Binding) := do
  let first ← Persistence.getBinding inv
  let first ← Txn.require first "recovery_operation_binding_missing"
  let operation ← Persistence.getOperation inv.scope first.operationKey
  let binding ← Persistence.getBindingForUpdate inv
  let operation ← Txn.require operation "recovery_operation_binding_invalid"
  let binding ← Txn.require binding "recovery_operation_binding_invalid"
  Txn.ensure (operation.toolIdentity = inv.toolIdentity) "recovery_operation_binding_invalid"
  pure (operation, binding)

def markStartedOnce (inv : Invocation) (operation : Operation) (binding : Binding) :
    RecoveryTxn Unit :=
  if binding.started then pure ()
  else do
    Txn.ensure ((operationPermission operation binding).1 = .allow)
      "recovery_operation_not_authorized"
    Persistence.markStarted inv

def passGate (authority : Authority) (inv : Invocation) : RecoveryTxn Unit :=
  if authority.requiresRecoveryGate then do
    Txn.ensure (service.CanConfirm authority inv) authority.publicSummaryReason
    let (operation, binding) ← lockedBinding inv
    markStartedOnce inv operation binding
  else pure ()

/-- The stored facts are compared as mappings, without regard to the order of their members. -/
def recordStarted (inv : Invocation) (authority : Option Authority)
    (toolFacts : List (String × Json)) (publicSummary operationKey : String) :
    RecoveryTxn (String × VerifiedOutcome) := do
  inv.validate
  Txn.ensure (inv.bindingKind ≠ .sourceOperation) "recovery_operation_not_authorized"
  let authority ← current authority
  Txn.ensure (dumpedLength.visit (.obj toolFacts) ≤ 8192) "recovery_operation_facts_invalid"
  let summary ← service.summary publicSummary
  service.passGate authority inv
  let row ← Persistence.recordStarted inv operationKey (.obj toolFacts) summary
  let row ← Txn.require row "recovery_operation_started_conflict"
  Txn.ensure (row.sourceGeneration = inv.ownerGeneration ∧ row.toolIdentity = inv.toolIdentity ∧
    row.toolFacts.canonical = (Json.obj toolFacts).canonical ∧ row.publicSummary = summary)
    "recovery_operation_started_conflict"
  pure (row.operationKey, row.verifiedOutcome)

def reportOnce (inv : Invocation) (operationKey : String) (status : ReportedStatus) :
    Option ReportedStatus → RecoveryTxn Unit
  | some reported => Txn.ensure (reported = status) "recovery_operation_report_conflict"
  | none => Persistence.recordReported inv.scope operationKey status

/-- Without a current authority, a report counts where the tail of a cancelled run is still
authorized. -/
def recordReported (inv : Invocation) (authority : Option Authority) (tailAuthorized : Bool)
    (operationKey : String) (status : ReportedStatus) : RecoveryTxn Unit := do
  inv.validate
  Txn.ensure (authority.isSome ∨ (status ≠ .unknown ∧ tailAuthorized))
    "recovery_operation_authority_stale"
  let row ← Persistence.getOperation inv.scope operationKey
  let row ← Txn.require row "recovery_operation_report_invalid"
  Txn.ensure (row.sourceRunId = inv.runId ∧ row.sourceAttemptId = inv.attemptId ∧
    row.sourceGeneration = inv.ownerGeneration ∧ row.nativeToolUseId = inv.invocationId ∧
    row.toolIdentity = inv.toolIdentity) "recovery_operation_report_invalid"
  reportOnce inv operationKey status row.reportedStatus

/-- The port reads whether the frozen recovery of the attempt joins the invocation with the
operation. -/
def bindInvocation (inv : Invocation) (authority : Option Authority)
    (operationKey frozenBindingRef publicSummary : String) (frozenBinding : Bool) :
    RecoveryTxn Unit := do
  inv.validate
  let authority ← current authority
  Txn.ensure (authority.requiresRecoveryGate ∧ frozenBindingRef ≠ "" ∧
    frozenBindingRef.length ≤ 512) "recovery_operation_binding_invalid"
  let operation ← Persistence.getOperation inv.scope operationKey
  let operation ← Txn.require operation "recovery_operation_source_invalid"
  Txn.ensure (operation.toolIdentity = inv.toolIdentity ∧
    ¬(operation.sourceRunId = inv.runId ∧ operation.sourceAttemptId = inv.attemptId))
    "recovery_operation_source_invalid"
  Txn.ensure frozenBinding "recovery_operation_binding_unverified"
  let summary ← service.summary publicSummary
  Persistence.insertBinding inv operationKey frozenBindingRef summary
  let binding ← Persistence.getBindingForUpdate inv
  let binding ← Txn.require binding "recovery_operation_binding_conflict"
  Txn.ensure (binding.operationKey = operationKey ∧ binding.frozenBindingRef = frozenBindingRef ∧
    binding.publicSummary = summary) "recovery_operation_binding_conflict"

def refused (reason : String) : Evidence :=
  ⟨none, .deny, reason, none, none⟩

/-- The open question of a binding that waits; one is published where there is none yet. The port
that publishes it may raise, which ends the transaction. -/
def askOwner (inv : Invocation) (operation : Operation) (binding : Binding)
    (reason newQuestionId : String) (now : Int) : RecoveryTxn Evidence :=
  match binding.questionId with
  | none => do
    Persistence.attachQuestion inv newQuestionId (now + recoveryConfirmationTimeoutSeconds)
    pure ⟨some operation.operationKey, .wait, reason, none, some newQuestionId⟩
  | some questionId =>
    match binding.questionExpiresAt with
    | none => .fail "TypeError"
    | some expiresAt =>
      if expiresAt ≤ now then
        pure ⟨some operation.operationKey, .deny, "operation_confirmation_expired", none, none⟩
      else pure ⟨some operation.operationKey, .wait, reason, none, some questionId⟩

def answerQuery (inv : Invocation) (authority : Authority) (operation : Operation)
    (binding : Binding) (newQuestionId : String) (now : Int) : RecoveryTxn Evidence :=
  match operationPermission operation binding with
  | (.allow, reason) =>
    pure ⟨some operation.operationKey, .allow, reason, some operation.verifiedOutcome, none⟩
  | (.deny, reason) => pure ⟨some operation.operationKey, .deny, reason, none, none⟩
  | (.wait, reason) =>
    if authority.manualConfirmationAvailable then do
      Txn.ensure (∀ summary ∈ authority.publicSummary, binding.publicSummary = summary)
        "recovery_operation_public_object_metadata_changed"
      askOwner inv operation binding reason newQuestionId now
    else pure ⟨some operation.operationKey, .deny, authority.publicSummaryReason, none, none⟩

def query (inv : Invocation) (authority : Option Authority) (newQuestionId : String) (now : Int) :
    RecoveryTxn Evidence := do
  inv.validate
  let authority ← current authority
  if service.CanConfirm authority inv then do
    let (operation, binding) ← lockedBinding inv
    answerQuery inv authority operation binding newQuestionId now
  else pure (refused authority.publicSummaryReason)

/-- The port is asked three times in one transaction. -/
def publishSourceConfirmation (confirmation : Invocation)
    (authority atBinding atQuery : Option Authority) (frozenBindingRef : String)
    (frozenBinding : Bool) (newQuestionId : String) (now : Int) : RecoveryTxn Evidence := do
  confirmation.validate
  let authority ← current authority
  if authority.requiresRecoveryGate ∧ authority.manualConfirmationAvailable then do
    let summary ← Txn.require authority.publicSummary "recovery_operation_summary_invalid"
    service.bindInvocation confirmation atBinding confirmation.invocationId frozenBindingRef
      summary frozenBinding
    service.query confirmation atQuery newQuestionId now
  else pure (refused authority.publicSummaryReason)

/-- The stored input that an answer refers to. -/
structure StoredAnswer where
  attemptId : String
  questionId : Option String
  source : String
  kind : String
  status : String
  answers : List (String × Json)
  deriving DecidableEq

def confirmedOption : VerifiedOutcome → String
  | .succeeded => "o1"
  | _ => "o2"

def Confirms (confirmation : Invocation) (authority : Authority) (operation : Operation)
    (binding : Binding) (answer : StoredAnswer) : Prop :=
  operation.verifiedOutcome ≠ .unknown ∧ operation.verifiedKind = some .manualAnswer ∧
    binding.answerInputId.isSome ∧ operation.verifiedReference = binding.answerInputId ∧
    binding.closed = false ∧ binding.started = false ∧ binding.authorization = .hold ∧
    authority.publicSummary = some binding.publicSummary ∧
    answer = ⟨confirmation.attemptId, binding.questionId, "manual", "answer", "applied",
      [("q0", .str (confirmedOption operation.verifiedOutcome))]⟩

instance (confirmation : Invocation) (authority : Authority) (operation : Operation)
    (binding : Binding) (answer : StoredAnswer) :
    Decidable (Confirms confirmation authority operation binding answer) :=
  inferInstanceAs (Decidable (_ ∧ _ ∧ _ ∧ _ ∧ _ ∧ _ ∧ _ ∧ _ ∧ _))

def confirmedFact (confirmation : Invocation) (authority : Authority) (answer : StoredAnswer)
    (again : Option Authority) : Option Binding → RecoveryTxn (Option (String × VerifiedOutcome))
  | none => pure none
  | some _ => do
    let (operation, binding) ← lockedBinding confirmation
    if Confirms confirmation authority operation binding answer then do
      let again ← current again
      if again.manualConfirmationAvailable ∧ again.publicSummary = authority.publicSummary then
        pure (again.publicSummary.map fun summary => (summary, operation.verifiedOutcome))
      else pure none
    else pure none

/-- A fact for the next attempt: its public summary and the outcome the owner confirmed. -/
def sourceConfirmationFact (confirmation : Invocation) (authority again : Option Authority)
    (answer : StoredAnswer) : RecoveryTxn (Option (String × VerifiedOutcome)) := do
  confirmation.validate
  let authority ← current authority
  if authority.manualConfirmationAvailable then do
    let binding ← Persistence.getBinding confirmation
    confirmedFact confirmation authority answer again binding
  else pure none

def closeInvocation (inv : Invocation) (reason : CloseReason) : RecoveryTxn Unit := do
  inv.validate
  let _ ← lockedBinding inv
  Persistence.closeBinding inv reason

/-- What the options `o1` and `o2` say of the operation is verified. -/
def settleOption (scope : Scope) (operation : Operation) (inputId : String) :
    AnswerOption → RecoveryTxn (Option Operation)
  | .o1 => Persistence.verify scope operation.operationKey .succeeded .manualAnswer inputId
  | .o2 => Persistence.verify scope operation.operationKey .notEffective .manualAnswer inputId
  | .o0 | .o3 => pure (some operation)

def optionAuthorization : AnswerOption → Authorization
  | .o0 => .hold
  | .o1 => .hold
  | .o2 => .retry
  | .o3 => .currentInvocation

def answerAuthorization (inv : Invocation) (operation : Operation) (option : AnswerOption) :
    Authorization :=
  if operation.verifiedOutcome = .succeeded ∨ inv.bindingKind = .sourceOperation then .hold
  else optionAuthorization option

def acceptAnswer (inv : Invocation) (operation : Operation) (answer : OwnerAnswer) (now : Int) :
    RecoveryTxn Unit := do
  let option ← Txn.require answer.option "recovery_operation_explicit_answer_required"
  Txn.ensure (inv.bindingKind = .sourceOperation → option ≠ .o3)
    "recovery_operation_explicit_answer_required"
  let operation ← settleOption inv.scope operation answer.inputId option
  let operation ← Txn.require operation "TypeError"
  Persistence.authorizeAnswer inv answer now (answerAuthorization inv operation option)

/-- An answer that is already there is not given again. -/
def answerOnce (inv : Invocation) (operation : Operation) (binding : Binding)
    (answer : OwnerAnswer) (now : Int) : RecoveryTxn Unit :=
  match binding.answerInputId with
  | some inputId => Txn.ensure (inputId = answer.inputId) "recovery_operation_answer_conflict"
  | none => acceptAnswer inv operation answer now

def answerAsked (answer : OwnerAnswer) (authority : Option Authority) (now : Int) :
    Option Binding → RecoveryTxn Unit
  | none => pure ()
  | some asked => do
    let inv := { asked.invocation with runId := answer.runId, attemptId := answer.attemptId }
    inv.validate
    let authority ← current authority
    Txn.ensure authority.manualConfirmationAvailable authority.publicSummaryReason
    let (operation, binding) ← lockedBinding inv
    Txn.ensure (∀ summary ∈ authority.publicSummary, binding.publicSummary = summary)
      "recovery_operation_public_object_metadata_changed"
    Txn.ensure (binding.questionId = some answer.questionId) "recovery_operation_question_closed"
    let expiresAt ← Txn.require binding.questionExpiresAt "TypeError"
    Txn.ensure (now < expiresAt ∧ binding.started = false ∧ binding.closed = false)
      "recovery_operation_question_closed"
    answerOnce inv operation binding answer now

def onManualAnswer (answer : OwnerAnswer) (authority : Option Authority) (now : Int) :
    RecoveryTxn Unit :=
  if answer.source = "manual" then do
    let asked ← Persistence.findQuestion answer
    answerAsked answer authority now asked
  else pure ()

structure AuthoritativeOperationStatus where
  outcome : VerifiedOutcome
  reference : String
  conclusive : Bool

/-- The second transaction of `probe_authority`; the first one is a `getOperation`. -/
def probeAuthority (scope : Scope) (operationKey : String)
    (status : AuthoritativeOperationStatus) : RecoveryTxn Bool :=
  if status.conclusive ∧ status.outcome ≠ .unknown then do
    Txn.ensure (status.reference ≠ "" ∧ status.reference.length ≤ 512)
      "recovery_operation_authority_reference_invalid"
    let _ ← Persistence.getOperation scope operationKey
    let _ ← Persistence.verify scope operationKey status.outcome .authoritativeQuery
      status.reference
    pure true
  else pure false

end Service

/-! ## Transactions -/

inductive ServiceCall where
  | recordStarted (inv : Invocation) (authority : Option Authority)
      (toolFacts : List (String × Json)) (publicSummary operationKey : String)
  | recordReported (inv : Invocation) (authority : Option Authority) (tailAuthorized : Bool)
      (operationKey : String) (status : ReportedStatus)
  | bindInvocation (inv : Invocation) (authority : Option Authority)
      (operationKey frozenBindingRef publicSummary : String) (frozenBinding : Bool)
  | query (inv : Invocation) (authority : Option Authority) (newQuestionId : String) (now : Int)
  | publishSourceConfirmation (confirmation : Invocation)
      (authority atBinding atQuery : Option Authority) (frozenBindingRef : String)
      (frozenBinding : Bool) (newQuestionId : String) (now : Int)
  | sourceConfirmationFact (confirmation : Invocation) (authority again : Option Authority)
      (answer : Service.StoredAnswer)
  | closeInvocation (inv : Invocation) (reason : CloseReason)
  | onManualAnswer (answer : OwnerAnswer) (authority : Option Authority) (now : Int)
  | getOperation (scope : Scope) (operationKey : String)
  | probeAuthority (scope : Scope) (operationKey : String)
      (status : Service.AuthoritativeOperationStatus)

def ServiceCall.program (service : Service) : ServiceCall → RecoveryTxn Unit
  | .recordStarted inv authority toolFacts publicSummary operationKey => do
    let _ ← service.recordStarted inv authority toolFacts publicSummary operationKey
  | .recordReported inv authority tailAuthorized operationKey status =>
    Service.recordReported inv authority tailAuthorized operationKey status
  | .bindInvocation inv authority operationKey frozenBindingRef publicSummary frozenBinding =>
    service.bindInvocation inv authority operationKey frozenBindingRef publicSummary frozenBinding
  | .query inv authority newQuestionId now => do
    let _ ← service.query inv authority newQuestionId now
  | .publishSourceConfirmation confirmation authority atBinding atQuery frozenBindingRef
      frozenBinding newQuestionId now => do
    let _ ← service.publishSourceConfirmation confirmation authority atBinding atQuery
      frozenBindingRef frozenBinding newQuestionId now
  | .sourceConfirmationFact confirmation authority again answer => do
    let _ ← Service.sourceConfirmationFact confirmation authority again answer
  | .closeInvocation inv reason => Service.closeInvocation inv reason
  | .onManualAnswer answer authority now => Service.onManualAnswer answer authority now
  | .getOperation scope operationKey => do
    let _ ← Persistence.getOperation scope operationKey
  | .probeAuthority scope operationKey status => do
    let _ ← Service.probeAuthority scope operationKey status

def recoveryTransaction (service : Service) : List ServiceCall → RecoveryTxn Unit
  | [] => pure ()
  | call :: calls => do
    call.program service
    recoveryTransaction service calls

/-- Transactions of recovery calls over tables that are empty at first. -/
def recoveryOperations (service : Service) :
    Machine (Database Row Statement String Unit) (TxnLabel (List ServiceCall)) :=
  transactions (recoveryTransaction service) fun _ => none

end AiPlatform.Execution.Recovery
