import AiPlatform.Execution.RecoveryOperations

/-!
# Bound invocations start on an answer only

Which writes the calls of the recovery service make, each with what its transaction had locked at
that point; and from them, along the journal of any interleaving, that a bound invocation starts at
most once, on an explicit answer of the owner, and never after its operation is known to have
succeeded.
-/
namespace AiPlatform.Execution.Recovery

open AiPlatform.Foundation List

/-! ## What each statement writes -/

def Authorization.Grants (authorization : Authorization) : Prop :=
  authorization = .retry ∨ authorization = .currentInvocation

/-- An explicit answer of the owner to the open question of the binding. -/
structure GrantedBy (answer : OwnerAnswer) (now : Int) (binding : Binding) : Prop where
  manual : answer.source = "manual"
  option : answer.option = some .o2 ∨ answer.option = some .o3
  owner : binding.invocation.scope.tenantId = answer.tenantId ∧
    binding.invocation.scope.userId = answer.userId ∧ binding.invocation.runId = answer.runId ∧
    binding.invocation.attemptId = answer.attemptId
  question : binding.questionId = some answer.questionId
  unexpired : ∃ expiresAt, binding.questionExpiresAt = some expiresAt ∧ now < expiresAt
  unclosed : binding.closed = false

/-- The writes of a binding, from the rows that the transaction holds. -/
inductive BindingWrite (view : RowView Row) (key : BindingKey) : Statement → Binding → Prop where
  | inserted {after : Binding} (absent : view (.binding key) = some none)
      (started : after.started = false) (closed : after.closed = false)
      (pending : after.authorization = .pending) : BindingWrite view key .insertBinding after
  | asked {binding : Binding} (before : view (.binding key) = some (some binding))
      (questionId expiresAt) :
      BindingWrite view key .attachQuestion
        { binding with questionId, questionExpiresAt := expiresAt }
  | answered {binding : Binding} {answer : OwnerAnswer} {now : Int} {authorization : Authorization}
      (before : view (.binding key) = some (some binding))
      (pending : binding.authorization = .pending)
      (granted : authorization.Grants → GrantedBy answer now binding) (answerInputId) :
      BindingWrite view key (.authorizeAnswer answer now)
        { binding with authorization, answerInputId }
  | started {binding : Binding} {operation : Operation}
      (before : view (.binding key) = some (some binding))
      (source : view (.operation binding.operationKey) = some (some operation))
      (permitted : (operationPermission operation binding).1 = .allow) :
      BindingWrite view key .markStarted { binding with started := true }
  | closed {binding : Binding} (before : view (.binding key) = some (some binding)) (closeReason) :
      BindingWrite view key .closeBinding { binding with closed := true, closeReason }

def Allowed : RowWrite Row Statement → Prop
  | ⟨_, .operation key, after, view⟩ =>
    ∀ before : Operation, view (.operation key) = some (some before) →
      before.verifiedOutcome = .succeeded → Operation.verifiedOutcome after = .succeeded
  | ⟨tag, .binding key, after, view⟩ => BindingWrite view key tag after
  | ⟨_, .source _, _, _⟩ => True
  | ⟨_, .question _, _, _⟩ => True

/-- The operation of a binding is the same for good. -/
def boundOperation : ∀ k, Row k → String
  | .binding _, binding => Binding.operationKey binding
  | .operation _, _ => ""
  | .source _, _ => ""
  | .question _, _ => ""

theorem keeps_of_allowed (w : RowWrite Row Statement) (h : Allowed w) : Keeps boundOperation w := by
  obtain ⟨tag, key, after, view⟩ := w
  cases key with
  | operation key => exact fun _ _ => rfl
  | source key => exact fun _ _ => rfl
  | question key => exact fun _ _ => rfl
  | binding key =>
    intro row hrow
    cases h with
    | inserted absent => simp [absent] at hrow
    | asked before => simp_all [boundOperation]
    | answered before => simp_all [boundOperation]
    | started before => simp_all [boundOperation]
    | closed before => simp_all [boundOperation]

/-! ## The calls make no other writes -/

/-- Whatever it knows at first, the program makes only writes that are allowed. -/
structure Guarded {α : Type} (program : RecoveryTxn α) : Prop where
  wp : ∀ known, program.wp boundOperation Allowed (fun _ _ => True) known

section Guarded

variable {α β : Type}

theorem Guarded.bind {p : RecoveryTxn α} {f : α → RecoveryTxn β} (hp : Guarded p)
    (hf : ∀ a, Guarded (f a)) : Guarded (p >>= f) :=
  ⟨fun known => (Txn.wp_bind p f).mpr
    (Txn.wp_mono (hp.wp known) fun known a _ => (hf a).wp known)⟩

theorem guarded_pure (a : α) : Guarded (pure a) :=
  ⟨fun _ => trivial⟩

theorem guarded_fail (e : String) : Guarded (.fail e : RecoveryTxn α) :=
  ⟨fun _ => trivial⟩

theorem guarded_ensure (c : Prop) [Decidable c] (e : String) : Guarded (Txn.ensure c e) :=
  ⟨fun _ => (Txn.wp_ensure c e).mpr fun _ => trivial⟩

theorem guarded_require (value : Option α) (e : String) : Guarded (Txn.require value e) :=
  ⟨fun _ => (Txn.wp_require value e).mpr fun _ _ => trivial⟩

theorem guarded_readRow (k : RowKey) (p : Row k → Bool) : Guarded (Txn.readRow k p) :=
  ⟨fun _ _ _ => trivial⟩

theorem guarded_lockRow (k : RowKey) (p : Row k → Bool) : Guarded (Txn.lockRow k p) :=
  ⟨fun _ => ⟨fun _ => trivial, fun _ _ => trivial⟩⟩

end Guarded

theorem guarded_validate (inv : Invocation) : Guarded inv.validate :=
  (guarded_ensure ..).bind fun _ => (guarded_ensure ..).bind fun _ => guarded_ensure ..

namespace Persistence

theorem guarded_insertOperation (inv : Invocation) (operationKey : String) (toolFacts : Json)
    (publicSummary : String) :
    Guarded (insertOperation inv operationKey toolFacts publicSummary) := by
  refine Guarded.bind ⟨fun known => ⟨trivial, fun _ => ⟨?_, trivial⟩⟩⟩ fun _ => guarded_ensure ..
  intro before hbefore
  simp at hbefore

theorem guarded_insertOperationOnce (inv : Invocation) (operationKey : String) (toolFacts : Json)
    (publicSummary : String) :
    Guarded (insertOperationOnce inv operationKey toolFacts publicSummary) := by
  refine Guarded.bind ⟨fun known => ⟨trivial, fun _ => ⟨trivial, trivial⟩⟩⟩ fun absent => ?_
  cases absent with
  | true => exact guarded_insertOperation inv operationKey toolFacts publicSummary
  | false => exact guarded_pure ()

theorem guarded_lockSource (inv : Invocation) (source : Option String) :
    Guarded (lockSource inv source) := by
  cases source with
  | none => exact guarded_pure none
  | some operationKey => exact guarded_lockRow ..

theorem guarded_recordStarted (inv : Invocation) (operationKey : String) (toolFacts : Json)
    (publicSummary : String) : Guarded (recordStarted inv operationKey toolFacts publicSummary) :=
  (guarded_insertOperationOnce ..).bind fun _ =>
    (guarded_readRow ..).bind fun source => guarded_lockSource inv source

theorem guarded_getOperation (scope : Scope) (operationKey : String) :
    Guarded (getOperation scope operationKey) :=
  guarded_lockRow ..

theorem guarded_recordReported (scope : Scope) (operationKey : String) (status : ReportedStatus) :
    Guarded (recordReported scope operationKey status) := by
  refine Guarded.bind ⟨fun known => ⟨fun _ => trivial, fun row _ => ⟨?_, trivial⟩⟩⟩
    fun _ => guarded_pure ()
  intro before hbefore hsucceeded
  simp only [RowView.hold_self, Option.some_inj] at hbefore
  exact hbefore ▸ hsucceeded

theorem hold_operation_binding (view : RowView Row) (operationKey : String)
    (row : Option Operation) (key : BindingKey) :
    view.hold (.operation operationKey) row (.binding key) = view (.binding key) := by
  have hne : RowKey.binding key ≠ .operation operationKey := by simp
  exact RowView.hold_of_ne hne row

/-- An operation known to have succeeded is not verified again, and bindings are left alone. -/
theorem verify_wp (scope : Scope) (operationKey : String) (outcome : VerifiedOutcome)
    (kind : VerifiedKind) (reference : String) (key : BindingKey) (known : Known Row String) :
    (verify scope operationKey outcome kind reference).wp boundOperation Allowed
      (fun later _ => later.view (.binding key) = known.view (.binding key)) known := by
  refine ⟨fun _ => ⟨fun _ => rfl, fun row _ => ?_⟩, fun row hrow => ⟨?_, ?_⟩⟩
  · exact hold_operation_binding known.view operationKey (some row) key
  · intro before hbefore hsucceeded
    simp only [RowView.hold_self, Option.some_inj] at hbefore
    have hnot := (hrow.2 row rfl).1
    simp [hbefore, hsucceeded] at hnot
  · exact hold_operation_binding known.view operationKey (some { row with
      verifiedOutcome := outcome, verifiedKind := some kind
      verifiedReference := some reference }) key

theorem guarded_verify (scope : Scope) (operationKey : String) (outcome : VerifiedOutcome)
    (kind : VerifiedKind) (reference : String) :
    Guarded (verify scope operationKey outcome kind reference) :=
  ⟨fun known => Txn.wp_mono (verify_wp scope operationKey outcome kind reference ⟨"", "", "", ""⟩
    known) fun _ _ _ => trivial⟩

theorem guarded_insertBinding (inv : Invocation)
    (operationKey frozenBindingRef publicSummary : String) :
    Guarded (insertBinding inv operationKey frozenBindingRef publicSummary) := by
  refine Guarded.bind ⟨fun known => ⟨trivial, fun _ => ⟨?_, trivial⟩⟩⟩ fun _ => guarded_pure ()
  exact .inserted (RowView.hold_self ..) rfl rfl rfl

theorem guarded_attachQuestion (inv : Invocation) (questionId : String) (expiresAt : Int) :
    Guarded (attachQuestion inv questionId expiresAt) := by
  refine Guarded.bind ⟨fun known => ⟨fun _ => trivial, fun row _ => ⟨?_, trivial⟩⟩⟩
    fun attached => ?_
  · exact .asked (RowView.hold_self ..) _ _
  · cases attached with
    | none => exact guarded_pure ()
    | some _ =>
      exact Guarded.bind ⟨fun known => ⟨trivial, fun _ => ⟨trivial, trivial⟩⟩⟩
        fun fresh => guarded_ensure ..

theorem guarded_closeBinding (inv : Invocation) (reason : CloseReason) :
    Guarded (closeBinding inv reason) := by
  refine Guarded.bind ⟨fun known => ⟨fun _ => trivial, fun row _ => ⟨?_, trivial⟩⟩⟩
    fun _ => guarded_pure ()
  exact .closed (RowView.hold_self ..) _

theorem guarded_getBindingForUpdate (inv : Invocation) :
    Guarded (getBindingForUpdate inv) :=
  guarded_lockRow ..

end Persistence

namespace Service

variable (service : Service)

theorem guarded_summary (text : String) : Guarded (service.summary text) :=
  (guarded_ensure ..).bind fun _ => guarded_pure _

theorem guarded_current (authority : Option Authority) : Guarded (current authority) :=
  guarded_require ..

/-- Both rows are held, the binding under its own key and the operation that it is bound to. -/
def Locked (inv : Invocation) (known : Known Row String) (pair : Operation × Binding) : Prop :=
  known.view (.operation pair.2.operationKey) = some (some pair.1) ∧
    known.view (.binding inv.bindingKey) = some (some pair.2) ∧ pair.2.invocation = inv

/-- The binding read first may have changed before it is locked, but not the operation it is bound
to. -/
theorem lockedBinding_locked (inv : Invocation) (known : Known Row String) :
    (lockedBinding inv).wp boundOperation Allowed (Locked inv) known := by
  simp only [lockedBinding, Persistence.getBinding, Persistence.getOperation,
    Persistence.getBindingForUpdate, Txn.wp_bind, Txn.wp_require, Txn.wp_ensure,
    Txn.wp_pure]
  rintro _ hfirst first rfl
  refine ⟨fun _ => ⟨fun _ => by simp, fun binding _ => by simp⟩, fun operation _ => ?_⟩
  refine ⟨fun _ => by simp, ?_⟩
  rintro binding hbinding _ ⟨⟩ _ ⟨⟩ _
  obtain ⟨hinv, hseen⟩ := hbinding.2 binding rfl
  have hkey : binding.operationKey = first.operationKey :=
    hseen first.operationKey (Known.see_some known boundOperation (.binding inv.bindingKey) first)
  refine ⟨?_, RowView.hold_self .., of_decide_eq_true hinv⟩
  rw [Known.hold_view, RowView.hold_of_ne (by simp), hkey]
  exact RowView.hold_self ..

theorem guarded_lockedBinding_bind {α : Type} (inv : Invocation)
    {f : Operation × Binding → RecoveryTxn α}
    (hf : ∀ known pair, Locked inv known pair →
      (f pair).wp boundOperation Allowed (fun _ _ => True) known) :
    Guarded (lockedBinding inv >>= f) :=
  ⟨fun known => (Txn.wp_bind _ f).mpr
    (Txn.wp_mono (lockedBinding_locked inv known) fun known pair => hf known pair)⟩

variable {operation : Operation} {inv : Invocation}

theorem markStartedOnce_wp {known : Known Row String} {binding : Binding}
    (h : Locked inv known (operation, binding)) :
    (markStartedOnce inv operation binding).wp boundOperation Allowed (fun _ _ => True) known := by
  obtain ⟨hoperation, hbinding, -⟩ := h
  unfold markStartedOnce
  split_ifs with hstarted
  · trivial
  · simp only [Persistence.markStarted, Txn.wp_bind, Txn.wp_ensure, Txn.wp_updateRow, Txn.wp_pure]
    intro hpermitted
    refine ⟨fun _ => trivial, fun row hrow => ⟨?_, trivial⟩⟩
    obtain rfl := hrow.eq_of_held hbinding
    refine .started (RowView.hold_self ..) ?_ hpermitted
    rw [RowView.hold_of_ne (by simp)]
    exact hoperation

theorem guarded_passGate (authority : Authority) (inv : Invocation) :
    Guarded (service.passGate authority inv) := by
  unfold passGate
  split_ifs
  · exact (guarded_ensure ..).bind fun _ =>
      guarded_lockedBinding_bind inv fun _ _ h => markStartedOnce_wp h
  · exact guarded_pure ()

theorem guarded_recordStarted (inv : Invocation) (authority : Option Authority)
    (toolFacts : List (String × Json)) (publicSummary operationKey : String) :
    Guarded (service.recordStarted inv authority toolFacts publicSummary operationKey) := by
  refine (guarded_validate inv).bind fun _ => (guarded_ensure ..).bind fun _ => ?_
  refine (guarded_current authority).bind fun authority => (guarded_ensure ..).bind fun _ => ?_
  refine (service.guarded_summary _).bind fun summary => ?_
  refine (service.guarded_passGate authority inv).bind fun _ => ?_
  refine (Persistence.guarded_recordStarted ..).bind fun row =>
    (guarded_require ..).bind fun row => ?_
  exact (guarded_ensure ..).bind fun _ => guarded_pure _

theorem guarded_recordReported (inv : Invocation) (authority : Option Authority)
    (tailAuthorized : Bool) (operationKey : String) (status : ReportedStatus) :
    Guarded (recordReported inv authority tailAuthorized operationKey status) := by
  refine (guarded_validate inv).bind fun _ => (guarded_ensure ..).bind fun _ => ?_
  refine (Persistence.guarded_getOperation ..).bind fun row =>
    (guarded_require ..).bind fun row => ?_
  refine (guarded_ensure ..).bind fun _ => ?_
  unfold reportOnce
  cases row.reportedStatus with
  | some reported => exact guarded_ensure ..
  | none => exact Persistence.guarded_recordReported ..

theorem guarded_bindInvocation (inv : Invocation) (authority : Option Authority)
    (operationKey frozenBindingRef publicSummary : String) (frozenBinding : Bool) :
    Guarded (service.bindInvocation inv authority operationKey frozenBindingRef publicSummary
      frozenBinding) := by
  refine (guarded_validate inv).bind fun _ => (guarded_current authority).bind fun _ => ?_
  refine (guarded_ensure ..).bind fun _ => (Persistence.guarded_getOperation ..).bind fun _ => ?_
  refine (guarded_require ..).bind fun _ => (guarded_ensure ..).bind fun _ => ?_
  refine (guarded_ensure ..).bind fun _ => (service.guarded_summary _).bind fun summary => ?_
  refine (Persistence.guarded_insertBinding ..).bind fun _ => ?_
  refine (Persistence.guarded_getBindingForUpdate inv).bind fun _ => ?_
  exact (guarded_require ..).bind fun _ => guarded_ensure ..

theorem guarded_askOwner (inv : Invocation) (operation : Operation) (binding : Binding)
    (reason newQuestionId : String) (now : Int) :
    Guarded (askOwner inv operation binding reason newQuestionId now) := by
  unfold askOwner
  split
  · exact (Persistence.guarded_attachQuestion ..).bind fun _ => guarded_pure _
  · split
    · exact guarded_fail _
    · split_ifs <;> exact guarded_pure _

theorem guarded_answerQuery (inv : Invocation) (authority : Authority) (operation : Operation)
    (binding : Binding) (newQuestionId : String) (now : Int) :
    Guarded (answerQuery inv authority operation binding newQuestionId now) := by
  unfold answerQuery
  split
  · exact guarded_pure _
  · exact guarded_pure _
  · split_ifs
    · exact (guarded_ensure ..).bind fun _ => guarded_askOwner ..
    · exact guarded_pure _

theorem guarded_query (inv : Invocation) (authority : Option Authority) (newQuestionId : String)
    (now : Int) : Guarded (service.query inv authority newQuestionId now) := by
  refine (guarded_validate inv).bind fun _ => (guarded_current authority).bind fun authority => ?_
  split_ifs
  · exact guarded_lockedBinding_bind inv fun known _ _ => (guarded_answerQuery ..).wp known
  · exact guarded_pure _

theorem guarded_publishSourceConfirmation (confirmation : Invocation)
    (authority atBinding atQuery : Option Authority) (frozenBindingRef : String)
    (frozenBinding : Bool) (newQuestionId : String) (now : Int) :
    Guarded (service.publishSourceConfirmation confirmation authority atBinding atQuery
      frozenBindingRef frozenBinding newQuestionId now) := by
  refine (guarded_validate confirmation).bind fun _ => ?_
  refine (guarded_current authority).bind fun authority => ?_
  split_ifs
  · refine (guarded_require ..).bind fun _ => ?_
    exact (service.guarded_bindInvocation ..).bind fun _ => service.guarded_query ..
  · exact guarded_pure _

theorem guarded_confirmedFact (confirmation : Invocation) (authority : Authority)
    (answer : StoredAnswer) (again : Option Authority) (binding : Option Binding) :
    Guarded (confirmedFact confirmation authority answer again binding) := by
  cases binding with
  | none => exact guarded_pure none
  | some _ =>
    refine guarded_lockedBinding_bind confirmation fun known pair _ => Guarded.wp ?_ known
    dsimp only
    split_ifs
    · refine (guarded_current again).bind fun again => ?_
      split_ifs <;> exact guarded_pure _
    · exact guarded_pure none

theorem guarded_sourceConfirmationFact (confirmation : Invocation)
    (authority again : Option Authority) (answer : StoredAnswer) :
    Guarded (sourceConfirmationFact confirmation authority again answer) := by
  refine (guarded_validate confirmation).bind fun _ => ?_
  refine (guarded_current authority).bind fun authority => ?_
  split_ifs
  · exact Guarded.bind (guarded_readRow ..) fun binding => guarded_confirmedFact ..
  · exact guarded_pure none

theorem guarded_closeInvocation (inv : Invocation) (reason : CloseReason) :
    Guarded (closeInvocation inv reason) := by
  refine (guarded_validate inv).bind fun _ => ?_
  exact guarded_lockedBinding_bind inv fun known _ _ =>
    (Persistence.guarded_closeBinding ..).wp known

/-- Verifying what the owner says of the operation leaves the bindings as they are. -/
theorem settleOption_wp (scope : Scope) (operation : Operation) (inputId : String)
    (option : AnswerOption) (key : BindingKey) (known : Known Row String) :
    (settleOption scope operation inputId option).wp boundOperation Allowed
      (fun later _ => later.view (.binding key) = known.view (.binding key)) known := by
  cases option with
  | o0 => exact rfl
  | o1 => exact Persistence.verify_wp ..
  | o2 => exact Persistence.verify_wp ..
  | o3 => exact rfl

theorem option_of_grants {option : AnswerOption}
    (h : (answerAuthorization inv operation option).Grants) : option = .o2 ∨ option = .o3 := by
  unfold answerAuthorization at h
  split_ifs at h
  · simp [Authorization.Grants] at h
  · cases option <;> simp_all [optionAuthorization, Authorization.Grants]

/-- Everything `GrantedBy` asks for but the option is checked before an answer is accepted. -/
theorem acceptAnswer_wp {binding : Binding} {answer : OwnerAnswer} {now : Int}
    {known : Known Row String}
    (hbinding : known.view (.binding inv.bindingKey) = some (some binding))
    (hopen : (answer.option = some .o2 ∨ answer.option = some .o3) → GrantedBy answer now binding) :
    (acceptAnswer inv operation answer now).wp boundOperation Allowed (fun _ _ => True) known := by
  simp only [acceptAnswer, Txn.wp_bind, Txn.wp_require, Txn.wp_ensure]
  intro option hoption _
  refine Txn.wp_mono
    (settleOption_wp inv.scope operation answer.inputId option inv.bindingKey known)
    fun later settled hlater => ?_
  intro operation hoperation
  refine ⟨fun _ => trivial, fun row hrow => ⟨?_, trivial⟩⟩
  obtain rfl := hrow.eq_of_held (hlater.trans hbinding)
  have hpending := (hrow.2 row rfl).1
  simp only [Bool.decide_and, Bool.and_eq_true, decide_eq_true_eq] at hpending
  refine .answered (RowView.hold_self ..) hpending.2 (fun hgrants => ?_) _
  refine hopen ?_
  rcases option_of_grants hgrants with rfl | rfl
  · exact .inl hoption
  · exact .inr hoption

theorem guarded_answerAsked {answer : OwnerAnswer} (hmanual : answer.source = "manual")
    (authority : Option Authority) (now : Int) {asked : Option Binding}
    (hasked : ∀ binding ∈ asked, binding.invocation.scope.tenantId = answer.tenantId ∧
      binding.invocation.scope.userId = answer.userId) :
    Guarded (answerAsked answer authority now asked) := by
  cases asked with
  | none => exact guarded_pure ()
  | some asked =>
    refine (guarded_validate _).bind fun _ => (guarded_current authority).bind fun authority => ?_
    refine (guarded_ensure ..).bind fun _ => ?_
    refine guarded_lockedBinding_bind _ fun known pair hlocked => ?_
    obtain ⟨-, hbinding, hinv⟩ := hlocked
    simp only [Txn.wp_bind, Txn.wp_ensure, Txn.wp_require]
    intro _ hquestion expiresAt hexpires hopen
    unfold answerOnce
    cases pair.2.answerInputId with
    | some inputId => exact (guarded_ensure ..).wp known
    | none =>
      refine acceptAnswer_wp hbinding fun hoption => ?_
      obtain ⟨htenant, huser⟩ := hasked asked rfl
      exact ⟨hmanual, hoption, by rw [hinv]; exact ⟨htenant, huser, rfl, rfl⟩, hquestion,
        ⟨expiresAt, hexpires, hopen.1⟩, hopen.2.2⟩

theorem guarded_onManualAnswer (answer : OwnerAnswer) (authority : Option Authority) (now : Int) :
    Guarded (onManualAnswer answer authority now) := by
  unfold onManualAnswer
  split_ifs with hmanual
  · refine ⟨fun known => (Txn.wp_bind ..).mpr ((Txn.wp_bind ..).mpr fun key _ => ?_)⟩
    cases key with
    | none => exact (guarded_answerAsked hmanual authority now (by simp)).wp _
    | some key =>
      intro asked hasked
      refine (guarded_answerAsked hmanual authority now fun binding hbinding => ?_).wp _
      have hfields := (hasked.2 binding hbinding).1
      simp only [Bool.decide_and, Bool.and_eq_true, decide_eq_true_eq] at hfields
      exact ⟨hfields.1, hfields.2.1⟩
  · exact guarded_pure ()

theorem guarded_probeAuthority (scope : Scope) (operationKey : String)
    (status : AuthoritativeOperationStatus) :
    Guarded (probeAuthority scope operationKey status) := by
  unfold probeAuthority
  split_ifs
  · refine (guarded_ensure ..).bind fun _ => (Persistence.guarded_getOperation ..).bind fun _ => ?_
    exact (Persistence.guarded_verify ..).bind fun _ => guarded_pure true
  · exact guarded_pure false

end Service

theorem ServiceCall.guarded (service : Service) (call : ServiceCall) :
    Guarded (call.program service) := by
  cases call with
  | recordStarted => exact (service.guarded_recordStarted ..).bind fun _ => guarded_pure ()
  | recordReported => exact Service.guarded_recordReported ..
  | bindInvocation => exact service.guarded_bindInvocation ..
  | query => exact (service.guarded_query ..).bind fun _ => guarded_pure ()
  | publishSourceConfirmation =>
    exact (service.guarded_publishSourceConfirmation ..).bind fun _ => guarded_pure ()
  | sourceConfirmationFact =>
    exact (Service.guarded_sourceConfirmationFact ..).bind fun _ => guarded_pure ()
  | closeInvocation => exact Service.guarded_closeInvocation ..
  | onManualAnswer => exact Service.guarded_onManualAnswer ..
  | getOperation => exact (Persistence.guarded_getOperation ..).bind fun _ => guarded_pure ()
  | probeAuthority => exact (Service.guarded_probeAuthority ..).bind fun _ => guarded_pure ()

theorem guarded_recoveryTransaction (service : Service) (calls : List ServiceCall) :
    Guarded (recoveryTransaction service calls) := by
  induction calls with
  | nil => exact guarded_pure ()
  | cons call calls ih => exact (call.guarded service).bind fun _ => ih

/-! ## Along the journal -/

def Starts (w : RowWrite Row Statement) (key : BindingKey) : Prop :=
  ∃ after view, w = ⟨.markStarted, .binding key, after, view⟩

def Closes (w : RowWrite Row Statement) (key : BindingKey) : Prop :=
  ∃ after view, w = ⟨.closeBinding, .binding key, after, view⟩

/-- The answer of the owner that lets the binding start. -/
def GrantsStart (w : RowWrite Row Statement) (key : BindingKey) : Prop :=
  ∃ answer now view, ∃ before after : Binding,
    w = ⟨.authorizeAnswer answer now, .binding key, after, view⟩ ∧
      view (.binding key) = some (some before) ∧ GrantedBy answer now before ∧
      after.authorization.Grants

/-- The rows after the writes, from empty tables. -/
def rowsAfter (ws : List (RowWrite Row Statement)) : RowStore Row :=
  replay (fun _ => none) ws

/-- What the row of a binding says of the writes that led to it. -/
structure History (ws : List (RowWrite Row Statement)) (key : BindingKey)
    (row : Option Binding) : Prop where
  unstarted : (∀ binding ∈ row, binding.started = false) → ∀ w ∈ ws, ¬Starts w key
  started : ∀ binding ∈ row, binding.started = true → ∃ w ∈ ws, Starts w key
  unclosed : (∀ binding ∈ row, binding.closed = false) → ∀ w ∈ ws, ¬Closes w key
  granted : ∀ binding ∈ row, binding.authorization.Grants → ∃ w ∈ ws, GrantsStart w key

theorem operationPermission_allow {operation : Operation} {binding : Binding}
    (h : (operationPermission operation binding).1 = .allow) :
    operation.verifiedOutcome ≠ .succeeded ∧ binding.started = false ∧ binding.closed = false ∧
      binding.authorization.Grants := by
  unfold operationPermission at h
  split_ifs at h <;> simp_all [Authorization.Grants]

namespace History

variable {ws : List (RowWrite Row Statement)} {key : BindingKey} {w : RowWrite Row Statement}

variable {row : Option Binding}

/-- One more write, told by what it does to the row. -/
theorem concat {row' : Option Binding} (h : History ws key row)
    (hunstarted : (∀ b ∈ row', b.started = false) → ¬Starts w key ∧ ∀ b ∈ row, b.started = false)
    (hstarted : ∀ b ∈ row', b.started = true → Starts w key ∨ ∃ b ∈ row, b.started = true)
    (hunclosed : (∀ b ∈ row', b.closed = false) → ¬Closes w key ∧ ∀ b ∈ row, b.closed = false)
    (hgranted : ∀ b ∈ row', b.authorization.Grants →
      GrantsStart w key ∨ ∃ b ∈ row, b.authorization.Grants) : History (ws ++ [w]) key row' where
  unstarted hrow := by
    obtain ⟨hw, hbefore⟩ := hunstarted hrow
    exact forall_mem_append.mpr ⟨h.unstarted hbefore, forall_mem_singleton.mpr hw⟩
  started b hb hb' := by
    rcases hstarted b hb hb' with hw | ⟨b, hb, hb'⟩
    · exact ⟨w, by simp, hw⟩
    · obtain ⟨x, hx, hstarts⟩ := h.started b hb hb'
      exact ⟨x, mem_append_left _ hx, hstarts⟩
  unclosed hrow := by
    obtain ⟨hw, hbefore⟩ := hunclosed hrow
    exact forall_mem_append.mpr ⟨h.unclosed hbefore, forall_mem_singleton.mpr hw⟩
  granted b hb hb' := by
    rcases hgranted b hb hb' with hw | ⟨b, hb, hb'⟩
    · exact ⟨w, by simp, hw⟩
    · obtain ⟨x, hx, hgrant⟩ := h.granted b hb hb'
      exact ⟨x, mem_append_left _ hx, hgrant⟩

/-- A write of another row changes nothing. -/
theorem concat_of_ne (h : History ws key row) (hw : w.key ≠ .binding key) :
    History (ws ++ [w]) key row := by
  refine h.concat (fun hrow => ⟨?_, hrow⟩) (fun b hb hb' => .inr ⟨b, hb, hb'⟩)
    (fun hrow => ⟨?_, hrow⟩) fun b hb hb' => .inr ⟨b, hb, hb'⟩
  · rintro ⟨after, view, rfl⟩
    exact hw rfl
  · rintro ⟨after, view, rfl⟩
    exact hw rfl

/-- A write of the row itself, one case per statement. -/
theorem concat_self {tag : Statement} {after : Binding} {view : RowView Row}
    (h : History ws key row) (hview : view (.binding key) = some row)
    (hw : BindingWrite view key tag after) :
    History (ws ++ [⟨tag, .binding key, after, view⟩]) key (some after) := by
  cases hw with
  | inserted absent started closed pending =>
    obtain rfl : row = none := Option.some_inj.mp (hview.symm.trans absent)
    refine h.concat ?_ ?_ ?_ ?_ <;> simp [Starts, Closes, Authorization.Grants, *]
  | asked before questionId expiresAt =>
    obtain rfl := Option.some_inj.mp (hview.symm.trans before)
    refine h.concat ?_ ?_ ?_ ?_ <;> simp [Starts, Closes]
    exact .inr
  | @answered binding answer now authorization before pending granted answerInputId =>
    obtain rfl := Option.some_inj.mp (hview.symm.trans before)
    refine h.concat ?_ ?_ ?_ ?_
    · simp [Starts]
    · simp [Starts]
    · simp [Closes]
    · rintro _ ⟨⟩ hgrants
      exact .inl ⟨answer, now, view, binding, _, rfl, before, granted hgrants, hgrants⟩
  | started before source permitted =>
    obtain rfl := Option.some_inj.mp (hview.symm.trans before)
    refine h.concat ?_ ?_ ?_ ?_ <;> simp [Starts, Closes]
    exact .inr
  | closed before closeReason =>
    obtain rfl := Option.some_inj.mp (hview.symm.trans before)
    refine h.concat ?_ ?_ ?_ ?_ <;> simp [Starts, Closes]
    exact .inr

end History

variable {ws : List (RowWrite Row Statement)}

theorem rowsAfter_history (hserial : Serial (fun _ => none) ws) (hallowed : ∀ w ∈ ws, Allowed w)
    (key : BindingKey) :
    History ws key (rowsAfter ws (.binding key)) := by
  induction ws using List.reverseRecOn with
  | nil => exact ⟨by simp, by simp [rowsAfter], by simp, by simp [rowsAfter]⟩
  | append_singleton ws w ih =>
    obtain ⟨hws, hfits, -⟩ := serial_append.mp hserial
    have hhistory := ih hws fun x hx => hallowed x (mem_append_left _ hx)
    have hw := hallowed w (by simp)
    by_cases heq : w.key = .binding key
    · obtain ⟨tag, k, after, view⟩ := w
      obtain rfl : k = .binding key := heq
      obtain ⟨held, hheld⟩ := Option.isSome_iff_exists.mp hfits.1
      have hrow : rowsAfter ws (.binding key) = held := hfits.2 _ held hheld
      have hafter : rowsAfter (ws ++ [⟨tag, .binding key, after, view⟩]) (.binding key) =
          some after := by
        rw [rowsAfter, replay_concat]
        exact apply_self ..
      rw [hafter]
      exact hhistory.concat_self (hheld.trans (congrArg some hrow.symm)) hw
    · have hsame : rowsAfter (ws ++ [w]) (.binding key) = rowsAfter ws (.binding key) := by
        rw [rowsAfter, replay_concat]
        exact apply_of_ne (Ne.symm heq) _
      rw [hsame]
      exact hhistory.concat_of_ne heq

/-- What is known at a write that marks a start. -/
theorem start_cases {w : RowWrite Row Statement} {key : BindingKey} (hfits : w.Fits (rowsAfter ws))
    (hallowed : Allowed w) (hstarts : Starts w key) :
    ∃ binding operation, rowsAfter ws (.binding key) = some binding ∧
      rowsAfter ws (.operation binding.operationKey) = some operation ∧
      operation.verifiedOutcome ≠ .succeeded ∧ binding.started = false ∧ binding.closed = false ∧
      binding.authorization.Grants := by
  obtain ⟨after, view, rfl⟩ := hstarts
  cases hallowed with
  | started before source permitted =>
    exact ⟨_, _, hfits.2 _ _ before, hfits.2 _ _ source, operationPermission_allow permitted⟩

/-- An operation known to have succeeded stays so, whatever is written. -/
theorem succeeded_replay {store : RowStore Row} (hserial : Serial store ws)
    (hallowed : ∀ w ∈ ws, Allowed w) {operationKey : String} {operation : Operation}
    (hrow : store (.operation operationKey) = some operation)
    (hsucceeded : operation.verifiedOutcome = .succeeded) :
    ∃ later : Operation, replay store ws (.operation operationKey) = some later ∧
      later.verifiedOutcome = .succeeded := by
  induction ws generalizing store operation with
  | nil => exact ⟨operation, hrow, hsucceeded⟩
  | cons w rest ih =>
    have hrest := fun x hx => hallowed x (mem_cons_of_mem w hx)
    by_cases heq : w.key = .operation operationKey
    · obtain ⟨tag, k, after, view⟩ := w
      obtain rfl : k = .operation operationKey := heq
      obtain ⟨held, hheld⟩ := Option.isSome_iff_exists.mp hserial.1.1
      have hsame : held = some operation := (hserial.1.2 _ held hheld).symm.trans hrow
      have hafter : Operation.verifiedOutcome after = .succeeded :=
        hallowed _ (mem_cons_self ..) operation (hsame ▸ hheld) hsucceeded
      exact ih hserial.2 hrest (apply_self ..) hafter
    · exact ih hserial.2 hrest ((apply_of_ne (Ne.symm heq) store).trans hrow) hsucceeded

/-! ## Every interleaving -/

theorem recoveryOperations_sound (service : Service) (ls : List (TxnLabel (List ServiceCall))) :
    ((recoveryOperations service).run ls).Sound boundOperation Allowed fun _ => none :=
  run_serial keeps_of_allowed (fun calls => (guarded_recoveryTransaction service calls).wp _) ls

section Journal

variable {d : Database Row Statement String Unit} {before after : List (RowWrite Row Statement)}
  {w : RowWrite Row Statement} {key : BindingKey}

section

variable (h : d.Sound boundOperation Allowed fun _ => none)
  (hsplit : d.journal = before ++ w :: after)
include h hsplit

theorem journal_split :
    (∀ key, History before key (rowsAfter before (.binding key))) ∧ w.Fits (rowsAfter before) ∧
      Allowed w := by
  have hallowed := hsplit ▸ h.journal
  obtain ⟨hbefore, hfits, -⟩ := serial_append.mp (hsplit ▸ h.serial)
  refine ⟨rowsAfter_history hbefore fun x hx => ?_, hfits, hallowed w (by simp)⟩
  exact hallowed x (mem_append_left _ hx)

theorem not_started_before (hstarts : Starts w key) : ∀ x ∈ before, ¬Starts x key := by
  obtain ⟨hhistory, hfits, hallowed⟩ := journal_split h hsplit
  obtain ⟨binding, _, hbinding, _, _, hunstarted, _⟩ := start_cases hfits hallowed hstarts
  refine (hhistory key).unstarted fun b hb => ?_
  rw [Option.mem_def, hbinding, Option.some_inj] at hb
  exact hb ▸ hunstarted

/-- A second start would find the first one before it. -/
theorem not_started_after (hstarts : Starts w key) : ∀ x ∈ after, ¬Starts x key := by
  intro x hx hagain
  obtain ⟨between, rest, rfl⟩ := append_of_mem hx
  have hsplit' : d.journal = (before ++ w :: between) ++ x :: rest := by simp [hsplit]
  exact not_started_before h hsplit' hagain w (by simp) hstarts

theorem granted_before (hstarts : Starts w key) :
    (∃ g ∈ before, GrantsStart g key) ∧ ∀ c ∈ before, ¬Closes c key := by
  obtain ⟨hhistory, hfits, hallowed⟩ := journal_split h hsplit
  obtain ⟨binding, _, hbinding, _, _, _, hunclosed, hgrants⟩ := start_cases hfits hallowed hstarts
  refine ⟨(hhistory key).granted binding hbinding hgrants, (hhistory key).unclosed fun b hb => ?_⟩
  rw [Option.mem_def, hbinding, Option.some_inj] at hb
  exact hb ▸ hunclosed

end

/-- Once the operation is known to have succeeded, a write that marks a start is of an invocation
bound to another one. -/
theorem not_started_of_succeeded (h : d.Sound boundOperation Allowed fun _ => none)
    (hsplit : d.journal = before ++ after) {operationKey : String} {operation : Operation}
    (hrow : rowsAfter before (.operation operationKey) = some operation)
    (hsucceeded : operation.verifiedOutcome = .succeeded) {binding : Binding}
    (hbinding : d.store (.binding key) = some binding)
    (hbound : binding.operationKey = operationKey) : ∀ x ∈ after, ¬Starts x key := by
  intro x hx hstarts
  obtain ⟨between, rest, rfl⟩ := append_of_mem hx
  have hsplit' : d.journal = (before ++ between) ++ x :: rest := by simp [hsplit]
  have hallowed := hsplit' ▸ h.journal
  obtain ⟨hserial, hserial'⟩ := serial_append.mp (hsplit' ▸ h.serial)
  obtain ⟨row, source, hrow', hsource, hnot, -⟩ :=
    start_cases hserial'.1 (hallowed x (by simp)) hstarts
  -- the binding of the final store and the one found at the start have one operation
  obtain ⟨binding', hbinding', hkept⟩ := hserial'.attr_eq
    (fun y hy => keeps_of_allowed y (hallowed y (mem_append_right _ hy))) hrow'
  have hstore : d.store (.binding key) = some binding' := by
    rw [h.store, hsplit', replay_append]
    exact hbinding'
  have hsame : row.operationKey = operationKey := by
    rw [hbinding, Option.some_inj] at hstore
    rw [← hbound, hstore]
    exact hkept.symm
  obtain ⟨later, hlater, hlaterSucceeded⟩ := succeeded_replay (serial_append.mp hserial).2
    (fun y hy => hallowed y (by simp [hy])) hrow hsucceeded
  rw [hsame, rowsAfter, replay_append] at hsource
  exact hnot (Option.some_inj.mp (hsource.symm.trans hlater) ▸ hlaterSucceeded)

end Journal

/-- In every interleaving of recovery transactions, a binding that is marked started was granted by
an explicit answer of the owner while its question was open, it had not been closed or started
before, the operation was not known to have succeeded, and it is not marked again. An operation
known to have succeeded stays so, and no invocation bound to it is marked started any more. -/
theorem bound_invocation_starts_once_when_granted (service : Service)
    (ls : List (TxnLabel (List ServiceCall))) :
    let reached := (recoveryOperations service).run ls
    (∀ before w after key, reached.journal = before ++ w :: after → Starts w key →
      (∃ g ∈ before, GrantsStart g key) ∧ (∀ c ∈ before, ¬Closes c key) ∧
      (∃ binding operation, rowsAfter before (.binding key) = some binding ∧
        rowsAfter before (.operation binding.operationKey) = some operation ∧
        operation.verifiedOutcome ≠ .succeeded) ∧
      ∀ x ∈ before ++ after, ¬Starts x key) ∧
    (∀ key binding, reached.store (.binding key) = some binding → binding.started = true →
      ∃ w ∈ reached.journal, Starts w key) ∧
    ∀ operationKey operation, reached.store (.operation operationKey) = some operation →
      operation.verifiedOutcome = .succeeded → ∀ later,
        let reached' := (recoveryOperations service).run (ls ++ later)
        (∃ operation', reached'.store (.operation operationKey) = some operation' ∧
          operation'.verifiedOutcome = .succeeded) ∧
        ∃ more, reached'.journal = reached.journal ++ more ∧
          ∀ key binding, reached'.store (.binding key) = some binding →
            binding.operationKey = operationKey → ∀ w ∈ more, ¬Starts w key := by
  have hsound := recoveryOperations_sound service ls
  refine ⟨?_, ?_, ?_⟩
  · intro before w after key hsplit hstarts
    obtain ⟨hgranted, hunclosed⟩ := granted_before hsound hsplit hstarts
    obtain ⟨-, hfits, hallowed⟩ := journal_split hsound hsplit
    obtain ⟨binding, operation, hbinding, hoperation, hnot, -⟩ :=
      start_cases hfits hallowed hstarts
    refine ⟨hgranted, hunclosed, ⟨binding, operation, hbinding, hoperation, hnot⟩, ?_⟩
    exact forall_mem_append.mpr ⟨not_started_before hsound hsplit hstarts,
      not_started_after hsound hsplit hstarts⟩
  · intro key binding hbinding hstarted
    refine (rowsAfter_history hsound.serial hsound.journal key).started binding ?_ hstarted
    exact (congrFun hsound.store _).symm.trans hbinding
  · intro operationKey operation hoperation hsucceeded later
    have hsound' := recoveryOperations_sound service (ls ++ later)
    obtain ⟨more, hmore⟩ : ∃ more, ((recoveryOperations service).run (ls ++ later)).journal =
        ((recoveryOperations service).run ls).journal ++ more := by
      rw [Machine.run_append]
      exact journal_runFrom _ later
    have hrow := (congrFun hsound.store _).symm.trans hoperation
    refine ⟨?_, more, hmore, fun key binding hbinding hbound => ?_⟩
    · have hallowed := hmore ▸ hsound'.journal
      obtain ⟨operation', hoperation', hsucceeded'⟩ := succeeded_replay
        (serial_append.mp (hmore ▸ hsound'.serial)).2
        (fun x hx => hallowed x (mem_append_right _ hx)) hrow hsucceeded
      refine ⟨operation', ?_, hsucceeded'⟩
      rw [hsound'.store, hmore, replay_append]
      exact hoperation'
    · exact not_started_of_succeeded hsound' hmore hrow hsucceeded hbinding hbound

/-- The call of a tool in the given attempt. -/
def toolCall (attemptId : String) : Invocation :=
  ⟨⟨"t", "w", "u", "s"⟩, "r", attemptId, 1, "tool", "mcp", .nativeInvocation⟩

def plainService : Service := ⟨.ascii, id, fun _ => false⟩

/-- The tool is called; the next attempt asks the owner, who lets it be called again. -/
def allowedAgain : List (TxnLabel (List ServiceCall)) :=
  let gate : Authority := ⟨true, true, none, ""⟩
  .begins 0
    [.recordStarted (toolCall "a1") (some ⟨false, false, none, ""⟩) [] "sent" "op1",
      .bindInvocation (toolCall "a2") (some gate) "op1" "ref" "sent" true,
      .query (toolCall "a2") (some gate) "q" 0,
      .onManualAnswer ⟨"t", "u", "r", "a2", "i", "q", [("q0", .str "o3")], "manual"⟩ (some gate) 1,
      .recordStarted (toolCall "a2") (some gate) [] "sent" "op2"] ::
    replicate 30 (.advances 0)

theorem bound_invocation_starts_once_when_granted_allowedAgain :
    (((recoveryOperations plainService).run allowedAgain).store
      (.binding (toolCall "a2").bindingKey)).map Binding.started = some true ∧
    ∃ g ∈ ((recoveryOperations plainService).run allowedAgain).journal,
      GrantsStart g (toolCall "a2").bindingKey := by
  have hrow : (((recoveryOperations plainService).run allowedAgain).store
      (.binding (toolCall "a2").bindingKey)).map Binding.started = some true := by
    decide +kernel
  obtain ⟨hstarts, hstarted, -⟩ :=
    bound_invocation_starts_once_when_granted plainService allowedAgain
  obtain ⟨binding, hbinding, hmarked⟩ := Option.map_eq_some_iff.mp hrow
  obtain ⟨w, hw, hmark⟩ := hstarted _ binding hbinding hmarked
  obtain ⟨before, after, hsplit⟩ := append_of_mem hw
  obtain ⟨⟨g, hg, hgrants⟩, -⟩ := hstarts before w after _ hsplit hmark
  exact ⟨hrow, g, hsplit ▸ mem_append_left _ hg, hgrants⟩

end AiPlatform.Execution.Recovery
