import AiPlatform.Foundation.Json
import AiPlatform.Foundation.Runs

/-!
# How a run ends

A run succeeds in one update. It fails or is cancelled in two: the target is staged in the row of
the run, and a later step finalizes it. A cancel request leaves a timestamp that nothing takes back
and stages a target of its own, which is cleared again while the run goes on. Each operation below
is one transaction under the lock of the run row.
-/
namespace AiPlatform.Runs.Lifecycle

open AiPlatform.Foundation

/-! ## The row of a run -/

inductive RunStatus where
  | queued
  | running
  | succeeded
  | failed
  | cancelled
  deriving DecidableEq, Repr

def RunStatus.terminal : RunStatus → Bool
  | succeeded | failed | cancelled => true
  | queued | running => false

/-- `terminalization_target` -/
inductive Target where
  | failed
  | cancelRequested
  | cancelled
  deriving DecidableEq, Repr

/-- The targets that can be finalized. -/
inductive Ending where
  | failed
  | cancelled
  deriving DecidableEq, Repr

namespace Ending

def status : Ending → RunStatus
  | failed => .failed
  | cancelled => .cancelled

def target : Ending → Target
  | failed => .failed
  | cancelled => .cancelled

theorem terminal_status (ending : Ending) : ending.status.terminal = true := by
  cases ending <;> rfl

end Ending

/-- What a result says about the effort of a run. -/
structure Observability where
  latencyMs : Option Int
  inputTokens : Int
  outputTokens : Int
  totalTokens : Int
  estimatedCostMinor : Int
  deriving DecidableEq, Repr

structure RunRow where
  userId : String
  status : RunStatus
  result : Json
  errorCode : Option String
  errorMessage : Option String
  finishedAt : Option Int
  observability : Observability
  cancelRequestedAt : Option Int
  cancelRequestedBy : Option String
  target : Option Target
  reason : String
  stagedResult : Json
  stagedErrorCode : Option String
  stagedErrorMessage : Option String
  deriving DecidableEq

inductive StepStatus where
  | pending
  | running
  | succeeded
  | failed
  | cancelled
  deriving DecidableEq, Repr

/-! ## Updates of the row -/

/-- What a caller stages. -/
structure Proposal where
  target : Target
  reason : String
  result : Json
  errorCode : Option String
  errorMessage : Option String

/-- A proposal replaces nothing that is staged, except that a cancellation replaces the request. -/
def takesOver (row : RunRow) (proposal : Proposal) : Bool :=
  row.target == none || (row.target == some .cancelRequested && proposal.target == .cancelled)

/-- `stage_run_terminalization` -/
def stageRunTerminalization (row : RunRow) (proposal : Proposal) : Option RunRow :=
  if row.status.terminal then none
  else if takesOver row proposal then
    some { row with
      target := some proposal.target
      reason := proposal.reason
      stagedResult := proposal.result
      stagedErrorCode := proposal.errorCode
      stagedErrorMessage := proposal.errorMessage }
  else some row

/-- `load_staged_terminalization` -/
def loadStagedTerminalization (row : RunRow) : Option RunRow :=
  if row.target.isSome || row.status.terminal then some row else none

/-- The row with nothing staged. -/
def RunRow.unstaged (row : RunRow) : RunRow :=
  { row with
    target := none
    reason := ""
    stagedResult := .obj []
    stagedErrorCode := none
    stagedErrorMessage := none }

/-- `clear_cancel_requested_terminalization` -/
def clearCancelRequestedTerminalization (row : RunRow) : Option RunRow :=
  if row.target = some .cancelRequested ∧ row.status.terminal = false then some row.unstaged
  else none

/-- `coalesce(nullif(new, 0), old)` -/
def keepUnlessZero (new old : Int) : Int := if new = 0 then old else new

def Observability.update (old new : Observability) : Observability where
  latencyMs := new.latencyMs.or old.latencyMs
  inputTokens := keepUnlessZero new.inputTokens old.inputTokens
  outputTokens := keepUnlessZero new.outputTokens old.outputTokens
  totalTokens := keepUnlessZero new.totalTokens old.totalTokens
  estimatedCostMinor := keepUnlessZero new.estimatedCostMinor old.estimatedCostMinor

/-- `finalize_staged_terminalization` -/
def finalizeStagedTerminalization (row : RunRow) (ending : Ending) (now : Int)
    (observability : Observability) : Option RunRow :=
  if row.target = some ending.target ∧ row.status.terminal = false then
    some { row.unstaged with
      status := ending.status
      result := row.stagedResult
      finishedAt := some now
      errorCode := if ending = .failed then row.stagedErrorCode else none
      errorMessage := if ending = .failed then row.stagedErrorMessage else none
      observability := row.observability.update observability }
  else none

/-- `complete_run` of the persistence layer -/
def completeRow (row : RunRow) (result : Json) (now : Int) (observability : Observability) :
    Option RunRow :=
  if row.status.terminal = false ∧ row.cancelRequestedAt = none ∧ row.target = none then
    some { row with
      status := .succeeded
      result := result
      finishedAt := some now
      errorCode := none
      errorMessage := none
      observability := observability }
  else none

/-! ## The service -/

inductive EventType where
  | cancelRequested
  | ended (ending : Ending)
  deriving DecidableEq, Repr

/-- `event_type` -/
def EventType.text : EventType → String
  | cancelRequested => "cancel_requested"
  | ended .failed => "run_failed"
  | ended .cancelled => "run_cancelled"

structure RunEvent where
  type : EventType
  stage : String
  message : String
  severity : String
  payload : List (String × Json)
  observability : Option Observability
  deriving DecidableEq

structure AuditEntry where
  action : String
  reason : String
  artifactCount : Nat
  observability : Observability
  errorCode : Option String
  deriving DecidableEq

structure State where
  row : RunRow
  steps : List StepStatus
  events : List RunEvent
  audit : List AuditEntry
  deriving DecidableEq

/-- What the service is given: the size limit, what it reads off a result, and what it shows. -/
structure Ports where
  validResultSize : Json → Bool
  observe : Json → Observability
  projectedCost : Int → Json → Option Int
  privateCost : Json → List (String × Json)
  sanitizePayload : Json → Json
  sanitizeText : Option String → String

/-- `RunTerminalizationProgress`; a status is the text of a run status or of a target. -/
inductive Observed where
  | status (status : RunStatus)
  | cancelRequested
  deriving DecidableEq, Repr

def Target.observed : Target → Observed
  | failed => .status .failed
  | cancelRequested => .cancelRequested
  | cancelled => .status .cancelled

structure Progress where
  completed : Bool
  status : Option Observed
  didTransition : Bool
  deriving DecidableEq, Repr

def Progress.isTerminal (progress : Progress) (requested : RunStatus) : Bool :=
  progress.completed && requested.terminal && progress.status == some (.status requested)

/-- `progress_for_requested_status` -/
def progressForRequestedStatus (progress : Option Progress) (requested : RunStatus) : Progress :=
  match progress with
  | none => ⟨false, none, false⟩
  | some progress =>
    if progress.isTerminal requested then progress
    else ⟨false, progress.status, progress.didTransition⟩

def failOpenSteps (steps : List StepStatus) : List StepStatus :=
  steps.map fun
    | .running => .failed
    | .pending => .cancelled
    | step => step

def cancelOpenSteps (steps : List StepStatus) : List StepStatus :=
  steps.map fun
    | .running | .pending => .cancelled
    | step => step

/-- `incoming if incoming not in (None, 0) else prior`, field by field. -/
def Observability.orPrior (incoming prior : Observability) : Observability where
  latencyMs := if incoming.latencyMs = none ∨ incoming.latencyMs = some 0 then prior.latencyMs
    else incoming.latencyMs
  inputTokens := keepUnlessZero incoming.inputTokens prior.inputTokens
  outputTokens := keepUnlessZero incoming.outputTokens prior.outputTokens
  totalTokens := keepUnlessZero incoming.totalTokens prior.totalTokens
  estimatedCostMinor := keepUnlessZero incoming.estimatedCostMinor prior.estimatedCostMinor

section Service

variable (ports : Ports)

/-- The result that was staged; what is no object counts as empty. -/
def stagedPayload (row : RunRow) : Json :=
  match row.stagedResult with
  | .obj members => .obj members
  | _ => .obj []

def endingEvent (staged final : RunRow) (ending : Ending) (artifactCount : Nat) : RunEvent :=
  let payload := stagedPayload staged
  let cost := ports.projectedCost final.observability.estimatedCostMinor payload
  let message := ports.sanitizeText staged.stagedErrorMessage
  { type := .ended ending
    stage := if ending = .failed then "worker" else "control"
    message := if ending = .failed then "Run failed" else "任务已取消"
    severity := if ending = .failed then "error" else "warning"
    payload :=
      [("visible_to_user", .bool true),
        ("severity", .str (if ending = .failed then "error" else "warning")),
        ("artifact_count", .int artifactCount),
        ("result_status", .str (if ending = .failed then "failed" else "cancelled")),
        ("result", ports.sanitizePayload payload),
        ("cost", .obj [("estimated_cost_minor", (cost.map Json.int).getD .null)])] ++
      ports.privateCost payload ++
      match ending, staged.stagedErrorCode with
      | .failed, some code =>
        if code = "" then []
        else ("error_code", .str code) ::
          if message = "" then [] else [("error_message", .str message)]
      | _, _ => []
    observability := some { final.observability with estimatedCostMinor := cost.getD 0 } }

def endingAudit (staged final : RunRow) (ending : Ending) (artifactCount : Nat) : AuditEntry where
  action := if ending = .failed then "run.failed" else "run.cancelled"
  reason := if staged.reason = "" then "run_terminalized" else staged.reason
  artifactCount := artifactCount
  observability := final.observability
  errorCode := staged.stagedErrorCode

/-- The rest of `progress_run_terminalization` for a target that can be finalized. -/
def finalize (s : State) (staged : RunRow) (ending : Ending) (now : Int) (artifactCount : Nat) :
    State × Progress :=
  let observability := (ports.observe (stagedPayload staged)).orPrior staged.observability
  match finalizeStagedTerminalization s.row ending now observability with
  | none => (s, ⟨false, some (.status ending.status), false⟩)
  | some final =>
    ({ row := final
       steps := if ending = .failed then failOpenSteps s.steps else cancelOpenSteps s.steps
       events := s.events ++ [endingEvent ports staged final ending artifactCount]
       audit := s.audit ++ [endingAudit staged final ending artifactCount] },
      ⟨true, some (.status ending.status), true⟩)

/-- `progress_run_terminalization` -/
def progressRunTerminalization (s : State) (now : Int) (artifactCount : Nat) :
    State × Option Progress :=
  match loadStagedTerminalization s.row with
  | none => (s, none)
  | some staged =>
    if staged.status.terminal then (s, some ⟨true, some (.status staged.status), false⟩)
    else
      match staged.target with
      | none => (s, some ⟨false, none, false⟩)
      | some .cancelRequested =>
        ({ s with row := (clearCancelRequestedTerminalization s.row).getD s.row },
          some ⟨false, some (.status .running), false⟩)
      | some .failed =>
        let outcome := finalize ports s staged .failed now artifactCount
        (outcome.1, some outcome.2)
      | some .cancelled =>
        let outcome := finalize ports s staged .cancelled now artifactCount
        (outcome.1, some outcome.2)

/-- The common part of `fail_run` and `cancel_run`: stage, and finalize when the target won. -/
def endRun (s : State) (proposal : Proposal) (ending : Ending) (now : Int) (artifactCount : Nat) :
    State × Progress :=
  match stageRunTerminalization s.row proposal with
  | none => (s, ⟨false, none, false⟩)
  | some staged =>
    if staged.target = some ending.target then
      let outcome := progressRunTerminalization ports { s with row := staged } now artifactCount
      (outcome.1, progressForRequestedStatus outcome.2 ending.status)
    else ({ s with row := staged }, ⟨false, staged.target.map Target.observed, false⟩)

/-- Who asks for the cancellation, and in which words it is recorded. -/
inductive Requester where
  | owner (userId : String)
  | admin (userId : String)
  deriving DecidableEq, Repr

namespace Requester

def userId : Requester → String
  | owner userId | admin userId => userId

/-- `eligible_run`: an owner asks for its own run; a cancelled run is eligible while a sandbox
lease of it is active. -/
def eligible (requester : Requester) (row : RunRow) (leaseActive : Bool) : Bool :=
  (match requester with
    | owner userId => row.userId == userId
    | admin _ => true) &&
  match row.status with
  | .queued | .running => true
  | .cancelled => leaseActive
  | .succeeded | .failed => false

def event (requester : Requester) (row : RunRow) : RunEvent where
  type := .cancelRequested
  stage := "control"
  message := match requester with
    | owner _ => "已请求取消"
    | admin _ => "管理员已请求取消"
  severity := "warning"
  payload :=
    [("visible_to_user", .bool true), ("severity", .str "warning"),
      ("requested_by", .str requester.userId)] ++
    match requester with
    | owner _ => []
    | admin _ => [("requested_by_role", .str "admin"), ("target_user_id", .str row.userId)]
  observability := none

end Requester

/-- The row with the first request recorded. -/
def requestedRow (row : RunRow) (requester : Requester) (now : Int) : RunRow :=
  { row with
    cancelRequestedAt := row.cancelRequestedAt.or (some now)
    cancelRequestedBy := row.cancelRequestedBy.or (some requester.userId) }

/-- A run that waits is cancelled at once; one that runs is asked to stop. -/
def cancelProposal (row : RunRow) : Proposal where
  target := if row.status = .queued then .cancelled else .cancelRequested
  reason := "run_cancel_requested"
  result := .obj []
  errorCode := none
  errorMessage := none

def requestEvents (row : RunRow) (requester : Requester) : List RunEvent :=
  if row.cancelRequestedAt = none then [requester.event row] else []

/-- `begin_owner_request` and `begin_admin_request`; the answer says whether the run was found. -/
def beginCancelRequest (s : State) (requester : Requester) (now : Int) (leaseActive : Bool) :
    State × Bool :=
  if requester.eligible s.row leaseActive then
    let row := requestedRow s.row requester now
    ({ s with
        row := (stageRunTerminalization row (cancelProposal s.row)).getD row
        events := s.events ++ requestEvents s.row requester }, true)
  else (s, false)

/-! ## Transactions on one run -/

inductive Label where
  | completeRun (result : Json) (now : Int)
  | failRun (errorCode errorMessage reason : String) (result : Json) (now : Int)
    (artifactCount : Nat)
  | cancelRun (result : Json) (now : Int) (artifactCount : Nat)
  | stageCancelRequest (reason : String)
  | requestCancel (requester : Requester) (now : Int) (leaseActive : Bool)
  | clearCancelRequest
  | progress (now : Int) (artifactCount : Nat)

inductive Reply where
  | raised
  | committed (ok : Bool)
  | ended (progress : Progress)
  | progressed (progress : Option Progress)
  | staged (ok : Bool)
  deriving DecidableEq, Repr

/-- One transaction; one that raises leaves the state as it was. -/
def perform (s : State) : Label → State × Reply
  | .completeRun result now =>
    if ports.validResultSize result then
      match completeRow s.row result now (ports.observe result) with
      | some row => ({ s with row := row }, .committed true)
      | none => (s, .committed false)
    else (s, .raised)
  | .failRun errorCode errorMessage reason result now artifactCount =>
    if ports.validResultSize result then
      let outcome := endRun ports s ⟨.failed, reason, result, some errorCode, some errorMessage⟩
        .failed now artifactCount
      (outcome.1, .ended outcome.2)
    else (s, .raised)
  | .cancelRun result now artifactCount =>
    if ports.validResultSize result then
      let outcome := endRun ports s ⟨.cancelled, "run_cancelled", result, none, none⟩ .cancelled now
        artifactCount
      (outcome.1, .ended outcome.2)
    else (s, .raised)
  | .stageCancelRequest reason =>
    match stageRunTerminalization s.row ⟨.cancelRequested, reason, .obj [], none, none⟩ with
    | some row => ({ s with row := row }, .staged true)
    | none => (s, .staged false)
  | .requestCancel requester now leaseActive =>
    let outcome := beginCancelRequest s requester now leaseActive
    (outcome.1, .staged outcome.2)
  | .clearCancelRequest =>
    match clearCancelRequestedTerminalization s.row with
    | some row => ({ s with row := row }, .staged true)
    | none => (s, .staged false)
  | .progress now artifactCount =>
    let outcome := progressRunTerminalization ports s now artifactCount
    (outcome.1, .progressed outcome.2)

def machine (start : State) : Machine State Label where
  start := start
  step s l := (perform ports s l).1

end Service

/-! ## What a transaction can do

Every transaction has one of three effects. A finished run admits only the first.
-/

/-- The run goes on as it was, or stays ended as it was. -/
structure Kept (s s' : State) : Prop where
  status : s'.row.status = s.row.status
  result : s'.row.result = s.row.result
  cancelRequestedAt : s.row.cancelRequestedAt.isSome → s'.row.cancelRequestedAt.isSome
  events : ∃ new, s'.events = s.events ++ new ∧ ∀ e ∈ new, e.type = .cancelRequested

/-- The staged ending takes place, with its event. -/
structure Ended (ending : Ending) (s s' : State) : Prop where
  unfinished : s.row.status.terminal = false
  status : s'.row.status = ending.status
  cancelRequestedAt : s.row.cancelRequestedAt.isSome → s'.row.cancelRequestedAt.isSome
  events : ∃ e, s'.events = s.events ++ [e] ∧ e.type = .ended ending

/-- Success is committed. -/
structure Succeeded (s s' : State) : Prop where
  unfinished : s.row.status.terminal = false
  notRequested : s.row.cancelRequestedAt = none
  notStaged : s.row.target = none
  status : s'.row.status = .succeeded
  events : s'.events = s.events

theorem Kept.refl (s : State) : Kept s s where
  status := rfl
  result := rfl
  cancelRequestedAt := id
  events := ⟨[], by simp, by simp⟩

theorem Kept.trans {s t s' : State} (h : Kept s t) (h' : Kept t s') : Kept s s' where
  status := h'.status.trans h.status
  result := h'.result.trans h.result
  cancelRequestedAt hrequested := h'.cancelRequestedAt (h.cancelRequestedAt hrequested)
  events := by
    obtain ⟨new, hnew, htypes⟩ := h.events
    obtain ⟨later, hlater, htypes'⟩ := h'.events
    refine ⟨new ++ later, by rw [hlater, hnew, List.append_assoc], fun e he => ?_⟩
    exact (List.mem_append.mp he).elim (htypes e) (htypes' e)

theorem Kept.ended {ending : Ending} {s t s' : State} (h : Kept s t) (hevents : t.events = s.events)
    (h' : Ended ending t s') : Ended ending s s' where
  unfinished := h.status ▸ h'.unfinished
  status := h'.status
  cancelRequestedAt hrequested := h'.cancelRequestedAt (h.cancelRequestedAt hrequested)
  events := hevents ▸ h'.events

/-- An update of the row that leaves what a reader of the run sees. -/
theorem Kept.of_row {s : State} {row : RunRow} (hstatus : row.status = s.row.status)
    (hresult : row.result = s.row.result)
    (hrequested : row.cancelRequestedAt = s.row.cancelRequestedAt) :
    Kept s { s with row := row } where
  status := hstatus
  result := hresult
  cancelRequestedAt := by
    rw [hrequested]
    exact id
  events := ⟨[], by simp, by simp⟩

theorem stage_frame {row staged : RunRow} {proposal : Proposal}
    (h : stageRunTerminalization row proposal = some staged) :
    row.status.terminal = false ∧ staged.status = row.status ∧ staged.result = row.result ∧
      staged.cancelRequestedAt = row.cancelRequestedAt := by
  unfold stageRunTerminalization at h
  split_ifs at h with hterminal hover
  · obtain rfl := Option.some.inj h
    exact ⟨by simpa using hterminal, rfl, rfl, rfl⟩
  · obtain rfl := Option.some.inj h
    exact ⟨by simpa using hterminal, rfl, rfl, rfl⟩

theorem stage_getD_frame (row : RunRow) (proposal : Proposal) :
    ((stageRunTerminalization row proposal).getD row).status = row.status ∧
      ((stageRunTerminalization row proposal).getD row).result = row.result ∧
      ((stageRunTerminalization row proposal).getD row).cancelRequestedAt =
        row.cancelRequestedAt := by
  cases hstage : stageRunTerminalization row proposal with
  | none => exact ⟨rfl, rfl, rfl⟩
  | some staged => exact (stage_frame hstage).2

theorem clear_frame {row cleared : RunRow}
    (h : clearCancelRequestedTerminalization row = some cleared) : cleared = row.unstaged := by
  unfold clearCancelRequestedTerminalization at h
  split_ifs at h
  exact (Option.some.inj h).symm

theorem finalize_frame {row final : RunRow} {ending : Ending} {now : Int}
    {observability : Observability}
    (h : finalizeStagedTerminalization row ending now observability = some final) :
    row.status.terminal = false ∧ final.status = ending.status ∧
      final.cancelRequestedAt = row.cancelRequestedAt := by
  by_cases hguard : row.target = some ending.target ∧ row.status.terminal = false
  · rw [finalizeStagedTerminalization, if_pos hguard] at h
    obtain rfl := Option.some.inj h
    exact ⟨hguard.2, rfl, rfl⟩
  · rw [finalizeStagedTerminalization, if_neg hguard] at h
    contradiction

section Effects

variable {ports : Ports} {s : State}

/-- What progress may do to a run, and what it may then report. -/
structure Advanced (s s' : State) (progress : Option Progress) : Prop where
  effect : Kept s s' ∨ ∃ ending, Ended ending s s'
  truthful : ∀ p ∈ progress, p.completed = true → p.status = some (.status s'.row.status)

theorem finalize_advanced (staged : RunRow) (ending : Ending) (now : Int) (artifactCount : Nat) :
    Advanced s (finalize ports s staged ending now artifactCount).1
      (some (finalize ports s staged ending now artifactCount).2) := by
  unfold finalize
  dsimp only
  split
  · exact ⟨.inl (Kept.refl s), by simp⟩
  · rename_i final hfinal
    obtain ⟨hunfinished, hstatus, hrequested⟩ := finalize_frame hfinal
    refine ⟨.inr ⟨ending, hunfinished, hstatus, ?_, _, rfl, rfl⟩, ?_⟩
    · rw [hrequested]
      exact id
    · simp [hstatus]

theorem progress_advanced (ports : Ports) (s : State) (now : Int) (artifactCount : Nat) :
    Advanced s (progressRunTerminalization ports s now artifactCount).1
      (progressRunTerminalization ports s now artifactCount).2 := by
  unfold progressRunTerminalization loadStagedTerminalization
  split
  · exact ⟨.inl (Kept.refl s), by simp⟩
  · rename_i staged hload
    split_ifs at hload
    obtain rfl := Option.some.inj hload
    split_ifs
    · exact ⟨.inl (Kept.refl s), by simp⟩
    · split
      · exact ⟨.inl (Kept.refl s), by simp⟩
      · refine ⟨.inl ?_, by simp⟩
        cases hclear : clearCancelRequestedTerminalization s.row with
        | none => exact Kept.refl s
        | some cleared =>
          obtain rfl := clear_frame hclear
          exact Kept.of_row rfl rfl rfl
      · exact finalize_advanced ..
      · exact finalize_advanced ..

/-- Completion is reported for the requested status only. -/
theorem completed_of_progressForRequestedStatus {progress : Option Progress} {requested : RunStatus}
    (h : (progressForRequestedStatus progress requested).completed = true) :
    ∃ p ∈ progress, p.completed = true ∧ p.status = some (.status requested) := by
  cases progress with
  | none => contradiction
  | some p =>
    simp only [progressForRequestedStatus] at h
    split_ifs at h with hterminal
    · simp only [Progress.isTerminal, Bool.and_eq_true, beq_iff_eq] at hterminal
      exact ⟨p, rfl, hterminal.1.1, hterminal.2⟩

theorem endRun_effect (proposal : Proposal) (ending : Ending) (now : Int) (artifactCount : Nat) :
    (Kept s (endRun ports s proposal ending now artifactCount).1 ∨
        ∃ other, Ended other s (endRun ports s proposal ending now artifactCount).1) ∧
      ((endRun ports s proposal ending now artifactCount).2.completed = true →
        (endRun ports s proposal ending now artifactCount).1.row.status = ending.status) := by
  unfold endRun
  split
  · exact ⟨.inl (Kept.refl s), by simp⟩
  · rename_i staged hstage
    obtain ⟨-, hstatus, hresult, hrequested⟩ := stage_frame hstage
    have hkept : Kept s { s with row := staged } := Kept.of_row hstatus hresult hrequested
    split_ifs
    · obtain ⟨heffect, htruthful⟩ := progress_advanced ports
        { s with row := staged } now artifactCount
      refine ⟨?_, fun hcompleted => ?_⟩
      · rcases heffect with hagain | ⟨other, hended⟩
        · exact .inl (hkept.trans hagain)
        · exact .inr ⟨other, hkept.ended rfl hended⟩
      · obtain ⟨p, hp, hdone, hrequested⟩ := completed_of_progressForRequestedStatus hcompleted
        have hreported := htruthful p hp hdone
        rw [hrequested] at hreported
        exact (Observed.status.inj (Option.some.inj hreported)).symm
    · exact ⟨.inl hkept, by simp⟩

theorem beginCancelRequest_kept (requester : Requester) (now : Int) (leaseActive : Bool) :
    Kept s (beginCancelRequest s requester now leaseActive).1 := by
  unfold beginCancelRequest
  split_ifs
  · have hrow : Kept s { s with row := requestedRow s.row requester now } :=
      ⟨rfl, rfl, by simp [requestedRow], [], by simp, by simp⟩
    refine ⟨?_, ?_, fun hrequested => ?_, requestEvents s.row requester, rfl, ?_⟩
    · exact (stage_getD_frame _ _).1.trans hrow.status
    · exact (stage_getD_frame _ _).2.1.trans hrow.result
    · dsimp only
      rw [(stage_getD_frame _ _).2.2]
      exact hrow.cancelRequestedAt hrequested
    · intro e he
      unfold requestEvents at he
      split_ifs at he
      · obtain rfl := List.mem_singleton.mp he
        rfl
      · contradiction
  · exact Kept.refl s

/-- Every transaction keeps the run, ends it or commits its success. -/
theorem perform_effect (ports : Ports) (s : State) (l : Label) :
    Kept s (perform ports s l).1 ∨ (∃ ending, Ended ending s (perform ports s l).1) ∨
      Succeeded s (perform ports s l).1 := by
  cases l with
  | completeRun result now =>
    simp only [perform]
    split_ifs
    · split
      · rename_i row hrow
        unfold completeRow at hrow
        split_ifs at hrow with hguard
        obtain rfl := Option.some.inj hrow
        exact .inr (.inr ⟨hguard.1, hguard.2.1, hguard.2.2, rfl, rfl⟩)
      · exact .inl (Kept.refl s)
    · exact .inl (Kept.refl s)
  | failRun errorCode errorMessage reason result now artifactCount =>
    simp only [perform]
    split_ifs
    · exact (endRun_effect ..).1.imp_right .inl
    · exact .inl (Kept.refl s)
  | cancelRun result now artifactCount =>
    simp only [perform]
    split_ifs
    · exact (endRun_effect ..).1.imp_right .inl
    · exact .inl (Kept.refl s)
  | stageCancelRequest reason =>
    simp only [perform]
    split
    · rename_i row hrow
      obtain ⟨-, hstatus, hresult, hrequested⟩ := stage_frame hrow
      exact .inl (Kept.of_row hstatus hresult hrequested)
    · exact .inl (Kept.refl s)
  | requestCancel requester now leaseActive => exact .inl (beginCancelRequest_kept ..)
  | clearCancelRequest =>
    simp only [perform]
    split
    · rename_i row hrow
      obtain rfl := clear_frame hrow
      exact .inl (Kept.of_row rfl rfl rfl)
    · exact .inl (Kept.refl s)
  | progress now artifactCount =>
      exact (progress_advanced ports s now artifactCount).effect.imp_right .inl

end Effects

/-! ## Runs -/

section Runs

variable {ports : Ports} {start s : State}

theorem terminal_kept (l : Label) (h : s.row.status.terminal = true) :
    Kept s (perform ports s l).1 := by
  rcases perform_effect ports s l with hkept | ⟨ending, hended⟩ | hsucceeded
  · exact hkept
  · rw [hended.unfinished] at h
    contradiction
  · rw [hsucceeded.unfinished] at h
    contradiction

/-- A finished run keeps its status and its result. -/
theorem terminal_run (h : s.row.status.terminal = true) (labels : List Label) :
    ((machine ports start).runFrom s labels).row.status = s.row.status ∧
      ((machine ports start).runFrom s labels).row.result = s.row.result := by
  induction labels generalizing s with
  | nil => exact ⟨rfl, rfl⟩
  | cons l labels ih =>
    have hkept : Kept s ((machine ports start).step s l) := terminal_kept l h
    obtain ⟨hstatus, hresult⟩ := ih (hkept.status ▸ h)
    exact ⟨hstatus.trans hkept.status, hresult.trans hkept.result⟩

/-- A run whose cancellation was requested before it succeeded never succeeds. -/
theorem requested_run (hrequested : s.row.cancelRequestedAt.isSome)
    (hstatus : s.row.status ≠ .succeeded) (labels : List Label) :
    ((machine ports start).runFrom s labels).row.status ≠ .succeeded := by
  induction labels generalizing s with
  | nil => exact hstatus
  | cons l labels ih =>
    rcases perform_effect ports s l with hkept | ⟨ending, hended⟩ | hsucceeded
    · exact ih (hkept.cancelRequestedAt hrequested) (hkept.status ▸ hstatus)
    · refine ih (hended.cancelRequestedAt hrequested) ?_
      change (perform ports s l).1.row.status ≠ .succeeded
      rw [hended.status]
      cases ending <;> decide
    · rw [hsucceeded.notRequested] at hrequested
      contradiction

def RunEvent.isEnding (e : RunEvent) : Bool :=
  match e.type with
  | .ended _ => true
  | .cancelRequested => false

/-- At most one ending has been recorded since the start, and the run has its status. -/
def EndsOnce (start s : State) : Prop :=
  ∃ new, s.events = start.events ++ new ∧
    (new.filter RunEvent.isEnding = [] ∨
      ∃ e ending, new.filter RunEvent.isEnding = [e] ∧ e.type = .ended ending ∧
        s.row.status = ending.status)

theorem endsOnce_step (l : Label) (h : EndsOnce start s) :
    EndsOnce start (perform ports s l).1 := by
  obtain ⟨new, hnew, hends⟩ := h
  rcases perform_effect ports s l with hkept | ⟨ending, hended⟩ | hsucceeded
  · obtain ⟨more, hmore, htypes⟩ := hkept.events
    have hnone : more.filter RunEvent.isEnding = [] := by
      rw [List.filter_eq_nil_iff]
      intro e he
      simp [RunEvent.isEnding, htypes e he]
    refine ⟨new ++ more, by rw [hmore, hnew, List.append_assoc], ?_⟩
    rw [List.filter_append, hnone, List.append_nil, hkept.status]
    exact hends
  · obtain ⟨e, hevents, htype⟩ := hended.events
    have hfresh : new.filter RunEvent.isEnding = [] := by
      rcases hends with hnone | ⟨e', ending', -, -, hstatus⟩
      · exact hnone
      · have hunfinished := hended.unfinished
        rw [hstatus, ending'.terminal_status] at hunfinished
        contradiction
    have hending : e.isEnding = true := by rw [RunEvent.isEnding, htype]
    refine ⟨new ++ [e], by rw [hevents, hnew, List.append_assoc], .inr ⟨e, ending, ?_, htype,
      hended.status⟩⟩
    rw [List.filter_append, hfresh, List.nil_append, List.filter_singleton, hending, cond_true]
  · refine ⟨new, by rw [hsucceeded.events, hnew], ?_⟩
    rcases hends with hnone | ⟨e, ending, -, -, hstatus⟩
    · exact .inl hnone
    · have hunfinished := hsucceeded.unfinished
      rw [hstatus, ending.terminal_status] at hunfinished
      contradiction

/-- An accepted request finds the run not succeeded and leaves its timestamp. -/
theorem beginCancelRequest_accepted {requester : Requester} {now : Int} {leaseActive : Bool}
    (h : (beginCancelRequest s requester now leaseActive).2 = true) :
    s.row.status ≠ .succeeded ∧
      (beginCancelRequest s requester now leaseActive).1.row.cancelRequestedAt.isSome := by
  unfold beginCancelRequest at h ⊢
  split_ifs at h ⊢ with heligible
  · constructor
    · intro hsucceeded
      simp [Requester.eligible, hsucceeded] at heligible
    · dsimp only
      rw [(stage_getD_frame _ _).2.2, requestedRow]
      cases s.row.cancelRequestedAt <;> rfl

theorem requestCancel_run {requester : Requester} {now : Int} {leaseActive : Bool}
    (h : (perform ports s (.requestCancel requester now leaseActive)).2 = .staged true)
    (later : List Label) :
    ((machine ports start).runFrom (perform ports s (.requestCancel requester now leaseActive)).1
      later).row.status ≠ .succeeded := by
  obtain ⟨hstatus, hrequested⟩ := beginCancelRequest_accepted (Reply.staged.inj h)
  have hkept : Kept s (beginCancelRequest s requester now leaseActive).1 :=
    beginCancelRequest_kept ..
  refine requested_run hrequested ?_ later
  rw [hkept.status]
  exact hstatus

theorem succeeded_of_perform {l : Label} (hbefore : s.row.status ≠ .succeeded)
    (hafter : (perform ports s l).1.row.status = .succeeded) :
    s.row.cancelRequestedAt = none ∧ s.row.target = none := by
  rcases perform_effect ports s l with hkept | ⟨ending, hended⟩ | hsucceeded
  · exact absurd (hkept.status.symm.trans hafter) hbefore
  · rw [hended.status] at hafter
    cases ending <;> contradiction
  · exact ⟨hsucceeded.notRequested, hsucceeded.notStaged⟩

theorem completed_of_perform {l : Label} {progress : Progress} {ending : Ending}
    (hlabel : (∃ code message reason result now artifacts, ending = .failed ∧
        l = .failRun code message reason result now artifacts) ∨
      ∃ result now artifacts, ending = .cancelled ∧ l = .cancelRun result now artifacts)
    (hreply : (perform ports s l).2 = .ended progress) (hcompleted : progress.completed = true) :
    (perform ports s l).1.row.status = ending.status := by
  rcases hlabel with ⟨code, message, reason, result, now, artifacts, rfl, rfl⟩ |
    ⟨result, now, artifacts, rfl, rfl⟩
  all_goals
    simp only [perform] at hreply ⊢
    split_ifs at hreply ⊢
    obtain rfl := Reply.ended.inj hreply
    exact (endRun_effect ..).2 hcompleted

end Runs

/-- Whatever transactions race on a run: its end is final; success is committed only while no cancel
is requested and nothing is staged, and never after an accepted request; `fail_run` and `cancel_run`
report completion only of the status they were asked for; and one ending at most is recorded, that
of the status the run has. -/
theorem terminalization_exact (ports : Ports) (start : State) (labels : List Label) :
    ((((machine ports start).run labels).row.status.terminal = true → ∀ later,
      ((machine ports start).run (labels ++ later)).row.status =
          ((machine ports start).run labels).row.status ∧
        ((machine ports start).run (labels ++ later)).row.result =
          ((machine ports start).run labels).row.result)) ∧
    (∀ l, ((machine ports start).run labels).row.status ≠ .succeeded →
      ((machine ports start).run (labels ++ [l])).row.status = .succeeded →
      ((machine ports start).run labels).row.cancelRequestedAt = none ∧
        ((machine ports start).run labels).row.target = none) ∧
    (∀ requester now leaseActive later,
      (perform ports ((machine ports start).run labels)
        (.requestCancel requester now leaseActive)).2 = .staged true →
      ((machine ports start).run
        (labels ++ .requestCancel requester now leaseActive :: later)).row.status ≠ .succeeded) ∧
    (∀ code message reason result now artifacts progress,
      (perform ports ((machine ports start).run labels)
        (.failRun code message reason result now artifacts)).2 = .ended progress →
      progress.completed = true →
      ((machine ports start).run
        (labels ++ [.failRun code message reason result now artifacts])).row.status = .failed) ∧
    (∀ result now artifacts progress,
      (perform ports ((machine ports start).run labels)
        (.cancelRun result now artifacts)).2 = .ended progress →
      progress.completed = true →
      ((machine ports start).run
        (labels ++ [.cancelRun result now artifacts])).row.status = .cancelled) ∧
    EndsOnce start ((machine ports start).run labels) := by
  refine ⟨fun hterminal later => ?_, fun l hbefore hafter => ?_,
    fun requester now leaseActive later haccepted => ?_,
    fun code message reason result now artifacts progress hreply hcompleted => ?_,
    fun result now artifacts progress hreply hcompleted => ?_, ?_⟩
  · rw [Machine.run_append]
    exact terminal_run hterminal later
  · rw [Machine.run_append] at hafter
    exact succeeded_of_perform hbefore hafter
  · rw [Machine.run_append]
    exact requestCancel_run haccepted later
  · rw [Machine.run_append]
    exact completed_of_perform
      (.inl ⟨code, message, reason, result, now, artifacts, rfl, rfl⟩) hreply hcompleted
  · rw [Machine.run_append]
    exact completed_of_perform (.inr ⟨result, now, artifacts, rfl, rfl⟩) hreply hcompleted
  · have hstart : EndsOnce start (machine ports start).start := ⟨[], by simp [machine], .inl rfl⟩
    exact Machine.invariant_reachable hstart (fun s l h => endsOnce_step l h) labels

end AiPlatform.Runs.Lifecycle
