import AiPlatform.Foundation.Runs
import AiPlatform.Foundation.Outcome
import AiPlatform.Foundation.JsonText
import AiPlatform.Kernel.Identifiers
import AiPlatform.Context.ProviderSessions

/-!
# Inputs of a run

What the owner of a run sends to it while it is running: texts, and answers to the questions of the
executor. The service works on three tables of the run: the input session of each attempt, the
questions and the inputs. Every call holds the lock of the run, so that calls come one after the
other; a call that raises leaves the tables as they were.
-/
namespace AiPlatform.Runs.Inputs

open AiPlatform.Foundation AiPlatform.Kernel AiPlatform.Context

/-! ## Rules of the domain -/

def maxRunInputChars : Nat := 16000

def maxRunQuestionBatch : Nat := 4

def maxRunQuestionOptions : Nat := 8

def maxRunAnswerChars : Nat := 16000

def runQuestionTimeoutSeconds : Int := 300

inductive InputError where
  | closed
  | idConflict
  | idInvalid
  | shapeInvalid
  | textInvalid
  | questionIdInvalid
  | questionInvalid
  | answersInvalid
  | questionNotFound
  | questionAlreadyAnswered
  | questionIdConflict
  | recoveryAnswerInvalid
  | ackMismatch
  deriving DecidableEq

def InputError.code : InputError → String
  | .closed => "run_input_closed"
  | .idConflict => "run_input_id_conflict"
  | .idInvalid => "run_input_id_invalid"
  | .shapeInvalid => "run_input_shape_invalid"
  | .textInvalid => "run_input_text_invalid"
  | .questionIdInvalid => "run_input_question_id_invalid"
  | .questionInvalid => "run_input_question_invalid"
  | .answersInvalid => "run_input_answers_invalid"
  | .questionNotFound => "run_input_question_not_found"
  | .questionAlreadyAnswered => "run_input_question_already_answered"
  | .questionIdConflict => "run_input_question_id_conflict"
  | .recoveryAnswerInvalid => "run_input_recovery_answer_invalid"
  | .ackMismatch => "run_input_ack_mismatch"

/-- `uuidText` is `str(UUID(value))`, where the value is the text of a UUID. -/
structure InputsService where
  unicode : Unicode
  sanitizeText : String → String
  uuidText : String → Option String

abbrev Sanitizer := String → String

structure QuestionOption where
  key : String
  label : String
  description : String
  recommended : Option Bool
  deriving DecidableEq

structure Question where
  key : String
  question : String
  header : String
  options : List QuestionOption
  multiSelect : Bool
  deriving DecidableEq

def QuestionOption.json (option : QuestionOption) : Json :=
  .obj ([("key", .str option.key), ("label", .str option.label),
    ("description", .str option.description)] ++
    (option.recommended.map fun b => ("recommended", Json.bool b)).toList)

def Question.json (question : Question) : Json :=
  .obj [("key", .str question.key), ("question", .str question.question),
    ("header", .str question.header), ("options", .arr (question.options.map QuestionOption.json)),
    ("multiSelect", .bool question.multiSelect)]

def questionsJson (questions : List Question) : Json :=
  .arr (questions.map Question.json)

section Rules

variable (u : Unicode) (sanitize : Sanitizer)

def normalizeQuestionId (value : String) : Except InputError String := do
  ensure (value = strip u value ∧ fullmatchId isSafeIdChar value) .questionIdInvalid
  .ok value

/-- A value that is not a string is refused like a text that is too long. -/
def sanitizeRunInputText (value : Option Json) (maxChars : Nat) (allowEmpty : Bool) :
    Except InputError String :=
  match value with
  | some (.str text) => do
    ensure (text.length ≤ maxChars) .textInvalid
    ensure (allowEmpty ∨ strip u (sanitize text) ≠ "") .textInvalid
    ensure ((sanitize text).length ≤ maxChars) .textInvalid
    .ok (sanitize text)
  | _ => .error .textInvalid

/-- `(?:\(\s*(?:recommended|推荐)\s*\)|（\s*(?:recommended|推荐)\s*）)\s*$` -/
def recommendedOptionSuffix : Pattern :=
  let mark := Pattern.alt (word u "recommended") (word u "推荐")
  .seq (.alt
    (.all [.one (· == '('), spaces u, mark, spaces u, .one (· == ')')])
    (.all [.one (· == '（'), spaces u, mark, spaces u, .one (· == '）')]))
    (.seq (spaces u) .lineEnd)

def isRecommendedQuestionOption : Option Json → Bool
  | some (.str label) => (recommendedOptionSuffix u).occursIn label.toList
  | _ => false

def isBlankText : Option Json → Bool
  | some (.str text) => strip u text == ""
  | _ => true

/-- A text that the sanitizer leaves blank is shown as the fallback. -/
def sanitizeQuestionDisplay (value : Option Json) (maxChars : Nat) (fallback : String) :
    Except InputError String := do
  ensure (isBlankText u value = false) .textInvalid
  let sanitized ← sanitizeRunInputText u sanitize value maxChars true
  .ok (if strip u sanitized = "" then fallback else sanitized)

def hasKey (value : Json) (expected : String) : Bool :=
  match value.get? "key" with
  | none => true
  | some key => key == .str expected

def isMapping : Json → Bool
  | .obj _ => true
  | _ => false

/-- The member `recommended`, where there is one. -/
def recommendedMember (option : Json) : Except InputError (Option Bool) :=
  match option.get? "recommended" with
  | none => .ok none
  | some (.bool b) => .ok (some b)
  | some _ => .error .questionInvalid

def projectedRecommendation (option : Json) (member : Option Bool) : Option Bool :=
  member <|> if isRecommendedQuestionOption u (option.get? "label") then some true else none

def canonicalizeOption (index : Nat) (option : Json) : Except InputError QuestionOption := do
  ensure (isMapping option) .questionInvalid
  ensure (hasKey option ("o" ++ toString index)) .questionInvalid
  let label ← sanitizeQuestionDisplay u sanitize (option.get? "label") 256
    ("Option " ++ toString (index + 1))
  let description ← sanitizeRunInputText u sanitize (option.get? "description") 2000 true
  let recommended ← recommendedMember option
  .ok ⟨"o" ++ toString index, label, description, projectedRecommendation u option recommended⟩

def optionList : Option Json → Except InputError (List Json)
  | some (.arr options) => do
    ensure (options.length ≤ maxRunQuestionOptions) .questionInvalid
    .ok options
  | _ => .error .questionInvalid

def multiSelectMember : Option Json → Except InputError Bool
  | some (.bool b) => .ok b
  | _ => .error .questionInvalid

def canonicalizeQuestion (index : Nat) (value : Json) : Except InputError Question := do
  ensure (isMapping value) .questionInvalid
  ensure (hasKey value ("q" ++ toString index)) .questionInvalid
  let question ← sanitizeQuestionDisplay u sanitize (value.get? "question") maxRunAnswerChars
    ("Question " ++ toString (index + 1))
  let header ← sanitizeQuestionDisplay u sanitize (value.get? "header") 128 "Question"
  let options ← optionList (value.get? "options")
  let options ← options.zipIdx.mapM fun (option, i) => canonicalizeOption u sanitize i option
  let multiSelect ← multiSelectMember (value.get? "multiSelect")
  .ok ⟨"q" ++ toString index, question, header, options, multiSelect⟩

def canonicalizeQuestions : Json → Except InputError (List Question)
  | .arr values => do
    ensure (values ≠ [] ∧ values.length ≤ maxRunQuestionBatch) .questionInvalid
    values.zipIdx.mapM fun (value, i) => canonicalizeQuestion u sanitize i value
  | _ => .error .questionInvalid

/-- `public_question`: what is stored is projected again on every read. -/
def publicQuestion (stored : Json) : List Question :=
  match canonicalizeQuestions u sanitize stored with
  | .ok questions => questions
  | .error _ => []

/-- The keys of the options that are recommended, or else the first one. -/
def defaultSelection (question : Question) : Option (List String) :=
  match question.options with
  | [] => none
  | first :: _ =>
    let selected := (question.options.filter fun option => option.recommended == some true).map
      QuestionOption.key
    some (if selected = [] then [first.key] else selected)

def defaultAnswer (question : Question) : Option (String × Json) :=
  (defaultSelection question).map fun selected =>
    (question.key,
      if question.multiSelect then .arr (selected.map Json.str) else .str (selected.headD ""))

def defaultQuestionAnswers (questions : List Question) : Option (List (String × Json)) :=
  match questions with
  | [] => none
  | _ => questions.mapM defaultAnswer

def selectedKey (question : Question) : Json → Except InputError String
  | .str key => do
    ensure (key ∈ question.options.map QuestionOption.key) .answersInvalid
    .ok key
  | _ => .error .answersInvalid

def canonicalizeAnswer (question : Question) : Json → Except InputError Json
  | .obj [("text", text)] => do
    let text ← sanitizeRunInputText u sanitize (some text) maxRunAnswerChars false
    .ok (.obj [("text", .str text)])
  | .str answer => do
    ensure (question.multiSelect = false ∧
      answer ∈ question.options.map QuestionOption.key) .answersInvalid
    .ok (.str answer)
  | .arr items => do
    ensure (question.multiSelect ∧ items ≠ [] ∧ items.length ≤ question.options.length)
      .answersInvalid
    let selected ← items.mapM (selectedKey question)
    ensure selected.Nodup .answersInvalid
    .ok (.arr (selected.map Json.str))
  | _ => .error .answersInvalid

def canonicalizeAnswerTo (questions : List Question) (answer : String × Json) :
    Except InputError (String × Json) :=
  match questions.find? fun question => question.key == answer.1 with
  | none => .error .answersInvalid
  | some question => do
    let value ← canonicalizeAnswer u sanitize question answer.2
    .ok (answer.1, value)

/-- Every question is answered and nothing else; the result is a mapping, which has no order. -/
def canonicalizeAnswers (values : List (String × Json)) (questions : List Question) :
    Except InputError Json := do
  ensure (questions ≠ []) .answersInvalid
  ensure ((∀ question ∈ questions, question.key ∈ values.map Prod.fst) ∧
    ∀ value ∈ values, value.1 ∈ questions.map Question.key) .answersInvalid
  let answers ← values.mapM (canonicalizeAnswerTo u sanitize questions)
  .ok (Json.obj answers).canonical

end Rules

/-! ## Tables -/

inductive SessionState where
  | opened
  | sealed
  deriving DecidableEq, Repr

inductive QuestionStatus where
  | pending
  | answered
  | resolved
  | closed
  deriving DecidableEq, Repr

inductive InputStatus where
  | queued
  | applied
  deriving DecidableEq, Repr

inductive InputSource where
  | manual
  | timeoutDefault
  deriving DecidableEq

/-- The columns `kind`, `text`, `question_id` and `answers` of an input. -/
inductive Content where
  | text (text : String)
  | answer (questionId : String) (answers : Json)
  deriving DecidableEq

structure InputRow where
  inputId : String
  attemptId : String
  content : Content
  status : InputStatus
  source : InputSource

structure QuestionRow where
  questions : Json
  status : QuestionStatus
  createdAt : Int

/-- The rows of one run. Inputs stand in the order in which they were inserted. -/
structure Tables where
  sessions : String → Option SessionState
  questions : String × String → Option QuestionRow
  inputs : List InputRow

def Content.isText : Content → Bool
  | .text _ => true
  | .answer _ _ => false

def Content.questionId : Content → Option String
  | .text _ => none
  | .answer questionId _ => some questionId

def InputRow.acknowledge (attemptId : String) (inputIds : List String)
    (row : InputRow) : InputRow :=
  if row.attemptId = attemptId ∧ row.inputId ∈ inputIds then { row with status := .applied }
    else row

def QuestionRow.resolve (row : QuestionRow) : QuestionRow :=
  if row.status = .answered then { row with status := .resolved } else row

namespace Tables

variable (t : Tables)

def getInput (inputId : String) : Option InputRow :=
  t.inputs.find? fun row => row.inputId == inputId

def setQuestion (attemptId questionId : String) (row : QuestionRow) : Tables :=
  { t with questions := Function.update t.questions (attemptId, questionId) (some row) }

def setSession (attemptId : String) (state : SessionState) : Tables :=
  { t with sessions := Function.update t.sessions attemptId (some state) }

def insertInput (row : InputRow) : Tables :=
  { t with inputs := t.inputs ++ [row] }

/-- `insert … on conflict do nothing`, and the row that is then there. -/
def openSession (attemptId : String) : Tables × SessionState :=
  match t.sessions attemptId with
  | none => (t.setSession attemptId .opened, .opened)
  | some state => (t, state)

def publishQuestion (attemptId questionId : String) (questions : Json) (now : Int) :
    Tables × QuestionRow :=
  match t.questions (attemptId, questionId) with
  | none =>
    let row := ⟨questions, .pending, now⟩
    (t.setQuestion attemptId questionId row, row)
  | some row => (t, row)

def completeQuestionRecommendations (attemptId questionId : String) (questions : Json) :
    Option Tables :=
  (t.questions (attemptId, questionId)).map fun row =>
    t.setQuestion attemptId questionId { row with questions }

/-- `update … set status where status = 'pending'` -/
def setQuestionStatus (attemptId questionId : String) (status : QuestionStatus) : Option Tables :=
  match t.questions (attemptId, questionId) with
  | none => none
  | some row =>
    if row.status = .pending then some (t.setQuestion attemptId questionId { row with status })
    else none

def queuedInputs (attemptId : String) : List InputRow :=
  t.inputs.filter fun row => row.attemptId == attemptId && row.status == .queued

def queuedAnswers (attemptId : String) (questionId : Option String) : List InputRow :=
  match questionId with
  | none => t.queuedInputs attemptId
  | some questionId =>
    (t.queuedInputs attemptId).filter fun row => row.content.questionId == some questionId

def queuedText (attemptId : String) : Option InputRow :=
  (t.queuedInputs attemptId).find? fun row => row.content.isText

/-- The questions of the attempt that one of the inputs answers. -/
def AnsweredBy (attemptId : String) (inputIds : List String) (key : String × String) : Prop :=
  key.1 = attemptId ∧ ∃ row ∈ t.inputs, row.attemptId = attemptId ∧ row.inputId ∈ inputIds ∧
    row.content.questionId = some key.2

instance (attemptId : String) (inputIds : List String) (key : String × String) :
    Decidable (t.AnsweredBy attemptId inputIds key) :=
  inferInstanceAs (Decidable (_ ∧ ∃ row ∈ t.inputs, _))

def acknowledged (attemptId : String) (inputIds : List String) : Tables :=
  { t with
    inputs := t.inputs.map (InputRow.acknowledge attemptId inputIds)
    questions := fun key =>
      if t.AnsweredBy attemptId inputIds key then (t.questions key).map QuestionRow.resolve
      else t.questions key }

def acknowledgeInputs (attemptId : String) (inputIds : List String) : Except InputError Tables := do
  ensure (inputIds ≠ []) .ackMismatch
  ensure (∀ inputId ∈ inputIds, ∃ row ∈ t.inputs, row.attemptId = attemptId ∧
    row.inputId = inputId) .ackMismatch
  .ok (t.acknowledged attemptId inputIds)

/-- `update … set state = 'sealed' where state = 'open'`, and the row that is then there. -/
def sealSession (attemptId : String) : Except InputError (Tables × SessionState) :=
  match t.sessions attemptId with
  | none => .error .closed
  | some .opened => .ok (t.setSession attemptId .sealed, .sealed)
  | some .sealed => .ok (t, .sealed)

end Tables

/-! ## The service -/

structure RunRow where
  userId : String
  running : Bool
  cancelRequested : Bool
  currentAttemptId : Option String

def RunRow.activeAttemptId (run : RunRow) : Option String :=
  if run.running ∧ run.cancelRequested = false then run.currentAttemptId else none

structure Submission where
  userId : String
  inputId : String
  text : Option String
  questionId : Option String
  answers : Option (List (String × Json))
  redactPublic : Bool
  source : InputSource

/-- What the hook for manual answers does: nothing, where the question is not one of the host; or it
refuses the answer, or acknowledges the input. -/
inductive ManualAnswerHook where
  | passes
  | refuses
  | acknowledges

namespace InputsService

variable (service : InputsService)

def sanitizer (submission : Submission) : Sanitizer :=
  if submission.redactPublic then service.sanitizeText else id

def storedQuestions (row : QuestionRow) : List Question :=
  publicQuestion service.unicode service.sanitizeText row.questions

def normalizeInputId (value : String) : Except InputError String :=
  match service.uuidText value with
  | some inputId => .ok inputId
  | none => .error .idInvalid

/-- Either a text alone or a question with answers. -/
inductive Shape where
  | text (text : String)
  | answer (questionId : String) (answers : List (String × Json))

def shape (submission : Submission) : Except InputError Shape :=
  match submission.text, submission.questionId, submission.answers, submission.source with
  | some text, none, none, .manual => .ok (.text text)
  | none, some questionId, some answers, _ => .ok (.answer questionId answers)
  | _, _, _, _ => .error .shapeInvalid

def textContent (submission : Submission) (text : String) : Except InputError Content := do
  let text ← sanitizeRunInputText service.unicode (service.sanitizer submission) (some (.str text))
    maxRunInputChars false
  .ok (.text text)

/-- The answers as they are stored, by the question of the attempt. -/
def answerContent (submission : Submission) (questionId : String) (answers : List (String × Json))
    (question : QuestionRow) : Except InputError Content := do
  let answers ← canonicalizeAnswers service.unicode (service.sanitizer submission) answers
    (service.storedQuestions question)
  .ok (.answer questionId answers)

def findQuestion (t : Tables) (attemptId questionId : String) (refusal : InputError) :
    Except InputError QuestionRow :=
  match t.questions (attemptId, questionId) with
  | some row => .ok row
  | none => .error refusal

/-- `_require_same_submission`: the content sent with the id of a stored input. -/
def resubmittedContent (t : Tables) (existing : InputRow) (submission : Submission) :
    Shape → Except InputError Content
  | .text text => do
    ensure existing.content.isText .idConflict
    service.textContent submission text
  | .answer questionId answers => do
    ensure (existing.content.isText = false) .idConflict
    let questionId ← normalizeQuestionId service.unicode questionId
    ensure (existing.content.questionId = some questionId) .idConflict
    let question ← findQuestion t existing.attemptId questionId .idConflict
    service.answerContent submission questionId answers question

def requireSameSubmission (t : Tables) (existing : InputRow) (submission : Submission)
    (shape : Shape) : Except InputError Unit := do
  let content ← service.resubmittedContent t existing submission shape
  ensure (existing.content = content) .idConflict

/-- The attempt that takes inputs: the active one, while its session is open. -/
def openAttempt (run : RunRow) (t : Tables) : Except InputError String :=
  match run.activeAttemptId with
  | none => .error .closed
  | some attemptId => do
    ensure (t.sessions attemptId = some .opened) .closed
    .ok attemptId

def newContent (t : Tables) (attemptId : String) (submission : Submission) :
    Shape → Except InputError Content
  | .text text => service.textContent submission text
  | .answer questionId answers => do
    let questionId ← normalizeQuestionId service.unicode questionId
    let question ← findQuestion t attemptId questionId .questionNotFound
    let content ← service.answerContent submission questionId answers question
    ensure (question.status = .pending) .questionAlreadyAnswered
    .ok content

def runHook (hook : ManualAnswerHook) (t : Tables) (row : InputRow) : Except InputError Tables :=
  match row.source, hook with
  | .timeoutDefault, _ => .ok t
  | .manual, .passes => .ok t
  | .manual, .refuses => .error .recoveryAnswerInvalid
  | .manual, .acknowledges => t.acknowledgeInputs row.attemptId [row.inputId]

/-- An answer moves its question on. -/
def accept (t : Tables) (hook : ManualAnswerHook) (row : InputRow) : Except InputError Tables :=
  match row.content with
  | .text _ => .ok (t.insertInput row)
  | .answer questionId _ =>
    match (t.insertInput row).setQuestionStatus row.attemptId questionId .answered with
    | none => .error .questionAlreadyAnswered
    | some t => runHook hook t row

def submitNew (run : RunRow) (t : Tables) (hook : ManualAnswerHook) (submission : Submission)
    (inputId : String) (shape : Shape) : Except InputError (Tables × InputStatus) := do
  let attemptId ← openAttempt run t
  let content ← service.newContent t attemptId submission shape
  let t ← accept t hook ⟨inputId, attemptId, content, .queued, submission.source⟩
  .ok (t, .queued)

/-- A submission under an id that is known stores nothing. -/
def submitById (run : RunRow) (t : Tables) (hook : ManualAnswerHook) (submission : Submission)
    (inputId : String) (shape : Shape) : Except InputError (Tables × InputStatus) :=
  match t.getInput inputId with
  | some existing => do
    service.requireSameSubmission t existing submission shape
    .ok (t, existing.status)
  | none => service.submitNew run t hook submission inputId shape

/-- `submit`; a run of another owner is not found, and then there is no result. -/
def submit (run : RunRow) (t : Tables) (hook : ManualAnswerHook) (submission : Submission) :
    Except InputError (Tables × Option InputStatus) :=
  if run.userId = submission.userId then do
    let shape ← shape submission
    let inputId ← service.normalizeInputId submission.inputId
    let (t, status) ← service.submitById run t hook submission inputId shape
    .ok (t, some status)
  else .ok (t, none)

/-! ### Callbacks of the executor -/

def mergeOption (stored incoming : QuestionOption) : Option QuestionOption :=
  let merged : QuestionOption := { stored with
    recommended := stored.recommended <|> incoming.recommended }
  let expected : QuestionOption := { incoming with
    recommended := incoming.recommended <|> stored.recommended }
  if merged = expected then some merged else none

def mergeQuestion (stored incoming : Question) : Option Question :=
  if stored.key = incoming.key ∧ stored.question = incoming.question ∧
      stored.header = incoming.header ∧ stored.multiSelect = incoming.multiSelect ∧
      stored.options.length = incoming.options.length then
    ((stored.options.zip incoming.options).mapM fun (old, new) => mergeOption old new).map
      fun options => { stored with options }
  else none

/-- `_complete_legacy_recommendation_metadata` -/
def completeLegacyRecommendationMetadata (stored incoming : List Question) :
    Option (List Question) :=
  if stored.length = incoming.length then
    (stored.zip incoming).mapM fun (old, new) => mergeQuestion old new
  else none

structure Reply where
  state : SessionState
  inputs : List InputRow
  question : Option QuestionRow
  errorCode : Option String

def Reply.plain (state : SessionState) : Reply :=
  ⟨state, [], none, none⟩

/-- What is stored is completed by the recommendations that came in. -/
def storeCompleted (t : Tables) (attemptId questionId : String) (row : QuestionRow)
    (stored compatible : List Question) : Except InputError (Tables × QuestionRow) :=
  if compatible = stored then .ok (t, row)
  else
    match t.completeQuestionRecommendations attemptId questionId (questionsJson compatible) with
    | none => .error .questionIdConflict
    | some t => .ok (t, { row with questions := questionsJson compatible })

def compatibleQuestions (stored incoming : List Question) : Except InputError (List Question) :=
  match completeLegacyRecommendationMetadata stored incoming with
  | some questions => .ok questions
  | none => .error .questionIdConflict

def question (t : Tables) (attemptId questionId : String) (questions : Json) (now : Int) :
    Except InputError (Tables × Reply) := do
  let questionId ← normalizeQuestionId service.unicode questionId
  let canonical ← canonicalizeQuestions service.unicode service.sanitizeText questions
  let published := t.publishQuestion attemptId questionId (questionsJson canonical) now
  let stored := service.storedQuestions published.2
  let compatible ← compatibleQuestions stored canonical
  let (t, row) ← storeCompleted published.1 attemptId questionId published.2 stored compatible
  .ok (t, ⟨.opened, [], some row, none⟩)

/-- A question past its deadline is closed, or answered by its defaults where it has any. The result
says whether the owner is still needed. -/
def expireDue (run : RunRow) (t : Tables) (attemptId questionId newInputId : String)
    (row : QuestionRow) : Except InputError (Tables × Bool) :=
  match defaultQuestionAnswers (service.storedQuestions row) with
  | none => .ok ((t.setQuestionStatus attemptId questionId .closed).getD t, true)
  | some answers =>
    if row.status = .pending then do
      let (t, _) ← service.submit run t .passes
        ⟨run.userId, newInputId, none, some questionId, some answers, true, .timeoutDefault⟩
      .ok (t, false)
    else .ok (t, false)

/-- `_expire_question` -/
def expireQuestion (run : RunRow) (t : Tables) (attemptId questionId newInputId : String)
    (now : Int) : Except InputError (Tables × Bool) :=
  match t.questions (attemptId, questionId) with
  | none => .ok (t, false)
  | some row =>
    if (row.status = .pending ∨ row.status = .closed) ∧
        row.createdAt + runQuestionTimeoutSeconds ≤ now then
      service.expireDue run t attemptId questionId newInputId row
    else .ok (t, false)

def expireAsked (run : RunRow) (t : Tables) (attemptId : String) (questionId : Option String)
    (newInputId : String) (now : Int) : Except InputError (Tables × Bool) :=
  match questionId with
  | none => .ok (t, false)
  | some questionId => service.expireQuestion run t attemptId questionId newInputId now

def normalizeAsked : Option String → Except InputError (Option String)
  | none => .ok none
  | some questionId => do
    let questionId ← normalizeQuestionId service.unicode questionId
    .ok (some questionId)

def poll (run : RunRow) (t : Tables) (attemptId : String) (questionId : Option String)
    (newInputId : String) (now : Int) : Except InputError (Tables × Reply) := do
  let questionId ← service.normalizeAsked questionId
  let (t, needsInput) ← service.expireAsked run t attemptId questionId newInputId now
  if needsInput then .ok (t, ⟨.opened, [], none, some "run_question_needs_input"⟩)
  else .ok (t, ⟨.opened, t.queuedAnswers attemptId questionId, none, none⟩)

def ack (t : Tables) (attemptId : String) (state : SessionState) (inputIds : List String) :
    Except InputError (Tables × Reply) := do
  let inputIds ← inputIds.mapM service.normalizeInputId
  let t ← t.acknowledgeInputs attemptId inputIds
  .ok (t, .plain state)

def settle (t : Tables) (attemptId : String) : Except InputError (Tables × Reply) :=
  match t.queuedText attemptId with
  | some row => .ok (t, ⟨.opened, [row], none, none⟩)
  | none => do
    let (t, state) ← t.sealSession attemptId
    .ok (t, .plain state)

/-- The operations of the callback; `poll` may have to submit the default answers, under a fresh
id. -/
inductive CallbackOperation where
  | opens
  | question (questionId : String) (questions : Json)
  | poll (questionId : Option String) (newInputId : String)
  | ack (inputIds : List String)
  | settle

def callbackIn (run : RunRow) (t : Tables) (attemptId : String) (now : Int) :
    SessionState → CallbackOperation → Except InputError (Tables × Reply)
  | _, .opens => .ok ((t.openSession attemptId).1, .plain (t.openSession attemptId).2)
  | .opened, .question questionId questions => service.question t attemptId questionId questions now
  | .sealed, .question _ _ => .error .closed
  | .opened, .poll questionId newInputId => service.poll run t attemptId questionId newInputId now
  | .sealed, .poll _ _ => .ok (t, .plain .sealed)
  | state, .ack inputIds => service.ack t attemptId state inputIds
  | .opened, .settle => settle t attemptId
  | .sealed, .settle => .ok (t, .plain .sealed)

/-- Only `open` goes without a session. -/
def callbackFor (run : RunRow) (t : Tables) (attemptId : String) (now : Int)
    (operation : CallbackOperation) : Except InputError (Tables × Reply) :=
  match operation, t.sessions attemptId with
  | .opens, _ => service.callbackIn run t attemptId now .opened .opens
  | _, none => .error .closed
  | operation, some state => service.callbackIn run t attemptId now state operation

def callback (run : RunRow) (t : Tables) (attemptId : String) (now : Int)
    (operation : CallbackOperation) : Except InputError (Tables × Reply) := do
  ensure (run.activeAttemptId = some attemptId) .closed
  service.callbackFor run t attemptId now operation

/-- `publish_platform_question`: questions of the host itself. -/
def publishPlatformQuestion (run : RunRow) (t : Tables) (userId attemptId questionId : String)
    (questions : Json) (now : Int) : Except InputError (Tables × QuestionRow) := do
  ensure (run.userId = userId ∧ run.activeAttemptId = some attemptId) .closed
  ensure (t.sessions attemptId = some .opened) .closed
  let canonical ← canonicalizeQuestions service.unicode service.sanitizeText questions
  let questionId ← normalizeQuestionId service.unicode questionId
  let published := t.publishQuestion attemptId questionId (questionsJson canonical) now
  ensure (service.storedQuestions published.2 = canonical) .questionIdConflict
  .ok published

end InputsService

/-! ## A run over time -/

/-- What happens to a run. Its row changes as the run and its attempts go on; the clock may read
anything. -/
inductive InputLabel where
  | runChanges (run : RunRow)
  | submits (submission : Submission) (hook : ManualAnswerHook)
  | callsBack (attemptId : String) (operation : InputsService.CallbackOperation) (now : Int)
  | asks (userId attemptId questionId : String) (questions : Json) (now : Int)

structure RunInputs where
  run : RunRow
  tables : Tables

def RunInputs.put (s : RunInputs) {α : Type} : Except InputError (Tables × α) → RunInputs
  | .ok (tables, _) => { s with tables }
  | .error _ => s

def RunInputs.step (service : InputsService) (s : RunInputs) : InputLabel → RunInputs
  | .runChanges run => { s with run }
  | .submits submission hook => s.put (service.submit s.run s.tables hook submission)
  | .callsBack attemptId operation now =>
    s.put (service.callback s.run s.tables attemptId now operation)
  | .asks userId attemptId questionId questions now =>
    s.put (service.publishPlatformQuestion s.run s.tables userId attemptId questionId questions now)

/-- A run that has had no input yet. -/
def runInputs (service : InputsService) (run : RunRow) : Machine RunInputs InputLabel where
  start := ⟨run, ⟨fun _ => none, fun _ => none, []⟩⟩
  step := RunInputs.step service

end AiPlatform.Runs.Inputs
