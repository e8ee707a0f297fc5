import AiPlatform.Runs.RunInputs
import Mathlib.Logic.Relation

/-!
# Input sessions over whole runs

`Edit` lists what a call can do to the tables of a run, and every call is a sequence of edits. From
the edits follow what holds of an attempt that is sealed, of the answers to a question and of the
status of a question, in every state that a run reaches.
-/
namespace AiPlatform.Runs.Inputs

open AiPlatform.Foundation Relation List

/-! ## Edits -/

/-- What can happen to the tables. `acks` says which texts the executor may have acknowledged. -/
inductive Edit (acks : String → String → Prop) : Tables → Tables → Prop where
  | opens {t : Tables} {attemptId : String} (absent : t.sessions attemptId = none) :
      Edit acks t (t.setSession attemptId .opened)
  | seals {t : Tables} {attemptId : String} (opened : t.sessions attemptId = some .opened)
      (settled : t.queuedText attemptId = none) : Edit acks t (t.setSession attemptId .sealed)
  | asks {t : Tables} {attemptId questionId : String}
      (absent : t.questions (attemptId, questionId) = none) (questions : Json) (createdAt : Int) :
      Edit acks t (t.setQuestion attemptId questionId ⟨questions, .pending, createdAt⟩)
  | completes {t : Tables} {attemptId questionId : String} {row : QuestionRow}
      (found : t.questions (attemptId, questionId) = some row) (questions : Json) :
      Edit acks t (t.setQuestion attemptId questionId { row with questions })
  | closes {t : Tables} {attemptId questionId : String} {row : QuestionRow}
      (found : t.questions (attemptId, questionId) = some row) (pending : row.status = .pending) :
      Edit acks t (t.setQuestion attemptId questionId { row with status := .closed })
  | takesText {t : Tables} {inputId attemptId : String}
      (opened : t.sessions attemptId = some .opened) (fresh : t.getInput inputId = none)
      (text : String) (source : InputSource) :
      Edit acks t (t.insertInput ⟨inputId, attemptId, .text text, .queued, source⟩)
  | takesAnswer {t : Tables} {inputId attemptId questionId : String} {row : QuestionRow}
      (opened : t.sessions attemptId = some .opened) (fresh : t.getInput inputId = none)
      (found : t.questions (attemptId, questionId) = some row) (pending : row.status = .pending)
      (answers : Json) (source : InputSource) :
      Edit acks t ((t.insertInput
        ⟨inputId, attemptId, .answer questionId answers, .queued, source⟩).setQuestion attemptId
          questionId { row with status := .answered })
  | acknowledges {t : Tables} {attemptId : String} {inputIds : List String}
      (allowed : ∀ row ∈ t.inputs, row.attemptId = attemptId → row.inputId ∈ inputIds →
        row.content.isText = true → acks attemptId row.inputId) :
      Edit acks t (t.acknowledged attemptId inputIds)

abbrev Edits (acks : String → String → Prop) : Tables → Tables → Prop :=
  ReflTransGen (Edit acks)

variable {t t' : Tables} {acks : String → String → Prop}

theorem inputId_ne_of_getInput {inputId : String} (h : t.getInput inputId = none) :
    ∀ row ∈ t.inputs, row.inputId ≠ inputId := by
  intro row hrow
  have := find?_eq_none.mp h row hrow
  simpa using this

/-! ## Calls are sequences of edits -/

theorem acknowledgeInputs_edits {attemptId : String} {inputIds : List String}
    (h : t.acknowledgeInputs attemptId inputIds = .ok t')
    (hallowed : ∀ row ∈ t.inputs, row.attemptId = attemptId → row.inputId ∈ inputIds →
      row.content.isText = true → acks attemptId row.inputId) : Edits acks t t' := by
  obtain ⟨-, h⟩ := ensure_bind_eq_ok.mp h
  obtain ⟨-, h⟩ := ensure_bind_eq_ok.mp h
  cases h
  exact .single (.acknowledges hallowed)

namespace InputsService

variable {service : InputsService} {run : RunRow} {t t' : Tables}

variable {acks : String → String → Prop} {hook : ManualAnswerHook} {attemptId questionId : String}
  {now : Int}

/-- Where the hook acknowledges the input, it is the answer that was just stored. -/
theorem runHook_edits {row : InputRow} (h : runHook hook t row = .ok t')
    (hanswer : ∀ other ∈ t.inputs, other.inputId = row.inputId → other.content.isText = false) :
    Edits acks t t' := by
  unfold runHook at h
  split at h
  · cases h
    exact .refl
  · cases h
    exact .refl
  · cases h
  · refine acknowledgeInputs_edits h fun other hother _ hid htext => ?_
    rw [hanswer other hother (mem_singleton.mp hid)] at htext
    cases htext

theorem accept_edits {inputId : String} {content : Content} {source : InputSource}
    (hopened : t.sessions attemptId = some .opened) (hfresh : t.getInput inputId = none)
    (h : accept t hook ⟨inputId, attemptId, content, .queued, source⟩ = .ok t') :
    Edits acks t t' := by
  cases content with
  | text text =>
    cases h
    exact .single (.takesText hopened hfresh text source)
  | answer questionId answers =>
    simp only [accept, Tables.setQuestionStatus, Tables.insertInput] at h
    cases hfound : t.questions (attemptId, questionId) with
    | none => simp [hfound] at h
    | some row =>
      simp only [hfound] at h
      split_ifs at h with hpending
      · refine .head (.takesAnswer hopened hfresh hfound hpending answers source) ?_
        refine runHook_edits h fun other hother hid => ?_
        rcases mem_append.mp hother with hother | hother
        · exact absurd hid (inputId_ne_of_getInput hfresh other hother)
        · rw [mem_singleton.mp hother]
          rfl

theorem submitNew_edits {submission : Submission} {inputId : String} {shape : Shape}
    {status : InputStatus} (hfresh : t.getInput inputId = none)
    (h : service.submitNew run t hook submission inputId shape = .ok (t', status)) :
    Edits acks t t' := by
  obtain ⟨attemptId, hattempt, h⟩ := bind_eq_ok.mp h
  obtain ⟨content, -, h⟩ := bind_eq_ok.mp h
  obtain ⟨stored, hstored, h⟩ := bind_eq_ok.mp h
  cases h
  unfold openAttempt at hattempt
  split at hattempt
  · cases hattempt
  · obtain ⟨hopened, hattempt⟩ := ensure_bind_eq_ok.mp hattempt
    cases hattempt
    exact accept_edits hopened hfresh hstored

theorem submit_edits {submission : Submission} {status : Option InputStatus}
    (h : service.submit run t hook submission = .ok (t', status)) :
    Edits acks t t' := by
  unfold submit at h
  split_ifs at h
  · obtain ⟨shape, -, h⟩ := bind_eq_ok.mp h
    obtain ⟨inputId, -, h⟩ := bind_eq_ok.mp h
    obtain ⟨⟨stored, status⟩, hstored, h⟩ := bind_eq_ok.mp h
    cases h
    unfold submitById at hstored
    split at hstored
    · obtain ⟨_, -, hstored⟩ := bind_eq_ok.mp hstored
      cases hstored
      exact .refl
    · rename_i hfresh
      exact submitNew_edits hfresh hstored
  · cases h
    exact .refl

theorem publishQuestion_edits {questions : Json} :
    Edits acks t (t.publishQuestion attemptId questionId questions now).1 := by
  unfold Tables.publishQuestion
  split
  · rename_i habsent
    exact .single (.asks habsent questions now)
  · exact .refl

theorem storeCompleted_edits {row row' : QuestionRow} {stored compatible : List Question}
    (h : storeCompleted t attemptId questionId row stored compatible = .ok (t', row')) :
    Edits acks t t' := by
  unfold storeCompleted at h
  split_ifs at h
  · cases h
    exact .refl
  · simp only [Tables.completeQuestionRecommendations] at h
    split at h
    · cases h
    · rename_i hcompleted
      obtain ⟨found, hfound, rfl⟩ := Option.map_eq_some_iff.mp hcompleted
      cases h
      exact .single (.completes hfound _)

variable {reply : Reply} {newInputId : String}

theorem question_edits {questions : Json}
    (h : service.question t attemptId questionId questions now = .ok (t', reply)) :
    Edits acks t t' := by
  obtain ⟨questionId, -, h⟩ := bind_eq_ok.mp h
  obtain ⟨canonical, -, h⟩ := bind_eq_ok.mp h
  obtain ⟨compatible, -, h⟩ := bind_eq_ok.mp h
  obtain ⟨⟨stored, row⟩, hstored, h⟩ := bind_eq_ok.mp h
  cases h
  exact publishQuestion_edits.trans (storeCompleted_edits hstored)

theorem expireDue_edits {row : QuestionRow} {needed : Bool}
    (h : service.expireDue run t attemptId questionId newInputId row = .ok (t', needed)) :
    Edits acks t t' := by
  unfold expireDue at h
  split at h
  · cases h
    simp only [Tables.setQuestionStatus]
    split
    · exact .refl
    · rename_i found hfound
      split_ifs with hpending
      · exact .single (.closes hfound hpending)
      · exact .refl
  · split_ifs at h
    · obtain ⟨⟨stored, status⟩, hstored, h⟩ := bind_eq_ok.mp h
      cases h
      exact submit_edits hstored
    · cases h
      exact .refl

theorem expireAsked_edits {questionId : Option String} {needed : Bool}
    (h : service.expireAsked run t attemptId questionId newInputId now = .ok (t', needed)) :
    Edits acks t t' := by
  unfold expireAsked expireQuestion at h
  split at h
  · cases h
    exact .refl
  · split at h
    · cases h
      exact .refl
    · split_ifs at h
      · exact expireDue_edits h
      · cases h
        exact .refl

theorem poll_edits {questionId : Option String}
    (h : service.poll run t attemptId questionId newInputId now = .ok (t', reply)) :
    Edits acks t t' := by
  obtain ⟨asked, -, h⟩ := bind_eq_ok.mp h
  obtain ⟨⟨expired, needed⟩, hexpired, h⟩ := bind_eq_ok.mp h
  have hedits : Edits acks t expired := expireAsked_edits hexpired
  cases needed with
  | true =>
    cases h
    exact hedits
  | false =>
    cases h
    exact hedits

theorem settle_edits (h : settle t attemptId = .ok (t', reply)) :
    Edits acks t t' := by
  unfold settle at h
  split at h
  · cases h
    exact .refl
  · rename_i hsettled
    obtain ⟨⟨sealed, state⟩, hsealed, h⟩ := bind_eq_ok.mp h
    cases h
    unfold Tables.sealSession at hsealed
    split at hsealed
    · cases hsealed
    · rename_i hopened
      cases hsealed
      exact .single (.seals hopened hsettled)
    · cases hsealed
      exact .refl

theorem openSession_edits :
    Edits acks t (t.openSession attemptId).1 := by
  unfold Tables.openSession
  split
  · rename_i habsent
    exact .single (.opens habsent)
  · exact .refl

end InputsService

/-- The executor acknowledges the input of the attempt. -/
def InputLabel.Acks (service : InputsService) (l : InputLabel)
    (attemptId inputId : String) : Prop :=
  ∃ inputIds normalized now, l = .callsBack attemptId (.ack inputIds) now ∧
    inputIds.mapM service.normalizeInputId = .ok normalized ∧ inputId ∈ normalized

namespace InputsService

variable {service : InputsService} {run : RunRow} {t t' : Tables}

theorem callback_edits {attemptId : String} {operation : CallbackOperation} {now : Int}
    {reply : Reply} (h : service.callback run t attemptId now operation = .ok (t', reply)) :
    Edits ((InputLabel.callsBack attemptId operation now).Acks service) t t' := by
  obtain ⟨-, h⟩ := ensure_bind_eq_ok.mp h
  unfold callbackFor callbackIn at h
  cases operation with
  | opens =>
    cases h
    exact openSession_edits
  | question questionId questions =>
    cases hsession : t.sessions attemptId with
    | none => simp [hsession] at h
    | some state =>
      cases state with
      | opened => exact question_edits (by simpa only [hsession] using h)
      | sealed => simp [hsession] at h
  | poll questionId newInputId =>
    cases hsession : t.sessions attemptId with
    | none => simp [hsession] at h
    | some state =>
      cases state with
      | opened => exact poll_edits (by simpa only [hsession] using h)
      | sealed =>
        simp only [hsession] at h
        cases h
        exact .refl
  | ack inputIds =>
    cases hsession : t.sessions attemptId with
    | none => simp [hsession] at h
    | some state =>
      have hack : service.ack t attemptId state inputIds = .ok (t', reply) := by
        cases state <;> simpa only [hsession] using h
      obtain ⟨normalized, hnormalized, hack⟩ := bind_eq_ok.mp hack
      obtain ⟨stored, hstored, hack⟩ := bind_eq_ok.mp hack
      cases hack
      refine acknowledgeInputs_edits hstored fun row _ _ hid _ => ?_
      exact ⟨inputIds, normalized, now, rfl, hnormalized, hid⟩
  | settle =>
    cases hsession : t.sessions attemptId with
    | none => simp [hsession] at h
    | some state =>
      cases state with
      | opened => exact settle_edits (by simpa only [hsession] using h)
      | sealed =>
        simp only [hsession] at h
        cases h
        exact .refl

theorem publishPlatformQuestion_edits {userId attemptId questionId : String} {questions : Json}
    {now : Int} {row : QuestionRow} {acks : String → String → Prop}
    (h : service.publishPlatformQuestion run t userId attemptId questionId questions now =
      .ok (t', row)) : Edits acks t t' := by
  obtain ⟨-, h⟩ := ensure_bind_eq_ok.mp h
  obtain ⟨-, h⟩ := ensure_bind_eq_ok.mp h
  obtain ⟨canonical, -, h⟩ := bind_eq_ok.mp h
  obtain ⟨questionId, -, h⟩ := bind_eq_ok.mp h
  obtain ⟨-, h⟩ := ensure_bind_eq_ok.mp h
  obtain rfl : _ = t' := congrArg Prod.fst (Except.ok.inj h)
  exact publishQuestion_edits

end InputsService

theorem RunInputs.put_edits {s : RunInputs} {α : Type} {result : Except InputError (Tables × α)}
    (h : ∀ t a, result = .ok (t, a) → Edits acks s.tables t) :
    Edits acks s.tables (s.put result).tables := by
  cases result with
  | error refusal => exact .refl
  | ok stored => exact h stored.1 stored.2 rfl

theorem step_edits (service : InputsService) (s : RunInputs) (l : InputLabel) :
    Edits (l.Acks service) s.tables (s.step service l).tables := by
  cases l with
  | runChanges run => exact .refl
  | submits submission hook => exact RunInputs.put_edits fun _ _ => InputsService.submit_edits
  | callsBack attemptId operation now =>
    exact RunInputs.put_edits fun _ _ => InputsService.callback_edits
  | asks userId attemptId questionId questions now =>
    exact RunInputs.put_edits fun _ _ => InputsService.publishPlatformQuestion_edits

/-! ## What edits keep -/

/-- A question goes from pending to answered and resolved, or from pending to closed. -/
def QuestionStatus.Reaches : QuestionStatus → QuestionStatus → Prop
  | .pending, _ => True
  | .answered, status => status = .answered ∨ status = .resolved
  | .resolved, status => status = .resolved
  | .closed, status => status = .closed

theorem QuestionStatus.Reaches.refl (status : QuestionStatus) : status.Reaches status := by
  cases status <;> simp [Reaches]

theorem QuestionStatus.Reaches.trans {first second third : QuestionStatus}
    (h : first.Reaches second) (h' : second.Reaches third) : first.Reaches third := by
  cases first <;> cases second <;> simp_all [Reaches]

/-- The inputs that were accepted for an attempt, without their status. -/
def Tables.accepted (t : Tables) (attemptId : String) : List (String × Content) :=
  (t.inputs.filter fun row => row.attemptId == attemptId).map fun row => (row.inputId, row.content)

/-- What is for good: an accepted input, a session that is sealed, the inputs accepted until then,
and the way a question has gone. -/
structure Advances (t t' : Tables) : Prop where
  grows : ∀ a, t.accepted a <+: t'.accepted a
  sealed : ∀ a, t.sessions a = some .sealed → t'.sessions a = some .sealed
  accepted : ∀ a, t.sessions a = some .sealed → t'.accepted a = t.accepted a
  question : ∀ key row, t.questions key = some row →
    ∃ row', t'.questions key = some row' ∧ row.status.Reaches row'.status

/-- No input is accepted. -/
theorem Advances.of_accepted_eq {t t' : Tables} (haccepted : ∀ a, t'.accepted a = t.accepted a)
    (hsealed : ∀ a, t.sessions a = some .sealed → t'.sessions a = some .sealed)
    (hquestion : ∀ key row, t.questions key = some row →
      ∃ row', t'.questions key = some row' ∧ row.status.Reaches row'.status) : Advances t t' where
  grows a := by rw [haccepted]
  sealed := hsealed
  accepted a _ := haccepted a
  question := hquestion

theorem Advances.refl (t : Tables) : Advances t t :=
  .of_accepted_eq (fun _ => rfl) (fun _ h => h) fun _ row h => ⟨row, h, .refl _⟩

theorem Advances.trans {t₁ t₂ t₃ : Tables} (h : Advances t₁ t₂) (h' : Advances t₂ t₃) :
    Advances t₁ t₃ where
  grows a := (h.grows a).trans (h'.grows a)
  sealed a ha := h'.sealed a (h.sealed a ha)
  accepted a ha := (h'.accepted a (h.sealed a ha)).trans (h.accepted a ha)
  question key row hrow := by
    obtain ⟨row₂, hrow₂, hreach⟩ := h.question key row hrow
    obtain ⟨row₃, hrow₃, hreach'⟩ := h'.question key row₂ hrow₂
    exact ⟨row₃, hrow₃, hreach.trans hreach'⟩

section Tables

variable {t : Tables}

theorem questions_setQuestion (attemptId questionId : String) (row : QuestionRow)
    (key : String × String) : (t.setQuestion attemptId questionId row).questions key =
      if key = (attemptId, questionId) then some row else t.questions key := by
  simp only [Tables.setQuestion, Function.update_apply]

theorem sessions_setSession (attemptId : String) (state : SessionState) (a : String) :
    (t.setSession attemptId state).sessions a =
      if a = attemptId then some state else t.sessions a := by
  simp only [Tables.setSession, Function.update_apply]

theorem accepted_insertInput (row : InputRow) (a : String) : (t.insertInput row).accepted a =
    t.accepted a ++ if row.attemptId = a then [(row.inputId, row.content)] else [] := by
  by_cases h : row.attemptId = a <;> simp [Tables.accepted, Tables.insertInput, h]

theorem acknowledge_eq (attemptId : String) (inputIds : List String) (row : InputRow) :
    (row.acknowledge attemptId inputIds).inputId = row.inputId ∧
      (row.acknowledge attemptId inputIds).attemptId = row.attemptId ∧
      (row.acknowledge attemptId inputIds).content = row.content := by
  unfold InputRow.acknowledge
  split_ifs <;> simp

theorem accepted_acknowledged (attemptId : String) (inputIds : List String) (a : String) :
    (t.acknowledged attemptId inputIds).accepted a = t.accepted a := by
  have hrow := acknowledge_eq attemptId inputIds
  simp only [Tables.accepted, Tables.acknowledged, List.filter_map, List.map_map]
  congr 1
  · funext row
    simp [(hrow row).1, (hrow row).2.2]
  · refine List.filter_congr fun row _ => ?_
    simp [(hrow row).2.1]

/-- A question that is set to a status within reach has advanced, and the others stay. -/
theorem reaches_setQuestion {attemptId questionId : String} {row : QuestionRow}
    (h : ∀ old, t.questions (attemptId, questionId) = some old → old.status.Reaches row.status) :
    ∀ key old, t.questions key = some old →
      ∃ row', (t.setQuestion attemptId questionId row).questions key = some row' ∧
        old.status.Reaches row'.status := by
  intro key old hold
  rw [questions_setQuestion]
  split_ifs with heq
  · subst heq
    exact ⟨row, rfl, h old hold⟩
  · exact ⟨old, hold, .refl _⟩

theorem reaches_resolve (row : QuestionRow) : row.status.Reaches row.resolve.status := by
  unfold QuestionRow.resolve
  split_ifs with h
  · simp [h, QuestionStatus.Reaches]
  · exact .refl _

end Tables

theorem Edit.advances (h : Edit acks t t') :
    Advances t t' := by
  cases h with
  | opens absent =>
    refine .of_accepted_eq (fun _ => rfl) (fun a ha => ?_) fun key row hrow => ⟨row, hrow, .refl _⟩
    rw [sessions_setSession]
    grind
  | seals opened settled =>
    refine .of_accepted_eq (fun _ => rfl) (fun a ha => ?_) fun key row hrow => ⟨row, hrow, .refl _⟩
    rw [sessions_setSession]
    grind
  | asks absent questions createdAt =>
    exact .of_accepted_eq (fun _ => rfl) (fun _ ha => ha) (reaches_setQuestion (by simp [absent]))
  | completes found questions =>
    refine .of_accepted_eq (fun _ => rfl) (fun _ ha => ha) (reaches_setQuestion fun old hold => ?_)
    rw [found, Option.some_inj] at hold
    exact hold ▸ .refl _
  | closes found pending =>
    refine .of_accepted_eq (fun _ => rfl) (fun _ ha => ha) (reaches_setQuestion fun old hold => ?_)
    rw [found, Option.some_inj] at hold
    simp [← hold, pending, QuestionStatus.Reaches]
  | takesText opened fresh text source =>
    refine ⟨fun a => ?_, fun _ ha => ha, fun a ha => ?_, fun key row hrow => ⟨row, hrow, .refl _⟩⟩
    · exact ⟨_, (accepted_insertInput _ a).symm⟩
    · rw [accepted_insertInput]
      grind
  | takesAnswer opened fresh found pending answers source =>
    refine ⟨fun a => ?_, fun _ ha => ha, fun a ha => ?_, fun key row hrow => ?_⟩
    · exact ⟨_, (accepted_insertInput _ a).symm⟩
    · refine (accepted_insertInput _ a).trans ?_
      grind
    · refine reaches_setQuestion (fun old hold => ?_) key row hrow
      obtain rfl := Option.some_inj.mp (found.symm.trans hold)
      simp [pending, QuestionStatus.Reaches]
  | acknowledges allowed =>
    refine .of_accepted_eq (accepted_acknowledged _ _) (fun _ ha => ha) fun key row hrow => ?_
    simp only [Tables.acknowledged, hrow]
    split_ifs
    · exact ⟨row.resolve, rfl, reaches_resolve row⟩
    · exact ⟨row, rfl, .refl _⟩

theorem Edits.advances (h : Edits acks t t') :
    Advances t t' := by
  induction h with
  | refl => exact .refl t
  | tail _ hedit ih => exact ih.trans hedit.advances

/-! ## Texts and answers -/

def Tables.answersTo (t : Tables) (attemptId questionId : String) : List InputRow :=
  t.inputs.filter fun row => row.attemptId == attemptId && row.content.questionId == some questionId

/-- A question that was answered has one answer, any other has none. -/
def answerCount : Option QuestionRow → Nat
  | none => 0
  | some row => if row.status = .answered ∨ row.status = .resolved then 1 else 0

/-- `acked` says which inputs the executor has acknowledged. -/
structure Tables.Sound (acked : String → String → Prop) (t : Tables) : Prop where
  sealed : ∀ a, t.sessions a = some .sealed → ∀ row ∈ t.inputs, row.attemptId = a →
    row.content.isText = true → row.status = .applied
  applied : ∀ row ∈ t.inputs, row.content.isText = true → row.status = .applied →
    acked row.attemptId row.inputId
  answers : ∀ a q, (t.answersTo a q).length = answerCount (t.questions (a, q))

namespace Tables.Sound

variable {acked : String → String → Prop} {t : Tables}

theorem mono {acked' : String → String → Prop} (h : t.Sound acked)
    (hacked : ∀ a id, acked a id → acked' a id) : t.Sound acked' :=
  { h with
    applied := fun row hrow htext happlied => hacked _ _ (h.applied row hrow htext happlied) }

variable {attemptId : String}

/-- A question may be set where the number of its answers is the one that its status calls for. -/
theorem setQuestion (h : t.Sound acked) {questionId : String} {row : QuestionRow}
    (hcount : answerCount (some row) = answerCount (t.questions (attemptId, questionId))) :
    (t.setQuestion attemptId questionId row).Sound acked := by
  refine { h with answers := fun a q => ?_ }
  rw [questions_setQuestion]
  split_ifs with heq
  · obtain ⟨rfl, rfl⟩ := Prod.mk.inj heq
    rw [hcount]
    exact h.answers a q
  · exact h.answers a q

theorem queuedText_eq_none (h : t.queuedText attemptId = none) :
    ∀ row ∈ t.inputs, row.attemptId = attemptId → row.content.isText = true →
      row.status = .applied := by
  intro row hrow hattempt htext
  have hnot := find?_eq_none.mp h row
  simp only [Tables.queuedInputs, mem_filter] at hnot
  cases hstatus : row.status with
  | applied => rfl
  | queued => exact absurd htext (hnot ⟨hrow, by simp [hattempt, hstatus]⟩)

theorem seals (h : t.Sound acked) (hsettled : t.queuedText attemptId = none) :
    (t.setSession attemptId .sealed).Sound acked := by
  refine { h with sealed := fun a ha row hrow hattempt htext => ?_ }
  rw [sessions_setSession] at ha
  split_ifs at ha with heq
  · exact queuedText_eq_none hsettled row hrow (hattempt.trans heq) htext
  · exact h.sealed a ha row hrow hattempt htext

theorem opens (h : t.Sound acked) :
    (t.setSession attemptId .opened).Sound acked := by
  refine { h with sealed := fun a ha => ?_ }
  rw [sessions_setSession] at ha
  split_ifs at ha
  · cases ha
  · exact h.sealed a ha

variable {inputId : String}

section

variable (h : t.Sound acked) (hopened : t.sessions attemptId = some .opened)
include h hopened

/-- An input that is queued, for an attempt that is open. -/
theorem insertInput {content : Content} {source : InputSource} :
    let row : InputRow := ⟨inputId, attemptId, content, .queued, source⟩
    (∀ a, (t.insertInput row).sessions a = some .sealed → ∀ x ∈ (t.insertInput row).inputs,
      x.attemptId = a → x.content.isText = true → x.status = .applied) ∧
    ∀ x ∈ (t.insertInput row).inputs, x.content.isText = true → x.status = .applied →
      acked x.attemptId x.inputId := by
  intro row
  refine ⟨fun a ha x hx hattempt htext => ?_, fun x hx htext happlied => ?_⟩
  · rcases mem_append.mp hx with hx | hx
    · exact h.sealed a ha x hx hattempt htext
    · obtain rfl := mem_singleton.mp hx
      subst hattempt
      cases hopened.symm.trans ha
  · rcases mem_append.mp hx with hx | hx
    · exact h.applied x hx htext happlied
    · obtain rfl := mem_singleton.mp hx
      cases happlied

theorem takesText (text : String) (source : InputSource) :
    (t.insertInput ⟨inputId, attemptId, .text text, .queued, source⟩).Sound acked := by
  obtain ⟨hsealed, happlied⟩ := h.insertInput hopened
  refine ⟨hsealed, happlied, fun a q => ?_⟩
  simpa [Tables.answersTo, Tables.insertInput, Content.questionId] using h.answers a q

theorem takesAnswer {questionId : String} {row : QuestionRow}
    (hfound : t.questions (attemptId, questionId) = some row) (hpending : row.status = .pending)
    (answers : Json) (source : InputSource) :
    ((t.insertInput ⟨inputId, attemptId, .answer questionId answers, .queued, source⟩).setQuestion
      attemptId questionId { row with status := .answered }).Sound acked := by
  obtain ⟨hsealed, happlied⟩ := h.insertInput hopened
  refine ⟨hsealed, happlied, fun a q => ?_⟩
  have hbefore := h.answers a q
  rw [questions_setQuestion]
  simp only [Tables.answersTo, Tables.setQuestion, Tables.insertInput, filter_append,
    length_append] at hbefore ⊢
  by_cases hkey : (a, q) = (attemptId, questionId)
  · obtain ⟨rfl, rfl⟩ := Prod.mk.inj hkey
    rw [hbefore, hfound]
    simp [answerCount, hpending, Content.questionId]
  · have hother : ¬(attemptId = a ∧ questionId = q) := by
      rintro ⟨rfl, rfl⟩
      exact hkey rfl
    rw [hbefore, if_neg hkey]
    simp [Content.questionId, hother]

end

theorem answerCount_resolve (row : QuestionRow) :
    answerCount (some row.resolve) = answerCount (some row) := by
  unfold QuestionRow.resolve
  split_ifs with h <;> simp [answerCount, h]

theorem acknowledges (h : t.Sound acked) {inputIds : List String}
    (hallowed : ∀ row ∈ t.inputs, row.attemptId = attemptId → row.inputId ∈ inputIds →
      row.content.isText = true → acked attemptId row.inputId) :
    (t.acknowledged attemptId inputIds).Sound acked := by
  have hrow := acknowledge_eq attemptId inputIds
  refine ⟨fun a ha x hx hattempt htext => ?_, fun x hx htext happlied => ?_, fun a q => ?_⟩
  · obtain ⟨row, hmem, rfl⟩ := mem_map.mp hx
    rw [(hrow row).2.1] at hattempt
    rw [(hrow row).2.2] at htext
    have hbefore := h.sealed a ha row hmem hattempt htext
    unfold InputRow.acknowledge
    split_ifs <;> simp [hbefore]
  · obtain ⟨row, hmem, rfl⟩ := mem_map.mp hx
    rw [(hrow row).2.2] at htext
    rw [(hrow row).1, (hrow row).2.1]
    unfold InputRow.acknowledge at happlied
    split_ifs at happlied with hacked
    · exact hacked.1 ▸ hallowed row hmem hacked.1 hacked.2 htext
    · exact h.applied row hmem htext happlied
  · have hsame : ((t.acknowledged attemptId inputIds).answersTo a q).length =
        (t.answersTo a q).length := by
      simp only [Tables.answersTo, Tables.acknowledged, filter_map, length_map]
      congr 1
      refine filter_congr fun row _ => ?_
      simp [(hrow row).2.1, (hrow row).2.2]
    rw [hsame, h.answers]
    simp only [Tables.acknowledged]
    split_ifs
    · cases t.questions (a, q) with
      | none => rfl
      | some row => exact (answerCount_resolve row).symm
    · rfl

end Tables.Sound

variable {acked : String → String → Prop}

theorem Edit.sound (h : Edit acks t t') (hacks : ∀ a id, acks a id → acked a id)
    (ht : t.Sound acked) : t'.Sound acked := by
  cases h with
  | opens absent => exact ht.opens
  | seals opened settled => exact ht.seals settled
  | asks absent questions createdAt => exact ht.setQuestion (by simp [answerCount, absent])
  | completes found questions => exact ht.setQuestion (by simp [answerCount, found])
  | closes found pending => exact ht.setQuestion (by simp [answerCount, found, pending])
  | takesText opened fresh text source => exact ht.takesText opened text source
  | takesAnswer opened fresh found pending answers source =>
    exact ht.takesAnswer opened found pending answers source
  | acknowledges allowed =>
    exact ht.acknowledges fun row hrow ha hid htext => hacks _ _ (allowed row hrow ha hid htext)

theorem Edits.sound (h : Edits acks t t') (hacks : ∀ a id, acks a id → acked a id)
    (ht : t.Sound acked) : t'.Sound acked := by
  induction h with
  | refl => exact ht
  | tail _ hedit ih => exact hedit.sound hacks ih

/-! ## Every run -/

section Runs

variable (service : InputsService) (run : RunRow)

/-- One of the labels acknowledges the input. -/
def Acknowledged (ls : List InputLabel) (attemptId inputId : String) : Prop :=
  ∃ l ∈ ls, l.Acks service attemptId inputId

theorem run_sound (ls : List InputLabel) :
    ((runInputs service run).run ls).tables.Sound (Acknowledged service ls) := by
  induction ls using List.reverseRecOn with
  | nil =>
      exact ⟨by simp [Machine.run, runInputs], by simp [Machine.run, runInputs], fun _ _ => rfl⟩
  | append_singleton ls l ih =>
    rw [Machine.run_append]
    refine (step_edits service _ l).sound (fun a id hl => ⟨l, by simp, hl⟩) (ih.mono ?_)
    rintro a id ⟨l', hl', hacks⟩
    exact ⟨l', mem_append_left _ hl', hacks⟩

theorem run_advances (ls later : List InputLabel) :
    Advances ((runInputs service run).run ls).tables
      ((runInputs service run).run (ls ++ later)).tables := by
  induction later using List.reverseRecOn with
  | nil => simpa using Advances.refl _
  | append_singleton later l ih =>
    rw [← append_assoc, Machine.run_append]
    exact ih.trans (step_edits service _ l).advances

end Runs

/-! ## Resubmission -/

namespace InputsService

variable (service : InputsService)

/-- The content of a submission as the service would store it for the attempt. -/
def shapedContent (t : Tables) (attemptId : String) (submission : Submission) :
    Shape → Except InputError Content
  | .text text => service.textContent submission text
  | .answer questionId answers => do
    let questionId ← normalizeQuestionId service.unicode questionId
    let question ← findQuestion t attemptId questionId .questionNotFound
    service.answerContent submission questionId answers question

def sanitizedContent (t : Tables) (attemptId : String) (submission : Submission) :
    Except InputError Content := do
  let shape ← shape submission
  service.shapedContent t attemptId submission shape

variable {service}

variable {submission : Submission}

theorem textContent_isText {text : String} {content : Content}
    (h : service.textContent submission text = .ok content) : content.isText = true := by
  obtain ⟨stored, -, h⟩ := bind_eq_ok.mp h
  cases h
  rfl

theorem answerContent_questionId {questionId : String} {answers : List (String × Json)}
    {question : QuestionRow} {content : Content}
    (h : service.answerContent submission questionId answers question = .ok content) :
    content.isText = false ∧ content.questionId = some questionId := by
  obtain ⟨stored, -, h⟩ := bind_eq_ok.mp h
  cases h
  exact ⟨rfl, rfl⟩

theorem findQuestion_eq_ok {t : Tables} {attemptId questionId : String} {refusal : InputError}
    {question : QuestionRow} : findQuestion t attemptId questionId refusal = .ok question ↔
      t.questions (attemptId, questionId) = some question := by
  unfold findQuestion
  split <;> simp_all

/-- The checks against the stored input are implied by the comparison with its content. -/
theorem requireSameSubmission_eq_ok {t : Tables} {existing : InputRow} {shape : Shape} :
    service.requireSameSubmission t existing submission shape = .ok () ↔
      service.shapedContent t existing.attemptId submission shape = .ok existing.content := by
  have hsame : ∀ {content : Content},
      (ensure (existing.content = content) .idConflict : Except InputError Unit) = .ok () ↔
        existing.content = content := by
    intro content
    unfold ensure
    split_ifs with h <;> simp [h]
  cases shape with
  | text text =>
    constructor
    · intro h
      obtain ⟨content, hcontent, h⟩ := bind_eq_ok.mp h
      obtain ⟨-, hcontent⟩ := ensure_bind_eq_ok.mp hcontent
      rw [hsame.mp h]
      exact hcontent
    · intro h
      refine bind_eq_ok.mpr ⟨existing.content, ?_, hsame.mpr rfl⟩
      exact ensure_bind_eq_ok.mpr ⟨textContent_isText h, h⟩
  | answer questionId answers =>
    constructor
    · intro h
      obtain ⟨content, hcontent, h⟩ := bind_eq_ok.mp h
      obtain ⟨-, hcontent⟩ := ensure_bind_eq_ok.mp hcontent
      obtain ⟨normalized, hnormalized, hcontent⟩ := bind_eq_ok.mp hcontent
      obtain ⟨-, hcontent⟩ := ensure_bind_eq_ok.mp hcontent
      obtain ⟨question, hquestion, hcontent⟩ := bind_eq_ok.mp hcontent
      rw [hsame.mp h]
      refine bind_eq_ok.mpr ⟨normalized, hnormalized, bind_eq_ok.mpr ⟨question, ?_, hcontent⟩⟩
      exact findQuestion_eq_ok.mpr (findQuestion_eq_ok.mp hquestion)
    · intro h
      obtain ⟨normalized, hnormalized, h⟩ := bind_eq_ok.mp h
      obtain ⟨question, hquestion, h⟩ := bind_eq_ok.mp h
      obtain ⟨hanswer, hid⟩ := answerContent_questionId h
      refine bind_eq_ok.mpr ⟨existing.content, ?_, hsame.mpr rfl⟩
      refine ensure_bind_eq_ok.mpr ⟨hanswer, bind_eq_ok.mpr ⟨normalized, hnormalized, ?_⟩⟩
      refine ensure_bind_eq_ok.mpr ⟨hid, bind_eq_ok.mpr ⟨question, ?_, h⟩⟩
      exact findQuestion_eq_ok.mpr (findQuestion_eq_ok.mp hquestion)

/-- A submission under the id of a stored input does nothing where its content is the stored one,
and is refused otherwise. -/
theorem submit_of_existing {run : RunRow} {t : Tables} {hook : ManualAnswerHook} {inputId : String}
    {existing : InputRow} (howner : run.userId = submission.userId)
    (hid : service.normalizeInputId submission.inputId = .ok inputId)
    (hexisting : t.getInput inputId = some existing) :
    if service.sanitizedContent t existing.attemptId submission = .ok existing.content then
      service.submit run t hook submission = .ok (t, some existing.status)
    else ∃ refusal, service.submit run t hook submission = .error refusal := by
  unfold submit sanitizedContent
  simp only [howner, if_true]
  cases hshape : shape submission with
  | error refusal => exact ⟨refusal, rfl⟩
  | ok shape =>
    simp only [ok_bind, hid, submitById, hexisting]
    split_ifs with hsame
    · rw [requireSameSubmission_eq_ok.mpr hsame]
      rfl
    · cases hrequire : service.requireSameSubmission t existing submission shape with
      | error refusal => exact ⟨refusal, rfl⟩
      | ok _ => exact absurd (requireSameSubmission_eq_ok.mp hrequire) hsame

/-! ## New submissions -/

variable {run : RunRow} {t t' : Tables} {hook : ManualAnswerHook} {attemptId inputId : String}

theorem shapedContent_of_newContent {shape : Shape} {content : Content}
    (h : service.newContent t attemptId submission shape = .ok content) :
    service.shapedContent t attemptId submission shape = .ok content := by
  cases shape with
  | text text => exact h
  | answer questionId answers =>
    obtain ⟨normalized, hnormalized, h⟩ := bind_eq_ok.mp h
    obtain ⟨question, hquestion, h⟩ := bind_eq_ok.mp h
    obtain ⟨content, hcontent, h⟩ := bind_eq_ok.mp h
    obtain ⟨-, h⟩ := ensure_bind_eq_ok.mp h
    cases h
    exact bind_eq_ok.mpr ⟨normalized, hnormalized, bind_eq_ok.mpr ⟨question, hquestion, hcontent⟩⟩

theorem accepted_runHook {row : InputRow} (h : runHook hook t row = .ok t') (a : String) :
    t'.accepted a = t.accepted a := by
  unfold runHook at h
  split at h
  · cases h
    rfl
  · cases h
    rfl
  · cases h
  · obtain ⟨-, h⟩ := ensure_bind_eq_ok.mp h
    obtain ⟨-, h⟩ := ensure_bind_eq_ok.mp h
    cases h
    exact accepted_acknowledged ..

theorem accepted_accept {row : InputRow} (h : accept t hook row = .ok t') :
    t'.accepted row.attemptId = t.accepted row.attemptId ++ [(row.inputId, row.content)] := by
  have hinserted := accepted_insertInput (t := t) row row.attemptId
  rw [if_pos rfl] at hinserted
  unfold accept at h
  split at h
  · cases h
    exact hinserted
  · split at h
    · cases h
    · rename_i asked hasked
      unfold Tables.setQuestionStatus at hasked
      split at hasked
      · cases hasked
      · split_ifs at hasked
        cases hasked
        exact (accepted_runHook h _).trans hinserted

/-- A submission under a new id is answered only where the session of the active attempt is open,
and then its content has been added to the inputs of the attempt. -/
theorem submit_of_new {answer : Option InputStatus} (howner : run.userId = submission.userId)
    (hid : service.normalizeInputId submission.inputId = .ok inputId)
    (hnew : t.getInput inputId = none)
    (h : service.submit run t hook submission = .ok (t', answer)) :
    ∃ attemptId content, run.activeAttemptId = some attemptId ∧
      t.sessions attemptId = some .opened ∧
      service.sanitizedContent t attemptId submission = .ok content ∧ answer = some .queued ∧
      t'.accepted attemptId = t.accepted attemptId ++ [(inputId, content)] := by
  rw [submit, if_pos howner] at h
  obtain ⟨shape, hshape, h⟩ := bind_eq_ok.mp h
  rw [hid, ok_bind] at h
  simp only [submitById, hnew] at h
  obtain ⟨⟨stored, status⟩, hstored, h⟩ := bind_eq_ok.mp h
  obtain ⟨attemptId, hattempt, hstored⟩ := bind_eq_ok.mp hstored
  obtain ⟨content, hcontent, hstored⟩ := bind_eq_ok.mp hstored
  obtain ⟨inserted, hinserted, hstored⟩ := bind_eq_ok.mp hstored
  cases hstored
  cases h
  unfold openAttempt at hattempt
  split at hattempt
  · cases hattempt
  · rename_i hactive
    obtain ⟨hopened, hattempt⟩ := ensure_bind_eq_ok.mp hattempt
    cases hattempt
    exact ⟨attemptId, content, hactive, hopened,
      bind_eq_ok.mpr ⟨shape, hshape, shapedContent_of_newContent hcontent⟩, rfl,
      accepted_accept hinserted⟩

end InputsService

/-! ## The whole -/

theorem answersTo_length_le (h : t.Sound acked) (attemptId questionId : String) :
    (t.answersTo attemptId questionId).length ≤ 1 := by
  rw [h.answers]
  unfold answerCount
  split
  · exact Nat.zero_le 1
  · split_ifs <;> omega

/-- In every run, whatever the clock reads: an attempt that is sealed stays sealed, takes no further
input, and its texts have all been acknowledged; a submission under a new id is refused unless the
session of the active attempt is open, and one that is answered is an input of that attempt from
then on; a question has at most one answer and goes from pending to answered and resolved, or from
pending to closed; and a submission under a known id either repeats the stored content and changes
nothing, or is refused. -/
theorem input_sessions_lose_nothing (service : InputsService) (run : RunRow)
    (ls : List InputLabel) :
    let reached := (runInputs service run).run ls
    (∀ attemptId, reached.tables.sessions attemptId = some .sealed →
      (∀ row ∈ reached.tables.inputs, row.attemptId = attemptId → row.content.isText = true →
        row.status = .applied ∧ Acknowledged service ls attemptId row.inputId) ∧
      ∀ later, let reached' := (runInputs service run).run (ls ++ later)
        reached'.tables.sessions attemptId = some .sealed ∧
          reached'.tables.accepted attemptId = reached.tables.accepted attemptId) ∧
    (∀ submission hook inputId, reached.run.userId = submission.userId →
      service.normalizeInputId submission.inputId = .ok inputId →
      reached.tables.getInput inputId = none →
      ((∀ attemptId, reached.run.activeAttemptId = some attemptId →
          reached.tables.sessions attemptId ≠ some .opened) →
        ∃ refusal, service.submit reached.run reached.tables hook submission = .error refusal) ∧
      ∀ stored answer,
        service.submit reached.run reached.tables hook submission = .ok (stored, answer) →
        ∃ attemptId content, reached.run.activeAttemptId = some attemptId ∧
          reached.tables.sessions attemptId = some .opened ∧
          service.sanitizedContent reached.tables attemptId submission = .ok content ∧
          answer = some .queued ∧
          ∀ later, (inputId, content) ∈ ((runInputs service run).run
            (ls ++ [.submits submission hook] ++ later)).tables.accepted attemptId) ∧
    (∀ attemptId questionId, (reached.tables.answersTo attemptId questionId).length ≤ 1) ∧
    (∀ key row later, reached.tables.questions key = some row →
      ∃ row', ((runInputs service run).run (ls ++ later)).tables.questions key = some row' ∧
        row.status.Reaches row'.status) ∧
    ∀ submission hook inputId existing, reached.run.userId = submission.userId →
      service.normalizeInputId submission.inputId = .ok inputId →
      reached.tables.getInput inputId = some existing →
      if service.sanitizedContent reached.tables existing.attemptId submission =
          .ok existing.content then
        service.submit reached.run reached.tables hook submission =
          .ok (reached.tables, some existing.status)
      else ∃ refusal,
        service.submit reached.run reached.tables hook submission = .error refusal := by
  have hsound := run_sound service run ls
  refine ⟨fun attemptId hsealed => ⟨fun row hrow hattempt htext => ?_, fun later => ?_⟩,
    fun submission hook inputId howner hid hnew => ⟨fun hshut => ?_, fun stored answer h => ?_⟩,
    ?_, ?_, ?_⟩
  · have happlied := hsound.sealed attemptId hsealed row hrow hattempt htext
    exact ⟨happlied, hattempt ▸ hsound.applied row hrow htext happlied⟩
  · have hadvances := run_advances service run ls later
    exact ⟨hadvances.sealed attemptId hsealed, hadvances.accepted attemptId hsealed⟩
  · cases h : service.submit ((runInputs service run).run ls).run
        ((runInputs service run).run ls).tables hook submission with
    | error refusal => exact ⟨refusal, rfl⟩
    | ok result =>
      obtain ⟨attemptId, _, hactive, hopened, -⟩ := InputsService.submit_of_new howner hid hnew h
      exact absurd hopened (hshut attemptId hactive)
  · obtain ⟨attemptId, content, hactive, hopened, hcontent, hanswer, haccepted⟩ :=
      InputsService.submit_of_new howner hid hnew h
    refine ⟨attemptId, content, hactive, hopened, hcontent, hanswer, fun later => ?_⟩
    have hstep :
      ((runInputs service run).run (ls ++ [.submits submission hook])).tables = stored := by
      rw [Machine.run_append]
      exact congrArg (fun result => (RunInputs.put _ result).tables) h
    refine ((run_advances service run _ later).grows attemptId).subset ?_
    rw [hstep, haccepted]
    simp
  · exact answersTo_length_le hsound
  · intro key row later hrow
    exact (run_advances service run ls later).question key row hrow
  · intro submission hook inputId existing howner hid hexisting
    exact InputsService.submit_of_existing howner hid hexisting

def plainService : InputsService := ⟨.ascii, id, some⟩

def startedRun : RunRow := ⟨"owner", true, false, some "a"⟩

def sentText (inputId text : String) : Submission :=
  ⟨"owner", inputId, some text, none, none, true, .manual⟩

/-- A text is taken, shown to the executor, acknowledged, and then the session is sealed. -/
def sealedRun : List InputLabel :=
  [.callsBack "a" .opens 0, .submits (sentText "i" "text") .passes, .callsBack "a" .settle 1,
    .callsBack "a" (.ack ["i"]) 2, .callsBack "a" .settle 3]

theorem input_sessions_lose_nothing_sealedRun :
    let reached := (runInputs plainService startedRun).run sealedRun
    reached.tables.sessions "a" = some .sealed ∧
      reached.tables.accepted "a" = [("i", .text "text")] ∧
      Acknowledged plainService sealedRun "a" "i" ∧
      ∃ refusal, plainService.submit reached.run reached.tables .passes (sentText "j" "late") =
        .error refusal := by
  obtain ⟨hsealed, hnew, -⟩ := input_sessions_lose_nothing plainService startedRun sealedRun
  refine ⟨by decide, by decide, ((hsealed "a" (by decide)).1 _ (mem_singleton.mpr rfl) rfl rfl).2,
    (hnew (sentText "j" "late") .passes "j" rfl rfl rfl).1 fun attemptId hactive => ?_⟩
  cases hactive
  decide

end AiPlatform.Runs.Inputs
