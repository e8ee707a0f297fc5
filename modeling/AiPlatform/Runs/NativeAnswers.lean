import AiPlatform.Foundation.JsonPath
import AiPlatform.Foundation.KeyedLists
import AiPlatform.Runs.QuestionReads

/-!
# Native questions and their answers

The executor's questions are published under ordinal keys, with sanitized texts. The answers come
back under the same keys and are converted to the labels that the executor knows.
-/
namespace AiPlatform.Runs.Inputs

open AiPlatform.Foundation AiPlatform.Kernel AiPlatform.Context List

structure NativeOption where
  label : String
  description : Json
  deriving DecidableEq

structure NativeQuestion where
  question : String
  header : Json
  multiSelect : Json
  options : List NativeOption
  deriving DecidableEq

inductive InteractionError where
  | inputInvalid
  | answersInvalid
  deriving DecidableEq

def InteractionError.code : InteractionError → String
  | .inputInvalid => "run_question_input_invalid"
  | .answersInvalid => "run_question_answers_invalid"

/-- `bool(value)` -/
def truthy : Json → Bool
  | .null => false
  | .bool b => b
  | .int n => n ≠ 0
  | .float text => text ≠ ['0', '.', '0'] ∧ text ≠ ['-', '0', '.', '0']
  | .str text => text ≠ ""
  | .arr items => items ≠ []
  | .obj members => members ≠ []

/-- `mapping.get(key) or default` -/
def memberOr (value : Json) (key default : String) : Json :=
  ((value.get? key).filter truthy).getD (.str default)

/-- `mapping[key]`, which is later found to be a string. -/
def stringMember (value : Json) (key : String) : Except InteractionError String :=
  match value.get? key with
  | some (.str text) => .ok text
  | _ => .error .inputInvalid

/-- What `for option in item["options"]` runs over. A text and a mapping have members that are no
mappings, unless they are empty. -/
def optionItems : Option Json → Except InteractionError (List Json)
  | some (.arr options) => .ok options
  | some (.str "") | some (.obj []) => .ok []
  | _ => .error .inputInvalid

def nativeOption (option : Json) : Except InteractionError NativeOption := do
  let label ← stringMember option "label"
  .ok ⟨label, memberOr option "description" ""⟩

def nativeQuestion (item : Json) : Except InteractionError NativeQuestion := do
  let question ← stringMember item "question"
  let items ← optionItems (item.get? "options")
  let options ← items.mapM nativeOption
  ensure (options.map NativeOption.label).Nodup .inputInvalid
  .ok ⟨question, memberOr item "header" "Question",
    (item.get? "multiSelect").getD (.bool false), options⟩

def nativeQuestions (toolInput : Json) : Except InteractionError (List NativeQuestion) :=
  match toolInput.get? "questions" with
  | some (.arr items) => do
    let questions ← items.mapM nativeQuestion
    ensure (1 ≤ questions.length ∧ questions.length ≤ 4 ∧
      (questions.map NativeQuestion.question).Nodup) .inputInvalid
    .ok questions
  | _ => .error .inputInvalid

section Projection

variable (u : Unicode) (shown : Json → String)

/-- `sanitize_text(value) or fallback` -/
def shownOr (value : Json) (fallback : String) : Json :=
  .str (if shown value = "" then fallback else shown value)

def projectOption (option : NativeOption) (index : Nat) : Json :=
  .obj ([("key", .str ("o" ++ toString index)),
    ("label", shownOr shown (.str option.label) ("Option " ++ toString (index + 1))),
    ("description", .str (shown option.description))] ++
    if isRecommendedQuestionOption u (some (.str option.label)) then [("recommended", .bool true)]
    else [])

def projectQuestion (native : NativeQuestion) (index : Nat) : Json :=
  .obj [("key", .str ("q" ++ toString index)),
    ("question", shownOr shown (.str native.question) ("Question " ++ toString (index + 1))),
    ("header", shownOr shown native.header "Question"), ("multiSelect", native.multiSelect),
    ("options", .arr (native.options.zipIdx.map fun (option, j) => projectOption u shown option j))]

def projectQuestions (natives : List NativeQuestion) : Json :=
  .arr (natives.zipIdx.map fun (native, i) => projectQuestion u shown native i)

end Projection

/-- The keys of the members of a list. -/
def ordinals {α : Type} (mark : String) (members : List α) : List String :=
  members.zipIdx.map fun m => mark ++ toString m.2

/-- `options[key]` -/
def nativeLabel (native : NativeQuestion) : Json → Except InteractionError String
  | .str key =>
    expect ((native.options.zipIdx.map fun (option, j) => ("o" ++ toString j, option.label)).lookup
      key) .answersInvalid
  | _ => .error .answersInvalid

def nativeAnswer (u : Unicode) (native : NativeQuestion) : Json → Except InteractionError Json
  | .obj [("text", .str text)] => do
    ensure (strip u text ≠ "") .answersInvalid
    .ok (.str text)
  | .str key => do
    ensure (truthy native.multiSelect = false) .answersInvalid
    let label ← nativeLabel native (.str key)
    .ok (.str label)
  | .arr keys => do
    ensure (truthy native.multiSelect ∧ keys ≠ [] ∧ keys.Nodup) .answersInvalid
    let labels ← keys.mapM (nativeLabel native)
    .ok (.arr (labels.map .str))
  | _ => .error .answersInvalid

def nativeEntry (u : Unicode) (answers : List (String × Json)) (entry : NativeQuestion × Nat) :
    Except InteractionError (String × Json) := do
  let answer ← expect (answers.lookup ("q" ++ toString entry.2)) .answersInvalid
  let converted ← nativeAnswer u entry.1 answer
  .ok (entry.1.question, converted)

/-- The answers by the text of their question; these texts are distinct. -/
def nativeAnswers (u : Unicode) (answers : List (String × Json)) (natives : List NativeQuestion) :
    Except InteractionError (List (String × Json)) := do
  ensure ((∀ key ∈ answers.map Prod.fst, key ∈ ordinals "q" natives) ∧
    ∀ key ∈ ordinals "q" natives, key ∈ answers.map Prod.fst) .answersInvalid
  natives.zipIdx.mapM (nativeEntry u answers)

/-! ## What is published keeps the shape of the native questions -/

theorem ordinal_injective (mark : String) : Function.Injective fun i : Nat =>
    mark ++ toString i := by
  intro i j h
  simpa using h

theorem nodup_ordinals {α : Type} (mark : String) (members : List α) :
    (ordinals mark members).Nodup := by
  have hrange : (members.zipIdx.map Prod.snd).Nodup := by
    rw [zipIdx_map_snd]
    exact nodup_range'
  have hordinals := hrange.map (ordinal_injective mark)
  rwa [map_map] at hordinals

/-- All of a question but its texts. -/
def Question.shape (question : Question) : String × List String × Json :=
  (question.key, question.options.map QuestionOption.key, .bool question.multiSelect)

def NativeQuestion.shape (native : NativeQuestion × Nat) : String × List String × Json :=
  ("q" ++ toString native.2, ordinals "o" native.1.options, native.1.multiSelect)

variable {u : Unicode} {sanitize : Sanitizer} {native : NativeQuestion} {i : Nat}
  {question : Question} {natives : List NativeQuestion} {questions : List Question}

theorem canonicalizeQuestions_shape {shown : Json → String}
    (h : canonicalizeQuestions u sanitize (projectQuestions u shown natives) = .ok questions) :
    questions.map Question.shape = natives.zipIdx.map NativeQuestion.shape := by
  obtain ⟨-, hmap⟩ := ensure_bind_eq_ok.mp h
  rw [zipIdx_map_zipIdx, mapM_map] at hmap
  refine map_of_mapM_eq_ok hmap fun native question hone => ?_
  obtain ⟨-, -, hkey, -, -, ⟨options, hoptions, -, hread⟩, hselect⟩ :=
    canonicalizeQuestion_eq_ok.mp hone
  obtain rfl := Json.arr.inj (Option.some.inj hoptions)
  rw [zipIdx_map_zipIdx, mapM_map] at hread
  have hkeys := map_of_mapM_eq_ok hread fun option shown hoption =>
    (canonicalizeOption_eq_ok.mp hoption).2.2.1
  rw [Question.shape, hkey, hkeys, ← Option.some.inj hselect]
  rfl

/-! ## Answers to published questions convert -/

/-- What an answer becomes: a text stays, the key of an option turns into the label that stands at
its position. -/
inductive Converts (native : NativeQuestion) : Json → Json → Prop
  | text (text : String) : Converts native (.obj [("text", .str text)]) (.str text)
  | one {j : Nat} {option : NativeOption} (h : native.options[j]? = some option) :
    Converts native (.str ("o" ++ toString j)) (.str option.label)
  | many {chosen : List (NativeOption × Nat)} (h : ∀ c ∈ chosen, native.options[c.2]? = some c.1) :
    Converts native (.arr (chosen.map fun c => .str ("o" ++ toString c.2)))
      (.arr (chosen.map fun c => .str c.1.label))

theorem nativeLabel_ordinal {j : Nat} {option : NativeOption}
    (h : native.options[j]? = some option) :
    nativeLabel native (.str ("o" ++ toString j)) = .ok option.label := by
  refine expect_eq_ok.mpr ((Json.lookup_eq_some_iff_mem ?_).mpr ?_)
  · rw [map_map]
    exact nodup_ordinals "o" native.options
  · exact mem_map.mpr ⟨(option, j), mk_mem_zipIdx_iff_getElem?.mpr h, rfl⟩

theorem mapM_selectedKey {items : List Json} {selected : List String} :
    items.mapM (selectedKey question) = .ok selected ↔
      items = selected.map .str ∧ ∀ key ∈ selected,
        key ∈ question.options.map QuestionOption.key := by
  have hone : ∀ item key, selectedKey question item = .ok key ↔
      item = .str key ∧ key ∈ question.options.map QuestionOption.key := by
    intro item key
    unfold selectedKey
    split
    · rw [ensure_bind_eq_ok]
      grind
    · grind
  simp only [mapM_eq_ok, hone]
  induction selected generalizing items with
  | nil => simp
  | cons key selected ih =>
    cases items with
    | nil => simp
    | cons item items =>
      simp only [forall₂_cons, ih, map_cons, List.cons.injEq, forall_mem_cons]
      tauto

section

variable (h : question.shape = NativeQuestion.shape (native, i))
include h

theorem optionKeys_eq_ordinals :
    question.options.map QuestionOption.key = ordinals "o" native.options :=
  congrArg (·.2.1) h

theorem exists_chosen {keys : List String}
    (hkeys : ∀ key ∈ keys, key ∈ question.options.map QuestionOption.key) :
    ∃ chosen : List (NativeOption × Nat), (∀ c ∈ chosen, native.options[c.2]? = some c.1) ∧
      (chosen.map fun c => "o" ++ toString c.2) = keys := by
  induction keys with
  | nil => exact ⟨[], by simp⟩
  | cons key keys ih =>
    have hkey := hkeys key mem_cons_self
    rw [optionKeys_eq_ordinals h] at hkey
    obtain ⟨c, hc, rfl⟩ := mem_map.mp hkey
    obtain ⟨chosen, hchosen, rfl⟩ := ih fun key hkey => hkeys key (mem_cons_of_mem _ hkey)
    exact ⟨c :: chosen, forall_mem_cons.mpr ⟨mk_mem_zipIdx_iff_getElem?.mp hc, hchosen⟩, rfl⟩

theorem canonicalizeAnswer_converts {answer stored : Json}
    (hanswer : canonicalizeAnswer u sanitize question answer = .ok stored) :
    stored.canonical = stored ∧
      ∃ converted, nativeAnswer u native stored = .ok converted ∧
        Converts native stored converted := by
  have hselect : .bool question.multiSelect = native.multiSelect := congrArg (·.2.2) h
  unfold canonicalizeAnswer at hanswer
  split at hanswer
  · obtain ⟨text, htext, hstored⟩ := bind_eq_ok.mp hanswer
    obtain rfl := Except.ok.inj hstored
    obtain ⟨_, -, -, hvisible, -, rfl⟩ := sanitizeRunInputText_eq_ok.mp htext
    refine ⟨rfl, _, ensure_bind_eq_ok.mpr ⟨?_, rfl⟩, .text _⟩
    simpa using hvisible
  · rw [ensure_bind_eq_ok] at hanswer
    obtain ⟨⟨hsingle, hkey⟩, hstored⟩ := hanswer
    obtain rfl := Except.ok.inj hstored
    obtain ⟨chosen, hchosen, hone⟩ := exists_chosen h (forall_mem_singleton.mpr hkey)
    obtain ⟨⟨option, j⟩, rfl, rfl⟩ := map_eq_singleton_iff.mp hone
    have hoption := forall_mem_singleton.mp hchosen
    refine ⟨rfl, _, ensure_bind_eq_ok.mpr ⟨by rw [← hselect, hsingle]; rfl, ?_⟩, .one hoption⟩
    exact bind_eq_ok.mpr ⟨_, nativeLabel_ordinal hoption, rfl⟩
  · rw [ensure_bind_eq_ok] at hanswer
    obtain ⟨⟨hmulti, hne, -⟩, hanswer⟩ := hanswer
    obtain ⟨selected, hselected, hanswer⟩ := bind_eq_ok.mp hanswer
    rw [ensure_bind_eq_ok] at hanswer
    obtain ⟨hnodup, hstored⟩ := hanswer
    obtain rfl := Except.ok.inj hstored
    obtain ⟨rfl, hkeys⟩ := mapM_selectedKey.mp hselected
    obtain ⟨chosen, hchosen, rfl⟩ := exists_chosen h hkeys
    have hlabels : ((chosen.map fun c => "o" ++ toString c.2).map Json.str).mapM
        (nativeLabel native) = .ok (chosen.map fun c => c.1.label) := by
      rw [mapM_eq_ok, forall₂_map_left_iff, forall₂_map_left_iff,
        forall₂_map_right_iff, forall₂_same]
      exact fun c hc => nativeLabel_ordinal (hchosen c hc)
    refine ⟨?_, _, ensure_bind_eq_ok.mpr ⟨⟨by rw [← hselect, hmulti]; rfl, hne, ?_⟩,
      bind_eq_ok.mpr ⟨_, hlabels, rfl⟩⟩, ?_⟩
    · rw [Json.canonical_arr, map_map]
      rfl
    · exact hnodup.map fun _ _ => Json.str.inj
    · rw [map_map, map_map]
      exact .many hchosen
  · cases hanswer

/-- The answer that stands in for a question at its timeout. -/
theorem canonicalizeAnswer_default {entry : String × Json}
    (hentry : defaultAnswer question = some entry) :
    entry.1 = question.key ∧ ∃ stored,
      canonicalizeAnswer u sanitize question entry.2 = .ok stored := by
  obtain ⟨selected, hselected, rfl⟩ := Option.map_eq_some_iff.mp hentry
  obtain ⟨hne, hsub⟩ : selected ≠ [] ∧
      selected.Sublist (question.options.map QuestionOption.key) := by
    unfold defaultSelection at hselected
    split at hselected
    · cases hselected
    · rename_i first rest hoptions
      obtain rfl := Option.some.inj hselected
      split_ifs with hnone
      · refine ⟨by simp, ?_⟩
        rw [hoptions, map_cons]
        exact (nil_sublist _).cons_cons _
      · exact ⟨hnone, filter_sublist.map _⟩
  refine ⟨rfl, ?_⟩
  cases hmulti : question.multiSelect with
  | true =>
    have hnodup : selected.Nodup := by
      refine List.Nodup.sublist hsub ?_
      rw [optionKeys_eq_ordinals h]
      exact nodup_ordinals "o" native.options
    have hlength := hsub.length_le
    rw [length_map] at hlength
    exact ⟨_, ensure_bind_eq_ok.mpr ⟨⟨hmulti, by simpa using hne, by simpa using hlength⟩,
      bind_eq_ok.mpr ⟨selected, mapM_selectedKey.mpr ⟨rfl, hsub.subset⟩,
        ensure_bind_eq_ok.mpr ⟨hnodup, rfl⟩⟩⟩⟩
  | false =>
    obtain ⟨key, rest, rfl⟩ := exists_cons_of_ne_nil hne
    exact ⟨_, ensure_bind_eq_ok.mpr ⟨⟨hmulti, hsub.subset mem_cons_self⟩, rfl⟩⟩

end

theorem canonicalizeAnswerTo_eq_ok {answer result : String × Json}
    (h : canonicalizeAnswerTo u sanitize questions answer = .ok result) :
    result.1 = answer.1 ∧ ∃ question ∈ questions, question.key = answer.1 ∧
      canonicalizeAnswer u sanitize question answer.2 = .ok result.2 := by
  unfold canonicalizeAnswerTo at h
  split at h
  · cases h
  · rename_i question hfind
    obtain ⟨value, hvalue, hresult⟩ := bind_eq_ok.mp h
    obtain rfl := Except.ok.inj hresult
    have hkey := find?_some hfind
    exact ⟨rfl, question, mem_of_find?_eq_some hfind, by simpa using hkey, hvalue⟩

theorem canonicalizeAnswers_eq_ok {values stored : List (String × Json)}
    (h : canonicalizeAnswers u sanitize values questions = .ok (.obj stored)) :
    (∀ question ∈ questions, question.key ∈ stored.map Prod.fst) ∧
      ∀ entry ∈ stored, ∃ question ∈ questions, question.key = entry.1 ∧ ∃ answer value,
        canonicalizeAnswer u sanitize question answer = .ok value ∧ entry.2 = value.canonical := by
  rw [canonicalizeAnswers, ensure_bind_eq_ok, ensure_bind_eq_ok] at h
  obtain ⟨-, ⟨hanswered, -⟩, h⟩ := h
  obtain ⟨answers, hanswers, h⟩ := bind_eq_ok.mp h
  rw [Json.canonical_obj] at h
  obtain rfl := Json.obj.inj (Except.ok.inj h)
  have hperm := Json.sortMembers_perm (answers.map fun m => (m.1, m.2.canonical))
  have hmap := mapM_eq_ok_iff_map.mp hanswers
  constructor
  · intro question hquestion
    obtain ⟨value, hvalue, hkey⟩ := mem_map.mp (hanswered question hquestion)
    obtain ⟨result, hresult, hto⟩ := mem_map.mp (hmap ▸ mem_map_of_mem hvalue)
    have hsame := (canonicalizeAnswerTo_eq_ok hto.symm).1
    rw [(hperm.map Prod.fst).mem_iff, map_map, ← hkey, ← hsame]
    exact mem_map_of_mem hresult
  · intro entry hentry
    obtain ⟨result, hresult, rfl⟩ := mem_map.mp (hperm.mem_iff.mp hentry)
    obtain ⟨value, -, hto⟩ := mem_map.mp (hmap ▸ mem_map_of_mem hresult)
    obtain ⟨hsame, question, hquestion, hkey, hvalue⟩ := canonicalizeAnswerTo_eq_ok hto
    exact ⟨question, hquestion, hkey.trans hsame.symm, _, _, hvalue, rfl⟩

theorem mapM_defaultAnswer {defaults : List (String × Json)}
    (h : questions.mapM defaultAnswer = some defaults) :
    questions.map defaultAnswer = defaults.map some := by
  induction questions generalizing defaults with
  | nil =>
    obtain rfl : [] = defaults := by simpa using h
    rfl
  | cons question questions ih =>
    simp only [mapM_cons, Option.bind_eq_bind, Option.bind_eq_some_iff, Option.pure_def,
      Option.some.injEq] at h
    obtain ⟨entry, hentry, rest, hrest, rfl⟩ := h
    rw [map_cons, map_cons, hentry, ih hrest]

section

variable (h : questions.map Question.shape = natives.zipIdx.map NativeQuestion.shape)
include h

theorem keys_eq_ordinals : questions.map Question.key = ordinals "q" natives := by
  have hkeys := congrArg (List.map Prod.fst) h
  rwa [map_map, map_map] at hkeys

theorem exists_native (hquestion : question ∈ questions) :
    ∃ native i, natives[i]? = some native ∧ question.shape = NativeQuestion.shape (native, i) := by
  obtain ⟨⟨native, i⟩, hmem, hshape⟩ := mem_map.mp (h ▸ mem_map_of_mem hquestion)
  exact ⟨native, i, mk_mem_zipIdx_iff_getElem?.mp hmem, hshape.symm⟩

/-- Each native question finds its answer, and the answer converts. -/
theorem nativeEntry_converts {values stored : List (String × Json)}
    (hstored : canonicalizeAnswers u sanitize values questions = .ok (.obj stored))
    (hnative : natives[i]? = some native) :
    ∃ answer converted, stored.lookup ("q" ++ toString i) = some answer ∧
      nativeEntry u stored (native, i) = .ok (native.question, converted) ∧
        Converts native answer converted := by
  obtain ⟨hkeys, hentries⟩ := canonicalizeAnswers_eq_ok hstored
  have hasked : "q" ++ toString i ∈ questions.map Question.key := by
    rw [keys_eq_ordinals h]
    exact mem_map.mpr ⟨_, mk_mem_zipIdx_iff_getElem?.mpr hnative, rfl⟩
  obtain ⟨asked, hmem, hkey⟩ := mem_map.mp hasked
  obtain ⟨entry, hentry, hfirst⟩ := mem_map.mp (hkeys asked hmem)
  obtain ⟨answer, hanswer⟩ := Option.isSome_iff_exists.mp
    (lookup_isSome_iff.mpr ⟨entry, hentry, beq_iff_eq.mpr (hfirst.trans hkey).symm⟩)
  obtain ⟨question, hquestion, hsame, _, value, hvalue, heq⟩ :=
    hentries _ (Json.mem_of_lookup hanswer)
  obtain ⟨native', j, hnative', hshape⟩ := exists_native h hquestion
  obtain rfl : j = i := ordinal_injective "q" ((congrArg Prod.fst hshape).symm.trans hsame)
  obtain rfl : native' = native := Option.some.inj (hnative'.symm.trans hnative)
  obtain ⟨hcanonical, converted, hconverted, hconverts⟩ := canonicalizeAnswer_converts hshape hvalue
  obtain rfl : answer = value := heq.trans hcanonical
  exact ⟨answer, converted, hanswer, expect_bind_eq_ok.mpr ⟨answer, hanswer,
    bind_eq_ok.mpr ⟨converted, hconverted, rfl⟩⟩, hconverts⟩

theorem defaults_accepted {defaults : List (String × Json)}
    (hdefaults : defaultQuestionAnswers questions = some defaults) :
    ∃ stored, canonicalizeAnswers u sanitize defaults questions = .ok (.obj stored) := by
  unfold defaultQuestionAnswers at hdefaults
  split at hdefaults
  · cases hdefaults
  · rename_i hne
    have hmap := mapM_defaultAnswer hdefaults
    have haccepts : ∀ question ∈ questions, ∀ entry, defaultAnswer question = some entry →
        entry.1 = question.key ∧
          ∃ stored, canonicalizeAnswer u sanitize question entry.2 = .ok stored := by
      intro question hquestion entry hentry
      obtain ⟨native, i, -, hshape⟩ := exists_native h hquestion
      exact canonicalizeAnswer_default hshape hentry
    have hasked : ∀ entry ∈ defaults, ∃ question ∈ questions, defaultAnswer question = some entry :=
      fun entry hentry => mem_map.mp (hmap ▸ mem_map_of_mem hentry)
    have hone : ∀ entry ∈ defaults,
        ∃ result, canonicalizeAnswerTo u sanitize questions entry = .ok result := by
      intro entry hentry
      obtain ⟨question, hquestion, hdefault⟩ := hasked entry hentry
      obtain ⟨hkey, stored, hstored⟩ := haccepts question hquestion entry hdefault
      have hfind : questions.find? (fun other => other.key == question.key) = some question :=
        find?_key (keys_eq_ordinals h ▸ nodup_ordinals "q" natives) hquestion
      refine ⟨(question.key, stored), ?_⟩
      rw [canonicalizeAnswerTo, hkey, hfind]
      exact bind_eq_ok.mpr ⟨stored, hstored, rfl⟩
    obtain ⟨answers, hanswers⟩ := exists_mapM_eq_ok hone
    refine ⟨_, ensure_bind_eq_ok.mpr ⟨hne, ensure_bind_eq_ok.mpr ⟨⟨?_, ?_⟩,
      bind_eq_ok.mpr ⟨answers, hanswers, congrArg Except.ok (Json.canonical_obj answers)⟩⟩⟩⟩
    · intro question hquestion
      obtain ⟨entry, hentry, hdefault⟩ := mem_map.mp (hmap ▸ mem_map_of_mem hquestion)
      rw [← (haccepts question hquestion entry hdefault.symm).1]
      exact mem_map_of_mem hentry
    · intro entry hentry
      obtain ⟨question, hquestion, hdefault⟩ := hasked entry hentry
      rw [(haccepts question hquestion entry hdefault).1]
      exact mem_map_of_mem hquestion

end

theorem nativeEntries_fst {answers result : List (String × Json)}
    (h : natives.zipIdx.mapM (nativeEntry u answers) = .ok result) :
    result.map Prod.fst = natives.map NativeQuestion.question := by
  have hfirst : result.map Prod.fst = natives.zipIdx.map fun entry => entry.1.question := by
    refine map_of_mapM_eq_ok h fun entry answer hanswer => ?_
    obtain ⟨_, -, hanswer⟩ := expect_bind_eq_ok.mp hanswer
    obtain ⟨_, -, hanswer⟩ := bind_eq_ok.mp hanswer
    exact congrArg Prod.fst (Except.ok.inj hanswer).symm
  conv_rhs => rw [← zipIdx_map_fst 0 natives, map_map]
  exact hfirst

theorem nodup_of_nativeQuestions {toolInput : Json} (h : nativeQuestions toolInput = .ok natives) :
    (natives.map NativeQuestion.question).Nodup := by
  unfold nativeQuestions at h
  split at h
  · obtain ⟨_, -, h⟩ := bind_eq_ok.mp h
    rw [ensure_bind_eq_ok] at h
    exact Except.ok.inj h.2 ▸ h.1.2.2
  · cases h

/-- The answers stored for published questions convert: each native question gets one answer, with
the labels the executor asked with. The answers of a timeout are stored like others. -/
theorem nativeAnswers_of_canonicalizeAnswers (u : Unicode) (shown : Json → String)
    (sanitize sanitizeAnswer : Sanitizer) (toolInput : Json) (natives : List NativeQuestion)
    (published : List Question) (haccepted : nativeQuestions toolInput = .ok natives)
    (hpublished : canonicalizeQuestions u sanitize (projectQuestions u shown natives) =
      .ok published) :
    (∀ values stored, canonicalizeAnswers u sanitizeAnswer values published = .ok (.obj stored) →
      ∃ result, nativeAnswers u stored natives = .ok result ∧ (result.map Prod.fst).Nodup ∧
        ∀ (i : Nat) native, natives[i]? = some native → ∃ answer converted,
          stored.lookup ("q" ++ toString i) = some answer ∧
            result[i]? = some (native.question, converted) ∧ Converts native answer converted) ∧
      ∀ defaults, defaultQuestionAnswers published = some defaults →
        ∃ stored, canonicalizeAnswers u sanitizeAnswer defaults published = .ok (.obj stored) := by
  have h := canonicalizeQuestions_shape hpublished
  refine ⟨fun values stored hstored => ?_, fun defaults => defaults_accepted h⟩
  obtain ⟨result, hresult⟩ := exists_mapM_eq_ok fun entry hentry =>
    let ⟨_, converted, _, hconverted, _⟩ := nativeEntry_converts h hstored
      (mk_mem_zipIdx_iff_getElem?.mp hentry)
    ⟨_, hconverted⟩
  refine ⟨result, ensure_bind_eq_ok.mpr ⟨?_, hresult⟩, ?_, ?_⟩
  · obtain ⟨hkeys, hentries⟩ := canonicalizeAnswers_eq_ok hstored
    rw [← keys_eq_ordinals h]
    constructor
    · intro key hkey
      obtain ⟨entry, hentry, rfl⟩ := mem_map.mp hkey
      obtain ⟨question, hquestion, hsame, -⟩ := hentries entry hentry
      exact hsame ▸ mem_map_of_mem hquestion
    · intro key hkey
      obtain ⟨question, hquestion, rfl⟩ := mem_map.mp hkey
      exact hkeys question hquestion
  · rw [nativeEntries_fst hresult]
    exact nodup_of_nativeQuestions haccepted
  · intro i native hnative
    obtain ⟨answer, converted, hanswer, hconverted, hconverts⟩ :=
      nativeEntry_converts h hstored hnative
    have hentry := congrArg (·[i]?) (mapM_eq_ok_iff_map.mp hresult)
    refine ⟨answer, converted, hanswer, ?_, hconverts⟩
    simpa [hnative, hconverted, eq_comm] using hentry

def askedChoice : List NativeQuestion :=
  [⟨"Which?", .str "Question", .bool true, [⟨"a!", .str ""⟩, ⟨"b!", .str ""⟩]⟩]

theorem nativeAnswers_of_chosen_option :
    ∃ result, nativeAnswers .ascii [("q0", .arr [.str "o1"])] askedChoice = .ok result ∧
      (result.map Prod.fst).Nodup ∧ result = [("Which?", .arr [.str "b!"])] := by
  obtain ⟨hconverts, -⟩ := nativeAnswers_of_canonicalizeAnswers .ascii
    (fun | .str text => dropExclamation text | _ => "") dropExclamation id
    (.obj [("questions", .arr [.obj [("question", .str "Which?"), ("multiSelect", .bool true),
      ("options", .arr [.obj [("label", .str "a!")], .obj [("label", .str "b!")]])]])])
    askedChoice [⟨"q0", "Which?", "Question", [⟨"o0", "a", "", none⟩, ⟨"o1", "b", "", none⟩], true⟩]
    (by decide) (by decide)
  obtain ⟨result, hresult, hnodup, -⟩ := hconverts [("q0", .arr [.str "o1"])]
    [("q0", .arr [.str "o1"])] (by decide)
  exact ⟨result, hresult, hnodup, Except.ok.inj (hresult.symm.trans (by decide))⟩

end AiPlatform.Runs.Inputs
