import AiPlatform.Runs.RunInputs

/-!
# Questions read again

Questions are stored as they are published, and canonicalized again on every read. The first pass
derives a recommendation from the raw label, the second one from the label that is shown.
-/
namespace AiPlatform.Runs.Inputs

open AiPlatform.Foundation AiPlatform.Kernel AiPlatform.Context List

/-- An idempotent sanitizer that leaves the fallback texts as they are. -/
structure Sanitizer.Settled (sanitize : Sanitizer) : Prop where
  idempotent : ∀ text, sanitize (sanitize text) = sanitize text
  question : ∀ i < maxRunQuestionBatch,
    sanitize ("Question " ++ toString (i + 1)) = "Question " ++ toString (i + 1)
  header : sanitize "Question" = "Question"
  option : ∀ i < maxRunQuestionOptions,
    sanitize ("Option " ++ toString (i + 1)) = "Option " ++ toString (i + 1)

/-- The sanitizer does not turn a label that is not recommended into one that is, unless the option
says itself whether it is recommended. -/
def KeepsRecommendation (u : Unicode) (sanitize : Sanitizer) (option : Json) : Prop :=
  option.get? "recommended" = none → ∀ label, option.get? "label" = some (.str label) →
    strip u (sanitize label) ≠ "" →
    isRecommendedQuestionOption u (some (.str (sanitize label))) = true →
    isRecommendedQuestionOption u (some (.str label)) = true

section

variable {u : Unicode} {sanitize : Sanitizer} {value : Option Json} {maxChars i : Nat}
  {shown fallback : String}

theorem sanitizeRunInputText_eq_ok {allowEmpty : Bool} :
    sanitizeRunInputText u sanitize value maxChars allowEmpty = .ok shown ↔
      ∃ text, value = some (.str text) ∧ text.length ≤ maxChars ∧
        (allowEmpty ∨ strip u (sanitize text) ≠ "") ∧ (sanitize text).length ≤ maxChars ∧
        sanitize text = shown := by
  unfold sanitizeRunInputText
  split
  · simp only [ensure_bind_eq_ok, Except.ok.injEq, Option.some.injEq, Json.str.injEq,
      exists_eq_left']
  · rename_i hother
    simp only [reduceCtorEq, false_iff]
    rintro ⟨text, rfl, -⟩
    exact hother text rfl

theorem sanitizeQuestionDisplay_eq_ok :
    sanitizeQuestionDisplay u sanitize value maxChars fallback = .ok shown ↔
      ∃ text, value = some (.str text) ∧ strip u text ≠ "" ∧ text.length ≤ maxChars ∧
        (sanitize text).length ≤ maxChars ∧
        (if strip u (sanitize text) = "" then fallback else sanitize text) = shown := by
  rw [sanitizeQuestionDisplay, ensure_bind_eq_ok, bind_eq_ok]
  simp only [sanitizeRunInputText_eq_ok, Except.ok.injEq, true_or, true_and]
  constructor
  · rintro ⟨hblank, _, ⟨text, rfl, hlength, hshort, rfl⟩, rfl⟩
    exact ⟨text, rfl, by simpa [isBlankText] using hblank, hlength, hshort, rfl⟩
  · rintro ⟨text, rfl, hblank, hlength, hshort, rfl⟩
    exact ⟨by simpa [isBlankText] using hblank, _, ⟨text, rfl, hlength, hshort, rfl⟩, rfl⟩

theorem sanitizeQuestionDisplay_again (settled : sanitize.Settled)
    (hfallback : sanitize fallback = fallback) (hlength : fallback.length ≤ maxChars)
    (hvisible : strip u fallback ≠ "")
    (h : sanitizeQuestionDisplay u sanitize value maxChars fallback = .ok shown) :
    sanitizeQuestionDisplay u sanitize (some (.str shown)) maxChars fallback = .ok shown := by
  obtain ⟨text, -, -, -, hshort, rfl⟩ := sanitizeQuestionDisplay_eq_ok.mp h
  refine sanitizeQuestionDisplay_eq_ok.mpr ⟨_, rfl, ?_⟩
  by_cases hblank : strip u (sanitize text) = ""
  · simp [hblank, hfallback, hvisible, hlength]
  · simp [hblank, settled.idempotent, hshort]

theorem strip_ne_empty {text : String} {c : Char} (hc : text.toList.head? = some c)
    (hspace : u.isSpace c = false) : strip u text ≠ "" := by
  obtain ⟨rest, hchars⟩ := head?_eq_some_iff.mp hc
  intro hblank
  have hnil := congrArg String.toList hblank
  rw [strip, String.toList_ofList, hchars, dropWhile_cons_of_neg (by simp [hspace])] at hnil
  simpa [hspace] using rdropWhile_eq_nil_iff.mp hnil c (by simp)

theorem fallback_not_recommended (hi : i < maxRunQuestionOptions) :
    isRecommendedQuestionOption u (some (.str ("Option " ++ toString (i + 1)))) = false := by
  unfold maxRunQuestionOptions at hi
  interval_cases i <;> rfl

theorem canonicalizeOption_eq_ok {option : Json} {result : QuestionOption} :
    canonicalizeOption u sanitize i option = .ok result ↔
      isMapping option ∧ hasKey option ("o" ++ toString i) ∧ result.key = "o" ++ toString i ∧
        sanitizeQuestionDisplay u sanitize (option.get? "label") 256
          ("Option " ++ toString (i + 1)) = .ok result.label ∧
        sanitizeRunInputText u sanitize (option.get? "description") 2000 true =
          .ok result.description ∧
        ∃ member, recommendedMember option = .ok member ∧
          result.recommended = projectedRecommendation u option member := by
  rw [canonicalizeOption, ensure_bind_eq_ok, ensure_bind_eq_ok]
  simp only [bind_eq_ok, Except.ok.injEq]
  constructor
  · rintro ⟨hmapping, hkey, label, hlabel, description, hdescription, member, hmember, rfl⟩
    exact ⟨hmapping, hkey, rfl, hlabel, hdescription, member, hmember, rfl⟩
  · rintro ⟨hmapping, hkey, hresult, hlabel, hdescription, member, hmember, hrecommended⟩
    refine ⟨hmapping, hkey, _, hlabel, _, hdescription, member, hmember, ?_⟩
    rw [← hresult, ← hrecommended]

section

variable (settled : sanitize.Settled) (hi : i < maxRunQuestionOptions) {option : Json}
  {result : QuestionOption} (h : canonicalizeOption u sanitize i option = .ok result)
include settled hi h

/-- The second pass finds all of an option again but the recommendation. -/
theorem canonicalizeOption_json :
    canonicalizeOption u sanitize i result.json = .ok result ↔ (result.recommended = none →
      isRecommendedQuestionOption u (some (.str result.label)) = false) := by
  obtain ⟨-, -, hkey, hlabel, hdescription, -⟩ := canonicalizeOption_eq_ok.mp h
  have hmember : recommendedMember result.json = .ok result.recommended := by
    rw [recommendedMember, QuestionOption.json]
    cases result.recommended <;> rfl
  have hproject : result.recommended = projectedRecommendation u result.json result.recommended ↔
      (result.recommended = none →
        isRecommendedQuestionOption u (some (.str result.label)) = false) := by
    have hshown : result.json.get? "label" = some (.str result.label) := rfl
    rw [projectedRecommendation, hshown]
    cases result.recommended <;> simp
  rw [canonicalizeOption_eq_ok, hmember, ← hproject]
  constructor
  · rintro ⟨-, -, -, -, -, member, hsame, hagain⟩
    rwa [← Except.ok.inj hsame] at hagain
  · intro hagain
    refine ⟨rfl, ?_, hkey, ?_, ?_, _, rfl, hagain⟩
    · simp [hasKey, QuestionOption.json, Json.get?, hkey]
    · refine sanitizeQuestionDisplay_again settled (settled.option i hi) ?_ ?_ hlabel
      · unfold maxRunQuestionOptions at hi
        interval_cases i <;> decide
      · exact strip_ne_empty (c := 'O') (by simp) (by rw [u.isSpace_ascii] <;> decide)
    · obtain ⟨text, -, -, -, hshort, hshown⟩ := sanitizeRunInputText_eq_ok.mp hdescription
      have hfixed := settled.idempotent text
      rw [hshown] at hfixed hshort
      exact sanitizeRunInputText_eq_ok.mpr
        ⟨_, rfl, hshort, .inl rfl, by rwa [hfixed], hfixed⟩

theorem canonicalizeOption_again :
    canonicalizeOption u sanitize i result.json = .ok result ↔
      KeepsRecommendation u sanitize option := by
  rw [canonicalizeOption_json settled hi h]
  obtain ⟨-, -, -, hlabel, -, member, hmember, hrecommended⟩ := canonicalizeOption_eq_ok.mp h
  obtain ⟨text, htext, -, -, -, hshown⟩ := sanitizeQuestionDisplay_eq_ok.mp hlabel
  have hshows : isRecommendedQuestionOption u (some (.str result.label)) = true ↔
      strip u (sanitize text) ≠ "" ∧
        isRecommendedQuestionOption u (some (.str (sanitize text))) = true := by
    rw [← hshown]
    by_cases hblank : strip u (sanitize text) = ""
    · rw [if_pos hblank, fallback_not_recommended hi]
      simp [hblank]
    · simp [hblank]
  rw [hrecommended, KeepsRecommendation]
  unfold recommendedMember at hmember
  split at hmember
  · rename_i hnone
    obtain rfl := Except.ok.inj hmember
    simp only [projectedRecommendation, htext, hnone]
    grind
  · rename_i b hb
    obtain rfl := Except.ok.inj hmember
    simp [projectedRecommendation, hb]
  · cases hmember

end

theorem canonicalizeQuestion_eq_ok {value : Json} {result : Question} :
    canonicalizeQuestion u sanitize i value = .ok result ↔
      isMapping value ∧ hasKey value ("q" ++ toString i) ∧ result.key = "q" ++ toString i ∧
        sanitizeQuestionDisplay u sanitize (value.get? "question") maxRunAnswerChars
          ("Question " ++ toString (i + 1)) = .ok result.question ∧
        sanitizeQuestionDisplay u sanitize (value.get? "header") 128 "Question" =
          .ok result.header ∧
        (∃ options, value.get? "options" = some (.arr options) ∧
          options.length ≤ maxRunQuestionOptions ∧
          (options.zipIdx.mapM fun (option, j) => canonicalizeOption u sanitize j option) =
            .ok result.options) ∧
        value.get? "multiSelect" = some (.bool result.multiSelect) := by
  have hlist : ∀ member options, optionList member = .ok options ↔
      member = some (.arr options) ∧ options.length ≤ maxRunQuestionOptions := by
    intro member options
    unfold optionList
    split
    · rw [ensure_bind_eq_ok]
      grind
    · grind
  have hselect : ∀ member b, multiSelectMember member = .ok b ↔ member = some (.bool b) := by
    intro member b
    unfold multiSelectMember
    split <;> grind
  rw [canonicalizeQuestion, ensure_bind_eq_ok, ensure_bind_eq_ok]
  simp only [bind_eq_ok, Except.ok.injEq, hlist, hselect]
  constructor
  · rintro ⟨hmapping, hkey, _, hquestion, _, hheader, options, ⟨hmember, hlength⟩, _, hoptions, _,
      hmulti, rfl⟩
    exact ⟨hmapping, hkey, rfl, hquestion, hheader, ⟨options, hmember, hlength, hoptions⟩, hmulti⟩
  · rintro ⟨hmapping, hkey, hresult, hquestion, hheader, ⟨options, hmember, hlength, hoptions⟩,
      hmulti⟩
    refine ⟨hmapping, hkey, _, hquestion, _, hheader, options, ⟨hmember, hlength⟩, _, hoptions, _,
      hmulti, ?_⟩
    rw [← hresult]

theorem canonicalizeQuestion_again (settled : sanitize.Settled) (hi : i < maxRunQuestionBatch)
    {value : Json} {result : Question} (h : canonicalizeQuestion u sanitize i value = .ok result) :
    canonicalizeQuestion u sanitize i result.json = .ok result ↔
      ∀ options, value.get? "options" = some (.arr options) →
        ∀ option ∈ options, KeepsRecommendation u sanitize option := by
  obtain ⟨-, -, hkey, hquestion, hheader, ⟨options, hmember, hlength, hoptions⟩, -⟩ :=
    canonicalizeQuestion_eq_ok.mp h
  have hvisible : u.isSpace 'Q' = false := by rw [u.isSpace_ascii] <;> decide
  have hsame := (mapM_eq_ok.mp hoptions).length_eq
  rw [length_zipIdx] at hsame
  simp only [hmember, Option.some.injEq, Json.arr.injEq, forall_eq']
  rw [← zipIdx_mapM_again hoptions fun j option shown hj => canonicalizeOption_again settled
    (by omega), canonicalizeQuestion_eq_ok]
  constructor
  · rintro ⟨-, -, -, -, -, ⟨again, hagain, -, hread⟩, -⟩
    obtain rfl := Json.arr.inj (Option.some.inj hagain)
    exact hread
  · intro hread
    refine ⟨rfl, ?_, hkey, ?_, ?_, ⟨_, rfl, ?_, hread⟩, rfl⟩
    · simp [hasKey, Question.json, Json.get?, hkey]
    · refine sanitizeQuestionDisplay_again settled (settled.question i hi) ?_
        (strip_ne_empty (by simp) hvisible) hquestion
      unfold maxRunQuestionBatch at hi
      interval_cases i <;> decide
    · exact sanitizeQuestionDisplay_again settled settled.header (by decide)
        (strip_ne_empty (by simp) hvisible) hheader
    · rwa [length_map, ← hsame]

end

/-- What is stored reads back as it was published exactly when no option is shown under a label
that says it is recommended where its own label and members did not. -/
theorem canonicalizeQuestions_again_iff (u : Unicode) (sanitize : Sanitizer)
    (settled : sanitize.Settled) (values : List Json) (questions : List Question)
    (h : canonicalizeQuestions u sanitize (.arr values) = .ok questions) :
    canonicalizeQuestions u sanitize (questionsJson questions) = .ok questions ↔
      ∀ value ∈ values, ∀ options, value.get? "options" = some (.arr options) →
        ∀ option ∈ options, KeepsRecommendation u sanitize option := by
  rw [canonicalizeQuestions, ensure_bind_eq_ok] at h
  rw [questionsJson, canonicalizeQuestions, ensure_bind_eq_ok, zipIdx_mapM_again h.2
    fun i value question hi => canonicalizeQuestion_again settled (by omega)]
  have hsame := (mapM_eq_ok.mp h.2).length_eq
  rw [length_zipIdx] at hsame
  refine and_iff_right ⟨?_, by rw [length_map, ← hsame]; exact h.1.2⟩
  rw [Ne, map_eq_nil_iff, ← length_eq_zero_iff, ← hsame, length_eq_zero_iff]
  exact h.1.1

/-- A sanitizer that takes the exclamation marks off the end. -/
def dropExclamation (text : String) : String :=
  String.ofList (text.toList.rdropWhile (· == '!'))

theorem dropExclamation_settled : Sanitizer.Settled dropExclamation where
  idempotent text := by simp [dropExclamation, rdropWhile_idempotent]
  question i hi := by
    unfold maxRunQuestionBatch at hi
    interval_cases i <;> decide
  header := by decide
  option i hi := by
    unfold maxRunQuestionOptions at hi
    interval_cases i <;> decide

def askedWith (label : String) : Json :=
  .arr [.obj [("question", .str "Which?"), ("header", .str "H"),
    ("options", .arr [.obj [("label", .str label), ("description", .str "")]]),
    ("multiSelect", .bool false)]]

def shownWith (label : String) : List Question :=
  [⟨"q0", "Which?", "H", [⟨"o0", label, "", none⟩], false⟩]

theorem canonicalizeQuestions_again_plain :
    canonicalizeQuestions .ascii dropExclamation (questionsJson (shownWith "x")) =
      .ok (shownWith "x") := by
  refine (canonicalizeQuestions_again_iff .ascii dropExclamation dropExclamation_settled _ _
    (?_ : canonicalizeQuestions _ _ (askedWith "x!") = _)).mpr ?_
  · decide
  · intro value hvalue options hoptions option hoption
    obtain rfl := mem_singleton.mp hvalue
    obtain rfl := Json.arr.inj (Option.some.inj hoptions)
    obtain rfl := mem_singleton.mp hoption
    rintro - label hlabel - hshown
    obtain rfl := Json.str.inj (Option.some.inj hlabel)
    exact absurd hshown (by decide)

/-- A label that only the sanitizer makes a recommended one: the question reads back with a
recommendation that was not published. -/
theorem recommendation_appears_on_read :
    (∀ text, (dropExclamation text).length ≤ text.length) ∧ Sanitizer.Settled dropExclamation ∧
      canonicalizeQuestions .ascii dropExclamation (askedWith "x (recommended)!") =
        .ok (shownWith "x (recommended)") ∧
      canonicalizeQuestions .ascii dropExclamation (questionsJson (shownWith "x (recommended)")) ≠
        .ok (shownWith "x (recommended)") := by
  refine ⟨fun text => ?_, dropExclamation_settled, by decide, by decide⟩
  rw [dropExclamation, String.length_ofList, ← String.length_toList]
  have hkept := rdropWhile_prefix (· = '!') text.toList
  exact hkept.length_le

end AiPlatform.Runs.Inputs
