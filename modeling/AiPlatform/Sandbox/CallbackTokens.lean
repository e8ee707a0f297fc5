import AiPlatform.Foundation.Decimals
import AiPlatform.Foundation.Outcome
import AiPlatform.Foundation.Separators
import AiPlatform.Kernel.Identifiers

/-!
# Callback token ids

A token id joins a run id, an attempt id and, for an owner with a generation, the generation.
Both ids may contain the separator, so a token id can be cut in several ways; and a token id that
is not ASCII makes the comparison raise.
-/
namespace AiPlatform.Sandbox

open AiPlatform.Foundation AiPlatform.Kernel List

inductive TokenError where
  | typeError
  | valueError
  deriving DecidableEq, Repr

/-- A binding that `__post_init__` accepts. -/
structure CallbackTokenBinding where
  runId : String
  attemptId : String
  ownerGeneration : Option Nat
  runId_safe : safeId runId = true
  attemptId_safe : safeId attemptId = true
  generation_pos : ∀ g ∈ ownerGeneration, 1 ≤ g
  deriving DecidableEq

def CallbackTokenBinding.new (runId attemptId : String) (ownerGeneration : Option Nat) :
    Except TokenError CallbackTokenBinding :=
  if h : safeId runId = true ∧ safeId attemptId = true ∧ ∀ g ∈ ownerGeneration, 1 ≤ g then
    .ok ⟨runId, attemptId, ownerGeneration, h.1, h.2.1, h.2.2⟩
  else .error .valueError

def generationText : Option Nat → Text
  | none => []
  | some g => ':' :: 'g' :: Nat.toDigits 10 g

/-- What follows `cbt:` in a token id. -/
def CallbackTokenBinding.body (binding : CallbackTokenBinding) : Text :=
  binding.runId.toList ++ ':' ::
    (binding.attemptId.toList ++ generationText binding.ownerGeneration)

def tokenStem : Text := "cbt:".toList

-- a generation too long for `str` is also too long for the check
def callbackTokenIdForBinding (binding : CallbackTokenBinding) : Except TokenError String :=
  let tokenId := String.ofList (tokenStem ++ binding.body)
  if safeId tokenId = true then .ok tokenId else .error .valueError

/-- `hmac.compare_digest` of two texts. -/
def compareDigest (a b : String) : Except TokenError Bool :=
  if isAscii a.toList = true ∧ isAscii b.toList = true then .ok (a == b) else .error .typeError

section Matches

variable (t : DigitTable)

/-- The comparison with the id for the generation that the token id ends in. -/
def matchGeneration (tokenId runId attemptId legacyId : String) : Except TokenError Bool :=
  let stem := legacyId.toList ++ [':', 'g']
  if stem.isPrefixOf tokenId.toList then
    let generation := tokenId.toList.drop stem.length
    if isAscii generation && t.isDecimal generation then do
      let number ← expect (t.readInt generation) .valueError
      let binding ← CallbackTokenBinding.new runId attemptId (some number)
      let expected ← callbackTokenIdForBinding binding
      compareDigest tokenId expected
    else pure false
  else pure false

/-- The body of the `try` block. -/
def matchAttempt (tokenId runId attemptId : String) : Except TokenError Bool := do
  let binding ← CallbackTokenBinding.new runId attemptId none
  let legacyId ← callbackTokenIdForBinding binding
  let same ← compareDigest tokenId legacyId
  if same then pure true else matchGeneration t tokenId runId attemptId legacyId

def callbackTokenIdMatchesAttempt (tokenId runId attemptId : String) : Except TokenError Bool :=
  match matchAttempt t tokenId runId attemptId with
  | .error .valueError => .ok false
  | outcome => outcome

end Matches

/-! ## Token ids -/

theorem generationText_all (gen : Option Nat) :
    (generationText gen).all isSafeIdChar = true := by
  cases gen with
  | none => rfl
  | some g =>
    have hdigits : (Nat.toDigits 10 g).all isSafeIdChar = true :=
      all_eq_true.mpr fun c hc => isSafeIdChar_of_isDigit
        (all_eq_true.mp (toDigits_all_isDigit g) c hc)
    simp only [generationText, all_cons, hdigits]
    decide

theorem CallbackTokenBinding.body_all (binding : CallbackTokenBinding) :
    binding.body.all isSafeIdChar = true := by
  have hrun := (safeId_iff.mp binding.runId_safe).2.1
  have hattempt := (safeId_iff.mp binding.attemptId_safe).2.1
  have hcolon : isSafeIdChar ':' = true := by decide
  simp only [CallbackTokenBinding.body, all_append, all_cons, hrun, hattempt, hcolon,
    generationText_all, Bool.and_true]

theorem CallbackTokenBinding.safeId_tokenId (binding : CallbackTokenBinding) :
    safeId (String.ofList (tokenStem ++ binding.body)) = true ↔
      (tokenStem ++ binding.body).length ≤ 128 := by
  rw [safeId_iff, String.toList_ofList, all_append, binding.body_all]
  exact ⟨fun h => h.2.2, fun h => ⟨rfl, rfl, h⟩⟩

variable {tokenId : String} {binding : CallbackTokenBinding}

/-- The token id of a binding, unless it is too long. -/
theorem callbackTokenIdForBinding_eq_ok :
    callbackTokenIdForBinding binding = .ok tokenId ↔
      tokenId.toList = tokenStem ++ binding.body ∧ tokenId.toList.length ≤ 128 := by
  unfold callbackTokenIdForBinding
  simp only [binding.safeId_tokenId]
  constructor
  · intro h
    split_ifs at h with hlength
    obtain rfl := Except.ok.inj h
    rw [String.toList_ofList]
    exact ⟨rfl, hlength⟩
  · rintro ⟨heq, hlength⟩
    rw [heq] at hlength
    rw [if_pos hlength, ← heq, String.ofList_toList]

theorem isAscii_of_canonical (h : callbackTokenIdForBinding binding = .ok tokenId) :
    isAscii tokenId.toList = true := by
  rw [(callbackTokenIdForBinding_eq_ok.mp h).1]
  refine all_eq_true.mpr fun c hc => decide_eq_true (isSafeIdChar_ascii ?_)
  rcases mem_append.mp hc with hc | hc
  · exact all_eq_true.mp (show tokenStem.all isSafeIdChar = true by decide) c hc
  · exact all_eq_true.mp binding.body_all c hc

theorem compareDigest_canonical {expected : String} (htoken : isAscii tokenId.toList = true)
    (h : callbackTokenIdForBinding binding = .ok expected) :
    compareDigest tokenId expected = .ok (tokenId == expected) :=
  if_pos ⟨htoken, isAscii_of_canonical h⟩

/-! ## Matching -/

theorem CallbackTokenBinding.new_eq (binding : CallbackTokenBinding) :
    CallbackTokenBinding.new binding.runId binding.attemptId
      binding.ownerGeneration = .ok binding :=
  dif_pos ⟨binding.runId_safe, binding.attemptId_safe, binding.generation_pos⟩

theorem CallbackTokenBinding.new_eq_ok {runId attemptId : String} {gen : Option Nat}
    (h : CallbackTokenBinding.new runId attemptId gen = .ok binding) :
    binding.runId = runId ∧ binding.attemptId = attemptId ∧ binding.ownerGeneration = gen := by
  unfold CallbackTokenBinding.new at h
  split_ifs at h
  obtain rfl := Except.ok.inj h
  exact ⟨rfl, rfl, rfl⟩

section Matching

variable {t : DigitTable} {tokenId : String}

/-- The binding without a generation. -/
def CallbackTokenBinding.legacy (binding : CallbackTokenBinding) : CallbackTokenBinding :=
  { binding with ownerGeneration := none, generation_pos := nofun }

/-- A match is a binding of the attempt that has the token id. -/
theorem exists_binding_of_matches {runId attemptId : String}
    (h : callbackTokenIdMatchesAttempt t tokenId runId attemptId = .ok true) :
    ∃ binding : CallbackTokenBinding, binding.runId = runId ∧ binding.attemptId = attemptId ∧
      callbackTokenIdForBinding binding = .ok tokenId := by
  have hmatch : matchAttempt t tokenId runId attemptId = .ok true := by
    unfold callbackTokenIdMatchesAttempt at h
    split at h
    · cases h
    · exact h
  have hcompare : ∀ {a b : String}, compareDigest a b = .ok true → a = b := by
    intro a b hab
    unfold compareDigest at hab
    split_ifs at hab
    exact beq_iff_eq.mp (Except.ok.inj hab)
  obtain ⟨legacy, hlegacy, hmatch⟩ := bind_eq_ok.mp hmatch
  obtain ⟨legacyId, hlegacyId, hmatch⟩ := bind_eq_ok.mp hmatch
  obtain ⟨same, hsame, hmatch⟩ := bind_eq_ok.mp hmatch
  split_ifs at hmatch with hs
  · subst hs
    obtain ⟨hrun, hattempt, -⟩ := CallbackTokenBinding.new_eq_ok hlegacy
    exact ⟨legacy, hrun, hattempt, hcompare hsame ▸ hlegacyId⟩
  unfold matchGeneration at hmatch
  dsimp only at hmatch
  split_ifs at hmatch
  · obtain ⟨number, -, hmatch⟩ := expect_bind_eq_ok.mp hmatch
    obtain ⟨binding, hbinding, hmatch⟩ := bind_eq_ok.mp hmatch
    obtain ⟨expected, hexpected, hmatch⟩ := bind_eq_ok.mp hmatch
    obtain ⟨hrun, hattempt, -⟩ := CallbackTokenBinding.new_eq_ok hbinding
    exact ⟨binding, hrun, hattempt, hcompare hmatch ▸ hexpected⟩
  · cases hmatch
  · cases hmatch

theorem matchAttempt_of_legacy (legacy : CallbackTokenBinding) {legacyId : String}
    (hgen : legacy.ownerGeneration = none)
    (hlegacyId : callbackTokenIdForBinding legacy = .ok legacyId) :
    matchAttempt t tokenId legacy.runId legacy.attemptId = (do
      let same ← compareDigest tokenId legacyId
      if same then pure true
      else matchGeneration t tokenId legacy.runId legacy.attemptId legacyId) := by
  have hnew := legacy.new_eq
  rw [hgen] at hnew
  unfold matchAttempt
  rw [hnew, ok_bind, hlegacyId, ok_bind]

/-- Where the token id is ASCII no comparison raises. -/
theorem matchAttempt_ne_typeError (hascii : isAscii tokenId.toList = true)
    (runId attemptId : String) :
    matchAttempt t tokenId runId attemptId ≠ .error .typeError := by
  have hnew : ∀ gen, CallbackTokenBinding.new runId attemptId gen ≠ .error .typeError := by
    intro gen h
    unfold CallbackTokenBinding.new at h
    split_ifs at h
    cases h
  have hcanonical : ∀ binding, callbackTokenIdForBinding binding ≠ .error .typeError := by
    intro binding h
    unfold callbackTokenIdForBinding at h
    dsimp only at h
    split_ifs at h
    cases h
  intro h
  obtain h | ⟨legacy, -, h⟩ := bind_eq_error.mp h
  · exact hnew _ h
  obtain h | ⟨legacyId, hlegacyId, h⟩ := bind_eq_error.mp h
  · exact hcanonical _ h
  rw [compareDigest_canonical hascii hlegacyId, ok_bind] at h
  unfold matchGeneration at h
  dsimp only at h
  split_ifs at h
  · cases h
  · obtain h | ⟨number, -, h⟩ := bind_eq_error.mp h
    · cases hread : t.readInt (tokenId.toList.drop (legacyId.toList ++ [':', 'g']).length) with
      | none =>
        rw [hread] at h
        cases h
      | some number =>
        rw [hread] at h
        cases h
    obtain h | ⟨binding, -, h⟩ := bind_eq_error.mp h
    · exact hnew _ h
    obtain h | ⟨expected, hexpected, h⟩ := bind_eq_error.mp h
    · exact hcanonical _ h
    rw [compareDigest_canonical hascii hexpected] at h
    cases h
  · cases h
  · cases h

/-- The comparison raises exactly where it is reached with a text that is not ASCII. -/
theorem matches_returns_iff {runId attemptId : String} (hrun : safeId runId = true)
    (hattempt : safeId attemptId = true) :
    (∃ answer, callbackTokenIdMatchesAttempt t tokenId runId attemptId = .ok answer) ↔
      isAscii tokenId.toList = true ∨ 123 < runId.length + attemptId.length := by
  by_cases hascii : isAscii tokenId.toList = true
  · refine iff_of_true ?_ (.inl hascii)
    unfold callbackTokenIdMatchesAttempt
    cases hmatch : matchAttempt t tokenId runId attemptId with
    | ok answer => exact ⟨answer, rfl⟩
    | error refusal =>
      cases refusal with
      | valueError => exact ⟨false, rfl⟩
      | typeError => exact absurd hmatch (matchAttempt_ne_typeError hascii runId attemptId)
  let legacy : CallbackTokenBinding := ⟨runId, attemptId, none, hrun, hattempt, nofun⟩
  have hlength : (tokenStem ++ legacy.body).length = runId.length + attemptId.length + 5 := by
    simp only [legacy, CallbackTokenBinding.body, generationText, tokenStem, length_append,
      length_cons, length_nil, String.length_toList]
    change 4 + _ = _
    omega
  by_cases hshort : (tokenStem ++ legacy.body).length ≤ 128
  · have hlegacyId : callbackTokenIdForBinding legacy =
        .ok (String.ofList (tokenStem ++ legacy.body)) :=
      callbackTokenIdForBinding_eq_ok.mpr ⟨String.toList_ofList, by rwa [String.toList_ofList]⟩
    have hraise : callbackTokenIdMatchesAttempt t tokenId runId attemptId = .error .typeError := by
      unfold callbackTokenIdMatchesAttempt
      rw [matchAttempt_of_legacy legacy rfl hlegacyId, compareDigest,
        if_neg fun h => hascii h.1]
      rfl
    rw [hraise]
    refine iff_of_false (fun ⟨_, h⟩ => nomatch h) ?_
    rintro (h | h)
    · exact hascii h
    · omega
  · have herror : matchAttempt t tokenId runId attemptId = .error .valueError := by
      unfold matchAttempt
      rw [legacy.new_eq, ok_bind, callbackTokenIdForBinding,
        if_neg (mt legacy.safeId_tokenId.mp hshort)]
      rfl
    refine iff_of_true ⟨false, ?_⟩ (.inr (by omega))
    rw [callbackTokenIdMatchesAttempt, herror]

end Matching

/-! ## Token ids that can be read in several ways -/

/-- A colon with a letter or a digit after it. -/
def startsCut : Text → Bool
  | ':' :: rest => startsAlnum rest
  | _ => false

/-- After `cbt:` and a letter or a digit, more than one colon has a letter or a digit after it. -/
def severalCuts (tokenId : String) : Bool :=
  let body := tokenId.toList.drop tokenStem.length
  safeId tokenId && tokenStem.isPrefixOf tokenId.toList && startsAlnum body &&
    2 ≤ body.tails.countP startsCut

theorem startsAlnum_append {a : Text} (ha : startsAlnum a = true) (b : Text) :
    startsAlnum (a ++ b) = true := by
  cases a with
  | nil => cases ha
  | cons c a => exact ha

section Cuts

variable {tokenId : String} {text piece : Text} {binding binding' : CallbackTokenBinding}

theorem CallbackTokenBinding.startsAlnum_body (binding : CallbackTokenBinding) :
    startsAlnum binding.body = true :=
  startsAlnum_append (safeId_iff.mp binding.runId_safe).1 _

/-- What follows the run id. -/
def CallbackTokenBinding.cut (binding : CallbackTokenBinding) : Text :=
  ':' :: (binding.attemptId.toList ++ generationText binding.ownerGeneration)

theorem CallbackTokenBinding.startsCut_cut (binding : CallbackTokenBinding) :
    startsCut binding.cut = true :=
  startsAlnum_append (safeId_iff.mp binding.attemptId_safe).1 _

theorem CallbackTokenBinding.cut_suffix (binding : CallbackTokenBinding) :
    binding.cut <:+ binding.body :=
  suffix_append _ _

/-- A generation is a second cut. -/
theorem CallbackTokenBinding.generation_eq_none
    (hcuts : ∀ s s', s <:+ binding.body → s' <:+ binding.body → startsCut s = true →
      startsCut s' = true → s = s') : binding.ownerGeneration = none := by
  cases hgen : binding.ownerGeneration with
  | none => rfl
  | some g =>
    have hsuffix : generationText (some g) <:+ binding.cut := by
      rw [CallbackTokenBinding.cut, hgen, ← cons_append]
      exact suffix_append _ _
    have heq := hcuts _ _ binding.cut_suffix (hsuffix.trans binding.cut_suffix)
      binding.startsCut_cut (show startsCut (':' :: 'g' :: _) = true by rfl)
    rw [CallbackTokenBinding.cut, hgen, ← cons_append] at heq
    have hlength := congrArg List.length heq
    rw [length_append, length_cons] at hlength
    omega

theorem CallbackTokenBinding.eq_of_cuts (hbody : binding.body = binding'.body)
    (hcuts : ∀ s s', s <:+ binding.body → s' <:+ binding.body → startsCut s = true →
      startsCut s' = true → s = s') : binding = binding' := by
  have hgen := generation_eq_none hcuts
  have hgen' : binding'.ownerGeneration = none := generation_eq_none (hbody ▸ hcuts)
  have hcut := hcuts _ _ binding.cut_suffix (hbody ▸ binding'.cut_suffix) binding.startsCut_cut
    binding'.startsCut_cut
  have hrun : binding.runId.toList = binding'.runId.toList := by
    change _ ++ binding.cut = _ ++ binding'.cut at hbody
    rw [hcut] at hbody
    exact append_cancel_right hbody
  have hattempt : binding.attemptId.toList = binding'.attemptId.toList := by
    simpa [CallbackTokenBinding.cut, hgen, hgen', generationText] using hcut
  cases binding
  cases binding'
  simp_all [String.toList_inj]

/-- Every cut gives a binding without a generation. -/
theorem exists_binding_of_cut (hsafe : safeId tokenId = true)
    (htext : tokenId.toList = tokenStem ++ text) (hstart : startsAlnum text = true)
    (hpiece : piece <:+ text) (hcut : startsCut piece = true) :
    ∃ binding, callbackTokenIdForBinding binding = .ok tokenId ∧ binding.cut = piece := by
  obtain ⟨attempt, rfl, hattempt⟩ : ∃ attempt, piece = ':' :: attempt ∧
    startsAlnum attempt = true := by
    unfold startsCut at hcut
    split at hcut
    · exact ⟨_, rfl, hcut⟩
    · cases hcut
  obtain ⟨run, rfl⟩ := hpiece
  have hrun : startsAlnum run = true := by
    cases run with
    | nil => exact absurd hstart (show ¬ isAsciiAlnum ':' = true by decide)
    | cons c run => exact hstart
  obtain ⟨-, hall, hlength⟩ := safeId_iff.mp hsafe
  rw [htext] at hall hlength
  simp only [all_append, all_cons, Bool.and_eq_true] at hall
  simp only [length_append, length_cons] at hlength
  have hrunSafe : safeId (String.ofList run) = true := by
    rw [safeId_iff, String.toList_ofList]
    exact ⟨hrun, hall.2.1, by omega⟩
  have hattemptSafe : safeId (String.ofList attempt) = true := by
    rw [safeId_iff, String.toList_ofList]
    exact ⟨hattempt, hall.2.2.2, by omega⟩
  refine ⟨⟨.ofList run, .ofList attempt, none, hrunSafe, hattemptSafe, nofun⟩,
    callbackTokenIdForBinding_eq_ok.mpr ⟨?_, (safeId_iff.mp hsafe).2.2⟩, ?_⟩
  · simp [htext, CallbackTokenBinding.body, generationText]
  · simp [CallbackTokenBinding.cut, generationText]

theorem severalCuts_eq_true :
    severalCuts tokenId = true ↔ safeId tokenId = true ∧ ∃ text,
      tokenId.toList = tokenStem ++ text ∧
      startsAlnum text = true ∧ ¬ text.tails.countP startsCut ≤ 1 := by
  simp only [severalCuts, Bool.and_eq_true, decide_eq_true_eq, isPrefixOf_iff_prefix, not_le,
    and_assoc]
  refine and_congr_right fun _ => ⟨?_, ?_⟩
  · rintro ⟨⟨text, htext⟩, h⟩
    rw [← htext, drop_left] at h
    exact ⟨text, htext.symm, h⟩
  · rintro ⟨text, htext, h⟩
    rw [htext, drop_left]
    exact ⟨prefix_append _ _, h⟩

/-- At most one binding has the token id exactly when there is at most one way to cut it. -/
theorem bindings_unique_iff (tokenId : String) :
    (∀ binding binding', callbackTokenIdForBinding binding = .ok tokenId →
      callbackTokenIdForBinding binding' = .ok tokenId → binding = binding') ↔
      severalCuts tokenId = false := by
  rw [← Bool.not_eq_true, severalCuts_eq_true]
  constructor
  · rintro hunique ⟨hsafe, text, htext, hstart, hcount⟩
    refine hcount ((countP_tails_le_one_iff _ _).mpr fun s s' hs hs' hcut hcut' => ?_)
    obtain ⟨binding, hbinding, rfl⟩ := exists_binding_of_cut hsafe htext hstart hs hcut
    obtain ⟨binding', hbinding', rfl⟩ := exists_binding_of_cut hsafe htext hstart hs' hcut'
    rw [hunique binding binding' hbinding hbinding']
  · intro hfew binding binding' hbinding hbinding'
    obtain ⟨htext, hlength⟩ := callbackTokenIdForBinding_eq_ok.mp hbinding
    obtain ⟨htext', -⟩ := callbackTokenIdForBinding_eq_ok.mp hbinding'
    have hbody : binding.body = binding'.body := append_cancel_left (htext.symm.trans htext')
    refine CallbackTokenBinding.eq_of_cuts hbody ((countP_tails_le_one_iff _ _).mp ?_)
    by_contra hcount
    have hsafe : safeId tokenId = true := by
      rw [← String.ofList_toList (s := tokenId), htext]
      exact binding.safeId_tokenId.mpr (htext ▸ hlength)
    exact hfew ⟨hsafe, binding.body, htext, binding.startsAlnum_body, hcount⟩

end Cuts

/-- For safe ids, the match returns and the token id has at most one binding exactly when the token
id is ASCII, or the ids are too long for a token id, and there is at most one way to cut it. Then
it matches no other attempt. -/
theorem callbackToken_exact (t : DigitTable) (tokenId runId attemptId : String)
    (hrun : safeId runId = true) (hattempt : safeId attemptId = true) :
    (((∃ answer, callbackTokenIdMatchesAttempt t tokenId runId attemptId = .ok answer) ∧
        ∀ binding binding', callbackTokenIdForBinding binding = .ok tokenId →
          callbackTokenIdForBinding binding' = .ok tokenId → binding = binding') ↔
      (isAscii tokenId.toList = true ∨ 123 < runId.length + attemptId.length) ∧
        severalCuts tokenId = false) ∧
      (severalCuts tokenId = false → ∀ runId' attemptId',
        callbackTokenIdMatchesAttempt t tokenId runId attemptId = .ok true →
        callbackTokenIdMatchesAttempt t tokenId runId' attemptId' = .ok true →
        runId = runId' ∧ attemptId = attemptId') := by
  refine ⟨and_congr (matches_returns_iff hrun hattempt) (bindings_unique_iff tokenId), ?_⟩
  intro hcuts runId' attemptId' h h'
  obtain ⟨binding, rfl, rfl, hbinding⟩ := exists_binding_of_matches h
  obtain ⟨binding', rfl, rfl, hbinding'⟩ := exists_binding_of_matches h'
  rw [(bindings_unique_iff tokenId).mpr hcuts binding binding' hbinding hbinding']
  exact ⟨rfl, rfl⟩

theorem callbackToken_exact_runA :
    callbackTokenIdMatchesAttempt asciiDigits "cbt:r1:a1" "r1" "a1" = .ok true ∧
      ∀ binding binding', callbackTokenIdForBinding binding = .ok "cbt:r1:a1" →
        callbackTokenIdForBinding binding' = .ok "cbt:r1:a1" → binding = binding' :=
  ⟨by decide +kernel, ((callbackToken_exact asciiDigits "cbt:r1:a1" "r1" "a1" (by decide +kernel)
    (by decide +kernel)).1.mpr (by decide +kernel)).2⟩

/-- A token id that is not ASCII raises, and a token with a generation is also that of the attempt
whose id ends in the generation. -/
theorem callbackToken_raises_and_collides :
    callbackTokenIdMatchesAttempt asciiDigits "é" "r1" "a1" = .error .typeError ∧
      callbackTokenIdMatchesAttempt asciiDigits "cbt:r1:a1:g1" "r1" "a1" = .ok true ∧
      callbackTokenIdMatchesAttempt asciiDigits "cbt:r1:a1:g1" "r1" "a1:g1" = .ok true ∧
      callbackTokenIdMatchesAttempt asciiDigits "cbt:r1:a1:g1" "r1:a1" "g1" = .ok true := by
  decide +kernel

end AiPlatform.Sandbox
