import AiPlatform.Execution.AgentEvents

/-!
# What a call can do to the answer

One relation lists every way in which a call of the adapter changes the answer it is building,
with the guards under which it does so. Invariants are proved from the relation and never look at
the methods again.
-/
namespace AiPlatform.Execution.AgentEvents

open AiPlatform.Foundation AiPlatform.Kernel AiPlatform.Streaming Hash List

/-- The candidate that is built for a payload under an identity. -/
def candidateFor (env : AdapterEnvironment) (payload : Payload) (identity : Identity)
    (causationEventId : Option String) : Candidate :=
  ⟨env.eventId payload.eventType identity, env.messageId, causationEventId, payload⟩

/-- The candidates of pieces of text, numbered from `count + 1`. -/
def deltaCandidates (env : AdapterEnvironment) (payload : String → Payload)
    (identity : Nat → Identity) : Nat → List String → List (Identity × Candidate)
  | _, [] => []
  | count, chunk :: chunks =>
    (identity (count + 1), candidateFor env (payload chunk) (identity (count + 1)) none) ::
      deltaCandidates env payload identity (count + 1) chunks

def startCandidates (env : AdapterEnvironment) (a : Adapter) : List (Identity × Candidate) :=
  if a.answerStarted then [] else [(.message, candidateFor env .started .message none)]

/-- `pending` of the two methods that accept text. -/
def textCandidates (env : AdapterEnvironment) (a : Adapter) (payload : String → Payload)
    (identity : Nat → Identity) (count : Nat) (value : String) : List (Identity × Candidate) :=
  startCandidates env a ++ deltaCandidates env payload identity count (chunks value)

/-- `_commit_candidates` when it does not raise. -/
def Adapter.committed (a : Adapter) (pending : List (Identity × Candidate)) : Adapter :=
  { a with
    seenEvents := (pending.map fun entry => entry.2.eventId) ++ a.seenEvents
    acceptedEventIds := pending.foldl (fun ids entry => hset ids entry.1 entry.2.eventId)
      a.acceptedEventIds }

/-- The candidates are new to the adapter and to each other. -/
structure Fresh (a : Adapter) (pending : List (Identity × Candidate)) : Prop where
  nodup : (pending.map fun entry => entry.2.eventId).Nodup
  unseen : ∀ entry ∈ pending, entry.2.eventId ∉ a.seenEvents

/-- Only the bookkeeping of other events differs. -/
structure SameAnswer (a a' : Adapter) : Prop where
  answerStarted : a'.answerStarted = a.answerStarted
  answerDeltaCount : a'.answerDeltaCount = a.answerDeltaCount
  answerTextLength : a'.answerTextLength = a.answerTextLength
  lastDeltaIdentity : a'.lastDeltaIdentity = a.lastDeltaIdentity
  lastDeltaEventId : a'.lastDeltaEventId = a.lastDeltaEventId
  answerCompleted : a'.answerCompleted = a.answerCompleted
  partMode : a'.partMode = a.partMode
  legacyAnswerMode : a'.legacyAnswerMode = a.legacyAnswerMode
  textParts : a'.textParts = a.textParts
  nextPartDeltaSequence : a'.nextPartDeltaSequence = a.nextPartDeltaSequence
  partAnswerReceipt : a'.partAnswerReceipt = a.partAnswerReceipt
  seenEvents : ∀ eventId ∈ a.seenEvents, eventId ∈ a'.seenEvents
  partDeltaIds : ∀ partId count, hget a'.acceptedEventIds (.partDelta partId count) =
    hget a.acceptedEventIds (.partDelta partId count)
  deltaIds : ∀ count, hget a'.acceptedEventIds (.delta count) =
    hget a.acceptedEventIds (.delta count)

/-- The receipt of the answer parts whose last delta belongs to `part`. -/
def Adapter.partReceipt (env : AdapterEnvironment) (a : Adapter) (eventId : String) :
    AnswerReceipt :=
  ⟨env.messageId, a.answerDeltaTotal, a.answerTextTotal, eventId⟩

/-- `_complete_part_answer` gets to its receipt: the parts are classified and `part` holds the last
delta of the answer. -/
structure Completes (a : Adapter) (part : TextPart) (identity : Identity) (eventId : String) :
    Prop where
  partMode : a.partMode = true
  unsealed : a.sealed = false
  started : a.answerStarted = true
  open_ : a.answerCompleted = false
  classified : a.hasUnclassifiedTextParts = false
  last : Adapter.lastPart a.answerParts = some part
  identity : part.lastDeltaIdentity = some identity
  eventId : part.lastDeltaEventId = some eventId

/-- The completion of the answer parts. -/
def Adapter.partCompletion (env : AdapterEnvironment) (a : Adapter) (identity : Identity) :
    Candidate :=
  candidateFor env (.completed a.answerDeltaTotal a.answerTextTotal) .messageCompleted
    (hget a.acceptedEventIds identity)

/-- The completion of a legacy answer. -/
def Adapter.legacyCompletion (env : AdapterEnvironment) (a : Adapter) : Candidate :=
  candidateFor env (.completed a.answerDeltaCount a.answerTextLength) .messageCompleted
    (a.lastDeltaIdentity.bind (hget a.acceptedEventIds))

/-- The result event of a call. -/
def resultCandidate (env : AdapterEnvironment) (result : ResultMessage) : Candidate :=
  candidateFor env result.payload .modelCompleted none

/-- Building the result event raises: one was committed before, or the sanitizers refuse it. -/
def ResultRaises (env : AdapterEnvironment) (a : Adapter) (result : ResultMessage)
    (accepts : Candidate → Bool) : Prop :=
  (resultCandidate env result).eventId ∈ a.seenEvents ∨
    accepts (resultCandidate env result) = false

inductive Effect (env : AdapterEnvironment) (a : Adapter) (call : Call) :
    Adapter → List Candidate → Prop
  | quiet {a' : Adapter} {out : List Candidate} (same : SameAnswer a a')
      (others : ∀ c ∈ out, isAnswerFact c.payload.eventType = false) : Effect env a call a' out
  /-- A part text whose candidates are refused. -/
  | refusedPart {a' : Adapter} (legacy : a.legacyAnswerMode = false)
      (same : SameAnswer { a with partMode := true } a') : Effect env a call a' []
  /-- An answer text whose candidates are refused. -/
  | refusedLegacy {a' : Adapter} (parts : a.partMode = false)
      (same : SameAnswer { a with legacyAnswerMode := true } a') : Effect env a call a' []
  | partText (partId value : String) {pending : List (Identity × Candidate)} (nonempty : value ≠ "")
      (legacy : a.legacyAnswerMode = false) (open_ : a.answerCompleted = false)
      (safe : safePublicRef partId = true)
      (valid : ∀ chunk ∈ chunks value, validDelta chunk = true)
      (built : pending = textCandidates env a (.partDelta partId) (.partDelta partId)
        (a.textPart partId).deltaCount value) (fresh : Fresh a pending) :
      Effect env a call
        ((({ a with partMode := true } : Adapter).committed pending).recordPartText partId value
          pending) (pending.map Prod.snd)
  | classified (part : TextPart) (role : Role) {built : Candidate}
      (legacy : a.legacyAnswerMode = false) (open_ : a.answerCompleted = false)
      (filed : a.textParts.find? (·.partId = part.partId) = some part)
      (safe : safePublicRef part.partId = true)
      (differs : part.role ≠ some role) (monotone : part.role = some .work → role = .work)
      (candidate : built = candidateFor env (.partClassified part.partId role)
        (.partClassified part.partId role) none)
      (fresh : Fresh a [(.partClassified part.partId role, built)]) :
      Effect env a call
        { a.committed [(.partClassified part.partId role, built)] with
          textParts := Adapter.putTextPart a.textParts { part with role := some role } } [built]
  /-- A completion that is handed out and not committed. -/
  | handedOut {part : TextPart} {identity : Identity} {eventId : String}
      (action : call.action = .completeAnswer false) (completes : Completes a part identity eventId)
      (valid : (Payload.completed a.answerDeltaTotal a.answerTextTotal).valid = true) :
      Effect env a call { a with partAnswerReceipt := some (a.partReceipt env eventId) }
        [a.partCompletion env identity]
  /-- A completion of the parts, alone or with the result event. -/
  | completedPart {part : TextPart} {identity : Identity} {eventId : String}
      (later : List (Identity × Candidate)) (completes : Completes a part identity eventId)
      (valid : (Payload.completed a.answerDeltaTotal a.answerTextTotal).valid = true)
      (others : ∀ entry ∈ later, entry.1 = .modelCompleted ∧
        entry.2.payload.eventType = .modelCompleted) :
      Effect env a call
        { a.committed ((.messageCompleted, a.partCompletion env identity) :: later) with
          partAnswerReceipt := some (a.partReceipt env eventId)
          answerCompleted := true }
        (a.partCompletion env identity :: later.map Prod.snd)
  /-- The result event raises after the receipt is written. -/
  | raisedPart {part : TextPart} {identity : Identity} {eventId : String} {result : ResultMessage}
      (action : call.action = .result result false)
      (completes : Completes a part identity eventId)
      (raises : ResultRaises env a result call.accepts) :
      Effect env a call { a with partAnswerReceipt := some (a.partReceipt env eventId) } []
  /-- A message without an answer is closed, alone or with the result event. -/
  | closed {a' : Adapter} {out : List Candidate}
      (same : SameAnswer a { a' with answerCompleted := a.answerCompleted })
      (parts : a.partMode = true) (others : ∀ c ∈ out, isAnswerFact c.payload.eventType = false) :
      Effect env a call a' out
  | legacyText (value : String) {pending : List (Identity × Candidate)} (nonempty : value ≠ "")
      (parts : a.partMode = false)
      (valid : ∀ chunk ∈ chunks value, validDelta chunk = true)
      (built : pending = textCandidates env a .delta .delta a.answerDeltaCount value)
      (fresh : Fresh a pending) :
      Effect env a call
        { a.committed pending with
          legacyAnswerMode := true
          answerStarted := true
          answerDeltaCount := a.answerDeltaCount + (chunks value).length
          answerTextLength := a.answerTextLength + value.length
          lastDeltaIdentity := pending.getLast?.map Prod.fst
          lastDeltaEventId := pending.getLast?.map fun entry => entry.2.eventId }
        (pending.map Prod.snd)
  | handedOutLegacy (action : call.action = .completeAnswer false) (parts : a.partMode = false)
      (started : a.answerStarted = true) (open_ : a.answerCompleted = false) :
      Effect env a call a [a.legacyCompletion env]
  | completedLegacy (later : List (Identity × Candidate)) (parts : a.partMode = false)
      (started : a.answerStarted = true) (open_ : a.answerCompleted = false)
      (valid : (Payload.completed a.answerDeltaCount a.answerTextLength).valid = true)
      (others : ∀ entry ∈ later, entry.1 = .modelCompleted ∧
        entry.2.payload.eventType = .modelCompleted) :
      Effect env a call
        { a.committed ((.messageCompleted, a.legacyCompletion env) :: later) with
          answerCompleted := true }
        (a.legacyCompletion env :: later.map Prod.snd)

section

variable {env : AdapterEnvironment} {accepts : Candidate → Bool} {a : Adapter}

/-! ## Building and committing -/

variable {identity : Identity} {payload : Payload} {a' : Adapter}
  {pending : List (Identity × Candidate)} {count : Nat}

variable {causation : Option Identity} {built : Candidate} {commit : Bool}

theorem buildCandidate_eq_ok :
    a.buildCandidate env accepts payload identity causation = .ok built ↔
      (built = candidateFor env payload identity (causation.bind (hget a.acceptedEventIds)) ∧
        built.eventId ∉ a.seenEvents ∧ payload.valid = true ∧ accepts built = true) := by
  unfold Adapter.buildCandidate
  rw [ensure_bind_eq_ok, ensure_bind_eq_ok]
  constructor
  · rintro ⟨hseen, ⟨hvalid, haccepts⟩, heq⟩
    obtain rfl := (Except.ok.inj heq).symm
    exact ⟨rfl, hseen, hvalid, haccepts⟩
  · rintro ⟨rfl, hseen, hvalid, haccepts⟩
    exact ⟨hseen, ⟨hvalid, haccepts⟩, rfl⟩

theorem commitCandidates_eq_ok :
    a.commitCandidates pending = .ok a' ↔ Fresh a pending ∧ a' = a.committed pending := by
  unfold Adapter.commitCandidates
  rw [ensure_bind_eq_ok]
  constructor
  · rintro ⟨⟨hnodup, hunseen⟩, heq⟩
    exact ⟨⟨hnodup, fun entry hentry => hunseen _ (mem_map_of_mem hentry)⟩,
      (Except.ok.inj heq).symm⟩
  · rintro ⟨fresh, rfl⟩
    refine ⟨⟨fresh.nodup, ?_⟩, rfl⟩
    intro eventId hid
    obtain ⟨entry, hentry, rfl⟩ := mem_map.mp hid
    exact fresh.unseen entry hentry

theorem candidate_eq_ok :
    a.candidate env accepts payload identity causation = .ok (a', built) ↔
      a.buildCandidate env accepts payload identity causation = .ok built ∧
        Fresh a [(identity, built)] ∧ a' = a.committed [(identity, built)] := by
  unfold Adapter.candidate
  rw [bind_eq_ok]
  constructor
  · rintro ⟨c, hbuilt, h⟩
    obtain ⟨committed, hcommit, heq⟩ := bind_eq_ok.mp h
    obtain ⟨rfl, rfl⟩ := Prod.mk.inj (Except.ok.inj heq)
    exact ⟨hbuilt, commitCandidates_eq_ok.mp hcommit⟩
  · rintro ⟨hbuilt, hfresh, rfl⟩
    exact ⟨built, hbuilt, bind_eq_ok.mpr ⟨_, commitCandidates_eq_ok.mpr ⟨hfresh, rfl⟩, rfl⟩⟩

theorem buildDeltas_eq_ok {payload : String → Payload} {identity : Nat → Identity}
    {texts : List String}
    (h : a.buildDeltas env accepts payload identity count texts = .ok pending) :
    pending = deltaCandidates env payload identity count texts ∧
      ∀ text ∈ texts, (payload text).valid = true := by
  induction texts generalizing count pending with
  | nil =>
    obtain rfl := Except.ok.inj h
    exact ⟨rfl, by simp⟩
  | cons text texts ih =>
    obtain ⟨built, hbuilt, h⟩ := bind_eq_ok.mp h
    obtain ⟨rest, hrest, h⟩ := bind_eq_ok.mp h
    obtain rfl := Except.ok.inj h
    obtain ⟨rfl, -, hvalid, -⟩ := buildCandidate_eq_ok.mp hbuilt
    obtain ⟨rfl, hvalids⟩ := ih hrest
    exact ⟨rfl, forall_mem_cons.mpr ⟨hvalid, hvalids⟩⟩

theorem buildText_eq_ok {payload : String → Payload} {identity : Nat → Identity} {value : String}
    (h : a.buildText env accepts payload identity count value = .ok pending) :
    pending = textCandidates env a payload identity count value ∧
      ∀ chunk ∈ chunks value, (payload chunk).valid = true := by
  obtain ⟨started, hstarted, h⟩ := bind_eq_ok.mp h
  obtain ⟨deltas, hdeltas, h⟩ := bind_eq_ok.mp h
  obtain rfl := Except.ok.inj h
  obtain ⟨rfl, hvalid⟩ := buildDeltas_eq_ok hdeltas
  refine ⟨congrArg (· ++ _) ?_, hvalid⟩
  unfold Adapter.buildStart at hstarted
  unfold startCandidates
  split_ifs at hstarted ⊢
  · exact (Except.ok.inj hstarted).symm
  · obtain ⟨built, hbuilt, hstarted⟩ := bind_eq_ok.mp hstarted
    obtain rfl := Except.ok.inj hstarted
    obtain ⟨rfl, -⟩ := buildCandidate_eq_ok.mp hbuilt
    rfl

/-! ## Committed identities -/

theorem hget_foldl_hset (pending : List (Identity × Candidate)) (ids : Hash Identity String)
    (h : ∀ entry ∈ pending, entry.1 ≠ identity) :
    hget (pending.foldl (fun ids entry => hset ids entry.1 entry.2.eventId) ids) identity =
      hget ids identity := by
  induction pending generalizing ids with
  | nil => rfl
  | cons entry pending ih =>
    obtain ⟨hentry, hpending⟩ := forall_mem_cons.mp h
    rw [foldl_cons, ih _ hpending, hget_hset_ne ids entry.2.eventId hentry.symm]

theorem committed_hget (h : ∀ entry ∈ pending, entry.1 ≠ identity) :
    hget (a.committed pending).acceptedEventIds identity = hget a.acceptedEventIds identity :=
  hget_foldl_hset pending a.acceptedEventIds h

theorem committed_hget_last (a : Adapter) (earlier : List (Identity × Candidate))
    (identity : Identity) (c : Candidate) :
    hget (a.committed (earlier ++ [(identity, c)])).acceptedEventIds identity = some c.eventId := by
  unfold Adapter.committed
  dsimp only
  rw [foldl_append]
  exact hget_hset_self _ identity c.eventId

/-- Identities that are not those of text deltas. -/
def Identity.isDelta : Identity → Bool
  | .delta _ | .partDelta _ _ => true
  | _ => false

theorem sameAnswer_committed (h : ∀ entry ∈ pending, entry.1.isDelta = false) :
    SameAnswer a (a.committed pending) := by
  refine ⟨rfl, rfl, rfl, rfl, rfl, rfl, rfl, rfl, rfl, rfl, rfl,
    fun eventId hid => mem_append_right _ hid, fun partId count => ?_, fun count => ?_⟩
  all_goals
    apply committed_hget
    intro entry hentry heq
    simpa [heq, Identity.isDelta] using h entry hentry

theorem SameAnswer.refl (a : Adapter) : SameAnswer a a :=
  ⟨rfl, rfl, rfl, rfl, rfl, rfl, rfl, rfl, rfl, rfl, rfl, fun _ => id, fun _ _ => rfl, fun _ => rfl⟩

theorem SameAnswer.trans {a a'' : Adapter} (h : SameAnswer a a') (h' : SameAnswer a' a'') :
    SameAnswer a a'' where
  answerStarted := h'.answerStarted.trans h.answerStarted
  answerDeltaCount := h'.answerDeltaCount.trans h.answerDeltaCount
  answerTextLength := h'.answerTextLength.trans h.answerTextLength
  lastDeltaIdentity := h'.lastDeltaIdentity.trans h.lastDeltaIdentity
  lastDeltaEventId := h'.lastDeltaEventId.trans h.lastDeltaEventId
  answerCompleted := h'.answerCompleted.trans h.answerCompleted
  partMode := h'.partMode.trans h.partMode
  legacyAnswerMode := h'.legacyAnswerMode.trans h.legacyAnswerMode
  textParts := h'.textParts.trans h.textParts
  nextPartDeltaSequence := h'.nextPartDeltaSequence.trans h.nextPartDeltaSequence
  partAnswerReceipt := h'.partAnswerReceipt.trans h.partAnswerReceipt
  seenEvents := fun eventId hid => h'.seenEvents eventId (h.seenEvents eventId hid)
  partDeltaIds := fun partId count => (h'.partDeltaIds partId count).trans
    (h.partDeltaIds partId count)
  deltaIds := fun count => (h'.deltaIds count).trans (h.deltaIds count)

/-- Bookkeeping beside the answer. -/
theorem sameAnswer_omit (a : Adapter) : SameAnswer a a.omitPublicProjection :=
  ⟨rfl, rfl, rfl, rfl, rfl, rfl, rfl, rfl, rfl, rfl, rfl, fun _ => id, fun _ _ => rfl, fun _ => rfl⟩

/-! ## The methods -/

variable {call : Call}

theorem safe_of_partIdForSource {source : SourceIdentity} {partId : String}
    (h : env.partIdForSource source = some partId) : safePublicRef partId = true := by
  cases source with
  | malformed => simp [AdapterEnvironment.partIdForSource] at h
  | key messageId parentId =>
    dsimp only [AdapterEnvironment.partIdForSource] at h
    split_ifs at h
    obtain rfl := Option.some.inj h
    exact env.partId_safe messageId parentId

theorem acceptPartText_effect (source : SourceIdentity) (value : String) :
    Effect env a call (a.acceptPartText env accepts source value).1
      (emittedBy (a.acceptPartText env accepts source value).2) := by
  unfold Adapter.acceptPartText
  split
  · exact .quiet (.refl a) (by simp [emittedBy])
  rename_i guard
  obtain ⟨-, nonempty⟩ := not_or.mp guard
  split
  · exact .quiet (sameAnswer_omit a) (by simp [emittedBy])
  rename_i open_
  obtain ⟨legacy, completed⟩ := not_or.mp open_
  rw [Bool.not_eq_true] at legacy completed
  cases hsource : env.partIdForSource source with
  | none => exact .quiet (sameAnswer_omit a) (by simp [emittedBy])
  | some partId =>
    dsimp only
    split
    · exact .refusedPart legacy (sameAnswer_omit _)
    rename_i pending hbuilt
    obtain ⟨hpending, hvalid⟩ := buildText_eq_ok hbuilt
    split
    · exact .refusedPart legacy (.refl _)
    rename_i committed hcommit
    obtain ⟨fresh, rfl⟩ := commitCandidates_eq_ok.mp hcommit
    refine .partText partId value nonempty legacy completed (safe_of_partIdForSource hsource) ?_
      hpending ⟨fresh.nodup, fresh.unseen⟩
    intro chunk hchunk
    have := hvalid chunk hchunk
    simp only [Payload.valid, Bool.and_eq_true] at this
    exact this.2

theorem classifyTextPart_effect (source : SourceIdentity) (role : Option Role) :
    Effect env a call (a.classifyTextPart env accepts source role).1
      (emittedBy (a.classifyTextPart env accepts source role).2) := by
  have quiet : Effect env a call a [] := .quiet (.refl a) (by simp)
  unfold Adapter.classifyTextPart
  cases role with
  | none => exact quiet
  | some role =>
    dsimp only
    split
    · exact quiet
    split
    · exact quiet
    rename_i open_
    obtain ⟨legacy, completed⟩ := not_or.mp open_
    rw [Bool.not_eq_true] at legacy completed
    cases hsource : env.partIdForSource source with
    | none => exact quiet
    | some partId =>
      dsimp only
      cases hfind : a.textParts.find? (·.partId = partId) with
      | none => exact quiet
      | some part =>
        obtain rfl : part.partId = partId := by simpa using find?_some hfind
        dsimp only
        split
        · exact quiet
        split
        · exact quiet
        rename_i differs
        split
        · exact quiet
        rename_i conflict
        split
        · exact quiet
        rename_i committed built hcandidate
        obtain ⟨hbuilt, fresh, rfl⟩ := candidate_eq_ok.mp hcandidate
        obtain ⟨hbuilt, -⟩ := buildCandidate_eq_ok.mp hbuilt
        refine .classified part role legacy completed hfind
          (safe_of_partIdForSource hsource) differs
          ?_ hbuilt fresh
        intro hwork
        cases role with
        | work => rfl
        | answer => exact absurd ⟨hwork, rfl⟩ conflict

theorem acceptAnswerText_effect (value : String) :
    Effect env a call (a.acceptAnswerText env accepts value).1
      (emittedBy (a.acceptAnswerText env accepts value).2) := by
  unfold Adapter.acceptAnswerText
  split
  · exact .quiet (.refl a) (by simp [emittedBy])
  rename_i guard
  obtain ⟨-, nonempty⟩ := not_or.mp guard
  split
  · exact .quiet (sameAnswer_omit a) (by simp [emittedBy])
  rename_i parts
  rw [Bool.not_eq_true] at parts
  dsimp only
  split
  · exact .refusedLegacy parts (sameAnswer_omit _)
  rename_i pending hbuilt
  obtain ⟨hpending, hvalid⟩ := buildText_eq_ok hbuilt
  split
  · exact .refusedLegacy parts (.refl _)
  rename_i committed hcommit
  obtain ⟨fresh, rfl⟩ := commitCandidates_eq_ok.mp hcommit
  exact .legacyText value nonempty parts (fun chunk hchunk => hvalid chunk hchunk) hpending
    ⟨fresh.nodup, fresh.unseen⟩

theorem mem_deltaCandidates {payload : String → Payload} {identity : Nat → Identity}
    {texts : List String} {entry : Identity × Candidate}
    (h : entry ∈ deltaCandidates env payload identity count texts) :
    ∃ n text, text ∈ texts ∧
      entry = (identity n, candidateFor env (payload text) (identity n) none) := by
  induction texts generalizing count with
  | nil => simp [deltaCandidates] at h
  | cons text texts ih =>
    obtain rfl | h := mem_cons.mp h
    · exact ⟨count + 1, text, mem_cons_self, rfl⟩
    · obtain ⟨n, text', htext, rfl⟩ := ih h
      exact ⟨n, text', mem_cons_of_mem _ htext, rfl⟩

theorem mem_textCandidates {payload : String → Payload} {identity : Nat → Identity} {value : String}
    {entry : Identity × Candidate} (h : entry ∈ textCandidates env a payload identity count value) :
    entry = (.message, candidateFor env .started .message none) ∨
      ∃ n text, text ∈ chunks value ∧
        entry = (identity n, candidateFor env (payload text) (identity n) none) := by
  rcases mem_append.mp h with h | h
  · unfold startCandidates at h
    split_ifs at h
    · cases h
    · exact .inl (mem_singleton.mp h)
  · exact .inr (mem_deltaCandidates h)

theorem acceptCommentaryText_effect (value identity : String) (clean : Bool) :
    Effect env a call (a.acceptCommentaryText env accepts value identity clean).1
      (emittedBy (a.acceptCommentaryText env accepts value identity clean).2) := by
  have quiet : Effect env a call a [] := .quiet (.refl a) (by simp)
  have omitted : Effect env a call a.omitPublicProjection [] :=
    .quiet (sameAnswer_omit a) (by simp)
  unfold Adapter.acceptCommentaryText
  split
  · exact quiet
  split
  · exact quiet
  split
  · exact omitted
  dsimp only
  split
  · exact omitted
  rename_i pending hbuilt
  obtain ⟨rfl, -⟩ := buildDeltas_eq_ok hbuilt
  split
  · exact quiet
  rename_i committed hcommit
  obtain ⟨-, rfl⟩ := commitCandidates_eq_ok.mp hcommit
  refine .quiet (SameAnswer.trans (sameAnswer_committed ?_)
    ⟨rfl, rfl, rfl, rfl, rfl, rfl, rfl, rfl, rfl, rfl, rfl, fun _ => id, fun _ _ => rfl,
      fun _ => rfl⟩) ?_
  · intro entry hentry
    obtain ⟨n, text, -, rfl⟩ := mem_deltaCandidates hentry
    rfl
  · intro c hc
    obtain ⟨entry, hentry, rfl⟩ := mem_map.mp hc
    obtain ⟨n, text, -, rfl⟩ := mem_deltaCandidates hentry
    rfl

variable (env accepts a) in
theorem acceptOthers_same (drafts : List OtherDraft) :
    SameAnswer a (a.acceptOthers env accepts drafts).1 ∧
      ∀ c ∈ emittedBy (a.acceptOthers env accepts drafts).2,
        isAnswerFact c.payload.eventType = false := by
  induction drafts generalizing a with
  | nil => exact ⟨.refl a, by simp [Adapter.acceptOthers, emittedBy]⟩
  | cons draft drafts ih =>
    unfold Adapter.acceptOthers
    split
    · exact ⟨.refl a, by simp [emittedBy]⟩
    rename_i committed built hcandidate
    obtain ⟨hbuilt, -, rfl⟩ := candidate_eq_ok.mp hcandidate
    obtain ⟨hbuilt, -⟩ := buildCandidate_eq_ok.mp hbuilt
    have hcommitted : SameAnswer a (a.committed [(.other draft.identity, built)]) :=
      sameAnswer_committed (by simp [Identity.isDelta])
    have hother : isAnswerFact built.payload.eventType = false := by
      have := draft.other
      rw [hbuilt]
      change isAnswerFact draft.eventType = false
      cases htype : draft.eventType <;> simp_all [isOther, isAnswerFact]
    obtain ⟨same, others⟩ := ih (a.committed [(.other draft.identity, built)])
    split
    · rename_i a' rest heq
      rw [heq] at same others
      exact ⟨hcommitted.trans same, forall_mem_cons.mpr ⟨hother, others⟩⟩
    · rename_i a' e heq
      rw [heq] at same
      exact ⟨hcommitted.trans same, by simp [emittedBy]⟩

theorem completion_eq_ok (h : a.completion env accepts payload causation commit = .ok (a', built)) :
    (built = candidateFor env payload .messageCompleted (causation.bind (hget a.acceptedEventIds)) ∧
      built.eventId ∉ a.seenEvents ∧ payload.valid = true) ∧
      (commit = false ∧ a' = a ∨
        commit = true ∧ a' = a.committed [(.messageCompleted, built)]) := by
  unfold Adapter.completion at h
  split at h
  · rename_i hcommit
    obtain ⟨hbuilt, -, rfl⟩ := candidate_eq_ok.mp h
    obtain ⟨hbuilt, hunseen, hvalid, -⟩ := buildCandidate_eq_ok.mp hbuilt
    exact ⟨⟨hbuilt, hunseen, hvalid⟩, .inr ⟨hcommit, rfl⟩⟩
  · rename_i hcommit
    obtain ⟨c, hbuilt, h⟩ := bind_eq_ok.mp h
    obtain ⟨rfl, rfl⟩ := Prod.mk.inj (Except.ok.inj h)
    obtain ⟨hbuilt, hunseen, hvalid, -⟩ := buildCandidate_eq_ok.mp hbuilt
    exact ⟨⟨hbuilt, hunseen, hvalid⟩, .inl ⟨by simpa using hcommit, rfl⟩⟩

/-- What `complete_answer` does, before it is known whether its candidate will be delivered. -/
inductive Completion (env : AdapterEnvironment) (a : Adapter) (commit : Bool) :
    Adapter → List Candidate → Prop
  | quiet {a' : Adapter} (same : SameAnswer a a') : Completion env a commit a' []
  | closed (parts : a.partMode = true) (committing : commit = true) :
      Completion env a commit { a with answerCompleted := true } []
  | part {part : TextPart} {identity : Identity} {eventId : String} {base : Adapter}
      (completes : Completes a part identity eventId)
      (valid : (Payload.completed a.answerDeltaTotal a.answerTextTotal).valid = true)
      (unseen : (a.partCompletion env identity).eventId ∉ a.seenEvents)
      (written : commit = false ∧ base = a ∨
        commit = true ∧ base = a.committed [(.messageCompleted, a.partCompletion env identity)]) :
      Completion env a commit
        { base with
          partAnswerReceipt := some (a.partReceipt env eventId)
          answerCompleted := commit }
        [a.partCompletion env identity]
  | legacy {base : Adapter} (parts : a.partMode = false) (started : a.answerStarted = true)
      (open_ : a.answerCompleted = false)
      (valid : (Payload.completed a.answerDeltaCount a.answerTextLength).valid = true)
      (written : commit = false ∧ base = a ∨
        commit = true ∧ base = a.committed [(.messageCompleted, a.legacyCompletion env)]) :
      Completion env a commit { base with answerCompleted := commit } [a.legacyCompletion env]

theorem completePartAnswer_completion {result : Adapter × List Candidate}
    (parts : a.partMode = true) (h : a.completePartAnswer env accepts commit = .ok result) :
    Completion env a commit result.1 result.2 := by
  unfold Adapter.completePartAnswer at h
  split at h
  · obtain rfl := Except.ok.inj h
    exact .quiet (.refl a)
  rename_i guard
  simp only [not_or, Bool.not_eq_true, Bool.not_eq_false] at guard
  obtain ⟨unsealed, started, open_⟩ := guard
  split at h
  · cases h
  rename_i classified
  rw [Bool.not_eq_true] at classified
  split at h
  · obtain rfl := Except.ok.inj h
    cases commit with
    | false =>
      rw [Bool.or_false]
      exact .quiet (.refl a)
    | true =>
      rw [Bool.or_true]
      exact .closed parts rfl
  · rename_i part hlast
    split at h
    · rename_i identity eventId hidentity heventId
      obtain ⟨⟨base, built⟩, hcompletion, h⟩ := bind_eq_ok.mp h
      obtain rfl := Except.ok.inj h
      obtain ⟨⟨rfl, unseen, valid⟩, written⟩ := completion_eq_ok hcompletion
      have hbase : base.answerDeltaTotal = a.answerDeltaTotal ∧
          base.answerTextTotal = a.answerTextTotal ∧ base.answerCompleted = false := by
        obtain ⟨-, rfl⟩ | ⟨-, rfl⟩ := written <;> exact ⟨rfl, rfl, open_⟩
      obtain ⟨hdeltas, htext, hopen⟩ := hbase
      dsimp only
      rw [hdeltas, htext, hopen, Bool.false_or]
      exact .part ⟨parts, unsealed, started, open_, classified, hlast, hidentity, heventId⟩
        valid unseen written
    · cases h

variable (env accepts a) in
theorem completeAnswer_completion (commit : Bool) :
    Completion env a commit (a.completeAnswer env accepts commit).1
      (a.completeAnswer env accepts commit).2 := by
  unfold Adapter.completeAnswer
  split
  · rename_i parts
    split
    · rename_i result hresult
      exact completePartAnswer_completion parts hresult
    · exact .quiet (sameAnswer_omit a)
  rename_i parts
  rw [Bool.not_eq_true] at parts
  split
  · exact .quiet (.refl a)
  rename_i guard
  simp only [not_or, Bool.not_eq_true, Bool.not_eq_false] at guard
  obtain ⟨-, started, open_⟩ := guard
  split
  · exact .quiet (sameAnswer_omit a)
  · rename_i base built hcompletion
    obtain ⟨⟨rfl, -, valid⟩, written⟩ := completion_eq_ok hcompletion
    have hopen : base.answerCompleted = false := by
      obtain ⟨-, rfl⟩ | ⟨-, rfl⟩ := written <;> exact open_
    dsimp only
    rw [hopen, Bool.false_or]
    exact .legacy parts started open_ valid written

theorem completeAnswer_effect (action : call.action = .completeAnswer commit) :
    Effect env a call (a.completeAnswer env accepts commit).1
      (a.completeAnswer env accepts commit).2 := by
  have h := completeAnswer_completion env accepts a commit
  generalize a.completeAnswer env accepts commit = result at h
  obtain ⟨a', out⟩ := result
  cases h with
  | quiet same => exact .quiet same (by simp)
  | closed parts => exact .closed (.refl a) parts (by simp)
  | part completes valid unseen written =>
    obtain ⟨hcommit, hbase⟩ | ⟨hcommit, hbase⟩ := written
    · subst hcommit
      rw [hbase, ← completes.open_]
      exact .handedOut action completes valid
    · subst hcommit
      rw [hbase]
      exact .completedPart [] completes valid (by simp)
  | legacy parts started open_ valid written =>
    obtain ⟨hcommit, hbase⟩ | ⟨hcommit, hbase⟩ := written
    · subst hcommit
      rw [hbase, ← open_]
      exact .handedOutLegacy action parts started open_
    · subst hcommit
      rw [hbase]
      exact .completedLegacy [] parts started open_ valid (by simp)

theorem resultPayload_valid (result : ResultMessage) : result.payload.valid = true := by
  simp only [ResultMessage.payload, Payload.valid, boundedInt, Bool.and_eq_true,
    decide_eq_true_eq]
  omega

theorem resultCandidate_type (result : ResultMessage) :
    (resultCandidate env result).payload.eventType = .modelCompleted := rfl

/-- The pairs that a result commits. -/
def resultPending (env : AdapterEnvironment) (result : ResultMessage) (completed : List Candidate) :
    List (Identity × Candidate) :=
  completed.map (fun c => (Identity.messageCompleted, c)) ++
    [(.modelCompleted, resultCandidate env result)]

variable (env accepts) in
/-- The result event raises, its commit raises, or everything is committed. -/
theorem deliverResult_cases (a : Adapter) (result : ResultMessage) (completed : List Candidate) :
    ResultRaises env a result accepts ∧
        (∃ e, a.deliverResult env accepts result completed = (a, .error e)) ∨
      (resultCandidate env result).eventId ∉ a.seenEvents ∧
        ((¬ Fresh a (resultPending env result completed) ∧
            ∃ e, a.deliverResult env accepts result completed = (a, .error e)) ∨
          a.deliverResult env accepts result completed =
            ({ a.committed (resultPending env result completed) with
                answerCompleted := a.answerCompleted || !completed.isEmpty || a.partMode },
              .ok (completed ++ [resultCandidate env result]))) := by
  unfold Adapter.deliverResult
  cases hbuild : a.buildCandidate env accepts result.payload .modelCompleted none with
  | error e =>
    refine .inl ⟨?_, e, rfl⟩
    by_contra hraises
    obtain ⟨hunseen, haccepts⟩ := not_or.mp hraises
    rw [Bool.not_eq_false] at haccepts
    have hok : a.buildCandidate env accepts result.payload .modelCompleted none = .ok _ :=
      buildCandidate_eq_ok.mpr ⟨rfl, hunseen, resultPayload_valid result, haccepts⟩
    exact absurd (hbuild.symm.trans hok) (by simp)
  | ok built =>
    obtain ⟨rfl, hunseen, -⟩ := buildCandidate_eq_ok.mp hbuild
    refine .inr ⟨hunseen, ?_⟩
    dsimp only
    cases hcommit : a.commitCandidates (resultPending env result completed) with
    | error e =>
      refine .inl ⟨fun fresh => ?_, e, ?_⟩
      · exact absurd (hcommit.symm.trans (commitCandidates_eq_ok.mpr ⟨fresh, rfl⟩)) (by simp)
      · unfold resultPending resultCandidate at hcommit
        rw [show none.bind (hget a.acceptedEventIds) = none from rfl, hcommit]
    | ok committed =>
      obtain ⟨-, rfl⟩ := commitCandidates_eq_ok.mp hcommit
      unfold resultPending resultCandidate at hcommit
      rw [show none.bind (hget a.acceptedEventIds) = none from rfl, hcommit]
      exact .inr rfl

/-- A completion and a result event that are both new can be committed together. -/
theorem fresh_completion_result {causation : Option String} {result : ResultMessage}
    (hcompleted : payload.eventType = .messageCompleted)
    (hcompletion : (candidateFor env payload .messageCompleted causation).eventId ∉ a.seenEvents)
    (hresult : (resultCandidate env result).eventId ∉ a.seenEvents) :
    Fresh a [(.messageCompleted, candidateFor env payload .messageCompleted causation),
      (.modelCompleted, resultCandidate env result)] := by
  constructor
  · simp only [map_cons, map_nil, nodup_cons, mem_singleton, not_mem_nil,
      not_false_eq_true, nodup_nil, and_true]
    intro heq
    refine env.completed_ne_result (Eq.trans ?_ heq)
    rw [candidateFor, hcompleted]
  · simp only [mem_cons, not_mem_nil, or_false, forall_eq_or_imp, forall_eq]
    exact ⟨hcompletion, hresult⟩

theorem acceptResult_effect {result : ResultMessage} {sealing : Bool}
    (action : call.action = .result result sealing) (haccepts : call.accepts = accepts) :
    Effect env a call (a.acceptResult env accepts result sealing).1
      (emittedBy (a.acceptResult env accepts result sealing).2) := by
  have quiet : Effect env a call a [] := .quiet (.refl a) (by simp)
  have hothers : ∀ c ∈ [resultCandidate env result], isAnswerFact c.payload.eventType = false := by
    intro c hc
    rw [mem_singleton.mp hc, resultCandidate_type]
    rfl
  have hlater : ∀ entry ∈ [(Identity.modelCompleted, resultCandidate env result)],
      entry.1 = .modelCompleted ∧ entry.2.payload.eventType = .modelCompleted := by
    intro entry hentry
    rw [mem_singleton.mp hentry]
    exact ⟨rfl, resultCandidate_type result⟩
  unfold Adapter.acceptResult
  split
  · exact quiet
  split
  · exact .quiet (sameAnswer_omit a) (by simp [emittedBy])
  split
  · exact .quiet ⟨rfl, rfl, rfl, rfl, rfl, rfl, rfl, rfl, rfl, rfl, rfl,
      fun _ => id, fun _ _ => rfl, fun _ => rfl⟩ (by simp [emittedBy])
  rename_i hsealing
  rw [Bool.not_eq_true] at hsealing
  have hcompletion : Completion env a false
      (if a.answerStarted then a.completeAnswer env accepts false else (a, [])).1
      (if a.answerStarted then a.completeAnswer env accepts false else (a, [])).2 := by
    split
    · exact completeAnswer_completion env accepts a false
    · exact .quiet (.refl a)
  generalize (if a.answerStarted then a.completeAnswer env accepts false else (a, [])) = prepared
    at hcompletion
  obtain ⟨a', out⟩ := prepared
  dsimp only at hcompletion ⊢
  have hdeliver := deliverResult_cases env accepts a' result out
  cases hcompletion with
  | quiet same =>
    obtain ⟨-, e, h⟩ | ⟨-, ⟨-, e, h⟩ | h⟩ := hdeliver
    · exact h ▸ .quiet same (by simp [emittedBy])
    · exact h ▸ .quiet same (by simp [emittedBy])
    rw [h]
    have hcommitted : SameAnswer a (a'.committed (resultPending env result [])) :=
      same.trans (sameAnswer_committed (by simp [resultPending, Identity.isDelta]))
    cases hparts : a.partMode with
    | true => exact .closed { hcommitted with answerCompleted := rfl } hparts hothers
    | false =>
      refine .quiet { hcommitted with answerCompleted := ?_ } hothers
      change (a'.answerCompleted || false || a'.partMode) = a.answerCompleted
      rw [same.partMode, hparts, Bool.or_false, Bool.or_false, same.answerCompleted]
  | closed parts committing => cases committing
  | @part part identity eventId base completes valid unseen written =>
    obtain ⟨-, hbase⟩ | ⟨hcommit, -⟩ := written
    swap
    · cases hcommit
    rw [hbase, ← completes.open_] at hdeliver ⊢
    obtain ⟨raises, e, h⟩ | ⟨hunseen, ⟨stale, -⟩ | h⟩ := hdeliver
    · rw [h]
      exact .raisedPart (hsealing ▸ action) completes (haccepts ▸ raises)
    · have fresh := fresh_completion_result rfl unseen hunseen
      exact absurd ⟨fresh.nodup, fresh.unseen⟩ stale
    rw [h]
    have heffect : Effect env a call _ _ :=
      .completedPart [(.modelCompleted, resultCandidate env result)] completes valid hlater
    rw [← Bool.or_true a.answerCompleted, ← Bool.true_or a.partMode, ← Bool.or_assoc] at heffect
    exact heffect
  | @legacy base parts started open_ valid written =>
    obtain ⟨-, hbase⟩ | ⟨hcommit, -⟩ := written
    swap
    · cases hcommit
    rw [hbase, ← open_] at hdeliver ⊢
    obtain ⟨-, e, h⟩ | ⟨-, ⟨-, e, h⟩ | h⟩ := hdeliver
    · exact h ▸ quiet
    · exact h ▸ quiet
    rw [h]
    have heffect : Effect env a call _ _ :=
      .completedLegacy [(.modelCompleted, resultCandidate env result)] parts started
        open_ valid hlater
    rw [← Bool.or_true a.answerCompleted, ← Bool.true_or a.partMode, ← Bool.or_assoc] at heffect
    exact heffect

theorem perform_effect (a : Adapter) (call : Call) :
    Effect env a call (a.perform env call).1 (emittedBy (a.perform env call).2) := by
  unfold Adapter.perform
  split
  · exact acceptPartText_effect _ _
  · exact classifyTextPart_effect _ _
  · exact acceptAnswerText_effect _
  · exact acceptCommentaryText_effect _ _ _
  · rename_i commit action
    exact completeAnswer_effect action
  · rename_i action
    exact acceptResult_effect action rfl
  · split
    · exact .quiet (.refl a) (by simp [emittedBy])
    · obtain ⟨same, others⟩ := acceptOthers_same env call.accepts a _
      exact .quiet same others
  · exact .quiet ⟨rfl, rfl, rfl, rfl, rfl, rfl, rfl, rfl, rfl, rfl, rfl,
      fun _ => id, fun _ _ => rfl, fun _ => rfl⟩ (by simp [emittedBy])

end

end AiPlatform.Execution.AgentEvents
