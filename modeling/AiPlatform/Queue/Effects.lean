import AiPlatform.Queue.System

/-!
# What one step can do to the queue

Every label first may normalize future timestamps in the lease rows of one message (`Rewritten`)
and then makes one `Change`. The constructors of `Change` carry the guards the scripts have
checked, so an invariant is proved once per constructor and no later proof unfolds a script.
-/
namespace AiPlatform.Queue

open AiPlatform.Foundation Hash SortedSet

/-- The keys that hold messages and their metadata are untouched. -/
structure SameQueue (s s' : Store) : Prop where
  queued : s'.queued = s.queued
  processing : s'.processing = s.processing
  processingMeta : s'.processingMeta = s.processingMeta
  retryMeta : s'.retryMeta = s.retryMeta
  queuedMeta : s'.queuedMeta = s.queuedMeta
  queuedRunIndex : s'.queuedRunIndex = s.queuedRunIndex
  queuedOrder : s'.queuedOrder = s.queuedOrder
  queuedSequence : s'.queuedSequence = s.queuedSequence

theorem SameQueue.refl (s : Store) : SameQueue s s := ⟨rfl, rfl, rfl, rfl, rfl, rfl, rfl, rfl⟩

/-- Two rows of one lease that differ at most in their times. -/
structure SameLease (m m' : LeaseMeta) : Prop where
  messageId : m'.messageId = m.messageId
  raw : m'.raw = m.raw
  attempts : m'.attempts = m.attempts
  workerId : m'.workerId = m.workerId
  attemptId : m'.attemptId = m.attemptId
  leaseOwnerToken : m'.leaseOwnerToken = m.leaseOwnerToken
  tenantId : m'.tenantId = m.tenantId
  runId : m'.runId = m.runId

theorem SameLease.refl (m : LeaseMeta) : SameLease m m := ⟨rfl, rfl, rfl, rfl, rfl, rfl, rfl, rfl⟩

theorem SameLease.trans {m₁ m₂ m₃ : LeaseMeta} (h : SameLease m₁ m₂) (h' : SameLease m₂ m₃) :
    SameLease m₁ m₃ :=
  ⟨h'.messageId.trans h.messageId, h'.raw.trans h.raw, h'.attempts.trans h.attempts,
    h'.workerId.trans h.workerId, h'.attemptId.trans h.attemptId,
    h'.leaseOwnerToken.trans h.leaseOwnerToken, h'.tenantId.trans h.tenantId,
    h'.runId.trans h.runId⟩

theorem SameLease.encoded (env : Environment) (m : LeaseMeta) : SameLease m (m.encoded env) :=
  ⟨rfl, rfl, rfl, rfl, rfl, rfl, rfl, rfl⟩

theorem SameLease.handle {m m' : LeaseMeta} (h : SameLease m m') : m'.handle = m.handle := by
  simp [LeaseMeta.handle, h.messageId, h.attemptId, h.leaseOwnerToken]

theorem LeaseMeta.isLease_iff_handle (m : LeaseMeta) (messageId attemptId ownerToken : String) :
    m.IsLease messageId attemptId ownerToken ↔ m.handle = ⟨messageId, attemptId, ownerToken⟩ := by
  simp [LeaseMeta.IsLease, LeaseMeta.handle]

theorem LeaseMeta.isHeldBy_iff_handle (m : LeaseMeta) (h : LeaseHandle) :
    m.IsHeldBy h ↔ m.handle = h := m.isLease_iff_handle _ _ _

inductive RowKept : Option (Encoded LeaseMeta) → Option (Encoded LeaseMeta) → Prop where
  | same (row) : RowKept row row
  | rewritten {m m' : LeaseMeta} (h : SameLease m m') :
      RowKept (some (.table m)) (some (.table m'))

theorem RowKept.eq_none {row row' : Option (Encoded LeaseMeta)} (h : RowKept row row') :
    row' = none ↔ row = none := by
  cases h <;> simp

/-- A row after a rewrite comes from a row of the same lease. -/
theorem RowKept.source {row : Option (Encoded LeaseMeta)} {m' : LeaseMeta}
    (h : RowKept row (some (.table m'))) : ∃ m, row = some (.table m) ∧ SameLease m m' := by
  cases h with
  | same => exact ⟨m', rfl, .refl m'⟩
  | rewritten h => exact ⟨_, rfl, h⟩

theorem RowKept.target {row' : Option (Encoded LeaseMeta)} {m : LeaseMeta}
    (h : RowKept (some (.table m)) row') : ∃ m', row' = some (.table m') ∧ SameLease m m' := by
  cases h with
  | same => exact ⟨m, rfl, .refl m⟩
  | rewritten h => exact ⟨_, rfl, h⟩

theorem RowKept.text {row : Option (Encoded LeaseMeta)} {v : String}
    (h : RowKept row (some (.text v))) : row = some (.text v) := by
  cases h; rfl

/-- The lease that a row names. -/
def rowHandle : Option (Encoded LeaseMeta) → Option LeaseHandle
  | some (.table m) => some m.handle
  | _ => none

theorem rowHandle_eq_some {row : Option (Encoded LeaseMeta)} {h : LeaseHandle} :
    rowHandle row = some h ↔ ∃ m, row = some (.table m) ∧ m.handle = h := by
  unfold rowHandle
  split
  · simp
  · rename_i hrow
    simpa using fun m hm => absurd hm (hrow m)

theorem RowKept.rowHandle {row row' : Option (Encoded LeaseMeta)} (h : RowKept row row') :
    rowHandle row' = rowHandle row := by
  cases h with
  | same => rfl
  | rewritten same => simp [Queue.rowHandle, same.handle]

/-- Only times of lease rows have changed. -/
structure Rewritten (s s' : Store) : Prop where
  queued : s'.queued = s.queued
  processing : s'.processing = s.processing
  queuedMeta : s'.queuedMeta = s.queuedMeta
  queuedRunIndex : s'.queuedRunIndex = s.queuedRunIndex
  queuedOrder : s'.queuedOrder = s.queuedOrder
  queuedSequence : s'.queuedSequence = s.queuedSequence
  fences : s'.fences = s.fences
  processingRow : ∀ id, RowKept (hget s.processingMeta id) (hget s'.processingMeta id)
  retryRow : ∀ id, RowKept (hget s.retryMeta id) (hget s'.retryMeta id)

theorem Rewritten.refl (s : Store) : Rewritten s s :=
  ⟨rfl, rfl, rfl, rfl, rfl, rfl, rfl, fun _ => .same _, fun _ => .same _⟩

theorem Rewritten.leaseRow {s s' : Store} (h : Rewritten s s') (id : String) :
    RowKept (leaseRow s id) (leaseRow s' id) := by
  unfold Queue.leaseRow
  have hp := h.processingRow id
  cases hrow : hget s.processingMeta id with
  | none =>
    rw [hp.eq_none.mpr hrow]
    simpa using h.retryRow id
  | some row =>
    rw [hrow] at hp
    cases hrow' : hget s'.processingMeta id with
    | none => exact absurd (hp.eq_none.mp hrow') (by simp)
    | some row' => simpa [hrow'] using hp

/-- `l` is the ack or the fail of `raw` by the holder of `h`. -/
inductive Label.Settles (raw : RunPayload) (h : LeaseHandle) : Label → Settlement → Prop where
  | ack : Settles raw h (.ack raw h) .acked
  | fail (code message worker now) : Settles raw h (.fail raw h code message worker now) .failed

/-- `l` removes the queued messages of a run, by the script alone or with the bounded fallback. -/
inductive Label.Removal (env : Environment) (tenantId runId : String) (s : Store) :
    Label → Store → Prop where
  | script : Removal env tenantId runId s (.removeQueued tenantId runId)
      (removeQueuedWithMetadata s tenantId runId).1
  | run (scanLimit : Int) : Removal env tenantId runId s (.removeQueuedRun tenantId runId scanLimit)
      (Queue.removeQueuedRun env s tenantId runId scanLimit).1

/-- The writes of a successful requeue. -/
def Store.requeued (env : Environment) (s : Store) (call : RequeueCall) (enqueuedAt : Time) :
    Store :=
  { Store.pushQueued
      { s with
        processing := lremFirst s.processing call.lease.raw
        processingMeta := hdel s.processingMeta (env.messageIdForRaw call.lease.raw) }
      call.lease.raw (env.messageIdForRaw call.lease.raw)
      (queuedMetadata call.lease.raw enqueuedAt)
      ((decodeIndex (hget s.queuedRunIndex call.lease.raw.indexField)).filter
        (· ≠ env.messageIdForRaw call.lease.raw) ++ [env.messageIdForRaw call.lease.raw]) with
    retryMeta := hset s.retryMeta (env.messageIdForRaw call.lease.raw)
      (.table call.retryMetadata) }

/-- The writes of a successful expiry dead-letter, `letters` being the new dead-letter list. -/
def Store.deadLettered (env : Environment) (s : Store) (call : DeadLetterCall)
    (letters : List DeadLetter) : Store :=
  { s with
    processing := lremFirst s.processing call.lease.raw
    processingMeta :=
      if call.removeProcessingMeta then hdel s.processingMeta (env.messageIdForRaw call.lease.raw)
      else s.processingMeta
    deadLetter := letters
    retryMeta := hdel s.retryMeta (env.messageIdForRaw call.lease.raw) }

inductive Change (env : Environment) (sys : System) : Label → Store → List Event →
    Store → Prop where
  | quiet {l s s'} (same : SameQueue s s')
      (fences : ∀ key, hexists s'.fences key = true → hexists s.fences key = true) :
      Change env sys l s [] s'
  | claim {s req now} (unfenced : hexists s.fences
        (reconciliationFenceKey env req.tenantId req.runId) = false)
      (queued : ∀ raw ∈ s.queued, ¬ raw.IsFor req.tenantId req.runId)
      (processing : ∀ raw ∈ s.processing, ¬ raw.IsFor req.tenantId req.runId) :
      Change env sys (.acquireFence req now) s [.claimed req.tenantId req.runId]
        { s with
          fences := hset s.fences (reconciliationFenceKey env req.tenantId req.runId)
            ⟨req.ownerToken, req.fenceTtlMs⟩ }
  | push {s raw enqueuedAt} (valid : raw.validIds = true)
      (unfenced : hexists s.fences (raw.fenceKey env) = false)
      (notIndexed : indexedAdmission s (decodeIndex (hget s.queuedRunIndex raw.indexField))
        (env.messageIdForRaw raw) = none)
      (notProcessing : hget s.processingMeta (env.messageIdForRaw raw) = none)
      (notRetried : hget s.retryMeta (env.messageIdForRaw raw) = none) :
      Change env sys (.enqueue raw enqueuedAt) s [.admitted (env.messageIdForRaw raw)]
        (s.pushQueued raw (env.messageIdForRaw raw) (queuedMetadata raw enqueuedAt)
          ((decodeIndex (hget s.queuedRunIndex raw.indexField)).filter
            (· ≠ env.messageIdForRaw raw) ++ [env.messageIdForRaw raw]))
  | remove {l s s' tenantId runId} (removal : Label.Removal env tenantId runId s l s') :
      Change env sys l s [.removed tenantId runId] s'
  | grant {s raw index worker limits now message req}
      (request : req = sys.leaseRequest env raw index worker limits)
      (accepted : env.acceptsRaw raw = true)
      (unfenced : hexists s.fences (raw.fenceKey env) = false)
      (capacity : limitReached limits.maxProcessingRuns s.processing.length = false)
      (indexed : lindex s.queued index = some raw)
      (tenant : limitReached limits.tenantProcessingLimit (tenantProcessing s raw.tenantId) = false)
      (user : limitReached limits.userProcessingLimit
        (userProcessing s raw.tenantId raw.userId) = false) :
      Change env sys (.leaseCandidate raw index worker limits now message) s
        [.leased (req.handle env) (nextAttempt s (env.messageIdForRaw raw))]
        (s.grantLease env req now)
  | dropInvalid {s raw index worker limits now message letters}
      (rejected : env.acceptsRaw raw = false) (indexed : lindex s.queued index = some raw) :
      Change env sys (.leaseCandidate raw index worker limits now message) s
        [.droppedInvalid (env.messageIdForRaw raw)]
        { s.takeInvalid index (env.messageIdForRaw raw) with
          deadLetter := letters
          retryMeta := hdel s.retryMeta (env.messageIdForRaw raw) }
  | heartbeat {s h worker now m m'} (row : hget s.processingMeta h.messageId = some (.table m))
      (held : m.handle = h) (unfenced : hexists s.fences (m.fenceKey env) = false)
      (same : SameLease m m') :
      Change env sys (.heartbeat h worker now) s []
        (s.recordHeartbeat env h.messageId worker m' now)
  | settle {l s raw h m how letters} (settles : Label.Settles raw h l how)
      (row : hget s.processingMeta h.messageId = some (.table m)) (held : m.handle = h)
      (rawEq : m.raw = some raw) (unfenced : hexists s.fences (raw.fenceKey env) = false) :
      Change env sys l s [.settled h how]
        { s.settleLease raw h.messageId with deadLetter := letters }
  | requeue {s i tick call rest m} (phase : (sys.passes i).phase = .requeue call rest)
      (unfenced : hexists s.fences (call.lease.raw.fenceKey env) = false)
      (row : leaseRow s (env.messageIdForRaw call.lease.raw) = some (.table m))
      (held : m.handle = call.lease.handle env)
      (processing : call.lease.raw ∈ s.processing) :
      Change env sys (.reclaim i tick) s [.settled (call.lease.handle env) .requeued]
        (s.requeued env call tick.clientTime)
  | deadLetter {s i tick call rest m letters} (phase : (sys.passes i).phase = .deadLetter call rest)
      (unfenced : hexists s.fences (deadLetterFenceKey env call.lease.raw) = false)
      (row : leaseRow s (env.messageIdForRaw call.lease.raw) = some (.table m))
      (held : m.handle = call.lease.handle env) :
      Change env sys (.reclaim i tick) s [.settled (call.lease.handle env) .deadLettered]
        (s.deadLettered env call letters)

theorem System.deadLetterCall_eq {sys : System} {i : Nat} {tick : Tick} {call : DeadLetterCall}
    {rest : List RunPayload} (phase : (sys.passes i).phase = .deadLetter call rest) :
    sys.deadLetterCall (.reclaim i tick) = some call := by
  simp [System.deadLetterCall, phase]

/-! ## The scripts make these changes -/

variable {env : Environment}

theorem normalizeRow_kept (h : Hash String (Encoded LeaseMeta)) (messageId : String)
    (lease : ExpectedLease) (now : Time) (id : String) :
    RowKept (hget h id) (hget (normalizeRow env h messageId lease now) id) := by
  unfold normalizeRow
  cases hrow : hget h messageId with
  | none => exact .same _
  | some row =>
    cases row with
    | text => exact .same _
    | table m =>
      dsimp only
      split
      · rw [hget_hset]
        split
        · subst id
          rw [hrow]
          exact .rewritten ⟨rfl, rfl, rfl, rfl, rfl, rfl, rfl, rfl⟩
        · exact .same _
      · exact .same _

theorem Store.normalizeFuture_rewritten (s : Store) (lease : ExpectedLease) (now : Time) :
    Rewritten s (s.normalizeFuture env lease now) :=
  ⟨rfl, rfl, rfl, rfl, rfl, rfl, rfl, fun _ => normalizeRow_kept _ _ _ _ _,
    fun _ => normalizeRow_kept _ _ _ _ _⟩

variable (env) in
theorem expiredLeaseGuard_rewritten (s : Store) (fenceKey : String) (lease : ExpectedLease)
    (now : Time) : Rewritten s (expiredLeaseGuard env s fenceKey lease now).1 := by
  unfold expiredLeaseGuard
  dsimp only
  split
  · exact .refl s
  split
  · split
    · exact .refl s
    split
    · exact .refl s
    split
    · exact .refl s
    split
    · exact s.normalizeFuture_rewritten lease now
    split <;> exact s.normalizeFuture_rewritten lease now
  · exact .refl s

/-- A script that gets past the guard acts on an unfenced message whose row is the expected
lease. -/
theorem expiredLeaseGuard_pass {s s' : Store} {fenceKey : String} {lease : ExpectedLease}
    {now : Time} (h : expiredLeaseGuard env s fenceKey lease now = (s', none)) :
    Rewritten s s' ∧ hexists s'.fences fenceKey = false ∧
      ∃ m, leaseRow s' (env.messageIdForRaw lease.raw) = some (.table m) ∧
        m.handle = lease.handle env := by
  have hr : Rewritten s s' := by
    simpa [h] using expiredLeaseGuard_rewritten env s fenceKey lease now
  refine ⟨hr, ?_⟩
  unfold expiredLeaseGuard at h
  dsimp only at h
  split at h
  · simp at h
  rename_i unfenced
  refine ⟨by simpa [hr.fences] using unfenced, ?_⟩
  split at h
  · rename_i m hrow
    split at h
    · simp at h
    rename_i held
    have hk := hr.leaseRow (env.messageIdForRaw lease.raw)
    rw [hrow] at hk
    obtain ⟨m', hm', same⟩ := hk.target
    refine ⟨m', hm', same.handle.trans ?_⟩
    exact (m.isLease_iff_handle _ _ _).mp (not_not.mp held)
  · simp at h

theorem enqueueRun_change (sys : System) (s : Store) (raw : RunPayload) (enqueuedAt : Time) :
    Change env sys (.enqueue raw enqueuedAt) s
      (EnqueueReply.events (env.messageIdForRaw raw) (enqueueRun env s raw enqueuedAt).2)
      (enqueueRun env s raw enqueuedAt).1 := by
  have quiet : Change env sys (.enqueue raw enqueuedAt) s [] s := .quiet (.refl s) fun _ => id
  unfold enqueueRun
  split
  · rename_i valid
    simp only [Bool.and_eq_true] at valid
    unfold enqueueWithMetadata
    dsimp only
    split
    · exact quiet
    rename_i unfenced
    split
    · exact quiet
    rename_i notIndexed
    split
    · exact quiet
    rename_i absent
    simp only [Bool.or_eq_true, not_or, Bool.not_eq_true, hexists_eq_false] at absent
    exact .push valid.1 (by simpa using unfenced) notIndexed absent.1 absent.2
  · exact quiet

theorem leaseCandidate_change (sys : System) (s : Store) (raw : RunPayload) (index : Int)
    (worker : String) (limits : QuotaLimits) (now : Time) (message : String) :
    Change env sys (.leaseCandidate raw index worker limits now message) s
      (leaseCandidate env s (sys.leaseRequest env raw index worker limits) now message).2
      (leaseCandidate env s (sys.leaseRequest env raw index worker limits) now message).1 := by
  have quiet : Change env sys (.leaseCandidate raw index worker limits now message) s [] s :=
    .quiet (.refl s) fun _ => id
  unfold leaseCandidate
  split
  · rename_i accepted
    unfold leaseQuota
    dsimp only
    split
    · exact quiet
    rename_i unfenced
    split
    · exact quiet
    rename_i capacity
    split
    · exact quiet
    rename_i indexed
    split
    · exact quiet
    rename_i tenant
    split
    · exact quiet
    rename_i user
    exact .grant rfl accepted (Bool.eq_false_iff.mpr unfenced) (Bool.eq_false_iff.mpr capacity)
      (not_not.mp indexed) (Bool.eq_false_iff.mpr tenant) (Bool.eq_false_iff.mpr user)
  · rename_i rejected
    unfold deadLetterInvalidQuota
    dsimp only
    split
    · exact quiet
    rename_i indexed
    refine .dropInvalid ?_ ?_
    · exact Bool.eq_false_iff.mpr rejected
    · exact not_not.mp indexed

theorem heartbeatWithFence_change (sys : System) (s : Store) (h : LeaseHandle) (worker : String)
    (now : Time) : Change env sys (.heartbeat h worker now) s []
      (heartbeatWithFence env s h worker now).1 := by
  have quiet : Change env sys (.heartbeat h worker now) s [] s := .quiet (.refl s) fun _ => id
  unfold heartbeatWithFence
  split
  · exact quiet
  · exact quiet
  rename_i m row
  split
  · exact quiet
  rename_i held
  have handle : m.handle = h := (m.isHeldBy_iff_handle h).mp (not_not.mp held).1
  split
  · exact quiet
  · exact quiet
  split
  · exact quiet
  rename_i unfenced
  have unfenced := Bool.eq_false_iff.mpr unfenced
  split
  · exact .heartbeat row handle unfenced ⟨rfl, rfl, rfl, rfl, rfl, rfl, rfl, rfl⟩
  · exact .heartbeat row handle unfenced ⟨rfl, rfl, rfl, rfl, rfl, rfl, rfl, rfl⟩

theorem ownedLease_ok {s : Store} {raw : RunPayload} {h : LeaseHandle} {holder : LeaseMeta → Bool}
    {m : LeaseMeta} (ok : ownedLease env s raw h holder = .ok m) :
    hget s.processingMeta h.messageId = some (.table m) ∧ m.handle = h ∧ m.raw = some raw ∧
      hexists s.fences (raw.fenceKey env) = false := by
  unfold ownedLease at ok
  split at ok
  · rename_i m' row
    split at ok
    · simp at ok
    rename_i held
    obtain ⟨held, rawEq, -⟩ := not_not.mp held
    split at ok
    · simp at ok
    split at ok
    · simp at ok
    rename_i unfenced
    obtain rfl : m' = m := by simpa using ok
    exact ⟨row, (m'.isHeldBy_iff_handle h).mp held, rawEq, Bool.eq_false_iff.mpr unfenced⟩
  · simp at ok

theorem ownedLease_error {s : Store} {raw : RunPayload} {h : LeaseHandle}
    {holder : LeaseMeta → Bool} {status : MutationStatus}
    (error : ownedLease env s raw h holder = .error status) :
    status = .staleOwner ∨ status = .reconciliationFenced := by
  unfold ownedLease at error
  split at error
  · split at error
    · exact .inl (by simpa using error.symm)
    split at error
    · exact .inl (by simpa using error.symm)
    split at error
    · exact .inr (by simpa using error.symm)
    · simp at error
  · exact .inl (by simpa using error.symm)

theorem ackRun_change (sys : System) (s : Store) (raw : RunPayload) (h : LeaseHandle) :
    Change env sys (.ack raw h) s ((ackRun env s raw h).2.events h) (ackRun env s raw h).1 := by
  have quiet : Change env sys (.ack raw h) s [] s := .quiet (.refl s) fun _ => id
  unfold ackRun
  split
  · exact quiet
  cases hl : ownedLease env s raw h fun _ => true with
  | error status => obtain rfl | rfl := ownedLease_error hl <;> exact quiet
  | ok m =>
    obtain ⟨row, held, rawEq, unfenced⟩ := ownedLease_ok hl
    exact .settle .ack row held rawEq unfenced

theorem failLeasedRun_change (sys : System) (s : Store) (raw : RunPayload) (h : LeaseHandle)
    (code message : String) (worker : Option String) (now : Time) :
    Change env sys (.fail raw h code message worker now) s
      ((failLeasedRun env s raw h code message worker now).2.events h)
      (failLeasedRun env s raw h code message worker now).1 := by
  have quiet : Change env sys (.fail raw h code message worker now) s [] s :=
    .quiet (.refl s) fun _ => id
  unfold failLeasedRun
  split
  · exact quiet
  cases hl : ownedLease env s raw h fun _ => true with
  | error status => obtain rfl | rfl := ownedLease_error hl <;> exact quiet
  | ok m =>
    obtain ⟨row, held, rawEq, unfenced⟩ := ownedLease_ok hl
    exact .settle (.fail _ _ _ _) row held rawEq unfenced

theorem listHasRun_absent {items : List RunPayload} {tenantId runId : String}
    (h : listHasRun items tenantId runId = .absent) :
    ∀ raw ∈ items, ¬ raw.IsFor tenantId runId := by
  unfold listHasRun at h
  split at h
  · simp at h
  · rename_i none
    simpa using none

theorem acquireReconciliationFence_change (sys : System) (s : Store) (req : AcquireRequest)
    (now : Time) : Change env sys (.acquireFence req now) s
      ((acquireReconciliationFence env s req now).2.events req)
      (acquireReconciliationFence env s req now).1 := by
  have quiet : Change env sys (.acquireFence req now) s [] s := .quiet (.refl s) fun _ => id
  unfold acquireReconciliationFence
  dsimp only
  split
  · exact quiet
  rename_i unfenced
  split
  · exact quiet
  split
  · exact quiet
  split
  · exact quiet
  rename_i queued
  split
  · exact quiet
  rename_i processing
  split
  · exact quiet
  split
  · rename_i reply refused
    cases hstate : metadataState s req now with
    | absent => simp [hstate, OwnerState.refusal] at refused
    | owned =>
      obtain rfl : AcquireReply.owned = reply := by simpa [hstate, OwnerState.refusal] using refused
      exact quiet
    | inconclusive =>
      obtain rfl : AcquireReply.inconclusive = reply := by
        simpa [hstate, OwnerState.refusal] using refused
      exact quiet
  · exact .claim (Bool.eq_false_iff.mpr unfenced) (listHasRun_absent (not_not.mp queued))
      (listHasRun_absent (not_not.mp processing))

variable (env) in
theorem expiredLeaseGuard_cases (s : Store) (fenceKey : String) (lease : ExpectedLease)
    (now : Time) : ∃ s₁, Rewritten s s₁ ∧
      ((∃ refusal, expiredLeaseGuard env s fenceKey lease now = (s₁, some refusal)) ∨
        expiredLeaseGuard env s fenceKey lease now = (s₁, none) ∧
        hexists s₁.fences fenceKey = false ∧
        ∃ m, leaseRow s₁ (env.messageIdForRaw lease.raw) = some (.table m) ∧
          m.handle = lease.handle env) := by
  have kept := expiredLeaseGuard_rewritten env s fenceKey lease now
  rcases hguard : expiredLeaseGuard env s fenceKey lease now with ⟨s₁, _ | refusal⟩
  all_goals rw [hguard] at kept
  · exact ⟨s₁, kept, .inr ⟨rfl, (expiredLeaseGuard_pass hguard).2⟩⟩
  · exact ⟨s₁, kept, .inl ⟨refusal, rfl⟩⟩

variable (env) in
theorem requeueWithFence_cases (s : Store) (call : RequeueCall) (enqueuedAt now : Time) :
    ∃ s₁, Rewritten s s₁ ∧
      ((∃ refusal, requeueWithFence env s call enqueuedAt now = (s₁, some refusal)) ∨
        requeueWithFence env s call enqueuedAt now = (s₁.requeued env call enqueuedAt, none) ∧
        hexists s₁.fences (call.lease.raw.fenceKey env) = false ∧
        call.lease.raw ∈ s₁.processing ∧
        ∃ m, leaseRow s₁ (env.messageIdForRaw call.lease.raw) = some (.table m) ∧
          m.handle = call.lease.handle env) := by
  obtain ⟨s₁, kept, ⟨refusal, guard⟩ | ⟨guard, unfenced, row⟩⟩ :=
    expiredLeaseGuard_cases env s (call.lease.raw.fenceKey env) call.lease now
  · exact ⟨s₁, kept, .inl ⟨refusal, by simp only [requeueWithFence, guard]⟩⟩
  · refine ⟨s₁, kept, ?_⟩
    simp only [requeueWithFence, guard]
    split
    · exact .inl ⟨_, rfl⟩
    split
    · exact .inl ⟨_, rfl⟩
    rename_i processing
    exact .inr ⟨rfl, unfenced, not_not.mp processing, row⟩

/-- The store part of `System.effect_change` for a reclaim pass. -/
theorem reclaim_change (sys : System) (i : Nat) (tick : Tick) :
    ∃ s₁, Rewritten sys.store s₁ ∧ Change env sys (.reclaim i tick) s₁
      ((sys.passes i).events env sys.store tick)
      ((sys.passes i).command env sys.store tick).1 := by
  have quiet : ∀ s, Change env sys (.reclaim i tick) s [] s :=
    fun s => .quiet (.refl s) fun _ => id
  unfold ReclaimPass.events ReclaimPass.command
  cases phase : (sys.passes i).phase with
  | start | readProcessing | readRetry | finished => exact ⟨_, .refl _, quiet _⟩
  | trim rest => exact ⟨_, .refl _, .quiet ⟨rfl, rfl, rfl, rfl, rfl, rfl, rfl, rfl⟩ fun _ => id⟩
  | requeue call rest =>
    obtain ⟨s₁, kept, ⟨refusal, h⟩ | ⟨h, unfenced, processing, m, row, held⟩⟩ :=
      requeueWithFence_cases env sys.store call tick.clientTime tick.redisTime
    · simp only [h]
      exact ⟨s₁, kept, quiet s₁⟩
    · simp only [h]
      exact ⟨s₁, kept, .requeue phase unfenced row held processing⟩
  | deadLetter call rest =>
    obtain ⟨s₁, kept, ⟨refusal, guard⟩ | ⟨guard, unfenced, m, row, held⟩⟩ :=
      expiredLeaseGuard_cases env sys.store (deadLetterFenceKey env call.lease.raw) call.lease
        tick.redisTime
    · simp only [deadLetterExpiredLease, guard]
      exact ⟨s₁, kept, quiet s₁⟩
    · simp only [deadLetterExpiredLease, guard]
      exact ⟨s₁, kept, .deadLetter phase unfenced row held⟩

/-- One label normalizes lease times at most, and then makes one change. -/
theorem System.effect_change (env : Environment) (sys : System) (l : Label) :
    ∃ s₁, Rewritten sys.store s₁ ∧
      Change env sys l s₁ (sys.effect env l).2 (sys.effect env l).1 := by
  cases l with
  | enqueue => exact ⟨_, .refl _, enqueueRun_change sys _ _ _⟩
  | removeQueued => exact ⟨_, .refl _, .remove .script⟩
  | removeQueuedRun _ _ scanLimit => exact ⟨_, .refl _, .remove (.run scanLimit)⟩
  | leaseCandidate => exact ⟨_, .refl _, leaseCandidate_change sys _ _ _ _ _ _ _⟩
  | heartbeat => exact ⟨_, .refl _, heartbeatWithFence_change sys _ _ _ _⟩
  | ack => exact ⟨_, .refl _, ackRun_change sys _ _ _⟩
  | fail => exact ⟨_, .refl _, failLeasedRun_change sys _ _ _ _ _ _ _⟩
  | verify | startReclaim => exact ⟨_, .refl _, .quiet (.refl _) fun _ => id⟩
  | reclaim => exact reclaim_change sys _ _
  | acquireFence => exact ⟨_, .refl _, acquireReconciliationFence_change sys _ _ _⟩
  | renewFence key ownerToken ttlMs =>
    refine ⟨_, .refl _, ?_⟩
    simp only [System.effect, renewReconciliationFence]
    split
    · exact .quiet (.refl _) fun _ => id
    split
    · rename_i held
      refine .quiet ⟨rfl, rfl, rfl, rfl, rfl, rfl, rfl, rfl⟩ fun k hk => ?_
      rw [hexists_eq_true] at hk ⊢
      obtain ⟨v, hv⟩ := hk
      rw [hget_hset] at hv
      split at hv
      · subst k
        cases hf : hget sys.store.fences key with
        | none => simp [hf] at held
        | some f => exact ⟨f, rfl⟩
      · exact ⟨v, hv⟩
    · exact .quiet (.refl _) fun _ => id
  | releaseFence key ownerToken =>
    refine ⟨_, .refl _, ?_⟩
    simp only [System.effect, releaseReconciliationFence]
    split
    · exact .quiet ⟨rfl, rfl, rfl, rfl, rfl, rfl, rfl, rfl⟩ fun k hk => hexists_of_hdel hk
    · exact .quiet (.refl _) fun _ => id
  | expireFence key =>
    exact ⟨_, .refl _, .quiet ⟨rfl, rfl, rfl, rfl, rfl, rfl, rfl, rfl⟩ fun k hk =>
      hexists_of_hdel hk⟩
  | pruneHeartbeats | trimDeadLetters =>
    exact ⟨_, .refl _, .quiet ⟨rfl, rfl, rfl, rfl, rfl, rfl, rfl, rfl⟩ fun _ => id⟩

end AiPlatform.Queue
