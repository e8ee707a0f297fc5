import AiPlatform.Queue.RunView

/-!
# Isolation of runs

The operations a caller addresses to one run by its tenant and run id, and when they can be noticed
by a caller of another run. Index field and fence key are the two ids joined by a colon; the ids
themselves may contain colons, so isolation is decided by whether the joined names differ.
-/
namespace AiPlatform.Queue

open AiPlatform.Foundation Hash SortedSet

inductive RunOperation where
  | enqueue (workspaceId userId body : String) (enqueuedAt : Time)
  | removeQueuedRun (scanLimit : Int)
  | acquireFence (ownerToken : String) (workerTtl : Time) (scanLimit fenceTtlMs : Int) (now : Time)
  | renewFence (ownerToken : String) (ttlMs : Int)
  | releaseFence (ownerToken : String)
  | queuePosition
  | readAdmission (workspaceId userId body : String)
  deriving DecidableEq, Repr

inductive RunAnswer where
  | enqueued (reply : Option EnqueueReply)
  | removed (count : Nat)
  | acquired (reply : AcquireReply)
  | renewed (reply : RenewReply)
  | released (wasOwner : Bool)
  | position (place : Option Nat)
  | admission (found : Option QueueAdmissionMetadata)
  deriving DecidableEq, Repr

/-- The operation for one run: the store it leaves and what the caller is told. -/
def RunOperation.call (env : Environment) (s : Store) (tenantId runId : String) :
    RunOperation → Store × RunAnswer
  | .enqueue workspaceId userId body enqueuedAt =>
    let result := enqueueRun env s ⟨tenantId, workspaceId, userId, runId, body⟩ enqueuedAt
    (result.1, .enqueued result.2)
  | .removeQueuedRun scanLimit =>
    let result := Queue.removeQueuedRun env s tenantId runId scanLimit
    (result.1, .removed result.2)
  | .acquireFence ownerToken workerTtl scanLimit fenceTtlMs now =>
    let result := acquireReconciliationFence env s
      ⟨tenantId, runId, ownerToken, workerTtl, scanLimit, fenceTtlMs⟩ now
    (result.1, .acquired result.2)
  | .renewFence ownerToken ttlMs =>
    let result := renewReconciliationFence s (reconciliationFenceKey env tenantId runId) ownerToken
      ttlMs
    (result.1, .renewed result.2)
  | .releaseFence ownerToken =>
    let result := releaseReconciliationFence s
      (reconciliationFenceKey env tenantId runId) ownerToken
    (result.1, .released result.2)
  | .queuePosition =>
    let result := getRunQueuePosition s tenantId runId
    (result.1, .position result.2)
  | .readAdmission workspaceId userId body =>
    (s, .admission (readQueueAdmission env s ⟨tenantId, workspaceId, userId, runId, body⟩))

/-- The answer without the places in the shared queue: ranks, and the ordinal that an admission
takes from the shared counter. The ordinal of a message that is already queued stays. -/
def RunAnswer.withoutPositions : RunAnswer → RunAnswer
  | .enqueued (some (.enqueued _ _)) => .enqueued (some (.enqueued 0 0))
  | .enqueued (some (.alreadyEnqueued _ sequence)) => .enqueued (some (.alreadyEnqueued 0 sequence))
  | .position place => .position (place.map fun _ => 0)
  | .admission found => .admission (found.map fun found => { found with queuePosition := 0 })
  | answer => answer

/-- The scan limit of the operation covers the shared keys it scans. -/
def RunOperation.WithinCapacity (s : Store) : RunOperation → Prop
  | .removeQueuedRun scanLimit => s.queued.length ≤ scanLimit
  | .acquireFence _ _ scanLimit _ _ => s.queued.length ≤ scanLimit ∧ hlen s.queuedMeta ≤ scanLimit
  | _ => True

/-- No operation for `(tenantId, runId)`, in any reachable state, changes what the queue holds for
the other run or what an operation for the other run answers. -/
def Isolated (env : Environment) (tenantId runId tenantId' runId' : String) : Prop :=
  ∀ (labels : List Label) (op query : RunOperation),
    let s := ((machine env).run labels).store
    let s' := (op.call env s tenantId runId).1
    SameLeases s s' ∧ SameRun env tenantId' runId' s s' ∧
      (query.WithinCapacity s → query.WithinCapacity s' →
        (query.call env s' tenantId' runId').2.withoutPositions =
          (query.call env s tenantId' runId').2.withoutPositions)

section

variable {env : Environment} {tenantId runId tenantId' runId' : String} {s s' : Store}

/-! ## What an operation leaves alone -/

/-- `s'` is `s` up to the value of one fence key. -/
def FenceWrite (key : String) (s s' : Store) : Prop :=
  ∃ fences, s' = { s with fences := fences } ∧
    ∀ other, other ≠ key → hget fences other = hget s.fences other

theorem FenceWrite.refl (key : String) (s : Store) : FenceWrite key s s := ⟨_, rfl, fun _ _ => rfl⟩

theorem FenceWrite.hset (key : String) (s : Store) (fence : Fence) :
    FenceWrite key s { s with fences := hset s.fences key fence } :=
  ⟨_, rfl, fun _ hne => hget_hset_ne _ _ hne⟩

theorem acquireReconciliationFence_write (env : Environment) (s : Store) (req : AcquireRequest)
    (now : Time) : FenceWrite (reconciliationFenceKey env req.tenantId req.runId) s
      (acquireReconciliationFence env s req now).1 := by
  unfold acquireReconciliationFence
  dsimp only
  repeat' split
  all_goals first | exact .refl _ s | exact .hset _ s _

theorem renewReconciliationFence_write (s : Store) (key ownerToken : String) (ttlMs : Int) :
    FenceWrite key s (renewReconciliationFence s key ownerToken ttlMs).1 := by
  unfold renewReconciliationFence
  split
  · exact .refl key s
  split
  · exact .hset key s _
  · exact .refl key s

theorem releaseReconciliationFence_write (s : Store) (key ownerToken : String) :
    FenceWrite key s (releaseReconciliationFence s key ownerToken).1 := by
  unfold releaseReconciliationFence
  split
  · exact ⟨_, rfl, fun other hne => by simp [hne]⟩
  · exact .refl key s

theorem enqueueRun_rows (rows : Rows env s) (raw : RunPayload) (enqueuedAt : Time) :
    Rows env (enqueueRun env s raw enqueuedAt).1 := by
  unfold enqueueRun enqueueWithMetadata
  split
  · rename_i hvalid
    dsimp only
    split
    · exact rows
    split
    · exact rows
    split
    · exact rows
    · exact rows.pushQueued (Bool.and_eq_true _ _ ▸ hvalid).1 enqueuedAt
  · exact rows

/-- What an operation does to the store: it admits a message of its run, removes messages and rows
of its run, or writes its fence. -/
theorem RunOperation.call_store (tenantId runId : String) (rows : Rows env s) (op : RunOperation) :
    (∃ raw enqueuedAt, raw.IsFor tenantId runId ∧
      (op.call env s tenantId runId).1 = (enqueueRun env s raw enqueuedAt).1) ∨
    Removes env tenantId runId s (op.call env s tenantId runId).1 ∨
    FenceWrite (reconciliationFenceKey env tenantId runId) s
      (op.call env s tenantId runId).1 := by
  cases op with
  | enqueue => exact .inl ⟨_, _, ⟨rfl, rfl⟩, rfl⟩
  | removeQueuedRun scanLimit =>
    exact .inr (.inl (removeQueuedRun_removes tenantId runId rows scanLimit).toRemoves)
  | acquireFence => exact .inr (.inr (acquireReconciliationFence_write env s _ _))
  | renewFence => exact .inr (.inr (renewReconciliationFence_write s _ _ _))
  | releaseFence => exact .inr (.inr (releaseReconciliationFence_write s _ _))
  | queuePosition => exact .inr (.inl (getRunQueuePosition_removes _ _ rows))
  | readAdmission => exact .inr (.inl (.refl s))

theorem RunOperation.call_rows (rows : Rows env s) (op : RunOperation) :
    Rows env (op.call env s tenantId runId).1 := by
  obtain ⟨raw, enqueuedAt, -, heq⟩ | removes | ⟨fences, heq, -⟩ :=
    op.call_store tenantId runId rows
  · exact heq ▸ enqueueRun_rows rows raw enqueuedAt
  · exact removes.rows rows
  · exact heq ▸ ⟨rows.processing, rows.retry, rows.queued, rows.index, rows.listed⟩

theorem RunOperation.call_sameRun (rows : Rows env s) (op : RunOperation)
    (hfield : queuedRunIndexField tenantId runId ≠ queuedRunIndexField tenantId' runId') :
    SameLeases s (op.call env s tenantId runId).1 ∧
      SameRun env tenantId' runId' s (op.call env s tenantId runId).1 := by
  obtain ⟨raw, enqueuedAt, hraw, heq⟩ | removes | ⟨fences, heq, hother⟩ :=
    op.call_store tenantId runId rows
  · exact heq ▸ enqueueRun_sameRun hraw enqueuedAt hfield
  · exact ⟨removes.sameLeases, removes.sameRun hfield⟩
  · exact heq ▸ ⟨⟨rfl, rfl, rfl, rfl⟩, sameRun_fence hother hfield⟩

/-! ## Answers depend on what the queue holds for the run -/

theorem zrank_of_sameRun (same : SameRun env tenantId runId s s') {raw : RunPayload}
    (hraw : raw.indexField = queuedRunIndexField tenantId runId) :
    (zrank s.queuedOrder (env.messageIdForRaw raw) = none ∧
      zrank s'.queuedOrder (env.messageIdForRaw raw) = none) ∨
    ∃ rank rank', zrank s.queuedOrder (env.messageIdForRaw raw) = some rank ∧
      zrank s'.queuedOrder (env.messageIdForRaw raw) = some rank' := by
  have hsome := same.zrank_isSome hraw
  cases hrank : zrank s.queuedOrder (env.messageIdForRaw raw) <;>
    cases hrank' : zrank s'.queuedOrder (env.messageIdForRaw raw) <;> simp_all

/-- A message that is found admitted in one store is found in the other, with the same ordinal. -/
theorem indexedAdmission_of_sameRun (rows : Rows env s) (same : SameRun env tenantId runId s s')
    {raw : RunPayload} (hraw : raw.indexField = queuedRunIndexField tenantId runId)
    (messageIds : List String) :
    (indexedAdmission s messageIds (env.messageIdForRaw raw) = none ∧
      indexedAdmission s' messageIds (env.messageIdForRaw raw) = none) ∨
    ∃ rank rank' sequence,
      indexedAdmission s messageIds (env.messageIdForRaw raw) = some (rank, sequence) ∧
      indexedAdmission s' messageIds (env.messageIdForRaw raw) = some (rank', sequence) := by
  unfold indexedAdmission
  by_cases hmem : env.messageIdForRaw raw ∈ messageIds
  · simp only [if_pos hmem, same.queuedMeta raw hraw]
    cases hrow : hget s.queuedMeta (env.messageIdForRaw raw) with
    | none => exact .inl ⟨rfl, rfl⟩
    | some row =>
      obtain ⟨m, rfl, hm⟩ := rows.queued.at hrow
      obtain ⟨n, hn⟩ := hm.sequenced
      obtain ⟨hrank, hrank'⟩ | ⟨rank, rank', hrank, hrank'⟩ := zrank_of_sameRun same hraw
      · exact .inl (by simp only [hrank, hrank', and_self])
      · exact .inr ⟨rank, rank', n + 1, by simp [hrank, hrank', hn]⟩
  · exact .inl (by simp only [if_neg hmem, and_self])

theorem enqueueRun_answer (rows : Rows env s) (leases : SameLeases s s')
    {raw : RunPayload} (same : SameRun env raw.tenantId raw.runId s s') (enqueuedAt : Time) :
    (RunAnswer.enqueued (enqueueRun env s' raw enqueuedAt).2).withoutPositions =
      (RunAnswer.enqueued (enqueueRun env s raw enqueuedAt).2).withoutPositions := by
  have hfence : hexists s'.fences (raw.fenceKey env) = hexists s.fences (raw.fenceKey env) := by
    simp only [hexists, RunPayload.fenceKey, same.fence]
  have hindex : hget s'.queuedRunIndex raw.indexField = hget s.queuedRunIndex raw.indexField :=
    same.index
  unfold enqueueRun
  split
  · unfold enqueueWithMetadata
    simp only [hfence, hindex, leases.processingMeta, leases.retryMeta]
    split
    · rfl
    obtain ⟨hnone, hnone'⟩ | ⟨rank, rank', sequence, hsome, hsome'⟩ :=
      indexedAdmission_of_sameRun rows same rfl (decodeIndex (hget s.queuedRunIndex raw.indexField))
    · simp only [hnone, hnone']
      split <;> rfl
    · simp only [hsome, hsome']
      rfl
  · rfl

theorem readQueueAdmission_answer (rows : Rows env s) (leases : SameLeases s s')
    {raw : RunPayload} (same : SameRun env raw.tenantId raw.runId s s') :
    (RunAnswer.admission (readQueueAdmission env s' raw)).withoutPositions =
      (RunAnswer.admission (readQueueAdmission env s raw)).withoutPositions := by
  have hlease : readLeaseAdmission env s' raw = readLeaseAdmission env s raw := by
    simp only [readLeaseAdmission, leases.processingMeta, leases.retryMeta]
  unfold readQueueAdmission
  simp only [same.queuedMeta raw rfl, hlease]
  cases hrow : hget s.queuedMeta (env.messageIdForRaw raw) with
  | none => rfl
  | some row =>
    obtain ⟨m, rfl, hm⟩ := rows.queued.at hrow
    obtain ⟨n, hn⟩ := hm.sequenced
    obtain ⟨hrank, hrank'⟩ | ⟨rank, rank', hrank, hrank'⟩ := zrank_of_sameRun same rfl
    · simp only [hrank, hrank']
    · simp only [hrank, hrank', hn]
      split <;> rfl

/-! ### Removal in lockstep -/

structure RemoveProgress.Alike (env : Environment) (tenantId runId : String)
    (p p' : RemoveProgress) : Prop where
  store : SameRun env tenantId runId p.store p'.store
  removedTotal : p'.removedTotal = p.removedTotal
  matched : p'.matched = p.matched

theorem removeMessage_alike {p p' : RemoveProgress} (rows : QueuedRows env p.store.queuedMeta)
    (h : p.Alike env tenantId runId p') {raw : RunPayload}
    (hfield : raw.indexField = queuedRunIndexField tenantId runId) :
    (removeMessage tenantId runId p (env.messageIdForRaw raw)).Alike env tenantId runId
      (removeMessage tenantId runId p' (env.messageIdForRaw raw)) := by
  unfold removeMessage
  rw [h.store.queuedMeta raw hfield]
  cases hrow : hget p.store.queuedMeta (env.messageIdForRaw raw) with
  | none => exact ⟨h.store.zremOrder _, h.removedTotal, h.matched⟩
  | some row =>
    obtain ⟨m, rfl, hm⟩ := rows.at hrow
    dsimp only
    split
    · rename_i hids
      have hrun : raw.IsFor tenantId runId := ⟨hm.tenantId ▸ hids.1, hm.runId ▸ hids.2⟩
      simp only [hm.raw]
      exact ⟨(h.store.lremAll raw).dropQueuedRow _,
        congrArg₂ (· + ·) h.removedTotal (h.store.count hrun), congrArg (· + 1) h.matched⟩
    · exact h

theorem foldl_removeMessage_alike (ids : List String)
    (hids : ∀ id ∈ ids, ∃ raw, id = env.messageIdForRaw raw ∧
      raw.indexField = queuedRunIndexField tenantId runId)
    {p p' : RemoveProgress} (rows : QueuedRows env p.store.queuedMeta)
    (h : p.Alike env tenantId runId p') :
    (ids.foldl (removeMessage tenantId runId) p).Alike env tenantId runId
      (ids.foldl (removeMessage tenantId runId) p') := by
  induction ids generalizing p p' with
  | nil => exact h
  | cons id ids ih =>
    obtain ⟨raw, rfl, hfield⟩ := hids id (by simp)
    exact ih (fun id hid => hids id (by simp [hid]))
      ((removeMessage_removes p rows hfield).queuedRows rows) (removeMessage_alike rows h hfield)

theorem removeQueuedWithMetadata_alike (rows : Rows env s)
    (same : SameRun env tenantId runId s s') :
    SameRun env tenantId runId (removeQueuedWithMetadata s tenantId runId).1
        (removeQueuedWithMetadata s' tenantId runId).1 ∧
      (removeQueuedWithMetadata s' tenantId runId).2 =
        (removeQueuedWithMetadata s tenantId runId).2 := by
  unfold removeQueuedWithMetadata
  simp only [same.index]
  cases hrow : hget s.queuedRunIndex (queuedRunIndexField tenantId runId) with
  | none => exact ⟨same, rfl⟩
  | some row =>
    obtain ⟨ids, rfl, hids⟩ := rows.index _ _ hrow
    have hstart : RemoveProgress.Alike env tenantId runId ⟨s, 0, 0⟩ ⟨s', 0, 0⟩ := ⟨same, rfl, rfl⟩
    have halike := foldl_removeMessage_alike (removalIds (.table ids))
      (fun id hid => hids id (List.mem_of_mem_filter hid)) rows.queued hstart
    refine ⟨halike.store.setIndex (by simp), ?_⟩
    simp only [halike.matched, halike.removedTotal]

theorem deleteQueuedMetadataForPayload_alike (same : SameRun env tenantId runId s s')
    (messageId : String) :
    SameRun env tenantId runId
      (s.deleteQueuedMetadataForPayload (queuedRunIndexField tenantId runId) messageId)
      (s'.deleteQueuedMetadataForPayload (queuedRunIndexField tenantId runId) messageId) := by
  refine (same.dropQueuedRow messageId).setIndex ?_
  simp only [removeMessageIdFromRunIndex, same.index]
  split
  · exact same.index
  split <;> simp

theorem foldl_fallback_alike (raws : List RunPayload)
    (hraws : ∀ raw ∈ raws, raw.IsFor tenantId runId)
    {acc acc' : Store × Nat} (same : SameRun env tenantId runId acc.1 acc'.1)
    (total : acc'.2 = acc.2) :
    (raws.foldl (removePayload env tenantId runId) acc').2 =
      (raws.foldl (removePayload env tenantId runId) acc).2 := by
  induction raws generalizing acc acc' with
  | nil => exact total
  | cons raw raws ih =>
    refine ih (fun raw hraw => hraws raw (by simp [hraw]))
      (deleteQueuedMetadataForPayload_alike (same.lremAll raw) _) ?_
    exact congrArg₂ (· + ·) total (same.count (hraws raw (by simp)))

/-- A scan of the whole queue works on the messages of the run only. -/
theorem removeQueuedRunBoundedFallback_alike (same : SameRun env tenantId runId s s')
    (scanLimit : Int) (capacity : s.queued.length ≤ scanLimit)
    (capacity' : s'.queued.length ≤ scanLimit) :
    (removeQueuedRunBoundedFallback env s' tenantId runId scanLimit).2 =
      (removeQueuedRunBoundedFallback env s tenantId runId scanLimit).2 := by
  unfold removeQueuedRunBoundedFallback
  split
  · rfl
  have hscan : ∀ l : List RunPayload, l.length ≤ scanLimit → lrangeLast l scanLimit.toNat = l := by
    intro l hl
    have : l.length - scanLimit.toNat = 0 := by omega
    simp [lrangeLast, this]
  have hitems : s'.queued.filter (fun raw => env.acceptsRaw raw ∧ raw.IsFor tenantId runId) =
      s.queued.filter fun raw => env.acceptsRaw raw ∧ raw.IsFor tenantId runId := by
    simp only [Bool.decide_and, ← List.filter_filter, same.queued]
  rw [hscan _ capacity, hscan _ capacity']
  have hfold : ∀ (l : List RunPayload) (acc : Store × Nat),
      l.foldl (fun acc raw =>
        if env.acceptsRaw raw ∧ raw.IsFor tenantId runId then
          removePayload env tenantId runId acc raw
        else acc) acc =
      (l.filter fun raw => env.acceptsRaw raw ∧ raw.IsFor tenantId runId).foldl
        (removePayload env tenantId runId) acc := by
    intro l acc
    simp only [List.foldl_filter, decide_eq_true_eq]
  rw [hfold, hfold, hitems]
  refine foldl_fallback_alike _ (fun raw hraw => ?_) same rfl
  exact (of_decide_eq_true (List.mem_filter.mp hraw).2).2

theorem removeQueuedRun_answer (rows : Rows env s) (same : SameRun env tenantId runId s s')
    (rows' : Rows env s') {scanLimit : Int} (capacity : s.queued.length ≤ scanLimit)
    (capacity' : s'.queued.length ≤ scanLimit) :
    (removeQueuedRun env s' tenantId runId scanLimit).2 =
      (removeQueuedRun env s tenantId runId scanLimit).2 := by
  obtain ⟨hscript, hreply⟩ := removeQueuedWithMetadata_alike rows same
  have hlength := (removeQueuedWithMetadata_removes tenantId runId rows).queued.length_le
  have hlength' := (removeQueuedWithMetadata_removes tenantId runId rows').queued.length_le
  have hfallback := removeQueuedRunBoundedFallback_alike hscript scanLimit (by omega) (by omega)
  unfold removeQueuedRun
  revert hreply hfallback
  generalize removeQueuedWithMetadata s tenantId runId = result
  generalize removeQueuedWithMetadata s' tenantId runId = result'
  obtain ⟨store, reply⟩ := result
  obtain ⟨store', reply'⟩ := result'
  rintro rfl hfallback
  cases reply' with
  | removed => rfl
  | missingIndex | missingMetadata => exact hfallback

/-! ### The reconciliation fence -/

variable (tenantId runId) in
/-- With every row decodable, the hash names an owner exactly when it has a row of the run. -/
theorem queuedMetadataState_of_tables {rows : List (String × Encoded QueuedMeta)}
    (tables : ∀ entry ∈ rows, ∃ m, entry.2 = .table m) :
    (queuedMetadataState rows tenantId runId = .absent ∧
      ∀ id m, (id, .table m) ∈ rows → ¬ (m.tenantId = tenantId ∧ m.runId = runId)) ∨
    (queuedMetadataState rows tenantId runId = .owned ∧
      ∃ id m, (id, .table m) ∈ rows ∧ m.tenantId = tenantId ∧ m.runId = runId) := by
  induction rows with
  | nil => exact .inl ⟨rfl, by simp⟩
  | cons entry rows ih =>
    obtain ⟨id, row⟩ := entry
    obtain ⟨m, hrow⟩ := tables (id, row) (by simp)
    obtain rfl : row = .table m := hrow
    unfold queuedMetadataState
    by_cases hids : m.tenantId = tenantId ∧ m.runId = runId
    · rw [if_pos hids]
      exact .inr ⟨rfl, id, m, by simp, hids⟩
    rw [if_neg hids]
    obtain ⟨hstate, hnone⟩ | ⟨hstate, id', m', hmem, hids'⟩ :=
      ih fun entry hentry => tables entry (by simp [hentry])
    · refine .inl ⟨hstate, fun id' m' hmem => ?_⟩
      obtain heq | hmem := List.mem_cons.mp hmem
      · obtain ⟨-, rfl⟩ : id' = id ∧ m' = m := by simpa using heq
        exact hids
      · exact hnone id' m' hmem
    · exact .inr ⟨hstate, id', m', by simp [hmem], hids'⟩

theorem QueuedRows.tables {h : Hash String (Encoded QueuedMeta)} (rows : QueuedRows env h) :
    ∀ entry ∈ hgetall h, ∃ m, entry.2 = .table m := by
  rintro ⟨id, row⟩ hentry
  obtain ⟨-, m, -, rfl, -⟩ := rows id row ((mem_hgetall h id row).mp hentry)
  exact ⟨m, rfl⟩

/-- A row of the run is filed under the id of a payload of the run. -/
theorem QueuedRows.filed {h : Hash String (Encoded QueuedMeta)} (rows : QueuedRows env h)
    {id : String} {m : QueuedMeta} (hmem : (id, .table m) ∈ hgetall h)
    (hids : m.tenantId = tenantId ∧ m.runId = runId) :
    ∃ raw, id = env.messageIdForRaw raw ∧
      raw.indexField = queuedRunIndexField tenantId runId := by
  obtain ⟨raw, m', rfl, heq, hm⟩ := rows id _ ((mem_hgetall h id _).mp hmem)
  obtain rfl : m = m' := by simpa using heq
  refine ⟨raw, rfl, ?_⟩
  rw [RunPayload.indexField, ← hm.tenantId, ← hm.runId, hids.1, hids.2]

theorem queuedMetadataState_of_sameRun (rows : Rows env s) (rows' : Rows env s')
    (same : SameRun env tenantId runId s s') :
    queuedMetadataState (hgetall s'.queuedMeta) tenantId runId =
      queuedMetadataState (hgetall s.queuedMeta) tenantId runId := by
  obtain ⟨hstate, hnone⟩ | ⟨hstate, id, m, hmem, hids⟩ :=
    queuedMetadataState_of_tables tenantId runId rows.queued.tables <;>
  obtain ⟨hstate', hnone'⟩ | ⟨hstate', id', m', hmem', hids'⟩ :=
    queuedMetadataState_of_tables tenantId runId rows'.queued.tables
  · rw [hstate, hstate']
  · obtain ⟨raw, rfl, hfield⟩ := rows'.queued.filed hmem' hids'
    rw [mem_hgetall, same.queuedMeta raw hfield, ← mem_hgetall] at hmem'
    exact absurd hids' (hnone _ _ hmem')
  · obtain ⟨raw, rfl, hfield⟩ := rows.queued.filed hmem hids
    rw [mem_hgetall, ← same.queuedMeta raw hfield, ← mem_hgetall] at hmem
    exact absurd hids (hnone' _ _ hmem)
  · rw [hstate, hstate']

theorem leaseMetadataState_of_sameLeases (leases : SameLeases s s') (req : AcquireRequest)
    (now : Time) (rows : List (String × Encoded LeaseMeta)) :
    leaseMetadataState s' req now rows = leaseMetadataState s req now rows := by
  induction rows with
  | nil => rfl
  | cons entry rows ih =>
    obtain ⟨id, row⟩ := entry
    cases row with
    | text => rfl
    | table m =>
      simp only [leaseMetadataState, leaseRowState, leases.processing, leases.workerHeartbeat, ih]

theorem acquireReconciliationFence_answer (rows : Rows env s) (rows' : Rows env s')
    (leases : SameLeases s s') {req : AcquireRequest} (now : Time)
    (same : SameRun env req.tenantId req.runId s s')
    (capacity : s.queued.length ≤ req.scanLimit ∧ hlen s.queuedMeta ≤ req.scanLimit)
    (capacity' : s'.queued.length ≤ req.scanLimit ∧ hlen s'.queuedMeta ≤ req.scanLimit) :
    (acquireReconciliationFence env s' req now).2 =
    (acquireReconciliationFence env s req now).2 := by
  have hfence : hexists s'.fences (reconciliationFenceKey env req.tenantId req.runId) =
      hexists s.fences (reconciliationFenceKey env req.tenantId req.runId) := by
    simp only [hexists, same.fence]
  have hindex : hexists s'.queuedRunIndex (queuedRunIndexField req.tenantId req.runId) =
      hexists s.queuedRunIndex (queuedRunIndexField req.tenantId req.runId) := by
    simp only [hexists, same.index]
  have hqueued : listHasRun s'.queued req.tenantId req.runId =
      listHasRun s.queued req.tenantId req.runId := by
    have hany : ∀ l : List RunPayload, l.any (fun raw => raw.IsFor req.tenantId req.runId) =
        !(l.filter fun raw => raw.IsFor req.tenantId req.runId).isEmpty := by
      intro l
      induction l with
      | nil => rfl
      | cons raw l ih => by_cases hraw : raw.IsFor req.tenantId req.runId <;> simp_all
    simp only [listHasRun, hany, same.queued]
  have hmetadata : metadataState s' req now = metadataState s req now := by
    have hbound : ∀ {count : Nat} {state : OwnerState}, (count : Int) ≤ req.scanLimit →
        boundedState count req.scanLimit state = state := fun hcount => if_neg (by omega)
    simp only [metadataState, hbound capacity.2, hbound capacity'.2, leases.processingMeta,
      leases.retryMeta, queuedMetadataState_of_sameRun rows rows' same,
      leaseMetadataState_of_sameLeases leases]
  have hlength : ¬ req.scanLimit < s.queued.length := by omega
  have hlength' : ¬ req.scanLimit < s'.queued.length := by omega
  unfold acquireReconciliationFence
  simp only [hfence, hindex, hqueued, hmetadata, leases.processing, hlength, hlength', false_or]
  repeat' split
  all_goals rfl

/-! ### The position program in lockstep -/

/-- The scans have found the same messages; the ranks may differ. -/
structure PositionScan.Alike (scan scan' : PositionScan) : Prop where
  messageIds : scan'.messageIds = scan.messageIds
  validMessageIds : scan'.validMessageIds = scan.validMessageIds

inductive PositionPhase.Alike : PositionPhase → PositionPhase → Prop where
  | readIndex : Alike .readIndex .readIndex
  | readMetadata {scan scan'} (id rest) (h : PositionScan.Alike scan scan') :
    Alike (.readMetadata id rest scan) (.readMetadata id rest scan')
  | dropMetadata {scan scan'} (id rest) (h : PositionScan.Alike scan scan') :
    Alike (.dropMetadata id rest scan) (.dropMetadata id rest scan')
  | dropOrder {scan scan'} (id rest) (h : PositionScan.Alike scan scan') :
    Alike (.dropOrder id rest scan) (.dropOrder id rest scan')
  | readRank {scan scan'} (id rest) (h : PositionScan.Alike scan scan') :
    Alike (.readRank id rest scan) (.readRank id rest scan')
  | writeIndex {scan scan'} (h : PositionScan.Alike scan scan') :
    Alike (.writeIndex scan) (.writeIndex scan')
  | dropIndex : Alike .dropIndex .dropIndex
  | returned {place place'} (h : place'.isSome = place.isSome) :
    Alike (.returned place) (.returned place')

theorem PositionScan.Alike.next {scan scan' : PositionScan} (h : scan.Alike scan')
    (rest : List String) : (scan.next rest).Alike (scan'.next rest) := by
  cases rest with
  | cons id rest => exact .readMetadata id rest h
  | nil =>
    simp only [PositionScan.next, h.validMessageIds, h.messageIds]
    split
    · exact .dropIndex
    split
    · exact .writeIndex h
    · exact .returned rfl

theorem PositionScan.Alike.record {scan scan' : PositionScan} (h : scan.Alike scan') (id : String)
    (rank rank' : Nat) : (scan.record id rank).Alike (scan'.record id rank') :=
  ⟨h.messageIds, congrArg (· ++ [id]) h.validMessageIds⟩

theorem PositionScan.Alike.onMetadata {scan scan' : PositionScan} (h : scan.Alike scan')
    (id : String) (rest : List String) (row : Option (Encoded QueuedMeta)) :
    (scan.onMetadata tenantId runId id rest row).Alike
      (scan'.onMetadata tenantId runId id rest row) := by
  unfold PositionScan.onMetadata
  split
  · exact .dropOrder id rest h
  · split
    · exact .dropOrder id rest h
    · exact .dropMetadata id rest h
  · split
    · exact h.next rest
    · exact .readRank id rest h

/-- One command of the two programs. -/
theorem PositionPhase.Alike.command (rows : Rows env s) (same : SameRun env tenantId runId s s')
    {phase phase' : PositionPhase} (h : phase.Alike phase')
    (listed : phase.Listed (queuedRunIndexField tenantId runId) s) :
    SameRun env tenantId runId (phase.command tenantId runId s).1
        (phase'.command tenantId runId s').1 ∧
      (phase.command tenantId runId s).2.Alike (phase'.command tenantId runId s').2 := by
  cases h with
  | readIndex =>
    refine ⟨same, ?_⟩
    simp only [PositionPhase.command, same.index]
    unfold PositionPhase.onIndex
    split
    · exact .returned rfl
    · exact PositionScan.Alike.next ⟨rfl, rfl⟩ _
  | readMetadata id rest h =>
    obtain ⟨raw, rfl, hfield⟩ := rows.index.decoded (listed id (by simp [PositionPhase.ids]))
    refine ⟨same, ?_⟩
    simp only [PositionPhase.command, same.queuedMeta raw hfield]
    exact h.onMetadata _ rest _
  | dropMetadata id rest h => exact ⟨same.hdelMeta id, .dropOrder id rest h⟩
  | dropOrder id rest h => exact ⟨same.zremOrder id, h.next rest⟩
  | readRank id rest h =>
    obtain ⟨raw, rfl, hfield⟩ := rows.index.decoded (listed id (by simp [PositionPhase.ids]))
    refine ⟨same, ?_⟩
    obtain ⟨hrank, hrank'⟩ | ⟨rank, rank', hrank, hrank'⟩ := zrank_of_sameRun same hfield
    · simp only [PositionPhase.command, hrank, hrank']
      exact h.next rest
    · simp only [PositionPhase.command, hrank, hrank']
      exact (h.record _ rank rank').next rest
  | writeIndex h => exact ⟨same.setIndex (by simp [h.validMessageIds]), .returned rfl⟩
  | dropIndex => exact ⟨same.setIndex (by simp), .returned rfl⟩
  | returned h => exact ⟨same, .returned h⟩

theorem PositionPhase.Alike.runAlone (n : Nat) (rows : Rows env s)
    (same : SameRun env tenantId runId s s') {phase phase' : PositionPhase}
    (h : phase.Alike phase') (listed : phase.Listed (queuedRunIndexField tenantId runId) s) :
    (runAlone tenantId runId n (s, phase)).2.Alike (runAlone tenantId runId n (s', phase')).2 := by
  induction n generalizing s s' phase phase' with
  | zero => exact h
  | succ n ih =>
    obtain ⟨removes, listed'⟩ := PositionPhase.command_removes rows listed
    obtain ⟨same, h⟩ := h.command rows same listed
    exact ih (removes.rows rows) same h listed'

theorem getRunQueuePosition_answer (rows : Rows env s) (same : SameRun env tenantId runId s s') :
    (RunAnswer.position (getRunQueuePosition s' tenantId runId).2).withoutPositions =
      (RunAnswer.position (getRunQueuePosition s tenantId runId).2).withoutPositions := by
  have hanswer : ∀ {phase phase' : PositionPhase}, phase.Alike phase' →
      phase'.answer.isSome = phase.answer.isSome := by
    intro phase phase' h
    cases h with
    | returned h => exact h
    | _ => rfl
  have hsome := hanswer (PositionPhase.Alike.runAlone
    (3 * (decodeIndex (hget s.queuedRunIndex (queuedRunIndexField tenantId runId))).length + 2)
    rows same .readIndex fun id hid => by cases hid)
  simp only [getRunQueuePosition, same.index, RunAnswer.withoutPositions]
  revert hsome
  generalize PositionPhase.answer _ = place
  generalize PositionPhase.answer _ = place'
  cases place <;> cases place' <;> simp

/-! ## Isolation is distinctness of the joined names -/

theorem RunOperation.call_answer (rows : Rows env s) (rows' : Rows env s')
    (leases : SameLeases s s') (same : SameRun env tenantId runId s s') (query : RunOperation)
    (capacity : query.WithinCapacity s) (capacity' : query.WithinCapacity s') :
    (query.call env s' tenantId runId).2.withoutPositions =
      (query.call env s tenantId runId).2.withoutPositions := by
  cases query with
  | enqueue => exact enqueueRun_answer rows leases same _
  | removeQueuedRun scanLimit =>
    exact congrArg (fun n => (RunAnswer.removed n).withoutPositions)
      (removeQueuedRun_answer rows same rows' capacity capacity')
  | acquireFence =>
    exact congrArg (fun reply => (RunAnswer.acquired reply).withoutPositions)
      (acquireReconciliationFence_answer rows rows' leases _ same capacity capacity')
  | renewFence =>
    simp only [RunOperation.call, renewReconciliationFence, same.fence]
    repeat' split
    all_goals rfl
  | releaseFence =>
    simp only [RunOperation.call, releaseReconciliationFence, same.fence]
    split <;> rfl
  | queuePosition => exact getRunQueuePosition_answer rows same
  | readAdmission => exact readQueueAdmission_answer rows leases same

end

/-- On an empty queue the fence is claimed. -/
theorem acquireFence_on_empty (env : Environment) (tenantId runId : String) :
    (RunOperation.call env .empty tenantId runId (.acquireFence "owner" 0 1 1 0)).1.fences =
      hset ∅ (reconciliationFenceKey env tenantId runId) ⟨"owner", 1⟩ := by
  rfl

/-- Two runs are isolated exactly when their index fields differ: then no operation on one changes
a row of the other or any answer to it. -/
theorem isolated_iff (env : Environment) (tenantId runId tenantId' runId' : String) :
    Isolated env tenantId runId tenantId' runId' ↔
      queuedRunIndexField tenantId runId ≠ queuedRunIndexField tenantId' runId' := by
  constructor
  · intro isolated heq
    obtain ⟨-, same, -⟩ := isolated [] (.acquireFence "owner" 0 1 1 0) .queuePosition
    have hkey := (reconciliationFenceKey_inj env).mpr heq
    have hfence := same.fence
    simp only [Machine.run, Machine.runFrom, List.foldl_nil, machine_start, System.initial,
      acquireFence_on_empty, ← hkey, hget_hset_self] at hfence
    simp [Store.empty] at hfence
  · intro hfield labels op query
    have rows := (wellFormed_run env labels).rows
    obtain ⟨leases, same⟩ := op.call_sameRun rows hfield
    exact ⟨leases, same, query.call_answer rows (op.call_rows rows) leases same⟩

/-- Both pairs of ids are valid and joined by a colon give the same name: a fence taken for one run
refuses the admission of the other. -/
theorem colonPair_not_isolated :
    (RunPayload.simple "a" "b:c").validIds = true ∧ (RunPayload.simple "a:b" "c").validIds = true ∧
      ("a", "b:c") ≠ ("a:b", "c") ∧
      (RunOperation.call .plain .empty "a:b" "c" (.enqueue "w" "u" "" 0)).2 =
        .enqueued (some (.enqueued 1 1)) ∧
      (RunOperation.call .plain
        (RunOperation.call .plain .empty "a" "b:c" (.acquireFence "owner" 0 1 1 0)).1
        "a:b" "c" (.enqueue "w" "u" "" 0)).2 = .enqueued (some .reconciliationFenced) ∧
      ¬ Isolated .plain "a" "b:c" "a:b" "c" := by
  refine ⟨by decide, by decide, by decide, by decide, by decide, fun isolated => ?_⟩
  obtain ⟨-, -, answers⟩ := isolated [] (.acquireFence "owner" 0 1 1 0) (.enqueue "w" "u" "" 0)
  exact absurd (answers trivial trivial) (by decide)

end AiPlatform.Queue
