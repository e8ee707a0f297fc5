import AiPlatform.Queue.Removal

/-!
# Well-formedness of every reachable state

`WellFormed` needs no assumption on the run: rows describe their messages, listed payloads are
valid, and what a reclaim pass is about to do concerns the payload whose row it has read.
-/
namespace AiPlatform.Queue

open AiPlatform.Foundation Hash SortedSet List

variable {env : Environment}

theorem Rows.empty (env : Environment) : Rows env .empty := by
  constructor <;> intro <;> simp [Store.empty]

variable {s s' : Store} {raw : RunPayload}

theorem Rows.rewritten (rows : Rows env s) (h : Rewritten s s') : Rows env s' where
  processing := rows.processing.kept h.processingRow
  retry := rows.retry.kept h.retryRow
  queued := h.queuedMeta ▸ rows.queued
  index := h.queuedRunIndex ▸ rows.index
  listed raw hraw := rows.listed raw (by rwa [h.queued, h.processing] at hraw)

theorem Rows.sameQueue (rows : Rows env s) (h : SameQueue s s') : Rows env s' where
  processing := h.processingMeta ▸ rows.processing
  retry := h.retryMeta ▸ rows.retry
  queued := h.queuedMeta ▸ rows.queued
  index := h.queuedRunIndex ▸ rows.index
  listed raw hraw := rows.listed raw (by rwa [h.queued, h.processing] at hraw)

theorem Rows.pushQueued (rows : Rows env s) (valid : raw.validIds = true) (enqueuedAt : Time) :
    Rows env (s.pushQueued raw (env.messageIdForRaw raw) (queuedMetadata raw enqueuedAt)
      ((decodeIndex (hget s.queuedRunIndex raw.indexField)).filter
        (· ≠ env.messageIdForRaw raw) ++ [env.messageIdForRaw raw])) where
  processing := rows.processing
  retry := rows.retry
  queued := rows.queued.hset ⟨rfl, rfl, rfl, valid, _, rfl⟩
  index := rows.index.hset fun id hid => by
    obtain hid | hid := mem_append.mp hid
    · exact rows.index.decoded (mem_of_mem_filter hid)
    · exact ⟨raw, mem_singleton.mp hid, rfl⟩
  listed other hother := by
    simp only [Store.pushQueued, mem_append, mem_singleton] at hother
    obtain (hq | rfl) | hp := hother
    · exact rows.listed other (.inl hq)
    · exact valid
    · exact rows.listed other (.inr hp)

theorem Rows.invalidRunIndex (rows : Rows env s) (messageId : String) :
    IndexRows env (invalidRunIndex s messageId) := by
  unfold Queue.invalidRunIndex
  split
  · split
    · exact rows.index.removeRunIndexMessage _ _
    · exact rows.index
  · exact rows.index

theorem leaseMetadata_describes (s : Store) {req : LeaseRequest} (now : Time)
    (accepted : env.acceptsRaw req.raw = true) :
    (leaseMetadata env s req now).Describes env req.raw :=
  ⟨rfl, rfl, rfl, rfl, accepted⟩

section

variable (rows : Rows env s)
include rows

theorem Rows.grantLease {req : LeaseRequest} (now : Time) (accepted : env.acceptsRaw req.raw = true)
    (indexed : lindex s.queued req.absoluteIndex = some req.raw) :
    Rows env (s.grantLease env req now) where
  processing := rows.processing.hset (leaseMetadata_describes s now accepted)
  retry := rows.retry.hset (leaseMetadata_describes s now accepted)
  queued := rows.queued.mono fun _ _ => hget_hdel_some
  index := rows.index.removeRunIndexMessage _ _
  listed raw hraw := by
    simp only [Store.grantLease, Store.takeQueued, removeAt_eq_eraseIdx, mem_cons] at hraw
    obtain hq | rfl | hp := hraw
    · exact rows.listed raw (.inl (mem_of_mem_eraseIdx hq))
    · exact rows.listed _ (.inl (mem_of_lindex indexed))
    · exact rows.listed raw (.inr hp)

theorem Rows.takeInvalid (index : Int) (raw : RunPayload) (letters : List DeadLetter) : Rows env
      { s.takeInvalid index (env.messageIdForRaw raw) with
        deadLetter := letters
        retryMeta := hdel s.retryMeta (env.messageIdForRaw raw) } where
  processing := rows.processing
  retry := rows.retry.hdel _
  queued := rows.queued.mono fun _ _ => hget_hdel_some
  index := rows.invalidRunIndex _
  listed other hother := by
    simp only [Store.takeInvalid, removeAt_eq_eraseIdx] at hother
    exact rows.listed other (hother.imp_left mem_of_mem_eraseIdx)

theorem Rows.recordHeartbeat {messageId worker : String} {m m' : LeaseMeta} (now : Time)
    (row : hget s.processingMeta messageId = some (.table m)) (same : SameLease m m') :
    Rows env (s.recordHeartbeat env messageId worker m' now) := by
  obtain ⟨raw, m₀, rfl, hm₀, hd⟩ := rows.processing _ _ row
  obtain rfl : m = m₀ := by simpa using hm₀
  have hd' : (m'.encoded env).Describes env raw :=
    (same.trans (.encoded env m')).describes hd
  exact { rows with processing := rows.processing.hset hd', retry := rows.retry.hset hd' }

theorem Rows.settled (raw : RunPayload) (messageId : String) (letters : List DeadLetter) :
    Rows env { s.settleLease raw messageId with deadLetter := letters } where
  processing := rows.processing.hdel _
  retry := rows.retry.hdel _
  queued := rows.queued
  index := rows.index
  listed other hother := rows.listed other (hother.imp_right mem_of_mem_erase)

theorem Rows.requeued {call : RequeueCall} (enqueuedAt : Time)
    (hcall : call.retryMetadata.Describes env call.lease.raw)
    (hmem : call.lease.raw ∈ s.processing) :
    Rows env (s.requeued env call enqueuedAt) := by
  have hmid : Rows env { s with
      processing := lremFirst s.processing call.lease.raw
      processingMeta := hdel s.processingMeta (env.messageIdForRaw call.lease.raw) } :=
    { rows with
      processing := rows.processing.hdel _
      listed := fun raw hraw => rows.listed raw (hraw.imp_right mem_of_mem_erase) }
  have hpush := hmid.pushQueued (rows.listed _ (.inr hmem)) enqueuedAt
  exact { hpush with retry := rows.retry.hset hcall }

theorem Rows.deadLettered (call : DeadLetterCall) (letters : List DeadLetter) :
    Rows env (s.deadLettered env call letters) where
  processing := by
    unfold Store.deadLettered
    dsimp only
    split
    · exact rows.processing.hdel _
    · exact rows.processing
  retry := rows.retry.hdel _
  queued := rows.queued
  index := rows.index
  listed other hother := rows.listed other (hother.imp_right mem_of_mem_erase)

end

/-- The row that the requeue script will write describes the payload it requeues. -/
theorem ReclaimPass.Knows.requeue_describes {p : ReclaimPass}
    (knows : p.Knows env fun raw m => m.Describes env raw) {call : RequeueCall}
    {rest : List RunPayload} (phase : p.phase = .requeue call rest) :
    call.retryMetadata.Describes env call.lease.raw := by
  obtain ⟨m, a, read, -, -, -, same⟩ := knows.requeue phase
  exact same.describes read.known

theorem Rows.change {sys : System} {l : Label} {events : List Event} (rows : Rows env s)
    (passes : ∀ i, (sys.passes i).Knows env fun raw m => m.Describes env raw)
    (h : Change env sys l s events s') : Rows env s' := by
  cases h with
  | quiet same => exact rows.sameQueue same
  | claim => exact { rows with }
  | push valid => exact rows.pushQueued valid _
  | remove removal => exact (removal.removes rows).rows rows
  | grant request accepted unfenced capacity indexed =>
    subst request
    exact rows.grantLease _ accepted indexed
  | dropInvalid => exact rows.takeInvalid _ _ _
  | heartbeat row held unfenced same => exact rows.recordHeartbeat _ row same
  | settle => exact rows.settled _ _ _
  | requeue phase unfenced row held processing =>
    exact rows.requeued _ ((passes _).requeue_describes phase) processing
  | deadLetter => exact rows.deadLettered _ _

/-- A message listed after a change was listed before it, or the change is its admission. -/
theorem Change.listed {sys : System} {l : Label} {events : List Event} (rows : Rows env s)
    (change : Change env sys l s events s') (hraw : raw ∈ s'.queued ∨ raw ∈ s'.processing) :
    (raw ∈ s.queued ∨ raw ∈ s.processing) ∨
      (∃ enqueuedAt, l = .enqueue raw enqueuedAt) ∧
        hexists s'.fences (raw.fenceKey env) = false := by
  cases change with
  | quiet same => exact .inl (by rwa [same.queued, same.processing] at hraw)
  | claim | heartbeat => exact .inl hraw
  | push valid unfenced =>
    simp only [Store.pushQueued, mem_append, mem_singleton] at hraw
    obtain (hq | rfl) | hp := hraw
    · exact .inl (.inl hq)
    · exact .inr ⟨⟨_, rfl⟩, unfenced⟩
    · exact .inl (.inr hp)
  | remove removal =>
    have removes := removal.removes rows
    exact .inl (hraw.imp (removes.queued.subset ·) (removes.processing ▸ ·))
  | grant request accepted unfenced capacity indexed =>
    subst request
    simp only [Store.grantLease, Store.takeQueued, removeAt_eq_eraseIdx, System.leaseRequest,
      mem_cons] at hraw
    obtain hq | rfl | hp := hraw
    · exact .inl (.inl (mem_of_mem_eraseIdx hq))
    · exact .inl (.inl (mem_of_lindex indexed))
    · exact .inl (.inr hp)
  | dropInvalid =>
    simp only [Store.takeInvalid, removeAt_eq_eraseIdx] at hraw
    exact .inl (hraw.imp_left mem_of_mem_eraseIdx)
  | settle | deadLetter => exact .inl (hraw.imp_right mem_of_mem_erase)
  | requeue phase unfenced row held processing =>
    simp only [Store.requeued, Store.pushQueued, mem_append, mem_singleton] at hraw
    obtain (hq | rfl) | hp := hraw
    · exact .inl (.inl hq)
    · exact .inl (.inr processing)
    · exact .inl (.inr (mem_of_mem_erase hp))

structure WellFormed (env : Environment) (sys : System) : Prop where
  rows : Rows env sys.store
  passes : ∀ i, (sys.passes i).Knows env fun raw m => m.Describes env raw

theorem Rows.processing_describes (rows : Rows env s) {m : LeaseMeta}
    (row : hget s.processingMeta (env.messageIdForRaw raw) = some (.table m)) :
    m.Describes env raw := by
  obtain ⟨m', hm', hd⟩ := rows.processing.at row
  obtain rfl : m = m' := by simpa using hm'
  exact hd

theorem Rows.retry_describes (rows : Rows env s) {m : LeaseMeta}
    (row : hget s.retryMeta (env.messageIdForRaw raw) = some (.table m)) :
    m.Describes env raw := by
  obtain ⟨m', hm', hd⟩ := rows.retry.at row
  obtain rfl : m = m' := by simpa using hm'
  exact hd

theorem WellFormed.step {sys : System} (wf : WellFormed env sys) (l : Label) :
    WellFormed env (sys.step env l) where
  rows := by
    obtain ⟨s₁, kept, change⟩ := sys.effect_change env l
    exact (wf.rows.rewritten kept).change wf.passes change
  passes := System.passesAfter_knows l (fun _ _ => wf.rows.processing_describes)
    (fun _ _ => wf.rows.retry_describes) wf.passes

theorem wellFormed_run (env : Environment) (labels : List Label) :
    WellFormed env ((machine env).run labels) :=
  Machine.invariant_reachable ⟨Rows.empty env, fun _ => trivial⟩ (fun _ l wf => wf.step l) labels

end AiPlatform.Queue
