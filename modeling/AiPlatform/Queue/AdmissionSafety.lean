import AiPlatform.Queue.Consistency

/-!
# A refused enqueue never loses the run

Enqueue and the admission readback decide from metadata rows, not from the lists. They are right
as long as every row belongs to a listed message. The remove script clears the queue's own rows but
not the retry row that a message keeps after an expired lease, so removing such a message leaves a
row behind (`RemovesUnleased` excludes it).
-/
namespace AiPlatform.Queue

open AiPlatform.Foundation Hash SortedSet

/-- A removal finds no queued message of its run that an earlier lease has left a retry row for. -/
def RemovesUnleased (env : Environment) (s : Store) (l : Label) : Prop :=
  ∀ run ∈ l.removedRun, ∀ raw ∈ s.queued, raw.IsFor run.1 run.2 →
    hexists s.retryMeta (env.messageIdForRaw raw) = false

instance (env : Environment) (s : Store) (l : Label) : Decidable (RemovesUnleased env s l) :=
  inferInstanceAs (Decidable (∀ run ∈ l.removedRun, ∀ raw ∈ s.queued, _ → _))

def Store.Lists (s : Store) (raw : RunPayload) : Prop := raw ∈ s.queued ∨ raw ∈ s.processing

instance (s : Store) (raw : RunPayload) : Decidable (s.Lists raw) :=
  inferInstanceAs (Decidable (_ ∨ _))

/-- Enqueue answers that the run is already there. -/
def EnqueueReply.alreadyAdmitted : EnqueueReply → Bool
  | .alreadyEnqueued _ _ => true
  | .alreadyLeased => true
  | _ => false

structure AdmissionTruthful (env : Environment) (s : Store) : Prop where
  enqueue : ∀ raw enqueuedAt reply, (enqueueRun env s raw enqueuedAt).2 = some reply →
    reply.alreadyAdmitted = true → s.Lists raw
  readback : ∀ raw, readQueueAdmission env s raw ≠ none → s.Lists raw

/-- Every metadata row belongs to a listed message. -/
structure RowsPresent (env : Environment) (s : Store) : Prop where
  processing : RowsListed env s
  retry : ∀ raw, hexists s.retryMeta (env.messageIdForRaw raw) = true → s.Lists raw
  queued : ∀ raw, hexists s.queuedMeta (env.messageIdForRaw raw) = true → raw ∈ s.queued

section

variable {env : Environment} {s s' : Store}

theorem readLeaseAdmission_isSome {raw : RunPayload} (h : readLeaseAdmission env s raw ≠ none) :
    hexists s.processingMeta (env.messageIdForRaw raw) = true ∨
      hexists s.retryMeta (env.messageIdForRaw raw) = true := by
  have hrow : ∀ {row : Option (Encoded LeaseMeta)}, leaseRowMatches row raw = true →
      row.isSome = true := by
    intro row hmatch
    cases row with
    | none => simp [leaseRowMatches] at hmatch
    | some => rfl
  unfold readLeaseAdmission at h
  dsimp only at h
  split at h
  · exact .inl (hrow ‹_›)
  split at h
  · exact .inr (hrow ‹_›)
  · exact absurd rfl h

section

variable (present : RowsPresent env s)
include present

theorem RowsPresent.truthful : AdmissionTruthful env s where
  enqueue raw enqueuedAt reply hreply halready := by
    unfold enqueueRun at hreply
    split at hreply
    · obtain rfl : _ = reply := by simpa using hreply
      unfold enqueueWithMetadata at halready
      dsimp only at halready
      split at halready
      · simp [EnqueueReply.alreadyAdmitted] at halready
      split at halready
      · rename_i hadmission
        left
        refine present.queued raw ?_
        unfold indexedAdmission at hadmission
        split at hadmission
        · cases hrow : hget s.queuedMeta (env.messageIdForRaw raw) with
          | none => simp [hrow] at hadmission
          | some row => simp [hexists, hrow]
        · simp at hadmission
      split at halready
      · rename_i hrow
        obtain hrow | hrow := Bool.or_eq_true _ _ ▸ hrow
        · exact .inr (present.processing raw hrow)
        · exact present.retry raw hrow
      · simp [EnqueueReply.alreadyAdmitted] at halready
    · simp at hreply
  readback raw hread := by
    have hlease : readLeaseAdmission env s raw ≠ none → s.Lists raw := by
      intro h
      obtain hrow | hrow := readLeaseAdmission_isSome h
      · exact .inr (present.processing raw hrow)
      · exact present.retry raw hrow
    unfold readQueueAdmission at hread
    dsimp only at hread
    split at hread
    · rename_i hrow _
      exact .inl (present.queued raw (by simp [hexists, hrow]))
    · exact hlease hread

/-! ## One step -/

theorem RowsPresent.rewritten (kept : Rewritten s s') :
    RowsPresent env s' where
  processing := present.processing.rewritten kept
  retry raw hrow := by
    have hrow' : hexists s.retryMeta (env.messageIdForRaw raw) = true := by
      rw [← Bool.not_eq_false, hexists_eq_false] at hrow ⊢
      rwa [← (kept.retryRow _).eq_none]
    simpa [Store.Lists, kept.queued, kept.processing] using present.retry raw hrow'
  queued raw hrow := kept.queued ▸ present.queued raw (kept.queuedMeta ▸ hrow)

/-- One message moves; the others stay where they are. -/
theorem RowsPresent.move (listed : RowsListed env s') (raw : RunPayload)
    (others : ∀ other, other ≠ raw → Untouched env s s' other)
    (rawRetry : hexists s'.retryMeta (env.messageIdForRaw raw) = true → s'.Lists raw)
    (rawMeta : hexists s'.queuedMeta (env.messageIdForRaw raw) = true → raw ∈ s'.queued) :
    RowsPresent env s' where
  processing := listed
  retry other hrow := by
    by_cases heq : other = raw
    · exact heq ▸ rawRetry (heq ▸ hrow)
    · have same := others other heq
      rw [hexists, same.retryMeta] at hrow
      exact (present.retry other hrow).imp same.mem_queued.mpr same.mem_processing.mpr
  queued other hrow := by
    by_cases heq : other = raw
    · exact heq ▸ rawMeta (heq ▸ hrow)
    · have same := others other heq
      rw [hexists, same.queuedMeta] at hrow
      exact same.mem_queued.mpr (present.queued other hrow)

/-- A removed message takes its queue rows with it, and had no other. -/
theorem RowsPresent.remove (rows : Rows env s) {tenantId runId : String} {l : Label}
    (removal : Label.Removal env tenantId runId s l s')
    (unleased : ∀ raw ∈ s.queued, raw.IsFor tenantId runId →
      hexists s.retryMeta (env.messageIdForRaw raw) = false) : RowsPresent env s' := by
  have removes := removal.removes rows
  refine ⟨fun raw hrow => ?_, fun raw hrow => ?_, fun raw hrow => ?_⟩
  · exact removes.processing ▸ present.processing raw (removes.processingMeta ▸ hrow)
  · rw [removes.retryMeta] at hrow
    obtain hq | hp := present.retry raw hrow
    · refine .inl (removes.mem_of_other hq fun hrun => ?_)
      simp [unleased raw hq hrun] at hrow
    · exact .inr (removes.processing ▸ hp)
  · obtain ⟨row, hrow'⟩ := (hexists_eq_true _ _).mp hrow
    have hq := present.queued raw ((hexists_eq_true _ _).mpr ⟨row, removes.metaOld _ _ hrow'⟩)
    by_contra hgone
    simp [removes.metaGone raw hq hgone] at hrow'

theorem RowsPresent.change {sys : System} {l : Label} {events : List Event} (rows : Rows env s)
    (unleased : RemovesUnleased env s l) (listed : RowsListed env s')
    (change : Change env sys l s events s') : RowsPresent env s' := by
  cases change with
  | quiet same =>
    refine ⟨listed, fun raw hrow => ?_, fun raw hrow => ?_⟩
    · simpa [Store.Lists, same.queued, same.processing] using
        present.retry raw (same.retryMeta ▸ hrow)
    · exact same.queued ▸ present.queued raw (same.queuedMeta ▸ hrow)
  | claim => exact ⟨listed, present.retry, present.queued⟩
  | push =>
    rename_i raw _ _ _ _ _ _
    have hraw : raw ∈ s.queued ++ [raw] := by simp
    exact present.move listed raw (fun _ hne => .push hne _) (fun _ => .inl hraw) fun _ => hraw
  | remove removal => exact present.remove rows removal (unleased _ removal.removedRun)
  | grant request accepted unfenced capacity indexed tenant user =>
    subst request
    rename_i raw _ _ _ _ _
    refine present.move listed raw (fun _ hne => .grant hne rfl _ indexed)
      (fun _ => .inr List.mem_cons_self) fun hrow => ?_
    simp [Store.grantLease, Store.takeQueued, System.leaseRequest] at hrow
  | dropInvalid rejected indexed =>
    rename_i raw _ _ _ _ _ _
    refine present.move listed raw (fun _ hne => .dropInvalid hne indexed _) (fun hrow => ?_)
      fun hrow => ?_
    · simp at hrow
    · simp [Store.takeInvalid] at hrow
  | heartbeat row =>
    obtain ⟨raw, m, hid, -, -⟩ := rows.processing _ _ row
    have hp : raw ∈ s.processing := present.processing raw (by rw [← hid, hexists, row]; rfl)
    rw [hid] at listed ⊢
    exact present.move listed raw (fun _ hne => .heartbeat hne _ _ _) (fun _ => .inr hp)
      (present.queued raw)
  | settle settles row held rawEq unfenced =>
    rw [rows.settled_messageId row rawEq] at listed ⊢
    refine present.move listed _ (fun _ hne => .settle hne _) (fun hrow => ?_) (present.queued _)
    simp [Store.settleLease] at hrow
  | requeue =>
    rename_i i tick call rest m _ _ _ _ _
    have hraw : call.lease.raw ∈ s.queued ++ [call.lease.raw] := by simp
    exact present.move listed call.lease.raw (fun _ hne => .requeue hne _) (fun _ => .inl hraw)
      fun _ => hraw
  | deadLetter =>
    refine present.move listed _ (fun _ hne => .deadLetter hne _) (fun hrow => ?_)
      (present.queued _)
    simp [Store.deadLettered] at hrow

end

end

/-- Along every run whose removals hit no message with a retry row, and whose expiry dead-letters do
not keep the processing row of the lease they end, a run that is said to be admitted is listed. -/
theorem admissionTruthful_run (env : Environment) (labels : List Label)
    (unleased : (machine env).Meets (fun sys => RemovesUnleased env sys.store) (machine env).start
      labels)
    (whole : (machine env).Meets (EndsWholeLease env) (machine env).start labels) :
    AdmissionTruthful env ((machine env).run labels).store := by
  suffices hrun : WellFormed env ((machine env).run labels) ∧
      RowsPresent env ((machine env).run labels).store from hrun.2.truthful
  refine Machine.invariant_run (I := fun sys => WellFormed env sys ∧ RowsPresent env sys.store)
    ?_ ?_ (unleased.and whole)
  · exact ⟨wellFormed_run env [], by simp [RowsListed, System.initial, Store.empty, hexists],
      by simp [System.initial, Store.empty, hexists],
      by simp [System.initial, Store.empty, hexists]⟩
  · rintro sys l ⟨wf, present⟩ ⟨hunleased, hwhole⟩
    refine ⟨wf.step l, ?_⟩
    obtain ⟨s₁, kept, change⟩ := sys.effect_change env l
    have rows := wf.rows.rewritten kept
    have present₁ := present.rewritten kept
    refine present₁.change rows (fun run hrun raw hraw hfor => ?_)
      (present₁.processing.change rows (fun call hcall hflag => ?_) change) change
    · have hnone := hunleased run hrun raw (kept.queued ▸ hraw) hfor
      rw [hexists_eq_false] at hnone ⊢
      rwa [(kept.retryRow _).eq_none]
    · rw [(kept.processingRow _).rowHandle]
      exact hwhole call hcall hflag

theorem admissionTruthful_run_retriedRun :
    readQueueAdmission .plain ((machine .plain).run retriedRun).store (.simple "t" "r") ≠ none ∧
      ((machine .plain).run retriedRun).store.Lists (.simple "t" "r") :=
  ⟨by decide,
    (admissionTruthful_run .plain retriedRun (by decide) (by decide)).readback _ (by decide)⟩

/-- A message whose lease expired is requeued and then removed on request. -/
def removedAfterRetryRun : List Label :=
  [.enqueue (.simple "t" "r") 0, .leaseCandidate (.simple "t" "r") 0 "w1" .unlimited (seconds 1) "",
    .startReclaim 0 1 3 (seconds 10), .reclaimAt 0 (seconds 10), .reclaimAt 0 (seconds 10),
    .reclaimAt 0 (seconds 10), .removeQueuedRun "t" "r" 100]

/-- The run can not be enqueued again although no message of it is left. -/
theorem removedAfterRetryRun_not_truthful :
    ((machine .plain).run removedAfterRetryRun).store.queued = [] ∧
      ((machine .plain).run removedAfterRetryRun).store.processing = [] ∧
      (enqueueRun .plain ((machine .plain).run removedAfterRetryRun).store (.simple "t" "r")
        (seconds 20)).2 = some .alreadyLeased ∧
      readQueueAdmission .plain ((machine .plain).run removedAfterRetryRun).store
        (.simple "t" "r") ≠ none :=
  ⟨by decide, by decide, by decide, by decide⟩

end AiPlatform.Queue
