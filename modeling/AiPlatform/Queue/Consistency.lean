import AiPlatform.Queue.Slots

/-!
# Consistency of the queue's keys

Six keys describe one message. `Consistent` says how they agree. It holds along every run without
`:` in the ids whose expiry dead-letters do not keep the processing row of the lease they end; a
pass that has read its metadata from `retry-meta` asks for exactly that, and two passes racing on
one message can make the script comply while the lease is live.
-/
namespace AiPlatform.Queue

open AiPlatform.Foundation Hash SortedSet

structure Consistent (env : Environment) (s : Store) : Prop where
  oneSlot : (s.queued ++ s.processing).Nodup
  processingRow : ∀ messageId, hexists s.processingMeta messageId = true ↔
    ∃ raw ∈ s.processing, env.messageIdForRaw raw = messageId
  retryRow : ∀ raw ∈ s.processing, hexists s.retryMeta (env.messageIdForRaw raw) = true
  queuedRow : ∀ raw ∈ s.queued, QueuedRow env s raw

def Label.enqueued : Label → Option RunPayload
  | .enqueue payload _ => some payload
  | _ => none

/-- The ids of an enqueued payload contain no `:`. -/
def ColonFree (l : Label) : Prop :=
  ∀ raw ∈ l.enqueued, ':' ∉ raw.tenantId.toList ∧ ':' ∉ raw.runId.toList

instance (l : Label) : Decidable (ColonFree l) :=
  inferInstanceAs (Decidable (∀ raw ∈ l.enqueued, _ ∧ _))

/-- A dead-letter call that keeps the processing row does not find there the lease it names. -/
def EndsWholeLease (env : Environment) (sys : System) (l : Label) : Prop :=
  ∀ call ∈ sys.deadLetterCall l, call.removeProcessingMeta = false →
    rowHandle (hget sys.store.processingMeta (env.messageIdForRaw call.lease.raw)) ≠
      some (call.lease.handle env)

instance (env : Environment) (sys : System) (l : Label) : Decidable (EndsWholeLease env sys l) :=
  inferInstanceAs (Decidable (∀ call ∈ sys.deadLetterCall l, _ → _))

section

variable {env : Environment}

/-- Every processing row belongs to a message of the processing list. -/
def RowsListed (env : Environment) (s : Store) : Prop :=
  ∀ raw, hexists s.processingMeta (env.messageIdForRaw raw) = true → raw ∈ s.processing

variable {s s' : Store}

theorem RowsListed.rewritten (h : RowsListed env s) (kept : Rewritten s s') :
    RowsListed env s' := by
  intro raw hrow
  rw [kept.processing]
  refine h raw ?_
  rw [← Bool.not_eq_false, hexists_eq_false] at hrow ⊢
  rwa [← (kept.processingRow _).eq_none]

theorem RowsListed.move (h : RowsListed env s) {raw : RunPayload}
    (others : ∀ other, other ≠ raw → Untouched env s s' other)
    (rawRow : hexists s'.processingMeta (env.messageIdForRaw raw) = true → raw ∈ s'.processing) :
    RowsListed env s' := by
  intro other hrow
  by_cases heq : other = raw
  · exact heq ▸ rawRow (heq ▸ hrow)
  · have same := others other heq
    rw [hexists, same.processingMeta] at hrow
    exact same.mem_processing.mpr (h other hrow)

theorem RowsListed.change {sys : System} {l : Label} {events : List Event} (h : RowsListed env s)
    (rows : Rows env s)
    (whole : ∀ call ∈ sys.deadLetterCall l, call.removeProcessingMeta = false →
      rowHandle (hget s.processingMeta (env.messageIdForRaw call.lease.raw)) ≠
        some (call.lease.handle env)) (change : Change env sys l s events s') :
    RowsListed env s' := by
  cases change with
  | quiet same => exact fun raw hrow => same.processing ▸ h raw (same.processingMeta ▸ hrow)
  | claim | push | dropInvalid => exact h
  | remove removal =>
    have removes := removal.removes rows
    exact fun raw hrow => removes.processing ▸ h raw (removes.processingMeta ▸ hrow)
  | grant request accepted unfenced capacity indexed =>
    subst request
    exact h.move (fun _ hne => .grant hne rfl _ indexed) fun _ => List.mem_cons_self
  | heartbeat row =>
    obtain ⟨raw, m, hid, -, -⟩ := rows.processing _ _ row
    rw [hid] at row ⊢
    exact h.move (fun _ hne => .heartbeat hne _ _ _) fun _ => h raw (by rw [hexists, row]; rfl)
  | settle settles row held rawEq =>
    rw [rows.settled_messageId row rawEq]
    refine h.move (fun _ hne => .settle hne _) fun hrow => ?_
    simp [Store.settleLease] at hrow
  | requeue =>
    refine h.move (fun _ hne => .requeue hne _) fun hrow => ?_
    simp [Store.requeued, Store.pushQueued] at hrow
  | deadLetter phase unfenced row held =>
    rename_i i tick call rest m letters
    refine h.move (fun _ hne => .deadLetter hne letters) fun hrow => ?_
    cases hflag : call.removeProcessingMeta with
    | true => simp [Store.deadLettered, hflag] at hrow
    | false =>
      -- The row that authorised the call was not the processing row, so there is none.
      simp only [Store.deadLettered, hflag, Bool.false_eq_true, if_false] at hrow
      obtain ⟨row', hrow'⟩ := (hexists_eq_true _ _).mp hrow
      obtain rfl : row' = .table m := by simpa [leaseRow, hrow'] using row
      exact absurd (rowHandle_eq_some.mpr ⟨m, hrow', held⟩)
        (whole call (sys.deadLetterCall_eq phase) hflag)

/-- The ids of all listed payloads are free of `:`. -/
def ListedColonFree (s : Store) : Prop :=
  ∀ raw, raw ∈ s.queued ∨ raw ∈ s.processing → ':' ∉ raw.tenantId.toList ∧ ':' ∉ raw.runId.toList

theorem ListedColonFree.ownRemoval (h : ListedColonFree s) (l : Label) :
    OwnRemoval s l := by
  intro run _ raw hraw hfield
  obtain ⟨ht, hr⟩ := h raw (.inl hraw)
  exact queuedRunIndexField_inj ht hr hfield

theorem ListedColonFree.step {sys : System} (h : ListedColonFree sys.store)
    (wf : WellFormed env sys) {l : Label} (free : ColonFree l) :
    ListedColonFree (sys.step env l).store := by
  intro raw hraw
  obtain ⟨s₁, kept, change⟩ := sys.effect_change env l
  obtain hlisted | ⟨⟨enqueuedAt, rfl⟩, -⟩ := change.listed (wf.rows.rewritten kept) hraw
  · rw [kept.queued, kept.processing] at hlisted
    exact h raw hlisted
  · exact free raw rfl

theorem Slots.consistent (slots : Slots env s) (rows : Rows env s) (listed : RowsListed env s) :
    Consistent env s where
  oneSlot := slots.queuedNodup.append slots.processingNodup fun _ => slots.disjoint
  processingRow messageId := by
    constructor
    · intro hrow
      obtain ⟨row, hrow'⟩ := (hexists_eq_true _ _).mp hrow
      obtain ⟨raw, m, rfl, -⟩ := rows.processing _ _ hrow'
      exact ⟨raw, listed raw hrow, rfl⟩
    · rintro ⟨raw, hraw, rfl⟩
      exact slots.leased raw hraw
  retryRow := slots.retried
  queuedRow := slots.queuedRow

end

/-- A run without `:` in the enqueued ids, in which no expiry dead-letter keeps the processing row
of the lease it ends, stays consistent. -/
theorem consistent_run (env : Environment) (labels : List Label)
    (free : (machine env).Meets (fun _ l => ColonFree l) (machine env).start labels)
    (whole : (machine env).Meets (EndsWholeLease env) (machine env).start labels) :
    Consistent env ((machine env).run labels).store := by
  suffices hrun : WellFormed env ((machine env).run labels) ∧
      ListedColonFree ((machine env).run labels).store ∧
      Slots env ((machine env).run labels).store ∧
      RowsListed env ((machine env).run labels).store from
    hrun.2.2.1.consistent hrun.1.rows hrun.2.2.2
  refine Machine.invariant_run (I := fun sys => WellFormed env sys ∧ ListedColonFree sys.store ∧
    Slots env sys.store ∧ RowsListed env sys.store) ?_ ?_ (free.and whole)
  · exact ⟨wellFormed_run env [], by simp [ListedColonFree, System.initial, Store.empty],
      .empty env, by simp [RowsListed, System.initial, Store.empty, hexists]⟩
  · rintro sys l ⟨wf, colonFree, slots, listed⟩ ⟨hfree, hwhole⟩
    refine ⟨wf.step l, colonFree.step wf hfree, slots.step wf (colonFree.ownRemoval l), ?_⟩
    obtain ⟨s₁, kept, change⟩ := sys.effect_change env l
    refine (listed.rewritten kept).change (wf.rows.rewritten kept)
      (fun call hcall hflag => ?_) change
    rw [(kept.processingRow _).rowHandle]
    exact hwhole call hcall hflag

/-- A message is leased, its lease expires, a pass requeues it, and another worker leases it. -/
def retriedRun : List Label :=
  [.enqueue (.simple "t" "r") 0, .leaseCandidate (.simple "t" "r") 0 "w1" .unlimited (seconds 1) "",
    .startReclaim 0 1 2 (seconds 10), .reclaimAt 0 (seconds 10), .reclaimAt 0 (seconds 10),
    .reclaimAt 0 (seconds 10),
    .leaseCandidate (.simple "t" "r") 0 "w2" .unlimited (seconds 11) ""]

theorem consistent_run_retriedRun :
    ((machine .plain).run retriedRun).store.processing = [.simple "t" "r"] ∧
      Consistent .plain ((machine .plain).run retriedRun).store :=
  ⟨by decide, consistent_run .plain retriedRun (by decide) (by decide)⟩

/-- Pass 0 has listed the message when pass 1 requeues it, so pass 0 finds no processing row; the
message is leased again before pass 0 reads the retry row of the new lease. -/
def racingPassesRun : List Label :=
  [.enqueue (.simple "t" "r") 0, .leaseCandidate (.simple "t" "r") 0 "w1" .unlimited (seconds 1) "",
    .startReclaim 0 1 2 (seconds 10), .reclaimAt 0 (seconds 10),
    .startReclaim 1 1 2 (seconds 10), .reclaimAt 1 (seconds 10), .reclaimAt 1 (seconds 10),
    .reclaimAt 1 (seconds 10), .reclaimAt 0 (seconds 10),
    .leaseCandidate (.simple "t" "r") 0 "w2" .unlimited (seconds 11) "",
    .reclaimAt 0 (seconds 11), .reclaimAt 0 (seconds 20)]

/-- The dead-letter of pass 0 leaves a processing row without a processing message. -/
theorem racingPassesRun_not_consistent :
    (∀ l ∈ racingPassesRun, ColonFree l ∧ ∀ m ∈ l.maxAttempts, m = 2) ∧
      ¬ Consistent .plain ((machine .plain).run racingPassesRun).store := by
  refine ⟨by decide, fun h => ?_⟩
  have hrow :=
    (h.processingRow (Environment.plain.messageIdForRaw (.simple "t" "r"))).mp (by decide)
  have hempty : ((machine .plain).run racingPassesRun).store.processing = [] := by decide
  simp [hempty] at hrow

end AiPlatform.Queue
