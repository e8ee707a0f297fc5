import AiPlatform.Queue.Ownership

/-!
# Dead-lettering by expiry

The last event about a message tells where the message is: admission or a requeue puts it in the
queue, a lease in the processing list, and after any other event it is in neither. So a message
dead-lettered by expiry is not delivered again, provided the dead-letter script only ever acts on
a live lease (`SoundDeadLetter`); the script itself does not check that its message is still in the
processing list, as the requeue script does.
-/
namespace AiPlatform.Queue

open AiPlatform.Foundation Hash SortedSet

/-- The event leaves its message in the queue. -/
def Event.queues : Event → Bool
  | .admitted _ => true
  | .settled _ .requeued => true
  | _ => false

/-- Lists and log agree about every listed message. -/
structure Lifecycle (env : Environment) (s : Store) (log : List Event) : Prop where
  queued : ∀ raw ∈ s.queued, ∃ e, lastEvent (env.messageIdForRaw raw) log = some e ∧
    e.queues = true
  processing : ∀ raw ∈ s.processing, ∃ e, lastEvent (env.messageIdForRaw raw) log = some e ∧
    e.lease.isSome = true

/-- A message that the label dead-letters by expiry is in the processing list before the step, and
in neither list after it. -/
def ExpiresProcessing (env : Environment) (sys : System) (l : Label) : Prop :=
  ∀ call ∈ sys.deadLetterCall l,
    .settled (call.lease.handle env) .deadLettered ∈ (sys.effect env l).2 →
    call.lease.raw ∈ sys.store.processing ∧
      call.lease.raw ∉ (sys.step env l).store.queued ∧
      call.lease.raw ∉ (sys.step env l).store.processing

instance (env : Environment) (sys : System) (l : Label) : Decidable (ExpiresProcessing env sys l) :=
  inferInstanceAs (Decidable (∀ call ∈ sys.deadLetterCall l, _ → _ ∧ _ ∧ _))

section

variable {env : Environment} {sys : System} {l : Label} {s s' : Store} {events log : List Event}

theorem SoundDeadLetter.endsWholeLease (sound : SoundDeadLetter env sys l) :
    EndsWholeLease env sys l := by
  intro call hcall hflag hrow
  obtain ⟨m, hm, held⟩ := rowHandle_eq_some.mp hrow
  have hlease : leaseRow sys.store (env.messageIdForRaw call.lease.raw) = some (.table m) := by
    simp [leaseRow, hm]
  have := (sound call hcall (rowHandle_eq_some.mpr ⟨m, hlease, held⟩)).1
  simp [hflag] at this

/-- One message `raw` moves and `e` records it; every other listed message stays in its list. -/
theorem Lifecycle.move (life : Lifecycle env s log) {raw : RunPayload} {e : Event}
    (hid : e.messageId = some (env.messageIdForRaw raw))
    (others : ∀ other, other ≠ raw → Untouched env s s' other)
    (rawQueued : raw ∈ s'.queued → e.queues = true)
    (rawProcessing : raw ∈ s'.processing → e.lease.isSome = true) :
    Lifecycle env s' (e :: log) := by
  have hlast : ∀ other, lastEvent (env.messageIdForRaw other) (e :: log) =
      if other = raw then some e else lastEvent (env.messageIdForRaw other) log := by
    intro other
    rw [lastEvent_cons, hid]
    by_cases heq : other = raw
    · simp [heq]
    · simp [heq, env.messageIdForRaw_injective.eq_iff, Ne.symm heq]
  constructor
  · intro other hother
    rw [hlast]
    by_cases heq : other = raw
    · subst heq
      exact ⟨e, by simp, rawQueued hother⟩
    · simpa [heq] using life.queued other ((others other heq).mem_queued.mp hother)
  · intro other hother
    rw [hlast]
    by_cases heq : other = raw
    · subst heq
      exact ⟨e, by simp, rawProcessing hother⟩
    · simpa [heq] using life.processing other
        ((others other heq).mem_processing.mp hother)

/-- A step that moves no message into a list, with an event about none. -/
theorem Lifecycle.shrink (life : Lifecycle env s log) {e : Event} (hid : e.messageId = none)
    (hqueued : s'.queued ⊆ s.queued) (hprocessing : s'.processing ⊆ s.processing) :
    Lifecycle env s' (e :: log) := by
  constructor
  · intro raw hraw
    simpa [lastEvent_cons, hid] using life.queued raw (hqueued hraw)
  · intro raw hraw
    simpa [lastEvent_cons, hid] using life.processing raw (hprocessing hraw)

theorem Lifecycle.change (life : Lifecycle env s log) (rows : Rows env s) (slots : Slots env s)
    (expired : ∀ call ∈ sys.deadLetterCall l,
      rowHandle (leaseRow s (env.messageIdForRaw call.lease.raw)) = some (call.lease.handle env) →
        call.lease.raw ∈ s.processing)
    (change : Change env sys l s events s') : Lifecycle env s' (events ++ log) := by
  cases change with
  | quiet same => exact ⟨same.queued ▸ life.queued, same.processing ▸ life.processing⟩
  | heartbeat => exact ⟨life.queued, life.processing⟩
  | claim => exact life.shrink rfl (fun _ h => h) fun _ h => h
  | remove removal =>
    have removes := removal.removes rows
    exact life.shrink rfl removes.queued.subset fun _ h => removes.processing ▸ h
  | push valid unfenced notIndexed notProcessing =>
    refine life.move rfl (fun _ hne => .push hne _) (fun _ => rfl) fun hp => ?_
    have hrow := slots.leased _ hp
    simp [hexists, notProcessing] at hrow
  | grant request accepted unfenced capacity indexed =>
    subst request
    refine life.move rfl (fun _ hne => .grant hne rfl _ indexed) (fun hq => ?_) fun _ => rfl
    exact absurd rfl ((slots.mem_takeQueued indexed _).mp hq).2
  | dropInvalid rejected indexed =>
    refine life.move rfl (fun _ hne => .dropInvalid hne indexed _) (fun hq => ?_) fun hp => ?_
    · exact absurd rfl ((slots.mem_takeQueued indexed _).mp hq).2
    · exact absurd hp (slots.disjoint (mem_of_lindex indexed))
  | settle settles row held rawEq =>
    have hid := rows.settled_messageId row rawEq
    rw [hid] at row ⊢
    refine life.move (congrArg some hid) (fun _ hne => .settle hne _) (fun hq => ?_) fun hp => ?_
    · simp [slots.unleased _ hq] at row
    · exact absurd rfl (slots.mem_lremFirst hp).1
  | requeue phase unfenced row held processing =>
    exact life.move rfl (fun _ hne => .requeue hne _) (fun _ => rfl)
      fun hp => absurd rfl (slots.mem_lremFirst hp).1
  | deadLetter phase unfenced row held =>
    have hp := expired _ (sys.deadLetterCall_eq phase) (rowHandle_eq_some.mpr ⟨_, row, held⟩)
    exact life.move rfl (fun _ hne => .deadLetter hne _) (fun hq => absurd hp (slots.disjoint hq))
      fun hp' => absurd rfl (slots.mem_lremFirst hp').1

/-- What the scripts and the log have to agree on for expiry to be safe. -/
structure ExpiryInvariant (env : Environment) (sys : System) : Prop where
  wellFormed : WellFormed env sys
  slots : Slots env sys.store
  rowsListed : RowsListed env sys.store
  lifecycle : Lifecycle env sys.store sys.log

/-- A dead-letter call that finds its lease live finds its message in the processing list. -/
theorem ExpiryInvariant.expired (inv : ExpiryInvariant env sys) (sound : SoundDeadLetter env sys l)
    {call : DeadLetterCall} (hcall : call ∈ sys.deadLetterCall l)
    (hrow : rowHandle (leaseRow sys.store (env.messageIdForRaw call.lease.raw)) =
      some (call.lease.handle env)) : call.lease.raw ∈ sys.store.processing :=
  inv.rowsListed _ (sound call hcall hrow).2

theorem ExpiryInvariant.step (inv : ExpiryInvariant env sys) (own : OwnRemoval sys.store l)
    (sound : SoundDeadLetter env sys l) : ExpiryInvariant env (sys.step env l) := by
  obtain ⟨s₁, kept, change⟩ := sys.effect_change env l
  have rows := inv.wellFormed.rows.rewritten kept
  refine ⟨inv.wellFormed.step l, inv.slots.step inv.wellFormed own, ?_, ?_⟩
  · refine (inv.rowsListed.rewritten kept).change rows (fun call hcall hflag => ?_) change
    rw [(kept.processingRow _).rowHandle]
    exact sound.endsWholeLease call hcall hflag
  · have life : Lifecycle env s₁ sys.log :=
      ⟨kept.queued ▸ inv.lifecycle.queued, kept.processing ▸ inv.lifecycle.processing⟩
    refine life.change rows (inv.slots.rewritten kept) (fun call hcall hrow => ?_) change
    rw [(kept.leaseRow _).rowHandle] at hrow
    exact kept.processing ▸ inv.expired sound hcall hrow

theorem ExpiryInvariant.initial (env : Environment) : ExpiryInvariant env .initial :=
  ⟨wellFormed_run env [], .empty env, by simp [RowsListed, System.initial, Store.empty, hexists],
    by simp [System.initial, Store.empty], by simp [System.initial, Store.empty]⟩

/-- After an event that does not list its message, the message is in neither list. -/
theorem Lifecycle.unlisted (life : Lifecycle env s log) {raw : RunPayload} {e : Event}
    (hlast : lastEvent (env.messageIdForRaw raw) log = some e) (hqueues : e.queues = false)
    (hlease : e.lease = none) : raw ∉ s.queued ∧ raw ∉ s.processing := by
  constructor
  · intro hq
    obtain ⟨e', he', hqueues'⟩ := life.queued raw hq
    obtain rfl : e = e' := by simpa [hlast] using he'
    simp [hqueues] at hqueues'
  · intro hp
    obtain ⟨e', he', hlease'⟩ := life.processing raw hp
    obtain rfl : e = e' := by simpa [hlast] using he'
    simp [hlease] at hlease'

theorem ExpiryInvariant.expiresProcessing (inv : ExpiryInvariant env sys)
    (own : OwnRemoval sys.store l) (sound : SoundDeadLetter env sys l) :
    ExpiresProcessing env sys l := by
  intro call hcall hevent
  obtain ⟨hprocessing, hevents⟩ : call.lease.raw ∈ sys.store.processing ∧
      (sys.effect env l).2 = [.settled (call.lease.handle env) .deadLettered] := by
    obtain ⟨s₁, kept, change⟩ := sys.effect_change env l
    generalize sys.effect env l = result at hevent change
    obtain ⟨s', events⟩ := result
    cases change with
    | deadLetter phase unfenced row held =>
      obtain rfl : _ = call := by simpa [System.deadLetterCall, phase] using hcall
      refine ⟨inv.expired sound hcall ?_, rfl⟩
      rw [← (kept.leaseRow _).rowHandle]
      exact rowHandle_eq_some.mpr ⟨_, row, held⟩
    | settle settles =>
      cases settles <;> simp [System.deadLetterCall] at hcall
    | requeue phase => simp [System.deadLetterCall, phase] at hcall
    | quiet | claim | push | remove | grant | dropInvalid | heartbeat => simp at hevent
  have hlast : lastEvent (env.messageIdForRaw call.lease.raw) (sys.step env l).log =
      some (.settled (call.lease.handle env) .deadLettered) := by
    simp [System.step, hevents, lastEvent_cons, Event.messageId, ExpectedLease.handle]
  exact ⟨hprocessing, (inv.step own sound).lifecycle.unlisted hlast rfl rfl⟩

end

/-- The message was dead-lettered by expiry and nothing has happened to it since. -/
def DeadLetteredByExpiry (env : Environment) (sys : System) (raw : RunPayload) : Prop :=
  ∃ h, lastEvent (env.messageIdForRaw raw) sys.log = some (.settled h .deadLettered)

/-- Along every run whose removals meet only messages of their own run and whose dead-letter calls
end whole, live leases, expiry moves messages out of the processing list only, and what it has
dead-lettered is in neither list. -/
theorem expiry_run (env : Environment) (labels : List Label)
    (ownRemoval : (machine env).Meets (fun sys => OwnRemoval sys.store) (machine env).start labels)
    (sound : (machine env).Meets (SoundDeadLetter env) (machine env).start labels) :
    (machine env).Meets (ExpiresProcessing env) (machine env).start labels ∧
      ∀ raw, DeadLetteredByExpiry env ((machine env).run labels) raw →
        raw ∉ ((machine env).run labels).store.queued ∧
          raw ∉ ((machine env).run labels).store.processing := by
  have hstep : ∀ sys l, ExpiryInvariant env sys → OwnRemoval sys.store l ∧
    SoundDeadLetter env sys l →
      ExpiryInvariant env ((machine env).step sys l) := fun sys l inv h => inv.step h.1 h.2
  have hmeets := ownRemoval.and sound
  refine ⟨Machine.meets_of_invariant hstep (fun sys l inv h => inv.expiresProcessing h.1 h.2)
    (.initial env) hmeets, ?_⟩
  rintro raw ⟨h, hlast⟩
  exact (Machine.invariant_run (.initial env) hstep hmeets).lifecycle.unlisted hlast rfl rfl

/-- One attempt is allowed, so the expired lease is dead-lettered. -/
def expiredRun : List Label :=
  [.enqueue (.simple "t" "r") 0, .leaseCandidate (.simple "t" "r") 0 "w1" .unlimited (seconds 1) "",
    .startReclaim 0 1 1 (seconds 10), .reclaimAt 0 (seconds 10), .reclaimAt 0 (seconds 10),
    .reclaimAt 0 (seconds 10)]

theorem expiry_run_expiredRun :
    DeadLetteredByExpiry .plain ((machine .plain).run expiredRun) (.simple "t" "r") ∧
      RunPayload.simple "t" "r" ∉ ((machine .plain).run expiredRun).store.queued :=
  ⟨⟨sampleHandle 0, by decide⟩,
    ((expiry_run .plain expiredRun (by decide) (by decide)).2 _ ⟨sampleHandle 0, by decide⟩).1⟩

/-- Pass 0 allows one attempt and has decided to dead-letter the expired lease; pass 1 allows three
and requeues the message first. -/
def disagreeingPassesRun : List Label :=
  [.enqueue (.simple "t" "r") 0, .leaseCandidate (.simple "t" "r") 0 "w1" .unlimited (seconds 1) "",
    .startReclaim 0 1 1 (seconds 10), .reclaimAt 0 (seconds 10), .reclaimAt 0 (seconds 10),
    .startReclaim 1 1 3 (seconds 10), .reclaimAt 1 (seconds 10), .reclaimAt 1 (seconds 10),
    .reclaimAt 1 (seconds 10), .reclaimAt 0 (seconds 10)]

/-- The retry row that survives the requeue lets pass 0 dead-letter the message while it waits in
the queue. -/
theorem disagreeingPassesRun_deadLettered_and_queued :
    (∀ l ∈ disagreeingPassesRun, l.removedRun = none) ∧
      ¬ (machine .plain).Meets (ExpiresProcessing .plain) (machine .plain).start
        disagreeingPassesRun ∧
      DeadLetteredByExpiry .plain ((machine .plain).run disagreeingPassesRun) (.simple "t" "r") ∧
      RunPayload.simple "t" "r" ∈ ((machine .plain).run disagreeingPassesRun).store.queued :=
  ⟨by decide, by decide, ⟨sampleHandle 0, by decide⟩, by decide⟩

/-- Along such runs the log tells where every listed message is, and what was settled without a
requeue is in neither list until it is admitted again. -/
theorem settled_unlisted_run (env : Environment) (labels : List Label)
    (ownRemoval : (machine env).Meets (fun sys => OwnRemoval sys.store) (machine env).start labels)
    (sound : (machine env).Meets (SoundDeadLetter env) (machine env).start labels) :
    let sys := (machine env).run labels
    Lifecycle env sys.store sys.log ∧ ∀ raw h how, how ≠ .requeued →
      lastEvent (env.messageIdForRaw raw) sys.log = some (.settled h how) →
      raw ∉ sys.store.queued ∧ raw ∉ sys.store.processing := by
  intro sys
  have inv : ExpiryInvariant env sys :=
    Machine.invariant_run (.initial env) (fun _ _ inv h => inv.step h.1 h.2) (ownRemoval.and sound)
  refine ⟨inv.lifecycle, fun raw h how hrequeued hlast => inv.lifecycle.unlisted hlast ?_ rfl⟩
  cases how with
  | requeued => exact absurd rfl hrequeued
  | acked | failed | deadLettered => rfl

theorem settled_unlisted_run_expiredRun :
    RunPayload.simple "t" "r" ∉ ((machine .plain).run expiredRun).store.processing :=
  ((settled_unlisted_run .plain expiredRun (by decide) (by decide)).2 _ (sampleHandle 0)
    .deadLettered (by decide) (by decide)).2

end AiPlatform.Queue
