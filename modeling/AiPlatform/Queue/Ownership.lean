import AiPlatform.Queue.History
import AiPlatform.Queue.Consistency

/-!
# Only the current holder of a lease can act on it

The processing row of a message names its current lease, and heartbeat, ack, fail and verify go by
that row. Two calls of the expiry dead-letter script break this: one that ends a lease but keeps
its processing row, and one that acts on the retry row of a lease that was already requeued.
`SoundDeadLetter` excludes both.
-/
namespace AiPlatform.Queue

open AiPlatform.Foundation Hash SortedSet

/-- If a dead-letter call finds the lease it names, it finds it in the processing row and removes
that row. -/
def SoundDeadLetter (env : Environment) (sys : System) (l : Label) : Prop :=
  ∀ call ∈ sys.deadLetterCall l,
    rowHandle (leaseRow sys.store (env.messageIdForRaw call.lease.raw)) =
      some (call.lease.handle env) →
    call.removeProcessingMeta = true ∧
      hexists sys.store.processingMeta (env.messageIdForRaw call.lease.raw) = true

instance (env : Environment) (sys : System) (l : Label) : Decidable (SoundDeadLetter env sys l) :=
  inferInstanceAs (Decidable (∀ call ∈ sys.deadLetterCall l, _ → _ ∧ _))

/-- The heartbeat was recorded. -/
def HeartbeatStatus.recorded : HeartbeatStatus → Bool
  | .heartbeat _ => true
  | .clockRegressed => true
  | _ => false

def HoldsCurrentLease (sys : System) (h : LeaseHandle) : Prop :=
  currentLease h.messageId sys.log = some h

instance (sys : System) (h : LeaseHandle) : Decidable (HoldsCurrentLease sys h) :=
  inferInstanceAs (Decidable (_ = _))

structure SoleOwnership (env : Environment) (sys : System) : Prop where
  heartbeat : ∀ h worker now, (heartbeatWithFence env sys.store h worker now).2.recorded = true →
    HoldsCurrentLease sys h
  ack : ∀ raw h, (ackRun env sys.store raw h).2 = .acked → HoldsCurrentLease sys h
  fail : ∀ raw h code message worker now,
    (failLeasedRun env sys.store raw h code message worker now).2 = .failed →
    HoldsCurrentLease sys h
  verify : ∀ raw h worker, verifyLeaseOwnership env sys.store raw h worker = .current →
    HoldsCurrentLease sys h
  settledOnce : ∀ h, settlements h sys.log ≤ 1
  staleHeartbeat : ∀ h worker now, ¬ HoldsCurrentLease sys h →
    (heartbeatWithFence env sys.store h worker now).1 = sys.store
  staleAck : ∀ raw h, ¬ HoldsCurrentLease sys h → (ackRun env sys.store raw h).1 = sys.store
  staleFail : ∀ raw h code message worker now, ¬ HoldsCurrentLease sys h →
    (failLeasedRun env sys.store raw h code message worker now).1 = sys.store

section

variable {env : Environment} {s : Store}

/-! ## The holder's scripts go by the processing row -/

variable (env) in
theorem heartbeatWithFence_refused {h : LeaseHandle}
    (hrow : rowHandle (hget s.processingMeta h.messageId) ≠ some h) (worker : String) (now : Time) :
    ∃ status, heartbeatWithFence env s h worker now = (s, status) ∧ status.recorded = false := by
  unfold heartbeatWithFence
  split
  · exact ⟨_, rfl, rfl⟩
  · exact ⟨_, rfl, rfl⟩
  rename_i m row
  have hheld : ¬ (m.IsHeldBy h ∧ m.workerId = worker) := fun held =>
    hrow (rowHandle_eq_some.mpr ⟨m, row, (m.isHeldBy_iff_handle h).mp held.1⟩)
  rw [if_pos hheld]
  exact ⟨_, rfl, rfl⟩

theorem ownedLease_refused {h : LeaseHandle}
    (hrow : rowHandle (hget s.processingMeta h.messageId) ≠ some h) (raw : RunPayload)
    (holder : LeaseMeta → Bool) :
    ∃ status, ownedLease env s raw h holder = .error status ∧
      (status = .staleOwner ∨ status = .reconciliationFenced) := by
  cases hl : ownedLease env s raw h holder with
  | error status => exact ⟨status, rfl, ownedLease_error hl⟩
  | ok m =>
    obtain ⟨row, held, -, -⟩ := ownedLease_ok hl
    exact absurd (rowHandle_eq_some.mpr ⟨m, row, held⟩) hrow

variable (env) in
theorem ackRun_refused {h : LeaseHandle}
    (hrow : rowHandle (hget s.processingMeta h.messageId) ≠ some h) (raw : RunPayload) :
    ∃ status, ackRun env s raw h = (s, status) ∧ status ≠ .acked := by
  unfold ackRun
  split
  · exact ⟨_, rfl, by simp⟩
  obtain ⟨status, hl, hstatus⟩ := ownedLease_refused hrow raw fun _ => true
  rw [hl]
  refine ⟨status, rfl, ?_⟩
  obtain rfl | rfl := hstatus <;> simp

variable (env) in
theorem failLeasedRun_refused {h : LeaseHandle}
    (hrow : rowHandle (hget s.processingMeta h.messageId) ≠ some h) (raw : RunPayload)
    (code message : String) (worker : Option String) (now : Time) :
    ∃ status, failLeasedRun env s raw h code message worker now = (s, status) ∧
      status ≠ .failed := by
  unfold failLeasedRun
  split
  · exact ⟨_, rfl, by simp⟩
  obtain ⟨status, hl, hstatus⟩ := ownedLease_refused hrow raw fun _ => true
  rw [hl]
  refine ⟨status, rfl, ?_⟩
  obtain rfl | rfl := hstatus <;> simp

variable (env) in
theorem verifyLeaseOwnership_refused {h : LeaseHandle}
    (hrow : rowHandle (hget s.processingMeta h.messageId) ≠ some h) (raw : RunPayload)
    (worker : String) : verifyLeaseOwnership env s raw h worker ≠ .current := by
  unfold verifyLeaseOwnership
  split
  · simp
  obtain ⟨status, hl, hstatus⟩ :=
    ownedLease_refused hrow raw fun m => m.workerId = worker
  rw [hl]
  obtain rfl | rfl := hstatus <;> simp

/-! ## The processing row names the current lease -/

structure Ownership (env : Environment) (sys : System) : Prop where
  history : LeaseHistory sys.log
  fresh : ∀ h a, .leased h a ∈ sys.log → ∃ k < sys.secretsDrawn, h.attemptId = attemptSecret env k
  current : ∀ messageId h, rowHandle (hget sys.store.processingMeta messageId) = some h →
    currentLease messageId sys.log = some h

theorem attemptSecret_injective (env : Environment) : Function.Injective (attemptSecret env) := by
  intro a b h
  have hhex : env.tokenHex (2 * a) = env.tokenHex (2 * b) := by
    have hl := congrArg String.toList h
    simp only [attemptSecret, String.toList_append] at hl
    exact String.toList_inj.mp (List.append_cancel_left hl)
  have := env.tokenHex_injective hhex
  omega

theorem leaseRow_of_processing {messageId : String}
    (hrow : hexists s.processingMeta messageId = true) :
    leaseRow s messageId = hget s.processingMeta messageId := by
  obtain ⟨row, hrow⟩ := (hexists_eq_true _ _).mp hrow
  simp [leaseRow, hrow]

variable {sys : System} {l : Label} {s' : Store} {events log : List Event}

theorem Change.current (rows : Rows env s)
    (own : ∀ messageId h, rowHandle (hget s.processingMeta messageId) = some h →
      currentLease messageId log = some h)
    (whole : ∀ call ∈ sys.deadLetterCall l,
      rowHandle (leaseRow s (env.messageIdForRaw call.lease.raw)) = some (call.lease.handle env) →
        call.removeProcessingMeta = true)
    (change : Change env sys l s events s') {messageId : String} {h : LeaseHandle}
    (hrow : rowHandle (hget s'.processingMeta messageId) = some h) :
    currentLease messageId (events ++ log) = some h := by
  -- An event about another message, or about none, leaves the current lease as it was.
  have hskip : ∀ {e : Event}, e.messageId ≠ some messageId →
      rowHandle (hget s.processingMeta messageId) = some h →
      currentLease messageId ([e] ++ log) = some h := by
    intro e he hrow
    rw [List.singleton_append, currentLease_cons, if_neg he]
    exact own _ _ hrow
  cases change with
  | quiet same => exact own _ _ (same.processingMeta ▸ hrow)
  | claim => exact hskip (by simp [Event.messageId]) hrow
  | push valid unfenced notIndexed notProcessing =>
    refine hskip ?_ hrow
    rintro heq
    obtain rfl : env.messageIdForRaw _ = messageId := by simpa [Event.messageId] using heq
    simp [Store.pushQueued, notProcessing, rowHandle] at hrow
  | remove removal =>
    exact hskip (by simp [Event.messageId]) ((removal.removes rows).processingMeta ▸ hrow)
  | grant request =>
    subst request
    simp only [Store.grantLease, Store.takeQueued, hget_hset] at hrow
    split at hrow
    · rename_i hid
      rw [List.singleton_append, currentLease_cons, if_pos (by simp [Event.messageId, hid,
        LeaseRequest.handle])]
      exact hrow
    · rename_i hid
      exact hskip (by simpa [Event.messageId, LeaseRequest.handle] using Ne.symm hid) hrow
  | dropInvalid rejected =>
    refine hskip ?_ hrow
    rintro heq
    obtain rfl : env.messageIdForRaw _ = messageId := by simpa [Event.messageId] using heq
    obtain ⟨m, hm, -⟩ := rowHandle_eq_some.mp hrow
    have haccepted := (rows.processing_describes hm).accepted
    simp [rejected] at haccepted
  | heartbeat row held unfenced same =>
    simp only [Store.recordHeartbeat, hget_hset] at hrow
    split at hrow
    · rename_i hid
      subst hid
      refine own _ _ ?_
      rw [row, ← hrow]
      simp only [rowHandle, (same.trans (.encoded env _)).handle]
    · exact own _ _ hrow
  | settle settles row held =>
    simp only [Store.settleLease, hget_hdel] at hrow
    split at hrow
    · simp [rowHandle] at hrow
    · rename_i hid
      exact hskip (by simpa [Event.messageId] using Ne.symm hid) hrow
  | requeue =>
    simp only [Store.requeued, Store.pushQueued, hget_hdel] at hrow
    split at hrow
    · simp [rowHandle] at hrow
    · rename_i hid
      exact hskip (by simpa [Event.messageId, ExpectedLease.handle] using Ne.symm hid) hrow
  | deadLetter phase unfenced row held =>
    have hflag := whole _ (sys.deadLetterCall_eq phase) (rowHandle_eq_some.mpr ⟨_, row, held⟩)
    simp only [Store.deadLettered, hflag, if_true, hget_hdel] at hrow
    split at hrow
    · simp [rowHandle] at hrow
    · rename_i hid
      exact hskip (by simpa [Event.messageId, ExpectedLease.handle] using Ne.symm hid) hrow

theorem Change.history (hist : LeaseHistory log) (slots : Slots env s)
    (own : ∀ messageId h, rowHandle (hget s.processingMeta messageId) = some h →
      currentLease messageId log = some h)
    (fresh : ∀ h a, .leased h a ∈ log → ∃ k < sys.secretsDrawn, h.attemptId = attemptSecret env k)
    (live : ∀ call ∈ sys.deadLetterCall l,
      rowHandle (leaseRow s (env.messageIdForRaw call.lease.raw)) = some (call.lease.handle env) →
        hexists s.processingMeta (env.messageIdForRaw call.lease.raw) = true)
    (change : Change env sys l s events s') : LeaseHistory (events ++ log) := by
  cases change with
  | quiet | heartbeat => exact hist
  | claim | push | remove | dropInvalid => exact hist.other rfl fun _ => rfl
  | grant request =>
    subst request
    refine hist.lease _ fun a hmem => ?_
    obtain ⟨k, hk, hid⟩ := fresh _ a hmem
    have := attemptSecret_injective env hid
    omega
  | settle settles row held =>
    exact hist.settle _ (own _ _ (rowHandle_eq_some.mpr ⟨_, row, held⟩))
  | requeue phase unfenced row held processing =>
    rw [leaseRow_of_processing (slots.leased _ processing)] at row
    exact hist.settle _ (own _ _ (rowHandle_eq_some.mpr ⟨_, row, held⟩))
  | deadLetter phase unfenced row held =>
    have hrow := live _ (sys.deadLetterCall_eq phase) (rowHandle_eq_some.mpr ⟨_, row, held⟩)
    rw [leaseRow_of_processing hrow] at row
    exact hist.settle _ (own _ _ (rowHandle_eq_some.mpr ⟨_, row, held⟩))

theorem Change.leased_fresh
    (fresh : ∀ h a, .leased h a ∈ log → ∃ k < sys.secretsDrawn, h.attemptId = attemptSecret env k)
    (change : Change env sys l s events s') {h : LeaseHandle} {a : Int}
    (hmem : .leased h a ∈ events ++ log) :
    ∃ k < sys.secretsAfter env l, h.attemptId = attemptSecret env k := by
  have hle : sys.secretsDrawn ≤ sys.secretsAfter env l := by
    unfold System.secretsAfter
    split
    · split <;> omega
    · omega
  obtain hnew | hold := List.mem_append.mp hmem
  · cases change with
    | grant request accepted =>
      subst request
      obtain ⟨rfl, -⟩ : h = _ ∧ a = _ := by simpa using hnew
      exact ⟨sys.secretsDrawn, by simp [System.secretsAfter, accepted], rfl⟩
    | quiet | claim | push | remove | dropInvalid | heartbeat | settle | requeue | deadLetter =>
      simp at hnew
  · obtain ⟨k, hk, hid⟩ := fresh h a hold
    exact ⟨k, by omega, hid⟩

theorem Ownership.step (own : Ownership env sys) (wf : WellFormed env sys)
    (slots : Slots env sys.store) (sound : SoundDeadLetter env sys l) :
    Ownership env (sys.step env l) := by
  obtain ⟨s₁, kept, change⟩ := sys.effect_change env l
  have hcur : ∀ messageId h, rowHandle (hget s₁.processingMeta messageId) = some h →
      currentLease messageId sys.log = some h :=
    fun messageId h hrow => own.current _ _ ((kept.processingRow _).rowHandle ▸ hrow)
  have hsound : ∀ call ∈ sys.deadLetterCall l,
      rowHandle (leaseRow s₁ (env.messageIdForRaw call.lease.raw)) = some (call.lease.handle env) →
      call.removeProcessingMeta = true ∧
        hexists s₁.processingMeta (env.messageIdForRaw call.lease.raw) = true := by
    intro call hcall hrow
    obtain ⟨hflag, hlive⟩ := sound call hcall ((kept.leaseRow _).rowHandle ▸ hrow)
    refine ⟨hflag, ?_⟩
    rw [← Bool.not_eq_false, hexists_eq_false] at hlive ⊢
    rwa [(kept.processingRow _).eq_none]
  exact
    { history := change.history own.history (slots.rewritten kept) hcur own.fresh
        fun call hcall hrow => (hsound call hcall hrow).2
      fresh := fun h a => change.leased_fresh own.fresh
      current := fun messageId h => change.current (wf.rows.rewritten kept) hcur
        fun call hcall hrow => (hsound call hcall hrow).1 }

theorem Ownership.soleOwnership (own : Ownership env sys) : SoleOwnership env sys := by
  have hstale : ∀ h, ¬ HoldsCurrentLease sys h →
      rowHandle (hget sys.store.processingMeta h.messageId) ≠ some h :=
    fun h hnot hrow => hnot (own.current _ _ hrow)
  refine ⟨?_, ?_, ?_, ?_, own.history.once, ?_, ?_, ?_⟩
  · intro h worker now hrec
    by_contra hnot
    obtain ⟨status, heq, hstatus⟩ := heartbeatWithFence_refused env (hstale h hnot) worker now
    simp [heq, hstatus] at hrec
  · intro raw h hack
    by_contra hnot
    obtain ⟨status, heq, hstatus⟩ := ackRun_refused env (hstale h hnot) raw
    exact hstatus (by simpa [heq] using hack)
  · intro raw h code message worker now hfail
    by_contra hnot
    obtain ⟨status, heq, hstatus⟩ :=
      failLeasedRun_refused env (hstale h hnot) raw code message worker now
    exact hstatus (by simpa [heq] using hfail)
  · intro raw h worker hverify
    by_contra hnot
    exact verifyLeaseOwnership_refused env (hstale h hnot) raw worker hverify
  · intro h worker now hnot
    obtain ⟨status, heq, -⟩ := heartbeatWithFence_refused env (hstale h hnot) worker now
    rw [heq]
  · intro raw h hnot
    obtain ⟨status, heq, -⟩ := ackRun_refused env (hstale h hnot) raw
    rw [heq]
  · intro raw h code message worker now hnot
    obtain ⟨status, heq, -⟩ := failLeasedRun_refused env (hstale h hnot) raw code message worker now
    rw [heq]

end

/-- Along every run whose removals meet only messages of their own run and whose dead-letter calls
end whole, live leases, only the current holder of a lease can act on it. -/
theorem soleOwnership_run (env : Environment) (labels : List Label)
    (ownRemoval : (machine env).Meets (fun sys => OwnRemoval sys.store) (machine env).start labels)
    (sound : (machine env).Meets (SoundDeadLetter env) (machine env).start labels) :
    SoleOwnership env ((machine env).run labels) := by
  suffices hrun : WellFormed env ((machine env).run labels) ∧
      Slots env ((machine env).run labels).store ∧ Ownership env ((machine env).run labels) from
    hrun.2.2.soleOwnership
  refine Machine.invariant_run (I := fun sys => WellFormed env sys ∧ Slots env sys.store ∧
    Ownership env sys) ?_ ?_ (ownRemoval.and sound)
  · exact ⟨wellFormed_run env [], .empty env, .nil, by simp [System.initial],
      by simp [System.initial, Store.empty, rowHandle]⟩
  · rintro sys l ⟨wf, slots, own⟩ ⟨hremoval, hsound⟩
    exact ⟨wf.step l, slots.step wf hremoval, own.step wf slots hsound⟩

/-- The handle of the `k`-th lease drawn, granted on the message of the sample runs. -/
def sampleHandle (k : Nat) : LeaseHandle :=
  ⟨Environment.plain.messageIdForRaw (.simple "t" "r"), attemptSecret .plain k,
    ownerSecret .plain k⟩

theorem soleOwnership_run_retriedRun :
    HoldsCurrentLease ((machine .plain).run retriedRun) (sampleHandle 1) ∧
      SoleOwnership .plain ((machine .plain).run retriedRun) :=
  ⟨by decide, soleOwnership_run .plain retriedRun (by decide) (by decide)⟩

/-- After pass 0 has dead-lettered the second lease, its holder can still send heartbeats and ack
it, which settles the lease a second time. -/
theorem racingPassesRun_not_soleOwnership :
    (∀ l ∈ racingPassesRun, l.removedRun = none) ∧
      ¬ HoldsCurrentLease ((machine .plain).run racingPassesRun) (sampleHandle 1) ∧
      (heartbeatWithFence .plain ((machine .plain).run racingPassesRun).store (sampleHandle 1) "w2"
        (seconds 21)).2 = .heartbeat (seconds 21) ∧
      (ackRun .plain ((machine .plain).run racingPassesRun).store (.simple "t" "r")
        (sampleHandle 1)).2 = .acked ∧
      settlements (sampleHandle 1) ((machine .plain).run
        (racingPassesRun ++ [.ack (.simple "t" "r") (sampleHandle 1)])).log = 2 := by
  refine ⟨by decide, by decide, by decide, by decide, by decide⟩

end AiPlatform.Queue
