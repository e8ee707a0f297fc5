import AiPlatform.Queue.WellFormed

/-!
# Mutual exclusion with the reconciler

While the fence claimed for a run exists, the run has no message in either list, and no script can
act for it. Different runs may share a fence key, so the run a fence was claimed for is read from
the log of claims.
-/
namespace AiPlatform.Queue

open AiPlatform.Foundation Hash SortedSet

/-- The run for which the fence under `key` was last claimed. -/
def lastClaim (env : Environment) (key : String) (log : List Event) : Option (String × String) :=
  log.findSome? fun
    | .claimed tenantId runId =>
      if reconciliationFenceKey env tenantId runId = key then some (tenantId, runId) else none
    | _ => none

/-- The fence of the run exists, and it was claimed for this run. -/
def FencedFor (env : Environment) (sys : System) (tenantId runId : String) : Prop :=
  hexists sys.store.fences (reconciliationFenceKey env tenantId runId) = true ∧
    lastClaim env (reconciliationFenceKey env tenantId runId) sys.log = some (tenantId, runId)

instance (env : Environment) (sys : System) (tenantId runId : String) :
    Decidable (FencedFor env sys tenantId runId) :=
  inferInstanceAs (Decidable (_ ∧ _))

def Store.Unlisted (s : Store) (tenantId runId : String) : Prop :=
  ∀ raw, raw ∈ s.queued ∨ raw ∈ s.processing → ¬ raw.IsFor tenantId runId

/-- No message of the run is listed, and every script called for it is refused and leaves every key
as it was. -/
structure Excluded (env : Environment) (s : Store) (tenantId runId : String) : Prop where
  unlisted : s.Unlisted tenantId runId
  enqueue : ∀ raw enqueuedAt, raw.IsFor tenantId runId →
    enqueueRun env s raw enqueuedAt = (s, none) ∨
      enqueueRun env s raw enqueuedAt = (s, some .reconciliationFenced)
  lease : ∀ req now, req.raw.IsFor tenantId runId → leaseQuota env s req now =
    (s, .reconciliationFenced)
  leaseInvalid : ∀ raw index worker now message, raw.IsFor tenantId runId →
    deadLetterInvalidQuota env s raw index worker now message = (s, .conflict)
  requeue : ∀ call enqueuedAt now, call.lease.raw.IsFor tenantId runId →
    requeueWithFence env s call enqueuedAt now = (s, some .reconciliationFenced)
  deadLetter : ∀ call createdAt now, call.lease.raw.IsFor tenantId runId →
    ∃ refusal, deadLetterExpiredLease env s call createdAt now = (s, some refusal)
  heartbeat : ∀ raw h worker now, raw.IsFor tenantId runId → h.messageId = env.messageIdForRaw raw →
    ∃ status ∈ [HeartbeatStatus.missing, .inconclusive, .staleOwner, .reconciliationFenced],
      heartbeatWithFence env s h worker now = (s, status)
  ack : ∀ raw h, raw.IsFor tenantId runId → ∃ status,
    status ≠ .acked ∧ ackRun env s raw h = (s, status)
  fail : ∀ raw h code message worker now, raw.IsFor tenantId runId → ∃ status,
    status ≠ .failed ∧ failLeasedRun env s raw h code message worker now = (s, status)

section

variable {env : Environment} {tenantId runId : String}

variable {raw : RunPayload} {s : Store}

theorem RunPayload.IsFor.fenceKey (h : raw.IsFor tenantId runId) :
    raw.fenceKey env = reconciliationFenceKey env tenantId runId := by
  simp [RunPayload.fenceKey, h.1, h.2]

theorem ownedLease_fenced (fenced : hexists s.fences (raw.fenceKey env) = true) (h : LeaseHandle)
    (holder : LeaseMeta → Bool) :
    ∃ status, ownedLease env s raw h holder = .error status ∧
      (status = .staleOwner ∨ status = .reconciliationFenced) := by
  cases hl : ownedLease env s raw h holder with
  | error status => exact ⟨status, rfl, ownedLease_error hl⟩
  | ok m =>
    obtain ⟨-, -, -, unfenced⟩ := ownedLease_ok hl
    simp [fenced] at unfenced

theorem heartbeatWithFence_fenced (rows : Rows env s)
    (fenced : hexists s.fences (raw.fenceKey env) = true) {h : LeaseHandle}
    (hid : h.messageId = env.messageIdForRaw raw) (worker : String) (now : Time) :
    ∃ status ∈ [HeartbeatStatus.missing, .inconclusive, .staleOwner, .reconciliationFenced],
      heartbeatWithFence env s h worker now = (s, status) := by
  unfold heartbeatWithFence
  split
  · exact ⟨_, by simp, rfl⟩
  · exact ⟨_, by simp, rfl⟩
  rename_i m row
  rw [hid] at row
  have hkey := (rows.processing_describes row).fenceKey
  split
  · exact ⟨_, by simp, rfl⟩
  split
  · exact ⟨_, by simp, rfl⟩
  · exact ⟨_, by simp, rfl⟩
  · rw [hkey, if_pos fenced]
    exact ⟨_, by simp, rfl⟩

/-- The fence key and the absence of the run's messages are all that the scripts need. -/
theorem Store.Unlisted.excluded (unlisted : s.Unlisted tenantId runId) (rows : Rows env s)
    (fenced : hexists s.fences (reconciliationFenceKey env tenantId runId) = true) :
    Excluded env s tenantId runId := by
  have hfenced : ∀ raw : RunPayload, raw.IsFor tenantId runId →
      hexists s.fences (raw.fenceKey env) = true := fun raw hraw => hraw.fenceKey ▸ fenced
  refine ⟨unlisted, ?_, ?_, ?_, ?_, ?_, ?_, ?_, ?_⟩
  · intro raw enqueuedAt hraw
    by_cases valid : (raw.validIds && env.validBody raw.body) = true
    · right
      simp [enqueueRun, valid, enqueueWithMetadata, hfenced raw hraw]
    · left
      simp [enqueueRun, valid]
  · intro req now hraw
    simp [leaseQuota, hfenced _ hraw]
  · intro raw index worker now message hraw
    have habsent : lindex s.queued index ≠ some raw :=
      fun h => unlisted raw (.inl (mem_of_lindex h)) hraw
    simp [deadLetterInvalidQuota, habsent]
  · intro call enqueuedAt now hraw
    simp [requeueWithFence, expiredLeaseGuard, hfenced _ hraw]
  · intro call createdAt now hraw
    by_cases accepted : env.acceptsRaw call.lease.raw = true
    · refine ⟨.reconciliationFenced, ?_⟩
      simp [deadLetterExpiredLease, expiredLeaseGuard, deadLetterFenceKey, accepted,
        hfenced _ hraw]
    · -- A payload that does not validate was never leased, so the script finds no row.
      have hrow : leaseRow s (env.messageIdForRaw call.lease.raw) = none := by
        have hno : ∀ {h : Hash String (Encoded LeaseMeta)}, LeaseRows env h →
            hget h (env.messageIdForRaw call.lease.raw) = none := by
          intro h hrows
          cases hget' : hget h (env.messageIdForRaw call.lease.raw) with
          | none => rfl
          | some row =>
            obtain ⟨m, -, hm⟩ := hrows.at hget'
            exact absurd hm.accepted accepted
        simp [leaseRow, hno rows.processing, hno rows.retry]
      unfold deadLetterExpiredLease expiredLeaseGuard
      simp only [hrow]
      split
      · rename_i heq
        split at heq <;> simp_all
      · rename_i heq
        split at heq <;> simp at heq
  · intro raw h worker now hraw hid
    exact heartbeatWithFence_fenced rows (hfenced raw hraw) hid worker now
  · intro raw h hraw
    obtain ⟨status, hl, hstatus⟩ := ownedLease_fenced (hfenced raw hraw) h fun _ => true
    by_cases accepted : env.acceptsRaw raw = true
    · refine ⟨status, ?_, by simp [ackRun, accepted, hl]⟩
      obtain rfl | rfl := hstatus <;> simp
    · exact ⟨.invalidPayload, by simp, by simp [ackRun, accepted]⟩
  · intro raw h code message worker now hraw
    obtain ⟨status, hl, hstatus⟩ := ownedLease_fenced (hfenced raw hraw) h fun _ => true
    by_cases accepted : env.acceptsRaw raw = true
    · refine ⟨status, ?_, by simp [failLeasedRun, accepted, hl]⟩
      obtain rfl | rfl := hstatus <;> simp
    · exact ⟨.invalidPayload, by simp, by simp [failLeasedRun, accepted]⟩

/-- A fence claimed for the run after a change was so before, or the change is the claim. -/
theorem Change.fencedFor {sys : System} {l : Label} {s' : Store} {events : List Event}
    (rows : Rows env s) (change : Change env sys l s events s') {log : List Event}
    (fenced : hexists s'.fences (reconciliationFenceKey env tenantId runId) = true)
    (claim : lastClaim env (reconciliationFenceKey env tenantId runId) (events ++ log) =
      some (tenantId, runId)) :
    (hexists s.fences (reconciliationFenceKey env tenantId runId) = true ∧
      lastClaim env (reconciliationFenceKey env tenantId runId) log = some (tenantId, runId)) ∨
      s.Unlisted tenantId runId := by
  cases change with
  | quiet same fences => exact .inl ⟨fences _ fenced, claim⟩
  | claim unfenced queued processing =>
    rename_i req now
    by_cases hkey : reconciliationFenceKey env req.tenantId req.runId =
        reconciliationFenceKey env tenantId runId
    · right
      simp only [lastClaim, List.singleton_append, List.findSome?_cons, hkey, if_true,
        Option.some.injEq, Prod.mk.injEq] at claim
      obtain ⟨rfl, rfl⟩ := claim
      exact fun raw hraw => hraw.elim (queued raw) (processing raw)
    · left
      refine ⟨?_, by simpa [lastClaim, hkey] using claim⟩
      simpa [hexists, Ne.symm hkey] using fenced
  | remove removal => exact .inl ⟨(removal.removes rows).fences ▸ fenced, claim⟩
  | push | grant | dropInvalid | heartbeat | settle | requeue | deadLetter =>
    exact .inl ⟨fenced, claim⟩

end

/-- Whatever clients do, while a fence claimed for a run exists the run is excluded from the
queue. -/
theorem fencedFor_excluded (env : Environment) (labels : List Label) (tenantId runId : String)
    (fenced : FencedFor env ((machine env).run labels) tenantId runId) :
    Excluded env ((machine env).run labels).store tenantId runId := by
  suffices hrun : WellFormed env ((machine env).run labels) ∧
      (FencedFor env ((machine env).run labels) tenantId runId →
        ((machine env).run labels).store.Unlisted tenantId runId) from
    (hrun.2 fenced).excluded hrun.1.rows fenced.1
  refine Machine.invariant_reachable (I := fun sys => WellFormed env sys ∧
    (FencedFor env sys tenantId runId → sys.store.Unlisted tenantId runId)) ?_ ?_ labels
  · exact ⟨wellFormed_run env [], fun _ raw h => by simp [System.initial, Store.empty] at h⟩
  · rintro sys l ⟨wf, hun⟩
    refine ⟨wf.step l, ?_⟩
    rintro ⟨hfence, hclaim⟩ raw hraw hrun
    obtain ⟨s₁, kept, change⟩ := sys.effect_change env l
    have rows := wf.rows.rewritten kept
    -- The fence stood before the step, or the step is the claim; the lists were clear either way.
    have hbefore : s₁.Unlisted tenantId runId := by
      obtain ⟨hf, hc⟩ | hclear := change.fencedFor rows hfence hclaim
      · intro raw hraw
        rw [kept.queued, kept.processing] at hraw
        exact hun ⟨kept.fences ▸ hf, hc⟩ raw hraw
      · exact hclear
    obtain hlisted | ⟨-, hunfenced⟩ := change.listed rows hraw
    · exact hbefore raw hlisted hrun
    · rw [hrun.fenceKey] at hunfenced
      exact absurd hfence (Bool.eq_false_iff.mp hunfenced)

/-- One message of another run is leased and one waits when the fence is claimed; the admission
that comes after it is refused. -/
def reconcilerClaim : List Label :=
  [.enqueue (.simple "t" "p") 0, .enqueue (.simple "t" "q") 0,
    .leaseCandidate (.simple "t" "p") 0 "w" .unlimited (seconds 1) "",
    .acquireFence ⟨"t", "r", "owner", seconds 60, 100, 30000⟩ (seconds 2),
    .enqueue (.simple "t" "r") (seconds 3)]

theorem fencedFor_excluded_reconcilerClaim :
    (((machine .plain).run reconcilerClaim).store.queued = [.simple "t" "q"] ∧
      ((machine .plain).run reconcilerClaim).store.processing = [.simple "t" "p"]) ∧
    FencedFor .plain ((machine .plain).run reconcilerClaim) "t" "r" ∧
      Excluded .plain ((machine .plain).run reconcilerClaim).store "t" "r" :=
  ⟨by decide, by decide, fencedFor_excluded .plain reconcilerClaim "t" "r" (by decide)⟩

end AiPlatform.Queue
