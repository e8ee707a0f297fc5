import AiPlatform.Sandbox.LeaseClaims

/-!
# Which leases are picked up

Four queries look for leases to act on: the listing of expired leases and the three claims. A lease
that stays active is to be found by one of them once the clock is late enough.
-/
namespace AiPlatform.Sandbox

open AiPlatform.Foundation AiPlatform.Kernel

/-- A row of `list_expired_active_sandbox_leases`. -/
@[grind]
def Lease.ListedExpired (now : Int) (lease : Lease) : Prop :=
  lease.status = .active ∧ lease.Expired now ∧ lease.Releasable

/-- The `stale_after_seconds` of the three claims. -/
structure Sweeps where
  suspects : Int
  reconciliations : Int
  cleanups : Int

@[grind]
def Lease.Selected (now : Int) (sweeps : Sweeps) (lease : Lease) : Prop :=
  lease.ListedExpired now ∨ lease.Suspect now sweeps.suspects ∨
    lease.Reconcilable now sweeps.reconciliations ∨ lease.CleanupDue now sweeps.cleanups

/-- The columns of `runs` that `list_stale_run_reconciliation_candidates` reads; `lastActivity` is
the latest of the run's timestamps and that of its newest event. -/
structure RunActivity where
  tenantId : String
  runId : String
  unfinished : Bool
  cancelRequestedAt : Option Int
  lastActivity : Int
  deriving DecidableEq, Repr

/-- A run that is taken for stale has no active lease. -/
def RunActivity.StaleCandidate (now staleAfter cancelAfter : Int) (leases : List Lease)
    (run : RunActivity) : Prop :=
  run.unfinished = true ∧
    (run.cancelRequestedAt.getD run.lastActivity ≤
      now - max 1 (if run.cancelRequestedAt = none then staleAfter else cancelAfter)) ∧
    ∀ lease ∈ leases, lease.scope.tenantId = run.tenantId → lease.scope.runId = run.runId →
      lease.status ≠ .active

section Selection

variable {lease : Lease} {sweeps : Sweeps}

/-- A terminal result that came before the acceptance is in nobody's query. -/
theorem Lease.Sound.not_selected (h : lease.Sound) (hterminal : lease.executorTerminal ≠ none)
    (hcontext : lease.reconciliationContext = none) (now : Int) : ¬ lease.Selected now sweeps := by
  have hwaiting := h.waiting_of_no_context hcontext
  grind

/-- Without a terminal result the lease expires. -/
theorem Lease.Sound.selected_of_expiry (h : lease.Sound) (hactive : lease.status = .active)
    (hterminal : lease.executorTerminal = none) :
    ∃ t, ∀ now, t ≤ now → lease.Selected now sweeps := by
  obtain ⟨expiry, hexpiry⟩ := Option.ne_none_iff_exists'.mp h.expires
  exact ⟨expiry, fun now hnow => .inl ⟨hactive, ⟨expiry, hexpiry, hnow⟩, .inl hterminal⟩⟩

/-- The time from which no retry is waited for and no claim is fresh. -/
def Lease.settledBy (lease : Lease) (sweeps : Sweeps) : Int :=
  max (lease.retryNotBefore.getD 0)
    (lease.claimedAt.getD 0 + max sweeps.reconciliations sweeps.cleanups + 1)

theorem Lease.retryDue_of_settledBy {now : Int} (h : lease.settledBy sweeps ≤ now) :
    lease.RetryDue now := by
  intro t ht
  have ht : lease.retryNotBefore.getD 0 = t := by rw [ht]; rfl
  unfold Lease.settledBy at h
  omega

theorem Lease.claim_stale_of_settledBy {now t : Int} (h : lease.settledBy sweeps ≤ now)
    (ht : lease.claimedAt = some t) :
    t < now - sweeps.reconciliations ∧ t < now - sweeps.cleanups := by
  unfold Lease.settledBy at h
  rw [ht, Option.getD_some] at h
  omega

/-- With a terminal result and its context, the lease waits for a claim of the one kind or the
other. -/
theorem Lease.Sound.selected_of_context (h : lease.Sound) (hactive : lease.status = .active)
    (hterminal : lease.executorTerminal ≠ none) (hcontext : lease.reconciliationContext ≠ none) :
    ∃ t, ∀ now, t ≤ now → lease.Selected now sweeps := by
  refine ⟨lease.settledBy sweeps, fun now hnow => ?_⟩
  have hkept : lease.Kept := .inl hactive
  have hdue := lease.retryDue_of_settledBy hnow
  cases hstatus : lease.reconciliationStatus with
  | waitingTerminal => exact absurd hstatus (h.not_waiting hterminal hcontext)
  | pending => exact .inr (.inr (.inl ⟨hkept, hterminal, hcontext, .inl hstatus⟩))
  | retry => exact .inr (.inr (.inl ⟨hkept, hterminal, hcontext, .inr (.inl ⟨hstatus, hdue⟩)⟩))
  | claimed =>
    obtain ⟨t, ht⟩ := Option.ne_none_iff_exists'.mp (h.claimedAt hstatus)
    have hstale := (lease.claim_stale_of_settledBy hnow ht).1
    exact .inr (.inr (.inl ⟨hkept, hterminal, hcontext, .inr (.inr ⟨hstatus, t, ht, hstale⟩)⟩))
  | finalized =>
    rw [h.released_of_finalized hstatus] at hactive
    contradiction
  | failed =>
    exact .inr (.inr (.inr ⟨hkept, hterminal, .inl hstatus, hdue,
      .inr fun t ht => (lease.claim_stale_of_settledBy hnow ht).2⟩))
  | cleanupPending =>
    exact .inr (.inr (.inr ⟨hkept, hterminal, .inr hstatus, hdue,
      .inr fun t ht => (lease.claim_stale_of_settledBy hnow ht).2⟩))

end Selection

/-- After any operations, an active lease is selected from some time on exactly if it has no
terminal result or its acceptance was recorded. -/
theorem active_lease_selected_iff (u : Unicode) (events : List LeaseEvent) (sweeps : Sweeps)
    (lease : Lease) (hlease : ((sandboxLease u).run events).lease = some lease)
    (hactive : lease.status = .active) :
    (∃ t, ∀ now, t ≤ now → lease.Selected now sweeps) ↔
      (lease.executorTerminal = none ∨ lease.reconciliationContext ≠ none) := by
  have hsound : lease.Sound := (sound_leaseRow events).lease lease hlease
  constructor
  · rintro ⟨t, hselected⟩
    by_contra hstuck
    rw [not_or, not_not] at hstuck
    exact hsound.not_selected hstuck.1 hstuck.2 t (hselected t le_rfl)
  · rintro (hterminal | hcontext)
    · exact hsound.selected_of_expiry hactive hterminal
    · by_cases hterminal : lease.executorTerminal = none
      · exact hsound.selected_of_expiry hactive hterminal
      · exact hsound.selected_of_context hactive hterminal hcontext

/-- A lease for an attempt. -/
def attemptLease : NewLease where
  scope := ⟨"tenant", "workspace", "user", "session", "run", some "attempt", "real", "docker"⟩
  attemptBound := true
  handleVerified := true
  ownerGeneration := some "1"
  runtimeContainerId := some "container"
  ttlSeconds := 60

def completedResult : Json := .obj [("run_id", .str "run"), ("status", .str "completed")]

/-- The terminal result arrives and the acceptance never does. -/
def earlyTerminalRun : List LeaseEvent :=
  [⟨0, .create attemptLease⟩,
    ⟨1, .terminal ⟨"tenant", "run", "attempt"⟩ .completed completedResult none⟩]

def acceptedRun : List LeaseEvent :=
  [⟨0, .create attemptLease⟩, ⟨1, .accepted ⟨"tenant", "run", "attempt"⟩ (.obj []) 1800⟩,
    ⟨2, .terminal ⟨"tenant", "run", "attempt"⟩ .completed completedResult none⟩]

theorem active_lease_selected_acceptedRun :
    ∃ lease, ((sandboxLease .ascii).run acceptedRun).lease = some lease ∧
      ∃ t, ∀ now, t ≤ now → lease.Selected now ⟨60, 60, 300⟩ := by
  have hrow : (((sandboxLease .ascii).run acceptedRun).lease.map fun lease =>
      (lease.status, lease.reconciliationContext)) = some (.active, some (.obj [])) := by decide
  obtain ⟨lease, hlease, hfields⟩ := Option.map_eq_some_iff.mp hrow
  obtain ⟨hactive, hcontext⟩ := Prod.mk.inj hfields
  refine ⟨lease, hlease, ?_⟩
  rw [active_lease_selected_iff .ascii acceptedRun ⟨60, 60, 300⟩ lease hlease hactive]
  exact .inr (by simp [hcontext])

/-- The lease of `earlyTerminalRun` stays active, no query selects it at any time, and its run is
never a candidate for reconciliation either. -/
theorem earlyTerminalRun_never_selected :
    ∃ lease, ((sandboxLease .ascii).run earlyTerminalRun).lease = some lease ∧
      lease.status = .active ∧ (∀ sweeps now, ¬ lease.Selected now sweeps) ∧
      ∀ now staleAfter cancelAfter leases, ∀ run : RunActivity, lease ∈ leases →
        run.tenantId = lease.scope.tenantId → run.runId = lease.scope.runId →
        ¬ run.StaleCandidate now staleAfter cancelAfter leases := by
  have hrow : (((sandboxLease .ascii).run earlyTerminalRun).lease.map fun lease =>
      (lease.status, lease.executorTerminal, lease.reconciliationContext)) =
        some (.active, some completedResult, none) := by decide
  obtain ⟨lease, hlease, hfields⟩ := Option.map_eq_some_iff.mp hrow
  obtain ⟨hactive, hfields⟩ := Prod.mk.inj hfields
  obtain ⟨hterminal, hcontext⟩ := Prod.mk.inj hfields
  have hsound : lease.Sound := (sound_leaseRow earlyTerminalRun).lease lease hlease
  refine ⟨lease, hlease, hactive, fun sweeps now => ?_, ?_⟩
  · exact hsound.not_selected (by simp [hterminal]) hcontext now
  · intro now staleAfter cancelAfter leases run hmem htenant hrun hcandidate
    exact hcandidate.2.2 lease hmem htenant.symm hrun.symm hactive

end AiPlatform.Sandbox
