import AiPlatform.Sandbox.Leases

/-!
# Claims on a lease, and its terminal result

What every operation keeps of a row: the claim token is that of the latest claim that still
stands, the first terminal status stays, and a lease with a terminal result is released by
finalization only.
-/
namespace AiPlatform.Sandbox

open AiPlatform.Foundation AiPlatform.Kernel

namespace LeaseOp

def claimEffect : LeaseOp → ClaimEffect String
  | claimSuspect token _ | claimReconciliation token _ | claimCleanup token _ _ => .claims token
  -- given back
  | releaseProbeClaim .. | releaseCleanupClaim .. => .ends
  | retry .. | cleanupPending .. => .ends
  | finalizeCleanup .. | finalizeStopped .. => .ends
  | quarantine .. | quarantineCleanup .. => .ends
  | _ => .keeps

/-- The claim token an operation carries. -/
def token : LeaseOp → Option String
  | terminal _ _ _ token => token
  | diagnostics token _ | releaseProbeClaim token _ | retry token _ | cleanupPending token _
  | releaseCleanupClaim token _ | finalizeCleanup token _ _ _ _ | quarantineCleanup token _
  | quarantine token _ | hasClaim token | hasCleanupClaim token | lockReceipt token _ _
  | stage token _ | finalizeStopped token _ _ => some token
  | _ => none

def Finalizes : LeaseOp → Prop
  | finalizeCleanup .. | finalizeStopped .. => True
  | _ => False

end LeaseOp

/-- The statuses an executor ends in. -/
@[grind]
def ExecutorStatus.Terminal (status : ExecutorStatus) : Prop :=
  status = .completed ∨ status = .failed ∨ status = .cancelled

/-- What holds of every row. -/
structure Lease.Sound (lease : Lease) : Prop where
  expires : lease.expiresAt ≠ none
  waiting_of_no_context : lease.reconciliationContext = none →
    lease.reconciliationStatus = .waitingTerminal
  not_waiting : lease.executorTerminal ≠ none → lease.reconciliationContext ≠ none →
    lease.reconciliationStatus ≠ .waitingTerminal
  claimedAt : lease.reconciliationStatus = .claimed → lease.claimedAt ≠ none
  released_of_finalized : lease.reconciliationStatus = .finalized → lease.status = .released
  terminal : lease.executorTerminal ≠ none → lease.executorStatus.Terminal

section Step

variable {u : Unicode} {now : Int} {lease next : Lease} {op : LeaseOp}

theorem Lease.Sound.update (h : lease.Sound) (hnext : op.update u now lease = some next) :
    next.Sound := by
  obtain ⟨hexpires, hcontext, hwaiting, hclaimed, hfinalized, hterminal⟩ := h
  cases op <;> simp only [LeaseOp.update] at hnext <;> constructor <;> grind

/-- What an operation that takes effect does to the token. -/
theorem claimToken_update (hnext : op.update u now lease = some next) :
    (∀ token, op.claimEffect = .claims token → next.claimToken = some token) ∧
    (op.claimEffect = .ends → next.claimToken = none) ∧
    (op.claimEffect = .keeps → next.claimToken = lease.claimToken) := by
  cases op <;> simp only [LeaseOp.update] at hnext <;> grind [LeaseOp.claimEffect]

/-- An operation that carries a token takes effect only while the row bears it. -/
theorem claimToken_eq_of_update {token : String} (htoken : op.token = some token)
    (hnext : op.update u now lease = some next) : lease.claimToken = some token := by
  cases op <;> simp only [LeaseOp.update] at hnext <;> grind [LeaseOp.token]

/-- A terminal result is only ever extended by diagnostics. -/
theorem terminal_update (h : lease.Sound) {result : Json}
    (hresult : lease.executorTerminal = some result)
    (hnext : op.update u now lease = some next) :
    next.executorStatus = lease.executorStatus ∧ ∃ result', next.executorTerminal = some result' ∧
      result'.get? "status" = result.get? "status" := by
  have hterminal := h.terminal
  cases op with
  | diagnostics token texts =>
    simp only [LeaseOp.update, recordSandboxExecutorTerminalDiagnostics, hresult] at hnext
    split at hnext
    · rename_i members heq
      obtain rfl := Option.some.inj heq
      split_ifs at hnext
      obtain rfl := Option.some.inj hnext
      exact ⟨rfl, _, rfl, Json.lookup_setMember_of_ne (by decide)⟩
    · contradiction
  | _ => simp only [LeaseOp.update] at hnext; grind

theorem finalizes_of_update (h : lease.Sound) (hterminal : lease.executorTerminal ≠ none)
    (hstatus : lease.status ≠ .released) (hnext : op.update u now lease = some next)
    (hreleased : next.status = .released) : op.Finalizes := by
  have hfinalized := h.released_of_finalized
  cases op <;> simp only [LeaseOp.update] at hnext <;> grind [LeaseOp.Finalizes]

end Step

/-! ## Histories -/

section Histories

variable {u : Unicode}

/-- A row is sound, and its token is that of the latest claim, which still stands. -/
structure LeaseRow.Sound (row : LeaseRow) : Prop where
  lease : ∀ lease ∈ row.lease, lease.Sound
  latest : ∀ lease ∈ row.lease, ∀ token, lease.claimToken = some token →
    LatestClaim LeaseOp.claimEffect row.history token

theorem sound_createSandboxLease {now : Int} {args : NewLease} {lease : Lease}
    (h : createSandboxLease now args = some lease) : lease.Sound ∧ lease.claimToken = none := by
  unfold createSandboxLease at h
  split_ifs at h
  obtain rfl := Option.some.inj h
  exact ⟨by constructor <;> simp, rfl⟩

theorem sound_fencedLease (now : Int) (scope : LeaseScope) (reason : String) :
    (fencedLease now scope reason).Sound := by
  constructor <;> simp [fencedLease]

theorem LatestClaim.update {history : List LeaseOp} {now : Int} {lease next : Lease} {op : LeaseOp}
    (h : ∀ token, lease.claimToken = some token → LatestClaim LeaseOp.claimEffect history token)
    (hnext : op.update u now lease = some next) {token : String}
    (htoken : next.claimToken = some token) :
    LatestClaim LeaseOp.claimEffect (history ++ [op]) token := by
  obtain ⟨hclaims, hends, hkeeps⟩ := claimToken_update hnext
  cases heffect : op.claimEffect with
  | claims other =>
    obtain rfl := Option.some.inj ((hclaims other heffect).symm.trans htoken)
    exact latestClaim_concat heffect
  | ends =>
    rw [hends heffect] at htoken
    contradiction
  | keeps =>
    rw [hkeeps heffect] at htoken
    exact (h token htoken).concat heffect

theorem LeaseRow.Sound.step {row : LeaseRow} (h : row.Sound) (event : LeaseEvent) :
    (row.step u event).Sound := by
  unfold LeaseRow.step
  split
  · rename_i next hnext
    have hlease : next.Sound ∧ ∀ token, next.claimToken = some token →
        LatestClaim LeaseOp.claimEffect (row.history ++ [event.op]) token := by
      unfold LeaseOp.apply at hnext
      split at hnext
      · rename_i lease hlease
        exact ⟨(h.lease lease hlease).update hnext,
          fun token htoken => LatestClaim.update (h.latest lease hlease) hnext htoken⟩
      · obtain ⟨hsound, htoken⟩ := sound_createSandboxLease hnext
        exact ⟨hsound, by simp [htoken]⟩
      · obtain rfl := Option.some.inj hnext
        exact ⟨sound_fencedLease .., by simp [fencedLease]⟩
      · contradiction
    exact ⟨fun lease hl => Option.some.inj hl ▸ hlease.1,
      fun lease hl => Option.some.inj hl ▸ hlease.2⟩
  · exact h

theorem sound_leaseRow (events : List LeaseEvent) : ((sandboxLease u).run events).Sound :=
  Machine.invariant_reachable ⟨by simp [sandboxLease], by simp [sandboxLease]⟩
    (fun _ event h => h.step event) events

/-- The terminal status of a row: the executor's, and that of the recorded result. -/
def LeaseRow.terminalStatus (row : LeaseRow) : Option (ExecutorStatus × Option Json) :=
  row.lease.bind fun lease =>
    lease.executorTerminal.map fun result => (lease.executorStatus, result.get? "status")

theorem LeaseRow.Sound.terminalStatus_step {row : LeaseRow} (h : row.Sound) (event : LeaseEvent)
    {status : ExecutorStatus × Option Json} (hstatus : row.terminalStatus = some status) :
    (row.step u event).terminalStatus = some status := by
  obtain ⟨lease, hlease, hmap⟩ := Option.bind_eq_some_iff.mp hstatus
  obtain ⟨result, hresult, rfl⟩ := Option.map_eq_some_iff.mp hmap
  unfold LeaseRow.step
  split
  · rename_i next hnext
    rw [hlease] at hnext
    obtain ⟨hexecutor, result', hresult', hsame⟩ :=
      terminal_update (h.lease lease hlease) hresult hnext
    simp [LeaseRow.terminalStatus, hresult', hsame, hexecutor]
  · exact hstatus

theorem terminalStatus_run {row : LeaseRow} (h : row.Sound) (events : List LeaseEvent)
    {status : ExecutorStatus × Option Json} (hstatus : row.terminalStatus = some status) :
    ((sandboxLease u).runFrom row events).terminalStatus = some status := by
  induction events generalizing row with
  | nil => exact hstatus
  | cons event events ih => exact ih (h.step event) (h.terminalStatus_step event hstatus)

/-- After any operations: one that carries a token takes effect only if that token's claim is the
latest and still stands; a terminal status that is recorded stays, whatever follows; and a lease
with a terminal result becomes released only by finalization. -/
theorem lease_claims_exclusive (u : Unicode) (events : List LeaseEvent) :
    (∀ (event : LeaseEvent) (token : String), event.op.token = some token →
      event.op.apply u event.now ((sandboxLease u).run events).lease ≠ none →
      LatestClaim LeaseOp.claimEffect ((sandboxLease u).run events).history token) ∧
    (∀ status later, ((sandboxLease u).run events).terminalStatus = some status →
      ((sandboxLease u).run (events ++ later)).terminalStatus = some status) ∧
    ∀ (event : LeaseEvent) (lease next : Lease), ((sandboxLease u).run events).lease = some lease →
      lease.executorTerminal ≠ none → lease.status ≠ .released →
      ((sandboxLease u).run (events ++ [event])).lease = some next → next.status = .released →
      event.op.Finalizes := by
  have hsound : ((sandboxLease u).run events).Sound := sound_leaseRow events
  refine ⟨?_, ?_, ?_⟩
  · intro event token htoken heffect
    obtain ⟨next, hnext⟩ := Option.ne_none_iff_exists'.mp heffect
    cases hlease : ((sandboxLease u).run events).lease with
    | none =>
      rw [hlease] at hnext
      cases hop : event.op <;> simp [hop, LeaseOp.apply, LeaseOp.token] at hnext htoken
    | some lease =>
      rw [hlease] at hnext
      exact hsound.latest lease hlease token (claimToken_eq_of_update htoken hnext)
  · intro status later hstatus
    rw [Machine.run_append]
    exact terminalStatus_run hsound later hstatus
  · intro event lease next hlease hterminal hstatus hnext hreleased
    rw [Machine.run_append] at hnext
    simp only [Machine.runFrom_cons, Machine.runFrom_nil, sandboxLease, LeaseRow.step] at hnext
    split at hnext
    · rename_i updated hupdated
      obtain rfl := Option.some.inj hnext
      exact finalizes_of_update (hsound.lease lease hlease) hterminal hstatus
        (hlease ▸ hupdated) hreleased
    · obtain rfl := Option.some.inj (hlease.symm.trans hnext)
      exact absurd hreleased hstatus

/-- What no operation takes back. -/
structure Lease.Follows (lease next : Lease) : Prop where
  scope : next.scope = lease.scope
  ended : lease.status ≠ .active → next.status ≠ .active
  finalized : lease.reconciliationStatus = .finalized → next.reconciliationStatus = .finalized
  attempts : lease.attemptCount ≤ next.attemptCount
  terminalAttempts : lease.terminalAttemptCount ≤ next.terminalAttemptCount

theorem Lease.Follows.update {now : Int} {first lease next : Lease} {op : LeaseOp}
    (h : first.Follows lease) (hsound : lease.Sound) (hnext : op.update u now lease = some next) :
    first.Follows next := by
  obtain ⟨hscope, hended, hkept, hattempts, hterminal⟩ := h
  have hfinalized := hsound.released_of_finalized
  cases op <;> simp only [LeaseOp.update] at hnext <;> constructor <;> grind

theorem follows_run {events : List LeaseEvent} {lease : Lease}
    (hlease : ((sandboxLease u).run events).lease = some lease) (later : List LeaseEvent) :
    ∃ next, ((sandboxLease u).run (events ++ later)).lease = some next ∧ lease.Follows next := by
  induction later using List.reverseRecOn with
  | nil => exact ⟨lease, by simpa using hlease, rfl, id, id, le_rfl, le_rfl⟩
  | append_singleton later event ih =>
    obtain ⟨last, hlast, hfollows⟩ := ih
    rw [← List.append_assoc, Machine.run_append]
    change ∃ next, (LeaseRow.step u _ event).lease = some next ∧ lease.Follows next
    unfold LeaseRow.step
    split
    · rename_i next hnext
      rw [hlast] at hnext
      exact ⟨next, rfl, hfollows.update ((sound_leaseRow _).lease last hlast) hnext⟩
    · exact ⟨last, hlast, hfollows⟩

/-- Once it is there, a lease keeps its scope and its counts never fall; a lease that is no longer
active stays so, and on a finalized one no claim is made or given back any more. -/
theorem ended_leases_stay_ended (u : Unicode) (events later : List LeaseEvent) :
    let row := (sandboxLease u).run events
    row.lease = none ∨ ∃ lease next, row.lease = some lease ∧
      ((sandboxLease u).run (events ++ later)).lease = some next ∧ lease.Follows next ∧
      (lease.reconciliationStatus = .finalized → next.status = .released ∧
        ∀ event : LeaseEvent, event.op.claimEffect ≠ .keeps →
          event.op.update u event.now next = none) := by
  intro row
  cases hlease : row.lease with
  | none => exact .inl rfl
  | some lease =>
    obtain ⟨next, hnext, hfollows⟩ := follows_run hlease later
    refine .inr ⟨lease, next, rfl, hnext, hfollows, fun hfinalized => ?_⟩
    have hfinal := hfollows.finalized hfinalized
    have hreleased :=
      ((sound_leaseRow (events ++ later)).lease next hnext).released_of_finalized hfinal
    refine ⟨hreleased, fun event heffect => ?_⟩
    cases hop : event.op <;> simp only [hop, LeaseOp.update] at heffect ⊢ <;>
      grind [LeaseOp.claimEffect]

end Histories

end AiPlatform.Sandbox
