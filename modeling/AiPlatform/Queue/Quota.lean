import AiPlatform.Queue.WellFormed

/-!
# Capacity and quotas

The limits are checked by counting inside the lease script. That is enough because no other step
adds to the processing list: every other change leaves a sublist of it.
-/
namespace AiPlatform.Queue

open AiPlatform.Foundation Hash SortedSet

def Label.askedLimits : Label → Option QuotaLimits
  | .leaseCandidate _ _ _ limits _ _ => some limits
  | _ => none

/-- Every lease is asked for under these limits. -/
def LeasesUnder (limits : QuotaLimits) (_ : System) (l : Label) : Prop :=
  ∀ asked ∈ l.askedLimits, asked = limits

instance (limits : QuotaLimits) (sys : System) (l : Label) : Decidable (LeasesUnder limits sys l) :=
  inferInstanceAs (Decidable (∀ asked ∈ l.askedLimits, asked = limits))

/-- Every configured limit bounds its count. -/
structure WithinLimits (limits : QuotaLimits) (s : Store) : Prop where
  capacity : 0 < limits.maxProcessingRuns → s.processing.length ≤ limits.maxProcessingRuns
  tenant : 0 < limits.tenantProcessingLimit →
    ∀ tenantId, tenantProcessing s tenantId ≤ limits.tenantProcessingLimit
  user : 0 < limits.userProcessingLimit →
    ∀ tenantId userId, userProcessing s tenantId userId ≤ limits.userProcessingLimit

variable {limits : QuotaLimits} {s s' : Store}

theorem WithinLimits.sublist (h : WithinLimits limits s) (sub : s'.processing.Sublist s.processing)
    : WithinLimits limits s' where
  capacity configured := by
    have := sub.length_le
    have := h.capacity configured
    omega
  tenant configured tenantId := by
    have : tenantProcessing s' tenantId ≤ tenantProcessing s tenantId := sub.countP_le
    have := h.tenant configured tenantId
    omega
  user configured tenantId userId := by
    have : userProcessing s' tenantId userId ≤ userProcessing s tenantId userId := sub.countP_le
    have := h.user configured tenantId userId
    omega

theorem limitReached_eq_false {limit : Int} {count : Nat} (h : limitReached limit count = false)
    (configured : 0 < limit) : (count : Int) + 1 ≤ limit := by
  simp only [limitReached, Bool.and_eq_false_iff, decide_eq_false_iff_not] at h
  omega

/-- A message pushed while no limit is reached brings each count to its limit at most. -/
theorem WithinLimits.push (h : WithinLimits limits s) {raw : RunPayload}
    (pushed : s'.processing = raw :: s.processing)
    (capacity : limitReached limits.maxProcessingRuns s.processing.length = false)
    (tenant : limitReached limits.tenantProcessingLimit (tenantProcessing s raw.tenantId) = false)
    (user : limitReached limits.userProcessingLimit
      (userProcessing s raw.tenantId raw.userId) = false) : WithinLimits limits s' where
  capacity configured := by
    have := limitReached_eq_false capacity configured
    simpa [pushed] using this
  tenant configured tenantId := by
    have hbefore := h.tenant configured tenantId
    simp only [tenantProcessing, pushed, List.countP_cons] at hbefore ⊢
    split
    · rename_i own
      obtain rfl : raw.tenantId = tenantId := by simpa using own
      exact_mod_cast limitReached_eq_false tenant configured
    · simpa using hbefore
  user configured tenantId userId := by
    have hbefore := h.user configured tenantId userId
    simp only [userProcessing, pushed, List.countP_cons] at hbefore ⊢
    split
    · rename_i own
      obtain ⟨rfl, rfl⟩ : raw.tenantId = tenantId ∧ raw.userId = userId := by simpa using own
      exact_mod_cast limitReached_eq_false user configured
    · simpa using hbefore

theorem WithinLimits.change {env : Environment} {sys : System} {l : Label} {events : List Event}
    (rows : Rows env s) (h : WithinLimits limits s) (fixed : LeasesUnder limits sys l)
    (change : Change env sys l s events s') :
    WithinLimits limits s' := by
  cases change with
  | quiet same => exact h.sublist (same.processing ▸ .refl _)
  | claim | push | heartbeat | dropInvalid => exact h.sublist (.refl _)
  | remove removal => exact h.sublist ((removal.removes rows).processing ▸ .refl _)
  | grant request accepted unfenced capacity indexed tenant user =>
    obtain rfl := fixed _ rfl
    subst request
    exact h.push rfl capacity tenant user
  | settle | requeue | deadLetter => exact h.sublist List.erase_sublist

/-- Under fixed limits no count of the processing list ever passes its limit. -/
theorem processing_within_limits (env : Environment) (limits : QuotaLimits) (labels : List Label)
    (fixed : (machine env).Meets (LeasesUnder limits) (machine env).start labels) :
    WithinLimits limits ((machine env).run labels).store := by
  suffices hrun : WellFormed env ((machine env).run labels) ∧
      WithinLimits limits ((machine env).run labels).store from hrun.2
  refine Machine.invariant_run
    (I := fun sys => WellFormed env sys ∧ WithinLimits limits sys.store) ?_ ?_ fixed
  · refine ⟨wellFormed_run env [], ⟨?_, ?_, ?_⟩⟩ <;> intros <;>
      simp [System.initial, Store.empty, tenantProcessing, userProcessing] <;> omega
  · rintro sys l ⟨wf, h⟩ hl
    refine ⟨wf.step l, ?_⟩
    obtain ⟨s₁, kept, change⟩ := sys.effect_change env l
    have h₁ : WithinLimits limits s₁ := h.sublist (kept.processing ▸ .refl _)
    exact h₁.change (wf.rows.rewritten kept) hl change

/-- Two runs of one tenant under a limit of one: the second lease is refused. -/
def contendedRun : List Label :=
  [.enqueue (.simple "t" "r1") 0, .enqueue (.simple "t" "r2") 0,
    .leaseCandidate (.simple "t" "r1") 0 "w1" ⟨2, 1, 0⟩ (seconds 1) "",
    .leaseCandidate (.simple "t" "r2") 0 "w2" ⟨2, 1, 0⟩ (seconds 2) ""]

theorem processing_within_limits_contendedRun :
    ((machine .plain).run contendedRun).store.processing = [.simple "t" "r1"] ∧
      WithinLimits ⟨2, 1, 0⟩ ((machine .plain).run contendedRun).store :=
  ⟨by decide, processing_within_limits .plain ⟨2, 1, 0⟩ contendedRun (by decide)⟩

end AiPlatform.Queue
