import AiPlatform.Execution.ResultUsage
import AiPlatform.Runs.UsageAccounting

/-!
# Usage from the invocation to the ledger

Any number of invocations observe result messages and hand out snapshots; a snapshot handed out may
reach the recorder never, once or often, at any later time and in any order, and deliveries for
scopes of other writers come in between.
-/
namespace AiPlatform.Execution

open AiPlatform.Foundation AiPlatform.Kernel AiPlatform.Runs Hash

/-! ## The observed totals only grow -/

def Nonneg (models : ModelCounts) : Prop := ∀ model counts, hget models model = some counts →
  ∀ field, 0 ≤ counts field

theorem nonneg_hset {models : ModelCounts} {name : String} {counts : Counts} (h : Nonneg models)
    (hc : ∀ field, 0 ≤ counts field) : Nonneg (hset models name counts) := by
  intro model counts' hget' field
  rw [hget_hset] at hget'
  split_ifs at hget' with hm
  · exact Option.some.inj hget' ▸ hc field
  · exact h model counts' hget' field

theorem tokenCounts_nonneg {usage : Json} {counts : Counts} (h : tokenCounts usage = some counts)
    (field : TokenField) : 0 ≤ counts field := by
  unfold tokenCounts at h
  split at h
  · split at h
    · obtain rfl := Option.some.inj h
      simp only [tokenCount]
      split
      · split <;> simp_all
      · simp
    · simp at h
  · simp at h

theorem readModels_nonneg {members : List (String × Json)} {models : ModelCounts}
    (h : readModels members = some models) : Nonneg models := by
  induction members generalizing models with
  | nil =>
    obtain rfl := Option.some.inj h
    intro model counts hc
    simp at hc
  | cons member rest ih =>
    obtain ⟨name, usage⟩ := member
    simp only [readModels] at h
    split at h
    · simp at h
    · split at h
      · rename_i counts tail hcounts htail
        obtain rfl := Option.some.inj h
        exact nonneg_hset (ih htail) (tokenCounts_nonneg hcounts)
      · simp at h

theorem models_nonneg {usage : Json} {parsed : ModelCounts} (h : models usage = some parsed) :
    Nonneg parsed := by
  unfold models at h
  split at h
  · split at h
    · exact readModels_nonneg h
    · simp at h
  · simp at h

theorem subtractBaseline_nonneg {baseline : List (String × Counts)} {models above : ModelCounts}
    (hn : Nonneg models) (h : ClaudeResultUsage.subtractBaseline baseline models = some above) :
    Nonneg above := by
  induction baseline generalizing models with
  | nil => exact Option.some.inj h ▸ hn
  | cons entry rest ih =>
    obtain ⟨name, counts⟩ := entry
    simp only [ClaudeResultUsage.subtractBaseline] at h
    split at h
    · simp at h
    · split at h
      · simp at h
      · rename_i hle
        refine ih (nonneg_hset hn fun field => ?_) h
        have := not_exists.mp hle field
        omega

theorem extends_of_not_regressed {old models : ModelCounts} (hn : Nonneg models)
    (h : ClaudeResultUsage.regressed old models = false) : Extends old models := by
  have hold : ∀ model counts, hget old model = some counts →
      ∃ counts', hget models model = some counts' ∧ ∀ field, counts field ≤ counts' field := by
    intro model counts hc
    have := List.any_eq_false.mp h (model, counts) ((mem_hgetall old model counts).mpr hc)
    simp only at this
    split at this
    · simp at this
    · rename_i counts' hc'
      refine ⟨counts', hc', fun field => ?_⟩
      simp only [decide_eq_true_eq, not_exists, not_lt] at this
      exact this field
  refine ⟨fun model hm => ?_, fun model field hm => ?_⟩
  · obtain ⟨counts, hc⟩ := (hexists_eq_true old model).mp hm
    obtain ⟨counts', hc', -⟩ := hold model counts hc
    exact (hexists_eq_true models model).mpr ⟨counts', hc'⟩
  · obtain ⟨counts', hc'⟩ := (hexists_eq_true models model).mp hm
    cases hc : hget old model with
    | none => simpa [count, hc, hc'] using hn model counts' hc' field
    | some counts =>
      obtain ⟨counts'', hc'', hle⟩ := hold model counts hc
      obtain rfl : counts' = counts'' := Option.some.inj (hc'.symm.trans hc'')
      simpa [count, hc, hc'] using hle field

/-- What an invocation keeps from one moment to a later one. -/
structure Later (usage later : ClaudeResultUsage) : Prop where
  scopeId : later.scopeId = usage.scopeId
  seq : usage.observationSeq ≤ later.observationSeq
  counts : Extends usage.tokenModels later.tokenModels

theorem Later.refl (usage : ClaudeResultUsage) : Later usage usage := ⟨rfl, le_rfl, .refl _⟩

theorem Later.trans {a b c : ClaudeResultUsage} (hab : Later a b) (hbc : Later b c) : Later a c :=
  ⟨hbc.scopeId.trans hab.scopeId, hab.seq.trans hbc.seq, hab.counts.trans hbc.counts⟩

theorem observeInput_later (u : Unicode) (usage : ClaudeResultUsage) (text : Text) :
    Later usage (usage.observeInput u text) := by
  unfold ClaudeResultUsage.observeInput
  split
  · exact ⟨rfl, le_rfl, .refl _⟩
  · exact .refl _

theorem observeTokenResult_later (usage : ClaudeResultUsage) (message : ResultMessage) :
    Later usage (usage.observeTokenResult message) := by
  have hsession : ∀ reset : ClaudeResultUsage, reset.scopeId = usage.scopeId →
      reset.observationSeq = usage.observationSeq → reset.tokenModels = usage.tokenModels →
      Later usage reset :=
    fun reset hs hseq hm => ⟨hs, hseq.ge, hm ▸ .refl _⟩
  unfold ClaudeResultUsage.observeTokenResult
  extract_lets start current
  have hcurrent : Later usage current ∧ current.tokenModels = usage.tokenModels := by
    simp only [current]
    split
    · exact ⟨hsession _ rfl rfl rfl, rfl⟩
    · exact ⟨hsession _ rfl rfl rfl, rfl⟩
  split
  · exact hcurrent.1
  · split
    · exact hcurrent.1.trans ⟨rfl, le_rfl, .refl _⟩
    · rename_i parsed hparsed
      split
      · exact hcurrent.1.trans ⟨rfl, le_rfl, .refl _⟩
      · split
        · exact hcurrent.1.trans ⟨rfl, le_rfl, .refl _⟩
        · rename_i above habove
          split
          · exact hcurrent.1.trans ⟨rfl, le_rfl, .refl _⟩
          · rename_i hreg
            refine hcurrent.1.trans ⟨rfl, le_rfl, ?_⟩
            exact extends_of_not_regressed
              (subtractBaseline_nonneg (models_nonneg hparsed) habove) (by simpa using hreg)

theorem observeResult_later (usage : ClaudeResultUsage) (message : ResultMessage) :
    Later usage (usage.observeResult message) :=
  (observeTokenResult_later usage message).trans ⟨rfl, le_rfl, .refl _⟩

/-! ## The system -/

structure UsageSystem where
  producers : Hash ScopeKey ClaudeResultUsage
  /-- Every snapshot handed out so far, newest first. -/
  emitted : List (ScopeKey × UsagePayload)
  recorder : Recorder

inductive UsageLabel where
  | start (key : ScopeKey) (sessionId : Option String) (prompt : Text) (resumedEntries : List Json)
  | observeInput (key : ScopeKey) (text : Text)
  | observeResult (key : ScopeKey) (message : ResultMessage)
  | snapshot (key : ScopeKey) (terminal : Bool)
  | deliver (emitted : Nat) (providerId : Option String)
  | deliverOther (d : Delivery)

namespace UsageSystem

def observe (s : UsageSystem) (key : ScopeKey) (f : ClaudeResultUsage → ClaudeResultUsage) :
    UsageSystem :=
  match hget s.producers key with
  | none => s
  | some usage => { s with producers := hset s.producers key (f usage) }

def record (s : UsageSystem) (d : Delivery) : UsageSystem :=
  { s with recorder := recordStep s.recorder d }

def step (u : Unicode) (s : UsageSystem) : UsageLabel → UsageSystem
  | .start key sessionId prompt resumedEntries =>
    -- A scope's name is drawn once.
    if hexists s.producers key || hexists s.recorder.ledger.scopes key then s
    else
      { s with
        producers := hset s.producers key
          (.init u sessionId prompt resumedEntries key.scopeId) }
  | .observeInput key text => s.observe key (·.observeInput u text)
  | .observeResult key message => s.observe key (·.observeResult message)
  | .snapshot key terminal =>
    match hget s.producers key with
    | none => s
    | some usage =>
      let result := usage.modelUsageSnapshot terminal
      { s with
        producers := hset s.producers key result.1
        emitted := (key, result.2) :: s.emitted }
  | .deliver emitted providerId =>
    match s.emitted[emitted]? with
    | none => s
    | some (key, payload) =>
      match normalizeModelUsageSnapshot payload with
      | .error _ => s
      | .ok snapshot => s.record ⟨key.tenantId, key.runId, key.attemptId, snapshot, providerId⟩
  | .deliverOther d => if hexists s.producers d.key then s else s.record d

end UsageSystem

def usageSystem (u : Unicode) : Machine UsageSystem UsageLabel :=
  ⟨⟨∅, [], Runs.recorder.start⟩, UsageSystem.step u⟩

/-- What a snapshot handed out says about the invocation it came from. -/
structure Behind (payload : UsagePayload) (usage : ClaudeResultUsage) : Prop where
  seq : payload.observationSeq ≤ usage.observationSeq
  counts : Extends payload.models usage.tokenModels

theorem Behind.later {payload : UsagePayload} {usage later : ClaudeResultUsage}
    (h : Behind payload usage) (hl : Later usage later) : Behind payload later :=
  ⟨h.seq.trans hl.seq, h.counts.trans hl.counts⟩

/-- The snapshots handed out for a scope are numbered in order, and what the recorder accepted for
it is one of them. -/
structure Observed (s : UsageSystem) : Prop where
  balanced : Balanced s.recorder
  named : ∀ key usage, hget s.producers key = some usage → usage.scopeId = key.scopeId
  behind : ∀ e ∈ s.emitted, e.2.scopeId = e.1.scopeId ∧
    ∃ usage, hget s.producers e.1 = some usage ∧ Behind e.2 usage
  numbered : s.emitted.Pairwise fun newer older => newer.1 = older.1 →
    older.2.observationSeq < newer.2.observationSeq ∧ Extends older.2.models newer.2.models
  handed : ∀ d ∈ s.recorder.accepted, hexists s.producers d.key = true →
    (d.key, d.snapshot.toUsagePayload) ∈ s.emitted

theorem observed_start (u : Unicode) : Observed (usageSystem u).start where
  balanced := balanced_start
  named key usage h := by simp [usageSystem] at h
  behind := by simp [usageSystem]
  numbered := by simp [usageSystem]
  handed := by simp [usageSystem, Runs.recorder]

theorem Observed.advance {s : UsageSystem} (h : Observed s) {key : ScopeKey}
    {usage later : ClaudeResultUsage} (husage : hget s.producers key = some usage)
    (hlater : Later usage later) :
    Observed { s with producers := hset s.producers key later } := by
  refine ⟨h.balanced, fun key' usage' h' => ?_, fun e he => ?_, h.numbered, fun d hd hp => ?_⟩
  · rw [hget_hset] at h'
    split_ifs at h' with hk
    · obtain rfl := Option.some.inj h'
      rw [hk, hlater.scopeId]
      exact h.named key usage husage
    · exact h.named key' usage' h'
  · obtain ⟨hname, usage', hget', hbehind⟩ := h.behind e he
    refine ⟨hname, ?_⟩
    by_cases hk : e.1 = key
    · obtain rfl : usage = usage' := Option.some.inj (husage.symm.trans (hk ▸ hget'))
      exact ⟨later, by simp [hk], hbehind.later hlater⟩
    · exact ⟨usage', by simp [hk, hget'], hbehind⟩
  · refine h.handed d hd ?_
    simp only [hexists_hset, Bool.or_eq_true, decide_eq_true_eq] at hp
    rcases hp with hk | hp
    · exact (hexists_eq_true _ _).mpr ⟨usage, hk ▸ husage⟩
    · exact hp

theorem Observed.observe {s : UsageSystem} (h : Observed s) (key : ScopeKey)
    {f : ClaudeResultUsage → ClaudeResultUsage} (hf : ∀ usage, Later usage (f usage)) :
    Observed (s.observe key f) := by
  unfold UsageSystem.observe
  split
  · exact h
  · exact h.advance ‹_› (hf _)

theorem Observed.record {s : UsageSystem} (h : Observed s) (d : Delivery)
    (hd : hexists s.producers d.key = true → (d.key, d.snapshot.toUsagePayload) ∈ s.emitted) :
    Observed (s.record d) := by
  refine ⟨h.balanced.step d, h.named, h.behind, h.numbered, fun e he hp => ?_⟩
  rcases recordStep_cases s.recorder d with ⟨l, hr, -⟩ | ⟨l, deltas, hr, -⟩
  · simp only [UsageSystem.record, hr] at he
    exact h.handed e he hp
  · simp only [UsageSystem.record, hr, List.mem_cons] at he
    rcases he with rfl | he
    · exact hd hp
    · exact h.handed e he hp

theorem Observed.snapshot {s : UsageSystem} (h : Observed s) {key : ScopeKey}
    {usage : ClaudeResultUsage} (husage : hget s.producers key = some usage) (terminal : Bool) :
    Observed { s with
      producers := hset s.producers key (usage.modelUsageSnapshot terminal).1
      emitted := (key, (usage.modelUsageSnapshot terminal).2) :: s.emitted } := by
  have hlater : Later usage (usage.modelUsageSnapshot terminal).1 :=
    ⟨rfl, by simp only [ClaudeResultUsage.modelUsageSnapshot]; omega, .refl _⟩
  have hadvanced := h.advance husage hlater
  refine ⟨hadvanced.balanced, hadvanced.named, fun e he => ?_, ?_, fun d hd hp => ?_⟩
  · rcases List.mem_cons.mp he with rfl | he
    · exact ⟨h.named key usage husage, _, hget_hset_self _ _ _, le_rfl, .refl _⟩
    · exact hadvanced.behind e he
  · -- Every earlier snapshot of the scope is behind the invocation as it is now.
    refine List.pairwise_cons.mpr ⟨fun e he hk => ?_, h.numbered⟩
    obtain ⟨-, usage', husage', hbehind⟩ := h.behind e he
    have hkey : e.1 = key := hk.symm
    obtain rfl : usage = usage' := Option.some.inj (husage.symm.trans (hkey ▸ husage'))
    exact ⟨Int.lt_add_one_of_le hbehind.seq, hbehind.counts⟩
  · exact List.mem_cons_of_mem _ (hadvanced.handed d hd hp)

theorem normalized_payload {payload : UsagePayload} {snapshot : ModelUsageSnapshot}
    (h : normalizeModelUsageSnapshot payload = .ok snapshot) :
    snapshot.toUsagePayload = payload := by
  unfold normalizeModelUsageSnapshot at h
  split at h
  · exact (Except.ok.inj h) ▸ rfl
  · simp at h

theorem Observed.start {s : UsageSystem} (h : Observed s) {key : ScopeKey}
    (hnew : hexists s.producers key = false) (hrow : hexists s.recorder.ledger.scopes key = false)
    {usage : ClaudeResultUsage} (hname : usage.scopeId = key.scopeId) :
    Observed { s with producers := hset s.producers key usage } := by
  refine ⟨h.balanced, fun key' usage' h' => ?_, fun e he => ?_, h.numbered, fun d hd hp => ?_⟩
  · rw [hget_hset] at h'
    split_ifs at h' with hk
    · obtain rfl := Option.some.inj h'
      rw [hk, hname]
    · exact h.named key' usage' h'
  · obtain ⟨hnamed, usage', husage', hbehind⟩ := h.behind e he
    have hk : e.1 ≠ key := by
      rintro rfl
      rw [hexists_eq_false] at hnew
      simp [husage'] at hnew
    exact ⟨hnamed, usage', by simp [hk, husage'], hbehind⟩
  · -- The scope has no row yet, so nothing was accepted for it.
    obtain ⟨row, hget', -⟩ := h.balanced.covered d hd
    have hk : d.key ≠ key := by
      rintro rfl
      rw [hexists_eq_false] at hrow
      simp [hget'] at hrow
    exact h.handed d hd (by simpa [hk] using hp)

theorem init_scopeId (u : Unicode) (sessionId : Option String) (prompt : Text)
    (resumedEntries : List Json) (scopeId : String) :
    (ClaudeResultUsage.init u sessionId prompt resumedEntries scopeId).scopeId = scopeId :=
  (observeInput_later u _ prompt).scopeId

theorem Observed.step {s : UsageSystem} (h : Observed s) (u : Unicode) (l : UsageLabel) :
    Observed (s.step u l) := by
  cases l with
  | start key sessionId prompt resumedEntries =>
    simp only [UsageSystem.step]
    split
    · exact h
    · rename_i hfree
      simp only [Bool.or_eq_true, not_or, Bool.not_eq_true] at hfree
      exact h.start hfree.1 hfree.2 (init_scopeId ..)
  | observeInput key text => exact h.observe key fun usage => observeInput_later u usage text
  | observeResult key message => exact h.observe key fun usage => observeResult_later usage message
  | snapshot key terminal =>
    simp only [UsageSystem.step]
    split
    · exact h
    · exact h.snapshot ‹_› terminal
  | deliver emitted providerId =>
    simp only [UsageSystem.step]
    split
    · exact h
    · rename_i key payload hmem
      split
      · exact h
      · rename_i snapshot hsnapshot
        refine h.record _ fun _ => ?_
        have hin := List.mem_of_getElem? hmem
        have hname : payload.scopeId = key.scopeId := (h.behind _ hin).1
        simp only [Delivery.key, normalized_payload hsnapshot]
        rw [hname]
        exact hin
  | deliverOther d =>
    simp only [UsageSystem.step]
    split
    · exact h
    · rename_i hfree
      exact h.record d fun hp => absurd hp hfree

theorem observed_run (u : Unicode) (labels : List UsageLabel) :
    Observed ((usageSystem u).run labels) :=
  Machine.invariant_reachable (observed_start u) (fun _ l h => h.step u l) labels

/-- `d` is the newest of the deliveries accepted for a scope. -/
def IsNewest (accepted : List Delivery) (key : ScopeKey) (d : Delivery) : Prop :=
  d ∈ accepted ∧ d.key = key ∧ ∀ e ∈ accepted, e.key = key → e.seq ≤ d.seq

theorem find_of_isNewest {accepted : List Delivery} {key : ScopeKey} {d : Delivery}
    (hordered : accepted.Pairwise fun newer older => newer.key = older.key → older.seq < newer.seq)
    (hd : IsNewest accepted key d) : accepted.find? (fun e => e.key = key) = some d := by
  obtain ⟨hmem, hkey, hmax⟩ := hd
  induction accepted with
  | nil => simp at hmem
  | cons e rest ih =>
    obtain ⟨hlt, hrest⟩ := List.pairwise_cons.mp hordered
    rcases List.mem_cons.mp hmem with rfl | hmem
    · simp [hkey]
    · have hne : e.key ≠ key := by
        intro hk
        have h₁ := hlt d hmem (hk.trans hkey.symm)
        have h₂ := hmax e List.mem_cons_self hk
        omega
      rw [List.find?_cons_of_neg (by simpa using hne)]
      exact ih hrest hmem fun e' he' => hmax e' (List.mem_cons_of_mem _ he')

/-- Of two snapshots handed out for a scope the one with the larger number has the larger totals. -/
theorem Observed.extends_of_le {s : UsageSystem} (h : Observed s) {key : ScopeKey}
    {older newer : UsagePayload} (holder : (key, older) ∈ s.emitted)
    (hnewer : (key, newer) ∈ s.emitted) (hseq : older.observationSeq ≤ newer.observationSeq) :
    Extends older.models newer.models := by
  let Ordered := fun a b : ScopeKey × UsagePayload => a.1 = b.1 →
    (a.2.observationSeq < b.2.observationSeq ∧ Extends a.2.models b.2.models) ∨
      (b.2.observationSeq < a.2.observationSeq ∧ Extends b.2.models a.2.models)
  have hsymm : Std.Symm Ordered := ⟨fun _ _ hab hk => (hab hk.symm).symm⟩
  have hordered : s.emitted.Pairwise Ordered := h.numbered.imp fun hab hk => .inr (hab hk)
  by_cases hsame : older = newer
  · exact hsame ▸ .refl _
  · rcases hordered.forall holder hnewer (by simpa using hsame) rfl with ⟨-, hext⟩ | ⟨hlt, -⟩
    · exact hext
    · exact absurd hseq (not_le.mpr hlt)

/-- In every run: no delta is negative, the deltas of a scope add up to its stored totals, those are
the totals of the newest accepted snapshot (none accepted: none stored), and for the scope of an
invocation they are totals it handed out that miss nothing of its earlier snapshots. -/
theorem usage_accounted (u : Unicode) (labels : List UsageLabel) :
    let s := (usageSystem u).run labels
    let ledger := s.recorder.ledger
    (∀ row ∈ ledger.deltas, ∀ field, 0 ≤ row.counts field) ∧
      (∀ key model field,
        ledger.recordedTotal key model field = count (ledger.stored key) model field) ∧
      (∀ key d, IsNewest s.recorder.accepted key d → ledger.stored key = d.snapshot.models) ∧
      (∀ key, (∀ d ∈ s.recorder.accepted, d.key ≠ key) → ledger.stored key = ∅) ∧
      ∀ key d, IsNewest s.recorder.accepted key d → hexists s.producers key = true →
        (key, d.snapshot.toUsagePayload) ∈ s.emitted ∧
          ∀ payload, (key, payload) ∈ s.emitted → payload.observationSeq ≤ d.seq →
            Extends payload.models (ledger.stored key) := by
  intro s ledger
  have h : Observed s := observed_run u labels
  have hstored : ∀ key d, IsNewest s.recorder.accepted key d →
      ledger.stored key = d.snapshot.models := by
    intro key d hd
    rw [h.balanced.newest, Recorder.newest?, find_of_isNewest h.balanced.ordered hd]
    rfl
  refine ⟨h.balanced.nonneg, h.balanced.total, hstored, fun key hnone => ?_,
    fun key d hd hproducer => ?_⟩
  · rw [h.balanced.newest]
    have : s.recorder.newest? key = none := by
      rw [Recorder.newest?, List.find?_eq_none]
      simpa using hnone
    rw [this]
    rfl
  · have hin : (key, d.snapshot.toUsagePayload) ∈ s.emitted :=
      hd.2.1 ▸ h.handed d hd.1 (hd.2.1.symm ▸ hproducer)
    refine ⟨hin, fun payload hpayload hseq => ?_⟩
    rw [hstored key d hd]
    exact h.extends_of_le hpayload hin hseq

def reportedTokens (tokens : Int) : ResultMessage where
  sessionId := some "session"
  modelUsage := .obj [("claude", .obj [("inputTokens", .int tokens), ("outputTokens", .int 1),
    ("cacheReadInputTokens", .int 0), ("cacheCreationInputTokens", .int 0)])]
  subtype := none

def oneScope : ScopeKey := ⟨"tenant", "run", "attempt", "scope"⟩

/-- Two snapshots of one invocation; the newer one arrives first, then both arrive again. -/
def reorderedDeliveries : List UsageLabel :=
  [.start oneScope (some "session") [] [], .observeResult oneScope (reportedTokens 5),
    .snapshot oneScope false, .observeResult oneScope (reportedTokens 9), .snapshot oneScope true,
    .deliver 0 (some "session"), .deliver 1 (some "session"), .deliver 0 (some "session")]

theorem usage_accounted_reordered :
    ((usageSystem .ascii).run reorderedDeliveries).recorder.ledger.recordedTotal oneScope "claude"
      .inputTokens = 9 := by
  rw [(usage_accounted .ascii reorderedDeliveries).2.1]
  decide +kernel

end AiPlatform.Execution
