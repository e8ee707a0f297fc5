import AiPlatform.Runs.UsageAccounting

/-!
# Ranges claimed in one provider session

The totals of a session keep running from one invocation to the next, so a scope stands for a range
of each of the session's counters: from its baseline to its baseline plus its totals. A delivery is
compared with the other scopes only when it arrives, yet the ranges stay disjoint while they grow.
-/
namespace AiPlatform.Runs

open AiPlatform.Foundation Hash

/-- The tokens of the session's counter that a baseline and a total above it stand for. -/
noncomputable def claimedRange (baseline models : ModelCounts) (model : String)
    (field : TokenField) : Finset Int :=
  Finset.Ico (count baseline model field) (count baseline model field + count models model field)

noncomputable def Delivery.claims (d : Delivery) : String → TokenField → Finset Int :=
  claimedRange (d.snapshot.baselineModels.getD ∅) d.snapshot.models

/-- Two scopes of one session in use: one ended where the other began, or before. -/
def Separate (l : UsageLedger) : Prop :=
  ∀ key₁ key₂ row₁ row₂, hget l.scopes key₁ = some row₁ → hget l.scopes key₂ = some row₂ →
    key₁ ≠ key₂ → key₁.tenantId = key₂.tenantId →
    row₁.providerSessionId = row₂.providerSessionId →
    hlen row₁.cumulativeJson ≠ 0 → hlen row₂.cumulativeJson ≠ 0 →
    Extends row₁.absolute (row₂.baselineJson.getD ∅) ∨
      Extends row₂.absolute (row₁.baselineJson.getD ∅)

/-- An empty scope claims nothing yet, and a used one knows its session. -/
def Identified (l : UsageLedger) : Prop :=
  ∀ key row, hget l.scopes key = some row → hlen row.cumulativeJson ≠ 0 →
    row.providerSessionId ≠ none

theorem hget_absolute (row : ScopeRow) (model : String) :
    hget row.absolute model = (hget row.cumulativeJson model).map fun counts field =>
      counts field + count (row.baselineJson.getD ∅) model field := by
  simp [ScopeRow.absolute]

theorem disjoint_of_extends {row : ScopeRow} {baseline models : ModelCounts}
    (h : Extends row.absolute baseline) (model : String) (field : TokenField) :
    Disjoint (claimedRange (row.baselineJson.getD ∅) row.cumulativeJson model field)
      (claimedRange baseline models model field) := by
  rw [Finset.disjoint_left]
  intro token htoken hother
  simp only [claimedRange, Finset.mem_Ico] at htoken hother
  cases hc : hget row.cumulativeJson model with
  | none => simp [count, hc] at htoken; omega
  | some counts =>
    have hle := h.count_le model field
    simp only [count, hget_absolute, hc, Option.map_some, Option.elim_some] at hle htoken hother
    omega

variable {d : Delivery} {l l' : UsageLedger}

/-- A used scope that a call finds was there before. -/
theorem hget_of_used (h : hlen (l.rowFor d).cumulativeJson ≠ 0) :
    hget l.scopes d.key = some (l.rowFor d) := by
  cases hrow : hget l.scopes d.key with
  | some row => rw [rowFor_of_hget rfl hrow]
  | none =>
    simp only [UsageLedger.rowFor, hrow, Option.getD_none, Delivery.firstRow] at h
    exact absurd rfl h

theorem used_congr {a b : ModelCounts} (h : ∀ model, hget a model = hget b model) :
    hlen a ≠ 0 ↔ hlen b ≠ 0 := by
  rw [not_iff_not, hlen_eq_zero, hlen_eq_zero]
  simp [h]

/-- Only the pairs with the written row need a look. -/
theorem Separate.hset {key : ScopeKey} {row : ScopeRow} (h : Separate l)
    (hscopes : l'.scopes = Hash.hset l.scopes key row)
    (hnew : ∀ key₂ row₂, hget l.scopes key₂ = some row₂ → key ≠ key₂ →
      key.tenantId = key₂.tenantId → row.providerSessionId = row₂.providerSessionId →
      hlen row.cumulativeJson ≠ 0 → hlen row₂.cumulativeJson ≠ 0 →
      Extends row.absolute (row₂.baselineJson.getD ∅) ∨
        Extends row₂.absolute (row.baselineJson.getD ∅)) : Separate l' := by
  intro key₁ key₂ row₁ row₂ h₁ h₂ hne htenant hprovider hused₁ hused₂
  rw [hscopes, hget_hset] at h₁ h₂
  split_ifs at h₁ h₂ with hk₁ hk₂ hk₂
  · exact absurd (hk₁.trans hk₂.symm) hne
  · obtain rfl := Option.some.inj h₁
    subst hk₁
    exact hnew key₂ row₂ h₂ hne htenant hprovider hused₁ hused₂
  · obtain rfl := Option.some.inj h₂
    subst hk₂
    exact (hnew key₁ row₁ h₁ hne.symm htenant.symm hprovider.symm hused₂ hused₁).symm
  · exact h key₁ key₂ row₁ row₂ h₁ h₂ hne htenant hprovider hused₁ hused₂

theorem Separate.unmoved (h : Separate l) (hl : Unmoved l d l') : Separate l' := by
  obtain ⟨row, hscopes, hc, hb, hp, -⟩ := hl.scopes
  refine h.hset hscopes fun key₂ row₂ h₂ hne htenant hprovider hused hused₂ => ?_
  have habsolute : row.absolute = (l.rowFor d).absolute := by simp [ScopeRow.absolute, hc, hb]
  rw [hc] at hused
  rw [habsolute, hb]
  exact h d.key key₂ _ row₂ (hget_of_used hused) h₂ hne htenant (hp ▸ hprovider) hused hused₂

theorem Separate.accepts {deltas : List (String × Counts)} (h : Separate l) (hid : Identified l)
    (hl : Accepts l d l' deltas) : Separate l' := by
  obtain ⟨hbaseline, hsession, -⟩ := refusal_none hl.allowed
  refine h.hset hl.scopes fun key₂ row₂ h₂ hne htenant hprovider hused hused₂ => ?_
  by_cases hd : deltas = []
  · -- Nothing new: the row claims what it claimed before.
    have hsame := hget_of_no_deltas (hd ▸ hl.differences)
    have hrow := hget_of_used ((used_congr hsame).mp hused)
    have hknown := hid d.key _ hrow ((used_congr hsame).mp hused)
    have hprovider' : (l.rowFor d).providerSessionId = row₂.providerSessionId :=
      (hsession.resolve_left hknown).trans hprovider
    rcases h d.key key₂ _ row₂ hrow h₂ hne htenant hprovider' ((used_congr hsame).mp hused) hused₂
      with hleft | hright
    · refine .inl (hleft.congr (fun model => ?_) fun _ => rfl)
      simp only [hget_absolute]
      rw [← hsame model]
      rfl
    · exact .inr hright
  · refine .inr ((hl.apart hd key₂ row₂ h₂ hne.symm htenant.symm hprovider.symm hused₂).congr
      (fun _ => rfl) hbaseline)

theorem Identified.unmoved (h : Identified l) (hl : Unmoved l d l') : Identified l' := by
  obtain ⟨row', hscopes, hc, -, hp, -⟩ := hl.scopes
  intro key row hrow hused
  rw [hscopes, hget_hset] at hrow
  split_ifs at hrow with hk
  · obtain rfl := Option.some.inj hrow
    rw [hc] at hused
    rw [hp]
    exact h d.key _ (hget_of_used hused) hused
  · exact h key row hrow hused

theorem Identified.accepts {deltas : List (String × Counts)} (h : Identified l)
    (hl : Accepts l d l' deltas) : Identified l' := by
  intro key row hrow hused
  rw [hl.scopes, hget_hset] at hrow
  split_ifs at hrow with hk
  · obtain rfl := Option.some.inj hrow
    exact (refusal_none hl.allowed).2.2
  · exact h key row hrow hused

theorem separate_run (deliveries : List Delivery) :
    Separate (recorder.run deliveries).ledger := by
  have hrun : Separate (recorder.run deliveries).ledger ∧
      Identified (recorder.run deliveries).ledger := by
    refine Machine.invariant_reachable (m := recorder)
      (I := fun r => Separate r.ledger ∧ Identified r.ledger) ⟨?_, ?_⟩ (fun r d h => ?_) deliveries
    · intro key₁ key₂ row₁ row₂ h₁
      simp [recorder, UsageLedger.empty] at h₁
    · intro key row h
      simp [recorder, UsageLedger.empty] at h
    · change Separate (recordStep r d).ledger ∧ Identified (recordStep r d).ledger
      rcases recordStep_cases r d with ⟨l, hr, hl⟩ | ⟨l, deltas, hr, hl⟩
      · rw [hr]
        exact ⟨h.1.unmoved hl, h.2.unmoved hl⟩
      · rw [hr]
        exact ⟨h.1.accepts h.2 hl, h.2.accepts hl⟩
  exact hrun.1

theorem Covers.claims_subset {row : ScopeRow} (h : Covers row d) (model : String)
    (field : TokenField) :
    d.claims model field ⊆
      claimedRange (row.baselineJson.getD ∅) row.cumulativeJson model field := by
  have hle := h.counts.count_le model field
  have hbase := count_congr h.baseline model field
  intro token
  simp only [Delivery.claims, claimedRange, Finset.mem_Ico, hbase]
  omega

theorem claimedRange_of_unused {baseline models : ModelCounts} (h : hlen models = 0)
    (model : String) (field : TokenField) : claimedRange baseline models model field = ∅ := by
  simp [claimedRange, count, (hlen_eq_zero models).mp h]

/-- Two rows of one session claim different tokens. -/
theorem Separate.disjoint (h : Separate l) {key₁ key₂ : ScopeKey} {row₁ row₂ : ScopeRow}
    (h₁ : hget l.scopes key₁ = some row₁) (h₂ : hget l.scopes key₂ = some row₂) (hne : key₁ ≠ key₂)
    (htenant : key₁.tenantId = key₂.tenantId)
    (hprovider : row₁.providerSessionId = row₂.providerSessionId) (model : String)
    (field : TokenField) :
    Disjoint (claimedRange (row₁.baselineJson.getD ∅) row₁.cumulativeJson model field)
      (claimedRange (row₂.baselineJson.getD ∅) row₂.cumulativeJson model field) := by
  by_cases hused₁ : hlen row₁.cumulativeJson = 0
  · simp [claimedRange_of_unused hused₁]
  by_cases hused₂ : hlen row₂.cumulativeJson = 0
  · simp [claimedRange_of_unused hused₂]
  rcases h key₁ key₂ row₁ row₂ h₁ h₂ hne htenant hprovider hused₁ hused₂ with hext | hext
  · exact disjoint_of_extends hext model field
  · exact (disjoint_of_extends hext model field).symm

/-- The range the row of a scope claims. -/
noncomputable def UsageLedger.claims (l : UsageLedger) (key : ScopeKey) (model : String)
    (field : TokenField) : Finset Int :=
  (hget l.scopes key).elim ∅ fun row =>
    claimedRange (row.baselineJson.getD ∅) row.cumulativeJson model field

def UsageLedger.session (l : UsageLedger) (key : ScopeKey) : Option String :=
  (hget l.scopes key).bind (·.providerSessionId)

theorem Balanced.card_claims {r : Recorder} (h : Balanced r) (key : ScopeKey) (model : String)
    (field : TokenField) :
    ((r.ledger.claims key model field).card : Int) = count (r.ledger.stored key) model field := by
  have hnonneg := h.stored_nonneg key model field
  revert hnonneg
  cases hrow : hget r.ledger.scopes key with
  | none => simp [UsageLedger.claims, UsageLedger.stored, hrow, count]
  | some row =>
    simp only [UsageLedger.claims, UsageLedger.stored, hrow, Option.elim_some, claimedRange,
      Int.card_Ico]
    omega

/-- Deliveries accepted for different scopes of one provider session claim disjoint ranges, and so
do the rows they leave: the stored totals of any scopes of a session add up to the number of
different tokens they stand for. -/
theorem accepted_ranges_disjoint (deliveries : List Delivery) :
    let r := recorder.run deliveries
    (∀ d₁ ∈ r.accepted, ∀ d₂ ∈ r.accepted, d₁.key ≠ d₂.key → d₁.tenantId = d₂.tenantId →
        d₁.providerId = d₂.providerId → ∀ model field,
        Disjoint (d₁.claims model field) (d₂.claims model field)) ∧
      ∀ (tenantId provider : String) (scopes : Finset ScopeKey),
        (∀ key ∈ scopes, key.tenantId = tenantId ∧ r.ledger.session key = some provider) →
        ∀ model field,
          (∑ key ∈ scopes, count (r.ledger.stored key) model field) =
            ((scopes.biUnion fun key => r.ledger.claims key model field).card : Int) := by
  intro r
  have hbalanced := balanced_run deliveries
  have hseparate := separate_run deliveries
  refine ⟨fun d₁ h₁ d₂ h₂ hne htenant hprovider model field => ?_,
    fun tenantId provider scopes hscopes model field => ?_⟩
  · obtain ⟨row₁, hrow₁, hcovers₁⟩ := hbalanced.covered d₁ h₁
    obtain ⟨row₂, hrow₂, hcovers₂⟩ := hbalanced.covered d₂ h₂
    refine Finset.disjoint_of_subset_left (hcovers₁.claims_subset model field)
      (Finset.disjoint_of_subset_right (hcovers₂.claims_subset model field) ?_)
    refine hseparate.disjoint hrow₁ hrow₂ hne htenant ?_ model field
    rw [hcovers₁.provider, hcovers₂.provider, hprovider]
  · rw [Finset.card_biUnion, Nat.cast_sum]
    · exact Finset.sum_congr rfl fun key _ => (hbalanced.card_claims key model field).symm
    · intro key₁ h₁ key₂ h₂ hne
      obtain ⟨htenant₁, hsession₁⟩ := hscopes key₁ h₁
      obtain ⟨htenant₂, hsession₂⟩ := hscopes key₂ h₂
      obtain ⟨row₁, hrow₁, hprovider₁⟩ := Option.bind_eq_some_iff.mp hsession₁
      obtain ⟨row₂, hrow₂, hprovider₂⟩ := Option.bind_eq_some_iff.mp hsession₂
      simp only [Function.onFun, UsageLedger.claims, r, hrow₁, hrow₂, Option.elim_some]
      exact hseparate.disjoint hrow₁ hrow₂ hne (htenant₁.trans htenant₂.symm)
        (hprovider₁.trans hprovider₂.symm) model field

def tokensOf (tokens : Int) : ModelCounts := hset ∅ "claude" fun _ => tokens

def freshDelivery : Delivery where
  tenantId := "tenant"
  runId := "run"
  attemptId := "attempt"
  snapshot :=
    ⟨⟨"first", 1, .fresh, tokensOf 5, .partialReport, none, some ∅, none⟩, by decide +kernel⟩
  providerId := some "session"

def resumedDelivery : Delivery where
  tenantId := "tenant"
  runId := "run"
  attemptId := "attempt"
  snapshot :=
    ⟨⟨"second", 1, .restored, tokensOf 3, .partialReport, none, some (tokensOf 5), none⟩,
      by decide +kernel⟩
  providerId := some "session"

theorem accepted_ranges_disjoint_resumed :
    freshDelivery ∈ (recorder.run [freshDelivery, resumedDelivery]).accepted ∧
      resumedDelivery ∈ (recorder.run [freshDelivery, resumedDelivery]).accepted ∧
      Disjoint (freshDelivery.claims "claude" .inputTokens)
        (resumedDelivery.claims "claude" .inputTokens) := by
  have haccepted : (recorder.run [freshDelivery, resumedDelivery]).accepted =
      [resumedDelivery, freshDelivery] := rfl
  have hfresh : freshDelivery ∈ (recorder.run [freshDelivery, resumedDelivery]).accepted := by
    simp [haccepted]
  have hresumed : resumedDelivery ∈ (recorder.run [freshDelivery, resumedDelivery]).accepted := by
    simp [haccepted]
  exact ⟨hfresh, hresumed,
    (accepted_ranges_disjoint [freshDelivery, resumedDelivery]).1 _ hfresh _ hresumed (by decide)
      rfl rfl "claude" .inputTokens⟩

end AiPlatform.Runs
