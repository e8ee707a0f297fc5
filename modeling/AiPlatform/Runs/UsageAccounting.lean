import Mathlib
import AiPlatform.Foundation.Runs
import AiPlatform.Runs.TokenUsage

/-!
# What the usage ledger adds up to

A call either leaves the recorded totals alone or accepts a snapshot, and then the delta rows it
adds are the differences to the totals accepted before. So the rows of a scope always add up to what
was accepted last.
-/
namespace AiPlatform.Runs

open AiPlatform.Foundation Hash List

/-! ## Differences of counters -/

/-- No model is missing and no counter is smaller. -/
def Extends (previous current : ModelCounts) : Prop :=
  (∀ model, hexists previous model = true → hexists current model = true) ∧
    ∀ model field, hexists current model = true →
      count previous model field ≤ count current model field

theorem count_eq_zero {models : ModelCounts} {model : String}
    (h : hexists models model = false) (field : TokenField) : count models model field = 0 := by
  rw [hexists_eq_false] at h
  simp [count, h]

variable {a b current previous : ModelCounts} {deltas : List (String × Counts)} {l l' : UsageLedger}
  {d : Delivery} {r : Recorder}

theorem count_congr (h : ∀ model, hget a model = hget b model) (model : String)
    (field : TokenField) : count a model field = count b model field := by
  simp [count, h]

theorem Extends.count_le (h : Extends previous current) (model : String) (field : TokenField) :
    count previous model field ≤ count current model field := by
  cases hc : hexists current model with
  | true => exact h.2 model field hc
  | false =>
    have hp : hexists previous model = false := by
      rw [Bool.eq_false_iff]
      intro hp
      simp [h.1 model hp] at hc
    rw [count_eq_zero hc, count_eq_zero hp]

theorem Extends.trans {c : ModelCounts} (hab : Extends a b) (hbc : Extends b c) :
    Extends a c :=
  ⟨fun model h => hbc.1 model (hab.1 model h),
    fun model field _ => (hab.count_le model field).trans (hbc.count_le model field)⟩

theorem Extends.refl (a : ModelCounts) : Extends a a := ⟨fun _ h => h, fun _ _ _ => le_rfl⟩

theorem Extends.congr {a' b' : ModelCounts} (ha : ∀ model, hget a model = hget a' model)
    (hb : ∀ model, hget b model = hget b' model) (h : Extends a b) : Extends a' b' := by
  simp only [Extends, count, hexists, ← ha, ← hb] at h ⊢
  exact h

/-- What the rows of one model add to one counter. -/
def deltaTotal (deltas : List (String × Counts)) (model : String) (field : TokenField) : Int :=
  (deltas.map fun delta => if delta.1 = model then delta.2 field else 0).sum

theorem deltaTotal_cons (delta : String × Counts) (deltas : List (String × Counts))
    (model : String) (field : TokenField) :
    deltaTotal (delta :: deltas) model field =
      (if delta.1 = model then delta.2 field else 0) + deltaTotal deltas model field := by
  simp [deltaTotal]

/-- One step of the loop over the models of a snapshot. -/
theorem deltasFrom_cons {model : String} {counts : Counts} {rest : List (String × Counts)}
    (h : deltasFrom previous ((model, counts) :: rest) = some deltas) :
    ∃ tail, deltasFrom previous rest = some tail ∧
      (∀ field, count previous model field ≤ counts field) ∧
      ((deltas = (model, fun field => counts field - count previous model field) :: tail) ∨
        (deltas = tail ∧ hexists previous model = true ∧
          ∀ field, counts field = count previous model field)) := by
  simp only [deltasFrom] at h
  split at h
  · simp at h
  · rename_i hneg
    obtain ⟨tail, htail, rfl⟩ := Option.map_eq_some_iff.mp h
    refine ⟨tail, htail, fun field => ?_, ?_⟩
    · have := not_exists.mp hneg field
      omega
    · split
      · exact .inl rfl
      · rename_i hkeep
        simp only [Bool.or_eq_true, Bool.not_eq_true', decide_eq_true_eq, not_or,
          Bool.not_eq_false, not_exists, not_not] at hkeep
        refine .inr ⟨rfl, hkeep.1, fun field => ?_⟩
        have := hkeep.2 field
        omega

variable {entries : List (String × Counts)} {row : ScopeRow}

theorem deltasFrom_nonneg (h : deltasFrom previous entries = some deltas) :
    ∀ delta ∈ deltas, ∀ field, 0 ≤ delta.2 field := by
  induction entries generalizing deltas with
  | nil =>
    obtain rfl : [] = deltas := by simpa [deltasFrom] using h
    simp
  | cons entry rest ih =>
    obtain ⟨tail, htail, hle, hdeltas | ⟨hdeltas, -⟩⟩ := deltasFrom_cons h
    · subst hdeltas
      rintro delta hmem field
      rcases mem_cons.mp hmem with rfl | hmem
      · exact Int.sub_nonneg_of_le (hle field)
      · exact ih htail delta hmem field
    · subst hdeltas
      exact ih htail

/-- The rows add up to the differences, entry by entry. -/
theorem deltasFrom_total (hnd : (entries.map Prod.fst).Nodup)
    (h : deltasFrom previous entries = some deltas) (model : String) (field : TokenField) :
    deltaTotal deltas model field =
      (entries.lookup model).elim 0 fun counts => counts field - count previous model field := by
  induction entries generalizing deltas with
  | nil =>
    obtain rfl : [] = deltas := by simpa [deltasFrom] using h
    simp [deltaTotal]
  | cons entry rest ih =>
    obtain ⟨name, counts⟩ := entry
    simp only [map_cons, nodup_cons] at hnd
    obtain ⟨tail, htail, -, hdeltas⟩ := deltasFrom_cons h
    have ih := ih hnd.2 htail
    have hhead : deltaTotal deltas model field =
        (if name = model then counts field - count previous name field else 0) +
          deltaTotal tail model field := by
      rcases hdeltas with rfl | ⟨rfl, -, heq⟩
      · rw [deltaTotal_cons]
      · simp [heq field]
    rw [hhead, ih]
    by_cases hm : model = name
    · subst hm
      have hnone : rest.lookup model = none := by
        rw [lookup_eq_none_iff]
        intro p hp
        have : p.1 ≠ model := fun he => hnd.1 (he ▸ mem_map_of_mem hp)
        simpa using Ne.symm this
      simp [hnone]
    · have hm' : (model == name) = false := by simpa using hm
      simp [lookup_cons, hm', Ne.symm hm]

theorem deltasFrom_isSome :
    (deltasFrom previous entries).isSome = true ↔
      ∀ entry ∈ entries, ∀ field, count previous entry.1 field ≤ entry.2 field := by
  induction entries with
  | nil => simp [deltasFrom]
  | cons entry rest ih =>
    obtain ⟨name, counts⟩ := entry
    simp only [deltasFrom, forall_mem_cons, ← ih]
    split
    · rename_i hneg
      obtain ⟨field, hfield⟩ := hneg
      simp only [Option.isSome_none, Bool.false_eq_true, false_iff, not_and]
      intro hle
      have := hle field
      omega
    · rename_i hneg
      have hle : ∀ field, count previous name field ≤ counts field := by
        intro field
        have := not_exists.mp hneg field
        omega
      simp [hle]

theorem cumulativeDeltas_isSome :
    (cumulativeDeltas previous current).isSome = true ↔ Extends previous current := by
  have hgone : ((hgetall previous).any fun e => !hexists current e.1) = false ↔
      ∀ model, hexists previous model = true → hexists current model = true := by
    simp only [any_eq_false, Bool.not_eq_true', Bool.not_eq_false]
    constructor
    · intro h model hm
      obtain ⟨counts, hc⟩ := (hexists_eq_true previous model).mp hm
      exact h (model, counts) ((mem_hgetall previous model counts).mpr hc)
    · rintro h ⟨model, counts⟩ hm
      exact h model ((hexists_eq_true previous model).mpr
        ⟨counts, (mem_hgetall previous model counts).mp hm⟩)
  have hle : (∀ entry ∈ hgetall current, ∀ field, count previous entry.1 field ≤ entry.2 field) ↔
      ∀ model field, hexists current model = true →
        count previous model field ≤ count current model field := by
    constructor
    · intro h model field hm
      obtain ⟨counts, hc⟩ := (hexists_eq_true current model).mp hm
      have := h (model, counts) ((mem_hgetall current model counts).mpr hc) field
      simpa [count, hc] using this
    · rintro h ⟨model, counts⟩ hm field
      have hc := (mem_hgetall current model counts).mp hm
      have := h model field ((hexists_eq_true current model).mpr ⟨counts, hc⟩)
      simpa [count, hc] using this
  unfold cumulativeDeltas Extends
  split
  · rename_i h
    simp only [Option.isSome_none, Bool.false_eq_true, false_iff, not_and]
    intro hall
    rw [hgone.mpr hall] at h
    simp at h
  · rename_i h
    rw [deltasFrom_isSome, hle, ← hgone]
    exact ⟨fun hcounts => ⟨by simpa using h, hcounts⟩, fun hboth => hboth.2⟩

theorem deltasFrom_of_cumulativeDeltas (h : cumulativeDeltas previous current = some deltas) :
    deltasFrom previous (hgetall current) = some deltas := by
  unfold cumulativeDeltas at h
  split at h
  · simp at h
  · exact h

theorem cumulativeDeltas_total (h : cumulativeDeltas previous current = some deltas)
    (model : String) (field : TokenField) :
    deltaTotal deltas model field = count current model field - count previous model field := by
  have hext : Extends previous current := cumulativeDeltas_isSome.mp (by simp [h])
  rw [deltasFrom_total (nodup_hgetall current) (deltasFrom_of_cumulativeDeltas h),
    lookup_hgetall]
  cases hc : hget current model with
  | some counts => simp [count, hc]
  | none =>
    -- A model that is gone now was never there.
    have hcurrent := (hexists_eq_false current model).mpr hc
    have hle := hext.count_le model field
    have hprevious : hexists previous model = false := by
      rw [Bool.eq_false_iff]
      intro hp
      simp [hext.1 model hp] at hcurrent
    simp [count_eq_zero hcurrent, count_eq_zero hprevious]

/-- No delta rows: nothing has changed. -/
theorem hget_of_no_deltas (h : cumulativeDeltas previous current = some []) (model : String) :
    hget current model = hget previous model := by
  have hext : Extends previous current := cumulativeDeltas_isSome.mp (by simp [h])
  have hsame : ∀ entries : List (String × Counts), deltasFrom previous entries = some [] →
      ∀ entry ∈ entries, hget previous entry.1 = some entry.2 := by
    intro entries
    induction entries with
    | nil => simp
    | cons entry rest ih =>
      intro hd
      obtain ⟨tail, htail, -, hdeltas | ⟨rfl, hin, heq⟩⟩ := deltasFrom_cons hd
      · simp at hdeltas
      · rintro e he
        rcases mem_cons.mp he with rfl | he
        · obtain ⟨counts, hc⟩ := (hexists_eq_true previous e.1).mp hin
          have : counts = e.2 := funext fun field => by simpa [count, hc] using (heq field).symm
          rw [hc, this]
        · exact ih htail e he
  cases hc : hget current model with
  | some counts =>
    exact (hsame _ (deltasFrom_of_cumulativeDeltas h) (model, counts)
      ((mem_hgetall current model counts).mpr hc)).symm
  | none =>
    have hcurrent := (hexists_eq_false current model).mpr hc
    symm
    rw [← hexists_eq_false, Bool.eq_false_iff]
    intro hp
    simp [hext.1 model hp] at hcurrent

/-! ## What one call does -/

/-- The scope's row as a call finds it, written first if it is new. -/
def UsageLedger.rowFor (l : UsageLedger) (d : Delivery) : ScopeRow :=
  (hget l.scopes d.key).getD d.firstRow

/-- A call that accepts nothing touches one row and keeps what it says about tokens. -/
structure Unmoved (l : UsageLedger) (d : Delivery) (l' : UsageLedger) : Prop where
  deltas : l'.deltas = l.deltas
  scopes : ∃ row, l'.scopes = hset l.scopes d.key row ∧
    row.cumulativeJson = (l.rowFor d).cumulativeJson ∧
    row.baselineJson = (l.rowFor d).baselineJson ∧
    row.providerSessionId = (l.rowFor d).providerSessionId ∧
    (l.rowFor d).latestObservationSeq ≤ row.latestObservationSeq

/-- A call that accepts a snapshot has checked it and adds the differences. -/
structure Accepts (l : UsageLedger) (d : Delivery) (l' : UsageLedger)
    (deltas : List (String × Counts)) : Prop where
  newer : (l.rowFor d).latestObservationSeq < d.seq
  allowed : d.refusal (l.rowFor d) false = none
  differences : cumulativeDeltas (l.rowFor d).cumulativeJson d.snapshot.models = some deltas
  apart : deltas ≠ [] → ∀ key row, hget l.scopes key = some row → key ≠ d.key →
    key.tenantId = d.tenantId → row.providerSessionId = d.providerId →
    hlen row.cumulativeJson ≠ 0 →
    Extends row.absolute (d.snapshot.baselineModels.getD ∅)
  scopes : l'.scopes = hset l.scopes d.key (UsageLedger.acceptRow d (l.rowFor d))
  deltas : l'.deltas = l.deltas ++ deltas.map fun delta => ⟨d.key, d.seq, delta.1, delta.2⟩

theorem not_overlaps (h : l.overlaps d = false) {key : ScopeKey}
    (hrow : hget l.scopes key = some row) (hkey : key ≠ d.key) (htenant : key.tenantId = d.tenantId)
    (hprovider : row.providerSessionId = d.providerId) (hused : hlen row.cumulativeJson ≠ 0) :
    Extends row.absolute (d.snapshot.baselineModels.getD ∅) := by
  have hmem : row ∈ l.others d := by
    refine mem_map.mpr ⟨(key, row), mem_filter.mpr ⟨?_, ?_⟩, rfl⟩
    · exact (mem_hgetall l.scopes key row).mpr hrow
    · simp [htenant, hprovider, hkey, hused]
  have := any_eq_false.mp h row hmem
  rw [← cumulativeDeltas_isSome]
  simpa [Option.isSome_iff_ne_none] using this

theorem refusal_regressed (d : Delivery) (row : ScopeRow) : d.refusal row true ≠ none := by
  simp only [Delivery.refusal, if_true]
  split_ifs <;> simp

theorem settle_cases (l : UsageLedger) (d : Delivery) (row : ScopeRow) :
    l.settle d row = (l, .stale) ∨
      (∃ row' : ScopeRow, row'.cumulativeJson = row.cumulativeJson ∧
        row'.baselineJson = row.baselineJson ∧
        row'.providerSessionId = row.providerSessionId ∧
        row.latestObservationSeq ≤ row'.latestObservationSeq ∧
        l.settle d row = ({ l with scopes := hset l.scopes d.key row' }, .partialReport)) ∨
      ∃ deltas, row.latestObservationSeq < d.seq ∧ d.refusal row false = none ∧
        cumulativeDeltas row.cumulativeJson d.snapshot.models = some deltas ∧
        (deltas ≠ [] → l.overlaps d = false) ∧
        l.settle d row = (l.accept d row deltas, .accepted) := by
  unfold UsageLedger.settle
  split
  · exact .inl rfl
  · rename_i hseq
    have hlt := lt_of_not_ge hseq
    simp only
    split
    · refine .inr (.inl ⟨_, ?_, ?_, ?_, ?_, rfl⟩)
      exacts [rfl, rfl, rfl, hlt.le]
    · rename_i hreason
      rw [Option.or_eq_none_iff] at hreason
      obtain ⟨hrefusal, hoverlap⟩ := hreason
      cases hd : cumulativeDeltas row.cumulativeJson d.snapshot.models with
      | none =>
        rw [hd] at hrefusal
        exact absurd hrefusal (refusal_regressed d row)
      | some deltas =>
        rw [hd] at hrefusal hoverlap
        refine .inr (.inr ⟨deltas, hlt, hrefusal, rfl, fun hne => ?_, rfl⟩)
        rw [Bool.eq_false_iff]
        intro ho
        simp [ho, hne] at hoverlap

/-- The two kinds of calls. -/
theorem record_cases (l : UsageLedger) (d : Delivery) :
    ((l.record d).2 ≠ .accepted ∧ Unmoved l d (l.record d).1) ∨
      ((l.record d).2 = .accepted ∧ ∃ deltas, Accepts l d (l.record d).1 deltas) := by
  unfold UsageLedger.record
  simp only
  split
  · split
    · exact .inl ⟨by simp, rfl, l.rowFor d, rfl, rfl, rfl, rfl, le_rfl⟩
    · exact .inl ⟨by simp, rfl, _, hset_hset _ _ _ _, rfl, rfl, rfl, le_rfl⟩
  · generalize hl : ({ l with
        scopes := hset l.scopes d.key ((hget l.scopes d.key).getD d.firstRow)
        observations :=
          hset l.observations (d.key, d.seq) d.snapshot.toUsagePayload } : UsageLedger) = l₁
    have hscopes : l₁.scopes = hset l.scopes d.key (l.rowFor d) := by rw [← hl]; rfl
    have hdeltas : l₁.deltas = l.deltas := by rw [← hl]
    change ((l₁.settle d (l.rowFor d)).2 ≠ _ ∧ Unmoved l d (l₁.settle d (l.rowFor d)).1) ∨
      ((l₁.settle d (l.rowFor d)).2 = _ ∧ ∃ deltas, Accepts l d (l₁.settle d (l.rowFor d)).1 deltas)
    obtain hstale | ⟨row', hc, hb, hp, hseq, hsome⟩ | ⟨deltas, hnew, hok, hd, hap, hacc⟩ :=
      settle_cases l₁ d (l.rowFor d)
    · rw [hstale]
      exact .inl ⟨by simp, hdeltas, l.rowFor d, hscopes, rfl, rfl, rfl, le_rfl⟩
    · rw [hsome]
      exact .inl ⟨by simp, hdeltas, row', by simp [hscopes], hc, hb, hp, hseq⟩
    · rw [hacc]
      refine .inr ⟨rfl, deltas, ⟨hnew, hok, hd, fun hne key row hrow hkey ht hpr hu => ?_, ?_, ?_⟩⟩
      · refine not_overlaps (hap hne) ?_ hkey ht hpr hu
        rw [hscopes, hget_hset_ne _ _ hkey, hrow]
      · exact (congrArg (hset · d.key _) hscopes).trans (hset_hset _ _ _ _)
      · exact congrArg (· ++ _) hdeltas

/-! ## Runs of the recorder -/

/-- The tables and the deliveries accepted so far, newest first. -/
structure Recorder where
  ledger : UsageLedger
  accepted : List Delivery

def recordStep (r : Recorder) (d : Delivery) : Recorder :=
  let result := r.ledger.record d
  ⟨result.1, if result.2 = .accepted then d :: r.accepted else r.accepted⟩

/-- Any deliveries in any order. -/
def recorder : Machine Recorder Delivery := ⟨⟨.empty, []⟩, recordStep⟩

def UsageLedger.stored (l : UsageLedger) (key : ScopeKey) : ModelCounts :=
  (hget l.scopes key).elim ∅ (·.cumulativeJson)

/-- The sum of the delta rows of a scope, for one model and one field. -/
def UsageLedger.recordedTotal (l : UsageLedger) (key : ScopeKey) (model : String)
    (field : TokenField) : Int :=
  (l.deltas.map fun row =>
    if row.key = key ∧ row.actualModel = model then row.counts field else 0).sum

/-- The newest accepted delivery of a scope. -/
def Recorder.newest? (r : Recorder) (key : ScopeKey) : Option Delivery :=
  r.accepted.find? fun d => d.key = key

theorem rowFor_cumulative (l : UsageLedger) (d : Delivery) :
    (l.rowFor d).cumulativeJson = l.stored d.key := by
  unfold UsageLedger.rowFor UsageLedger.stored
  cases hget l.scopes d.key <;> rfl

theorem recordStep_cases (r : Recorder) (d : Delivery) :
    (∃ l, recordStep r d = ⟨l, r.accepted⟩ ∧ Unmoved r.ledger d l) ∨
      ∃ l deltas, recordStep r d = ⟨l, d :: r.accepted⟩ ∧ Accepts r.ledger d l deltas := by
  rcases record_cases r.ledger d with ⟨hout, hl⟩ | ⟨hout, deltas, hl⟩
  · exact .inl ⟨_, by simp [recordStep, hout], hl⟩
  · exact .inr ⟨_, deltas, by simp [recordStep, hout], hl⟩

theorem Unmoved.stored (h : Unmoved l d l') (key : ScopeKey) : l'.stored key = l.stored key := by
  obtain ⟨row, hscopes, hc, -⟩ := h.scopes
  by_cases hk : key = d.key
  · subst hk
    simp only [UsageLedger.stored, hscopes, hget_hset_self, Option.elim_some]
    rw [hc, rowFor_cumulative, UsageLedger.stored]
  · simp [UsageLedger.stored, hscopes, hk]

theorem Accepts.stored (h : Accepts l d l' deltas) (key : ScopeKey) :
    l'.stored key = if key = d.key then d.snapshot.models else l.stored key := by
  by_cases hk : key = d.key
  · simp [UsageLedger.stored, h.scopes, hk, UsageLedger.acceptRow]
  · simp [UsageLedger.stored, h.scopes, hk]

theorem recordedTotal_of_deltas (h : l'.deltas = l.deltas) (key : ScopeKey) (model : String)
    (field : TokenField) :
    l'.recordedTotal key model field = l.recordedTotal key model field := by
  simp [UsageLedger.recordedTotal, h]

theorem Accepts.recordedTotal (h : Accepts l d l' deltas) (key : ScopeKey) (model : String)
    (field : TokenField) :
    l'.recordedTotal key model field = l.recordedTotal key model field +
      if key = d.key then deltaTotal deltas model field else 0 := by
  simp only [UsageLedger.recordedTotal, h.deltas, map_append, sum_append, map_map,
    add_right_inj]
  by_cases hk : key = d.key
  · simp [hk, deltaTotal, Function.comp_def]
  · simp [hk, Ne.symm hk, Function.comp_def]

theorem hget_of_sameCounts (h : sameCounts a b = true) (model : String) :
    hget a model = hget b model := by
  simp only [sameCounts, Bool.and_eq_true, all_eq_true, beq_iff_eq] at h
  cases ha : hget a model with
  | some counts =>
    exact (h.1 (model, counts) ((mem_hgetall a model counts).mpr ha)).symm
  | none =>
    cases hb : hget b model with
    | none => rfl
    | some counts =>
      have := h.2 (model, counts) ((mem_hgetall b model counts).mpr hb)
      simp [ha] at this

/-- What an accepted delivery shares with the row of its scope. -/
theorem refusal_none (h : d.refusal row false = none) :
    (∀ model, hget (d.snapshot.baselineModels.getD ∅) model =
        hget (row.baselineJson.getD ∅) model) ∧
      (row.providerSessionId = none ∨ row.providerSessionId = d.providerId) ∧
      d.providerId ≠ none := by
  unfold Delivery.refusal at h
  split_ifs at h with hchanged hunknown hprovider
  rw [not_or, not_or, not_and_or, not_not] at hchanged
  refine ⟨fun model => ?_, ?_, ?_⟩
  · have hsame := hchanged.2.1
    revert hsame
    cases d.snapshot.baselineModels <;> cases row.baselineJson <;> simp [sameBaseline]
    exact fun hsame => hget_of_sameCounts hsame model
  · rcases hchanged.2.2 with hnone | hne
    · exact .inl (not_not.mp hnone)
    · exact .inr (not_not.mp hne)
  · intro hnone
    exact hprovider (.inl (by simp [Delivery.providerUnknown, hnone]))

/-- The row of a scope speaks for a delivery it has accepted. -/
structure Covers (row : ScopeRow) (d : Delivery) : Prop where
  seq : d.seq ≤ row.latestObservationSeq
  provider : row.providerSessionId = d.providerId
  known : row.providerSessionId ≠ none
  baseline : ∀ model, hget (d.snapshot.baselineModels.getD ∅) model =
    hget (row.baselineJson.getD ∅) model
  counts : Extends d.snapshot.models row.cumulativeJson

/-- The books of a recorder are in order. -/
structure Balanced (r : Recorder) : Prop where
  nonneg : ∀ row ∈ r.ledger.deltas, ∀ field, 0 ≤ row.counts field
  total : ∀ key model field,
    r.ledger.recordedTotal key model field = count (r.ledger.stored key) model field
  newest : ∀ key, r.ledger.stored key = (r.newest? key).elim ∅ (·.snapshot.models)
  covered : ∀ d ∈ r.accepted, ∃ row, hget r.ledger.scopes d.key = some row ∧ Covers row d
  ordered : r.accepted.Pairwise fun newer older => newer.key = older.key → older.seq < newer.seq

theorem balanced_start : Balanced recorder.start where
  nonneg := by simp [recorder, UsageLedger.empty]
  total := by simp [recorder, UsageLedger.empty, UsageLedger.recordedTotal,
    UsageLedger.stored, count]
  newest := by simp [recorder, UsageLedger.empty, UsageLedger.stored, Recorder.newest?]
  covered := by simp [recorder]
  ordered := by simp [recorder]

theorem rowFor_of_hget {key : ScopeKey} (hk : key = d.key) (h : hget l.scopes key = some row) :
    l.rowFor d = row := by
  subst hk
  simp [UsageLedger.rowFor, h]

theorem Balanced.unmoved (h : Balanced r) (hl : Unmoved r.ledger d l) :
    Balanced ⟨l, r.accepted⟩ where
  nonneg := by
    change ∀ row ∈ l.deltas, _
    rw [hl.deltas]
    exact h.nonneg
  total key model field := by
    rw [recordedTotal_of_deltas hl.deltas, hl.stored, h.total]
  newest key := (hl.stored key).trans (h.newest key)
  covered e he := by
    obtain ⟨row, hrow, hcovers⟩ := h.covered e he
    obtain ⟨row', hscopes, hc, hb, hp, hseq⟩ := hl.scopes
    by_cases hk : e.key = d.key
    · rw [rowFor_of_hget hk hrow] at hc hb hp hseq
      refine ⟨row', by simp [hscopes, hk], hcovers.seq.trans hseq, hp.trans hcovers.provider,
        hp ▸ hcovers.known, ?_, hc ▸ hcovers.counts⟩
      rw [hb]
      exact hcovers.baseline
    · exact ⟨row, by simp [hscopes, hk, hrow], hcovers⟩
  ordered := h.ordered

theorem Accepts.extends (h : Accepts l d l' deltas) :
    Extends (l.rowFor d).cumulativeJson d.snapshot.models :=
  cumulativeDeltas_isSome.mp (by simp [h.differences])

theorem Accepts.covers (h : Accepts l d l' deltas) :
    Covers (UsageLedger.acceptRow d (l.rowFor d)) d where
  seq := le_rfl
  provider := rfl
  known := (refusal_none h.allowed).2.2
  baseline := (refusal_none h.allowed).1
  counts := Extends.refl _

/-- What was accepted before stays covered: the totals only grow. -/
theorem Accepts.covers_earlier {e : Delivery} (h : Accepts l d l' deltas)
    (hcovers : Covers (l.rowFor d) e) : Covers (UsageLedger.acceptRow d (l.rowFor d)) e where
  seq := hcovers.seq.trans h.newer.le
  provider := by
    rcases (refusal_none h.allowed).2.1 with hnone | hsame
    · exact absurd hnone hcovers.known
    · exact hsame.symm.trans hcovers.provider
  known := (refusal_none h.allowed).2.2
  baseline := hcovers.baseline
  counts := hcovers.counts.trans h.extends

theorem Balanced.accepts (h : Balanced r) (hl : Accepts r.ledger d l deltas) :
    Balanced ⟨l, d :: r.accepted⟩ where
  nonneg := by
    change ∀ row ∈ l.deltas, _
    rw [hl.deltas]
    intro row hrow field
    rcases mem_append.mp hrow with hold | hnew
    · exact h.nonneg row hold field
    · obtain ⟨delta, hdelta, rfl⟩ := mem_map.mp hnew
      exact deltasFrom_nonneg (deltasFrom_of_cumulativeDeltas hl.differences) delta hdelta field
  total key model field := by
    rw [hl.recordedTotal, hl.stored, h.total]
    split
    · rename_i hk
      rw [cumulativeDeltas_total hl.differences, rowFor_cumulative, hk]
      omega
    · rw [add_zero]
  newest key := by
    rw [hl.stored, Recorder.newest?]
    by_cases hk : key = d.key
    · simp [hk]
    · simp only [hk, if_false]
      rw [h.newest, Recorder.newest?, find?_cons_of_neg (by simpa using Ne.symm hk)]
  covered e he := by
    rcases mem_cons.mp he with rfl | he
    · exact ⟨_, by simp [hl.scopes], hl.covers⟩
    · obtain ⟨row, hrow, hcovers⟩ := h.covered e he
      by_cases hk : e.key = d.key
      · refine ⟨_, by simp only [hl.scopes, hk, hget_hset_self], hl.covers_earlier ?_⟩
        rwa [rowFor_of_hget hk hrow]
      · exact ⟨row, by simp [hl.scopes, hk, hrow], hcovers⟩
  ordered := by
    refine pairwise_cons.mpr ⟨fun e he hk => ?_, h.ordered⟩
    obtain ⟨row, hrow, hcovers⟩ := h.covered e he
    have hnewer := hl.newer
    rw [rowFor_of_hget hk.symm hrow] at hnewer
    exact hcovers.seq.trans_lt hnewer

theorem Balanced.step (h : Balanced r) (d : Delivery) :
    Balanced (recordStep r d) := by
  rcases recordStep_cases r d with ⟨l, hr, hl⟩ | ⟨l, deltas, hr, hl⟩
  · exact hr ▸ h.unmoved hl
  · exact hr ▸ h.accepts hl

theorem balanced_run (deliveries : List Delivery) : Balanced (recorder.run deliveries) :=
  Machine.invariant_reachable balanced_start (fun _ d h => h.step d) deliveries

theorem Balanced.stored_nonneg (h : Balanced r) (key : ScopeKey) (model : String)
    (field : TokenField) : 0 ≤ count (r.ledger.stored key) model field := by
  rw [← h.total]
  refine sum_nonneg fun value hvalue => ?_
  obtain ⟨row, hrow, rfl⟩ := mem_map.mp hvalue
  split
  · exact h.nonneg row hrow field
  · exact le_rfl

end AiPlatform.Runs
