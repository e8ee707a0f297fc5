import Mathlib.Data.List.MinMax
import AiPlatform.Streaming.Publication

/-!
# Publication keeps the order of the ledger

Two rules carry the order from the ledger to the stream. A run event waits until the callbacks
committed before it are written (`Loaded.covers`), and callbacks are written only after the run
event committed before them (`Cleared`). Neither needs the acknowledgements of the executor.
-/
namespace AiPlatform.Streaming

open AiPlatform.Foundation List

/-! ## The ledger -/

structure Ledger.Sound (l : Ledger) : Prop where
  proper : ∀ c ∈ l, c.Proper
  ordered : l.Pairwise Commit.Precedes

variable {l : Ledger} {row e : Envelope}

variable {c : Commit} {rows : List Envelope}

theorem Ledger.Sound.append (h : l.Sound) (hc : c.Proper) (hl : ∀ d ∈ l, d.Precedes c) :
    Ledger.Sound (l ++ [c]) where
  proper d hd := by
    rcases mem_append.mp hd with hd | hd
    · exact h.proper d hd
    · exact mem_singleton.mp hd ▸ hc
  ordered := by
    refine pairwise_append.mpr ⟨h.ordered, pairwise_singleton _ _, ?_⟩
    intro d hd c' hc'
    exact mem_singleton.mp hc' ▸ hl d hd

theorem Ledger.Sound.compare (h : l.Sound) {d : Commit} (hc : c ∈ l) (hd : d ∈ l) :
    c = d ∨ c.Precedes d ∨ d.Precedes c := by
  have hordered := h.ordered
  induction l with
  | nil => cases hc
  | cons x l ih =>
    obtain ⟨hx, hl⟩ := pairwise_cons.mp hordered
    have htail : Ledger.Sound l := ⟨fun c hc => h.proper c (mem_cons_of_mem _ hc), hl⟩
    rcases mem_cons.mp hc with hc' | hc' <;> rcases mem_cons.mp hd with hd' | hd'
    · exact .inl (hc'.trans hd'.symm)
    · exact .inr (.inl (hc' ▸ hx d hd'))
    · exact .inr (.inr (hd' ▸ hx c hc'))
    · exact ih htail hc' hd' hl

/-- Two run events: a request to cancel, then the end of the run. -/
theorem Ledger.Sound.compare_runEvent (h : l.Sound) {r : Envelope} (hrow : .runEvent row ∈ l)
    (hr : .runEvent r ∈ l) :
    r = row ∨
      (r.sequence < row.sequence ∧ r.eventType = .runCancelRequested ∧ row.eventType.isTerminal) ∨
      (row.sequence < r.sequence ∧ row.eventType = .runCancelRequested ∧
        r.eventType.isTerminal) := by
  rcases h.compare hr hrow with heq | hlt | hlt
  · exact .inl (Commit.runEvent.inj heq)
  · obtain ⟨hrows, htypes⟩ := hlt
    obtain ⟨hcancel, hterminal⟩ := htypes rfl rfl
    exact .inr (.inl ⟨(hrows r (by simp [Commit.rows]) row (by simp [Commit.rows])).1,
      hcancel r (by simp [Commit.rows]), hterminal row (by simp [Commit.rows])⟩)
  · obtain ⟨hrows, htypes⟩ := hlt
    obtain ⟨hcancel, hterminal⟩ := htypes rfl rfl
    exact .inr (.inr ⟨(hrows row (by simp [Commit.rows]) r (by simp [Commit.rows])).1,
      hcancel row (by simp [Commit.rows]), hterminal r (by simp [Commit.rows])⟩)

/-- A run event is before or after all the callbacks of a batch. -/
theorem Ledger.Sound.compare_callbacks (h : l.Sound) (hrows : .callbacks rows ∈ l)
    (hrow : .runEvent row ∈ l) :
    (∀ b ∈ rows, row.sequence < b.sequence) ∨ ∀ b ∈ rows, b.sequence < row.sequence := by
  rcases h.compare hrow hrows with heq | hlt | hlt
  · cases heq
  · exact .inl fun b hb => (hlt.1 row (by simp [Commit.rows]) b hb).1
  · exact .inr fun b hb => (hlt.1 b hb row (by simp [Commit.rows])).1

/-- Callback batches do not overlap. -/
theorem Ledger.Sound.compare_batches (h : l.Sound) {rows' : List Envelope}
    (hrows : .callbacks rows ∈ l) (hrows' : .callbacks rows' ∈ l) :
    rows = rows' ∨ (∀ a ∈ rows, ∀ b ∈ rows', a.sequence < b.sequence) ∨
      ∀ a ∈ rows, ∀ b ∈ rows', b.sequence < a.sequence := by
  rcases h.compare hrows hrows' with heq | hlt | hlt
  · exact .inl (Commit.callbacks.inj heq)
  · exact .inr (.inl fun a ha b hb => (hlt.1 a ha b hb).1)
  · exact .inr (.inr fun a ha b hb => (hlt.1 b hb a ha).1)

/-! ## What a publisher loads -/

/-- `e` is the run event `row` as a publisher loaded it. -/
structure Loaded (l : Ledger) (row e : Envelope) : Prop where
  mem : .runEvent row ∈ l
  eventId : e.eventId = row.eventId
  sequence : e.sequence = row.sequence
  eventType : e.eventType = row.eventType
  covers : ∀ rows, .callbacks rows ∈ l → ∀ a ∈ rows, a.sequence < row.sequence →
    a.sequence ≤ e.callbackSequence

theorem Ledger.mem_callbackRows (h : .callbacks rows ∈ l) {a : Envelope} (ha : a ∈ rows) :
    a ∈ l.callbackRows :=
  mem_flatMap.mpr ⟨_, h, ha⟩

theorem Ledger.mem_runEvents : row ∈ l.runEvents ↔ .runEvent row ∈ l := by
  unfold Ledger.runEvents
  rw [mem_flatMap]
  constructor
  · rintro ⟨c, hc, hrow⟩
    cases c with
    | callbacks rows => simp [Commit.isRunEvent] at hrow
    | runEvent r =>
      obtain rfl : row = r := by simpa [Commit.isRunEvent, Commit.rows] using hrow
      exact hc
  · exact fun h => ⟨_, h, by simp [Commit.isRunEvent, Commit.rows]⟩

theorem Ledger.le_callbacksBefore {a : Envelope} {n : Nat} (ha : a ∈ l.callbackRows)
    (hlt : a.sequence < n) : a.sequence ≤ l.callbacksBefore n := by
  have hmem : a ∈ l.callbackRows.filter fun e => e.sequence < n :=
    mem_filter.mpr ⟨ha, by simpa using hlt⟩
  exact le_max_of_le' 0 (mem_map_of_mem hmem) le_rfl

theorem loaded_stamp (h : .runEvent row ∈ l) : Loaded l row (l.stamp row) := by
  unfold Ledger.stamp
  have hle : ∀ rows, .callbacks rows ∈ l → ∀ a ∈ rows, a.sequence < row.sequence →
      a.sequence ≤ l.callbacksBefore row.sequence := fun rows hrows a ha hlt =>
    Ledger.le_callbacksBefore (Ledger.mem_callbackRows hrows ha) hlt
  dsimp only
  split
  · rename_i hzero
    refine ⟨h, rfl, rfl, rfl, fun rows hrows a ha hlt => ?_⟩
    have := hle rows hrows a ha hlt
    omega
  · refine ⟨h, rfl, rfl, rfl, fun rows hrows a ha hlt => ?_⟩
    simpa [Envelope.callbackSequence] using hle rows hrows a ha hlt

theorem Ledger.Sound.runEvents_ascending (h : l.Sound) :
    l.runEvents.Pairwise fun a b => a.sequence < b.sequence := by
  have hordered := h.ordered
  induction l with
  | nil => exact List.Pairwise.nil
  | cons c l ih =>
    obtain ⟨hc, hl⟩ := pairwise_cons.mp hordered
    have htail : Ledger.Sound l := ⟨fun c hc => h.proper c (mem_cons_of_mem _ hc), hl⟩
    have ih := ih htail hl
    cases c with
    | callbacks rows => exact ih
    | runEvent r =>
      refine pairwise_cons.mpr ⟨fun b hb => ?_, ih⟩
      exact ((hc _ (Ledger.mem_runEvents.mp hb)).1 r (by simp [Commit.rows]) b
        (by simp [Commit.rows])).1

theorem loadLatestRunEvent_eq_some (h : l.Sound) {before : Option Nat}
    (he : l.loadLatestRunEvent before = some e) :
    ∃ row, Loaded l row e ∧ (∀ n, before = some n → row.sequence < n) ∧
      ∀ r, .runEvent r ∈ l → (∀ n, before = some n → r.sequence < n) →
        r.sequence ≤ row.sequence := by
  obtain ⟨row, hlast, rfl⟩ := Option.map_eq_some_iff.mp he
  have hmem := mem_filter.mp (mem_of_getLast? hlast)
  refine ⟨row, loaded_stamp (Ledger.mem_runEvents.mp hmem.1), ?_, ?_⟩
  · rintro n rfl
    simpa using hmem.2
  · intro r hr hbefore
    have hr' : r ∈ l.runEvents.filter fun e => before.all (e.sequence < ·) := by
      refine mem_filter.mpr ⟨Ledger.mem_runEvents.mpr hr, ?_⟩
      cases before with
      | none => rfl
      | some n => simpa using hbefore n rfl
    obtain ⟨init, hinit⟩ := getLast?_eq_some_iff.mp hlast
    have hsorted := h.runEvents_ascending.filter fun e => before.all (e.sequence < ·)
    rw [hinit] at hr' hsorted
    rcases mem_append.mp hr' with hr' | hr'
    · exact ((pairwise_append.mp hsorted).2.2 r hr' row (by simp)).le
    · exact (mem_singleton.mp hr' ▸ le_rfl)

theorem loadLatestRunEvent_eq_none {n : Nat} (h : l.loadLatestRunEvent (some n) = none)
    {r : Envelope} (hr : .runEvent r ∈ l) : n ≤ r.sequence := by
  have hempty : l.runEvents.filter (fun e => (some n).all (e.sequence < ·)) = [] :=
    getLast?_eq_none_iff.mp (Option.map_eq_none_iff.mp h)
  have := filter_eq_nil_iff.mp hempty r (Ledger.mem_runEvents.mpr hr)
  simpa using this

/-- A later commit does not touch what was loaded. -/
theorem Loaded.commit (h : Loaded l row e) (hc : ∀ d ∈ l, d.Precedes c) :
    Loaded (l ++ [c]) row e := by
  refine { h with mem := mem_append_left _ h.mem, covers := fun rows hrows a ha hlt => ?_ }
  rcases mem_append.mp hrows with hrows | hrows
  · exact h.covers rows hrows a ha hlt
  · obtain rfl := mem_singleton.mp hrows
    have := ((hc _ h.mem).1 row (by simp [Commit.rows]) a ha).1
    omega

/-! ## Publishers -/

def Closed (s : StreamState) : Prop := s.phase = some .terminal ∨ s.phase = some .ended

/-- The request to cancel is written. -/
def Written (s : StreamState) (r : Envelope) : Prop :=
  r.eventType = .runCancelRequested ∧ s.lastEvent.map Receipt.eventId = some r.eventId

/-- Whatever the run did before these callbacks is written, or nothing is written any more. -/
def Cleared (l : Ledger) (s : StreamState) (rows : List Envelope) : Prop :=
  Closed s ∨ ∀ r, .runEvent r ∈ l → (∀ b ∈ rows, r.sequence < b.sequence) → Written s r

inductive Publisher.Sound (l : Ledger) (s : StreamState) : Publisher → Prop
  | done : Publisher.Sound l s []
  | opening (e : Envelope) : e.eventType = .streamOpen → Publisher.Sound l s [.append e]
  | runEvent (row e : Envelope) : Loaded l row e → Publisher.Sound l s [.append e]
  | predecessor (row e : Envelope) (rows : List Envelope) : .callbacks rows ∈ l → Loaded l row e →
      (∀ r, .runEvent r ∈ l → (∀ b ∈ rows, r.sequence < b.sequence) →
        r.sequence ≤ row.sequence) →
      Publisher.Sound l s [.append e, .appendCallbackBatch rows]
  | ending (e : Envelope) : Publisher.Sound l s [.appendEnd e]
  | endingBefore (e : Envelope) (rows : List Envelope) : .callbacks rows ∈ l → Closed s →
      Publisher.Sound l s [.appendEnd e, .appendCallbackBatch rows]
  | batch (rows : List Envelope) : .callbacks rows ∈ l → Cleared l s rows →
      Publisher.Sound l s [.appendCallbackBatch rows]

/-- How the state hash may change as far as publishers rely on it. -/
structure Evolves (l : Ledger) (s s' : StreamState) : Prop where
  closed : Closed s → Closed s'
  written : ∀ r, .runEvent r ∈ l → Written s r → Written s' r

theorem Evolves.refl (l : Ledger) (s : StreamState) : Evolves l s s := ⟨id, fun _ _ => id⟩

variable {s s' : StreamState} {p : Publisher}

theorem Cleared.evolve (h : Cleared l s rows) (hs : Evolves l s s') :
    Cleared l s' rows :=
  h.imp hs.closed fun hall r hr hbefore => hs.written r hr (hall r hr hbefore)

theorem Publisher.Sound.evolve (h : p.Sound l s) (hs : Evolves l s s') : p.Sound l s' := by
  cases h with
  | done => exact .done
  | opening e he => exact .opening e he
  | runEvent row e he => exact .runEvent row e he
  | predecessor row e rows hrows he hlatest => exact .predecessor row e rows hrows he hlatest
  | ending e => exact .ending e
  | endingBefore e rows hrows hclosed => exact .endingBefore e rows hrows (hs.closed hclosed)
  | batch rows hrows hcleared => exact .batch rows hrows (hcleared.evolve hs)

/-- Nothing committed later is before callbacks committed already. -/
theorem not_before_of_precedes {r : Envelope} (hl : l.Sound) (hrows : .callbacks rows ∈ l)
    (hc : ∀ d ∈ l, d.Precedes c) (hr : .runEvent r ∈ l ++ [c])
    (hbefore : ∀ b ∈ rows, r.sequence < b.sequence) :
    .runEvent r ∈ l := by
  rcases mem_append.mp hr with hr | hr
  · exact hr
  · obtain rfl := mem_singleton.mp hr
    obtain ⟨b, hb⟩ := exists_mem_of_ne_nil _ (hl.proper _ hrows).1
    have := ((hc _ hrows).1 b hb r (by simp [Commit.rows])).1
    have := hbefore b hb
    omega

theorem Publisher.Sound.commit (h : p.Sound l s) (hl : l.Sound) (hc : ∀ d ∈ l, d.Precedes c) :
    p.Sound (l ++ [c]) s := by
  cases h with
  | done => exact .done
  | opening e he => exact .opening e he
  | runEvent row e he => exact .runEvent row e (he.commit hc)
  | predecessor row e rows hrows he hlatest =>
    refine .predecessor row e rows (mem_append_left _ hrows) (he.commit hc) ?_
    exact fun r hr hbefore =>
      hlatest r (not_before_of_precedes hl hrows hc hr hbefore) hbefore
  | ending e => exact .ending e
  | endingBefore e rows hrows hclosed =>
    exact .endingBefore e rows (mem_append_left _ hrows) hclosed
  | batch rows hrows hcleared =>
    refine .batch rows (mem_append_left _ hrows) (hcleared.imp_right fun hall r hr hbefore => ?_)
    exact hall r (not_before_of_precedes hl hrows hc hr hbefore) hbefore

theorem sound_publishCallbackRows (hl : l.Sound) (hrows : .callbacks rows ∈ l) :
    (publishCallbackRows l rows).Sound l s := by
  obtain ⟨hne, hsorted, -⟩ := hl.proper _ hrows
  cases rows with
  | nil => exact absurd rfl hne
  | cons first rest =>
    unfold publishCallbackRows
    split
    · rename_i e he
      obtain ⟨row, hloaded, -, hlatest⟩ := loadLatestRunEvent_eq_some hl he
      refine .predecessor row e _ hrows hloaded fun r hr hbefore => hlatest r hr ?_
      rintro n ⟨⟩
      exact hbefore first mem_cons_self
    · rename_i hnone
      refine .batch _ hrows (.inr fun r hr hbefore => ?_)
      have := loadLatestRunEvent_eq_none hnone hr
      have := hbefore first mem_cons_self
      omega

/-! ## The stream -/

/-- Where an application event of the stream comes from, and what it waited for. -/
inductive Stored (l : Ledger) (s : StreamState) (e : Envelope) : Prop
  | callback (rows : List Envelope) : .callbacks rows ∈ l → e ∈ rows →
      e.sequence ≤ s.callbackSequence → Stored l s e
  | runEvent (row : Envelope) : Loaded l row e → e.callbackSequence ≤ s.callbackSequence →
      (e.eventType = .runCancelRequested → Written s row) → Stored l s e

/-- Application events in the order of the stream. -/
def applicationEvents (history : List Envelope) : List Envelope :=
  history.filter fun e => !e.eventType.isControl

structure Transport.Sound (l : Ledger) (t : Transport) : Prop where
  formed : t.Formed
  stored : ∀ e ∈ applicationEvents t.history, Stored l t.keys.state e
  ascending : (applicationEvents t.history).Pairwise fun a b => a.sequence < b.sequence
  /-- The callback receipt ends a committed batch. -/
  delivered : t.keys.state.callbackSequence = 0 ∨ ∃ rows, .callbacks rows ∈ l ∧
    ∃ a ∈ rows, a.sequence = t.keys.state.callbackSequence ∧ ∀ b ∈ rows, b.sequence ≤ a.sequence
  /-- No callback has overtaken a run event. -/
  overtaken : ∀ rows, .callbacks rows ∈ l → ∀ e ∈ rows, e ∈ t.history → ∀ r, .runEvent r ∈ l →
    r.sequence < e.sequence → Written t.keys.state r

theorem mem_applicationEvents {history : List Envelope} :
    e ∈ applicationEvents history ↔ e ∈ history ∧ e.eventType.isControl = false := by
  simp [applicationEvents]

theorem Ledger.Sound.callback_not_control (hl : l.Sound) (hrows : .callbacks rows ∈ l)
    (he : e ∈ rows) : e.eventType.isControl = false := by
  have := ((hl.proper _ hrows).2.2 e he).1
  simp only [EventType.isOngoing, Bool.and_eq_true, Bool.not_eq_true'] at this
  exact this.1

theorem Ledger.Sound.runEvent_type (hl : l.Sound) (hrow : .runEvent row ∈ l) :
    row.eventType = .runCancelRequested ∨ row.eventType.isTerminal = true :=
  (hl.proper _ hrow).2.2

theorem Stored.mono (h : Stored l s e) (hs : Evolves l s s')
    (hle : s.callbackSequence ≤ s'.callbackSequence) : Stored l s' e := by
  cases h with
  | callback rows hrows he hseq => exact .callback rows hrows he (hseq.trans hle)
  | runEvent row hrow hwait hwritten =>
    exact .runEvent row hrow (hwait.trans hle) fun hcancel =>
      hs.written row hrow.mem (hwritten hcancel)

namespace Transport.Sound

variable {t : Transport} {keys : StreamKeys}

section

variable (h : t.Sound l) (hl : l.Sound)
include h hl

theorem commit {c : Commit} (hc : ∀ d ∈ l, d.Precedes c) (hproper : c.Proper) :
    t.Sound (l ++ [c]) where
  formed := h.formed
  stored e he := by
    cases h.stored e he with
    | callback rows hrows hmem hle => exact .callback rows (mem_append_left _ hrows) hmem hle
    | runEvent row hrow hwait hwritten => exact .runEvent row (hrow.commit hc) hwait hwritten
  ascending := h.ascending
  delivered := by
    refine h.delivered.imp_right ?_
    rintro ⟨rows, hrows, ha⟩
    exact ⟨rows, mem_append_left _ hrows, ha⟩
  overtaken rows hrows e he hmem r hr hlt := by
    have hcontrol := (hl.append hproper hc).callback_not_control hrows he
    rcases mem_append.mp hrows with hold | hnew
    · rcases mem_append.mp hr with hr | hr
      · exact h.overtaken rows hold e he hmem r hr hlt
      · obtain rfl := mem_singleton.mp hr
        have := ((hc _ hold).1 e he r (by simp [Commit.rows])).1
        omega
    · -- Rows committed now are not in the stream yet.
      obtain rfl := mem_singleton.mp hnew
      cases h.stored e (mem_applicationEvents.mpr ⟨hmem, hcontrol⟩) with
      | callback rows' hrows' he' _ =>
        exact absurd ((hc _ hrows').1 e he' e he).1 (lt_irrefl _)
      | runEvent row hrow _ _ =>
        have := ((hc _ hrow.mem).1 row (by simp [Commit.rows]) e he).1
        have := hrow.sequence
        omega

/-- `stream.open` and `stream.end` change nothing for the application events. -/
theorem addControl (he : e.eventType.isControl = true)
    (hformed : Transport.Formed ⟨keys, t.history ++ [e]⟩)
    (hlast : keys.state.lastEvent = t.keys.state.lastEvent)
    (hcallback : keys.state.callback = t.keys.state.callback) :
    Transport.Sound l ⟨keys, t.history ++ [e]⟩ := by
  have hevents : applicationEvents (t.history ++ [e]) = applicationEvents t.history := by
    simp [applicationEvents, he]
  have hwritten : ∀ r, Written keys.state r ↔ Written t.keys.state r := by
    intro r
    simp only [Written, hlast]
  have hsequence : keys.state.callbackSequence = t.keys.state.callbackSequence := by
    simp only [StreamState.callbackSequence, hcallback]
  refine ⟨hformed, fun a ha => ?_, hevents ▸ h.ascending, ?_, ?_⟩
  · rw [hevents] at ha
    cases h.stored a ha with
    | callback rows hrows hmem hle => exact .callback rows hrows hmem (hsequence ▸ hle)
    | runEvent row hrow hwait hcancel =>
      exact .runEvent row hrow (hsequence ▸ hwait) fun htype => (hwritten row).mpr (hcancel htype)
  · simpa only [hsequence] using h.delivered
  · intro rows hrows a ha hmem r hr hlt
    refine (hwritten r).mpr ?_
    rcases mem_append.mp hmem with hmem | hmem
    · exact h.overtaken rows hrows a ha hmem r hr hlt
    · have := hl.callback_not_control hrows ha
      rw [mem_singleton.mp hmem, he] at this
      cases this

/-- A run event that is not in the open stream yet comes after all that is. -/
theorem lt_runEvent (hloaded : Loaded l row e) (hphase : t.keys.state.phase = some .opened)
    (hnew : ¬ Written t.keys.state row) :
    ∀ a ∈ applicationEvents t.history, a.sequence < e.sequence := by
  intro a ha
  obtain ⟨hmem, hcontrol⟩ := mem_applicationEvents.mp ha
  have hongoing : a.eventType.isTerminal = false := by
    have hformed := h.formed
    unfold Transport.Formed at hformed
    rw [hphase] at hformed
    exact hformed.ongoing a hmem hcontrol
  rw [hloaded.sequence]
  cases h.stored a ha with
  | callback rows hrows harows _ =>
    rcases hl.compare_callbacks hrows hloaded.mem with hbefore | hafter
    · exact absurd (h.overtaken rows hrows a harows hmem row hloaded.mem (hbefore a harows)) hnew
    · exact hafter a harows
  | runEvent r hr _ hcancel =>
    have hterminal : r.eventType.isTerminal = false := hr.eventType ▸ hongoing
    have htype : r.eventType = .runCancelRequested :=
      (hl.runEvent_type hr.mem).resolve_right (by simp [hterminal])
    rcases hl.compare_runEvent hloaded.mem hr.mem with rfl | ⟨hlt, -, -⟩ | ⟨-, -, hend⟩
    · exact absurd (hcancel (hr.eventType.trans htype)) hnew
    · exact hr.sequence ▸ hlt
    · simp [hterminal] at hend

theorem addRunEvent (hloaded : Loaded l row e) (hphase : t.keys.state.phase = some .opened)
    (hwait : e.callbackSequence ≤ t.keys.state.callbackSequence) (hnew : ¬ Written t.keys.state row)
    (hformed : Transport.Formed ⟨keys, t.history ++ [e]⟩)
    (hcallback : keys.state.callback = t.keys.state.callback)
    (hevolves : Evolves l t.keys.state keys.state)
    (hwritten : e.eventType = .runCancelRequested → Written keys.state row) :
    Transport.Sound l ⟨keys, t.history ++ [e]⟩ := by
  have hcontrol : e.eventType.isControl = false := by
    rw [hloaded.eventType]
    rcases hl.runEvent_type hloaded.mem with htype | htype
    · rw [htype]
      rfl
    · cases htype' : row.eventType <;> simp_all [EventType.isTerminal, EventType.isControl]
  have hevents : applicationEvents (t.history ++ [e]) = applicationEvents t.history ++ [e] := by
    simp [applicationEvents, hcontrol]
  have hsequence : keys.state.callbackSequence = t.keys.state.callbackSequence := by
    simp only [StreamState.callbackSequence, hcallback]
  refine ⟨hformed, fun a ha => ?_, ?_, ?_, ?_⟩
  · rw [hevents] at ha
    rcases mem_append.mp ha with ha | ha
    · exact (h.stored a ha).mono hevolves hsequence.ge
    · obtain rfl := mem_singleton.mp ha
      exact .runEvent row hloaded (hsequence ▸ hwait) hwritten
  · rw [hevents]
    refine pairwise_append.mpr ⟨h.ascending, pairwise_singleton _ _, fun a ha b hb => ?_⟩
    rw [mem_singleton.mp hb]
    exact h.lt_runEvent hl hloaded hphase hnew a ha
  · simpa only [hsequence] using h.delivered
  · intro rows hrows a ha hmem r hr hlt
    rcases mem_append.mp hmem with hmem | hmem
    · exact hevolves.written r hr (h.overtaken rows hrows a ha hmem r hr hlt)
    · -- A run event is no callback.
      obtain rfl := mem_singleton.mp hmem
      have hseq := hloaded.sequence
      rcases hl.compare_callbacks hrows hloaded.mem with hbefore | hafter
      · have := hbefore a ha
        omega
      · have := hafter a ha
        omega

/-- A batch that is written comes after everything in the stream. -/
theorem addCallbacks {rows : List Envelope} {first : Envelope} {sequence : Nat}
    {receipt : CallbackReceipt} (hrows : .callbacks rows ∈ l)
    (hcleared : Cleared l t.keys.state rows) (hphase : t.keys.state.phase = some .opened)
    (hlt : t.keys.state.callbackSequence < sequence)
    (hcheck : checkCallbackBatch first 0 rows = some sequence) (hne : rows ≠ [])
    (hformed : Transport.Formed ⟨keys, t.history ++ rows⟩) (hreceipt : receipt.sequence = sequence)
    (hstate : keys.state = { t.keys.state with callback := some receipt }) :
    Transport.Sound l ⟨keys, t.history ++ rows⟩ := by
  obtain ⟨hbatch, -, hlast⟩ := checkCallbackBatch_eq_some hcheck
  obtain ⟨z, hz, hzseq⟩ := hlast hne
  have hsequence : keys.state.callbackSequence = sequence := by
    simp [StreamState.callbackSequence, hstate, hreceipt]
  have hwritten : ∀ r, Written keys.state r ↔ Written t.keys.state r := by
    intro r
    simp only [Written, hstate]
  have hall : ∀ r, .runEvent r ∈ l → (∀ b ∈ rows, r.sequence < b.sequence) →
      Written t.keys.state r :=
    hcleared.resolve_left (by simp [Closed, hphase])
  -- The receipt ends an earlier batch, so all of this one is still to come.
  have hfresh : ∀ b ∈ rows, t.keys.state.callbackSequence < b.sequence := by
    intro b hb
    rcases h.delivered with hzero | ⟨rows', hrows', a, ha, haseq, hamax⟩
    · have := (hbatch b hb).2.2.1
      omega
    · rcases hl.compare_batches hrows hrows' with rfl | hbefore | hafter
      · have := hamax z hz
        omega
      · have := hbefore z hz a ha
        omega
      · have := hafter b hb a ha
        omega
  have hevents : applicationEvents (t.history ++ rows) = applicationEvents t.history ++ rows := by
    have hself : applicationEvents rows = rows :=
      filter_eq_self.mpr fun b hb => by simp [(hbatch b hb).1]
    unfold applicationEvents at hself ⊢
    rw [filter_append, hself]
  have hgrows : t.keys.state.callbackSequence ≤ keys.state.callbackSequence := by omega
  refine ⟨hformed, fun a ha => ?_, ?_, .inr ⟨rows, hrows, z, hz, ?_, ?_⟩, ?_⟩
  · rw [hevents] at ha
    rcases mem_append.mp ha with ha | ha
    · cases h.stored a ha with
      | callback rows' hrows' hmem hle => exact .callback rows' hrows' hmem (hle.trans hgrows)
      | runEvent row hrow hwait hcancel =>
        exact .runEvent row hrow (hwait.trans hgrows) fun htype =>
          (hwritten row).mpr (hcancel htype)
    · exact .callback rows hrows ha (hsequence ▸ (hbatch a ha).2.2.2)
  · rw [hevents]
    refine pairwise_append.mpr ⟨h.ascending, (hl.proper _ hrows).2.1.imp And.left, ?_⟩
    intro a ha b hb
    have hfresh := hfresh b hb
    cases h.stored a ha with
    | callback rows' hrows' hmem hle => omega
    | runEvent row hrow hwait _ =>
      rw [hrow.sequence]
      rcases hl.compare_callbacks hrows hrow.mem with hbefore | hafter
      · exact hbefore b hb
      · have := hrow.covers rows hrows b hb (hafter b hb)
        omega
  · exact hzseq.trans hsequence.symm
  · intro b hb
    exact hzseq ▸ (hbatch b hb).2.2.2
  · intro rows' hrows' a ha hmem r hr hlt'
    refine (hwritten r).mpr ?_
    rcases mem_append.mp hmem with hmem | hmem
    · exact h.overtaken rows' hrows' a ha hmem r hr hlt'
    · rcases hl.compare_callbacks hrows hr with hbefore | hafter
      · exact hall r hr hbefore
      · have := hafter a hmem
        omega

end

end Transport.Sound

/-! ## One call -/

variable (enc : Encoding) {t : Transport} {rest : Publisher}

theorem StreamKeys.add_callback (k : StreamKeys) (now : Nat) (r : AppendRequest) :
    (k.add now r).state.callback = k.state.callback := by
  unfold StreamKeys.add StreamState.record
  cases r.transportType <;> rfl

theorem StreamKeys.add_lastEvent (k : StreamKeys) (now : Nat) (r : AppendRequest)
    (h : ∀ type, r.transportType ≠ .event type) :
    (k.add now r).state.lastEvent = k.state.lastEvent := by
  unfold StreamKeys.add StreamState.record
  cases hr : r.transportType with
  | event type => exact absurd hr (h type)
  | _ => rfl

/-- Writes that leave the last event alone keep what publishers rely on. -/
theorem evolves_of_lastEvent (hlast : s'.lastEvent = s.lastEvent) (hclosed : Closed s → Closed s') :
    Evolves l s s' :=
  ⟨hclosed, fun _ _ hwritten => ⟨hwritten.1, hlast.symm ▸ hwritten.2⟩⟩

/-- Once its append has succeeded, a run event is settled in the stream. -/
def Settled (s : StreamState) (row : Envelope) : Prop :=
  (row.eventType = .runCancelRequested → Written s row) ∧ (row.eventType.isTerminal → Closed s)

/-- What publishers rely on after a call. -/
structure CallSound (l : Ledger) (t : Transport) (result : Except AppendError StreamId × Transport)
    (settled : StreamState → Prop) : Prop where
  sound : result.2.Sound l
  evolves : Evolves l t.keys.state result.2.keys.state
  reply : ∀ id, result.1 = .ok id → settled result.2.keys.state

theorem callSound_unchanged (h : t.Sound l) {reply : Except AppendError StreamId}
    {settled : StreamState → Prop} (hreply : ∀ id, reply = .ok id → settled t.keys.state) :
    CallSound l t (reply, t) settled :=
  ⟨h, .refl l _, hreply⟩

theorem callSound_open (h : t.Sound l) (hl : l.Sound) (now : Nat)
    (he : e.eventType = .streamOpen) :
    CallSound l t (t.append enc now e) fun _ => True := by
  have hformed := h.formed.append enc now e
  unfold Transport.append at hformed ⊢
  split
  · exact callSound_unchanged h fun _ _ => trivial
  · rename_i r hr
    simp only [hr] at hformed
    obtain ⟨rfl, -⟩ := canonicalRequest_eq_ok hr
    have htype : r.transportType = .streamOpen := by
      simp [AppendRequest.transportType, he, EventType.transportType]
    rcases t.evalAppend_cases now r with ⟨e, hcall⟩ | ⟨id, hcall, -⟩ | ⟨id, hcall, hpermitted⟩
    · exact hcall ▸ callSound_unchanged h fun _ _ => trivial
    · exact hcall ▸ callSound_unchanged h fun _ _ => trivial
    · rw [hcall] at hformed ⊢
      have hlast := t.keys.add_lastEvent now r (by simp [htype])
      have hnone : t.keys.state.phase = none := by simpa [Permitted, htype] using hpermitted
      exact ⟨h.addControl hl (by rw [he]; rfl) hformed hlast (t.keys.add_callback now r),
        evolves_of_lastEvent hlast (by simp [Closed, hnone]), fun _ _ => trivial⟩

theorem callSound_appendEnd (h : t.Sound l) (hl : l.Sound) (now : Nat) (terminal : Envelope) :
    CallSound l t (t.appendEnd enc now terminal) fun _ => True := by
  have hformed := h.formed.appendEnd enc now terminal
  unfold Transport.appendEnd at hformed ⊢
  split
  · exact callSound_unchanged h fun _ _ => trivial
  · rename_i hvalid
    rw [if_neg hvalid] at hformed
    generalize hr : request enc (endOf enc terminal) terminal.eventId = r at hformed ⊢
    have htype : r.transportType = .streamEnd := by
      rw [← hr]
      rfl
    rcases t.evalAppend_cases now r with ⟨e, hcall⟩ | ⟨id, hcall, -⟩ | ⟨id, hcall, hpermitted⟩
    · exact hcall ▸ callSound_unchanged h fun _ _ => trivial
    · exact hcall ▸ callSound_unchanged h fun _ _ => trivial
    · rw [hcall] at hformed ⊢
      have hlast := t.keys.add_lastEvent now r (by simp [htype])
      have hcontrol : r.envelope.eventType.isControl = true := by
        rw [← hr]
        rfl
      have hclosed : Closed (t.keys.add now r).state := by
        simp [Closed, StreamKeys.add, StreamState.record, htype]
      exact ⟨h.addControl hl hcontrol hformed hlast (t.keys.add_callback now r),
        evolves_of_lastEvent hlast fun _ => hclosed, fun _ _ => trivial⟩

theorem Loaded.transportType_cases {r : AppendRequest} (hl : l.Sound)
    (hloaded : Loaded l row r.envelope) :
    (row.eventType = .runCancelRequested ∧ r.transportType = .event .runCancelRequested) ∨
      (row.eventType.isTerminal = true ∧ r.transportType = .terminal) := by
  unfold AppendRequest.transportType
  rw [hloaded.eventType]
  rcases hl.runEvent_type hloaded.mem with hcancel | hterminal
  · exact .inl ⟨hcancel, by rw [hcancel]; rfl⟩
  · refine .inr ⟨hterminal, ?_⟩
    revert hterminal
    cases row.eventType <;> decide

theorem callSound_runEvent (h : t.Sound l) (hl : l.Sound) (now : Nat) (hloaded : Loaded l row e) :
    CallSound l t (t.append enc now e) fun s => Settled s row := by
  have hformed := h.formed.append enc now e
  unfold Transport.append at hformed ⊢
  split
  · exact callSound_unchanged h (by simp)
  · rename_i r hr
    simp only [hr] at hformed
    obtain ⟨rfl, -⟩ := canonicalRequest_eq_ok hr
    have htypes := hloaded.transportType_cases hl
    rcases t.evalAppend_cases now r with
      ⟨e, hcall⟩ | ⟨id, hcall, hanswered⟩ | ⟨id, hcall, hpermitted⟩
    · exact hcall ▸ callSound_unchanged h (by simp)
    · rw [hcall]
      refine callSound_unchanged h fun _ _ => ?_
      rcases htypes with ⟨hcancel, htype⟩ | ⟨hterminal, htype⟩
      · simp only [Answered, htype] at hanswered
        exact ⟨fun _ => ⟨hcancel, hloaded.eventId ▸ hanswered.2⟩,
          by simp [hcancel, EventType.isTerminal]⟩
      · simp only [Answered, htype] at hanswered
        exact ⟨fun hcancel => by simp [hcancel, EventType.isTerminal] at hterminal,
          fun _ => hanswered⟩
    · rw [hcall] at hformed ⊢
      have hcallback := t.keys.add_callback now r
      rcases htypes with ⟨hcancel, htype⟩ | ⟨hterminal, htype⟩
      · simp only [Permitted, htype] at hpermitted
        obtain ⟨hphase, hid, hwait⟩ := hpermitted
        have hnew : ¬ Written t.keys.state row := fun hwritten =>
          hid (hloaded.eventId ▸ hwritten.2)
        have hwritten : Written (t.keys.add now r).state row := by
          refine ⟨hcancel, ?_⟩
          simp [StreamKeys.add, StreamState.record, htype, AppendRequest.receipt, hloaded.eventId]
        have hevolves : Evolves l t.keys.state (t.keys.add now r).state := by
          refine ⟨by simp [Closed, hphase], fun r' hr' hr'written => ?_⟩
          -- There is only one request to cancel.
          rcases hl.compare_runEvent hloaded.mem hr' with rfl | ⟨-, -, hend⟩ | ⟨-, -, hend⟩
          · exact hwritten
          · simp [hcancel, EventType.isTerminal] at hend
          · simp [hr'written.1, EventType.isTerminal] at hend
        refine ⟨h.addRunEvent hl hloaded hphase (hwait trivial) hnew hformed hcallback hevolves
          fun _ => hwritten, hevolves, fun _ _ => ⟨fun _ => hwritten, ?_⟩⟩
        simp [hcancel, EventType.isTerminal]
      · simp only [Permitted, htype] at hpermitted
        obtain ⟨hphase, hwait⟩ := hpermitted
        have hnotcancel : row.eventType ≠ .runCancelRequested := by
          intro hcancel
          simp [hcancel, EventType.isTerminal] at hterminal
        have hevolves : Evolves l t.keys.state (t.keys.add now r).state :=
          evolves_of_lastEvent (t.keys.add_lastEvent now r (by simp [htype]))
            (by simp [Closed, hphase])
        have hclosed : Closed (t.keys.add now r).state := by
          simp [Closed, StreamKeys.add, StreamState.record, htype]
        exact ⟨h.addRunEvent hl hloaded hphase hwait (fun hwritten => hnotcancel hwritten.1) hformed
          hcallback hevolves fun hcancel => absurd (hloaded.eventType ▸ hcancel) hnotcancel,
          hevolves, fun _ _ => ⟨fun hcancel => absurd hcancel hnotcancel, fun _ => hclosed⟩⟩

theorem callSound_callbacks (h : t.Sound l) (hl : l.Sound) (now : Nat) (hrows : .callbacks rows ∈ l)
    (hcleared : Cleared l t.keys.state rows) :
    CallSound l t (t.appendCallbackBatch enc now rows) fun _ => True := by
  have hformed := h.formed.appendCallbackBatch enc now rows
  rcases t.appendCallbackBatch_cases enc now rows with ⟨reply, hcall⟩ |
    ⟨first, id, keys, sequence, hcall, hcheck, hne, hphase, hlt, receipt, hreceipt, hstate⟩
  · exact hcall ▸ callSound_unchanged h fun _ _ => trivial
  · rw [hcall] at hformed ⊢
    refine ⟨h.addCallbacks hl hrows hcleared hphase hlt hcheck hne hformed hreceipt hstate,
      evolves_of_lastEvent ?_ ?_, fun _ _ => trivial⟩
    · simp [hstate]
    · simp [Closed, hstate]

/-- A publisher whose calls are in order makes its next call, and what is left is in order. -/
theorem callSound_publisher (h : t.Sound l) (hl : l.Sound) (now : Nat) {call : Call}
    (hp : Publisher.Sound l t.keys.state (call :: rest)) :
    CallSound l t (Publication.evalCall enc t now call) fun s =>
      Publisher.Sound l s (Publication.continuation call rest) := by
  cases hp with
  | opening e he =>
    have hcall := callSound_open enc h hl now he
    refine ⟨hcall.sound, hcall.evolves, fun _ _ => ?_⟩
    simpa [Publication.continuation, he, EventType.isTerminal] using Publisher.Sound.done
  | runEvent row e he =>
    have hcall := callSound_runEvent enc h hl now he
    refine ⟨hcall.sound, hcall.evolves, fun _ _ => ?_⟩
    simp only [Publication.continuation]
    split_ifs
    · exact .ending e
    · exact .done
  | predecessor row e rows hrows he hlatest =>
    have hcall := callSound_runEvent enc h hl now he
    refine ⟨hcall.sound, hcall.evolves, fun id hid => ?_⟩
    obtain ⟨hcancel, hterminal⟩ := hcall.reply id hid
    simp only [Publication.continuation]
    split_ifs with htype
    · exact .endingBefore e rows hrows (hterminal (he.eventType ▸ htype))
    · have htype' : row.eventType = .runCancelRequested :=
        (hl.runEvent_type he.mem).resolve_right (he.eventType ▸ htype)
      refine .batch rows hrows (.inr fun r hr hbefore => ?_)
      -- Nothing of the run lies between the predecessor and the batch.
      rcases hl.compare_runEvent he.mem hr with rfl | ⟨-, -, hend⟩ | ⟨hlt, -, -⟩
      · exact hcancel htype'
      · simp [htype', EventType.isTerminal] at hend
      · have := hlatest r hr hbefore
        omega
  | ending e =>
    have hcall := callSound_appendEnd enc h hl now e
    exact ⟨hcall.sound, hcall.evolves, fun _ _ => .done⟩
  | endingBefore e rows hrows hclosed =>
    have hcall := callSound_appendEnd enc h hl now e
    exact ⟨hcall.sound, hcall.evolves, fun _ _ =>
      .batch rows hrows (.inl (hcall.evolves.closed hclosed))⟩
  | batch rows hrows hcleared =>
    have hcall := callSound_callbacks enc h hl now hrows hcleared
    exact ⟨hcall.sound, hcall.evolves, fun _ _ => .done⟩

/-! ## Every run -/

structure Publication.Sound (s : Publication) : Prop where
  ledger : s.ledger.Sound
  transport : s.transport.Sound s.ledger
  publishers : ∀ p ∈ s.publishers, Publisher.Sound s.ledger s.transport.keys.state p

namespace Publication.Sound

variable {s : Publication}

theorem start (h : s.Sound) {p : Publisher}
    (hp : Publisher.Sound s.ledger s.transport.keys.state p) : (s.start p).Sound := by
  refine ⟨h.ledger, h.transport, fun q hq => ?_⟩
  rcases mem_append.mp hq with hq | hq
  · exact h.publishers q hq
  · exact mem_singleton.mp hq ▸ hp

theorem step (h : s.Sound) (label : PublicationLabel) : (s.step enc label).Sound := by
  cases label with
  | commit c =>
    unfold Publication.step
    dsimp only
    split
    · rename_i hc
      obtain ⟨hproper, hprecedes⟩ := hc
      exact ⟨h.ledger.append hproper hprecedes, h.transport.commit h.ledger hprecedes hproper,
        fun p hp => (h.publishers p hp).commit h.ledger hprecedes⟩
    · exact h
  | admitStream e =>
    unfold Publication.step
    dsimp only
    split
    · rename_i he
      exact h.start (.opening e he)
    · exact h
  | publishRunEvent =>
    unfold Publication.step
    dsimp only
    split
    · rename_i e he
      obtain ⟨row, hloaded, -, -⟩ := loadLatestRunEvent_eq_some h.ledger he
      exact h.start (.runEvent row e hloaded)
    · exact h
  | publishCallbackRows rows =>
    unfold Publication.step
    dsimp only
    split
    · rename_i hrows
      exact h.start (sound_publishCallbackRows h.ledger hrows)
    · exact h
  | call index now =>
    unfold Publication.step
    dsimp only
    split
    · rename_i call rest hp
      have hcall := callSound_publisher enc h.transport h.ledger now
        (h.publishers _ (mem_of_getElem? hp))
      have hmoved : Publication.Sound
          { s with transport := (Publication.evalCall enc s.transport now call).2 } :=
        ⟨h.ledger, hcall.sound, fun p hp => (h.publishers p hp).evolve hcall.evolves⟩
      split
      · rename_i id hid
        exact hmoved.start (hcall.reply id hid)
      · exact hmoved
    · exact h
  | trim count =>
    exact ⟨h.ledger, ⟨h.transport.formed, h.transport.stored, h.transport.ascending,
      h.transport.delivered, h.transport.overtaken⟩, h.publishers⟩

end Publication.Sound

theorem sound_publication (enc : Encoding) (labels : List PublicationLabel) :
    ((publication enc).run labels).Sound := by
  have hstart : (publication enc).start.Sound := by
    refine ⟨⟨by simp [publication], List.Pairwise.nil⟩, ⟨Formed.empty, ?_, List.Pairwise.nil,
      .inl rfl, ?_⟩, ?_⟩ <;> simp [publication, applicationEvents]
  exact Machine.invariant_reachable hstart (fun _ label h => h.step enc label) labels

theorem Stored.exists_row (h : Stored l s e) :
    ∃ c ∈ l, ∃ row ∈ c.rows, row.eventId = e.eventId ∧ row.sequence = e.sequence := by
  cases h with
  | callback rows hrows he _ => exact ⟨_, hrows, e, he, rfl, rfl⟩
  | runEvent row hrow _ _ =>
    exact ⟨_, hrow.mem, row, by simp [Commit.rows], hrow.eventId.symm, hrow.sequence.symm⟩

theorem Ledger.Sound.eventId_ne (hl : l.Sound) {d : Commit} {a b : Envelope} (hc : c ∈ l)
    (hd : d ∈ l) (ha : a ∈ c.rows) (hb : b ∈ d.rows) (hlt : a.sequence < b.sequence) :
    a.eventId ≠ b.eventId := by
  rcases hl.compare hc hd with rfl | hprecedes | hprecedes
  · let R : Envelope → Envelope → Prop := fun a b => a.eventId ≠ b.eventId
    have : Std.Symm R := ⟨fun _ _ h => h.symm⟩
    have hrows : c.rows.Pairwise R := (hl.proper c hc).2.1.imp And.right
    exact hrows.forall ha hb (by rintro rfl; exact lt_irrefl _ hlt)
  · exact (hprecedes.1 a ha b hb).2
  · have := (hprecedes.1 b hb a ha).1
    omega

theorem Transport.Sound.nodup_eventId (h : t.Sound l) (hl : l.Sound) :
    ((applicationEvents t.history).map Envelope.eventId).Nodup := by
  refine pairwise_map.mpr (h.ascending.imp_of_mem fun {a b} ha hb hlt => ?_)
  obtain ⟨c, hc, row, hrow, hid, hseq⟩ := (h.stored a ha).exists_row
  obtain ⟨d, hd, row', hrow', hid', hseq'⟩ := (h.stored b hb).exists_row
  rw [← hid, ← hid']
  exact hl.eventId_ne hc hd hrow hrow' (by omega)

/-- Whatever is appended to a stream, in whatever order and however often, its history has the form
`open, application events, terminal, end`. What the publishers append, delayed or repeated at any
call, is also stored at most once and in the order of its sequences. -/
theorem published_once_in_order (enc : Encoding) :
    (∀ labels : List TransportLabel, StreamForm ((transport enc).run labels).history) ∧
      ∀ labels : List PublicationLabel,
        let history := ((publication enc).run labels).transport.history
        StreamForm history ∧
          ((applicationEvents history).map Envelope.eventId).Nodup ∧
          (applicationEvents history).Pairwise fun a b => a.sequence < b.sequence := by
  refine ⟨fun labels => (formed_transport enc labels).streamForm, fun labels => ?_⟩
  have hs := sound_publication enc labels
  exact ⟨hs.transport.formed.streamForm, hs.transport.nodup_eventId hs.ledger,
    hs.transport.ascending⟩

/-! An application event appended by itself is compared with the last one only. -/

def sampleEnvelope (eventId : String) (eventType : EventType) (seq : Option Nat) : Envelope where
  eventId := eventId
  tenantScope := "scope"
  runId := "run_1"
  attemptId := "attempt_1"
  messageId := none
  seq := seq
  eventType := eventType
  streamIncarnation := 1
  causationEventId := none
  emittedAt := "2026-01-01T00:00:00Z"
  payload := .obj []
  source := []

def sampleEncoding : Encoding where
  fieldRules _ := true
  digest e := e.eventId
  batchDigest rows := String.join (rows.map Envelope.eventId)
  endEventId id := "end_" ++ id

theorem retried_append_stored_twice :
    let open₁ := sampleEnvelope "evt_open" .streamOpen none
    let first := sampleEnvelope "evt_a" .messageDelta (some 1)
    let second := sampleEnvelope "evt_b" .messageDelta (some 2)
    let history := ((transport sampleEncoding).run
      [.append 1 open₁, .append 2 first, .append 3 second, .append 4 first]).history
    history = [open₁, first, second, first] ∧
      ¬ ((applicationEvents history).map Envelope.eventId).Nodup ∧
      ¬ (applicationEvents history).Pairwise fun a b => a.sequence < b.sequence := by
  decide

end AiPlatform.Streaming
