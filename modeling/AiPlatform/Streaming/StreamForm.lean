import AiPlatform.Streaming.AppendScripts

/-!
# The form of a run stream

What the two scripts can do to a stream, whoever calls them: the phase in the state hash always says
which part of `open, application events, terminal, end` the history has reached.
-/
namespace AiPlatform.Streaming

open AiPlatform.Foundation

/-! ## What a call can do -/

/-- The request is answered from a receipt. -/
def Answered (s : StreamState) (r : AppendRequest) : Prop :=
  match r.transportType with
  | .streamOpen => s.phase ≠ none
  | .terminal => s.phase = some .terminal ∨ s.phase = some .ended
  | .streamEnd => s.phase = some .ended
  | .event _ => s.phase = some .opened ∧ s.lastEvent.map Receipt.eventId = some r.envelope.eventId

/-- The request is written. -/
def Permitted (s : StreamState) (r : AppendRequest) : Prop :=
  match r.transportType with
  | .streamOpen => s.phase = none
  | .terminal => s.phase = some .opened ∧ r.envelope.callbackSequence ≤ s.callbackSequence
  | .streamEnd => s.phase = some .terminal
  | .event type =>
    s.phase = some .opened ∧ s.lastEvent.map Receipt.eventId ≠ some r.envelope.eventId ∧
      (type = .runCancelRequested → r.envelope.callbackSequence ≤ s.callbackSequence)

variable {r : AppendRequest} {envelopes history : List Envelope}

theorem admitRequest_some {k : StreamKeys} {id : StreamId} (h : admitRequest r k = .ok (some id)) :
    Answered k.state r := by
  unfold admitRequest at h
  unfold Answered
  cases hr : r.transportType with
  | streamOpen =>
    simp only [hr] at h ⊢
    split_ifs at h with hreceipt hconflict
    · intro hnone
      simp [hnone] at hreceipt
    · cases h
  | terminal =>
    simp only [hr] at h ⊢
    split_ifs at h with hreceipt hmissing hphase
    · simpa using (Bool.and_eq_true_iff.mp hreceipt).1
    · cases h
  | streamEnd =>
    simp only [hr] at h ⊢
    split_ifs at h with hreceipt hphase
    · simpa using (Bool.and_eq_true_iff.mp hreceipt).1
    · cases h
  | event type =>
    simp only [hr] at h ⊢
    split_ifs at h with hphase hid hdigest
    · exact ⟨not_not.mp hphase, hid⟩
    · cases h

theorem admitRequest_none {k : StreamKeys} (h : admitRequest r k = .ok none)
    (hawaits : awaitsCallbacks r k = false) : Permitted k.state r := by
  unfold admitRequest at h
  unfold awaitsCallbacks at hawaits
  unfold Permitted
  cases hr : r.transportType with
  | streamOpen =>
    simp only [hr] at h ⊢
    split_ifs at h with hreceipt hconflict
    · cases h
    · simp only [Bool.or_eq_true, not_or, Option.isSome_iff_ne_none, not_not] at hconflict
      exact hconflict.1
  | terminal =>
    simp only [hr] at h hawaits ⊢
    split_ifs at h with hreceipt hmissing hphase
    · cases h
    · exact ⟨not_not.mp hphase, by simpa using hawaits⟩
  | streamEnd =>
    simp only [hr] at h ⊢
    split_ifs at h with hreceipt hphase
    · cases h
    · exact not_not.mp (not_or.mp hphase).1
  | event type =>
    simp only [hr] at h hawaits ⊢
    split_ifs at h with hphase hid hdigest
    · cases h
    · refine ⟨not_not.mp hphase, hid, ?_⟩
      rintro rfl
      simpa using hawaits

/-- The first script refuses, answers from a receipt, or writes one entry. -/
theorem appendWithTtl_cases (now : Nat) (r : AppendRequest) (k : StreamKeys) :
    (∃ e, appendWithTtl now r k = (.error e, k)) ∨
      (∃ id, appendWithTtl now r k = (.ok id, k) ∧ Answered k.state r) ∨
      ∃ id, appendWithTtl now r k = (.ok id, k.add now r) ∧ Permitted k.state r := by
  unfold appendWithTtl
  split
  · exact .inl ⟨_, rfl⟩
  split
  · exact .inl ⟨_, rfl⟩
  split
  · exact .inl ⟨_, rfl⟩
  split
  · exact .inl ⟨_, rfl⟩
  · rename_i hadmit
    exact .inr (.inl ⟨_, rfl, admitRequest_some hadmit⟩)
  · rename_i hadmit
    split
    · exact .inl ⟨_, rfl⟩
    · rename_i hawaits
      exact .inr (.inr ⟨_, rfl, admitRequest_none hadmit (by simpa using hawaits)⟩)

/-- The second script refuses, finds the batch delivered, or writes all of it. -/
theorem appendCallbackScript_cases (now sequence : Nat) (digest : String)
    (envelopes : List Envelope) (k : StreamKeys) :
    (∃ reply, appendCallbackScript now sequence digest envelopes k = (reply, k)) ∨
      ∃ id, appendCallbackScript now sequence digest envelopes k =
          (.ok id, ⟨addAll now k.stream envelopes,
            { k.state with callback := some ⟨sequence, digest, id⟩ }⟩) ∧
        k.state.phase = some .opened ∧ k.state.callbackSequence < sequence := by
  unfold appendCallbackScript
  split
  · exact .inl ⟨_, rfl⟩
  split
  · split
    · exact .inl ⟨_, rfl⟩
    · exact .inl ⟨_, rfl⟩
  split
  · exact .inl ⟨_, rfl⟩
  · rename_i hsequence hphase
    exact .inr ⟨_, rfl, not_not.mp hphase, not_le.mp hsequence⟩

theorem lastId_le_addAll (now : Nat) (envelopes : List Envelope) (s : AppendStream Envelope) :
    s.lastId ≤ (addAll now s envelopes).lastId := by
  induction envelopes generalizing s with
  | nil => exact le_rfl
  | cons e rest ih => exact (StreamId.lt_next s.lastId now).le.trans (ih (s.xadd now e))

theorem lastId_addAll_ne (now : Nat) (s : AppendStream Envelope) (h : envelopes ≠ []) :
    (addAll now s envelopes).lastId ≠ s.lastId := by
  cases envelopes with
  | nil => exact absurd rfl h
  | cons e rest =>
    exact ((StreamId.lt_next s.lastId now).trans_le (lastId_le_addAll now rest (s.xadd now e))).ne'

theorem checkCallbackBatch_eq_some {first : Envelope} {previous sequence : Nat}
    (h : checkCallbackBatch first previous envelopes = some sequence) :
    (∀ e ∈ envelopes, e.eventType.isControl = false ∧ e.eventType.isTerminal = false ∧
        previous < e.sequence ∧ e.sequence ≤ sequence) ∧
      previous ≤ sequence ∧ (envelopes ≠ [] → ∃ e ∈ envelopes, e.sequence = sequence) := by
  induction envelopes generalizing previous with
  | nil =>
    obtain rfl := Option.some.inj h
    simp
  | cons e rest ih =>
    simp only [checkCallbackBatch] at h
    cases hseq : e.seq with
    | none => simp [hseq] at h
    | some seq =>
      simp only [hseq] at h
      split_ifs at h with hinvalid
      obtain ⟨hrest, hle, hlast⟩ := ih h
      have hsequence : e.sequence = seq := by simp [Envelope.sequence, hseq]
      simp only [not_or, not_le, Bool.not_eq_true] at hinvalid
      obtain ⟨-, -, -, -, hlt, hcontrol, hterminal⟩ := hinvalid
      refine ⟨?_, by omega, fun _ => ?_⟩
      · intro a ha
        rcases List.mem_cons.mp ha with rfl | ha
        · exact ⟨hcontrol, hterminal, by omega, by omega⟩
        · obtain ⟨hacontrol, haterminal, hgt, hle'⟩ := hrest a ha
          exact ⟨hacontrol, haterminal, by omega, hle'⟩
      · by_cases hnil : rest = []
        · subst hnil
          exact ⟨e, List.mem_cons_self, hsequence.trans (Option.some.inj h)⟩
        · obtain ⟨a, ha, hasequence⟩ := hlast hnil
          exact ⟨a, List.mem_cons_of_mem _ ha, hasequence⟩

variable {enc : Encoding}

/-- A request of the bridge is for its own envelope, which passed the validation. -/
theorem canonicalRequest_eq_ok {e : Envelope} (h : canonicalRequest enc e = .ok r) :
    r.envelope = e ∧ e.validate enc.fieldRules = true ∧ e.eventType ≠ .streamHeartbeat ∧
      e.eventType ≠ .streamGap := by
  unfold canonicalRequest at h
  split at h
  · cases h
  rename_i hvalid
  split at h
  · cases h
  rename_i hcontrol
  have hfacts := And.intro (by simpa using hvalid : e.validate enc.fieldRules = true)
    (not_or.mp hcontrol)
  split at h
  · cases h
  split at h
  · split at h
    · cases h
    · obtain rfl := Except.ok.inj h
      exact ⟨rfl, hfacts⟩
  split at h
  · split at h
    · split at h
      · cases h
      · obtain rfl := Except.ok.inj h
        exact ⟨rfl, hfacts⟩
    · cases h
  · obtain rfl := Except.ok.inj h
    exact ⟨rfl, hfacts⟩

namespace Transport

theorem evalAppend_cases (t : Transport) (now : Nat) (r : AppendRequest) :
    (∃ e, t.evalAppend now r = (.error e, t)) ∨
      (∃ id, t.evalAppend now r = (.ok id, t) ∧ Answered t.keys.state r) ∨
      ∃ id, t.evalAppend now r = (.ok id, ⟨t.keys.add now r, t.history ++ [r.envelope]⟩) ∧
        Permitted t.keys.state r := by
  have hgrown : (t.keys.add now r).stream.lastId ≠ t.keys.stream.lastId :=
    (StreamId.lt_next _ _).ne'
  rcases appendWithTtl_cases now r t.keys with ⟨e, h⟩ | ⟨id, h, hr⟩ | ⟨id, h, hr⟩
  · exact .inl ⟨e, by simp [evalAppend, h]⟩
  · exact .inr (.inl ⟨id, by simp [evalAppend, h], hr⟩)
  · exact .inr (.inr ⟨id, by simp [evalAppend, h, hgrown], hr⟩)

theorem appendCallbackBatch_cases (enc : Encoding) (t : Transport) (now : Nat)
    (envelopes : List Envelope) :
    (∃ reply, t.appendCallbackBatch enc now envelopes = (reply, t)) ∨
      ∃ first id keys sequence, t.appendCallbackBatch enc now envelopes =
          (.ok id, ⟨keys, t.history ++ envelopes⟩) ∧
        checkCallbackBatch first 0 envelopes = some sequence ∧ envelopes ≠ [] ∧
        t.keys.state.phase = some .opened ∧ t.keys.state.callbackSequence < sequence ∧
        ∃ receipt, receipt.sequence = sequence ∧
          keys.state = { t.keys.state with callback := some receipt } := by
  cases envelopes with
  | nil => exact .inl ⟨_, rfl⟩
  | cons first rest =>
    unfold appendCallbackBatch
    dsimp only
    split
    · exact .inl ⟨_, rfl⟩
    split
    · exact .inl ⟨_, rfl⟩
    · rename_i sequence hcheck
      rcases appendCallbackScript_cases now sequence (enc.batchDigest (first :: rest))
          (first :: rest) t.keys with ⟨reply, h⟩ | ⟨id, h, hphase, hlt⟩
      · exact .inl ⟨reply, by simp [h]⟩
      · have hgrown := lastId_addAll_ne now t.keys.stream (List.cons_ne_nil first rest)
        let receipt : CallbackReceipt := ⟨sequence, enc.batchDigest (first :: rest), id⟩
        exact .inr ⟨first, id, ⟨addAll now t.keys.stream (first :: rest),
          { t.keys.state with callback := some receipt }⟩, sequence,
          by simp only [h, if_neg hgrown, receipt], hcheck, List.cons_ne_nil _ _, hphase, hlt,
          receipt, rfl, rfl⟩

end Transport

/-! ## The form -/

/-- An application event that does not end the run. -/
def EventType.isOngoing (type : EventType) : Bool := !type.isControl && !type.isTerminal

/-- The part of the form a phase stands for. -/
inductive Formed : Option StreamPhase → List Envelope → Prop
  | empty : Formed none []
  | opened (first : Envelope) (events : List Envelope) : first.eventType = .streamOpen →
      (∀ e ∈ events, e.eventType.isOngoing) → Formed (some .opened) (first :: events)
  | terminal (first : Envelope) (events : List Envelope) (terminal : Envelope) :
      first.eventType = .streamOpen → (∀ e ∈ events, e.eventType.isOngoing) →
      terminal.eventType.isTerminal → Formed (some .terminal) (first :: (events ++ [terminal]))
  | ended (first : Envelope) (events : List Envelope) (terminal last : Envelope) :
      first.eventType = .streamOpen → (∀ e ∈ events, e.eventType.isOngoing) →
      terminal.eventType.isTerminal → last.eventType = .streamEnd →
      Formed (some .ended) (first :: (events ++ [terminal, last]))

/-- `open, application events, optional terminal, optional end`. -/
def StreamForm (history : List Envelope) : Prop :=
  history = [] ∨ ∃ first events terminal last,
    history = first :: (events ++ terminal.toList ++ last.toList) ∧
      first.eventType = .streamOpen ∧ (∀ e ∈ events, e.eventType.isOngoing) ∧
      (∀ t, terminal = some t → t.eventType.isTerminal) ∧
      (∀ e, last = some e → e.eventType = .streamEnd ∧ terminal.isSome)

theorem Formed.streamForm {phase : Option StreamPhase} (h : Formed phase history) :
    StreamForm history := by
  cases h with
  | empty => exact .inl rfl
  | opened first events hopen hevents =>
    exact .inr ⟨first, events, none, none, by simp, hopen, hevents, by simp, by simp⟩
  | terminal first events t hopen hevents ht =>
    exact .inr ⟨first, events, some t, none, by simp, hopen, hevents, by simpa using ht, by simp⟩
  | ended first events t last hopen hevents ht hlast =>
    exact .inr ⟨first, events, some t, some last, by simp, hopen, hevents, by simpa using ht,
      by simpa using hlast⟩

theorem Formed.snoc_events (h : Formed (some .opened) history)
    (he : ∀ e ∈ envelopes, e.eventType.isOngoing) :
    Formed (some .opened) (history ++ envelopes) := by
  cases h with
  | opened first events hopen hevents =>
    refine .opened first (events ++ envelopes) hopen fun e hmem => ?_
    exact (List.mem_append.mp hmem).elim (hevents e) (he e)

theorem Formed.ongoing (h : Formed (some .opened) history) :
    ∀ e ∈ history, e.eventType.isControl = false → e.eventType.isTerminal = false := by
  cases h with
  | opened first events hopen hevents =>
    intro e he hcontrol
    rcases List.mem_cons.mp he with rfl | he
    · rw [hopen] at hcontrol
      cases hcontrol
    · simpa [EventType.isOngoing, hcontrol] using hevents e he

theorem transportType_cases (type : EventType) :
    (type = .streamOpen ∧ type.transportType = .streamOpen) ∨
      (type.isTerminal = true ∧ type.transportType = .terminal) ∨
      (type = .streamEnd ∧ type.transportType = .streamEnd) ∨
      (type.transportType = .event type ∧
        (type ≠ .streamHeartbeat → type ≠ .streamGap → type.isOngoing = true)) := by
  cases type <;> decide

namespace Transport

def Formed (t : Transport) : Prop := Streaming.Formed t.keys.state.phase t.history

variable {t : Transport}

theorem formed_add (h : t.Formed) (now : Nat) {r : AppendRequest} (hr : Permitted t.keys.state r)
    (hheartbeat : r.envelope.eventType ≠ .streamHeartbeat)
    (hgap : r.envelope.eventType ≠ .streamGap) :
    Formed ⟨t.keys.add now r, t.history ++ [r.envelope]⟩ := by
  obtain ⟨keys, history⟩ := t
  unfold Formed at h ⊢
  unfold Permitted AppendRequest.transportType at hr
  simp only [StreamKeys.add, StreamState.record, AppendRequest.transportType]
  rcases transportType_cases r.envelope.eventType with
    ⟨htype, htransport⟩ | ⟨htype, htransport⟩ | ⟨htype, htransport⟩ | ⟨htransport, htype⟩
  · simp only [htransport] at hr ⊢
    rw [hr] at h
    cases h
    exact .opened r.envelope [] htype (by simp)
  · simp only [htransport] at hr ⊢
    rw [hr.1] at h
    cases h with
    | opened first events hopen hevents =>
      exact .terminal first events r.envelope hopen hevents htype
  · simp only [htransport] at hr ⊢
    rw [hr] at h
    cases h with
    | terminal first events terminal hopen hevents hterminal =>
      have := Formed.ended first events terminal r.envelope hopen hevents hterminal htype
      simpa using this
  · simp only [htransport] at hr ⊢
    rw [hr.1] at h ⊢
    exact h.snoc_events (by simpa using htype hheartbeat hgap)

theorem Formed.evalAppend (h : t.Formed) (now : Nat) {r : AppendRequest}
    (hheartbeat : r.envelope.eventType ≠ .streamHeartbeat)
    (hgap : r.envelope.eventType ≠ .streamGap) : (t.evalAppend now r).2.Formed := by
  rcases t.evalAppend_cases now r with ⟨e, hcall⟩ | ⟨id, hcall, -⟩ | ⟨id, hcall, hr⟩
  · rwa [hcall]
  · rwa [hcall]
  · rw [hcall]
    exact formed_add h now hr hheartbeat hgap

theorem Formed.append (enc : Encoding) (h : t.Formed) (now : Nat) (e : Envelope) :
    (t.append enc now e).2.Formed := by
  unfold Transport.append
  split
  · exact h
  · rename_i r hr
    obtain ⟨rfl, -, hheartbeat, hgap⟩ := canonicalRequest_eq_ok hr
    exact h.evalAppend now hheartbeat hgap

theorem Formed.appendEnd (enc : Encoding) (h : t.Formed) (now : Nat) (terminal : Envelope) :
    (t.appendEnd enc now terminal).2.Formed := by
  unfold Transport.appendEnd
  split
  · exact h
  · exact h.evalAppend now (by simp [request, endOf]) (by simp [request, endOf])

theorem Formed.appendCallbackBatch (enc : Encoding) (h : t.Formed) (now : Nat)
    (envelopes : List Envelope) : (t.appendCallbackBatch enc now envelopes).2.Formed := by
  rcases t.appendCallbackBatch_cases enc now envelopes with ⟨reply, hcall⟩ |
    ⟨first, id, keys, sequence, hcall, hcheck, -, hphase, -, receipt, -, hstate⟩
  · rwa [hcall]
  · rw [hcall]
    unfold Formed at h ⊢
    simp only [hstate, hphase] at h ⊢
    refine h.snoc_events fun e he => ?_
    obtain ⟨hcontrol, hterminal, -, -⟩ := (checkCallbackBatch_eq_some hcheck).1 e he
    simp [EventType.isOngoing, hcontrol, hterminal]

theorem Formed.trim (h : t.Formed) (count : Nat) : (t.trim count).Formed := h

end Transport

/-! ## Any calls in any order -/

inductive TransportLabel where
  | append (now : Nat) (e : Envelope)
  | appendEnd (now : Nat) (terminal : Envelope)
  | appendCallbackBatch (now : Nat) (envelopes : List Envelope)
  | trim (count : Nat)

/-- A stream on which anything may be appended. -/
def transport (enc : Encoding) : Machine Transport TransportLabel where
  start := {}
  step t
    | .append now e => (t.append enc now e).2
    | .appendEnd now terminal => (t.appendEnd enc now terminal).2
    | .appendCallbackBatch now envelopes => (t.appendCallbackBatch enc now envelopes).2
    | .trim count => t.trim count

theorem formed_transport (enc : Encoding) (labels : List TransportLabel) :
    ((transport enc).run labels).Formed := by
  have hstart : (transport enc).start.Formed := Formed.empty
  refine Machine.invariant_reachable hstart ?_ labels
  intro t label h
  cases label with
  | append now e => exact h.append enc now e
  | appendEnd now terminal => exact h.appendEnd enc now terminal
  | appendCallbackBatch now envelopes => exact h.appendCallbackBatch enc now envelopes
  | trim count => exact h.trim count

/-! ## After the end -/

theorem Transport.evalAppend_of_ended {t : Transport} (h : t.keys.state.phase = some .ended)
    (now : Nat) (r : AppendRequest) : (t.evalAppend now r).2 = t := by
  rcases t.evalAppend_cases now r with ⟨e, hcall⟩ | ⟨id, hcall, -⟩ | ⟨id, -, hpermitted⟩
  · rw [hcall]
  · rw [hcall]
  · unfold Permitted at hpermitted
    split at hpermitted <;> simp [h] at hpermitted

theorem step_of_ended (enc : Encoding) {t : Transport} (h : t.keys.state.phase = some .ended)
    (label : TransportLabel) : ((transport enc).step t label).history = t.history ∧
      ((transport enc).step t label).keys.state.phase = some .ended := by
  cases label with
  | append now e =>
    dsimp only [transport, Transport.append]
    split
    · exact ⟨rfl, h⟩
    · rw [Transport.evalAppend_of_ended h]
      exact ⟨rfl, h⟩
  | appendEnd now terminal =>
    dsimp only [transport, Transport.appendEnd]
    split
    · exact ⟨rfl, h⟩
    · rw [Transport.evalAppend_of_ended h]
      exact ⟨rfl, h⟩
  | appendCallbackBatch now envelopes =>
    dsimp only [transport]
    rcases t.appendCallbackBatch_cases enc now envelopes with ⟨reply, hcall⟩ |
      ⟨_, _, _, _, -, -, -, hphase, -⟩
    · rw [hcall]
      exact ⟨rfl, h⟩
    · simp [h] at hphase
  | trim count => exact ⟨rfl, h⟩

theorem Formed.ended_of_mem {phase : Option StreamPhase} (h : Formed phase history) {e : Envelope}
    (he : e ∈ history) (hend : e.eventType = .streamEnd) : phase = some .ended := by
  cases h <;> grind [EventType.isOngoing, EventType.isTerminal, EventType.isControl]

theorem runFrom_of_ended (enc : Encoding) {t : Transport} (h : t.keys.state.phase = some .ended)
    (later : List TransportLabel) : ((transport enc).runFrom t later).history = t.history := by
  induction later generalizing t with
  | nil => rfl
  | cons label later ih =>
    obtain ⟨hhistory, hended⟩ := step_of_ended enc h label
    exact (ih hended).trans hhistory

/-- While its keys live, a stream has its form, and with a `stream.end` it never grows again. -/
theorem ended_stream_is_final (enc : Encoding) (labels : List TransportLabel) :
    let history := ((transport enc).run labels).history
    StreamForm history ∧ ((∀ e ∈ history, e.eventType ≠ .streamEnd) ∨
      ∀ later, ((transport enc).run (labels ++ later)).history = history) := by
  have hformed := formed_transport enc labels
  refine ⟨hformed.streamForm, ?_⟩
  by_cases hphase : ((transport enc).run labels).keys.state.phase = some .ended
  · refine .inr fun later => ?_
    rw [Machine.run_append, runFrom_of_ended enc hphase]
  · exact .inl fun e he hend => hphase (hformed.ended_of_mem he hend)

end AiPlatform.Streaming
