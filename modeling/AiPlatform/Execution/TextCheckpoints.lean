import AiPlatform.Foundation.CodePoints
import AiPlatform.Foundation.Runs
import Mathlib.Data.List.Induction

/-!
# Checkpoints of a model's text

`ModelTextCheckpoint` watches the events of one model response and hashes its text deltas. Its last
receipt is complete exactly when, up to the first `message_stop`, the events that concern it are one
valid `message_start` followed by valid text deltas within the limits.
-/
namespace AiPlatform.Execution.TextCheckpoints

open AiPlatform.Foundation List

/-- A Python value, as far as the checkpoint looks into it. -/
inductive Value where
  | text (value : RawText)
  | dict (members : List (String × Value))
  | other

/-- `value == name` -/
def isNamed (value : Option Value) (name : String) : Bool :=
  match value with
  | some (.text value) => value == rawText name
  | _ => false

inductive Coverage where
  | textDelta
  | missingCallIdentity
  | invalidEvent
  | invalidText
  | limit
  | oversizedEvent
  | oversizedLine
  | unfinishedEvent
  | streamEnd
  deriving DecidableEq, Repr

structure Receipt where
  callRef : Option String
  events : Nat
  chars : Nat
  sha256 : String
  final : Bool
  complete : Bool
  coverage : Coverage
  deriving DecidableEq

/-- What the checkpoint is created with; `reference` is the keyed hash of a call's identity. -/
structure Config where
  sha : Sha256
  runId : String
  attemptId : String
  reference : String → String → Bytes → String

def Config.bound (cfg : Config) : Bool := cfg.runId ≠ "" && cfg.attemptId ≠ ""

/-- The state; `fed` is what the hash was updated with, `receipts` what was recorded. -/
structure Checkpoint where
  fed : Bytes
  callRef : Option String
  events : Nat
  chars : Nat
  coverage : Coverage
  started : Bool
  finished : Bool
  observing : Bool
  receipts : List Receipt

def Checkpoint.initial : Checkpoint :=
  ⟨[], none, 0, 0, .textDelta, false, false, true, []⟩

def maxEvents : Nat := 10000000

def maxChars : Nat := 100000000

/-- `partial` -/
def Checkpoint.markPartial (s : Checkpoint) (coverage : Coverage) : Checkpoint :=
  if s.coverage = .textDelta ∨ s.coverage = .missingCallIdentity ∧ coverage ≠ .streamEnd then
    { s with coverage := coverage }
  else s

section Accept

variable (cfg : Config)

/-- `_emit` -/
def Checkpoint.emit (s : Checkpoint) (final complete : Bool) : Checkpoint :=
  { s with receipts := s.receipts ++
      [⟨s.callRef, s.events, s.chars, toHex (cfg.sha.digest s.fed), final, complete, s.coverage⟩] }

def Checkpoint.finish (s : Checkpoint) (complete : Bool) : Checkpoint :=
  if s.finished then s
  else
    let s :=
      if !complete then s.markPartial .streamEnd
      else if !s.started then s.markPartial .missingCallIdentity
      else s
    let s := { s with finished := true }
    s.emit cfg true (complete && s.coverage == .textDelta)

/-- The identity of a message that can be hashed. -/
def callIdentity (message : Option Value) : Option (List Char) :=
  match message with
  | some (.dict members) =>
    match members.lookup "id" with
    | some (.text identity) =>
      if 0 < identity.length ∧ identity.length ≤ 1024 ∧ cfg.bound then scalars identity else none
    | _ => none
  | _ => none

/-- The branch for `message_start`. -/
def Checkpoint.acceptStart (s : Checkpoint) (message : Option Value) : Checkpoint :=
  if s.started || s.events ≠ 0 then
    { s.markPartial .invalidEvent with callRef := none, observing := false }
  else
    let s := { s with started := true }
    match callIdentity cfg message with
    | some identity =>
        { s with callRef := some (cfg.reference cfg.runId cfg.attemptId (utf8 identity)) }
    | none => s.markPartial .missingCallIdentity

/-- The receipts before the last are written after the first delta and at powers of two. -/
def Checkpoint.isDue (s : Checkpoint) : Bool :=
  s.events = 1 || (128 ≤ s.events && s.events &&& (s.events - 1) = 0)

/-- One more delta is hashed. -/
def Checkpoint.feed (s : Checkpoint) (chars : List Char) (length : Nat) : Checkpoint :=
  { s with fed := s.fed ++ utf8 chars, events := s.events + 1, chars := s.chars + length }

/-- A text is hashed if it can be encoded and fits the limits. -/
def Checkpoint.hashText (s : Checkpoint) (text : RawText) : Checkpoint :=
  match scalars text with
  | none => { s.markPartial .invalidText with observing := false }
  | some chars =>
    if maxEvents ≤ s.events ∨ maxChars < s.chars + text.length then
      { s with coverage := .limit, observing := false }
    else
      let s := s.feed chars text.length
      if s.isDue then s.emit cfg false false else s

/-- The text of a delta, once it is noted whether the message has started. -/
def Checkpoint.observeText (s : Checkpoint) : Option Value → Checkpoint
  | some (.text text) => if s.observing then s.hashText cfg text else s
  | _ => s.markPartial .invalidText

/-- The branch for a text delta. -/
def Checkpoint.acceptText (s : Checkpoint) (text : Option Value) : Checkpoint :=
  if s.started then s.observeText cfg text
  else (s.markPartial .missingCallIdentity).observeText cfg text

def Checkpoint.accept (s : Checkpoint) (event : Value) : Checkpoint :=
  match event with
  | .dict members =>
    if s.finished then s
    else
      let kind := members.lookup "type"
      if isNamed kind "message_start" then s.acceptStart cfg (members.lookup "message")
      else if isNamed kind "message_stop" then s.finish cfg true
      else if isNamed kind "content_block_delta" then
        match members.lookup "delta" with
        | some (.dict delta) =>
          if isNamed (delta.lookup "type") "text_delta" then s.acceptText cfg (delta.lookup "text")
          else s
        | _ => s
      else s
  | _ => s

def checkpointMachine : Machine Checkpoint Value := ⟨.initial, Checkpoint.accept cfg⟩

end Accept

/-! ## The events that matter -/

inductive Relevant where
  | start (message : Option Value)
  | delta (text : Option Value)
  | stop

/-- What an event is to the checkpoint, if anything. -/
def relevant (event : Value) : Option Relevant :=
  match event with
  | .dict members =>
    let kind := members.lookup "type"
    if isNamed kind "message_start" then some (.start (members.lookup "message"))
    else if isNamed kind "message_stop" then some .stop
    else if isNamed kind "content_block_delta" then
      match members.lookup "delta" with
      | some (.dict delta) =>
        if isNamed (delta.lookup "type") "text_delta" then some (.delta (delta.lookup "text"))
          else none
      | _ => none
    else none
  | _ => none

def isStop (event : Value) : Bool :=
  match relevant event with
  | some .stop => true
  | _ => false

def Checkpoint.react (cfg : Config) (s : Checkpoint) : Option Relevant → Checkpoint
  | some (.start message) => s.acceptStart cfg message
  | some (.delta text) => s.acceptText cfg text
  | some .stop => s.finish cfg true
  | none => s

theorem Checkpoint.accept_eq (cfg : Config) (s : Checkpoint) (event : Value) :
    s.accept cfg event = if s.finished then s else s.react cfg (relevant event) := by
  unfold Checkpoint.accept relevant
  cases event with
  | dict members =>
    dsimp only
    split_ifs
    all_goals first | rfl | skip
    split
    · split_ifs <;> rfl
    · rfl
  | text value => simp [Checkpoint.react]
  | other => simp [Checkpoint.react]

/-- One valid `message_start` and then the given valid texts, within the limits. -/
structure Message (cfg : Config) (seen : List Relevant) (texts : List RawText) : Prop where
  shape : ∃ message, (callIdentity cfg message).isSome = true ∧
    seen = .start message :: texts.map fun text => .delta (some (.text text))
  scalars_isSome : ∀ text ∈ texts, (scalars text).isSome = true
  events_le : texts.length ≤ maxEvents
  chars_le : texts.flatten.length ≤ maxChars

section Message

variable {cfg : Config} {seen : List Relevant} {texts : List RawText} {r : Relevant}

theorem Message.ne_nil (h : Message cfg seen texts) : seen ≠ [] := by
  obtain ⟨message, -, rfl⟩ := h.shape
  exact cons_ne_nil _ _

/-- The last event of a message that goes on is a valid text. -/
theorem Message.of_concat (hne : seen ≠ []) (h : Message cfg (seen ++ [r]) texts) :
    ∃ before text, texts = before ++ [text] ∧ r = .delta (some (.text text)) ∧
      Message cfg seen before := by
  obtain ⟨message, hmessage, hseen⟩ := h.shape
  obtain ⟨first, rest, rfl⟩ := exists_cons_of_ne_nil hne
  rw [cons_append, List.cons.injEq] at hseen
  obtain ⟨rfl, hrest⟩ := hseen
  rcases eq_nil_or_concat texts with rfl | ⟨before, text, rfl⟩
  · simp at hrest
  · rw [concat_eq_append] at h hrest ⊢
    rw [map_append, map_singleton] at hrest
    obtain ⟨hrest, hr⟩ := append_inj' hrest rfl
    refine ⟨before, text, rfl, (List.cons.inj hr).1, ⟨message, hmessage, by rw [hrest]⟩, ?_, ?_, ?_⟩
    · exact fun t ht => h.scalars_isSome t (mem_append_left _ ht)
    · have := h.events_le
      rw [length_append] at this
      omega
    · have := h.chars_le
      rw [flatten_append, length_append] at this
      omega

theorem Message.concat (h : Message cfg seen texts) {text : RawText}
    (htext : (scalars text).isSome = true) (hevents : texts.length < maxEvents)
    (hchars : texts.flatten.length + text.length ≤ maxChars) :
    Message cfg (seen ++ [.delta (some (.text text))]) (texts ++ [text]) := by
  obtain ⟨message, hmessage, rfl⟩ := h.shape
  refine ⟨⟨message, hmessage, by simp⟩, ?_, ?_, ?_⟩
  · exact forall_mem_append.mpr ⟨h.scalars_isSome, forall_mem_singleton.mpr htext⟩
  · rw [length_append, length_singleton]
    omega
  · rw [flatten_append, length_append, flatten_singleton]
    exact hchars

theorem Message.texts_unique {texts' : List RawText} (h : Message cfg seen texts)
    (h' : Message cfg seen texts') : texts = texts' := by
  obtain ⟨message, -, rfl⟩ := h.shape
  obtain ⟨message', -, heq⟩ := h'.shape
  refine map_injective_iff.mpr (fun a b hab => ?_) (List.cons.inj heq).2
  simpa using hab

end Message

/-! ## What the checkpoint has seen -/

/-- The texts that were hashed. -/
structure Hashed (s : Checkpoint) (texts : List RawText) : Prop where
  observing : s.observing = true
  events : s.events = texts.length
  chars : s.chars = texts.flatten.length
  fed : ∃ chars, scalars texts.flatten = some chars ∧ s.fed = utf8 chars

/-- Before a stop, the coverage tells whether the events so far are a message or nothing. -/
structure Observed (cfg : Config) (s : Checkpoint) (seen : List Relevant) : Prop where
  unfinished : s.finished = false
  receipts : ∀ receipt ∈ s.receipts, receipt.final = false
  clean : s.coverage = .textDelta →
    (seen = [] ∧ s.started = false ∧ Hashed s []) ∨
      ∃ texts, Message cfg seen texts ∧ s.started = true ∧ Hashed s texts
  marked : s.coverage ≠ .textDelta → seen ≠ [] ∧ ∀ texts, ¬ Message cfg seen texts

theorem observed_initial (cfg : Config) : Observed cfg .initial [] :=
  ⟨rfl, nofun, fun _ => .inl ⟨rfl, rfl, rfl, rfl, rfl, [], rfl, rfl⟩, fun h => absurd rfl h⟩

/-- What no event before a stop does: finish, record a last receipt, or take back a mark. -/
structure Later (s s' : Checkpoint) : Prop where
  finished : s'.finished = s.finished
  receipts : ∀ receipt ∈ s'.receipts, receipt ∈ s.receipts ∨ receipt.final = false
  marked : s.coverage ≠ .textDelta → s'.coverage ≠ .textDelta

section Later

variable {s s' s'' : Checkpoint}

theorem Later.refl (s : Checkpoint) : Later s s :=
  ⟨rfl, fun _ h => .inl h, fun h => h⟩

theorem Later.trans (h : Later s s') (h' : Later s' s'') : Later s s'' where
  finished := h'.finished.trans h.finished
  receipts receipt hr := (h'.receipts receipt hr).elim (h.receipts receipt) .inr
  marked hs := h'.marked (h.marked hs)

variable (s) (cfg : Config)

theorem markPartial_coverage_ne {coverage : Coverage} (h : coverage ≠ .textDelta) :
    (s.markPartial coverage).coverage ≠ .textDelta := by
  unfold Checkpoint.markPartial
  split_ifs with hs
  · exact h
  · exact fun heq => hs (.inl heq)

theorem later_markPartial {coverage : Coverage} (h : coverage ≠ .textDelta) :
    Later s (s.markPartial coverage) := by
  refine ⟨?_, ?_, fun _ => markPartial_coverage_ne s h⟩
  all_goals
    unfold Checkpoint.markPartial
    split_ifs
  · rfl
  · rfl
  · exact fun _ hr => .inl hr
  · exact fun _ hr => .inl hr

theorem later_acceptStart (message : Option Value) : Later s (s.acceptStart cfg message) := by
  unfold Checkpoint.acceptStart
  split_ifs
  · have hlater : Later s (s.markPartial .invalidEvent) := later_markPartial s (by decide)
    exact ⟨hlater.finished, hlater.receipts, hlater.marked⟩
  · have hstart : Later s { s with started := true } := ⟨rfl, fun _ h => .inl h, fun h => h⟩
    dsimp only
    split
    · exact ⟨rfl, fun _ h => .inl h, fun h => h⟩
    · exact hstart.trans (later_markPartial _ (by decide))

theorem later_emit : Later s (s.emit cfg false false) := by
  refine ⟨rfl, fun receipt hr => ?_, fun h => h⟩
  rcases mem_append.mp hr with hr | hr
  · exact .inl hr
  · rw [mem_singleton.mp hr]
    exact .inr rfl

theorem later_hashText (text : RawText) : Later s (s.hashText cfg text) := by
  unfold Checkpoint.hashText
  split
  · have hlater : Later s (s.markPartial .invalidText) := later_markPartial s (by decide)
    exact ⟨hlater.finished, hlater.receipts, hlater.marked⟩
  · rename_i chars _
    have hfeed : Later s (s.feed chars text.length) := ⟨rfl, fun _ h => .inl h, fun h => h⟩
    dsimp only
    split_ifs
    · exact ⟨rfl, fun _ h => .inl h, fun _ => Coverage.noConfusion⟩
    · exact hfeed.trans (later_emit _ cfg)
    · exact hfeed

theorem later_observeText (text : Option Value) : Later s (s.observeText cfg text) := by
  unfold Checkpoint.observeText
  split
  · split_ifs
    · exact later_hashText s cfg _
    · exact .refl s
  · exact later_markPartial s (by decide)

theorem later_acceptText (text : Option Value) : Later s (s.acceptText cfg text) := by
  unfold Checkpoint.acceptText
  split_ifs
  · exact later_observeText s cfg text
  · exact (later_markPartial s (by decide)).trans (later_observeText _ cfg text)

end Later

/-- An event that leaves a mark, after which the events are no message. -/
theorem Observed.mark {cfg : Config} {s s' : Checkpoint} {seen : List Relevant} {r : Relevant}
    (h : Observed cfg s seen) (hlater : Later s s') (hmark : s'.coverage ≠ .textDelta)
    (hmessage : ∀ texts, ¬ Message cfg (seen ++ [r]) texts) : Observed cfg s' (seen ++ [r]) where
  unfinished := hlater.finished.trans h.unfinished
  receipts receipt hr := (hlater.receipts receipt hr).elim (h.receipts receipt) fun hf => hf
  clean hclean := absurd hclean hmark
  marked _ := ⟨by simp, hmessage⟩

/-- A mark stays. -/
theorem Observed.marked_concat {cfg : Config} {s s' : Checkpoint}
    {seen : List Relevant} {r : Relevant}
    (h : Observed cfg s seen) (hlater : Later s s') (hmark : s.coverage ≠ .textDelta) :
    Observed cfg s' (seen ++ [r]) := by
  refine h.mark hlater (hlater.marked hmark) fun texts hmessage => ?_
  obtain ⟨hne, hnot⟩ := h.marked hmark
  obtain ⟨before, -, -, -, hbefore⟩ := Message.of_concat hne hmessage
  exact hnot before hbefore

section Step

variable {cfg : Config} {s : Checkpoint} {seen : List Relevant}

theorem Observed.start (h : Observed cfg s seen) (message : Option Value) :
    Observed cfg (s.acceptStart cfg message) (seen ++ [.start message]) := by
  have hlater := later_acceptStart s cfg message
  by_cases hclean : s.coverage = .textDelta
  swap
  · exact h.marked_concat hlater hclean
  rcases h.clean hclean with ⟨rfl, hstarted, hhashed⟩ | ⟨texts, hmessage, hstarted, hhashed⟩
  · have hzero : s.events = 0 := hhashed.events
    cases hidentity : callIdentity cfg message with
    | some identity =>
      have heq : s.acceptStart cfg message = { s with
          started := true
          callRef := some (cfg.reference cfg.runId cfg.attemptId (utf8 identity)) } := by
        simp [Checkpoint.acceptStart, hstarted, hzero, hidentity]
      have hmessage : Message cfg [.start message] [] :=
        ⟨⟨message, by rw [hidentity]; rfl, rfl⟩, nofun, Nat.zero_le _, Nat.zero_le _⟩
      rw [heq]
      refine ⟨h.unfinished, h.receipts, fun _ => .inr ⟨[], hmessage, rfl, ?_⟩,
        fun hne => absurd hclean hne⟩
      exact ⟨hhashed.observing, hhashed.events, hhashed.chars, hhashed.fed⟩
    | none =>
      refine h.mark hlater ?_ fun texts hmessage => ?_
      · simp only [Checkpoint.acceptStart, hstarted, hzero, hidentity]
        exact markPartial_coverage_ne _ (by decide)
      · obtain ⟨message', hmessage', heq⟩ := hmessage.shape
        obtain rfl : message = message' := by simpa using (List.cons.inj heq).1
        rw [hidentity] at hmessage'
        cases hmessage'
  · -- a second start
    refine h.mark hlater ?_ fun texts' hmessage' => ?_
    · unfold Checkpoint.acceptStart
      rw [hstarted, Bool.true_or, if_pos rfl]
      exact markPartial_coverage_ne s (by decide)
    · obtain ⟨_, _, -, hr, -⟩ := Message.of_concat hmessage.ne_nil hmessage'
      cases hr

/-- A text after the start of a message. -/
theorem Observed.hash (h : Observed cfg s seen)
    {texts : List RawText} (hmessage : Message cfg seen texts)
    (hstarted : s.started = true) (hhashed : Hashed s texts) (hclean : s.coverage = .textDelta)
    (text : RawText) : Observed cfg (s.hashText cfg text)
    (seen ++ [.delta (some (.text text))]) := by
  have hlater := later_hashText s cfg text
  have hlast : ∀ texts', Message cfg (seen ++ [.delta (some (.text text))]) texts' →
      texts' = texts ++ [text] := by
    intro texts' hmessage'
    obtain ⟨before, text', rfl, hr, hbefore⟩ := Message.of_concat hmessage.ne_nil hmessage'
    obtain rfl : text = text' := by simpa using hr
    rw [hbefore.texts_unique hmessage]
  cases hscalars : scalars text with
  | none =>
    refine h.mark hlater ?_ fun texts' hmessage' => ?_
    · simp only [Checkpoint.hashText, hscalars]
      exact markPartial_coverage_ne s (by decide)
    · have hmem : text ∈ texts' := by simp [hlast texts' hmessage']
      have hsome := hmessage'.scalars_isSome text hmem
      rw [hscalars] at hsome
      cases hsome
  | some chars =>
    by_cases hlimit : maxEvents ≤ s.events ∨ maxChars < s.chars + text.length
    · refine h.mark hlater ?_ fun texts' hmessage' => ?_
      · simp only [Checkpoint.hashText, hscalars, if_pos hlimit]
        exact Coverage.noConfusion
      · have hevents := hmessage'.events_le
        have hchars := hmessage'.chars_le
        rw [hlast texts' hmessage', length_append, ← hhashed.events] at hevents
        rw [hlast texts' hmessage', flatten_append, length_append, flatten_singleton,
          ← hhashed.chars] at hchars
        simp only [length_singleton] at hevents
        omega
    · obtain ⟨before, hbefore, hfed⟩ := hhashed.fed
      have hmessage' : Message cfg (seen ++ [.delta (some (.text text))]) (texts ++ [text]) := by
        refine hmessage.concat (by rw [hscalars]; rfl) ?_ ?_
        · rw [← hhashed.events]
          omega
        · rw [← hhashed.chars]
          omega
      have hfeed : Hashed (s.feed chars text.length) (texts ++ [text]) := by
        refine ⟨hhashed.observing, ?_, ?_, before ++ chars, ?_, ?_⟩
        · simp [Checkpoint.feed, hhashed.events]
        · simp [Checkpoint.feed, hhashed.chars]
        · rw [flatten_append, flatten_singleton]
          exact scalars_append hbefore hscalars
        · rw [utf8_append, ← hfed]
          rfl
      have hstate : (s.hashText cfg text).coverage = s.coverage ∧
          (s.hashText cfg text).started = s.started ∧
            Hashed (s.hashText cfg text) (texts ++ [text]) := by
        simp only [Checkpoint.hashText, hscalars, if_neg hlimit]
        split_ifs
        · exact ⟨rfl, rfl, hfeed.observing, hfeed.events, hfeed.chars, hfeed.fed⟩
        · exact ⟨rfl, rfl, hfeed⟩
      obtain ⟨hcoverage, hstart, hhashed'⟩ := hstate
      exact {
        unfinished := hlater.finished.trans h.unfinished
        receipts := fun receipt hr => (hlater.receipts receipt hr).elim
          (h.receipts receipt) fun hf => hf
        clean := fun _ => .inr ⟨_, hmessage', hstart.trans hstarted, hhashed'⟩
        marked := fun hne => absurd (hcoverage.trans hclean) hne }

theorem Observed.text (h : Observed cfg s seen) (text : Option Value) :
    Observed cfg (s.acceptText cfg text) (seen ++ [.delta text]) := by
  have hlater := later_acceptText s cfg text
  by_cases hclean : s.coverage = .textDelta
  swap
  · exact h.marked_concat hlater hclean
  rcases h.clean hclean with ⟨rfl, hstarted, -⟩ | ⟨texts, hmessage, hstarted, hhashed⟩
  · -- no message has started
    refine h.mark hlater ?_ fun texts hmessage => ?_
    · rw [Checkpoint.acceptText, hstarted]
      exact (later_observeText _ cfg text).marked (markPartial_coverage_ne s (by decide))
    · obtain ⟨message, -, heq⟩ := hmessage.shape
      cases (List.cons.inj heq).1
  · have heq : s.acceptText cfg text = s.observeText cfg text := by
      rw [Checkpoint.acceptText, if_pos hstarted]
    by_cases htext : ∃ raw, text = some (.text raw)
    · obtain ⟨raw, rfl⟩ := htext
      rw [heq, Checkpoint.observeText, if_pos hhashed.observing]
      exact h.hash hmessage hstarted hhashed hclean raw
    · refine h.mark hlater ?_ fun texts' hmessage' => ?_
      · rw [heq, Checkpoint.observeText]
        · exact markPartial_coverage_ne s (by decide)
        · exact fun raw hraw => htext ⟨raw, hraw⟩
      · obtain ⟨_, raw, -, hr, -⟩ := Message.of_concat hmessage.ne_nil hmessage'
        exact htext ⟨raw, Relevant.delta.inj hr⟩

end Step

/-! ## Whole runs -/

section Runs

variable (cfg : Config)

/-- Before the first stop the invariant holds of what was seen. -/
theorem observed_run (events : List Value) (h : ∀ event ∈ events, isStop event = false) :
    Observed cfg ((checkpointMachine cfg).run events) (events.filterMap relevant) := by
  induction events using List.reverseRecOn with
  | nil => exact observed_initial cfg
  | append_singleton events event ih =>
    obtain ⟨hevents, hevent⟩ := forall_mem_append.mp h
    have hobserved := ih hevents
    rw [Machine.run_append, Machine.runFrom_cons, Machine.runFrom_nil, filterMap_append]
    change Observed cfg (Checkpoint.accept cfg _ event) _
    rw [Checkpoint.accept_eq, if_neg (by rw [hobserved.unfinished]; decide)]
    have hnot := hevent event (mem_singleton_self _)
    unfold isStop at hnot
    cases hrelevant : relevant event with
    | none =>
      rw [filterMap_cons_none hrelevant, filterMap_nil, append_nil]
      exact hobserved
    | some r =>
      rw [filterMap_cons_some hrelevant]
      cases r with
      | start message => exact hobserved.start message
      | delta text => exact hobserved.text text
      | stop =>
        rw [hrelevant] at hnot
        cases hnot

variable {s : Checkpoint} {seen : List Relevant}

theorem runFrom_of_finished (h : s.finished = true) (events : List Value) :
    (checkpointMachine cfg).runFrom s events = s := by
  induction events with
  | nil => rfl
  | cons event events ih =>
    rw [Machine.runFrom_cons]
    change (checkpointMachine cfg).runFrom (Checkpoint.accept cfg s event) events = s
    rw [Checkpoint.accept_eq, if_pos h, ih]

/-- A mark changes the coverage only. -/
theorem markPartial_eq (s : Checkpoint) {mark : Coverage} (h : mark ≠ .textDelta) :
    ∃ coverage, s.markPartial mark = { s with coverage := coverage } ∧ coverage ≠ .textDelta := by
  refine ⟨(s.markPartial mark).coverage, ?_, markPartial_coverage_ne s h⟩
  unfold Checkpoint.markPartial
  split_ifs
  · rfl
  · rfl

/-- The coverage of the last receipt. -/
theorem finish_eq (h : s.finished = false) (complete : Bool) :
    ∃ coverage : Coverage, s.finish cfg complete =
        { s with coverage := coverage, finished := true }.emit cfg true
          (complete && coverage == Coverage.textDelta) ∧
      (complete = true → (coverage = .textDelta ↔ s.started = true ∧ s.coverage = .textDelta)) := by
  unfold Checkpoint.finish
  rw [if_neg (by rw [h]; decide)]
  cases complete with
  | false =>
    obtain ⟨coverage, heq, -⟩ := markPartial_eq s (show Coverage.streamEnd ≠ .textDelta by decide)
    refine ⟨coverage, ?_, nofun⟩
    rw [heq]
    rfl
  | true =>
    by_cases hstarted : s.started = true
    · refine ⟨s.coverage, ?_, fun _ => by simp [hstarted]⟩
      simp only [hstarted, Bool.not_true, Bool.false_eq_true, if_false]
    · obtain ⟨coverage, heq, hne⟩ :=
        markPartial_eq s (show Coverage.missingCallIdentity ≠ .textDelta by decide)
      refine ⟨coverage, ?_, fun _ => by simp [hne, hstarted]⟩
      simp only [heq, hstarted, Bool.not_true, Bool.not_false, Bool.false_eq_true,
        if_false, if_true]

/-- What the last receipt says. -/
theorem Observed.finish (h : Observed cfg s seen) (complete : Bool) :
    (s.finish cfg complete).finished = true ∧ ∃ receipt,
      (s.finish cfg complete).receipts.filter Receipt.final = [receipt] ∧
      receipt.events = s.events ∧ receipt.chars = s.chars ∧
      receipt.sha256 = toHex (cfg.sha.digest s.fed) ∧
      (receipt.complete = true ↔ complete = true ∧ s.started = true ∧ s.coverage = .textDelta) := by
  obtain ⟨coverage, heq, hcoverage⟩ := finish_eq cfg h.unfinished complete
  have hnone : s.receipts.filter Receipt.final = [] :=
    filter_eq_nil_iff.mpr fun receipt hr => by simp [h.receipts receipt hr]
  rw [heq]
  refine ⟨rfl, ⟨s.callRef, s.events, s.chars, toHex (cfg.sha.digest s.fed), true,
    complete && coverage == Coverage.textDelta, coverage⟩, ?_, rfl, rfl, rfl, ?_⟩
  · unfold Checkpoint.emit
    rw [filter_append, hnone]
    rfl
  · simp only [Bool.and_eq_true, beq_iff_eq]
    exact and_congr_right fun hcomplete => hcoverage hcomplete

theorem Observed.complete_iff (h : Observed cfg s seen) :
    (s.started = true ∧ s.coverage = .textDelta) ↔ ∃ texts, Message cfg seen texts := by
  constructor
  · rintro ⟨hstarted, hclean⟩
    rcases h.clean hclean with ⟨-, hnot, -⟩ | ⟨texts, hmessage, -⟩
    · rw [hnot] at hstarted
      cases hstarted
    · exact ⟨texts, hmessage⟩
  · rintro ⟨texts, hmessage⟩
    have hclean : s.coverage = .textDelta := by
      by_contra hne
      exact (h.marked hne).2 texts hmessage
    rcases h.clean hclean with ⟨hnil, -⟩ | ⟨_, -, hstarted, -⟩
    · exact absurd hnil hmessage.ne_nil
    · exact ⟨hstarted, hclean⟩

theorem Observed.hashed {texts : List RawText} (h : Observed cfg s seen)
    (hmessage : Message cfg seen texts) : Hashed s texts := by
  obtain ⟨-, hclean⟩ := h.complete_iff.mpr ⟨texts, hmessage⟩
  rcases h.clean hclean with ⟨hnil, -⟩ | ⟨texts', hmessage', -, hhashed⟩
  · exact absurd hnil hmessage.ne_nil
  · rw [hmessage.texts_unique hmessage']
    exact hhashed

/-- Nothing after the first stop changes the checkpoint. -/
theorem run_of_stop {events : List Value} (h : events.any isStop = true) :
    (checkpointMachine cfg).run events =
      ((checkpointMachine cfg).run (events.takeWhile fun event => !isStop event)).finish cfg
        true := by
  obtain ⟨stop, after, hafter, hstop⟩ : ∃ stop after,
      events.dropWhile (fun event => !isStop event) = stop :: after ∧ isStop stop = true := by
    cases hdrop : events.dropWhile fun event => !isStop event with
    | nil =>
      obtain ⟨event, hevent, hstop⟩ := any_eq_true.mp h
      have hnot := dropWhile_eq_nil_iff.mp hdrop event hevent
      rw [hstop] at hnot
      cases hnot
    | cons stop after =>
      have hhead := head?_dropWhile_not (fun event => !isStop event) events
      rw [hdrop] at hhead
      exact ⟨stop, after, rfl, by simpa using hhead⟩
  have hobserved := observed_run cfg (events.takeWhile fun event => !isStop event)
    fun event hevent => by simpa using mem_takeWhile_imp hevent
  have hrelevant : relevant stop = some .stop := by
    unfold isStop at hstop
    split at hstop
    · assumption
    · cases hstop
  conv_lhs =>
    rw [← takeWhile_append_dropWhile (p := fun event => !isStop event) (l := events), hafter]
  rw [Machine.run_append, Machine.runFrom_cons]
  change (checkpointMachine cfg).runFrom (Checkpoint.accept cfg _ stop) after = _
  rw [Checkpoint.accept_eq, if_neg (by rw [hobserved.unfinished]; decide), hrelevant]
  exact runFrom_of_finished cfg (hobserved.finish cfg true).1 after

end Runs

/-- The last receipt of a response is complete exactly when, up to the first stop, the relevant
events are a message within the limits; then it describes the joined texts. -/
theorem finalReceipt_exact (cfg : Config) (events : List Value) :
    ∃ receipt,
      (((checkpointMachine cfg).run events).finish cfg false).receipts.filter
        Receipt.final = [receipt] ∧
      (receipt.complete = true ↔ events.any isStop = true ∧
        ∃ texts, Message cfg
          ((events.takeWhile fun event => !isStop event).filterMap relevant) texts) ∧
      ∀ texts, receipt.complete = true →
        Message cfg ((events.takeWhile fun event => !isStop event).filterMap relevant) texts →
        receipt.events = texts.length ∧ receipt.chars = texts.flatten.length ∧
          ∃ chars, scalars texts.flatten = some chars ∧
            receipt.sha256 = toHex (cfg.sha.digest (utf8 chars)) := by
  have hobserved := observed_run cfg (events.takeWhile fun event => !isStop event)
    fun event hevent => by simpa using mem_takeWhile_imp hevent
  by_cases hstop : events.any isStop = true
  · obtain ⟨hfinished, receipt, hreceipt, hevents, hchars, hsha, hcomplete⟩ :=
      hobserved.finish cfg true
    rw [run_of_stop cfg hstop]
    have hagain : ∀ s : Checkpoint, s.finished = true → s.finish cfg false = s := by
      intro s hs
      rw [Checkpoint.finish, if_pos hs]
    rw [hagain _ hfinished]
    refine ⟨receipt, hreceipt, ?_, fun texts _ hmessage => ?_⟩
    · rw [hcomplete, hobserved.complete_iff cfg]
      simp [hstop]
    · obtain ⟨-, hcount, hlength, chars, hscalars, hfed⟩ := hobserved.hashed cfg hmessage
      exact ⟨hevents.trans hcount, hchars.trans hlength, chars, hscalars, by rw [hsha, hfed]⟩
  · have hall : events.takeWhile (fun event => !isStop event) = events := by
      refine takeWhile_eq_self_iff.mpr fun event hevent => ?_
      simpa using fun hevent' => hstop (any_eq_true.mpr ⟨event, hevent, hevent'⟩)
    rw [hall] at hobserved ⊢
    obtain ⟨-, receipt, hreceipt, -, -, -, hcomplete⟩ := hobserved.finish cfg false
    have hnot : ¬ receipt.complete = true := fun h => Bool.noConfusion (hcomplete.mp h).1
    exact ⟨receipt, hreceipt, iff_of_false hnot fun h => hstop h.1, fun _ h => absurd h hnot⟩

def sampleConfig : Config := ⟨tailDigest, "run", "attempt", fun _ _ _ => "call"⟩

def event (kind : String) (members : List (String × Value)) : Value :=
  .dict (("type", .text (rawText kind)) :: members)

def textEvent (text : String) : Value :=
  event "content_block_delta" [("delta", event "text_delta" [("text", .text (rawText text))])]

/-- An ordinary response: other events stand before the start and between the deltas, and what
comes after the stop is not looked at. -/
def ordinaryResponse : List Value :=
  [event "ping" [], event "message_start" [("message", .dict [("id", .text (rawText "m"))])],
    event "content_block_start" [], textEvent "hi", event "message_stop" [], textEvent "x"]

/-- The receipt is complete, although the first event is no `message_start`, the third is no text
delta and the last is no stop. -/
theorem ordinaryResponse_complete :
    (((checkpointMachine sampleConfig).run ordinaryResponse).finish sampleConfig
        false).receipts.filter Receipt.final =
      [⟨some "call", 1, 2, toHex (tailDigest.digest (utf8 ['h', 'i'])), true, true, .textDelta⟩] ∧
      ordinaryResponse[0]?.bind relevant = none ∧ ordinaryResponse[2]?.bind relevant = none ∧
      ordinaryResponse.getLast?.map isStop = some false := by
  decide +kernel

end AiPlatform.Execution.TextCheckpoints
