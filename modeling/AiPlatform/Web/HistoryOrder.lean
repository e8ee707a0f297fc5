import AiPlatform.Foundation.Comparators
import AiPlatform.Foundation.Json
import Mathlib.Data.Int.Order.Basic

/-!
# The order in which history is replayed

The history of a chat comes as one list of events of several runs. Before the events are folded into
messages, repeated ones are dropped and the rest is sorted: runs in the order in which they appear;
inside a run two events with a sequence number by that number, other pairs by a rank of their kind,
and pairs of one rank by timestamp. The loop that follows takes the events as sorted.
-/
namespace AiPlatform.Web

open AiPlatform.Foundation

variable {Q : Type}

/-! ## Events -/

/-- An event of the history; `Q` holds the sequence numbers. -/
structure HistoryEvent (Q : Type) where
  id : Option String
  sequence : Option Q
  eventType : String
  data : Json
  timestamp : Option String
  runId : Option String
  deriving DecidableEq

namespace HistoryEvent

def textField (e : HistoryEvent Q) (key : String) : Option String :=
  match e.data.get? key with
  | some (.str s) => if s = "" then none else some s
  | _ => none

def protocolMessageEventTypes : List String :=
  ["message.started", "message.delta", "message.completed", "message.part.delta",
    "message.part.classified", "commentary.delta"]

/-- `historyEventIdentity` -/
def identity (e : HistoryEvent Q) : Option String :=
  if protocolMessageEventTypes.contains e.eventType ∨
      (e.eventType = "message:chunk" ∧ e.textField "projection_kind" = some "assistant_delta") then
    (e.textField "event_id").or e.id
  else e.id

/-- The run the event belongs to; an empty identity counts as none. -/
def run? (e : HistoryEvent Q) : Option String :=
  e.runId.filter (· ≠ "")

/-- `compatibilityHistoryRank` -/
def rank (e : HistoryEvent Q) : Int :=
  if e.eventType = "user:message" then -1
  else if e.sequence.isSome then 0
  else if e.eventType = "artifact_card" then 1
  else if e.eventType = "message:chunk" ∨ e.eventType = "final_detail" then 2
  else if e.eventType = "done" then 3
  else 0

/-- `parseEventTimestamp(timestamp, 0).getTime()`, absent for a date that can not be read. -/
def time (parseDate : String → Option Int) (e : HistoryEvent Q) : Option Int :=
  match e.timestamp.filter (· ≠ "") with
  | some text => parseDate text
  | none => some 0

end HistoryEvent

def dropRepeated (seen : List String) : List (HistoryEvent Q) → List (HistoryEvent Q)
  | [] => []
  | e :: events =>
    match e.identity.filter (· ≠ "") with
    | none => e :: dropRepeated seen events
    | some identity =>
      if identity ∈ seen then dropRepeated seen events
      else e :: dropRepeated (identity :: seen) events

/-- An event with its place in the response. -/
abbrev Entry (Q : Type) := HistoryEvent Q × Nat

def entries (events : List (HistoryEvent Q)) : List (Entry Q) :=
  (dropRepeated [] events).zipIdx

/-- The runs in the order of their first events. -/
def runs (events : List (HistoryEvent Q)) : List String :=
  ((dropRepeated [] events).filterMap HistoryEvent.run?).eraseDups

/-! ## The comparator -/

section Time

variable (parseDate : String → Option Int)

/-- A difference that is not a number counts as zero. -/
def compareTime (a b : Entry Q) : Ordering :=
  match a.1.time parseDate, b.1.time parseDate with
  | some x, some y => (threeWay x y).then (threeWay a.2 b.2)
  | _, _ => .eq

def compareRank (a b : Entry Q) : Ordering :=
  (threeWay a.1.rank b.1.rank).then (compareTime parseDate a b)

variable {parseDate}

theorem swap_compareTime (a b : Entry Q) :
    (compareTime parseDate a b).swap = compareTime parseDate b a := by
  unfold compareTime
  cases a.1.time parseDate <;> cases b.1.time parseDate <;>
    simp [Ordering.swap_then, threeWay_swap]

theorem swap_compareRank (a b : Entry Q) :
    (compareRank parseDate a b).swap = compareRank parseDate b a := by
  simp only [compareRank, Ordering.swap_then, threeWay_swap, swap_compareTime]

end Time

def SameRun (a b : Entry Q) : Prop := a.1.run?.isSome ∧ a.1.run? = b.1.run?

instance (a b : Entry Q) : Decidable (SameRun a b) := inferInstanceAs (Decidable (_ ∧ _))

theorem SameRun.symm {a b : Entry Q} (h : SameRun a b) : SameRun b a :=
  ⟨h.2 ▸ h.1, h.2.symm⟩

theorem SameRun.trans {a b c : Entry Q} (h : SameRun a b) (h' : SameRun b c) : SameRun a c :=
  ⟨h.1, h.2.trans h'.2⟩

theorem sameRun_comm {a b : Entry Q} : SameRun a b ↔ SameRun b a := ⟨SameRun.symm, SameRun.symm⟩

def runOrder (order : List String) (a : Entry Q) : Nat :=
  match a.1.run? with
  | some run => (order.idxOf? run).getD a.2
  | none => order.length + a.2

section Compare

variable [LinearOrder Q] (parseDate : String → Option Int) (order : List String)

def compareInRun (a b : Entry Q) : Ordering :=
  match a.1.sequence, b.1.sequence with
  | some p, some q => (threeWay p q).then (compareRank parseDate a b)
  | _, _ => compareRank parseDate a b

def compareEntries (a b : Entry Q) : Ordering :=
  (threeWay (runOrder order a) (runOrder order b)).then
    (if SameRun a b then compareInRun parseDate a b else compareTime parseDate a b)

variable {parseDate order}

theorem swap_compareInRun (a b : Entry Q) :
    (compareInRun parseDate a b).swap = compareInRun parseDate b a := by
  unfold compareInRun
  cases a.1.sequence <;> cases b.1.sequence <;>
    simp [Ordering.swap_then, threeWay_swap, swap_compareRank]

theorem swap_compareEntries (a b : Entry Q) :
    (compareEntries parseDate order a b).swap = compareEntries parseDate order b a := by
  have hrun := propext (sameRun_comm (a := a) (b := b))
  simp only [compareEntries, Ordering.swap_then, threeWay_swap, apply_ite Ordering.swap,
    swap_compareInRun, swap_compareTime, hrun]

variable (parseDate)

/-- The comparator with which a response is sorted. -/
def historyComparator (events : List (HistoryEvent Q)) : Comparator (Entry Q) where
  compare := compareEntries parseDate (runs events)
  compare_swap := swap_compareEntries

end Compare

/-! ## When the comparator is consistent -/

section Before

variable (parseDate : String → Option Int)

/-- Both timestamps can be read, and they, or else the places, are in this order. -/
def Before (a b : Entry Q) : Prop :=
  ∃ x y, a.1.time parseDate = some x ∧ b.1.time parseDate = some y ∧
    (x < y ∨ (x = y ∧ a.2 < b.2))

theorem compareTime_ne_gt {a b : Entry Q} :
    compareTime parseDate a b ≠ .gt ↔ ¬ Before parseDate b a := by
  unfold compareTime Before
  cases a.1.time parseDate with
  | none => simp
  | some x =>
    cases b.1.time parseDate with
    | none => simp
    | some y =>
      rw [then_ne_gt, threeWay_eq_lt, threeWay_eq_eq, Ne, threeWay_eq_gt, not_lt]
      simp
      omega

variable {parseDate}

theorem Before.asymm {a b : Entry Q} (h : Before parseDate a b) : ¬ Before parseDate b a := by
  rintro ⟨y', x', hy', hx', h'⟩
  obtain ⟨x, y, hx, hy, h⟩ := h
  rw [hx] at hx'
  rw [hy] at hy'
  obtain rfl := Option.some.inj hx'
  obtain rfl := Option.some.inj hy'
  omega

/-- With a date that can be read in the middle, "not after" is transitive. -/
theorem not_before_trans {a b c : Entry Q} (hb : (b.1.time parseDate).isSome)
    (hab : ¬ Before parseDate b a) (hbc : ¬ Before parseDate c b) : ¬ Before parseDate c a := by
  rintro ⟨z, x, hz, hx, hca⟩
  obtain ⟨y, hy⟩ := Option.isSome_iff_exists.mp hb
  have hab : ¬ (y < x ∨ (y = x ∧ b.2 < a.2)) := fun h => hab ⟨y, x, hy, hx, h⟩
  have hbc : ¬ (z < y ∨ (z = y ∧ c.2 < b.2)) := fun h => hbc ⟨z, y, hz, hy, h⟩
  omega

end Before

theorem HistoryEvent.neg_one_le_rank (e : HistoryEvent Q) : -1 ≤ e.rank := by
  unfold rank
  split_ifs <;> decide

theorem HistoryEvent.rank_le_zero {e : HistoryEvent Q} (h : e.sequence.isSome) : e.rank ≤ 0 := by
  unfold rank
  rw [if_pos h]
  split_ifs <;> decide

section Order

variable [LinearOrder Q] (parseDate : String → Option Int)

/-- The pair is compared by its timestamps. -/
def ByTime (a b : Entry Q) : Prop :=
  SameRun a b ∧ a.1.rank = b.1.rank ∧
    (a.1.sequence = none ∨ b.1.sequence = none ∨ a.1.sequence = b.1.sequence)

/-- `a` comes before `b` by sequence. -/
def Precedes (a b : Entry Q) : Prop :=
  SameRun a b ∧ ∃ p q, a.1.sequence = some p ∧ b.1.sequence = some q ∧ p < q

/-- The timestamps of a run do not contradict its sequence: -/
structure Ordered (items : List (Entry Q)) : Prop where
  /-- of three events compared by timestamps, not exactly one has a date that can not be read; -/
  readable : ∀ a ∈ items, ∀ b ∈ items, ∀ c ∈ items, ByTime a b → ByTime a c → ByTime b c →
    a.1.time parseDate = none → (b.1.time parseDate).isSome → (c.1.time parseDate).isSome → b = c
  /-- an event without a sequence comes after the first or before the second of two sequenced
  events of its rank; -/
  between : ∀ a ∈ items, ∀ b ∈ items, ∀ x ∈ items, Precedes a b → SameRun a x →
    x.1.sequence = none → a.1.rank = x.1.rank → b.1.rank = x.1.rank →
    Before parseDate a x ∨ Before parseDate x b
  /-- where a sequenced message of the user follows another sequenced event, events without a
  sequence come after the latter, and messages of the user without a sequence before the former. -/
  user : ∀ a ∈ items, ∀ b ∈ items, ∀ x ∈ items, Precedes a b → b.1.rank < a.1.rank → SameRun a x →
    x.1.sequence = none →
    (x.1.rank = a.1.rank → Before parseDate a x) ∧ (x.1.rank = b.1.rank → Before parseDate x b)

def LeRank (a b : Entry Q) : Prop :=
  a.1.rank < b.1.rank ∨ (a.1.rank = b.1.rank ∧ ¬ Before parseDate b a)

def LeInRun (a b : Entry Q) : Prop :=
  match a.1.sequence, b.1.sequence with
  | some p, some q => p < q ∨ (p = q ∧ LeRank parseDate a b)
  | _, _ => LeRank parseDate a b

theorem compareInRun_ne_gt {a b : Entry Q} :
    compareInRun parseDate a b ≠ .gt ↔ LeInRun parseDate a b := by
  have hrank : compareRank parseDate a b ≠ .gt ↔ LeRank parseDate a b := by
    rw [compareRank, then_ne_gt, threeWay_eq_lt, threeWay_eq_eq, compareTime_ne_gt]
    rfl
  unfold compareInRun LeInRun
  cases a.1.sequence with
  | none => exact hrank
  | some p =>
    cases b.1.sequence with
    | none => exact hrank
    | some q =>
      rw [then_ne_gt, threeWay_eq_lt, threeWay_eq_eq, hrank]

variable {parseDate} {items : List (Entry Q)} {a b c : Entry Q}

theorem leInRun_of_none (h : a.1.sequence = none ∨ b.1.sequence = none) :
    LeInRun parseDate a b ↔ LeRank parseDate a b := by
  unfold LeInRun
  rcases h with h | h
  · rw [h]
  · cases a.1.sequence <;> rw [h]

theorem leInRun_of_some {p q : Q} (ha : a.1.sequence = some p) (hb : b.1.sequence = some q) :
    LeInRun parseDate a b ↔ p < q ∨ (p = q ∧ LeRank parseDate a b) := by
  rw [LeInRun, ha, hb]

section

variable (h : Ordered parseDate items) (ha : a ∈ items) (hb : b ∈ items)
include h ha hb

/-- Ranks, and timestamps of one rank, are transitive on events compared by them. -/
theorem leRank_trans (hc : c ∈ items) (hbyTime : a.1.rank = b.1.rank → b.1.rank = c.1.rank →
      ByTime b a ∧ ByTime b c ∧ ByTime a c) (hab : LeRank parseDate a b)
    (hbc : LeRank parseDate b c) : LeRank parseDate a c := by
  rcases hab with hab | ⟨hrank, hab⟩
  · rcases hbc with hbc | ⟨hrank', -⟩
    · exact .inl (hab.trans hbc)
    · exact .inl (hrank' ▸ hab)
  · rcases hbc with hbc | ⟨hrank', hbc⟩
    · exact .inl (hrank ▸ hbc)
    · refine .inr ⟨hrank.trans hrank', ?_⟩
      obtain ⟨hba, hbc', hac⟩ := hbyTime hrank hrank'
      cases hb' : (b.1.time parseDate).isSome with
      | true => exact not_before_trans hb' hab hbc
      | false =>
        -- the two others can not both be read, unless they are one event
        intro hca
        obtain ⟨z, x, hz, hx, -⟩ := id hca
        have heq := h.readable b hb a ha c hc hba hbc' hac (by simpa using hb')
          (by rw [hx]; rfl) (by rw [hz]; rfl)
        subst heq
        exact hca.asymm hca

/-- Three events of a run among which sequences decide nothing. -/
theorem leRank_trans_of_tied (hc : c ∈ items) (hrun : SameRun a b) (hrun' : SameRun b c)
    (hab' : a.1.sequence = none ∨ b.1.sequence = none ∨ a.1.sequence = b.1.sequence)
    (hbc' : b.1.sequence = none ∨ c.1.sequence = none ∨ b.1.sequence = c.1.sequence)
    (hac' : a.1.sequence = none ∨ c.1.sequence = none ∨ a.1.sequence = c.1.sequence)
    (hab : LeRank parseDate a b) (hbc : LeRank parseDate b c) : LeRank parseDate a c := by
  refine leRank_trans h ha hb hc (fun hrank hrank' => ⟨?_, ?_, ?_⟩) hab hbc
  · refine ⟨hrun.symm, hrank.symm, ?_⟩
    rcases hab' with hab' | hab' | hab'
    · exact .inr (.inl hab')
    · exact .inl hab'
    · exact .inr (.inr hab'.symm)
  · exact ⟨hrun', hrank', hbc'⟩
  · exact ⟨hrun.trans hrun', hrank.trans hrank', hac'⟩

/-- No event without a sequence is between the second and the first of two sequenced ones. -/
theorem not_leRank_of_precedes (hx : c ∈ items) (hseq : Precedes a b) (hrun : SameRun a c)
    (hnone : c.1.sequence = none) (hbc : LeRank parseDate b c) : ¬ LeRank parseDate c a := by
  have hbetween := h.between a ha b hb c hx hseq hrun hnone
  have huser := h.user a ha b hb c hx hseq
  obtain ⟨-, p, q, hp, hq, -⟩ := hseq
  -- sequenced events have two ranks, the lower of which is that of the user's messages
  have ha0 := a.1.rank_le_zero (by rw [hp]; rfl)
  have hb0 := b.1.rank_le_zero (by rw [hq]; rfl)
  have ha1 := a.1.neg_one_le_rank
  have hb1 := b.1.neg_one_le_rank
  unfold LeRank at hbc ⊢
  grind

end

omit [LinearOrder Q] in
theorem leRank_of_not_leRank (h : ¬ LeRank parseDate a b) : LeRank parseDate b a := by
  have hasymm := fun h : Before parseDate a b => h.asymm
  unfold LeRank at h ⊢
  grind

theorem leInRun_trans (h : Ordered parseDate items) (ha : a ∈ items) (hb : b ∈ items)
    (hc : c ∈ items) (hrun : SameRun a b) (hrun' : SameRun b c)
    (hab : LeInRun parseDate a b) (hbc : LeInRun parseDate b c) : LeInRun parseDate a c := by
  have hac := hrun.trans hrun'
  have htied := leRank_trans_of_tied h ha hb hc hrun hrun'
  cases hp : a.1.sequence with
  | none =>
    rw [leInRun_of_none (.inl hp)] at hab ⊢
    cases hq : b.1.sequence with
    | none =>
      rw [leInRun_of_none (.inl hq)] at hbc
      exact htied (.inl hp) (.inl hq) (.inl hp) hab hbc
    | some q =>
      cases hr : c.1.sequence with
      | none =>
        rw [leInRun_of_none (.inr hr)] at hbc
        exact htied (.inl hp) (.inr (.inl hr)) (.inl hp) hab hbc
      | some r =>
        rcases (leInRun_of_some hq hr).mp hbc with hlt | ⟨rfl, hbc⟩
        · by_contra hca
          exact not_leRank_of_precedes h hb hc ha ⟨hrun', q, r, hq, hr, hlt⟩ hrun.symm hp
            (leRank_of_not_leRank hca) hab
        · exact htied (.inl hp) (.inr (.inr (hq.trans hr.symm))) (.inl hp) hab hbc
  | some p =>
    cases hq : b.1.sequence with
    | none =>
      rw [leInRun_of_none (.inr hq)] at hab
      rw [leInRun_of_none (.inl hq)] at hbc
      cases hr : c.1.sequence with
      | none =>
        rw [leInRun_of_none (.inr hr)]
        exact htied (.inr (.inl hq)) (.inl hq) (.inr (.inl hr)) hab hbc
      | some r =>
        rw [leInRun_of_some hp hr]
        rcases lt_trichotomy p r with hlt | rfl | hlt
        · exact .inl hlt
        · exact .inr
            ⟨rfl, htied (.inr (.inl hq)) (.inl hq) (.inr (.inr (hp.trans hr.symm))) hab hbc⟩
        · exact absurd hbc
            (not_leRank_of_precedes h hc ha hb ⟨hac.symm, r, p, hr, hp, hlt⟩ hrun'.symm hq hab)
    | some q =>
      rw [leInRun_of_some hp hq] at hab
      cases hr : c.1.sequence with
      | none =>
        rw [leInRun_of_none (.inr hr)] at hbc ⊢
        rcases hab with hlt | ⟨rfl, hab⟩
        · by_contra hca
          exact not_leRank_of_precedes h ha hb hc ⟨hrun, p, q, hp, hq, hlt⟩ hac hr hbc
            (leRank_of_not_leRank hca)
        · exact htied (.inr (.inr (hp.trans hq.symm))) (.inr (.inl hr)) (.inr (.inl hr)) hab hbc
      | some r =>
        rw [leInRun_of_some hq hr] at hbc
        rw [leInRun_of_some hp hr]
        rcases hab with hlt | ⟨rfl, hab⟩
        · rcases hbc with hlt' | ⟨rfl, -⟩
          · exact .inl (hlt.trans hlt')
          · exact .inl hlt
        · rcases hbc with hlt' | ⟨rfl, hbc⟩
          · exact .inl hlt'
          · have hpq := hp.trans hq.symm
            have hqr := hq.trans hr.symm
            exact .inr ⟨rfl, htied (.inr (.inr hpq)) (.inr (.inr hqr)) (.inr (.inr (hpq.trans hqr)))
              hab hbc⟩

/-! Where "not after" is transitive, timestamps and sequences agree. -/

theorem not_leInRun_of_precedes (h : Precedes a b) : ¬ LeInRun parseDate b a := by
  obtain ⟨-, p, q, hp, hq, hlt⟩ := h
  rw [leInRun_of_some hq hp]
  rintro (hlt' | ⟨rfl, -⟩)
  · exact lt_asymm hlt hlt'
  · exact lt_irrefl _ hlt

theorem leInRun_of_byTime (h : ByTime a b) : LeInRun parseDate a b ↔ ¬ Before parseDate b a := by
  obtain ⟨-, hrank, hseq⟩ := h
  have hle : LeRank parseDate a b ↔ ¬ Before parseDate b a := by simp [LeRank, hrank]
  rcases hseq with hseq | hseq | hseq
  · rw [leInRun_of_none (.inl hseq), hle]
  · rw [leInRun_of_none (.inr hseq), hle]
  · cases hp : a.1.sequence with
    | none => rw [leInRun_of_none (.inl hp), hle]
    | some p => simp [leInRun_of_some hp (hseq ▸ hp), hle]

omit [LinearOrder Q] in
theorem ByTime.symm (h : ByTime a b) : ByTime b a := by
  obtain ⟨hrun, hrank, hseq⟩ := h
  refine ⟨hrun.symm, hrank.symm, ?_⟩
  rcases hseq with hseq | hseq | hseq
  · exact .inr (.inl hseq)
  · exact .inl hseq
  · exact .inr (.inr hseq.symm)

theorem ordered_of_trans (hplace : ∀ a ∈ items, ∀ b ∈ items, a.2 = b.2 → a = b)
    (htrans : ∀ a ∈ items, ∀ b ∈ items, ∀ c ∈ items, SameRun a b → SameRun b c →
      LeInRun parseDate a b → LeInRun parseDate b c → LeInRun parseDate a c) :
    Ordered parseDate items := by
  -- an event without a sequence between the second and the first closes a cycle
  have hcycle : ∀ a ∈ items, ∀ b ∈ items, ∀ x ∈ items, Precedes a b → SameRun a x →
      x.1.sequence = none → LeRank parseDate b x → ¬ LeRank parseDate x a := by
    intro a ha b hb x hx hseq hrun hnone hbx hxa
    refine not_leInRun_of_precedes hseq (htrans b hb x hx a ha (hseq.1.symm.trans hrun) hrun.symm
      ?_ ?_)
    · exact (leInRun_of_none (.inr hnone)).mpr hbx
    · exact (leInRun_of_none (.inl hnone)).mpr hxa
  constructor
  · intro a ha b hb c hc hab hac hbc hnone hsome hsome'
    -- an unreadable date is not after any other, nor any other after it
    have hnot : ∀ e : Entry Q, ¬ Before parseDate a e ∧ ¬ Before parseDate e a := by
      intro e
      simp [Before, hnone]
    have hle := htrans b hb a ha c hc hab.1.symm hac.1
      ((leInRun_of_byTime hab.symm).mpr (hnot b).1) ((leInRun_of_byTime hac).mpr (hnot c).2)
    have hge := htrans c hc a ha b hb hac.1.symm hab.1
      ((leInRun_of_byTime hac.symm).mpr (hnot c).1) ((leInRun_of_byTime hab).mpr (hnot b).2)
    rw [leInRun_of_byTime hbc] at hle
    rw [leInRun_of_byTime hbc.symm] at hge
    apply hplace b hb c hc
    obtain ⟨x, hx⟩ := Option.isSome_iff_exists.mp hsome
    obtain ⟨y, hy⟩ := Option.isSome_iff_exists.mp hsome'
    have hle : ¬ (y < x ∨ (y = x ∧ c.2 < b.2)) := fun h => hle ⟨y, x, hy, hx, h⟩
    have hge : ¬ (x < y ∨ (x = y ∧ b.2 < c.2)) := fun h => hge ⟨x, y, hx, hy, h⟩
    omega
  · intro a ha b hb x hx hseq hrun hnone har hbr
    by_contra hno
    push Not at hno
    exact hcycle a ha b hb x hx hseq hrun hnone (.inr ⟨hbr, hno.2⟩) (.inr ⟨har.symm, hno.1⟩)
  · intro a ha b hb x hx hseq hrank hrun hnone
    constructor
    · intro hxr
      by_contra hno
      exact hcycle a ha b hb x hx hseq hrun hnone (.inl (hxr ▸ hrank)) (.inr ⟨hxr, hno⟩)
    · intro hxr
      by_contra hno
      exact hcycle a ha b hb x hx hseq hrun hnone (.inr ⟨hxr.symm, hno⟩) (.inl (hxr ▸ hrank))

end Order

/-! ## Runs and places -/

section Places

variable {events : List (HistoryEvent Q)} {a b : Entry Q}

theorem eq_of_place_eq (ha : a ∈ entries events) (hb : b ∈ entries events) (h : a.2 = b.2) :
    a = b := by
  have ha := List.mem_zipIdx_iff_getElem?.mp ha
  have hb := List.mem_zipIdx_iff_getElem?.mp hb
  rw [h, hb] at ha
  exact Prod.ext (Option.some.inj ha).symm h

theorem run_mem_runs {run : String} (ha : a ∈ entries events) (hrun : a.1.run? = some run) :
    run ∈ runs events := by
  have hmem : a.1 ∈ dropRepeated [] events := List.fst_mem_of_mem_zipIdx ha
  exact List.mem_eraseDups.mpr (List.mem_filterMap.mpr ⟨a.1, hmem, hrun⟩)

theorem runOrder_of_run {run : String} (ha : a ∈ entries events) (hrun : a.1.run? = some run) :
    runOrder (runs events) a = (runs events).idxOf run := by
  have hmem := run_mem_runs ha hrun
  simp only [runOrder, hrun]
  rw [List.idxOf_eq_getD_idxOf?]
  cases hx : (runs events).idxOf? run with
  | none => exact absurd hmem (List.idxOf?_eq_none_iff.mp hx)
  | some i => rfl

theorem runOrder_eq (ha : a ∈ entries events) (hb : b ∈ entries events) :
    runOrder (runs events) a = runOrder (runs events) b ↔ SameRun a b ∨ a = b := by
  constructor
  · intro heq
    cases hrun : a.1.run? with
    | some run =>
      have hmem := run_mem_runs ha hrun
      have hlt := List.idxOf_lt_length_iff.mpr hmem
      rw [runOrder_of_run ha hrun] at heq
      cases hrun' : b.1.run? with
      | some run' =>
        rw [runOrder_of_run hb hrun', List.idxOf_inj hmem] at heq
        exact .inl ⟨by rw [hrun]; rfl, by rw [hrun, hrun', heq]⟩
      | none =>
        simp only [runOrder, hrun'] at heq
        omega
    | none =>
      cases hrun' : b.1.run? with
      | some run' =>
        have hlt := List.idxOf_lt_length_iff.mpr (run_mem_runs hb hrun')
        rw [runOrder_of_run hb hrun'] at heq
        simp only [runOrder, hrun] at heq
        omega
      | none =>
        simp only [runOrder, hrun, hrun'] at heq
        exact .inr (eq_of_place_eq ha hb (by omega))
  · rintro (⟨hsome, heq⟩ | rfl)
    · obtain ⟨run, hrun⟩ := Option.isSome_iff_exists.mp hsome
      rw [runOrder_of_run ha hrun, runOrder_of_run hb (heq ▸ hrun)]
    · rfl

end Places

section Exact

variable [LinearOrder Q] {parseDate : String → Option Int} {events : List (HistoryEvent Q)}
  {a b : Entry Q}

theorem le_of_sameRun (ha : a ∈ entries events) (hb : b ∈ entries events) (hrun : SameRun a b) :
    (historyComparator parseDate events).Le a b ↔ LeInRun parseDate a b := by
  have heq := (runOrder_eq ha hb).mpr (.inl hrun)
  change compareEntries parseDate (runs events) a b ≠ .gt ↔ _
  rw [compareEntries, then_ne_gt, threeWay_eq_lt, threeWay_eq_eq, if_pos hrun, compareInRun_ne_gt]
  simp [heq]

theorem le_of_runOrder_ne (h : runOrder (runs events) a ≠ runOrder (runs events) b) :
    (historyComparator parseDate events).Le a b ↔
      runOrder (runs events) a < runOrder (runs events) b := by
  change compareEntries parseDate (runs events) a b ≠ .gt ↔ _
  rw [compareEntries, then_ne_gt, threeWay_eq_lt, threeWay_eq_eq]
  simp [h]

theorem runOrder_le_of_le (h : (historyComparator parseDate events).Le a b) :
    runOrder (runs events) a ≤ runOrder (runs events) b := by
  by_cases heq : runOrder (runs events) a = runOrder (runs events) b
  · exact heq.le
  · exact ((le_of_runOrder_ne heq).mp h).le

/-- Events of different runs are never the trouble. -/
theorem consistent_iff_ordered :
    (historyComparator parseDate events).Consistent (entries events) ↔
      Ordered parseDate (entries events) := by
  rw [Comparator.consistent_iff]
  constructor
  · intro h
    refine ordered_of_trans (fun a ha b hb => eq_of_place_eq ha hb) ?_
    intro a ha b hb c hc hab hbc
    rw [← le_of_sameRun ha hb hab, ← le_of_sameRun hb hc hbc, ← le_of_sameRun ha hc (hab.trans hbc)]
    exact h a ha b hb c hc
  · intro h a ha b hb c hc hab hbc
    have hle := runOrder_le_of_le hab
    have hle' := runOrder_le_of_le hbc
    by_cases hac : runOrder (runs events) a = runOrder (runs events) c
    · have heq : runOrder (runs events) a = runOrder (runs events) b := by omega
      have heq' : runOrder (runs events) b = runOrder (runs events) c := by omega
      rcases (runOrder_eq ha hb).mp heq with hrun | rfl
      · rcases (runOrder_eq hb hc).mp heq' with hrun' | rfl
        · rw [le_of_sameRun ha hb hrun] at hab
          rw [le_of_sameRun hb hc hrun'] at hbc
          rw [le_of_sameRun ha hc (hrun.trans hrun')]
          exact leInRun_trans h ha hb hc hrun hrun' hab hbc
        · exact hab
      · exact hbc
    · rw [le_of_runOrder_ne hac]
      omega

/-- The sequenced events of each run come in increasing sequence. -/
def InSequence (sorted : List (Entry Q)) : Prop :=
  sorted.Pairwise fun a b => SameRun a b →
    ∀ p q, a.1.sequence = some p → b.1.sequence = some q → p ≤ q

theorem inSequence_of_le {sorted : List (Entry Q)} (hperm : sorted.Perm (entries events))
    (hle : sorted.Pairwise (historyComparator parseDate events).Le) : InSequence sorted := by
  refine hle.imp_of_mem ?_
  intro a b ha hb hab hrun p q hp hq
  rw [le_of_sameRun (hperm.subset ha) (hperm.subset hb) hrun, leInRun_of_some hp hq] at hab
  rcases hab with hlt | ⟨heq, -⟩
  · exact hlt.le
  · exact heq.le

variable (parseDate events)

/-- The comparator is consistent, and every sort leaves the events of each run in sequence, exactly
when the timestamps of the run do not contradict its sequence. -/
theorem history_order_exact :
    ((historyComparator parseDate events).Consistent (entries events) ∧
      ∀ sorted, (historyComparator parseDate events).SortsTo (entries events) sorted →
        InSequence sorted) ↔
      Ordered parseDate (entries events) := by
  rw [← consistent_iff_ordered]
  constructor
  · rintro ⟨hconsistent, -⟩
    exact hconsistent
  · intro hconsistent
    refine ⟨hconsistent, fun sorted hsorts => ?_⟩
    exact inSequence_of_le hsorts.perm (hsorts.ordered hconsistent)

end Exact

/-! Three events of one run: the second of the sequence was written first, and between the two
timestamps lies that of an event without a sequence. -/

def crossedEvent (id : String) (sequence : Option Int) (timestamp : String) : HistoryEvent Int where
  id := some id
  sequence := sequence
  eventType := "tool:start"
  data := .obj []
  timestamp := some timestamp
  runId := some "run-1"

def crossedEvents : List (HistoryEvent Int) :=
  [crossedEvent "b" (some 2) "2026-01-01T00:00:05Z", crossedEvent "x" none "2026-01-01T00:00:07Z",
    crossedEvent "a" (some 1) "2026-01-01T00:00:10Z"]

def crossedDates (text : String) : Option Int :=
  [("2026-01-01T00:00:05Z", 1767225605000), ("2026-01-01T00:00:07Z", 1767225607000),
    ("2026-01-01T00:00:10Z", 1767225610000)].lookup text

/-- Each event is in order with the next, so a sort that looks at neighbours changes nothing; but
the comparator is not consistent, and the events are out of sequence. -/
theorem crossedEvents_out_of_sequence :
    (entries crossedEvents).IsChain (historyComparator crossedDates crossedEvents).Le ∧
      ¬ (historyComparator crossedDates crossedEvents).Consistent (entries crossedEvents) ∧
      (historyComparator crossedDates crossedEvents).SortsTo (entries crossedEvents)
        (entries crossedEvents) ∧
      ¬ InSequence (entries crossedEvents) := by
  have hconsistent :
      ¬ (historyComparator crossedDates crossedEvents).Consistent (entries crossedEvents) := by
    intro h
    -- the three form a cycle
    have hlt := h.less (crossedEvent "b" (some 2) "2026-01-01T00:00:05Z", 0) (by decide +kernel)
      (crossedEvent "x" none "2026-01-01T00:00:07Z", 1) (by decide +kernel)
      (crossedEvent "a" (some 1) "2026-01-01T00:00:10Z", 2) (by decide +kernel)
      (by decide +kernel) (by decide +kernel)
    revert hlt
    decide +kernel
  refine ⟨?_, hconsistent, ⟨List.Perm.refl _, fun h => absurd h hconsistent⟩, ?_⟩
  · unfold Comparator.Le
    decide +kernel
  · intro h
    have hba := (List.pairwise_cons.mp h).1
      (crossedEvent "a" (some 1) "2026-01-01T00:00:10Z", 2) (by decide +kernel)
      (by decide +kernel) 2 1 rfl rfl
    revert hba
    decide

end AiPlatform.Web
