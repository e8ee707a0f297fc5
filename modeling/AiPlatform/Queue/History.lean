import AiPlatform.Queue.Slots

/-!
# The log of a message

What the log of answers says about one message: which lease is the current one, and how often a
lease has been settled. The rules at the end say how each kind of event extends a good log; they
do not mention the store.
-/
namespace AiPlatform.Queue

open AiPlatform.Foundation Hash SortedSet

/-- The message an event is about. -/
def Event.messageId : Event → Option String
  | .admitted messageId => some messageId
  | .leased h _ => some h.messageId
  | .settled h _ => some h.messageId
  | .droppedInvalid messageId => some messageId
  | .removed _ _ => none
  | .claimed _ _ => none

def Event.lease : Event → Option LeaseHandle
  | .leased h _ => some h
  | _ => none

def lastEvent (messageId : String) (log : List Event) : Option Event :=
  log.find? fun e => e.messageId = some messageId

/-- The most recent lease of a message, if nothing has happened to the message since. -/
def currentLease (messageId : String) (log : List Event) : Option LeaseHandle :=
  (lastEvent messageId log).bind Event.lease

def Event.settles (h : LeaseHandle) : Event → Bool
  | .settled h' _ => h' = h
  | _ => false

def settlements (h : LeaseHandle) (log : List Event) : Nat := log.countP (Event.settles h)

theorem lastEvent_cons (messageId : String) (e : Event) (log : List Event) :
    lastEvent messageId (e :: log) =
      if e.messageId = some messageId then some e else lastEvent messageId log := by
  unfold lastEvent
  split
  · rename_i hid
    simp [hid]
  · rename_i hid
    simp [hid]

theorem currentLease_cons (messageId : String) (e : Event) (log : List Event) :
    currentLease messageId (e :: log) =
      if e.messageId = some messageId then e.lease else currentLease messageId log := by
  rw [currentLease, lastEvent_cons]
  split <;> rfl

theorem mem_of_currentLease {messageId : String} {log : List Event} {h : LeaseHandle}
    (hcur : currentLease messageId log = some h) : ∃ a, .leased h a ∈ log := by
  obtain ⟨e, hfind, hlease⟩ := Option.bind_eq_some_iff.mp hcur
  cases e with
  | leased h' a =>
    obtain rfl : h' = h := by simpa [Event.lease] using hlease
    exact ⟨a, List.mem_of_find?_eq_some hfind⟩
  | admitted | settled | droppedInvalid | removed | claimed => simp [Event.lease] at hlease

/-- Every lease is settled at most once, after it was granted and while it is current. -/
structure LeaseHistory (log : List Event) : Prop where
  granted : ∀ h, 0 < settlements h log → ∃ a, .leased h a ∈ log
  once : ∀ h, settlements h log ≤ 1
  unsettled : ∀ h, currentLease h.messageId log = some h → settlements h log = 0

namespace LeaseHistory

variable {log : List Event}

theorem nil : LeaseHistory [] := by
  constructor <;> simp [settlements, currentLease]

theorem lease (hist : LeaseHistory log) {h : LeaseHandle} (a : Int)
    (fresh : ∀ a, .leased h a ∉ log) : LeaseHistory (.leased h a :: log) := by
  have hcount : ∀ h', settlements h' (.leased h a :: log) = settlements h' log := by
    simp [settlements, Event.settles]
  refine ⟨fun h' hpos => ?_, fun h' => hcount h' ▸ hist.once h', fun h' hcur => ?_⟩
  · obtain ⟨a', ha'⟩ := hist.granted h' (hcount h' ▸ hpos)
    exact ⟨a', List.mem_cons_of_mem _ ha'⟩
  · rw [hcount]
    rw [currentLease_cons] at hcur
    split at hcur
    · obtain rfl : h = h' := by simpa [Event.lease] using hcur
      by_contra hne
      obtain ⟨a', ha'⟩ := hist.granted h (by omega)
      exact fresh a' ha'
    · exact hist.unsettled h' hcur

theorem settle (hist : LeaseHistory log) {h : LeaseHandle} (how : Settlement)
    (hcur : currentLease h.messageId log = some h) : LeaseHistory (.settled h how :: log) := by
  have hcount : ∀ h', settlements h' (.settled h how :: log) =
      settlements h' log + if h = h' then 1 else 0 := by
    intro h'
    simp [settlements, Event.settles, List.countP_cons]
  have hzero := hist.unsettled h hcur
  refine ⟨fun h' hpos => ?_, fun h' => ?_, fun h' hcur' => ?_⟩
  · rw [hcount] at hpos
    by_cases heq : h = h'
    · subst heq
      obtain ⟨a, ha⟩ := mem_of_currentLease hcur
      exact ⟨a, List.mem_cons_of_mem _ ha⟩
    · obtain ⟨a, ha⟩ := hist.granted h' (by simpa [heq] using hpos)
      exact ⟨a, List.mem_cons_of_mem _ ha⟩
  · rw [hcount]
    have := hist.once h'
    split
    · subst h'
      omega
    · omega
  · rw [currentLease_cons] at hcur'
    split at hcur'
    · simp [Event.lease] at hcur'
    · rename_i hid
      have hne : h ≠ h' := by
        rintro rfl
        exact hid rfl
      simpa [hcount, hne] using hist.unsettled h' hcur'

theorem other (hist : LeaseHistory log) {e : Event} (hlease : e.lease = none)
    (hsettles : ∀ h, e.settles h = false) : LeaseHistory (e :: log) := by
  have hcount : ∀ h, settlements h (e :: log) = settlements h log := by
    intro h
    simp [settlements, hsettles h]
  refine ⟨fun h hpos => ?_, fun h => hcount h ▸ hist.once h, fun h hcur => ?_⟩
  · obtain ⟨a, ha⟩ := hist.granted h (hcount h ▸ hpos)
    exact ⟨a, List.mem_cons_of_mem _ ha⟩
  · rw [hcount]
    rw [currentLease_cons] at hcur
    split at hcur
    · simp [hlease] at hcur
    · exact hist.unsettled h hcur

end LeaseHistory

end AiPlatform.Queue
