import Mathlib

/-!
# Fenced registers

A register whose value only the holder of a lease may replace. Every operation takes the next epoch
and fences the operation before it; a single-use ticket moves the register to the next generation
and fences every operation of the generation before. What this buys is stated over histories, the
timed events of a register in the order in which they took effect.
-/
namespace AiPlatform.Foundation.Fencing

open List

variable {τ ο π : Type}

/-- `epoch` is the one of the latest operation; `lease` is its token and deadline until it ends. -/
structure Register (τ ο π : Type) where
  generation : ℕ
  epoch : ℕ
  lease : Option (ο × ℚ)
  value : π
  ticket : Option τ
  deriving DecidableEq

inductive Event (τ ο π : Type) where
  | issued (ticket : τ)
  | rotated (ticket : τ) (value : π)
  | begun (generation epoch : ℕ) (token : ο) (deadline : ℚ)
  | committed (generation epoch : ℕ) (token : ο) (value : π)
  | read (generation : ℕ) (value : π)
  deriving DecidableEq

inductive Step (now : ℚ) : Register τ ο π → Event τ ο π → Register τ ο π → Prop where
  | issued (r : Register τ ο π) (ticket : τ) :
      Step now r (.issued ticket) { r with ticket := some ticket }
  | rotated {r : Register τ ο π} {ticket : τ} (held : r.ticket = some ticket) (value : π) :
      Step now r (.rotated ticket value) ⟨r.generation + 1, 0, none, value, none⟩
  | begun (r : Register τ ο π) (token : ο) (deadline : ℚ) :
      Step now r (.begun r.generation (r.epoch + 1) token deadline)
        { r with epoch := r.epoch + 1, lease := some (token, deadline) }
  | committed {r : Register τ ο π} {token : ο} {deadline : ℚ}
      (held : r.lease = some (token, deadline)) (live : now < deadline) (value : π) :
      Step now r (.committed r.generation r.epoch token value) { r with lease := none, value }
  | read (r : Register τ ο π) : Step now r (.read r.generation r.value) r

abbrev History (τ ο π : Type) : Type := List (ℚ × Event τ ο π)

/-- `Legal origin history r`: the events lead from `origin` to `r`. -/
inductive Legal (origin : Register τ ο π) : History τ ο π → Register τ ο π → Prop where
  | nil : Legal origin [] origin
  | snoc {history : History τ ο π} {r r' : Register τ ο π} {now : ℚ} {event : Event τ ο π}
      (earlier : Legal origin history r) (step : Step now r event r') :
      Legal origin (history ++ [(now, event)]) r'

/-! ## Reading a history -/

namespace Event

def issuedTicket : Event τ ο π → Option τ
  | .issued ticket => some ticket
  | _ => none

def usedTicket : Event τ ο π → Option τ
  | .rotated ticket _ => some ticket
  | _ => none

/-- The operation that an event commits. -/
def commits : Event τ ο π → Option (ℕ × ℕ)
  | .committed generation epoch _ _ => some (generation, epoch)
  | _ => none

/-- Neither starts an operation, nor ends one, nor rotates. -/
def Quiet : Event τ ο π → Prop
  | .issued _ => True
  | .read _ _ => True
  | _ => False

/-- What the register holds after an event, when it held `value` before. -/
def valueAfter (value : π) : Event τ ο π → π
  | .rotated _ fresh => fresh
  | .committed _ _ _ written => written
  | _ => value

end Event

namespace History

def issuedTickets (history : History τ ο π) : List τ := history.filterMap fun e => e.2.issuedTicket

def usedTickets (history : History τ ο π) : List τ := history.filterMap fun e => e.2.usedTicket

def commits (history : History τ ο π) : List (ℕ × ℕ) := history.filterMap fun e => e.2.commits

/-- The value of the last commit or rotation, `value` where there was none. -/
def lastValue (value : π) (history : History τ ο π) : π :=
  history.foldl (fun held e => e.2.valueAfter held) value

variable (history : History τ ο π) (now : ℚ) (event : Event τ ο π)

@[simp] theorem issuedTickets_snoc :
    issuedTickets (history ++ [(now, event)]) = history.issuedTickets ++
      event.issuedTicket.toList := by
  cases event <;> simp [issuedTickets, Event.issuedTicket]

@[simp] theorem usedTickets_snoc :
    usedTickets (history ++ [(now, event)]) = history.usedTickets ++ event.usedTicket.toList := by
  cases event <;> simp [usedTickets, Event.usedTicket]

@[simp] theorem commits_snoc :
    commits (history ++ [(now, event)]) = history.commits ++ event.commits.toList := by
  cases event <;> simp [commits, Event.commits]

@[simp] theorem lastValue_snoc (value : π) :
    lastValue value (history ++ [(now, event)]) = event.valueAfter (lastValue value history) := by
  simp [lastValue]

/-- The latest operation of the history: it began, or was already running, under this token and
deadline, and nothing started, ended or rotated since. -/
def Running (origin : Register τ ο π) (history : History τ ο π) (generation epoch : ℕ) (token : ο)
    (deadline : ℚ) : Prop :=
  (∃ earlier since started,
    history = earlier ++ (started, .begun generation epoch token deadline) :: since ∧
      ∀ e ∈ since, e.2.Quiet) ∨
  (origin.generation = generation ∧ origin.epoch = epoch ∧
    origin.lease = some (token, deadline) ∧ ∀ e ∈ history, e.2.Quiet)

variable {history now event}

theorem Running.snoc {origin : Register τ ο π} {generation epoch : ℕ} {token : ο} {deadline : ℚ}
    (h : Running origin history generation epoch token deadline) (quiet : event.Quiet) :
    Running origin (history ++ [(now, event)]) generation epoch token deadline := by
  rcases h with ⟨earlier, since, started, rfl, hsince⟩ | ⟨hgeneration, hepoch, hlease, hall⟩
  · refine .inl ⟨earlier, since ++ [(now, event)], started, by simp, ?_⟩
    exact forall_mem_append.mpr ⟨hsince, forall_mem_singleton.mpr quiet⟩
  · refine .inr ⟨hgeneration, hepoch, hlease, ?_⟩
    exact forall_mem_append.mpr ⟨hall, forall_mem_singleton.mpr quiet⟩

end History

/-! ## What holds along a legal history -/

namespace Legal

variable {origin r : Register τ ο π} {history : History τ ο π}

section

variable (h : Legal origin history r)
include h

theorem generation_eq : r.generation = origin.generation + history.usedTickets.length := by
  induction h with
  | nil => rfl
  | snoc _ step ih =>
    cases step <;> simp [Event.usedTicket, ih, Nat.add_assoc]

theorem value_eq : r.value = history.lastValue origin.value := by
  induction h with
  | nil => rfl
  | snoc _ step ih => cases step <;> simp [Event.valueAfter, ih]

theorem running {token : ο} {deadline : ℚ} (held : r.lease = some (token, deadline)) :
    history.Running origin r.generation r.epoch token deadline := by
  induction h with
  | nil => exact .inr ⟨rfl, rfl, held, by simp⟩
  | snoc _ step ih =>
    cases step with
    | issued ticket => exact (ih held).snoc trivial
    | rotated => cases held
    | begun token deadline =>
      cases held
      exact .inl ⟨_, [], _, rfl, by simp⟩
    | committed => cases held
    | read => exact (ih held).snoc trivial

/-- A used ticket was issued and is not held any more. -/
theorem tickets (hnone : origin.ticket = none) (hfresh : history.issuedTickets.Nodup) :
    history.usedTickets.Nodup ∧ (∀ t ∈ history.usedTickets, t ∈ history.issuedTickets) ∧
      ∀ t ∈ r.ticket, t ∈ history.issuedTickets ∧ t ∉ history.usedTickets := by
  induction h with
  | nil => simp [hnone, History.usedTickets]
  | snoc _ step ih =>
    rw [History.issuedTickets_snoc] at hfresh
    obtain ⟨hnodup, hissued, hheld⟩ := ih (nodup_append.mp hfresh).1
    cases step with
    | issued ticket =>
      have hnew := (nodup_append'.mp hfresh).2.2
      simp only [Event.issuedTicket, Option.toList_some, disjoint_singleton] at hnew
      refine ⟨by simpa [Event.usedTicket] using hnodup, ?_, ?_⟩
      · intro t ht
        have := hissued t (by simpa [Event.usedTicket] using ht)
        simp [this]
      · rintro t ⟨⟩
        have hunused : ticket ∉ History.usedTickets _ := fun ht => hnew (hissued ticket ht)
        simpa [Event.issuedTicket, Event.usedTicket] using hunused
    | @rotated ticket held value =>
      obtain ⟨hmem, hunused⟩ := hheld ticket held
      refine ⟨?_, ?_, by simp⟩
      · rw [History.usedTickets_snoc]
        refine nodup_append'.mpr ⟨hnodup, nodup_singleton ticket, ?_⟩
        rw [Event.usedTicket, Option.toList_some, disjoint_singleton]
        exact hunused
      · intro t ht
        rw [History.usedTickets_snoc, mem_append] at ht
        rw [History.issuedTickets_snoc, mem_append]
        left
        rcases ht with ht | ht
        · exact hissued t ht
        · rw [mem_singleton.mp ht]
          exact hmem
    | begun token deadline =>
      simpa [Event.usedTicket, Event.issuedTicket] using ⟨hnodup, hissued, hheld⟩
    | committed held live value =>
      simpa [Event.usedTicket, Event.issuedTicket] using ⟨hnodup, hissued, hheld⟩
    | read => simpa [Event.usedTicket, Event.issuedTicket] using ⟨hnodup, hissued, hheld⟩

/-- What was committed lies before the running operation. -/
theorem commits_before {generation epoch : ℕ} (hmem : (generation, epoch) ∈ history.commits) :
    generation < r.generation ∨
      generation = r.generation ∧ (epoch < r.epoch ∨ epoch = r.epoch ∧ r.lease = none) := by
  induction h with
  | nil => simp [History.commits] at hmem
  | snoc _ step ih =>
    rw [History.commits_snoc, mem_append] at hmem
    cases step with
    | committed held live value =>
      rcases hmem with hmem | hmem
      · rcases ih hmem with hlt | ⟨heq, hlt | ⟨heq', -⟩⟩
        · exact .inl hlt
        · exact .inr ⟨heq, .inl hlt⟩
        · exact .inr ⟨heq, .inr ⟨heq', rfl⟩⟩
      · simp only [Event.commits, Option.toList_some, mem_singleton, Prod.mk.injEq] at hmem
        exact .inr ⟨hmem.1, .inr ⟨hmem.2, rfl⟩⟩
    | issued => exact ih (by simpa [Event.commits] using hmem)
    | rotated =>
      have := ih (by simpa [Event.commits] using hmem)
      left
      dsimp only
      omega
    | begun =>
      have := ih (by simpa [Event.commits] using hmem)
      dsimp only
      omega
    | read => exact ih (by simpa [Event.commits] using hmem)

theorem commits_nodup : history.commits.Nodup := by
  induction h with
  | nil => simp [History.commits]
  | snoc earlier step ih =>
    rw [History.commits_snoc]
    cases step with
    | committed held live value =>
      refine nodup_append'.mpr ⟨ih, by simp [Event.commits], ?_⟩
      simp only [Event.commits, Option.toList_some, disjoint_singleton]
      intro hmem
      -- an operation that was committed holds no lease any more
      rcases earlier.commits_before hmem with hlt | ⟨-, hlt | ⟨-, hnone⟩⟩
      · exact absurd hlt (lt_irrefl _)
      · exact absurd hlt (lt_irrefl _)
      · rw [held] at hnone
        cases hnone
    | _ => simpa [Event.commits] using ih

/-- Every event of a legal history is a step from what its past leads to. -/
theorem split {before after : History τ ο π} {now : ℚ} {event : Event τ ο π}
    (heq : history = before ++ (now, event) :: after) :
    ∃ r₁ r₂, Legal origin before r₁ ∧ Step now r₁ event r₂ := by
  induction h generalizing after with
  | nil => simp at heq
  | snoc earlier step ih =>
    rcases eq_nil_or_concat after with rfl | ⟨rest, last, rfl⟩
    · obtain ⟨rfl, hlast⟩ := append_inj' heq rfl
      cases hlast
      exact ⟨_, _, earlier, step⟩
    · rw [concat_eq_append, ← cons_append, ← append_assoc] at heq
      exact ih (append_inj' heq rfl).1

end

end Legal

/-! ## The guarantees -/

/-- What fencing guarantees about a history that starts from `origin`. -/
structure Fenced (origin : Register τ ο π) (history : History τ ο π) : Prop where
  used_once : history.usedTickets.Nodup
  committed_once : history.commits.Nodup
  /-- A commit is made by the latest operation, in its generation and before its deadline. -/
  committed_under_lease : ∀ (before after : History τ ο π) now generation epoch token value,
    history = before ++ (now, .committed generation epoch token value) :: after →
      generation = origin.generation + before.usedTickets.length ∧
        ∃ deadline, now < deadline ∧ before.Running origin generation epoch token deadline
  /-- A read names the generation of its time and returns what was committed last. -/
  read_current : ∀ (before after : History τ ο π) now generation value,
    history = before ++ (now, .read generation value) :: after →
      generation = origin.generation + before.usedTickets.length ∧
        value = before.lastValue origin.value

theorem Legal.fenced {origin r : Register τ ο π} {history : History τ ο π}
    (h : Legal origin history r) (hnone : origin.ticket = none)
    (hfresh : history.issuedTickets.Nodup) : Fenced origin history where
  used_once := (h.tickets hnone hfresh).1
  committed_once := h.commits_nodup
  committed_under_lease := by
    intro before after now generation epoch token value heq
    obtain ⟨r₁, r₂, hbefore, hstep⟩ := h.split heq
    cases hstep with
    | committed held live value =>
      exact ⟨hbefore.generation_eq, _, live, hbefore.running held⟩
  read_current := by
    intro before after now generation value heq
    obtain ⟨r₁, r₂, hbefore, hstep⟩ := h.split heq
    cases hstep
    exact ⟨hbefore.generation_eq, hbefore.value_eq⟩

end AiPlatform.Foundation.Fencing
