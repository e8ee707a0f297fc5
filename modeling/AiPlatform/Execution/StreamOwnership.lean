import AiPlatform.Foundation.Runs
import Mathlib.Logic.Function.Basic

/-!
# Ownership of a model stream

A worker thread opens a stream for a task that may be cancelled while it waits; the task hands the
stream to a response body, which any number of threads read and close. A step is one section under
a lock, or one call outside of it: opening, reading, closing the iterator, closing the resource.
A label that does not apply leaves the state as it is.
-/
namespace AiPlatform.Execution.StreamOwnership

open AiPlatform.Foundation

/-! ## The response body -/

/-- Where a thread is in a call of `__next__` or `close`. -/
inductive ThreadState where
  /-- In no call. -/
  | idle
  /-- In `next(self._iterator)`. -/
  | inNext
  /-- Back from it, with a chunk or with an exception. -/
  | returned (raised : Bool)
  /-- After an exception, with the body marked as closed. -/
  | leaving
  /-- At the call of `close` in the `finally` block. -/
  | mustClose
  /-- Past the lock of `close`, at the iterator. -/
  | closing (closeIterator closeResource : Bool)
  /-- Past the iterator, at the resource. -/
  | iteratorDone (closeResource : Bool)
  deriving DecidableEq

/-- `OwnedModelResponseBody`, with its threads and the number of calls of `_resource_close`. -/
structure Body where
  reading : Bool
  closed : Bool
  iteratorClosed : Bool
  resourceClosed : Bool
  threads : Nat → ThreadState
  closes : Nat

def Body.initial : Body := ⟨false, false, false, false, fun _ => .idle, 0⟩

inductive BodyLabel where
  | next (thread : Nat)
  | back (thread : Nat) (raised : Bool)
  | mark (thread : Nat)
  | leave (thread : Nat)
  | close (thread : Nat)
  | iterator (thread : Nat)
  | resource (thread : Nat)

/-- The thread goes on to another place. -/
def Body.move (b : Body) (thread : Nat) (place : ThreadState) : Body :=
  { b with threads := Function.update b.threads thread place }

/-- The lock section of `close`. -/
def Body.beginClose (b : Body) (thread : Nat) : Body :=
  let closeIterator := !b.reading && !b.iteratorClosed
  { b with
    closed := true
    iteratorClosed := b.iteratorClosed || closeIterator
    resourceClosed := true }.move thread (.closing closeIterator (!b.resourceClosed))

def Body.step (b : Body) : BodyLabel → Body
  | .next i =>
    -- a closed body stops the iteration, a second reader is refused
    if b.threads i = .idle ∧ b.closed = false ∧ b.reading = false then
      { b with reading := true }.move i .inNext
    else b
  | .back i raised => if b.threads i = .inNext then b.move i (.returned raised) else b
  | .mark i =>
    if b.threads i = .returned true then { b with closed := true }.move i .leaving else b
  | .leave i =>
    if b.threads i = .returned false ∨ b.threads i = .leaving then
      { b with reading := false }.move i (if b.closed then .mustClose else .idle)
    else b
  | .close i => if b.threads i = .idle ∨ b.threads i = .mustClose then b.beginClose i else b
  | .iterator i =>
    match b.threads i with
    | .closing _ closeResource => b.move i (.iteratorDone closeResource)
    | _ => b
  | .resource i =>
    match b.threads i with
    | .iteratorDone true => { b with closes := b.closes + 1 }.move i .idle
    | .iteratorDone false => b.move i .idle
    | _ => b

/-- The thread has set `_reading` and not yet reset it. -/
def ThreadState.reads : ThreadState → Bool
  | .inNext | .returned _ | .leaving => true
  | _ => false

/-- The thread is going to close the resource, or is doing so. -/
def ThreadState.owes : ThreadState → Bool
  | .closing _ true | .iteratorDone true => true
  | _ => false

@[simp, grind =] theorem ThreadState.owes_closing (closeIterator closeResource : Bool) :
    (ThreadState.closing closeIterator closeResource).owes = closeResource := by
  cases closeResource <;> rfl

@[simp, grind =] theorem ThreadState.owes_iteratorDone (closeResource : Bool) :
    (ThreadState.iteratorDone closeResource).owes = closeResource := by
  cases closeResource <;> rfl

structure Body.Invariant (b : Body) : Prop where
  reader : ∀ i j, (b.threads i).reads = true → (b.threads j).reads = true → i = j
  reading : ∀ i, (b.threads i).reads = true → b.reading = true
  iteratorClosed : b.iteratorClosed = true → b.closed = true ∧ b.reading = false
  closing : ∀ i r, b.threads i = .closing true r → b.iteratorClosed = true
  unclaimed : b.resourceClosed = false → b.closes = 0 ∧ ∀ i, (b.threads i).owes = false
  claimed : b.resourceClosed = true → b.closed = true ∧
    ((b.closes = 1 ∧ ∀ i, (b.threads i).owes = false) ∨
      (b.closes = 0 ∧ ∃ i, (b.threads i).owes = true ∧ ∀ j, (b.threads j).owes = true → j = i))
  due : b.closed = true → b.resourceClosed = true ∨
    ∃ i, b.threads i = .leaving ∨ b.threads i = .mustClose

theorem Body.invariant_initial : Body.initial.Invariant where
  reader i j h := by cases h
  reading i h := by cases h
  iteratorClosed h := by cases h
  closing i r h := by cases h
  unclaimed _ := ⟨rfl, fun _ => rfl⟩
  claimed h := by cases h
  due h := by cases h

section Steps

variable {b : Body} {i : Nat}

section

variable (h : b.Invariant)
include h

/-- A thread goes on without touching the body. -/
theorem Body.Invariant.move {place : ThreadState} (hreads : place.reads = (b.threads i).reads)
    (howes : place.owes = (b.threads i).owes) (hclosing : ∀ r, place ≠ .closing true r)
    (hdue : b.threads i ≠ .leaving ∧ b.threads i ≠ .mustClose) : (b.move i place).Invariant := by
  obtain ⟨hreader, hreading, hiterator, hclaim, hunclaimed, hclaimed, hdues⟩ := h
  have hthreads : ∀ j, (Function.update b.threads i place j).reads = (b.threads j).reads ∧
      (Function.update b.threads i place j).owes = (b.threads j).owes := by
    intro j
    rw [Function.update_apply]
    split_ifs with hj
    · exact hj ▸ ⟨hreads, howes⟩
    · exact ⟨rfl, rfl⟩
  constructor
  all_goals simp only [Body.move, hthreads]
  · exact hreader
  · exact hreading
  · exact hiterator
  · intro j r hj
    rw [Function.update_apply] at hj
    split_ifs at hj
    · exact absurd hj (hclosing r)
    · exact hclaim j r hj
  · exact hunclaimed
  · exact hclaimed
  · intro hclosed
    refine (hdues hclosed).imp_right fun ⟨j, hj⟩ => ⟨j, ?_⟩
    rw [Function.update_of_ne]
    · exact hj
    · rintro rfl
      exact hj.elim hdue.1 hdue.2

/-- A reader enters the iterator of a body that is open and not being read. -/
theorem Body.Invariant.next (hclosed : b.closed = false) (hreading : b.reading = false) :
    ({ b with reading := true }.move i .inNext).Invariant := by
  obtain ⟨hreader, hreads, hiterator, hclosing, hunclaimed, hclaimed, hdue⟩ := h
  constructor
  all_goals
    simp only [Body.move, Function.update_apply]
    grind [ThreadState.reads, ThreadState.owes]

theorem Body.Invariant.mark (hthread : b.threads i = .returned true) :
    ({ b with closed := true }.move i .leaving).Invariant := by
  obtain ⟨hreader, hreads, hiterator, hclosing, hunclaimed, hclaimed, hdue⟩ := h
  constructor
  all_goals
    simp only [Body.move, Function.update_apply]
    grind [ThreadState.reads, ThreadState.owes]

/-- The reader leaves; if the body was closed meanwhile, it has to close the iterator. -/
theorem Body.Invariant.leave (hthread : b.threads i = .returned false ∨ b.threads i = .leaving) :
    ({ b with reading := false }.move i (if b.closed then .mustClose else .idle)).Invariant := by
  obtain ⟨hreader, hreads, hiterator, hclosing, hunclaimed, hclaimed, hdue⟩ := h
  constructor
  all_goals
    simp only [Body.move, Function.update_apply]
    grind [ThreadState.reads, ThreadState.owes]

theorem Body.Invariant.beginClose (hthread : b.threads i = .idle ∨ b.threads i = .mustClose) :
    (b.beginClose i).Invariant := by
  obtain ⟨hreader, hreads, hiterator, hclosing, hunclaimed, hclaimed, hdue⟩ := h
  constructor
  all_goals
    simp only [Body.beginClose, Body.move, Function.update_apply]
    grind [ThreadState.reads, ThreadState.owes]

theorem Body.Invariant.resource (hthread : b.threads i = .iteratorDone true) :
    ({ b with closes := b.closes + 1 }.move i .idle).Invariant := by
  obtain ⟨hreader, hreads, hiterator, hclosing, hunclaimed, hclaimed, hdue⟩ := h
  constructor
  all_goals
    simp only [Body.move, Function.update_apply]
    grind [ThreadState.reads, ThreadState.owes]

end

end Steps

theorem Body.Invariant.step {b : Body} (h : b.Invariant) (l : BodyLabel) :
    (b.step l).Invariant := by
  unfold Body.step
  split
  · split_ifs with hi
    · exact h.next hi.2.1 hi.2.2
    · exact h
  · split_ifs with hi
    · exact h.move (by rw [hi]; rfl) (by rw [hi]; rfl) nofun (by rw [hi]; exact ⟨nofun, nofun⟩)
    · exact h
  · split_ifs with hi
    · exact h.mark hi
    · exact h
  · split
    · exact h.leave ‹_›
    · exact h
  · split_ifs with hi
    · exact h.beginClose hi
    · exact h
  · split
    · rename_i hi
      exact h.move (by rw [hi]; rfl) (by simp [hi]) nofun (by rw [hi]; exact ⟨nofun, nofun⟩)
    · exact h
  · split
    · exact h.resource ‹_›
    · rename_i hi
      exact h.move (by rw [hi]; rfl) (by rw [hi]; rfl) nofun (by rw [hi]; exact ⟨nofun, nofun⟩)
    · exact h

/-- With this call the body comes to its end: a thread enters `close`, or `next` has raised. -/
def Body.Ends (b : Body) : BodyLabel → Prop
  | .close i => b.threads i = .idle
  | .back i raised => b.threads i = .inNext ∧ raised = true
  | _ => False

/-- The body is marked as closed, or the reader that has met an exception is about to mark it. -/
def Body.Closing (b : Body) : Prop :=
  b.closed = true ∨ ∃ i, b.threads i = .returned true

theorem Body.Ends.closing {b : Body} {l : BodyLabel} (h : b.Ends l) : (b.step l).Closing := by
  cases l with
  | close i =>
    change b.threads i = .idle at h
    rw [Body.step, if_pos (.inl h)]
    exact .inl rfl
  | back i raised =>
    obtain ⟨hthread, rfl⟩ : b.threads i = .inNext ∧ raised = true := h
    rw [Body.step, if_pos hthread]
    exact .inr ⟨i, Function.update_self i _ b.threads⟩
  | _ => exact False.elim h

/-- Nothing opens a closed body again. -/
theorem Body.closed_step {b : Body} (h : b.closed = true) (l : BodyLabel) :
    (b.step l).closed = true := by
  unfold Body.step
  split
  all_goals
    split
    all_goals first | exact h | rfl

/-- A thread that has met an exception stays where it is until it marks the body. -/
theorem Body.returned_step {b : Body} {i : Nat} (h : b.threads i = .returned true)
    (l : BodyLabel) : (b.step l).closed = true ∨ (b.step l).threads i = .returned true := by
  unfold Body.step
  split
  all_goals
    split
    all_goals first | exact .inr h | exact .inl rfl | skip
  all_goals
    refine .inr ((Function.update_of_ne ?_ _ _).trans h)
    rintro rfl
    simp_all

theorem Body.Closing.step {b : Body} (h : b.Closing) (l : BodyLabel) : (b.step l).Closing := by
  rcases h with hclosed | ⟨i, hi⟩
  · exact .inl (Body.closed_step hclosed l)
  · exact (Body.returned_step hi l).imp_right fun hstays => ⟨i, hstays⟩

/-! ## Opening and handing over -/

/-- Where the worker is in `open_and_deliver`. -/
inductive WorkerState where
  | queued
  | opening
  /-- The stream is open and not yet delivered. -/
  | opened
  /-- The delivery was rejected; the worker has to close the stream. -/
  | rejecting
  | finished
  | failed
  deriving DecidableEq

/-- Where the task is: in `open_owned_model_stream`, then in the assembly of the response. -/
inductive CallerState where
  | waiting
  /-- An exception is under way to the `except` block. -/
  | failing
  /-- Past the `except` block's lock, with a stream to close. -/
  | releasing
  /-- The stream was returned. -/
  | accepted
  /-- The assembly failed; the stream has to be closed. -/
  | dropping
  /-- The response with the body was returned. -/
  | handed
  | gone
  deriving DecidableEq

/-- The worker has the stream. -/
def WorkerState.holds : WorkerState → Nat
  | .opened | .rejecting => 1
  | _ => 0

/-- The task, or the body it has made, has the stream. -/
def CallerState.holds : CallerState → Nat
  | .releasing | .accepted | .dropping | .handed => 1
  | _ => 0

/-- `closes` counts the calls of the stream's `close` by the worker and the task. -/
structure Ownership where
  worker : WorkerState
  caller : CallerState
  abandoned : Bool
  delivered : Bool
  opened : Bool
  closes : Nat
  body : Body

inductive Label where
  | workerBegin
  | workerOpen
  | workerFail
  | workerDeliver
  | workerClose
  | cancel
  | resume
  | abandon
  | release
  | assemble
  | assembleFail
  | drop
  | body (label : BodyLabel)

namespace Ownership

def initial : Ownership := ⟨.queued, .waiting, false, false, false, 0, .initial⟩

def step (s : Ownership) : Label → Ownership
  | .workerBegin =>
    if s.worker = .queued then
      if s.abandoned then { s with worker := .finished } else { s with worker := .opening }
    else s
  | .workerOpen =>
    if s.worker = .opening then { s with worker := .opened, opened := true } else s
  | .workerFail => if s.worker = .opening then { s with worker := .failed } else s
  | .workerDeliver =>
    if s.worker = .opened then
      if s.abandoned then { s with worker := .rejecting }
      else { s with worker := .finished, delivered := true }
    else s
  | .workerClose =>
    if s.worker = .rejecting then { s with worker := .finished, closes := s.closes + 1 } else s
  | .cancel => if s.caller = .waiting then { s with caller := .failing } else s
  | .resume =>
    if s.caller = .waiting ∧ s.worker = .finished then
      -- without a stream the handoff is missing
      if s.delivered then { s with delivered := false, caller := .accepted }
      else { s with caller := .failing }
    else if s.caller = .waiting ∧ s.worker = .failed then { s with caller := .failing }
    else s
  | .abandon =>
    if s.caller = .failing then
      { s with
        abandoned := true
        delivered := false
        caller := if s.delivered then .releasing else .gone }
    else s
  | .release =>
    if s.caller = .releasing then { s with caller := .gone, closes := s.closes + 1 } else s
  | .assemble => if s.caller = .accepted then { s with caller := .handed } else s
  | .assembleFail => if s.caller = .accepted then { s with caller := .dropping } else s
  | .drop => if s.caller = .dropping then { s with caller := .gone, closes := s.closes + 1 } else s
  | .body label => if s.caller = .handed then { s with body := s.body.step label } else s

def machine : Machine Ownership Label := ⟨initial, step⟩

/-- The places an open stream is at, and the times it was closed there. -/
def holders (s : Ownership) : Nat :=
  s.worker.holds + s.delivered.toNat + s.caller.holds + s.closes

structure Invariant (s : Ownership) : Prop where
  holders : s.holders = s.opened.toNat
  unopened : s.worker = .queued ∨ s.worker = .opening → s.opened = false
  abandoned : s.abandoned = true → s.delivered = false
  settled : s.caller ≠ .waiting → s.caller ≠ .failing → s.delivered = false ∧
    (s.abandoned = true ∨ s.worker = .finished ∨ s.worker = .failed)
  body : s.body.Invariant
  unhanded : s.caller ≠ .handed → s.body = .initial

theorem invariant_initial : initial.Invariant :=
  ⟨rfl, fun _ => rfl, nofun, fun h => absurd rfl h, Body.invariant_initial, fun _ => rfl⟩

theorem Invariant.step {s : Ownership} (h : s.Invariant) (l : Label) : (s.step l).Invariant := by
  obtain ⟨worker, caller, abandoned, delivered, opened, closes, body⟩ := s
  have ⟨hholders, hunopened, habandoned, hsettled, hbody, hunhanded⟩ := h
  unfold Ownership.holders at hholders
  dsimp only at hholders hunopened habandoned hsettled hbody hunhanded
  unfold Ownership.step
  cases l with
  | workerBegin =>
    dsimp only
    split_ifs with hworker ha
    · subst hworker
      exact ⟨hholders, nofun, habandoned, fun h h' => ⟨(hsettled h h').1, .inr (.inl rfl)⟩, hbody,
        hunhanded⟩
    · subst hworker
      exact ⟨hholders, fun _ => hunopened (.inl rfl), habandoned, by simp_all, hbody, hunhanded⟩
    · exact h
  | workerOpen =>
    dsimp only
    split_ifs with hworker
    · -- nobody had the stream before
      subst hworker
      obtain rfl := hunopened (.inr rfl)
      refine ⟨?_, nofun, habandoned, by simp_all, hbody, hunhanded⟩
      simp only [Ownership.holders, WorkerState.holds, Bool.toNat_false,
        Bool.toNat_true] at hholders ⊢
      omega
    · exact h
  | workerFail =>
    dsimp only
    split_ifs with hworker
    · subst hworker
      exact ⟨hholders, nofun, habandoned, fun h h' => ⟨(hsettled h h').1, .inr (.inr rfl)⟩, hbody,
        hunhanded⟩
    · exact h
  | workerDeliver =>
    dsimp only
    split_ifs with hworker ha
    · subst hworker
      exact ⟨hholders, nofun, habandoned, fun h h' => ⟨(hsettled h h').1, .inl ha⟩,
        hbody, hunhanded⟩
    · subst hworker
      refine ⟨?_, nofun, fun h => absurd h ha, by simp_all, hbody, hunhanded⟩
      have hone : opened.toNat ≤ 1 := Bool.toNat_le opened
      simp only [Ownership.holders, WorkerState.holds, Bool.toNat_true] at hholders ⊢
      omega
    · exact h
  | workerClose =>
    dsimp only
    split_ifs with hworker
    · subst hworker
      refine ⟨?_, nofun, habandoned, fun h h' => ⟨(hsettled h h').1, .inr (.inl rfl)⟩,
        hbody, hunhanded⟩
      simp only [Ownership.holders, WorkerState.holds] at hholders ⊢
      omega
    · exact h
  | cancel =>
    dsimp only
    split_ifs with hcaller
    · subst hcaller
      exact ⟨hholders, hunopened, habandoned, fun _ h => absurd rfl h, hbody,
        fun _ => hunhanded nofun⟩
    · exact h
  | resume =>
    dsimp only
    split_ifs with hready hdelivered hfailed
    · obtain ⟨rfl, rfl⟩ := hready
      subst hdelivered
      refine ⟨?_, nofun, fun _ => rfl, fun _ _ => ⟨rfl, .inr (.inl rfl)⟩, hbody,
        fun _ => hunhanded nofun⟩
      simp only [Ownership.holders, CallerState.holds, Bool.toNat_false,
        Bool.toNat_true] at hholders ⊢
      omega
    · obtain ⟨rfl, rfl⟩ := hready
      exact ⟨hholders, nofun, habandoned, fun _ h => absurd rfl h, hbody, fun _ => hunhanded nofun⟩
    · obtain ⟨rfl, rfl⟩ := hfailed
      exact ⟨hholders, nofun, habandoned, fun _ h => absurd rfl h, hbody, fun _ => hunhanded nofun⟩
    · exact h
  | abandon =>
    dsimp only
    split_ifs with hcaller hdelivered
    · subst hcaller hdelivered
      refine ⟨?_, hunopened, fun _ => rfl, fun _ _ => ⟨rfl, .inl rfl⟩, hbody,
        fun _ => hunhanded nofun⟩
      simp only [Ownership.holders, CallerState.holds, Bool.toNat_false,
        Bool.toNat_true] at hholders ⊢
      omega
    · subst hcaller
      obtain rfl : delivered = false := by simpa using hdelivered
      exact ⟨hholders, hunopened, fun _ => rfl, fun _ _ => ⟨rfl, .inl rfl⟩, hbody,
        fun _ => hunhanded nofun⟩
    · exact h
  | release =>
    dsimp only
    split_ifs with hcaller
    · subst hcaller
      refine ⟨?_, hunopened, habandoned, fun _ _ => hsettled nofun nofun, hbody,
        fun _ => hunhanded nofun⟩
      simp only [Ownership.holders, CallerState.holds] at hholders ⊢
      omega
    · exact h
  | assemble =>
    dsimp only
    split_ifs with hcaller
    · subst hcaller
      exact ⟨hholders, hunopened, habandoned, fun _ _ => hsettled nofun nofun, hbody,
        fun h => absurd rfl h⟩
    · exact h
  | assembleFail =>
    dsimp only
    split_ifs with hcaller
    · subst hcaller
      exact ⟨hholders, hunopened, habandoned, fun _ _ => hsettled nofun nofun, hbody,
        fun _ => hunhanded nofun⟩
    · exact h
  | drop =>
    dsimp only
    split_ifs with hcaller
    · subst hcaller
      refine ⟨?_, hunopened, habandoned, fun _ _ => hsettled nofun nofun, hbody,
        fun _ => hunhanded nofun⟩
      simp only [Ownership.holders, CallerState.holds] at hholders ⊢
      omega
    · exact h
  | body label =>
    dsimp only
    split_ifs with hhanded
    · exact ⟨hholders, hunopened, habandoned, hsettled, hbody.step label,
        fun hne => absurd hhanded hne⟩
    · exact h

theorem invariant_run (labels : List Label) : (machine.run labels).Invariant :=
  Machine.invariant_reachable invariant_initial (fun _ l h => h.step l) labels

/-- The worker and the task have come to their end. -/
def Settled (s : Ownership) : Prop :=
  (s.worker = .queued ∨ s.worker = .finished ∨ s.worker = .failed) ∧
    (s.caller = .handed ∨ s.caller = .gone)

/-- Somewhere in the run the body was closed from outside, or its `next` raised. -/
def BodyEnds (labels : List Label) : Prop :=
  ∃ before label after, labels = before ++ .body label :: after ∧
    (machine.run before).caller = .handed ∧ (machine.run before).body.Ends label

/-- The run is over: if it has made a body, then the body was closed or its `next` raised, and no
call on it is under way. -/
def Over (labels : List Label) : Prop :=
  (machine.run labels).Settled ∧ ((machine.run labels).caller = .handed →
    BodyEnds labels ∧ ∀ i, (machine.run labels).body.threads i = .idle)

/-- What is asked of the handling of one stream, in the state `s` to which the run has led. -/
structure Owned (labels : List Label) (s : Ownership) : Prop where
  handed_or_closed : s.Settled → s.opened = true →
    s.caller = .handed ∧ s.closes = 0 ∨ s.caller ≠ .handed ∧ s.closes = 1
  closes_le : s.closes + s.body.closes ≤ 1
  closes_eq : Over labels → s.opened = true → s.closes + s.body.closes = 1
  iterator : ∀ i j closeResource, s.body.threads i = .inNext →
    s.body.threads j ≠ .closing true closeResource

end Ownership

theorem Body.Invariant.closes_le {b : Body} (h : b.Invariant) : b.closes ≤ 1 := by
  cases hr : b.resourceClosed with
  | false => rw [(h.unclaimed hr).1]; exact Nat.zero_le 1
  | true => rcases (h.claimed hr).2 with ⟨hone, -⟩ | ⟨hzero, -⟩ <;> omega

/-- When all calls are over, a closed body has closed its resource. -/
theorem Body.Invariant.closes_eq {b : Body} (h : b.Invariant) (hclosed : b.closed = true)
    (hidle : ∀ i, b.threads i = .idle) : b.closes = 1 := by
  have hresource : b.resourceClosed = true := by
    refine (h.due hclosed).resolve_right ?_
    rintro ⟨i, hi | hi⟩
    · rw [hidle i] at hi
      cases hi
    · rw [hidle i] at hi
      cases hi
  rcases (h.claimed hresource).2 with ⟨hone, -⟩ | ⟨-, i, hi, -⟩
  · exact hone
  · rw [hidle i] at hi
    cases hi

namespace Ownership

variable {s : Ownership}

theorem Invariant.handed_or_closed (h : s.Invariant) (hsettled : s.Settled)
    (hopened : s.opened = true) :
    s.caller = .handed ∧ s.closes = 0 ∨ s.caller ≠ .handed ∧ s.closes = 1 := by
  obtain ⟨hworker, hcaller⟩ := hsettled
  have hholds : s.worker.holds = 0 := by
    rcases hworker with hw | hw | hw <;> rw [hw] <;> rfl
  have hslot : s.delivered = false :=
    (h.settled (by rcases hcaller with hc | hc <;> rw [hc] <;> nofun)
      (by rcases hcaller with hc | hc <;> rw [hc] <;> nofun)).1
  have hholders := h.holders
  simp only [Ownership.holders, hholds, hslot, hopened, Bool.toNat_false,
    Bool.toNat_true] at hholders
  rcases hcaller with hc | hc
  · left
    rw [hc, CallerState.holds] at hholders
    exact ⟨hc, by omega⟩
  · right
    rw [hc] at hholders
    change 0 + 0 + 0 + s.closes = 1 at hholders
    exact ⟨by rw [hc]; nofun, by omega⟩

theorem Invariant.closes_le (h : s.Invariant) : s.closes + s.body.closes ≤ 1 := by
  have hbody := h.body.closes_le
  have hholders := h.holders
  have hopened := Bool.toNat_le s.opened
  unfold Ownership.holders at hholders
  by_cases hcaller : s.caller = .handed
  · rw [hcaller, CallerState.holds] at hholders
    omega
  · rw [h.unhanded hcaller]
    change s.closes + 0 ≤ 1
    omega

/-- What the task has handed over stays so, and its body goes on closing. -/
theorem closing_step (h : s.caller = .handed ∧ s.body.Closing) (l : Label) :
    (s.step l).caller = .handed ∧ (s.step l).body.Closing := by
  obtain ⟨worker, caller, abandoned, delivered, opened, closes, body⟩ := s
  obtain ⟨rfl, hclosing⟩ := h
  cases l with
  | workerBegin | workerOpen | workerFail | workerDeliver | workerClose =>
    dsimp only [Ownership.step]
    split_ifs <;> exact ⟨rfl, hclosing⟩
  | body label => exact ⟨rfl, hclosing.step label⟩
  | _ => exact ⟨rfl, hclosing⟩

theorem BodyEnds.closing {labels : List Label} (h : BodyEnds labels) :
    (machine.run labels).body.Closing := by
  obtain ⟨before, label, after, rfl, hcaller, hends⟩ := h
  have hstep : (machine.step (machine.run before) (.body label)).caller = .handed ∧
      (machine.step (machine.run before) (.body label)).body.Closing := by
    change ((machine.run before).step (.body label)).caller = .handed ∧
      ((machine.run before).step (.body label)).body.Closing
    rw [Ownership.step, if_pos hcaller]
    exact ⟨hcaller, hends.closing⟩
  rw [Machine.run_append, Machine.runFrom_cons]
  exact (Machine.invariant_runFrom (I := fun s : Ownership => s.caller = .handed ∧ s.body.Closing)
    (fun _ l h _ => closing_step h l) hstep (Machine.meets_of_forall fun _ _ => trivial)).2

theorem Over.closes_eq {labels : List Label} (h : Over labels)
    (hopened : (machine.run labels).opened = true) :
    (machine.run labels).closes + (machine.run labels).body.closes = 1 := by
  have hinvariant := invariant_run labels
  rcases hinvariant.handed_or_closed h.1 hopened with ⟨hcaller, hzero⟩ | ⟨hcaller, hone⟩
  · obtain ⟨hends, hidle⟩ := h.2 hcaller
    have hclosed : (machine.run labels).body.closed = true := by
      refine hends.closing.resolve_right ?_
      rintro ⟨i, hi⟩
      rw [hidle i] at hi
      cases hi
    rw [hzero, hinvariant.body.closes_eq hclosed hidle]
  · rw [hone, hinvariant.unhanded hcaller]
    rfl

theorem Invariant.iterator (h : s.Invariant) (i j : Nat) (closeResource : Bool)
    (hi : s.body.threads i = .inNext) : s.body.threads j ≠ .closing true closeResource := by
  intro hj
  have hreading := h.body.reading i (by rw [hi]; rfl)
  have hnot := (h.body.iteratorClosed (h.body.closing j closeResource hj)).2
  rw [hreading] at hnot
  cases hnot

end Ownership

/-- In every interleaving of the worker, the cancellation, the readers and the closers, an open
stream is handed to the body or closed, its resource is closed at most once, and exactly once when
the run is over, and the iterator is not closed while a thread is in it. -/
theorem stream_owned (labels : List Label) :
    Ownership.Owned labels (Ownership.machine.run labels) where
  handed_or_closed := (Ownership.invariant_run labels).handed_or_closed
  closes_le := (Ownership.invariant_run labels).closes_le
  closes_eq := Ownership.Over.closes_eq
  iterator := (Ownership.invariant_run labels).iterator

/-- A body that is closed while thread 0 reads: thread 1 closes the resource, thread 0 the
iterator. -/
def closedWhileRead : List Label :=
  [.workerBegin, .workerOpen, .workerDeliver, .resume, .assemble, .body (.next 0), .body (.close 1),
    .body (.iterator 1), .body (.resource 1), .body (.back 0 false), .body (.leave 0),
    .body (.close 0), .body (.iterator 0), .body (.resource 0)]

theorem over_closedWhileRead : Ownership.Over closedWhileRead := by
  refine ⟨⟨.inr (.inl rfl), .inl rfl⟩, fun _ =>
    ⟨⟨closedWhileRead.take 6, .close 1, closedWhileRead.drop 7, rfl, by decide, rfl⟩, fun i => ?_⟩⟩
  match i with
  | 0 => rfl
  | 1 => rfl
  | _ + 2 => rfl

/-- The task is cancelled while the worker opens the stream. -/
def cancelledOpening : List Label :=
  [.workerBegin, .cancel, .abandon, .workerOpen, .workerDeliver, .workerClose]

theorem over_cancelledOpening : Ownership.Over cancelledOpening :=
  ⟨⟨.inr (.inl rfl), .inr rfl⟩, fun h => by cases h⟩

/-- Closed by the body in one run and by the worker in the other, each time once. -/
theorem stream_owned_closedWhileRead_cancelledOpening :
    ((Ownership.machine.run closedWhileRead).closes +
      (Ownership.machine.run closedWhileRead).body.closes = 1 ∧
      (Ownership.machine.run closedWhileRead).body.iteratorClosed = true) ∧
    (Ownership.machine.run cancelledOpening).closes +
      (Ownership.machine.run cancelledOpening).body.closes = 1 :=
  ⟨⟨(stream_owned closedWhileRead).closes_eq over_closedWhileRead (by decide), by decide⟩,
    (stream_owned cancelledOpening).closes_eq over_cancelledOpening (by decide)⟩

end AiPlatform.Execution.StreamOwnership
