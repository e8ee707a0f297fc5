import AiPlatform.Queue.MessageKeys

/-!
# Slots and rows of the queue

`Slots` is the part of the queue's consistency that rests on removal alone: if no removal addresses
a run whose index row is shared with a message of another run, every message has one slot, queued
messages have all their queue rows and processing messages have their lease rows.
-/
namespace AiPlatform.Queue

open AiPlatform.Foundation Hash SortedSet

structure QueuedRow (env : Environment) (s : Store) (raw : RunPayload) : Prop where
  metadata : hexists s.queuedMeta (env.messageIdForRaw raw) = true
  index : env.messageIdForRaw raw ∈ decodeIndex (hget s.queuedRunIndex raw.indexField)
  order : (zscore s.queuedOrder (env.messageIdForRaw raw)).isSome = true

structure Slots (env : Environment) (s : Store) : Prop where
  queuedNodup : s.queued.Nodup
  processingNodup : s.processing.Nodup
  queuedRow : ∀ raw ∈ s.queued, QueuedRow env s raw
  unleased : ∀ raw ∈ s.queued, hget s.processingMeta (env.messageIdForRaw raw) = none
  leased : ∀ raw ∈ s.processing, hexists s.processingMeta (env.messageIdForRaw raw) = true
  retried : ∀ raw ∈ s.processing, hexists s.retryMeta (env.messageIdForRaw raw) = true

/-- A removal finds only messages of its own run under the run's index field. -/
def OwnRemoval (s : Store) (l : Label) : Prop :=
  ∀ run ∈ l.removedRun, ∀ raw ∈ s.queued,
    raw.indexField = queuedRunIndexField run.1 run.2 → raw.IsFor run.1 run.2

instance (s : Store) (l : Label) : Decidable (OwnRemoval s l) :=
  inferInstanceAs (Decidable (∀ run ∈ l.removedRun, ∀ raw ∈ s.queued, _ → _))

section

variable {env : Environment} {s s' : Store} {l : Label}

namespace Slots

theorem empty (env : Environment) : Slots env .empty := by
  constructor <;> simp [Store.empty]

theorem of_rows (rows : ∀ raw, MessageRows env False s raw)
    (retried : ∀ raw ∈ s.processing, hexists s.retryMeta (env.messageIdForRaw raw) = true) :
    Slots env s where
  queuedNodup := List.nodup_iff_count_le_one.mpr fun raw => (rows raw).queuedOnce
  processingNodup := List.nodup_iff_count_le_one.mpr fun raw => (rows raw).processingOnce
  queuedRow raw hraw :=
    ⟨(rows raw).metadata.1 hraw, (rows raw).index hraw, (rows raw).order.1 hraw⟩
  unleased raw := (rows raw).unleased
  leased raw := (rows raw).leased
  retried := retried

section

variable {raw : RunPayload} (slots : Slots env s)
include slots

theorem rows (raw : RunPayload) : MessageRows env False s raw where
  queuedOnce := List.nodup_iff_count_le_one.mp slots.queuedNodup raw
  metadata := ⟨fun h => (slots.queuedRow raw h).metadata, False.elim⟩
  order := ⟨fun h => (slots.queuedRow raw h).order, False.elim⟩
  index h := (slots.queuedRow raw h).index
  unleased := slots.unleased raw
  processingOnce := List.nodup_iff_count_le_one.mp slots.processingNodup raw
  leased := slots.leased raw

theorem disjoint (hq : raw ∈ s.queued) : raw ∉ s.processing :=
  (slots.rows raw).not_processing hq

theorem rewritten (h : Rewritten s s') : Slots env s' := by
  refine of_rows (fun raw => (slots.rows raw).same (.of_rewritten h)) fun raw hraw => ?_
  have hrow := slots.retried raw (h.processing ▸ hraw)
  rw [← Bool.not_eq_false, hexists_eq_false] at hrow ⊢
  rwa [(h.retryRow _).eq_none]

/-- Taking the entry at an index out of the queue takes out its message and only that. -/
theorem mem_takeQueued {index : Int} (indexed : lindex s.queued index = some raw)
    (other : RunPayload) :
    other ∈ (s.takeQueued index raw.indexField (env.messageIdForRaw raw)).queued ↔
      other ∈ s.queued ∧ other ≠ raw := by
  simp only [Store.takeQueued, removeAt_eq_eraseIdx]
  exact mem_eraseIdx_of_nodup slots.queuedNodup (getElem?_of_lindex indexed)

theorem mem_lremFirst {other : RunPayload} (h : other ∈ lremFirst s.processing raw) :
    other ≠ raw ∧ other ∈ s.processing :=
  (mem_lremFirst_of_nodup slots.processingNodup).mp h

/-- Only a message that leaves the processing list loses its retry row. -/
theorem retried_change {sys : System} {events : List Event} (rows : Rows env s)
    (change : Change env sys l s events s') :
    ∀ raw ∈ s'.processing, hexists s'.retryMeta (env.messageIdForRaw raw) = true := by
  have hkept : ∀ raw other : RunPayload, other ∈ lremFirst s.processing raw →
      hexists (hdel s.retryMeta (env.messageIdForRaw raw)) (env.messageIdForRaw other) = true := by
    intro raw other hother
    obtain ⟨hne, hp⟩ := slots.mem_lremFirst hother
    simp [env.messageIdForRaw_injective.ne hne, slots.retried other hp]
  cases change with
  | quiet same => exact fun raw hraw => same.retryMeta ▸ slots.retried raw (same.processing ▸ hraw)
  | claim | push => exact slots.retried
  | remove removal =>
    have removes := removal.removes rows
    exact fun raw hraw => removes.retryMeta ▸ slots.retried raw (removes.processing ▸ hraw)
  | grant request =>
    subst request
    intro other hother
    obtain rfl | hp := List.mem_cons.mp hother
    · simp [Store.grantLease, System.leaseRequest]
    · have hrow := slots.retried other hp
      simp [Store.grantLease, Store.takeQueued, hrow]
  | @dropInvalid _ dropped _ _ _ _ _ _ rejected indexed =>
    intro other hother
    have hne : other ≠ dropped := by
      rintro rfl
      exact slots.disjoint (mem_of_lindex indexed) hother
    simpa [env.messageIdForRaw_injective.eq_iff, hne] using slots.retried other hother
  | heartbeat =>
    intro other hother
    simp [Store.recordHeartbeat, slots.retried other hother]
  | settle settles row held rawEq =>
    rw [rows.settled_messageId row rawEq]
    exact hkept _
  | requeue =>
    intro other hother
    have hrow := slots.retried other (slots.mem_lremFirst hother).2
    simp [Store.requeued, hrow]
  | deadLetter => exact hkept _

theorem change {sys : System} {events : List Event} (rows : Rows env s) (own : OwnRemoval s l)
    (change : Change env sys l s events s') : Slots env s' := by
  refine of_rows (fun raw => (slots.rows raw).change rows ?_ change)
    (slots.retried_change rows change)
  exact fun run hrun hfield other hother hindex =>
    own run hrun other hother (hindex.trans hfield.symm)

end

end Slots

theorem OwnRemoval.rewritten (own : OwnRemoval s l) (h : Rewritten s s') : OwnRemoval s' l :=
  fun run hrun raw hraw => own run hrun raw (h.queued ▸ hraw)

theorem Slots.step {sys : System} (slots : Slots env sys.store) (wf : WellFormed env sys)
    (own : OwnRemoval sys.store l) : Slots env (sys.step env l).store := by
  obtain ⟨s₁, kept, change⟩ := sys.effect_change env l
  exact (slots.rewritten kept).change (wf.rows.rewritten kept) (own.rewritten kept) change

end

end AiPlatform.Queue
