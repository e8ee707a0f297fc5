import Mathlib.Data.List.Perm.Basic
import AiPlatform.Queue.WellFormed

/-!
# The keys of one message

`MessageKeys` says that the list, the metadata, the order and the index agree about one message,
whatever is wrong with others. A step keeps it for every message of an index field on which no
removal meets a message of another run; nothing is asked of the other fields.
-/
namespace AiPlatform.Queue

open AiPlatform.Foundation Hash SortedSet List

structure MessageKeys (env : Environment) (s : Store) (raw : RunPayload) : Prop where
  queuedOnce : s.queued.count raw ≤ 1
  metadata : hexists s.queuedMeta (env.messageIdForRaw raw) = true ↔ raw ∈ s.queued
  order : (zscore s.queuedOrder (env.messageIdForRaw raw)).isSome = true ↔ raw ∈ s.queued
  index : raw ∈ s.queued →
    env.messageIdForRaw raw ∈ decodeIndex (hget s.queuedRunIndex raw.indexField)
  unleased : raw ∈ s.queued → hget s.processingMeta (env.messageIdForRaw raw) = none
  processingOnce : s.processing.count raw ≤ 1
  leased : raw ∈ s.processing → hexists s.processingMeta (env.messageIdForRaw raw) = true

/-- Every message filed under the field has its keys in order. -/
def FieldKeys (env : Environment) (field : String) (s : Store) : Prop :=
  ∀ raw : RunPayload, raw.indexField = field → MessageKeys env s raw

/-- The two stores hold the same about one message. -/
structure SameMessage (env : Environment) (s s' : Store) (raw : RunPayload) : Prop where
  queued : s'.queued.count raw = s.queued.count raw
  metadata : hexists s'.queuedMeta (env.messageIdForRaw raw) =
    hexists s.queuedMeta (env.messageIdForRaw raw)
  order : zscore s'.queuedOrder (env.messageIdForRaw raw) =
    zscore s.queuedOrder (env.messageIdForRaw raw)
  index : env.messageIdForRaw raw ∈ decodeIndex (hget s'.queuedRunIndex raw.indexField) ↔
    env.messageIdForRaw raw ∈ decodeIndex (hget s.queuedRunIndex raw.indexField)
  processing : s'.processing.count raw = s.processing.count raw
  leased : hget s'.processingMeta (env.messageIdForRaw raw) = none ↔
    hget s.processingMeta (env.messageIdForRaw raw) = none

def Label.removedRun : Label → Option (String × String)
  | .removeQueued tenantId runId => some (tenantId, runId)
  | .removeQueuedRun tenantId runId _ => some (tenantId, runId)
  | _ => none

/-- A row that every listed message has, and, where it is strict, no other message. -/
def Marks (strict row listed : Prop) : Prop :=
  (listed → row) ∧ (strict → row → listed)

/-- What one message asks of a store. It is strict where the keys are in order, and not between the
commands of a helper, which leave rows of a message that is gone. -/
structure MessageRows (env : Environment) (strict : Prop) (s : Store)
    (raw : RunPayload) : Prop where
  queuedOnce : s.queued.count raw ≤ 1
  metadata : Marks strict (hexists s.queuedMeta (env.messageIdForRaw raw) = true) (raw ∈ s.queued)
  order : Marks strict ((zscore s.queuedOrder (env.messageIdForRaw raw)).isSome = true)
    (raw ∈ s.queued)
  index : raw ∈ s.queued →
    env.messageIdForRaw raw ∈ decodeIndex (hget s.queuedRunIndex raw.indexField)
  unleased : raw ∈ s.queued → hget s.processingMeta (env.messageIdForRaw raw) = none
  processingOnce : s.processing.count raw ≤ 1
  leased : raw ∈ s.processing → hexists s.processingMeta (env.messageIdForRaw raw) = true

section

variable {env : Environment} {s s' : Store}

/-! ## Index rows -/

theorem mem_decodeIndex_removeRunIndexMessage (index : RunIndex) (field messageId : String)
    {field' id : String} :
    id ∈ decodeIndex (hget (removeRunIndexMessage index field messageId) field') ↔
      id ∈ decodeIndex (hget index field') ∧ ¬ (field' = field ∧ id = messageId) := by
  by_cases hf : field' = field
  · subst hf
    unfold removeRunIndexMessage
    split
    · rename_i hrow
      simp [hrow, decodeIndex]
    · rename_i ids hrow
      dsimp only
      split
      · rename_i hnil
        have hnone : ∀ a ∈ ids, a ≠ "" → a = messageId := by simpa using hnil
        simp only [hget_hdel, if_true, decodeIndex, hrow, not_mem_nil, mem_filter,
          decide_eq_true_eq, true_and, false_iff, not_and, not_not]
        exact fun h => hnone id h.1 h.2
      · simp only [hget_hset, if_true, decodeIndex, hrow, mem_filter, decide_eq_true_eq,
          true_and]
        tauto
    · rename_i value hrow
      split
      · rename_i heq
        subst heq
        simp only [hget_hdel, if_true, decodeIndex, hrow]
        split <;> simp
      · rename_i hne
        simp only [decodeIndex, hrow]
        split
        · simp only [mem_singleton, true_and]
          exact ⟨fun h => ⟨h, h ▸ hne⟩, fun h => h.1⟩
        · simp
  · have hget' : hget (removeRunIndexMessage index field messageId) field' = hget index field' := by
      unfold removeRunIndexMessage
      split
      · rfl
      · dsimp only
        split <;> simp [hf]
      · split <;> simp [hf]
    simp [hget', hf]

/-- The ids an admitted or requeued message leaves under the fields. -/
theorem mem_decodeIndex_push (index : RunIndex) (raw : RunPayload) {field id : String} :
    id ∈ decodeIndex (hget (hset index raw.indexField (.table
        ((decodeIndex (hget index raw.indexField)).filter (· ≠ env.messageIdForRaw raw) ++
          [env.messageIdForRaw raw]))) field) ↔
      id ∈ decodeIndex (hget index field) ∨
        field = raw.indexField ∧ id = env.messageIdForRaw raw := by
  have hne := env.messageIdForRaw_ne_empty raw
  have hfilter := decodeIndex_table_filter (hget index raw.indexField)
    (fun id => id ≠ env.messageIdForRaw raw)
  simp only [decodeIndex] at hfilter
  by_cases hf : field = raw.indexField
  · subst hf
    simp only [hget_hset, if_true, decodeIndex, filter_append, hfilter, mem_append,
      mem_filter, filter_singleton, decide_eq_true_eq, true_and]
    by_cases hid : id = env.messageIdForRaw raw <;> simp [hid, hne]
  · simp [hf]

theorem Store.takeInvalid_eq (rows : Rows env s) {raw : RunPayload}
    (hrow : hexists s.queuedMeta (env.messageIdForRaw raw) = true) (index : Int) :
    s.takeInvalid index (env.messageIdForRaw raw) =
      s.takeQueued index raw.indexField (env.messageIdForRaw raw) := by
  obtain ⟨row, hrow⟩ := (hexists_eq_true _ _).mp hrow
  obtain ⟨m, rfl, hm⟩ := rows.queued.at hrow
  have hvalid := hm.valid
  simp only [RunPayload.validIds, Bool.and_eq_true] at hvalid
  have ht : raw.tenantId ≠ "" := Kernel.ne_empty_of_safeId hvalid.1.1.1
  have hr : raw.runId ≠ "" := Kernel.ne_empty_of_safeId hvalid.2
  simp [Store.takeInvalid, Store.takeQueued, invalidRunIndex, hrow, hm.tenantId, hm.runId, ht, hr,
    RunPayload.indexField]

/-- The lease row that a settling script has matched is filed under the id of the payload. -/
theorem Rows.settled_messageId (rows : Rows env s) {messageId : String} {m : LeaseMeta}
    {raw : RunPayload} (row : hget s.processingMeta messageId = some (.table m))
    (rawEq : m.raw = some raw) : messageId = env.messageIdForRaw raw := by
  obtain ⟨raw', m', hid, hm', hd⟩ := rows.processing _ _ row
  obtain rfl : m = m' := by simpa using hm'
  obtain rfl : raw' = raw := by simpa [hd.raw] using rawEq
  exact hid

theorem Label.Removal.removedRun {tenantId runId : String} {l : Label}
    (removal : Label.Removal env tenantId runId s l s') :
    l.removedRun = some (tenantId, runId) := by
  cases removal <;> rfl

end

/-! ## Keys and rows -/

section

variable {env : Environment} {s s' : Store} {raw other : RunPayload} {strict : Prop}

theorem Marks.of_iff {row listed : Prop} (h : row ↔ listed) : Marks strict row listed :=
  ⟨h.mpr, fun _ => h.mp⟩

theorem mem_congr_of_count {l l' : List RunPayload} (h : l'.count raw = l.count raw) :
    raw ∈ l' ↔ raw ∈ l := by
  rw [← count_pos_iff, h, count_pos_iff]

theorem MessageRows.same (keys : MessageRows env strict s raw) (same : SameMessage env s s' raw) :
    MessageRows env strict s' raw := by
  have hq := mem_congr_of_count same.queued
  have hp := mem_congr_of_count same.processing
  refine ⟨?_, ?_, ?_, ?_, ?_, ?_, ?_⟩
  · rw [same.queued]
    exact keys.queuedOnce
  · rw [same.metadata, hq]
    exact keys.metadata
  · rw [same.order, hq]
    exact keys.order
  · rw [hq, same.index]
    exact keys.index
  · rw [hq, same.leased]
    exact keys.unleased
  · rw [same.processing]
    exact keys.processingOnce
  · intro h
    have hrow := keys.leased (hp.mp h)
    rw [← Bool.not_eq_false, hexists_eq_false] at hrow ⊢
    rwa [same.leased]

/-- A queued message is not being processed. -/
theorem MessageRows.not_processing (keys : MessageRows env strict s raw) (hq : raw ∈ s.queued) :
    raw ∉ s.processing := by
  intro hp
  have hrow := keys.leased hp
  simp [hexists, keys.unleased hq] at hrow

theorem MessageRows.empty (env : Environment) (raw : RunPayload) :
    MessageRows env strict .empty raw := by
  constructor <;> simp [Store.empty, hexists, zscore, Marks]

/-! ## Messages a step does not touch -/

theorem SameMessage.of_sameQueue (h : SameQueue s s') : SameMessage env s s' raw := by
  constructor <;> simp [h.queued, h.queuedMeta, h.queuedOrder, h.queuedRunIndex, h.processing,
    h.processingMeta]

theorem SameMessage.of_rewritten (h : Rewritten s s') : SameMessage env s s' raw where
  queued := by rw [h.queued]
  metadata := by rw [h.queuedMeta]
  order := by rw [h.queuedOrder]
  index := by rw [h.queuedRunIndex]
  processing := by rw [h.processing]
  leased := (h.processingRow _).eq_none

theorem count_eraseIdx {l : List RunPayload} {i : Nat} (h : l[i]? = some raw) (other : RunPayload) :
    l.count other = (raw :: l.eraseIdx i).count other := by
  obtain ⟨hi, rfl⟩ := List.getElem?_eq_some_iff.mp h
  exact ((List.getElem_cons_eraseIdx_perm hi).count_eq other).symm

/-- Everything the two stores hold about one message is the same. -/
structure Untouched (env : Environment) (s s' : Store) (raw : RunPayload) : Prop where
  queued : s'.queued.count raw = s.queued.count raw
  processing : s'.processing.count raw = s.processing.count raw
  queuedMeta : hget s'.queuedMeta (env.messageIdForRaw raw) =
    hget s.queuedMeta (env.messageIdForRaw raw)
  order : zscore s'.queuedOrder (env.messageIdForRaw raw) =
    zscore s.queuedOrder (env.messageIdForRaw raw)
  index : env.messageIdForRaw raw ∈ decodeIndex (hget s'.queuedRunIndex raw.indexField) ↔
    env.messageIdForRaw raw ∈ decodeIndex (hget s.queuedRunIndex raw.indexField)
  processingMeta : hget s'.processingMeta (env.messageIdForRaw raw) =
    hget s.processingMeta (env.messageIdForRaw raw)
  retryMeta : hget s'.retryMeta (env.messageIdForRaw raw) =
    hget s.retryMeta (env.messageIdForRaw raw)

namespace Untouched

theorem mem_queued (h : Untouched env s s' raw) : raw ∈ s'.queued ↔ raw ∈ s.queued :=
  mem_congr_of_count h.queued

theorem mem_processing (h : Untouched env s s' raw) : raw ∈ s'.processing ↔ raw ∈ s.processing :=
  mem_congr_of_count h.processing

theorem sameMessage (h : Untouched env s s' raw) : SameMessage env s s' raw :=
  ⟨h.queued, by rw [hexists, h.queuedMeta, hexists], h.order, h.index, h.processing,
    by rw [h.processingMeta]⟩

section

variable (hne : other ≠ raw)
include hne

theorem push (enqueuedAt : Time) :
    Untouched env s (s.pushQueued raw (env.messageIdForRaw raw) (queuedMetadata raw enqueuedAt)
      ((decodeIndex (hget s.queuedRunIndex raw.indexField)).filter
        (· ≠ env.messageIdForRaw raw) ++ [env.messageIdForRaw raw])) other := by
  have hid := env.messageIdForRaw_injective.ne hne
  refine ⟨?_, rfl, ?_, ?_, ?_, rfl, rfl⟩
  · simp [Store.pushQueued, Ne.symm hne]
  · simp [Store.pushQueued, hid]
  · simp [Store.pushQueued, hid]
  · have hindex := @mem_decodeIndex_push env s.queuedRunIndex raw other.indexField
      (env.messageIdForRaw other)
    simp only [Store.pushQueued, hindex, hid, and_false, or_false]

theorem count_removeAt {index : Int} (indexed : lindex s.queued index = some raw) :
    (removeAt s.queued index.toNat).count other = s.queued.count other := by
  rw [removeAt_eq_eraseIdx, count_eraseIdx (getElem?_of_lindex indexed) other,
    count_cons_of_ne (Ne.symm hne)]

/-- Another entry is taken out of the queue and leased. -/
theorem grant {req : LeaseRequest} (hraw : req.raw = raw) (now : Time)
    (indexed : lindex s.queued req.absoluteIndex = some raw) :
    Untouched env s (s.grantLease env req now) other := by
  have hid := env.messageIdForRaw_injective.ne hne
  subst hraw
  refine ⟨count_removeAt hne indexed, count_cons_of_ne (Ne.symm hne), ?_, ?_, ?_, ?_, ?_⟩
  · simp [Store.grantLease, Store.takeQueued, hid]
  · simp [Store.grantLease, Store.takeQueued, hid]
  · simp only [Store.grantLease, Store.takeQueued, mem_decodeIndex_removeRunIndexMessage, hid,
      and_false, not_false_eq_true, and_true]
  · simp [Store.grantLease, Store.takeQueued, hid]
  · simp [Store.grantLease, Store.takeQueued, hid]

theorem dropInvalid {index : Int} (indexed : lindex s.queued index = some raw)
    (letters : List DeadLetter) :
    Untouched env s { s.takeInvalid index (env.messageIdForRaw raw) with
      deadLetter := letters
      retryMeta := hdel s.retryMeta (env.messageIdForRaw raw) } other := by
  have hid := env.messageIdForRaw_injective.ne hne
  refine ⟨count_removeAt hne indexed, rfl, ?_, ?_, ?_, rfl, ?_⟩
  · simp [Store.takeInvalid, hid]
  · simp [Store.takeInvalid, hid]
  · simp only [Store.takeInvalid, invalidRunIndex]
    split
    · split
      · simp only [mem_decodeIndex_removeRunIndexMessage, hid, and_false, not_false_eq_true,
          and_true]
      · rfl
    · rfl
  · simp [hid]

theorem heartbeat (worker : String) (m : LeaseMeta) (now : Time) :
    Untouched env s (s.recordHeartbeat env (env.messageIdForRaw raw) worker m now) other := by
  have hid := env.messageIdForRaw_injective.ne hne
  constructor <;> simp [Store.recordHeartbeat, hid]

theorem settle (letters : List DeadLetter) :
    Untouched env s { s.settleLease raw (env.messageIdForRaw raw) with deadLetter := letters }
      other := by
  have hid := env.messageIdForRaw_injective.ne hne
  refine ⟨rfl, count_erase_of_ne hne, rfl, rfl, Iff.rfl, ?_, ?_⟩
  · simp [Store.settleLease, hid]
  · simp [Store.settleLease, hid]

end

theorem requeue {call : RequeueCall} (hne : raw ≠ call.lease.raw) (enqueuedAt : Time) :
    Untouched env s (s.requeued env call enqueuedAt) raw := by
  have hid := env.messageIdForRaw_injective.ne hne
  obtain ⟨queued, -, queuedMeta, order, index, -, -⟩ := @push env s _ _ hne enqueuedAt
  refine ⟨queued, count_erase_of_ne hne, queuedMeta, order, index, ?_, ?_⟩
  · simp [Store.requeued, Store.pushQueued, hid]
  · simp [Store.requeued, hid]

theorem deadLetter {call : DeadLetterCall} (hne : raw ≠ call.lease.raw)
    (letters : List DeadLetter) :
    Untouched env s (s.deadLettered env call letters) raw := by
  have hid := env.messageIdForRaw_injective.ne hne
  refine ⟨rfl, count_erase_of_ne hne, rfl, rfl, Iff.rfl, ?_, ?_⟩
  · cases hflag : call.removeProcessingMeta <;> simp [Store.deadLettered, hflag, hid]
  · simp [Store.deadLettered, hid]

end Untouched

/-! ## The message of a step -/

section

variable (keys : MessageRows env strict s raw)
include keys

/-- A message that is neither queued nor leased can be pushed. -/
theorem MessageRows.push (enqueuedAt : Time) (absent : raw ∉ s.queued)
    (unleased : hget s.processingMeta (env.messageIdForRaw raw) = none) :
    MessageRows env strict
      (s.pushQueued raw (env.messageIdForRaw raw) (queuedMetadata raw enqueuedAt)
      ((decodeIndex (hget s.queuedRunIndex raw.indexField)).filter
        (· ≠ env.messageIdForRaw raw) ++ [env.messageIdForRaw raw])) raw where
  queuedOnce := by simp [Store.pushQueued, count_eq_zero.mpr absent]
  metadata := .of_iff (by simp [Store.pushQueued])
  order := .of_iff (by simp [Store.pushQueued])
  index _ := (mem_decodeIndex_push s.queuedRunIndex raw).mpr (.inr ⟨rfl, rfl⟩)
  unleased _ := unleased
  processingOnce := keys.processingOnce
  leased := keys.leased

/-- An entry taken out of the queue leaves none of its rows behind. -/
theorem MessageRows.take {index : Int} (indexed : lindex s.queued index = some raw) :
    MessageRows env strict (s.takeQueued index raw.indexField (env.messageIdForRaw raw)) raw ∧
      raw ∉ (s.takeQueued index raw.indexField (env.messageIdForRaw raw)).queued := by
  have hgone : raw ∉ (s.takeQueued index raw.indexField (env.messageIdForRaw raw)).queued := by
    have hcount := count_eraseIdx (getElem?_of_lindex indexed) raw
    have honce := keys.queuedOnce
    rw [count_cons_self] at hcount
    have hzero : (s.queued.eraseIdx index.toNat).count raw = 0 := by omega
    rw [Store.takeQueued, removeAt_eq_eraseIdx]
    exact count_eq_zero.mp hzero
  refine ⟨⟨?_, ?_, ?_, ?_, ?_, keys.processingOnce, keys.leased⟩, hgone⟩
  · rw [count_eq_zero.mpr hgone]
    exact Nat.zero_le 1
  · exact .of_iff (iff_of_false (by simp [Store.takeQueued]) hgone)
  · exact .of_iff (iff_of_false (by simp [Store.takeQueued]) hgone)
  · exact fun h => absurd h hgone
  · exact fun h => absurd h hgone

/-- A message that leaves the processing list may lose its lease rows. -/
theorem MessageRows.release (hqueued : s'.queued = s.queued) (hmeta : s'.queuedMeta = s.queuedMeta)
    (hindex : s'.queuedRunIndex = s.queuedRunIndex) (horder : s'.queuedOrder = s.queuedOrder)
    (hprocessing : s'.processing = lremFirst s.processing raw)
    (hrow : hget s.processingMeta (env.messageIdForRaw raw) = none →
      hget s'.processingMeta (env.messageIdForRaw raw) = none) : MessageRows env strict s' raw := by
  have hgone : s'.processing.count raw = 0 := by
    have honce := keys.processingOnce
    rw [hprocessing, lremFirst, count_erase_self]
    omega
  refine ⟨?_, ?_, ?_, ?_, ?_, ?_, ?_⟩
  · rw [hqueued]
    exact keys.queuedOnce
  · rw [hmeta, hqueued]
    exact keys.metadata
  · rw [horder, hqueued]
    exact keys.order
  · rw [hindex, hqueued]
    exact keys.index
  · rw [hqueued]
    exact fun h => hrow (keys.unleased h)
  · omega
  · exact fun h => absurd h (count_eq_zero.mp hgone)

theorem MessageRows.indexedAdmission_ne (hraw : raw ∈ s.queued) :
    indexedAdmission s (decodeIndex (hget s.queuedRunIndex raw.indexField))
      (env.messageIdForRaw raw) ≠ none := by
  obtain ⟨row, hrow⟩ := (hexists_eq_true _ _).mp (keys.metadata.1 hraw)
  obtain ⟨rank, hrank⟩ : ∃ rank, zrank s.queuedOrder (env.messageIdForRaw raw) = some rank := by
    rw [← Option.isSome_iff_exists, zrank_isSome]
    exact keys.order.1 hraw
  cases row <;> simp [indexedAdmission, keys.index hraw, hrow, hrank]

end

end

section

variable {env : Environment} {s s' : Store} {tenantId runId : String} {strict : Prop}

/-! ## Removal and the keys of a message -/

/-- A removal addressed to another field. -/
theorem SameMessage.removes (removes : Removes env tenantId runId s s') {raw : RunPayload}
    (hfield : raw.indexField ≠ queuedRunIndexField tenantId runId) : SameMessage env s s' raw := by
  have hother : ¬ raw.IsFor tenantId runId := by
    rintro ⟨rfl, rfl⟩
    exact hfield rfl
  refine ⟨?_, ?_, removes.orderKept raw hfield, ?_, ?_, ?_⟩
  · have hcount := congrArg (List.count raw) removes.otherRuns
    rwa [count_filter (by simpa using hother), count_filter (by simpa using hother)]
      at hcount
  · rw [hexists, removes.metaKept raw hfield, hexists]
  · rw [removes.indexKept _ hfield]
  · rw [removes.processing]
  · rw [removes.processingMeta]

/-- A removal takes out every message of its field when they are all of its run, and with each its
metadata and score. -/
theorem MessageRows.removed {l : Label} {raw : RunPayload} (keys : MessageRows env strict s raw)
    (rows : Rows env s) (removal : Label.Removal env tenantId runId s l s')
    (hfield : raw.indexField = queuedRunIndexField tenantId runId)
    (own : raw ∈ s.queued → raw.IsFor tenantId runId) :
    MessageRows env strict s' raw ∧ raw ∉ s'.queued := by
  have removes := removal.removes rows
  have hgone : raw ∉ s'.queued := by
    intro hraw
    have hq := removes.queued.subset hraw
    exact removal.complete rows (own hq) (hfield ▸ keys.index hq) (keys.metadata.1 hq) hraw
  refine ⟨⟨?_, ⟨fun h => absurd h hgone, fun hstrict hrow => ?_⟩,
    ⟨fun h => absurd h hgone, fun hstrict hscore => ?_⟩, ?_, ?_, ?_, ?_⟩, hgone⟩
  · rw [count_eq_zero.mpr hgone]
    exact Nat.zero_le 1
  · obtain ⟨row, hrow⟩ := (hexists_eq_true _ _).mp hrow
    have hq := keys.metadata.2 hstrict ((hexists_eq_true _ _).mpr ⟨row, removes.metaOld _ _ hrow⟩)
    simp [removes.metaGone raw hq hgone] at hrow
  · obtain ⟨score, hscore⟩ := Option.isSome_iff_exists.mp hscore
    have hq := keys.order.2 hstrict (by simp [removes.orderOld _ _ hscore])
    simp [removes.orderGone raw hq hgone] at hscore
  · exact fun h => absurd h hgone
  · exact fun h => absurd h hgone
  · rw [removes.processing]
    exact keys.processingOnce
  · rw [removes.processing, removes.processingMeta]
    exact keys.leased

end

/-! ## One step -/

/-- A removal addressed to the field finds only messages of its own run there. -/
def OwnRemovalAt (field : String) (s : Store) (l : Label) : Prop :=
  ∀ run ∈ l.removedRun, queuedRunIndexField run.1 run.2 = field →
    ∀ raw ∈ s.queued, raw.indexField = field → raw.IsFor run.1 run.2

instance (field : String) (s : Store) (l : Label) : Decidable (OwnRemovalAt field s l) :=
  inferInstanceAs (Decidable (∀ run ∈ l.removedRun, _ → ∀ raw ∈ s.queued, _ → _))

section

variable {env : Environment} {s s' : Store} {raw : RunPayload}

theorem MessageRows.change {sys : System} {l : Label} {events : List Event}
    (keys : MessageRows env strict s raw) (rows : Rows env s)
    (own : OwnRemovalAt raw.indexField s l)
    (change : Change env sys l s events s') : MessageRows env strict s' raw := by
  cases change with
  | quiet same => exact keys.same (.of_sameQueue same)
  | claim => exact keys.same (.of_sameQueue ⟨rfl, rfl, rfl, rfl, rfl, rfl, rfl, rfl⟩)
  | @push _ pushed enqueuedAt valid unfenced notIndexed notProcessing =>
    by_cases heq : raw = pushed
    · subst heq
      exact keys.push enqueuedAt (fun hraw => keys.indexedAdmission_ne hraw notIndexed)
        notProcessing
    · exact keys.same (Untouched.push heq enqueuedAt).sameMessage
  | @remove _ _ _ tenantId runId removal =>
    by_cases hfield : raw.indexField = queuedRunIndexField tenantId runId
    · exact (keys.removed rows removal hfield fun hq =>
        own _ removal.removedRun hfield.symm raw hq rfl).1
    · exact keys.same (.removes (removal.removes rows).toRemoves hfield)
  | @grant _ granted index worker limits now message req request _ _ _ indexed =>
    subst request
    by_cases heq : raw = granted
    · subst heq
      obtain ⟨taken, hgone⟩ := keys.take indexed
      have hidle := keys.not_processing (mem_of_lindex indexed)
      refine ⟨taken.queuedOnce, taken.metadata, taken.order, taken.index, fun h => absurd h hgone,
        ?_, fun _ => ?_⟩
      · simp [Store.grantLease, Store.takeQueued, System.leaseRequest, count_eq_zero.mpr hidle]
      · simp [Store.grantLease, System.leaseRequest]
    · exact keys.same (Untouched.grant heq rfl now indexed).sameMessage
  | @dropInvalid _ dropped index _ _ _ _ letters rejected indexed =>
    by_cases heq : raw = dropped
    · subst heq
      have hrow := keys.metadata.1 (mem_of_lindex indexed)
      rw [Store.takeInvalid_eq rows hrow index]
      obtain ⟨taken, -⟩ := keys.take indexed
      exact ⟨taken.queuedOnce, taken.metadata, taken.order, taken.index, taken.unleased,
        taken.processingOnce, taken.leased⟩
    · exact keys.same (Untouched.dropInvalid heq indexed letters).sameMessage
  | @heartbeat _ h _ _ _ _ row =>
    refine keys.same ⟨rfl, rfl, rfl, Iff.rfl, rfl, ?_⟩
    by_cases hid : env.messageIdForRaw raw = h.messageId
    · simp [Store.recordHeartbeat, hid, row]
    · simp [Store.recordHeartbeat, hid]
  | @settle _ _ settled _ _ _ letters settles row held rawEq =>
    rw [rows.settled_messageId row rawEq]
    by_cases heq : raw = settled
    · subst heq
      exact keys.release rfl rfl rfl rfl rfl fun _ => by simp [Store.settleLease]
    · exact keys.same (Untouched.settle heq letters).sameMessage
  | @requeue _ _ tick call _ _ phase unfenced row held processing =>
    by_cases heq : raw = call.lease.raw
    · subst heq
      have hreleased : MessageRows env strict { s with
          processing := lremFirst s.processing call.lease.raw
          processingMeta := hdel s.processingMeta (env.messageIdForRaw call.lease.raw) }
          call.lease.raw :=
        keys.release rfl rfl rfl rfl rfl fun _ => by simp
      have hpushed := hreleased.push tick.clientTime (fun hq => keys.not_processing hq processing)
        (by simp)
      exact ⟨hpushed.queuedOnce, hpushed.metadata, hpushed.order, hpushed.index, hpushed.unleased,
        hpushed.processingOnce, hpushed.leased⟩
    · exact keys.same (Untouched.requeue heq tick.clientTime).sameMessage
  | @deadLetter _ _ _ call _ _ letters =>
    by_cases heq : raw = call.lease.raw
    · subst heq
      refine keys.release rfl rfl rfl rfl rfl fun hnone => ?_
      cases hflag : call.removeProcessingMeta <;> simp [Store.deadLettered, hflag, hnone]
    · exact keys.same (Untouched.deadLetter heq letters).sameMessage

theorem MessageRows.step {sys : System} (keys : MessageRows env strict sys.store raw)
    (wf : WellFormed env sys) {l : Label} (own : OwnRemovalAt raw.indexField sys.store l) :
    MessageRows env strict (sys.step env l).store raw := by
  obtain ⟨s₁, kept, change⟩ := sys.effect_change env l
  refine (keys.same (.of_rewritten kept)).change (wf.rows.rewritten kept) ?_ change
  exact fun run hrun hfield other hother => own run hrun hfield other (kept.queued ▸ hother)

end

section

variable {env : Environment} {s : Store} {raw : RunPayload}

theorem MessageKeys.rows (keys : MessageKeys env s raw) : MessageRows env True s raw :=
  ⟨keys.queuedOnce, .of_iff keys.metadata, .of_iff keys.order, keys.index, keys.unleased,
    keys.processingOnce, keys.leased⟩

theorem MessageRows.keys (rows : MessageRows env True s raw) : MessageKeys env s raw :=
  ⟨rows.queuedOnce, ⟨rows.metadata.2 trivial, rows.metadata.1⟩,
    ⟨rows.order.2 trivial, rows.order.1⟩, rows.index, rows.unleased, rows.processingOnce,
    rows.leased⟩

end

end AiPlatform.Queue
