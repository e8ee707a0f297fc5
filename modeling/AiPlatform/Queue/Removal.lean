import AiPlatform.Queue.Rows

/-!
# Removing a queued run

`Removes` says what removal for one run does to the store, and is the only thing later proofs use
about the loop of the remove script and about the bounded fallback. Rows are deleted by index
field, so everything about rows is stated by field, while payloads are matched by their ids.
-/
namespace AiPlatform.Queue

open AiPlatform.Foundation Hash SortedSet

/-- `s'` is `s` with some queued messages of one run taken out together with their rows. -/
structure Removes (env : Environment) (tenantId runId : String) (s s' : Store) : Prop where
  processing : s'.processing = s.processing
  processingMeta : s'.processingMeta = s.processingMeta
  retryMeta : s'.retryMeta = s.retryMeta
  workerHeartbeat : s'.workerHeartbeat = s.workerHeartbeat
  fences : s'.fences = s.fences
  queued : s'.queued.Sublist s.queued
  otherRuns : s'.queued.filter (fun raw => ¬ raw.IsFor tenantId runId) =
    s.queued.filter fun raw => ¬ raw.IsFor tenantId runId
  metaOld : ∀ id row, hget s'.queuedMeta id = some row → hget s.queuedMeta id = some row
  metaGone : ∀ raw ∈ s.queued, raw ∉ s'.queued →
    hget s'.queuedMeta (env.messageIdForRaw raw) = none
  metaKept : ∀ raw : RunPayload, raw.indexField ≠ queuedRunIndexField tenantId runId →
    hget s'.queuedMeta (env.messageIdForRaw raw) = hget s.queuedMeta (env.messageIdForRaw raw)
  orderKept : ∀ raw : RunPayload, raw.indexField ≠ queuedRunIndexField tenantId runId →
    zscore s'.queuedOrder (env.messageIdForRaw raw) =
      zscore s.queuedOrder (env.messageIdForRaw raw)
  indexOld : ∀ field id, id ∈ decodeIndex (hget s'.queuedRunIndex field) →
    id ∈ decodeIndex (hget s.queuedRunIndex field)
  indexKept : ∀ field, field ≠ queuedRunIndexField tenantId runId →
    hget s'.queuedRunIndex field = hget s.queuedRunIndex field
  indexRows : IndexRows env s.queuedRunIndex → IndexRows env s'.queuedRunIndex

namespace Removes

variable {env : Environment} {tenantId runId : String} {s s' s'' : Store}

theorem refl (s : Store) : Removes env tenantId runId s s :=
  ⟨rfl, rfl, rfl, rfl, rfl, .refl _, rfl, fun _ _ h => h, fun _ h h' => absurd h h', fun _ _ => rfl,
    fun _ _ => rfl, fun _ _ h => h, fun _ _ => rfl, id⟩

section

variable (h : Removes env tenantId runId s s')
include h

theorem trans (h' : Removes env tenantId runId s' s'') :
    Removes env tenantId runId s s'' where
  processing := h'.processing.trans h.processing
  processingMeta := h'.processingMeta.trans h.processingMeta
  retryMeta := h'.retryMeta.trans h.retryMeta
  workerHeartbeat := h'.workerHeartbeat.trans h.workerHeartbeat
  fences := h'.fences.trans h.fences
  queued := h'.queued.trans h.queued
  otherRuns := h'.otherRuns.trans h.otherRuns
  metaOld id row hrow := h.metaOld id row (h'.metaOld id row hrow)
  metaGone raw hraw hgone := by
    by_cases hmid : raw ∈ s'.queued
    · exact h'.metaGone raw hmid hgone
    · have hnone := h.metaGone raw hraw hmid
      cases hrow : hget s''.queuedMeta (env.messageIdForRaw raw) with
      | none => rfl
      | some row => simp [h'.metaOld _ _ hrow] at hnone
  metaKept raw hne := (h'.metaKept raw hne).trans (h.metaKept raw hne)
  orderKept raw hne := (h'.orderKept raw hne).trans (h.orderKept raw hne)
  indexOld field id hid := h.indexOld field id (h'.indexOld field id hid)
  indexKept field hne := (h'.indexKept field hne).trans (h.indexKept field hne)
  indexRows hrows := h'.indexRows (h.indexRows hrows)

theorem queuedRows (rows : QueuedRows env s.queuedMeta) :
    QueuedRows env s'.queuedMeta :=
  rows.mono h.metaOld

theorem rows (hs : Rows env s) : Rows env s' where
  processing := h.processingMeta ▸ hs.processing
  retry := h.retryMeta ▸ hs.retry
  queued := h.queuedRows hs.queued
  index := h.indexRows hs.index
  listed raw := by
    rintro (hraw | hraw)
    · exact hs.listed raw (.inl (h.queued.subset hraw))
    · exact hs.listed raw (.inr (h.processing ▸ hraw))

theorem mem_of_other {raw : RunPayload} (hraw : raw ∈ s.queued)
    (hother : ¬ raw.IsFor tenantId runId) : raw ∈ s'.queued := by
  have hmem : raw ∈ s.queued.filter fun raw => ¬ raw.IsFor tenantId runId := by
    simpa using ⟨hraw, hother⟩
  rw [← h.otherRuns] at hmem
  exact List.mem_of_mem_filter hmem

end

end Removes

/-- Scores are only deleted, and a message that leaves the list loses its score. -/
structure RemovesOrder (env : Environment) (s s' : Store) : Prop where
  sequence : s'.queuedSequence = s.queuedSequence
  orderOld : ∀ id score, zscore s'.queuedOrder id = some score →
    zscore s.queuedOrder id = some score
  orderGone : ∀ raw ∈ s.queued, raw ∉ s'.queued →
    zscore s'.queuedOrder (env.messageIdForRaw raw) = none

/-- What a removal does to the lists, the rows and the order. -/
structure RemovesAll (env : Environment) (tenantId runId : String) (s s' : Store) : Prop
    extends Removes env tenantId runId s s', RemovesOrder env s s'

section

variable {env : Environment} {s s' s'' : Store} {tenantId runId : String}

theorem RemovesOrder.refl (s : Store) : RemovesOrder env s s :=
  ⟨rfl, fun _ _ h => h, fun _ h h' => absurd h h'⟩

theorem RemovesOrder.trans (h : RemovesOrder env s s') (h' : RemovesOrder env s' s'') :
    RemovesOrder env s s'' where
  sequence := h'.sequence.trans h.sequence
  orderOld id score hscore := h.orderOld id score (h'.orderOld id score hscore)
  orderGone raw hraw hgone := by
    by_cases hmid : raw ∈ s'.queued
    · exact h'.orderGone raw hmid hgone
    · have hnone := h.orderGone raw hraw hmid
      cases hscore : zscore s''.queuedOrder (env.messageIdForRaw raw) with
      | none => rfl
      | some score => simp [h'.orderOld _ _ hscore] at hnone

theorem zscore_of_zrem {z : SortedSet} {member id : String} {score : Nat}
    (h : zscore (zrem z member) id = some score) : zscore z id = some score :=
  hget_hdel_some h

/-- One message is taken out with its score, whatever else is written. -/
theorem RemovesOrder.message (raw : RunPayload) (hsequence : s'.queuedSequence = s.queuedSequence)
    (hqueued : s'.queued = lremAll s.queued raw)
    (horder : s'.queuedOrder = zrem s.queuedOrder (env.messageIdForRaw raw)) :
    RemovesOrder env s s' where
  sequence := hsequence
  orderOld id score hscore := zscore_of_zrem (horder ▸ hscore)
  orderGone other hother hgone := by
    obtain rfl : other = raw := by
      by_contra hne
      exact hgone (hqueued ▸ mem_lremAll.mpr ⟨hother, hne⟩)
    simp [horder]

/-- A score is deleted and the list stays. -/
theorem RemovesOrder.zrem (messageId : String) :
    RemovesOrder env s { s with queuedOrder := SortedSet.zrem s.queuedOrder messageId } :=
  ⟨rfl, fun _ _ => zscore_of_zrem, fun _ h h' => absurd h h'⟩

theorem RemovesAll.refl (s : Store) : RemovesAll env tenantId runId s s :=
  ⟨.refl s, .refl s⟩

theorem RemovesAll.trans (h : RemovesAll env tenantId runId s s')
    (h' : RemovesAll env tenantId runId s' s'') : RemovesAll env tenantId runId s s'' :=
  ⟨h.toRemoves.trans h'.toRemoves, h.toRemovesOrder.trans h'.toRemovesOrder⟩

end

section

variable {env : Environment} {tenantId runId : String}

variable {raw : RunPayload} {s : Store}

theorem filter_lremAll_other {p : RunPayload → Bool} (l : List RunPayload) (hraw : p raw = false) :
    (lremAll l raw).filter p = l.filter p := by
  simp only [lremAll, List.filter_filter]
  refine List.filter_congr fun a _ => ?_
  by_cases ha : a = raw
  · simp [ha, hraw]
  · simp [ha]

/-- Taking out one message of the run with its metadata and its place in the order. -/
theorem removes_message (s : Store) (hrun : raw.IsFor tenantId runId) :
    RemovesAll env tenantId runId s
      ({ s with queued := lremAll s.queued raw }.dropQueuedRow (env.messageIdForRaw raw)) where
  processing := rfl
  processingMeta := rfl
  retryMeta := rfl
  workerHeartbeat := rfl
  fences := rfl
  queued := List.filter_sublist
  otherRuns := filter_lremAll_other _ (by simpa using hrun)
  metaOld id row hrow := hget_hdel_some hrow
  metaGone other hother hgone := by
    obtain rfl : other = raw := by
      by_contra hne
      exact hgone (mem_lremAll.mpr ⟨hother, hne⟩)
    simp [Store.dropQueuedRow]
  metaKept other hne := by
    have : other ≠ raw := by
      rintro rfl
      exact hne (by rw [RunPayload.indexField, hrun.1, hrun.2])
    simp [Store.dropQueuedRow, env.messageIdForRaw_injective.eq_iff, this]
  orderKept other hne := by
    have : other ≠ raw := by
      rintro rfl
      exact hne (by rw [RunPayload.indexField, hrun.1, hrun.2])
    simp [Store.dropQueuedRow, env.messageIdForRaw_injective.eq_iff, this]
  indexOld _ _ h := h
  indexKept _ _ := rfl
  indexRows h := h
  toRemovesOrder := .message raw rfl rfl rfl

/-- Clearing an order entry filed under the run's field. -/
theorem removes_order (s : Store) (hfield : raw.indexField = queuedRunIndexField tenantId runId) :
    RemovesAll env tenantId runId s
      { s with queuedOrder := zrem s.queuedOrder (env.messageIdForRaw raw) } :=
  ⟨{ Removes.refl s with
    orderKept := fun other hne => by
      have : other ≠ raw := by
        rintro rfl
        exact hne hfield
      simp [env.messageIdForRaw_injective.eq_iff, this] }, .zrem _⟩

/-- Rewriting the run's own index row to fewer ids. -/
theorem removes_index (s : Store) {index : RunIndex}
    (hkept : ∀ field, field ≠ queuedRunIndexField tenantId runId →
      hget index field = hget s.queuedRunIndex field)
    (hold : ∀ field id, id ∈ decodeIndex (hget index field) →
      id ∈ decodeIndex (hget s.queuedRunIndex field))
    (hrows : IndexRows env s.queuedRunIndex → IndexRows env index) :
    RemovesAll env tenantId runId s { s with queuedRunIndex := index } :=
  ⟨{ Removes.refl s with indexOld := hold, indexKept := hkept, indexRows := hrows },
    rfl, fun _ _ h => h, fun _ h h' => absurd h h'⟩

theorem removeMessage_removes (p : RemoveProgress) (rows : QueuedRows env p.store.queuedMeta)
    (hfield : raw.indexField = queuedRunIndexField tenantId runId) :
    RemovesAll env tenantId runId p.store
      (removeMessage tenantId runId p (env.messageIdForRaw raw)).store := by
  unfold removeMessage
  cases hrow : hget p.store.queuedMeta (env.messageIdForRaw raw) with
  | none => exact removes_order p.store hfield
  | some row =>
    obtain ⟨m, rfl, hm⟩ := rows.at hrow
    dsimp only
    split
    · rename_i hids
      simp only [hm.raw]
      exact removes_message p.store ⟨hm.tenantId ▸ hids.1, hm.runId ▸ hids.2⟩
    · exact .refl _

theorem foldl_removeMessage_removes (ids : List String)
    (hids : ∀ id ∈ ids, ∃ raw, id = env.messageIdForRaw raw ∧
      raw.indexField = queuedRunIndexField tenantId runId)
    (p : RemoveProgress) (rows : QueuedRows env p.store.queuedMeta) :
    RemovesAll env tenantId runId p.store (ids.foldl (removeMessage tenantId runId) p).store := by
  induction ids generalizing p with
  | nil => exact .refl _
  | cons id ids ih =>
    obtain ⟨raw, rfl, hfield⟩ := hids id (by simp)
    have hone := removeMessage_removes p rows hfield
    exact hone.trans (ih (fun id hid => hids id (by simp [hid])) _ (hone.queuedRows rows))

theorem decodeIndex_hdel {index : RunIndex} {field field' id : String}
    (hid : id ∈ decodeIndex (hget (hdel index field) field')) :
    id ∈ decodeIndex (hget index field') := by
  rw [hget_hdel] at hid
  split at hid
  · simp [decodeIndex] at hid
  · exact hid

variable (tenantId runId) in
theorem removeQueuedWithMetadata_removes (rows : Rows env s) :
    RemovesAll env tenantId runId s (removeQueuedWithMetadata s tenantId runId).1 := by
  unfold removeQueuedWithMetadata
  dsimp only
  cases hrow : hget s.queuedRunIndex (queuedRunIndexField tenantId runId) with
  | none => exact .refl s
  | some row =>
    obtain ⟨ids, rfl, hids⟩ := rows.index _ _ hrow
    refine (foldl_removeMessage_removes (removalIds (.table ids))
      (fun id hid => hids id (List.mem_of_mem_filter hid)) ⟨s, 0, 0⟩ rows.queued).trans ?_
    refine removes_index _ (fun field hne => ?_) (fun field id hid => decodeIndex_hdel hid)
      fun h => h.hdel _
    rw [hget_hdel, if_neg hne]

theorem removeMessageIdFromRunIndex_other (index : RunIndex) {field field' : String}
    (messageId : String) (hne : field' ≠ field) :
    hget (removeMessageIdFromRunIndex index field messageId) field' = hget index field' := by
  unfold removeMessageIdFromRunIndex
  dsimp only
  split
  · rfl
  split <;> simp [hne]

theorem decodeIndex_table_filter (index : Option (Encoded (List String))) (p : String → Bool) :
    decodeIndex (some (.table ((decodeIndex index).filter p))) = (decodeIndex index).filter p := by
  have hne : ∀ id ∈ decodeIndex index, id ≠ "" := by
    intro id hid
    unfold decodeIndex at hid
    split at hid
    · simp at hid
    · simpa using (List.mem_filter.mp hid).2
    · split at hid
      · simp_all
      · simp at hid
  simp only [decodeIndex]
  exact List.filter_eq_self.mpr fun id hid => by
    simpa using hne id (List.mem_of_mem_filter hid)

theorem decodeIndex_removeMessageIdFromRunIndex (index : RunIndex) (field messageId : String) :
    decodeIndex (hget (removeMessageIdFromRunIndex index field messageId) field) =
      (decodeIndex (hget index field)).filter (· ≠ messageId) := by
  unfold removeMessageIdFromRunIndex
  dsimp only
  split
  · rename_i hnil
    simp [hnil]
  split
  · rename_i hnil
    simp only [hget_hdel, if_true, hnil]
    rfl
  · simp only [hget_hset, if_true, decodeIndex_table_filter]

theorem removes_payload (s : Store) (hrun : raw.IsFor tenantId runId) :
    RemovesAll env tenantId runId s
      ({ s with queued := lremAll s.queued raw }.deleteQueuedMetadataForPayload
        (queuedRunIndexField tenantId runId) (env.messageIdForRaw raw)) := by
  refine (removes_message s hrun).trans
    (removes_index _ (fun field hne => removeMessageIdFromRunIndex_other _ _ hne)
      (fun field id hid => ?_) fun h => h.removeMessageIdFromRunIndex _ _)
  by_cases hf : field = queuedRunIndexField tenantId runId
  · subst hf
    rw [decodeIndex_removeMessageIdFromRunIndex] at hid
    exact List.mem_of_mem_filter hid
  · rwa [removeMessageIdFromRunIndex_other _ _ hf] at hid

variable (env tenantId runId) in
theorem removeQueuedRunBoundedFallback_removes (s : Store) (scanLimit : Int) :
    RemovesAll env tenantId runId s
      (removeQueuedRunBoundedFallback env s tenantId runId scanLimit).1 := by
  unfold removeQueuedRunBoundedFallback
  split
  · exact .refl s
  generalize lrangeLast s.queued scanLimit.toNat = raws
  generalize hn : 0 = n
  clear hn
  induction raws generalizing s n with
  | nil => exact .refl s
  | cons raw raws ih =>
    rw [List.foldl_cons]
    split
    · rename_i hrun
      exact (removes_payload s hrun.2).trans (ih _ _)
    · exact ih s n

variable (tenantId runId) in
theorem removeQueuedRun_removes (rows : Rows env s) (scanLimit : Int) :
    RemovesAll env tenantId runId s (removeQueuedRun env s tenantId runId scanLimit).1 := by
  have hscript := removeQueuedWithMetadata_removes tenantId runId rows
  unfold removeQueuedRun
  split
  · rename_i s' n heq
    simpa [heq] using hscript
  · rename_i s' reply _ heq
    rw [heq] at hscript
    exact hscript.trans (removeQueuedRunBoundedFallback_removes env tenantId runId s' scanLimit)

theorem Label.Removal.removes {s' : Store} {l : Label} (rows : Rows env s)
    (removal : Label.Removal env tenantId runId s l s') : RemovesAll env tenantId runId s s' := by
  cases removal with
  | script => exact removeQueuedWithMetadata_removes tenantId runId rows
  | run scanLimit => exact removeQueuedRun_removes tenantId runId rows scanLimit

/-! ## A removal takes out all the run's messages -/

theorem removeMessage_meta_other (p : RemoveProgress) {messageId other : String}
    (hne : other ≠ messageId) :
    hget (removeMessage tenantId runId p messageId).store.queuedMeta other =
      hget p.store.queuedMeta other := by
  unfold removeMessage
  split
  · split
    · split <;> simp [Store.dropQueuedRow, hne]
    · rfl
  · simp [Store.dropQueuedRow, hne]
  · rfl

theorem removeMessage_gone (p : RemoveProgress) (rows : QueuedRows env p.store.queuedMeta)
    (hrun : raw.IsFor tenantId runId)
    (hrow : hexists p.store.queuedMeta (env.messageIdForRaw raw) = true) :
    raw ∉ (removeMessage tenantId runId p (env.messageIdForRaw raw)).store.queued := by
  obtain ⟨row, hrow⟩ := (hexists_eq_true _ _).mp hrow
  obtain ⟨m, rfl, hm⟩ := rows.at hrow
  have hids : m.tenantId = tenantId ∧ m.runId = runId :=
    ⟨hm.tenantId.trans hrun.1, hm.runId.trans hrun.2⟩
  unfold removeMessage
  simp only [hrow, hids, and_self, if_true, hm.raw]
  simp [Store.dropQueuedRow, mem_lremAll]

/-- An indexed message that still has its row is gone when the loop ends. -/
theorem foldl_removeMessage_gone (ids : List String)
    (hids : ∀ id ∈ ids, ∃ raw, id = env.messageIdForRaw raw ∧
      raw.indexField = queuedRunIndexField tenantId runId) (p : RemoveProgress)
    (rows : QueuedRows env p.store.queuedMeta) (hrun : raw.IsFor tenantId runId)
    (hraw : raw ∉ p.store.queued ∨ env.messageIdForRaw raw ∈ ids ∧
      hexists p.store.queuedMeta (env.messageIdForRaw raw) = true) :
    raw ∉ (ids.foldl (removeMessage tenantId runId) p).store.queued := by
  induction ids generalizing p with
  | nil => simpa using hraw
  | cons id ids ih =>
    obtain ⟨other, rfl, hfield⟩ := hids id (by simp)
    have removes := removeMessage_removes p rows hfield
    refine ih (fun id hid => hids id (by simp [hid])) _ (removes.queuedRows rows) ?_
    obtain hgone | ⟨hmem, hrow⟩ := hraw
    · exact .inl fun h => hgone (removes.queued.subset h)
    by_cases heq : raw = other
    · subst heq
      exact .inl (removeMessage_gone p rows hrun hrow)
    · have hne : env.messageIdForRaw raw ≠ env.messageIdForRaw other :=
        env.messageIdForRaw_injective.ne heq
      right
      refine ⟨by simpa [hne] using hmem, ?_⟩
      rwa [hexists, removeMessage_meta_other p hne]

/-- If the run's messages are indexed and have their rows, none is left. -/
theorem Label.Removal.complete {s' : Store} {l : Label} (rows : Rows env s)
    (removal : Label.Removal env tenantId runId s l s') (hrun : raw.IsFor tenantId runId)
    (indexed : env.messageIdForRaw raw ∈
      decodeIndex (hget s.queuedRunIndex (queuedRunIndexField tenantId runId)))
    (hrow : hexists s.queuedMeta (env.messageIdForRaw raw) = true) : raw ∉ s'.queued := by
  have hscript : raw ∉ (removeQueuedWithMetadata s tenantId runId).1.queued := by
    unfold removeQueuedWithMetadata
    dsimp only
    cases hindex : hget s.queuedRunIndex (queuedRunIndexField tenantId runId) with
    | none => simp [hindex, decodeIndex] at indexed
    | some row =>
      obtain ⟨ids, rfl, hids⟩ := rows.index _ _ hindex
      rw [hindex] at indexed
      exact foldl_removeMessage_gone (removalIds (.table ids))
        (fun id hid => hids id (List.mem_of_mem_filter hid)) ⟨s, 0, 0⟩ rows.queued hrun
        (.inr ⟨indexed, hrow⟩)
  cases removal with
  | script => exact hscript
  | run scanLimit =>
    unfold Queue.removeQueuedRun
    split
    · rename_i s' n heq
      simpa [heq] using hscript
    · rename_i s' reply _ heq
      rw [heq] at hscript
      have removes := removeQueuedRunBoundedFallback_removes env tenantId runId s' scanLimit
      exact fun h => hscript (removes.queued.subset h)

end

end AiPlatform.Queue
