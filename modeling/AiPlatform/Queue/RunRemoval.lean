import AiPlatform.Queue.FieldRuns

/-!
# Removing a run from the queue

What a caller of `remove_queued_run` relies on: no message of the run is left in the list or in any
key that describes the list, everything else is where it was, and the count is the number of
entries taken out. The script finds the messages through the index, and the bounded fallback runs
only when the index has told it nothing.
-/
namespace AiPlatform.Queue

open AiPlatform.Foundation Hash SortedSet

structure RunRemoved (env : Environment) (tenantId runId : String) (s s' : Store)
    (count : Nat) : Prop where
  unlisted : ∀ raw ∈ s'.queued, ¬ raw.IsFor tenantId runId
  index : hget s'.queuedRunIndex (queuedRunIndexField tenantId runId) = none
  metadata : ∀ raw : RunPayload, raw.IsFor tenantId runId →
    hget s'.queuedMeta (env.messageIdForRaw raw) = none
  order : ∀ raw : RunPayload, raw.IsFor tenantId runId →
    zscore s'.queuedOrder (env.messageIdForRaw raw) = none
  othersListed : s'.queued = s.queued.filter fun raw => ¬ raw.IsFor tenantId runId
  othersIndex : ∀ field, field ≠ queuedRunIndexField tenantId runId →
    hget s'.queuedRunIndex field = hget s.queuedRunIndex field
  othersMetadata : ∀ raw : RunPayload, ¬ raw.IsFor tenantId runId →
    hget s'.queuedMeta (env.messageIdForRaw raw) = hget s.queuedMeta (env.messageIdForRaw raw)
  othersOrder : ∀ raw : RunPayload, ¬ raw.IsFor tenantId runId →
    zscore s'.queuedOrder (env.messageIdForRaw raw) = zscore s.queuedOrder (env.messageIdForRaw raw)
  processing : s'.processing = s.processing
  processingMeta : s'.processingMeta = s.processingMeta
  retryMeta : s'.retryMeta = s.retryMeta
  counted : count + s'.queued.length = s.queued.length

section

variable {env : Environment} {tenantId runId : String}

/-! ## The count -/

theorem length_lremAll (l : List RunPayload) (raw : RunPayload) :
    l.count raw + (lremAll l raw).length = l.length := by
  rw [lremAll, ← List.countP_eq_length_filter, List.count,
    List.length_eq_countP_add_countP (fun x => x == raw)]
  congr 1
  apply List.countP_congr
  intro x _
  simp

/-- One turn of the loop counts what it takes out, and takes nothing out unless it has matched. -/
theorem removeMessage_counts (tenantId runId : String) (p : RemoveProgress) (messageId : String) :
    (removeMessage tenantId runId p messageId).removedTotal +
        (removeMessage tenantId runId p messageId).store.queued.length =
      p.removedTotal + p.store.queued.length ∧
    ((removeMessage tenantId runId p messageId).matched = p.matched ∧
        (removeMessage tenantId runId p messageId).store.queued = p.store.queued ∨
      p.matched < (removeMessage tenantId runId p messageId).matched) := by
  unfold removeMessage
  split
  · split
    · split
      · rename_i raw _
        have := length_lremAll p.store.queued raw
        simp only [Store.dropQueuedRow]
        omega
      · exact ⟨rfl, .inr (Nat.lt_succ_self _)⟩
    · exact ⟨rfl, .inl ⟨rfl, rfl⟩⟩
  · exact ⟨rfl, .inl ⟨rfl, rfl⟩⟩
  · exact ⟨rfl, .inl ⟨rfl, rfl⟩⟩

theorem foldl_removeMessage_counts (tenantId runId : String) (ids : List String)
    (p : RemoveProgress) :
    (ids.foldl (removeMessage tenantId runId) p).removedTotal +
        (ids.foldl (removeMessage tenantId runId) p).store.queued.length =
      p.removedTotal + p.store.queued.length ∧
    ((ids.foldl (removeMessage tenantId runId) p).matched = p.matched ∧
        (ids.foldl (removeMessage tenantId runId) p).store.queued = p.store.queued ∨
      p.matched < (ids.foldl (removeMessage tenantId runId) p).matched) := by
  induction ids generalizing p with
  | nil => exact ⟨rfl, .inl ⟨rfl, rfl⟩⟩
  | cons id ids ih =>
    obtain ⟨hcount, hmatched⟩ := removeMessage_counts tenantId runId p id
    obtain ⟨hcounts, hmatches⟩ := ih (removeMessage tenantId runId p id)
    refine ⟨hcounts.trans hcount, ?_⟩
    rw [List.foldl_cons]
    obtain ⟨hm, hq⟩ | hm := hmatched
    · rwa [hm, hq] at hmatches
    · obtain ⟨hm', -⟩ | hm' := hmatches
      · exact .inr (hm'.symm ▸ hm)
      · exact .inr (hm.trans hm')

theorem removeQueuedWithMetadata_counts (tenantId runId : String) (s : Store) :
    match (removeQueuedWithMetadata s tenantId runId).2 with
    | .removed count =>
      count + (removeQueuedWithMetadata s tenantId runId).1.queued.length = s.queued.length
    | _ => (removeQueuedWithMetadata s tenantId runId).1.queued = s.queued := by
  unfold removeQueuedWithMetadata
  dsimp only
  cases hget s.queuedRunIndex (queuedRunIndexField tenantId runId) with
  | none => rfl
  | some rawIndex =>
    obtain ⟨hcounts, hmatches⟩ := foldl_removeMessage_counts tenantId runId
      (removalIds rawIndex) ⟨s, 0, 0⟩
    dsimp only at hcounts hmatches ⊢
    by_cases hzero :
      ((removalIds rawIndex).foldl (removeMessage tenantId runId) ⟨s, 0, 0⟩).matched = 0
    · simp only [hzero, if_true]
      obtain ⟨-, hq⟩ | hm := hmatches
      · exact hq
      · omega
    · simp only [hzero, if_false]
      omega

theorem removeQueuedRunBoundedFallback_counts (s : Store) (scanLimit : Int) :
    (removeQueuedRunBoundedFallback env s tenantId runId scanLimit).2 +
        (removeQueuedRunBoundedFallback env s tenantId runId scanLimit).1.queued.length =
      s.queued.length := by
  unfold removeQueuedRunBoundedFallback
  split
  · exact Nat.zero_add _
  generalize lrangeLast s.queued scanLimit.toNat = raws
  suffices hfold : ∀ n, (raws.foldl (fun acc raw =>
      if env.acceptsRaw raw ∧ raw.IsFor tenantId runId then removePayload env tenantId runId acc raw
      else acc) (s, n)).2 + (raws.foldl (fun acc raw =>
      if env.acceptsRaw raw ∧ raw.IsFor tenantId runId then removePayload env tenantId runId acc raw
      else acc) (s, n)).1.queued.length = n + s.queued.length by
    rw [hfold, Nat.zero_add]
  induction raws generalizing s with
  | nil => exact fun n => rfl
  | cons raw raws ih =>
    intro n
    rw [List.foldl_cons]
    split
    · have hone := length_lremAll s.queued raw
      have hrest := ih (removePayload env tenantId runId (s, n) raw).1
        (removePayload env tenantId runId (s, n) raw).2
      simp only [Prod.mk.eta] at hrest
      rw [hrest]
      simp only [removePayload, Store.deleteQueuedMetadataForPayload]
      omega
    · exact ih s n

theorem removeQueuedRun_counts (s : Store) (scanLimit : Int) :
    (removeQueuedRun env s tenantId runId scanLimit).2 +
        (removeQueuedRun env s tenantId runId scanLimit).1.queued.length = s.queued.length := by
  have hscript := removeQueuedWithMetadata_counts tenantId runId s
  unfold removeQueuedRun
  split
  · rename_i s' n heq
    simpa [heq] using hscript
  · rename_i s' reply hreply heq
    rw [heq] at hscript
    rw [removeQueuedRunBoundedFallback_counts]
    cases reply with
    | removed n => exact absurd rfl (hreply n)
    | missingIndex | missingMetadata => exact congrArg List.length hscript

/-! ## The index row -/

theorem removeQueuedWithMetadata_index (tenantId runId : String) (s : Store) :
    hget (removeQueuedWithMetadata s tenantId runId).1.queuedRunIndex
      (queuedRunIndexField tenantId runId) = none := by
  unfold removeQueuedWithMetadata
  dsimp only
  cases hrow : hget s.queuedRunIndex (queuedRunIndexField tenantId runId) with
  | none => exact hrow
  | some rawIndex => simp

/-- The fallback never writes an index row that is not there. -/
theorem removeQueuedRunBoundedFallback_index {s : Store} (scanLimit : Int)
    (h : hget s.queuedRunIndex (queuedRunIndexField tenantId runId) = none) :
    hget (removeQueuedRunBoundedFallback env s tenantId runId scanLimit).1.queuedRunIndex
      (queuedRunIndexField tenantId runId) = none := by
  unfold removeQueuedRunBoundedFallback
  split
  · exact h
  generalize lrangeLast s.queued scanLimit.toNat = raws
  generalize hn : 0 = n
  clear hn
  induction raws generalizing s n with
  | nil => exact h
  | cons raw raws ih =>
    rw [List.foldl_cons]
    split
    · apply ih
      simp [Store.deleteQueuedMetadataForPayload, removeMessageIdFromRunIndex, h, decodeIndex]
    · exact ih h n

theorem removeQueuedRun_index (s : Store) (scanLimit : Int) :
    hget (removeQueuedRun env s tenantId runId scanLimit).1.queuedRunIndex
      (queuedRunIndexField tenantId runId) = none := by
  have hscript := removeQueuedWithMetadata_index tenantId runId s
  unfold removeQueuedRun
  split
  · rename_i s' n heq
    simpa [heq] using hscript
  · rename_i s' reply _ heq
    rw [heq] at hscript
    exact removeQueuedRunBoundedFallback_index scanLimit hscript

/-! ## The whole removal -/

/-- The ids of the run are free of `:`, so no other run has its index field. -/
def ColonFreeRun (tenantId runId : String) : Prop := ':' ∉ tenantId.toList ∧ ':' ∉ runId.toList

instance (tenantId runId : String) : Decidable (ColonFreeRun tenantId runId) :=
  inferInstanceAs (Decidable (_ ∧ _))

theorem ColonFreeRun.isFor (free : ColonFreeRun tenantId runId) {raw : RunPayload}
    (hfield : raw.indexField = queuedRunIndexField tenantId runId) : raw.IsFor tenantId runId := by
  obtain ⟨ht, hr⟩ := queuedRunIndexField_inj free.1 free.2 hfield.symm
  exact ⟨ht.symm, hr.symm⟩

theorem runRemoved {s : Store} (rows : Rows env s) (free : ColonFreeRun tenantId runId)
    (keys : FieldKeys env (queuedRunIndexField tenantId runId) s) (scanLimit : Int) :
    RunRemoved env tenantId runId s (removeQueuedRun env s tenantId runId scanLimit).1
      (removeQueuedRun env s tenantId runId scanLimit).2 := by
  have removes := removeQueuedRun_removes tenantId runId rows scanLimit
  have hkeys : ∀ raw : RunPayload, raw.IsFor tenantId runId →
      MessageKeys env (removeQueuedRun env s tenantId runId scanLimit).1 raw ∧
        raw ∉ (removeQueuedRun env s tenantId runId scanLimit).1.queued := by
    intro raw hraw
    exact ((keys raw hraw.indexField).rows.removed rows (.run scanLimit) hraw.indexField
      fun _ => hraw).imp_left MessageRows.keys
  have hother : ∀ raw : RunPayload, ¬ raw.IsFor tenantId runId →
      raw.indexField ≠ queuedRunIndexField tenantId runId :=
    fun raw hraw hfield => hraw (free.isFor hfield)
  have hunlisted : ∀ raw ∈ (removeQueuedRun env s tenantId runId scanLimit).1.queued,
      ¬ raw.IsFor tenantId runId := fun raw hraw hrun => (hkeys raw hrun).2 hraw
  refine
    { unlisted := hunlisted
      index := removeQueuedRun_index s scanLimit
      metadata := fun raw hraw => ?_
      order := fun raw hraw => ?_
      othersListed := ?_
      othersIndex := removes.indexKept
      othersMetadata := fun raw hraw => removes.metaKept raw (hother raw hraw)
      othersOrder := fun raw hraw => removes.orderKept raw (hother raw hraw)
      processing := removes.processing
      processingMeta := removes.processingMeta
      retryMeta := removes.retryMeta
      counted := removeQueuedRun_counts s scanLimit }
  · obtain ⟨after, hgone⟩ := hkeys raw hraw
    rw [← hexists_eq_false, ← Bool.not_eq_true, after.metadata]
    exact hgone
  · obtain ⟨after, hgone⟩ := hkeys raw hraw
    rw [← Option.not_isSome_iff_eq_none, after.order]
    exact hgone
  · rw [← removes.otherRuns, List.filter_eq_self.mpr]
    intro raw hraw
    simpa using hunlisted raw hraw

end

/-- Nothing is pushed under the index field of the run while a helper works on it, and the cleanup
of a removal starts when no message of the run is queued. -/
def Unraced (tenantId runId : String) (hs : HelperSystem) : HelperLabel → Prop
  | .queue l => ∀ helper ∈ hs.helpers, helper.active = true →
      helper.field = queuedRunIndexField tenantId runId →
      hs.queue.pushedField l ≠ some (queuedRunIndexField tenantId runId)
  | .startCleanup tenantId' runId' _ => tenantId' = tenantId ∧ runId' = runId →
      ∀ raw ∈ hs.queue.store.queued, ¬ raw.IsFor tenantId runId
  | .startPosition _ _ | .command _ => True

instance (tenantId runId : String) (hs : HelperSystem) :
    ∀ l, Decidable (Unraced tenantId runId hs l)
  | .queue _ => inferInstanceAs (Decidable (∀ helper ∈ hs.helpers, _ → _ → _))
  | .startCleanup _ _ _ =>
    inferInstanceAs (Decidable (_ ∧ _ → ∀ raw ∈ hs.queue.store.queued, ¬ _))
  | .startPosition _ _ => .isTrue trivial
  | .command _ => .isTrue trivial

theorem Unraced.peaceAt {tenantId runId : String} (free : ColonFreeRun tenantId runId)
    {hs : HelperSystem} {l : HelperLabel} (h : Unraced tenantId runId hs l) :
    PeaceAt (queuedRunIndexField tenantId runId) hs l := by
  -- whoever names the field names the run
  have hrun : ∀ tenantId' runId',
      queuedRunIndexField tenantId' runId' = queuedRunIndexField tenantId runId →
      tenantId' = tenantId ∧ runId' = runId := by
    intro tenantId' runId' heq
    obtain ⟨ht, hr⟩ := queuedRunIndexField_inj free.1 free.2 heq.symm
    exact ⟨ht.symm, hr.symm⟩
  cases l with
  | queue l =>
    refine ⟨fun run _ hfield raw _ hindex => ?_, h⟩
    obtain ⟨ht, hr⟩ := hrun run.1 run.2 hfield
    rw [ht, hr]
    exact free.isFor hindex
  | startPosition tenantId' runId' =>
    intro hfield raw _ hindex
    obtain ⟨rfl, rfl⟩ := hrun tenantId' runId' hfield
    exact free.isFor hindex
  | startCleanup tenantId' runId' scanLimit =>
    exact fun hfield raw hraw hindex => h (hrun _ _ hfield) raw hraw (free.isFor hindex)
  | command => trivial

/-- After every run that has not raced with helpers of the removed run, the removal is complete and
touches nothing else. -/
theorem runRemoved_run (env : Environment) (tenantId runId : String) (labels : List HelperLabel)
    (scanLimit : Int) (free : ColonFreeRun tenantId runId)
    (unraced : (helperMachine env).Meets (Unraced tenantId runId)
      (helperMachine env).start labels) :
    RunRemoved env tenantId runId ((helperMachine env).run labels).queue.store
      (removeQueuedRun env ((helperMachine env).run labels).queue.store tenantId runId scanLimit).1
      (removeQueuedRun env ((helperMachine env).run labels).queue.store tenantId runId
        scanLimit).2 :=
  runRemoved (helperWellFormed_run env labels).queue.rows free
    (fieldInvariant_run env (unraced.mono fun _ _ h => h.peaceAt free)).keys scanLimit

/-- Two messages of one run and one of another, and a position helper that has finished. -/
def twoMessagesRun : List HelperLabel :=
  [.queue (.enqueue ⟨"t", "w", "u", "r", "1"⟩ 0), .queue (.enqueue (.simple "t" "other") 1),
    .startPosition "t" "r", .command 0, .command 0, .command 0,
    .queue (.enqueue ⟨"t", "w", "u", "r", "2"⟩ 2)]

theorem runRemoved_run_twoMessagesRun :
    ((helperMachine .plain).run twoMessagesRun).queue.store.queued.length = 3 ∧
      RunRemoved .plain "t" "r" ((helperMachine .plain).run twoMessagesRun).queue.store
        (removeQueuedRun .plain ((helperMachine .plain).run twoMessagesRun).queue.store "t" "r"
          500).1
        (removeQueuedRun .plain ((helperMachine .plain).run twoMessagesRun).queue.store "t" "r"
          500).2 :=
  ⟨by decide +kernel, runRemoved_run .plain "t" "r" twoMessagesRun 500 (by decide +kernel)
    (by decide +kernel)⟩

/-- The helper has read both ids when the first message is leased, so it keeps the second id only;
before it writes the index, a pass requeues the first message. -/
def staleIndexRun : List HelperLabel :=
  [.queue (.enqueue ⟨"t", "w", "u", "r", "1"⟩ 0), .queue (.enqueue ⟨"t", "w", "u", "r", "2"⟩ 1),
    .startPosition "t" "r", .command 0,
    .queue (.leaseCandidate ⟨"t", "w", "u", "r", "1"⟩ 0 "w1" .unlimited (seconds 1) ""),
    .command 0, .command 0, .command 0, .command 0,
    .queue (.startReclaim 0 1 3 (seconds 10)), .queue (.reclaimAt 0 (seconds 10)),
    .queue (.reclaimAt 0 (seconds 10)), .queue (.reclaimAt 0 (seconds 10)), .command 0]

/-- The removal finds the second message only and reports one entry: the first is still queued. -/
theorem staleIndexRun_not_removed :
    ColonFreeRun "t" "r" ∧
      (removeQueuedRun .plain ((helperMachine .plain).run staleIndexRun).queue.store "t" "r"
        500).1.queued = [⟨"t", "w", "u", "r", "1"⟩] ∧
      ¬ RunRemoved .plain "t" "r" ((helperMachine .plain).run staleIndexRun).queue.store
        (removeQueuedRun .plain ((helperMachine .plain).run staleIndexRun).queue.store "t" "r"
          500).1
        (removeQueuedRun .plain ((helperMachine .plain).run staleIndexRun).queue.store "t" "r"
          500).2 := by
  refine ⟨by decide +kernel, by decide +kernel, fun h => ?_⟩
  exact h.unlisted ⟨"t", "w", "u", "r", "1"⟩ (by decide +kernel) (by decide +kernel)

end AiPlatform.Queue
