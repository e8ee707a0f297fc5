import AiPlatform.Queue.FieldRuns

/-!
# The queue and its order set

The list and `queued-order` share oldest-first order: the rank of a message is its place in the
list, counted from the end that leases are taken from, and so is every position that admission,
a repeated admission and the readback report. This holds along every run in which every index
field is left in peace.
-/
namespace AiPlatform.Queue

open AiPlatform.Foundation Hash SortedSet

/-- A cleanup starts when no queued message is under its field. -/
def CleansNothing (hs : HelperSystem) : HelperLabel → Prop
  | .startCleanup tenantId runId _ => ∀ raw ∈ hs.queue.store.queued,
      raw.indexField ≠ queuedRunIndexField tenantId runId
  | _ => True

instance (hs : HelperSystem) : ∀ l, Decidable (CleansNothing hs l)
  | .startCleanup _ _ _ => inferInstanceAs (Decidable (∀ raw ∈ hs.queue.store.queued, _ ≠ _))
  | .queue _ | .startPosition _ _ | .command _ => .isTrue trivial

/-- The step leaves every field in peace. -/
def Peace (hs : HelperSystem) (l : HelperLabel) : Prop :=
  Undisturbed hs l ∧ CleansNothing hs l

instance (hs : HelperSystem) (l : HelperLabel) : Decidable (Peace hs l) :=
  inferInstanceAs (Decidable (_ ∧ _))

variable {hs : HelperSystem} {env : Environment}

theorem Peace.peaceAt {l : HelperLabel} (h : Peace hs l) (field : String) :
    PeaceAt field hs l := by
  cases l with
  | queue l =>
    obtain ⟨hremoval, hpushed⟩ := h.1
    refine ⟨fun run hrun hfield raw hraw hindex => hremoval run hrun raw hraw
      (hindex.trans hfield.symm), fun helper hmem hactive hfield => ?_⟩
    exact hfield ▸ hpushed helper hmem hactive
  | startPosition tenantId runId =>
    exact fun hfield raw hraw hindex => h.1 raw hraw (hindex.trans hfield.symm)
  | startCleanup tenantId runId scanLimit =>
    intro hfield raw hraw
    exact hfield ▸ h.2 raw hraw
  | command => trivial

/-- Scores grow along the list and none is above the sequence number given out last. -/
structure ScoresGrow (env : Environment) (s : Store) : Prop where
  sorted : s.queued.Pairwise fun a b => ∀ x y,
    zscore s.queuedOrder (env.messageIdForRaw a) = some x →
    zscore s.queuedOrder (env.messageIdForRaw b) = some y → x < y
  bounded : ∀ id x, zscore s.queuedOrder id = some x → x ≤ s.queuedSequence
  named : ∀ id x, zscore s.queuedOrder id = some x → ∃ raw, id = env.messageIdForRaw raw

section

variable {env : Environment} {s s' : Store}

/-- Entries and scores may go. -/
theorem ScoresGrow.shrink (h : ScoresGrow env s) (queued : s'.queued.Sublist s.queued)
    (sequence : s'.queuedSequence = s.queuedSequence)
    (old : ∀ id x, zscore s'.queuedOrder id = some x → zscore s.queuedOrder id = some x) :
    ScoresGrow env s' where
  sorted := (h.sorted.sublist queued).imp fun hlt x y hx hy =>
    hlt x y (old _ _ hx) (old _ _ hy)
  bounded id x hx := sequence ▸ h.bounded id x (old id x hx)
  named id x hx := h.named id x (old id x hx)

/-- A message that is not queued gets the next sequence number and the last place. -/
theorem ScoresGrow.push (h : ScoresGrow env s) {raw : RunPayload} (absent : raw ∉ s.queued)
    (metadata : QueuedMeta) (messageIds : List String) :
    ScoresGrow env (s.pushQueued raw (env.messageIdForRaw raw) metadata messageIds) where
  sorted := by
    have hother : ∀ a ∈ s.queued, env.messageIdForRaw a ≠ env.messageIdForRaw raw := by
      intro a ha
      apply env.messageIdForRaw_injective.ne
      rintro rfl
      exact absent ha
    refine List.pairwise_append.mpr ⟨?_, List.pairwise_singleton _ _, ?_⟩
    · refine h.sorted.imp_of_mem fun ha hb hlt => ?_
      simpa [Store.pushQueued, hother _ ha, hother _ hb] using hlt
    · intro a ha b hb x y hx hy
      obtain rfl := List.mem_singleton.mp hb
      simp only [Store.pushQueued, zscore_zadd, hother a ha, if_false, if_true,
        Option.some.injEq] at hx hy
      have := h.bounded _ _ hx
      omega
  bounded id x hx := by
    simp only [Store.pushQueued, zscore_zadd] at hx ⊢
    split at hx
    · exact (Option.some.inj hx).ge
    · exact (h.bounded id x hx).trans (Nat.le_succ _)
  named id x hx := by
    simp only [Store.pushQueued, zscore_zadd] at hx
    split at hx
    · exact ⟨raw, ‹_›⟩
    · exact h.named id x hx

theorem ScoresGrow.change {sys : System} {l : Label} {events : List Event}
    (h : ScoresGrow env s) (rows : Rows env s) (keys : ∀ raw, MessageKeys env s raw)
    (change : Change env sys l s events s') : ScoresGrow env s' := by
  cases change with
  | quiet same =>
    exact h.shrink (same.queued ▸ .refl _) same.queuedSequence fun _ _ hx => same.queuedOrder ▸ hx
  | claim | heartbeat | settle | deadLetter => exact h.shrink (.refl _) rfl fun _ _ hx => hx
  | @push _ raw enqueuedAt valid unfenced notIndexed =>
    exact h.push (fun hraw => (keys raw).rows.indexedAdmission_ne hraw notIndexed) _ _
  | remove removal =>
    have removes := removal.removes rows
    exact h.shrink removes.queued removes.sequence removes.orderOld
  | grant request =>
    subst request
    refine h.shrink ?_ rfl fun _ _ hx => zscore_of_zrem hx
    simp only [Store.grantLease, Store.takeQueued, removeAt_eq_eraseIdx]
    exact List.eraseIdx_sublist _ _
  | dropInvalid =>
    refine h.shrink ?_ rfl fun _ _ hx => zscore_of_zrem hx
    simp only [Store.takeInvalid, removeAt_eq_eraseIdx]
    exact List.eraseIdx_sublist _ _
  | @requeue _ _ tick call _ _ phase unfenced row held processing =>
    have hreleased : ScoresGrow env { s with
        processing := lremFirst s.processing call.lease.raw
        processingMeta := hdel s.processingMeta (env.messageIdForRaw call.lease.raw) } :=
      h.shrink (.refl _) rfl fun _ _ hx => hx
    have hpushed := hreleased.push
      (fun hq => (keys call.lease.raw).rows.not_processing hq processing)
      (queuedMetadata call.lease.raw tick.clientTime)
      ((decodeIndex (hget s.queuedRunIndex call.lease.raw.indexField)).filter
        (· ≠ env.messageIdForRaw call.lease.raw) ++ [env.messageIdForRaw call.lease.raw])
    exact hpushed.shrink (.refl _) rfl fun _ _ hx => hx

end

structure OrderInvariant (env : Environment) (hs : HelperSystem) : Prop where
  wellFormed : HelperWellFormed env hs
  fields : ∀ field, FieldInvariant env field hs
  scores : ScoresGrow env hs.queue.store

theorem OrderInvariant.keys (inv : OrderInvariant env hs) (raw : RunPayload) :
    MessageKeys env hs.queue.store raw :=
  (inv.fields raw.indexField).keys raw rfl

theorem OrderInvariant.step {l : HelperLabel} (inv : OrderInvariant env hs) (peace : Peace hs l) :
    OrderInvariant env (hs.step env l) := by
  refine ⟨inv.wellFormed.step l,
    fun field => (inv.fields field).step inv.wellFormed (peace.peaceAt field), ?_⟩
  cases l with
  | queue l =>
    obtain ⟨s₁, kept, change⟩ := hs.queue.effect_change env l
    have hscores : ScoresGrow env s₁ := inv.scores.shrink (kept.queued ▸ .refl _)
      kept.queuedSequence fun _ _ hx => kept.queuedOrder ▸ hx
    exact hscores.change (inv.wellFormed.queue.rows.rewritten kept)
      (fun raw => ((inv.keys raw).rows.same (.of_rewritten kept)).keys) change
  | startPosition | startCleanup => exact inv.scores
  | command i =>
    unfold HelperSystem.step
    dsimp only
    split
    · exact inv.scores
    rename_i helper hget
    obtain ⟨write, -⟩ := Helper.command_write inv.wellFormed.queue.rows
      (inv.wellFormed.owns helper (List.mem_of_getElem? hget))
    exact inv.scores.shrink write.queued write.scores.1 write.scores.2

theorem orderInvariant_run (env : Environment) {labels : List HelperLabel}
    (peace : (helperMachine env).Meets Peace (helperMachine env).start labels) :
    OrderInvariant env ((helperMachine env).run labels) := by
  refine Machine.invariant_run ⟨helperWellFormed_run env [], ?_, ?_⟩
    (fun hs l inv hl => inv.step hl) peace
  · exact fun field => @fieldInvariant_run env field [] trivial
  · exact ⟨.nil, by simp [helperMachine, System.initial, Store.empty, zscore],
      by simp [helperMachine, System.initial, Store.empty, zscore]⟩

/-- The order set lists the queued messages in the order of the list. -/
theorem OrderInvariant.lists (inv : OrderInvariant env hs) :
    Lists hs.queue.store.queuedOrder (hs.queue.store.queued.map env.messageIdForRaw) where
  mem member := by
    constructor
    · intro hsome
      obtain ⟨x, hx⟩ := Option.isSome_iff_exists.mp hsome
      obtain ⟨raw, rfl⟩ := inv.scores.named member x hx
      exact List.mem_map_of_mem ((inv.keys raw).order.mp hsome)
    · intro hmem
      obtain ⟨raw, hraw, rfl⟩ := List.mem_map.mp hmem
      exact (inv.keys raw).order.mpr hraw
  sorted := List.pairwise_map.mpr inv.scores.sorted

/-! ## Reported positions -/

/-- Ranks, and the positions that callers are told, are places in the list. -/
structure QueueOrdered (env : Environment) (s : Store) : Prop where
  ranks : ∀ id i, zrank s.queuedOrder id = some i ↔
    s.queued[i]?.map env.messageIdForRaw = some id
  admitted : ∀ raw enqueuedAt position sequence,
    (enqueueRun env s raw enqueuedAt).2 = some (.enqueued position sequence) →
    0 < position ∧ (enqueueRun env s raw enqueuedAt).1.queued[position - 1]? = some raw
  repeated : ∀ raw enqueuedAt position sequence,
    (enqueueRun env s raw enqueuedAt).2 = some (.alreadyEnqueued position sequence) →
    0 < position ∧ s.queued[position - 1]? = some raw
  leasedElsewhere : ∀ raw enqueuedAt,
    (enqueueRun env s raw enqueuedAt).2 = some .alreadyLeased → raw ∉ s.queued
  readback : ∀ raw found, readQueueAdmission env s raw = some found →
    (found.source = .readbackQueued →
      0 < found.queuePosition ∧ s.queued[found.queuePosition - 1]? = some raw) ∧
    (found.source ≠ .readbackQueued → found.queuePosition = 0 ∧ raw ∉ s.queued)

section

variable {env : Environment} {s : Store}

theorem zrank_of_indexedAdmission {messageIds : List String} {messageId : String}
    {rank sequence : Nat}
    (h : indexedAdmission s messageIds messageId = some (rank, sequence)) :
    zrank s.queuedOrder messageId = some rank := by
  unfold indexedAdmission at h
  split at h
  · split at h
    · rename_i hrank
      rw [hrank, (Prod.mk.inj (Option.some.inj h)).1]
    · rename_i hrank
      rw [hrank, (Prod.mk.inj (Option.some.inj h)).1]
    · simp at h
  · simp at h

/-- What an admission's answer says about the store before it and the store after it. -/
def EnqueueReply.Reports (env : Environment) (s s' : Store) (raw : RunPayload) :
    EnqueueReply → Prop
  | .reconciliationFenced => True
  | .alreadyEnqueued position _ => ∃ rank, position = rank + 1 ∧
      zrank s.queuedOrder (env.messageIdForRaw raw) = some rank
  | .alreadyLeased => indexedAdmission s (decodeIndex (hget s.queuedRunIndex raw.indexField))
      (env.messageIdForRaw raw) = none
  | .enqueued position _ => position = s.queued.length + 1 ∧ s'.queued = s.queued ++ [raw]

theorem enqueueWithMetadata_reports (raw : RunPayload) (enqueuedAt : Time) :
    (enqueueWithMetadata env s raw enqueuedAt).2.Reports env s
      (enqueueWithMetadata env s raw enqueuedAt).1 raw := by
  unfold enqueueWithMetadata
  dsimp only
  split
  · trivial
  cases hadmission : indexedAdmission s (decodeIndex (hget s.queuedRunIndex raw.indexField))
      (env.messageIdForRaw raw) with
  | some admission => exact ⟨admission.1, rfl, zrank_of_indexedAdmission hadmission⟩
  | none =>
    dsimp only
    split
    · exact hadmission
    · exact ⟨rfl, rfl⟩

variable {raw : RunPayload}

theorem enqueueRun_reports {enqueuedAt : Time} {reply : EnqueueReply}
    (h : (enqueueRun env s raw enqueuedAt).2 = some reply) :
    reply.Reports env s (enqueueRun env s raw enqueuedAt).1 raw := by
  unfold enqueueRun at h ⊢
  split
  · rename_i hvalid
    simp only [hvalid, if_true, Option.some.injEq] at h
    exact h ▸ enqueueWithMetadata_reports raw enqueuedAt
  · rename_i hvalid
    simp [hvalid] at h

/-- What the readback reports. -/
theorem readQueueAdmission_found {found : QueueAdmissionMetadata}
    (h : readQueueAdmission env s raw = some found) :
    (∃ rank, found.source = .readbackQueued ∧ found.queuePosition = rank + 1 ∧
      zrank s.queuedOrder (env.messageIdForRaw raw) = some rank) ∨
    (readLeaseAdmission env s raw = some found ∧
      ∀ m rank, hget s.queuedMeta (env.messageIdForRaw raw) = some (.table m) →
        zrank s.queuedOrder (env.messageIdForRaw raw) = some rank →
        ¬ (m.tenantId = raw.tenantId ∧ m.runId = raw.runId)) := by
  unfold readQueueAdmission at h
  dsimp only at h
  split at h
  · rename_i m rank hrow hrank
    split at h
    · obtain rfl := Option.some.inj h
      exact .inl ⟨rank, rfl, rfl, hrank⟩
    · rename_i hrun
      refine .inr ⟨h, fun m' rank' hrow' _ => ?_⟩
      obtain rfl : m = m' := by simpa [hrow] using hrow'
      exact hrun
  · rename_i hnot
    exact .inr ⟨h, fun m rank hrow hrank => absurd hrank (hnot m rank hrow)⟩

theorem readLeaseAdmission_found {found : QueueAdmissionMetadata}
    (h : readLeaseAdmission env s raw = some found) :
    found.source ≠ .readbackQueued ∧ found.queuePosition = 0 := by
  unfold readLeaseAdmission at h
  dsimp only at h
  split at h
  · obtain rfl := Option.some.inj h
    simp
  split at h
  · obtain rfl := Option.some.inj h
    simp
  · simp at h

end

theorem OrderInvariant.queueOrdered (inv : OrderInvariant env hs) :
    QueueOrdered env hs.queue.store := by
  have hranks : ∀ id i, zrank hs.queue.store.queuedOrder id = some i ↔
      hs.queue.store.queued[i]?.map env.messageIdForRaw = some id := by
    intro id i
    rw [inv.lists.zrank_eq_some_iff, List.getElem?_map]
  have hplace : ∀ raw i, zrank hs.queue.store.queuedOrder (env.messageIdForRaw raw) = some i →
      hs.queue.store.queued[i]? = some raw := by
    intro raw i hrank
    obtain ⟨other, hother, hid⟩ := Option.map_eq_some_iff.mp ((hranks _ i).mp hrank)
    rwa [env.messageIdForRaw_injective hid] at hother
  refine ⟨hranks, ?_, ?_, ?_, ?_⟩
  · intro raw enqueuedAt position sequence h
    obtain ⟨rfl, hqueued⟩ := enqueueRun_reports h
    exact ⟨Nat.succ_pos _, by simp [hqueued]⟩
  · intro raw enqueuedAt position sequence h
    obtain ⟨rank, rfl, hrank⟩ := enqueueRun_reports h
    exact ⟨Nat.succ_pos _, hplace raw rank hrank⟩
  · intro raw enqueuedAt h hraw
    exact (inv.keys raw).rows.indexedAdmission_ne hraw (enqueueRun_reports h)
  · intro raw found h
    obtain ⟨rank, hsource, hposition, hrank⟩ | ⟨hlease, hqueued⟩ := readQueueAdmission_found h
    · refine ⟨fun _ => ⟨?_, ?_⟩, fun hne => absurd hsource hne⟩
      · omega
      · rw [hposition]
        exact hplace raw rank hrank
    · obtain ⟨hsource, hposition⟩ := readLeaseAdmission_found hlease
      refine ⟨fun h => absurd h hsource, fun _ => ⟨hposition, fun hraw => ?_⟩⟩
      -- a queued message has its row and its rank, so the readback had stopped there
      obtain ⟨row, hrow⟩ := (hexists_eq_true _ _).mp ((inv.keys raw).metadata.mpr hraw)
      obtain ⟨m, rfl, hm⟩ := inv.wellFormed.queue.rows.queued.at hrow
      obtain ⟨rank, hrank⟩ : ∃ rank,
          zrank hs.queue.store.queuedOrder (env.messageIdForRaw raw) = some rank := by
        rw [← Option.isSome_iff_exists, zrank_isSome]
        exact (inv.keys raw).order.mpr hraw
      exact hqueued m rank hrow hrank ⟨hm.tenantId, hm.runId⟩

/-- Along every run that leaves the index fields in peace, the order set and the reported positions
follow the list. -/
theorem queueOrdered_run (env : Environment) (labels : List HelperLabel)
    (peace : (helperMachine env).Meets Peace (helperMachine env).start labels) :
    QueueOrdered env ((helperMachine env).run labels).queue.store :=
  (orderInvariant_run env peace).queueOrdered

/-- A position helper and a cleanup work next to two admissions, a lease and a requeue. -/
def peacefulRun : List HelperLabel :=
  [.queue (.enqueue (.simple "t" "r") 0), .queue (.enqueue (.simple "t" "other") 1),
    .startPosition "t" "r", .command 0,
    .queue (.leaseCandidate (.simple "t" "r") 0 "w1" .unlimited (seconds 1) ""),
    .command 0, .command 0, .command 0, .startCleanup "t" "r" 100, .command 1,
    .queue (.startReclaim 0 1 3 (seconds 10)), .queue (.reclaimAt 0 (seconds 10)),
    .queue (.reclaimAt 0 (seconds 10)), .queue (.reclaimAt 0 (seconds 10))]

theorem queueOrdered_run_peacefulRun :
    ((helperMachine .plain).run peacefulRun).queue.store.queued =
        [.simple "t" "other", .simple "t" "r"] ∧
      QueueOrdered .plain ((helperMachine .plain).run peacefulRun).queue.store :=
  ⟨by decide +kernel, queueOrdered_run .plain peacefulRun (by decide +kernel)⟩

/-- The helper of `requeuedUnderHelperRun` takes the requeued message out of the order: it is the
only one in the list, it has no rank, and the readback reports position 0 for it. -/
theorem requeuedUnderHelperRun_not_ordered :
    ((helperMachine .plain).run (requeuedUnderHelperRun ++ [.command 0])).queue.store.queued =
        [.simple "t" "r"] ∧
      (readQueueAdmission .plain
        ((helperMachine .plain).run (requeuedUnderHelperRun ++ [.command 0])).queue.store
        (.simple "t" "r")).map (·.queuePosition) = some 0 ∧
      ¬ QueueOrdered .plain
        ((helperMachine .plain).run (requeuedUnderHelperRun ++ [.command 0])).queue.store := by
  refine ⟨by decide +kernel, by decide +kernel, fun h => ?_⟩
  have hrank := (h.ranks (Environment.plain.messageIdForRaw (.simple "t" "r")) 0).mpr
    (by decide +kernel)
  exact absurd hrank (by decide +kernel)

end AiPlatform.Queue
