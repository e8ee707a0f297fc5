import AiPlatform.Queue.Helpers
import AiPlatform.Queue.WellFormed

/-!
# The part of the queue that belongs to one run

A run owns its messages in the lists, the rows filed under its index field, and its fence. An
operation addressed to another run leaves all of this as it was when the two index fields differ;
the fence keys then differ too.
-/
namespace AiPlatform.Queue

open AiPlatform.Foundation Hash SortedSet List

/-- The keys that only leases write. -/
structure SameLeases (s s' : Store) : Prop where
  processing : s'.processing = s.processing
  processingMeta : s'.processingMeta = s.processingMeta
  retryMeta : s'.retryMeta = s.retryMeta
  workerHeartbeat : s'.workerHeartbeat = s.workerHeartbeat

/-- The two stores agree on the queued messages of the run, on every row under its field and on its
fence. -/
structure SameRun (env : Environment) (tenantId runId : String) (s s' : Store) : Prop where
  queued : s'.queued.filter (fun raw => raw.IsFor tenantId runId) =
    s.queued.filter fun raw => raw.IsFor tenantId runId
  queuedMeta : ∀ raw : RunPayload, raw.indexField = queuedRunIndexField tenantId runId →
    hget s'.queuedMeta (env.messageIdForRaw raw) = hget s.queuedMeta (env.messageIdForRaw raw)
  queuedOrder : ∀ raw : RunPayload, raw.indexField = queuedRunIndexField tenantId runId →
    zscore s'.queuedOrder (env.messageIdForRaw raw) = zscore s.queuedOrder (env.messageIdForRaw raw)
  index : hget s'.queuedRunIndex (queuedRunIndexField tenantId runId) =
    hget s.queuedRunIndex (queuedRunIndexField tenantId runId)
  fence : hget s'.fences (reconciliationFenceKey env tenantId runId) =
    hget s.fences (reconciliationFenceKey env tenantId runId)

theorem SameLeases.refl (s : Store) : SameLeases s s := ⟨rfl, rfl, rfl, rfl⟩

namespace SameRun

variable {env : Environment} {tenantId runId : String} {s s' : Store}

theorem refl (s : Store) : SameRun env tenantId runId s s :=
  ⟨rfl, fun _ _ => rfl, fun _ _ => rfl, rfl, rfl⟩

/-! Doing the same to both stores keeps them alike. -/

section

variable (h : SameRun env tenantId runId s s')
include h

theorem lremAll (raw : RunPayload) :
    SameRun env tenantId runId { s with queued := Foundation.lremAll s.queued raw }
      { s' with queued := Foundation.lremAll s'.queued raw } :=
  { h with
    queued := by
      simp only [Foundation.lremAll, filter_filter, Bool.and_comm]
      simp only [← filter_filter, h.queued] }

theorem hdelMeta (messageId : String) :
    SameRun env tenantId runId { s with queuedMeta := hdel s.queuedMeta messageId }
      { s' with queuedMeta := hdel s'.queuedMeta messageId } :=
  { h with queuedMeta := fun raw hraw => by simp only [hget_hdel, h.queuedMeta raw hraw] }

theorem zremOrder (messageId : String) :
    SameRun env tenantId runId { s with queuedOrder := zrem s.queuedOrder messageId }
      { s' with queuedOrder := zrem s'.queuedOrder messageId } :=
  { h with queuedOrder := fun raw hraw => by simp only [zscore_zrem, h.queuedOrder raw hraw] }

theorem setIndex {index index' : RunIndex}
    (same : hget index' (queuedRunIndexField tenantId runId) =
      hget index (queuedRunIndexField tenantId runId)) :
    SameRun env tenantId runId { s with queuedRunIndex := index }
      { s' with queuedRunIndex := index' } :=
  { h with index := same }

theorem dropQueuedRow (messageId : String) :
    SameRun env tenantId runId (s.dropQueuedRow messageId) (s'.dropQueuedRow messageId) :=
  (h.hdelMeta messageId).zremOrder messageId

theorem zrank_isSome {raw : RunPayload}
    (hraw : raw.indexField = queuedRunIndexField tenantId runId) :
    (zrank s'.queuedOrder (env.messageIdForRaw raw)).isSome =
      (zrank s.queuedOrder (env.messageIdForRaw raw)).isSome := by
  simp only [SortedSet.zrank_isSome, h.queuedOrder raw hraw]

/-- How often a message of the run is queued. -/
theorem count {raw : RunPayload} (hraw : raw.IsFor tenantId runId) :
    s'.queued.count raw = s.queued.count raw := by
  rw [← count_filter (p := fun raw => raw.IsFor tenantId runId) (by simpa using hraw), h.queued,
    count_filter (by simpa using hraw)]

end

end SameRun

section

variable {env : Environment} {tenantId runId tenantId' runId' : String} {s s' : Store}

/-! ## Operations addressed to another run -/

theorem not_isFor_of_field_ne
    (hfield : queuedRunIndexField tenantId runId ≠ queuedRunIndexField tenantId' runId')
    {raw : RunPayload} (hraw : raw.IsFor tenantId' runId') : ¬ raw.IsFor tenantId runId := by
  intro h
  apply hfield
  rw [← h.1, ← h.2, hraw.1, hraw.2]

theorem Removes.sameLeases (h : Removes env tenantId runId s s') : SameLeases s s' :=
  ⟨h.processing, h.processingMeta, h.retryMeta, h.workerHeartbeat⟩

theorem Removes.sameRun (h : Removes env tenantId runId s s')
    (hfield : queuedRunIndexField tenantId runId ≠ queuedRunIndexField tenantId' runId') :
    SameRun env tenantId' runId' s s' where
  queued := by
    -- The messages of the other run are among those that are not of this run.
    have hsub : ∀ l : List RunPayload, l.filter (fun raw => raw.IsFor tenantId' runId') =
        (l.filter fun raw => ¬ raw.IsFor tenantId runId).filter
          fun raw => raw.IsFor tenantId' runId' := by
      intro l
      rw [filter_filter]
      refine filter_congr fun raw _ => ?_
      by_cases hraw : raw.IsFor tenantId' runId'
      · simp [hraw, not_isFor_of_field_ne hfield hraw]
      · simp [hraw]
    rw [hsub, h.otherRuns, ← hsub]
  queuedMeta raw hraw := h.metaKept raw (hraw ▸ Ne.symm hfield)
  queuedOrder raw hraw := h.orderKept raw (hraw ▸ Ne.symm hfield)
  index := h.indexKept _ (Ne.symm hfield)
  fence := by rw [h.fences]

theorem enqueueRun_sameRun {raw : RunPayload} (hraw : raw.IsFor tenantId runId) (enqueuedAt : Time)
    (hfield : queuedRunIndexField tenantId runId ≠ queuedRunIndexField tenantId' runId') :
    SameLeases s (enqueueRun env s raw enqueuedAt).1 ∧
      SameRun env tenantId' runId' s (enqueueRun env s raw enqueuedAt).1 := by
  have hrefl : SameLeases s s ∧ SameRun env tenantId' runId' s s := ⟨.refl s, .refl s⟩
  unfold enqueueRun enqueueWithMetadata
  split
  · dsimp only
    split
    · exact hrefl
    split
    · exact hrefl
    split
    · exact hrefl
    refine ⟨⟨rfl, rfl, rfl, rfl⟩, ⟨?_, fun other hother => ?_, fun other hother => ?_, ?_, rfl⟩⟩
    · have hnot : ¬ raw.IsFor tenantId' runId' := fun h => not_isFor_of_field_ne hfield h hraw
      simp [Store.pushQueued, hnot]
    all_goals
      have hindex : raw.indexField = queuedRunIndexField tenantId runId := by
        simp [RunPayload.indexField, hraw.1, hraw.2]
    · have hne : other ≠ raw := by
        rintro rfl
        exact hfield (hindex.symm.trans hother)
      simp [Store.pushQueued, env.messageIdForRaw_injective.eq_iff, hne]
    · have hne : other ≠ raw := by
        rintro rfl
        exact hfield (hindex.symm.trans hother)
      simp [Store.pushQueued, env.messageIdForRaw_injective.eq_iff, hne]
    · simp [Store.pushQueued, hindex, Ne.symm hfield]
  · exact hrefl

/-- A write to the fence of one run. -/
theorem sameRun_fence {fences : Hash String Fence}
    (h : ∀ key, key ≠ reconciliationFenceKey env tenantId runId →
      hget fences key = hget s.fences key)
    (hfield : queuedRunIndexField tenantId runId ≠ queuedRunIndexField tenantId' runId') :
    SameRun env tenantId' runId' s { s with fences := fences } := by
  have hkey : reconciliationFenceKey env tenantId' runId' ≠
      reconciliationFenceKey env tenantId runId :=
    fun heq => hfield ((reconciliationFenceKey_inj env).mp heq.symm)
  exact { SameRun.refl s with fence := h _ hkey }

/-! ## The position program -/

/-- The ids a position program still works on. -/
def PositionPhase.ids : PositionPhase → List String
  | .readMetadata id rest scan | .dropMetadata id rest scan | .dropOrder id rest scan
  | .readRank id rest scan => id :: rest ++ scan.validMessageIds
  | .writeIndex scan => scan.validMessageIds
  | .readIndex | .dropIndex | .returned _ => []

/-- The ids are listed under the program's field. -/
def PositionPhase.Listed (field : String) (s : Store) (phase : PositionPhase) : Prop :=
  ∀ id ∈ phase.ids, id ∈ decodeIndex (hget s.queuedRunIndex field)

theorem PositionScan.ids_next (scan : PositionScan) (todo : List String) :
    (scan.next todo).ids ⊆ todo ++ scan.validMessageIds := by
  cases todo with
  | cons id rest => exact List.Subset.refl _
  | nil =>
    change PositionPhase.ids (if _ then _ else if _ then _ else _) ⊆ scan.validMessageIds
    split
    · exact nil_subset _
    split
    · exact List.Subset.refl _
    · exact nil_subset _

theorem PositionScan.ids_onMetadata (scan : PositionScan) (id : String) (rest : List String)
    (row : Option (Encoded QueuedMeta)) :
    (scan.onMetadata tenantId runId id rest row).ids ⊆ id :: rest ++ scan.validMessageIds := by
  unfold PositionScan.onMetadata
  split
  · exact List.Subset.refl _
  · split <;> exact List.Subset.refl _
  · split
    · exact fun id' hid' => mem_cons_of_mem _ (scan.ids_next rest hid')
    · exact List.Subset.refl _

theorem PositionScan.ids_onRank (scan : PositionScan) (id : String) (rest : List String)
    (rank : Option Nat) :
    (scan.onRank id rest rank).ids ⊆ id :: rest ++ scan.validMessageIds := by
  cases rank with
  | none => exact fun id' hid' => mem_cons_of_mem _ (scan.ids_next rest hid')
  | some rank =>
    intro id' hid'
    replace hid' := (scan.record id rank).ids_next rest hid'
    simp only [PositionScan.record, mem_append, mem_singleton] at hid'
    simp only [cons_append, mem_cons, mem_append]
    tauto

theorem PositionPhase.ids_onIndex (ids : List String) : (PositionPhase.onIndex ids).ids ⊆ ids := by
  unfold PositionPhase.onIndex
  split
  · exact nil_subset _
  · simpa using PositionScan.ids_next ⟨ids, [], none⟩ ids

/-- Clearing a metadata row filed under the run's field. -/
theorem removes_metadata (s : Store) {raw : RunPayload}
    (hfield : raw.indexField = queuedRunIndexField tenantId runId) :
    Removes env tenantId runId s
      { s with queuedMeta := hdel s.queuedMeta (env.messageIdForRaw raw) } :=
  { Removes.refl s with
    metaOld := fun _ _ h => hget_hdel_some h
    metaGone := fun _ h h' => absurd h h'
    metaKept := fun other hne => by
      have : other ≠ raw := by
        rintro rfl
        exact hne hfield
      simp [env.messageIdForRaw_injective.eq_iff, this] }

/-- One command of the position program deletes rows of its own field at most. -/
theorem PositionPhase.command_removes (rows : Rows env s) {phase : PositionPhase}
    (listed : phase.Listed (queuedRunIndexField tenantId runId) s) :
    Removes env tenantId runId s (phase.command tenantId runId s).1 ∧
      (phase.command tenantId runId s).2.Listed (queuedRunIndexField tenantId runId)
        (phase.command tenantId runId s).1 := by
  cases phase with
  | readIndex => exact ⟨.refl s, fun id hid => PositionPhase.ids_onIndex _ hid⟩
  | readMetadata id rest scan =>
    exact ⟨.refl s, fun id' hid' => listed id' (scan.ids_onMetadata id rest _ hid')⟩
  | dropMetadata id rest scan =>
    obtain ⟨raw, rfl, hfield⟩ := rows.index.decoded (listed id (by simp [ids]))
    exact ⟨removes_metadata s hfield, listed⟩
  | dropOrder id rest scan =>
    obtain ⟨raw, rfl, hfield⟩ := rows.index.decoded (listed id (by simp [ids]))
    refine ⟨(removes_order s hfield).toRemoves, fun id' hid' => listed id' ?_⟩
    exact mem_cons_of_mem _ (scan.ids_next rest hid')
  | readRank id rest scan =>
    exact ⟨.refl s, fun id' hid' => listed id' (scan.ids_onRank id rest _ hid')⟩
  | writeIndex scan =>
    refine ⟨(removes_index s (fun field hne => hget_hset_ne _ _ hne) (fun field id hid => ?_)
      fun h => h.hset fun id hid => rows.index.decoded (listed id hid)).toRemoves,
      fun id hid => by cases hid⟩
    rw [hget_hset] at hid
    split at hid
    · subst field
      exact listed id (mem_of_mem_filter hid)
    · exact hid
  | dropIndex =>
    refine ⟨(removes_index s (fun field hne => ?_) (fun field id hid => decodeIndex_hdel hid)
      fun h => h.hdel _).toRemoves, fun id hid => by cases hid⟩
    rw [hget_hdel, if_neg hne]
  | returned => exact ⟨.refl s, fun id hid => by cases hid⟩

theorem PositionPhase.runAlone_removes (n : Nat) (rows : Rows env s) {phase : PositionPhase}
    (listed : phase.Listed (queuedRunIndexField tenantId runId) s) :
    Removes env tenantId runId s (runAlone tenantId runId n (s, phase)).1 := by
  induction n generalizing s phase with
  | zero => exact .refl s
  | succ n ih =>
    obtain ⟨removes, listed⟩ := command_removes rows listed
    exact removes.trans (ih (removes.rows rows) listed)

variable (tenantId runId) in
theorem getRunQueuePosition_removes (rows : Rows env s) :
    Removes env tenantId runId s (getRunQueuePosition s tenantId runId).1 :=
  PositionPhase.runAlone_removes _ rows fun id hid => by cases hid

end

end AiPlatform.Queue
