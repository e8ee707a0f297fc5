import AiPlatform.Queue.Helpers
import AiPlatform.Queue.Slots

/-!
# Helpers next to the scripts

Any number of position and cleanup helpers take their commands between the steps of the queue. A
helper deletes rows by what it has read some commands earlier, so it can delete a row of a message
that was queued in between. It does not if nothing is pushed under its index field while it runs,
and if the field is not shared with a queued message of another run.
-/
namespace AiPlatform.Queue

open AiPlatform.Foundation Hash SortedSet List

inductive Helper where
  | position (tenantId runId : String) (phase : PositionPhase)
  | cleanup (call : CleanupCall)
  deriving DecidableEq, Repr

def Helper.field : Helper → String
  | .position tenantId runId _ => queuedRunIndexField tenantId runId
  | .cleanup call => queuedRunIndexField call.tenantId call.runId

def Helper.active : Helper → Bool
  | .position _ _ (.returned _) => false
  | .position _ _ _ => true
  | .cleanup call => call.phase ≠ .returned

def Helper.command (env : Environment) (s : Store) : Helper → Store × Helper
  | .position tenantId runId phase =>
    let result := phase.command tenantId runId s
    (result.1, .position tenantId runId result.2)
  | .cleanup call =>
    let result := call.command env s
    (result.1, .cleanup result.2)

structure HelperSystem where
  queue : System
  helpers : List Helper

inductive HelperLabel where
  | queue (l : Label)
  | startPosition (tenantId runId : String)
  | startCleanup (tenantId runId : String) (scanLimit : Int)
  | command (i : Nat)
  deriving DecidableEq, Repr

def HelperSystem.step (env : Environment) (hs : HelperSystem) : HelperLabel → HelperSystem
  | .queue l => { hs with queue := hs.queue.step env l }
  | .startPosition tenantId runId =>
    { hs with helpers := hs.helpers ++ [.position tenantId runId .readIndex] }
  | .startCleanup tenantId runId scanLimit =>
    { hs with helpers := hs.helpers ++ [.cleanup ⟨tenantId, runId, scanLimit, 0, .readQueue⟩] }
  | .command i =>
    match hs.helpers[i]? with
    | none => hs
    | some helper =>
      let result := helper.command env hs.queue.store
      { queue := { hs.queue with store := result.1 }, helpers := hs.helpers.set i result.2 }

def helperMachine (env : Environment) : Machine HelperSystem HelperLabel :=
  ⟨⟨.initial, []⟩, HelperSystem.step env⟩

/-- The index field under which the label may push a message. -/
def System.pushedField (sys : System) : Label → Option String
  | .enqueue payload _ => some payload.indexField
  | .reclaim i _ =>
    match (sys.passes i).phase with
    | .requeue call _ => some call.lease.raw.indexField
    | _ => none
  | _ => none

/-- Nothing is pushed under the field of a running helper, removals meet only messages of their own
run, and a position helper starts when its field is not shared. -/
def Undisturbed (hs : HelperSystem) : HelperLabel → Prop
  | .queue l => OwnRemoval hs.queue.store l ∧
      ∀ helper ∈ hs.helpers, helper.active = true → hs.queue.pushedField l ≠ some helper.field
  | .startPosition tenantId runId => ∀ raw ∈ hs.queue.store.queued,
      raw.indexField = queuedRunIndexField tenantId runId → raw.IsFor tenantId runId
  | .startCleanup _ _ _ => True
  | .command _ => True

instance (hs : HelperSystem) : ∀ l, Decidable (Undisturbed hs l)
  | .queue _ => inferInstanceAs (Decidable (_ ∧ ∀ helper ∈ hs.helpers, _ → _))
  | .startPosition _ _ => inferInstanceAs (Decidable (∀ raw ∈ hs.queue.store.queued, _ → _))
  | .startCleanup _ _ _ => .isTrue trivial
  | .command _ => .isTrue trivial

/-- No row of a queued message is lost between the two stores. -/
structure KeepsRow (env : Environment) (s s' : Store) (raw : RunPayload) : Prop where
  metadata : hexists s.queuedMeta (env.messageIdForRaw raw) = true →
    hexists s'.queuedMeta (env.messageIdForRaw raw) = true
  index : env.messageIdForRaw raw ∈ decodeIndex (hget s.queuedRunIndex raw.indexField) →
    env.messageIdForRaw raw ∈ decodeIndex (hget s'.queuedRunIndex raw.indexField)
  order : (zscore s.queuedOrder (env.messageIdForRaw raw)).isSome = true →
    (zscore s'.queuedOrder (env.messageIdForRaw raw)).isSome = true

/-- A helper's command deletes no row of a message that is queued when it runs. -/
def SparesQueued (env : Environment) (hs : HelperSystem) : HelperLabel → Prop
  | .command i => ∀ raw ∈ hs.queue.store.queued,
      KeepsRow env hs.queue.store (hs.step env (.command i)).queue.store raw
  | _ => True

/-! ## What a command does -/

/-- The possible effects of one helper command on the store. A helper that is informed knows what it
says about the queued messages. -/
inductive HelperEffect (env : Environment) (informed : Prop) (field : String) (s : Store) :
    Store → Prop where
  | none : HelperEffect env informed field s s
  | removeEntry (raw : RunPayload) (own : raw.indexField = field) :
      HelperEffect env informed field s { s with queued := lremAll s.queued raw }
  | dropMetadata (raw : RunPayload) (own : raw.indexField = field)
      (unqueued : informed → raw ∉ s.queued) :
      HelperEffect env informed field s
        { s with queuedMeta := hdel s.queuedMeta (env.messageIdForRaw raw) }
  | dropOrder (raw : RunPayload) (own : raw.indexField = field)
      (unqueued : informed → raw ∉ s.queued) :
      HelperEffect env informed field s
        { s with queuedOrder := zrem s.queuedOrder (env.messageIdForRaw raw) }
  | writeIndex (messageIds : List String)
      (complete : informed → ∀ raw ∈ s.queued, raw.indexField = field →
        env.messageIdForRaw raw ∈ messageIds)
      (own : ∀ id ∈ messageIds, ∃ raw, id = env.messageIdForRaw raw ∧ raw.indexField = field) :
      HelperEffect env informed field s
        { s with queuedRunIndex := hset s.queuedRunIndex field (.table messageIds) }
  | dropIndex (unqueued : informed → ∀ raw ∈ s.queued, raw.indexField ≠ field) :
      HelperEffect env informed field s { s with queuedRunIndex := hdel s.queuedRunIndex field }

section

variable {env : Environment} {s s' : Store} {field : String}

section

variable {informed : Prop} (effect : HelperEffect env informed field s s')
include effect

theorem HelperEffect.queued : s'.queued.Sublist s.queued := by
  cases effect with
  | removeEntry => exact filter_sublist
  | none | dropMetadata | dropOrder | writeIndex | dropIndex => exact .refl _

theorem HelperEffect.rows (rows : Rows env s) : Rows env s' := by
  cases effect with
  | none => exact rows
  | removeEntry raw =>
    exact { rows with
      listed := fun other h => rows.listed other (h.imp_left mem_of_mem_filter) }
  | dropMetadata => exact { rows with queued := rows.queued.mono fun _ _ => hget_hdel_some }
  | dropOrder => exact { rows with }
  | writeIndex messageIds complete own => exact { rows with index := rows.index.hset own }
  | dropIndex => exact { rows with index := rows.index.hdel _ }

end

section

variable (effect : HelperEffect env True field s s')
include effect

theorem HelperEffect.keepsRow {raw : RunPayload} (hraw : raw ∈ s.queued) :
    KeepsRow env s s' raw := by
  have hne : ∀ {other}, (True → other ∉ s.queued) →
      env.messageIdForRaw raw ≠ env.messageIdForRaw other := fun unqueued hid =>
    unqueued trivial (env.messageIdForRaw_injective hid ▸ hraw)
  cases effect with
  | none | removeEntry => exact ⟨id, id, id⟩
  | dropMetadata other own unqueued => exact ⟨fun h => by simp [h, hne unqueued], id, id⟩
  | dropOrder other own unqueued => exact ⟨id, id, fun h => by simpa [hne unqueued] using h⟩
  | writeIndex messageIds complete own =>
    refine ⟨id, fun h => ?_, id⟩
    dsimp only
    rw [hget_hset]
    split
    · rename_i hfield
      simpa [decodeIndex, env.messageIdForRaw_ne_empty] using complete trivial raw hraw hfield
    · exact h
  | dropIndex unqueued =>
    exact ⟨id, fun h => by simpa [unqueued trivial raw hraw] using h, id⟩

theorem HelperEffect.slots (slots : Slots env s) : Slots env s' := by
  have hkeep : ∀ raw ∈ s'.queued, QueuedRow env s' raw := by
    intro raw hraw
    have hq := effect.queued.subset hraw
    obtain ⟨metadata, index, order⟩ := slots.queuedRow raw hq
    have keeps := effect.keepsRow hq
    exact ⟨keeps.metadata metadata, keeps.index index, keeps.order order⟩
  have hsame : s'.processing = s.processing ∧ s'.processingMeta = s.processingMeta ∧
      s'.retryMeta = s.retryMeta := by
    cases effect <;> exact ⟨rfl, rfl, rfl⟩
  obtain ⟨hp, hpm, hrm⟩ := hsame
  exact
    { queuedNodup := effect.queued.nodup slots.queuedNodup
      processingNodup := hp ▸ slots.processingNodup
      queuedRow := hkeep
      unleased := fun raw hraw => hpm ▸ slots.unleased raw (effect.queued.subset hraw)
      leased := fun raw hraw => hpm ▸ slots.leased raw (hp ▸ hraw)
      retried := fun raw hraw => hrm ▸ slots.retried raw (hp ▸ hraw) }

end

end

/-! ## What a helper knows -/

/-- Every queued message of the field is still to be looked at or has been found valid. -/
structure ScanKnows (env : Environment) (s : Store) (field : String) (scan : PositionScan)
    (todo : List String) : Prop where
  covers : ∀ raw ∈ s.queued, raw.indexField = field →
    env.messageIdForRaw raw ∈ todo ∨ env.messageIdForRaw raw ∈ scan.validMessageIds
  own : ∀ id, id ∈ todo ∨ id ∈ scan.validMessageIds →
    ∃ raw, id = env.messageIdForRaw raw ∧ raw.indexField = field

def Unshared (s : Store) (tenantId runId : String) : Prop :=
  ∀ raw ∈ s.queued, raw.indexField = queuedRunIndexField tenantId runId → raw.IsFor tenantId runId

def PositionPhase.Knows (env : Environment) (s : Store) (tenantId runId : String) :
    PositionPhase → Prop
  | .readIndex => Unshared s tenantId runId
  | .readMetadata id rest scan => Unshared s tenantId runId ∧
      ScanKnows env s (queuedRunIndexField tenantId runId) scan (id :: rest)
  | .readRank id rest scan => Unshared s tenantId runId ∧
      ScanKnows env s (queuedRunIndexField tenantId runId) scan (id :: rest)
  | .dropMetadata id rest scan => Unshared s tenantId runId ∧
      ScanKnows env s (queuedRunIndexField tenantId runId) scan (id :: rest) ∧
      ∀ raw ∈ s.queued, env.messageIdForRaw raw ≠ id
  | .dropOrder id rest scan => Unshared s tenantId runId ∧
      ScanKnows env s (queuedRunIndexField tenantId runId) scan (id :: rest) ∧
      ∀ raw ∈ s.queued, env.messageIdForRaw raw ≠ id
  | .writeIndex scan => ScanKnows env s (queuedRunIndexField tenantId runId) scan []
  | .dropIndex => ∀ raw ∈ s.queued, raw.indexField ≠ queuedRunIndexField tenantId runId
  | .returned _ => True

/-- The entry being cleaned up is of the run and no longer queued. -/
def CleanupCall.Cleans (s : Store) (c : CleanupCall) (raw : RunPayload) : Prop :=
  raw.IsFor c.tenantId c.runId ∧ raw ∉ s.queued

def CleanupCall.Knows (env : Environment) (s : Store) (c : CleanupCall) : Prop :=
  match c.phase with
  | .readQueue => True
  | .removeEntry raw _ => raw.IsFor c.tenantId c.runId
  | .dropMetadata raw _ => c.Cleans s raw
  | .readIndex raw _ => c.Cleans s raw
  | .writeIndex raw _ remaining => c.Cleans s raw ∧
      (∀ other ∈ s.queued, other.indexField = queuedRunIndexField c.tenantId c.runId →
        env.messageIdForRaw other ∈ remaining) ∧
      ∀ id ∈ remaining, ∃ other, id = env.messageIdForRaw other ∧
        other.indexField = queuedRunIndexField c.tenantId c.runId
  | .dropIndex raw _ => c.Cleans s raw ∧
      ∀ other ∈ s.queued, other.indexField ≠ queuedRunIndexField c.tenantId c.runId
  | .dropOrder raw _ => c.Cleans s raw
  | .returned => True

def Helper.Knows (env : Environment) (s : Store) : Helper → Prop
  | .position tenantId runId phase => phase.Knows env s tenantId runId
  | .cleanup call => call.Knows env s

section

variable {env : Environment} {s s' : Store} {tenantId runId : String}

theorem RunPayload.IsFor.indexField {raw : RunPayload} (h : raw.IsFor tenantId runId) :
    raw.indexField = queuedRunIndexField tenantId runId := by
  simp [RunPayload.indexField, h.1, h.2]

variable {scan : PositionScan} {field : String}

theorem ScanKnows.mono {todo : List String} (h : ScanKnows env s field scan todo)
    (sub : ∀ raw ∈ s'.queued, raw.indexField = field → raw ∈ s.queued) :
    ScanKnows env s' field scan todo :=
  ⟨fun raw hraw hfield => h.covers raw (sub raw hraw hfield) hfield, h.own⟩

/-- Knowledge survives as long as no message is pushed under the helper's field. -/
theorem Helper.Knows.mono {helper : Helper} (h : helper.Knows env s)
    (sub : ∀ raw ∈ s'.queued, raw.indexField = helper.field → raw ∈ s.queued) :
    helper.Knows env s' := by
  cases helper with
  | position tenantId runId phase =>
    have hshared : Unshared s tenantId runId → Unshared s' tenantId runId :=
      fun h raw hraw hfield => h raw (sub raw hraw hfield) hfield
    have hids : ∀ {id : String} {rest : List String} {scan : PositionScan},
        ScanKnows env s (queuedRunIndexField tenantId runId) scan (id :: rest) →
        (∀ raw ∈ s.queued, env.messageIdForRaw raw ≠ id) →
        ∀ raw ∈ s'.queued, env.messageIdForRaw raw ≠ id := by
      intro id rest scan hscan hun raw hraw hid
      -- An id of the scan is the id of a message of the field.
      obtain ⟨other, hother, hfield⟩ := hscan.own id (.inl (by simp))
      obtain rfl := env.messageIdForRaw_injective (hid.trans hother)
      exact hun raw (sub raw hraw hfield) hid
    cases phase with
    | readIndex => exact hshared h
    | readMetadata => exact ⟨hshared h.1, h.2.mono sub⟩
    | readRank => exact ⟨hshared h.1, h.2.mono sub⟩
    | dropMetadata => exact ⟨hshared h.1, h.2.1.mono sub, hids h.2.1 h.2.2⟩
    | dropOrder => exact ⟨hshared h.1, h.2.1.mono sub, hids h.2.1 h.2.2⟩
    | writeIndex => exact ScanKnows.mono h sub
    | dropIndex => exact fun raw hraw hfield => h raw (sub raw hraw hfield) hfield
    | returned => trivial
  | cleanup call =>
    have hcleans : ∀ raw, call.Cleans s raw → call.Cleans s' raw :=
      fun raw hraw => ⟨hraw.1, fun hq => hraw.2 (sub raw hq hraw.1.indexField)⟩
    simp only [Helper.Knows, CleanupCall.Knows] at h ⊢
    split at h
    · trivial
    · exact h
    · exact hcleans _ h
    · exact hcleans _ h
    · exact ⟨hcleans _ h.1, fun other hq hfield => h.2.1 other (sub other hq hfield) hfield, h.2.2⟩
    · exact ⟨hcleans _ h.1, fun other hq hfield => h.2 other (sub other hq hfield) hfield⟩
    · exact hcleans _ h
    · trivial

theorem PositionScan.next_knows {todo : List String} (unshared : Unshared s tenantId runId)
    (hscan : ScanKnows env s (queuedRunIndexField tenantId runId) scan todo) :
    (scan.next todo).Knows env s tenantId runId := by
  cases todo with
  | cons id rest => exact ⟨unshared, hscan⟩
  | nil =>
    change PositionPhase.Knows env s tenantId runId (if _ then _ else if _ then _ else _)
    split
    · rename_i hnil
      intro raw hraw hfield
      simpa [hnil] using hscan.covers raw hraw hfield
    split
    · exact hscan
    · trivial

/-- The id in hand is settled: it is not the id of a queued message, or it was found valid. -/
theorem ScanKnows.skip {id : String} {rest : List String}
    (h : ScanKnows env s field scan (id :: rest))
    (unqueued : ∀ raw ∈ s.queued, env.messageIdForRaw raw ≠ id) :
    ScanKnows env s field scan rest := by
  refine ⟨fun raw hraw hfield => ?_, fun id' hid' => h.own id' (hid'.imp_left (by simp [·]))⟩
  exact (h.covers raw hraw hfield).imp_left fun hmem =>
    (mem_cons.mp hmem).resolve_left (unqueued raw hraw)

theorem ScanKnows.record {id : String} {rest : List String}
    (h : ScanKnows env s field scan (id :: rest)) (rank : Nat) :
    ScanKnows env s field (scan.record id rank) rest := by
  refine ⟨fun raw hraw hfield => ?_, fun id' hid' => ?_⟩
  · obtain hmem | hvalid := h.covers raw hraw hfield
    · obtain rfl | hmem := mem_cons.mp hmem
      · exact .inr (by simp [PositionScan.record])
      · exact .inl hmem
    · exact .inr (by simp [PositionScan.record, hvalid])
  · simp only [PositionScan.record, mem_append, mem_singleton] at hid'
    obtain hmem | hvalid | rfl := hid'
    · exact h.own id' (.inl (by simp [hmem]))
    · exact h.own id' (.inr hvalid)
    · exact h.own id' (.inl (by simp))

/-! ## One command -/

theorem PositionPhase.command_effect (rows : Rows env s)
    (queued : ∀ raw ∈ s.queued, raw.indexField = queuedRunIndexField tenantId runId →
      QueuedRow env s raw)
    {phase : PositionPhase} (knows : phase.Knows env s tenantId runId) :
    HelperEffect env True (queuedRunIndexField tenantId runId) s
      (phase.command tenantId runId s).1 ∧
      (phase.command tenantId runId s).2.Knows env s tenantId runId := by
  cases phase with
  | readIndex =>
    refine ⟨.none, ?_⟩
    change (PositionPhase.onIndex _).Knows env s tenantId runId
    unfold PositionPhase.onIndex
    split
    · trivial
    rename_i ids hids
    refine PositionScan.next_knows knows ⟨fun raw hraw hfield => .inl ?_, fun id hid => ?_⟩
    · exact hfield ▸ (queued raw hraw hfield).index
    · exact rows.index.decoded (hid.resolve_right (by simp))
  | readMetadata id rest scan =>
    obtain ⟨unshared, hscan⟩ := knows
    refine ⟨.none, ?_⟩
    change (scan.onMetadata tenantId runId id rest (hget s.queuedMeta id)).Knows env
      s tenantId runId
    -- A queued message has its row, and the row names the helper's run.
    have hqueued : ∀ raw ∈ s.queued, env.messageIdForRaw raw = id →
        ∃ m, hget s.queuedMeta id = some (.table m) ∧ m.tenantId = tenantId ∧ m.runId = runId := by
      rintro raw hraw rfl
      obtain ⟨other, hother, hfield⟩ := hscan.own _ (.inl mem_cons_self)
      obtain rfl := env.messageIdForRaw_injective hother
      obtain ⟨row, hrow⟩ := (hexists_eq_true _ _).mp (queued raw hraw hfield).metadata
      obtain ⟨m, rfl, hm⟩ := rows.queued.at hrow
      have hrun := unshared raw hraw hfield
      exact ⟨m, hrow, hm.tenantId.trans hrun.1, hm.runId.trans hrun.2⟩
    cases hrow : hget s.queuedMeta id with
    | none =>
      refine ⟨unshared, hscan, fun raw hraw hid => ?_⟩
      obtain ⟨m, hm, -⟩ := hqueued raw hraw hid
      simp [hrow] at hm
    | some row =>
      obtain ⟨raw, m, -, rfl, -⟩ := rows.queued _ _ hrow
      unfold PositionScan.onMetadata
      dsimp only
      split
      · rename_i hother
        refine PositionScan.next_knows unshared (hscan.skip fun raw hraw hid => ?_)
        obtain ⟨m', hm', ht, hr⟩ := hqueued raw hraw hid
        obtain rfl : m = m' := by simpa [hrow] using hm'
        simp [ht, hr] at hother
      · exact ⟨unshared, hscan⟩
  | dropMetadata id rest scan =>
    obtain ⟨raw, rfl, hfield⟩ := knows.2.1.own id (.inl mem_cons_self)
    exact ⟨.dropMetadata raw hfield fun _ hraw => knows.2.2 raw hraw rfl, knows⟩
  | dropOrder id rest scan =>
    obtain ⟨raw, rfl, hfield⟩ := knows.2.1.own id (.inl mem_cons_self)
    exact ⟨.dropOrder raw hfield fun _ hraw => knows.2.2 raw hraw rfl,
      PositionScan.next_knows knows.1 (knows.2.1.skip knows.2.2)⟩
  | readRank id rest scan =>
    obtain ⟨unshared, hscan⟩ := knows
    refine ⟨.none, ?_⟩
    change (scan.onRank id rest (zrank s.queuedOrder id)).Knows env s tenantId runId
    cases hrank : zrank s.queuedOrder id with
    | none =>
      refine PositionScan.next_knows unshared (hscan.skip ?_)
      rintro raw hraw rfl
      obtain ⟨other, hother, hfield⟩ := hscan.own _ (.inl mem_cons_self)
      obtain rfl := env.messageIdForRaw_injective hother
      have horder := (queued raw hraw hfield).order
      rw [← zrank_isSome, hrank] at horder
      simp at horder
    | some rank => exact PositionScan.next_knows unshared (hscan.record rank)
  | writeIndex scan =>
    refine ⟨.writeIndex _ (fun _ raw hraw hfield => ?_) fun id hid =>
      knows.own id (.inr hid), trivial⟩
    exact (knows.covers raw hraw hfield).resolve_left (by simp)
  | dropIndex => exact ⟨.dropIndex fun _ => knows, trivial⟩
  | returned => exact ⟨.none, trivial⟩

theorem CleanupPhase.next_knows (c : CleanupCall) (items : List RunPayload) :
    CleanupCall.Knows env s { c with phase := .next env c.tenantId c.runId items } := by
  induction items with
  | nil => trivial
  | cons raw items ih =>
    unfold CleanupPhase.next
    split
    · rename_i hrun
      exact hrun.2
    · exact ih

theorem CleanupCall.command_effect (rows : Rows env s) (slots : Slots env s) {c : CleanupCall}
    (knows : c.Knows env s) :
    HelperEffect env True (queuedRunIndexField c.tenantId c.runId) s (c.command env s).1 ∧
      (c.command env s).2.Knows env (c.command env s).1 := by
  obtain ⟨tenantId, runId, scanLimit, total, phase⟩ := c
  cases phase with
  | readQueue => exact ⟨.none, CleanupPhase.next_knows ⟨_, _, _, _, .readQueue⟩ _⟩
  | removeEntry raw rest =>
    exact ⟨.removeEntry raw knows.indexField, knows, fun h => (mem_lremAll.mp h).2 rfl⟩
  | dropMetadata raw rest => exact ⟨.dropMetadata raw knows.1.indexField fun _ => knows.2, knows⟩
  | readIndex raw rest =>
    refine ⟨.none, ?_⟩
    have hcovers : ∀ other ∈ s.queued, other.indexField = queuedRunIndexField tenantId runId →
        env.messageIdForRaw other ∈ (decodeIndex (hget s.queuedRunIndex
          (queuedRunIndexField tenantId runId))).filter (· ≠ env.messageIdForRaw raw) := by
      intro other hq hfield
      have hne : other ≠ raw := by
        rintro rfl
        exact knows.2 hq
      have hindex := (slots.queuedRow other hq).index
      rw [hfield] at hindex
      simpa [env.messageIdForRaw_injective.eq_iff, hne] using hindex
    change CleanupCall.Knows env s ⟨tenantId, runId, scanLimit, total, .onIndex raw rest _ _⟩
    unfold CleanupPhase.onIndex
    dsimp only
    split
    · exact knows
    split
    · rename_i hnil
      refine ⟨knows, fun other hq hfield => ?_⟩
      have := hcovers other hq hfield
      rw [hnil] at this
      simp at this
    · exact ⟨knows, hcovers, fun id hid => rows.index.decoded (mem_of_mem_filter hid)⟩
  | writeIndex raw rest remaining => exact ⟨.writeIndex _ (fun _ => knows.2.1) knows.2.2, knows.1⟩
  | dropIndex raw rest => exact ⟨.dropIndex fun _ => knows.2, knows.1⟩
  | dropOrder raw rest =>
    exact ⟨.dropOrder raw knows.1.indexField fun _ => knows.2,
      CleanupPhase.next_knows ⟨_, _, _, _, .returned⟩ _⟩
  | returned => exact ⟨.none, trivial⟩

theorem Helper.command_effect (rows : Rows env s) (slots : Slots env s) {helper : Helper}
    (knows : helper.Knows env s) :
    HelperEffect env True helper.field s (helper.command env s).1 ∧
      (helper.command env s).2.Knows env (helper.command env s).1 := by
  cases helper with
  | position tenantId runId phase =>
    obtain ⟨effect, hknows⟩ := PositionPhase.command_effect rows
      (fun raw hraw _ => slots.queuedRow raw hraw) knows
    refine ⟨effect, Helper.Knows.mono (s := s) hknows fun raw hraw _ => effect.queued.subset hraw⟩
  | cleanup call => exact CleanupCall.command_effect rows slots knows

/-- A message queued after a step was queued before it, or the step pushes under its field. -/
theorem Change.pushed {sys : System} {l : Label} {events : List Event} (rows : Rows env s)
    (change : Change env sys l s events s') {raw : RunPayload} (hraw : raw ∈ s'.queued) :
    raw ∈ s.queued ∨ sys.pushedField l = some raw.indexField := by
  cases change with
  | quiet same => exact .inl (same.queued ▸ hraw)
  | push =>
    simp only [Store.pushQueued, mem_append, mem_singleton] at hraw
    exact hraw.imp_right fun h => by simp [System.pushedField, h]
  | remove removal => exact .inl ((removal.removes rows).queued.subset hraw)
  | grant request =>
    subst request
    simp only [Store.grantLease, Store.takeQueued, removeAt_eq_eraseIdx] at hraw
    exact .inl (mem_of_mem_eraseIdx hraw)
  | dropInvalid =>
    simp only [Store.takeInvalid, removeAt_eq_eraseIdx] at hraw
    exact .inl (mem_of_mem_eraseIdx hraw)
  | requeue phase =>
    simp only [Store.requeued, Store.pushQueued, mem_append, mem_singleton] at hraw
    exact hraw.imp_right fun h => by simp [System.pushedField, phase, h]
  | claim | heartbeat | settle | deadLetter => exact .inl hraw

end

structure HelperInvariant (env : Environment) (hs : HelperSystem) : Prop where
  wellFormed : WellFormed env hs.queue
  slots : Slots env hs.queue.store
  knows : ∀ helper ∈ hs.helpers, helper.Knows env hs.queue.store

variable {env : Environment}

theorem Helper.knows_of_inactive {helper : Helper} (h : helper.active = false) (s : Store) :
    helper.Knows env s := by
  cases helper with
  | position tenantId runId phase =>
    cases phase with
    | returned => trivial
    | readIndex | readMetadata | dropMetadata | dropOrder | readRank | writeIndex | dropIndex =>
      simp [Helper.active] at h
  | cleanup call =>
    have hphase : call.phase = .returned := by simpa [Helper.active] using h
    simp [Helper.Knows, CleanupCall.Knows, hphase]

theorem HelperInvariant.step {hs : HelperSystem} {l : HelperLabel} (inv : HelperInvariant env hs)
    (undisturbed : Undisturbed hs l) :
    HelperInvariant env (hs.step env l) := by
  cases l with
  | queue l =>
    refine ⟨inv.wellFormed.step l, inv.slots.step inv.wellFormed undisturbed.1, ?_⟩
    intro helper hmem
    cases hactive : helper.active with
    | false => exact helper.knows_of_inactive hactive _
    | true =>
      refine (inv.knows helper hmem).mono fun raw hraw hfield => ?_
      obtain ⟨s₁, kept, change⟩ := hs.queue.effect_change env l
      obtain hq | hpush := change.pushed (inv.wellFormed.rows.rewritten kept) hraw
      · exact kept.queued ▸ hq
      · exact absurd (hfield ▸ hpush) (undisturbed.2 helper hmem hactive)
  | startPosition tenantId runId =>
    exact ⟨inv.wellFormed, inv.slots, forall_mem_append.mpr
      ⟨inv.knows, forall_mem_singleton.mpr undisturbed⟩⟩
  | startCleanup tenantId runId scanLimit =>
    exact ⟨inv.wellFormed, inv.slots, forall_mem_append.mpr
      ⟨inv.knows, forall_mem_singleton.mpr trivial⟩⟩
  | command i =>
    unfold HelperSystem.step
    dsimp only
    split
    · exact inv
    rename_i helper hget
    obtain ⟨effect, hknows⟩ := Helper.command_effect inv.wellFormed.rows inv.slots
      (inv.knows helper (mem_of_getElem? hget))
    refine ⟨⟨effect.rows inv.wellFormed.rows, inv.wellFormed.passes⟩, effect.slots inv.slots, ?_⟩
    intro other hmem
    obtain hmem | rfl := mem_or_eq_of_mem_set hmem
    · exact (inv.knows other hmem).mono fun raw hraw _ => effect.queued.subset hraw
    · exact hknows

theorem HelperInvariant.sparesQueued {hs : HelperSystem} (inv : HelperInvariant env hs)
    (l : HelperLabel) : SparesQueued env hs l := by
  cases l with
  | command i =>
    intro raw hraw
    unfold HelperSystem.step
    dsimp only
    split
    · exact ⟨id, id, id⟩
    rename_i helper hget
    obtain ⟨effect, -⟩ := Helper.command_effect inv.wellFormed.rows inv.slots
      (inv.knows helper (mem_of_getElem? hget))
    exact effect.keepsRow hraw
  | queue | startPosition | startCleanup => trivial

/-- In every undisturbed run the helpers' commands spare the rows of queued messages. -/
theorem helpers_spare_queued (env : Environment) (labels : List HelperLabel)
    (undisturbed : (helperMachine env).Meets Undisturbed (helperMachine env).start labels) :
    (helperMachine env).Meets (SparesQueued env) (helperMachine env).start labels :=
  Machine.meets_of_invariant (I := HelperInvariant env) (fun _ _ inv h => inv.step h)
    (fun _ l inv _ => inv.sparesQueued l)
    ⟨wellFormed_run env [], .empty env, by simp [helperMachine]⟩ undisturbed

/-- A position helper and a cleanup helper work while another run is enqueued and leased. -/
def quietHelpersRun : List HelperLabel :=
  [.queue (.enqueue (.simple "t" "r") 0), .startPosition "t" "r", .command 0,
    .queue (.enqueue (.simple "t" "other") 1), .command 0, .command 0,
      .startCleanup "t" "other" 100,
    .queue (.leaseCandidate (.simple "t" "r") 0 "w1" .unlimited (seconds 1) ""),
    .command 1, .command 1, .command 1, .command 1, .command 1]

theorem helpers_spare_queued_quietHelpersRun :
    (helperMachine .plain).Meets Undisturbed (helperMachine .plain).start quietHelpersRun ∧
      (helperMachine .plain).Meets (SparesQueued .plain) (helperMachine .plain).start
        quietHelpersRun :=
  ⟨by decide, helpers_spare_queued .plain quietHelpersRun (by decide)⟩

/-- The helper has read the index when the message is leased, and finds no metadata; a pass requeues
the message before the helper's next command. -/
def requeuedUnderHelperRun : List HelperLabel :=
  [.queue (.enqueue (.simple "t" "r") 0), .startPosition "t" "r", .command 0,
    .queue (.leaseCandidate (.simple "t" "r") 0 "w1" .unlimited (seconds 1) ""), .command 0,
    .queue (.startReclaim 0 1 3 (seconds 10)), .queue (.reclaimAt 0 (seconds 10)),
    .queue (.reclaimAt 0 (seconds 10)), .queue (.reclaimAt 0 (seconds 10))]

/-- The next command removes the queued message from the order. -/
theorem requeuedUnderHelperRun_not_spared :
    ¬ SparesQueued .plain ((helperMachine .plain).run requeuedUnderHelperRun) (.command 0) := by
  intro h
  have hraw : RunPayload.simple "t" "r" ∈
      ((helperMachine .plain).run requeuedUnderHelperRun).queue.store.queued := by decide
  exact absurd ((h _ hraw).order (by decide)) (by decide)

end AiPlatform.Queue
