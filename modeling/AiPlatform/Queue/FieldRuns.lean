import AiPlatform.Queue.HelperRaces
import AiPlatform.Queue.MessageKeys
import AiPlatform.Queue.RunView

/-!
# One index field along a run with helpers

A helper writes to the rows of its own field only, whatever else happens. So the keys of the
messages of one field stay in order along every run in which this field is left in peace: nothing
is pushed under it while a helper works on it, removals and position helpers addressed to it meet
only messages of their own run, and a cleanup starts on it when no message of it is queued, as the
answer of the remove script has told its caller.
-/
namespace AiPlatform.Queue

open AiPlatform.Foundation Hash SortedSet List

/-! ## What a helper holds -/

/-- Every id the program works on is the id of a message of the field. -/
def PositionPhase.Owns (env : Environment) (field : String) (phase : PositionPhase) : Prop :=
  ∀ id ∈ phase.ids, ∃ raw, id = env.messageIdForRaw raw ∧ raw.indexField = field

def CleanupCall.Owns (env : Environment) (c : CleanupCall) : Prop :=
  match c.phase with
  | .readQueue | .returned => True
  | .writeIndex raw _ remaining => raw.IsFor c.tenantId c.runId ∧
      ∀ id ∈ remaining, ∃ other, id = env.messageIdForRaw other ∧
        other.indexField = queuedRunIndexField c.tenantId c.runId
  | .removeEntry raw _ | .dropMetadata raw _ | .readIndex raw _ | .dropIndex raw _
  | .dropOrder raw _ => raw.IsFor c.tenantId c.runId

def Helper.Owns (env : Environment) : Helper → Prop
  | .position tenantId runId phase => phase.Owns env (queuedRunIndexField tenantId runId)
  | .cleanup call => call.Owns env

section

variable {env : Environment} {s s' : Store} {field tenantId runId : String}

theorem PositionPhase.command_write (rows : Rows env s) {phase : PositionPhase}
    (owns : phase.Owns env (queuedRunIndexField tenantId runId)) :
    HelperEffect env False (queuedRunIndexField tenantId runId) s
      (phase.command tenantId runId s).1 ∧
      (phase.command tenantId runId s).2.Owns env (queuedRunIndexField tenantId runId) := by
  cases phase with
  | readIndex =>
    exact ⟨.none, fun id hid => rows.index.decoded (PositionPhase.ids_onIndex _ hid)⟩
  | readMetadata id rest scan =>
    exact ⟨.none, fun id' hid' => owns id' (scan.ids_onMetadata id rest _ hid')⟩
  | dropMetadata id rest scan =>
    obtain ⟨raw, rfl, hfield⟩ := owns id (by simp [ids])
    exact ⟨.dropMetadata raw hfield False.elim, owns⟩
  | dropOrder id rest scan =>
    obtain ⟨raw, rfl, hfield⟩ := owns id (by simp [ids])
    refine ⟨.dropOrder raw hfield False.elim, fun id' hid' => owns id' ?_⟩
    exact mem_cons_of_mem _ (scan.ids_next rest hid')
  | readRank id rest scan =>
    exact ⟨.none, fun id' hid' => owns id' (scan.ids_onRank id rest _ hid')⟩
  | writeIndex scan => exact ⟨.writeIndex _ False.elim owns, fun id hid => by cases hid⟩
  | dropIndex => exact ⟨.dropIndex False.elim, fun id hid => by cases hid⟩
  | returned => exact ⟨.none, fun id hid => by cases hid⟩

theorem CleanupPhase.next_owns (c : CleanupCall) (items : List RunPayload) :
    CleanupCall.Owns env { c with phase := .next env c.tenantId c.runId items } := by
  induction items with
  | nil => trivial
  | cons raw items ih =>
    unfold CleanupPhase.next
    split
    · rename_i hrun
      exact hrun.2
    · exact ih

theorem CleanupCall.command_write (rows : Rows env s) {c : CleanupCall} (owns : c.Owns env) :
    HelperEffect env False (queuedRunIndexField c.tenantId c.runId) s (c.command env s).1 ∧
      (c.command env s).2.Owns env := by
  obtain ⟨tenantId, runId, scanLimit, total, phase⟩ := c
  cases phase with
  | readQueue => exact ⟨.none, CleanupPhase.next_owns ⟨_, _, _, _, .readQueue⟩ _⟩
  | removeEntry raw rest => exact ⟨.removeEntry raw owns.indexField, owns⟩
  | dropMetadata raw rest => exact ⟨.dropMetadata raw owns.indexField False.elim, owns⟩
  | readIndex raw rest =>
    refine ⟨.none, ?_⟩
    change CleanupCall.Owns env ⟨tenantId, runId, scanLimit, total, .onIndex raw rest _ _⟩
    unfold CleanupPhase.onIndex
    dsimp only
    split
    · exact owns
    split
    · exact owns
    · exact ⟨owns, fun id hid => rows.index.decoded (mem_of_mem_filter hid)⟩
  | writeIndex raw rest remaining => exact ⟨.writeIndex _ False.elim owns.2, owns.1⟩
  | dropIndex raw rest => exact ⟨.dropIndex False.elim, owns⟩
  | dropOrder raw rest =>
    exact ⟨.dropOrder raw owns.indexField False.elim,
      CleanupPhase.next_owns ⟨_, _, _, _, .returned⟩ _⟩
  | returned => exact ⟨.none, trivial⟩

theorem Helper.command_write (rows : Rows env s) {helper : Helper} (owns : helper.Owns env) :
    HelperEffect env False helper.field s (helper.command env s).1 ∧
      (helper.command env s).2.Owns env := by
  cases helper with
  | position tenantId runId phase => exact PositionPhase.command_write rows owns
  | cleanup call => exact CleanupCall.command_write rows owns

section

variable (write : HelperEffect env False field s s')
include write

theorem HelperEffect.scores :
    s'.queuedSequence = s.queuedSequence ∧
      ∀ id score, zscore s'.queuedOrder id = some score → zscore s.queuedOrder id = some score := by
  cases write with
  | dropOrder => exact ⟨rfl, fun _ _ => zscore_of_zrem⟩
  | none | removeEntry | dropMetadata | writeIndex | dropIndex => exact ⟨rfl, fun _ _ h => h⟩

/-- Messages of other fields are left alone. -/
theorem HelperEffect.sameMessage {raw : RunPayload} (hfield : raw.indexField ≠ field) :
    SameMessage env s s' raw := by
  have hne : ∀ other : RunPayload, other.indexField = field → raw ≠ other := by
    rintro other hother rfl
    exact hfield hother
  cases write with
  | none => exact ⟨rfl, rfl, rfl, Iff.rfl, rfl, Iff.rfl⟩
  | removeEntry other own =>
    refine ⟨?_, rfl, rfl, Iff.rfl, rfl, Iff.rfl⟩
    rw [lremAll, count_filter (by simpa using hne other own)]
  | dropMetadata other own =>
    have hid := env.messageIdForRaw_injective.ne (hne other own)
    exact ⟨rfl, by simp [hid], rfl, Iff.rfl, rfl, Iff.rfl⟩
  | dropOrder other own =>
    have hid := env.messageIdForRaw_injective.ne (hne other own)
    exact ⟨rfl, rfl, by simp [hid], Iff.rfl, rfl, Iff.rfl⟩
  | writeIndex => exact ⟨rfl, rfl, rfl, by simp [hfield], rfl, Iff.rfl⟩
  | dropIndex => exact ⟨rfl, rfl, rfl, by simp [hfield], rfl, Iff.rfl⟩

end

end

/-! ## Every run -/

/-- What holds along every run of the queue with its helpers. -/
structure HelperWellFormed (env : Environment) (hs : HelperSystem) : Prop where
  queue : WellFormed env hs.queue
  owns : ∀ helper ∈ hs.helpers, helper.Owns env

theorem HelperWellFormed.step {env : Environment} {hs : HelperSystem}
    (wf : HelperWellFormed env hs) (l : HelperLabel) : HelperWellFormed env (hs.step env l) := by
  cases l with
  | queue l => exact ⟨wf.queue.step l, wf.owns⟩
  | startPosition tenantId runId =>
    exact ⟨wf.queue, forall_mem_append.mpr
      ⟨wf.owns, forall_mem_singleton.mpr fun id hid => by cases hid⟩⟩
  | startCleanup tenantId runId scanLimit =>
    exact ⟨wf.queue, forall_mem_append.mpr ⟨wf.owns, forall_mem_singleton.mpr trivial⟩⟩
  | command i =>
    unfold HelperSystem.step
    dsimp only
    split
    · exact wf
    rename_i helper hget
    obtain ⟨write, owns⟩ := Helper.command_write wf.queue.rows
      (wf.owns helper (mem_of_getElem? hget))
    refine ⟨⟨write.rows wf.queue.rows, wf.queue.passes⟩, fun other hmem => ?_⟩
    obtain hmem | rfl := mem_or_eq_of_mem_set hmem
    · exact wf.owns other hmem
    · exact owns

theorem helperWellFormed_run (env : Environment) (labels : List HelperLabel) :
    HelperWellFormed env ((helperMachine env).run labels) :=
  Machine.invariant_reachable ⟨wellFormed_run env [], by simp [helperMachine]⟩
    (fun _ l wf => wf.step l) labels

/-! ## A field left in peace -/

/-- The step leaves the field in peace. -/
def PeaceAt (field : String) (hs : HelperSystem) : HelperLabel → Prop
  | .queue l => OwnRemovalAt field hs.queue.store l ∧
      ∀ helper ∈ hs.helpers, helper.active = true → helper.field = field →
        hs.queue.pushedField l ≠ some field
  | .startPosition tenantId runId => queuedRunIndexField tenantId runId = field →
      ∀ raw ∈ hs.queue.store.queued, raw.indexField = field → raw.IsFor tenantId runId
  | .startCleanup tenantId runId _ => queuedRunIndexField tenantId runId = field →
      ∀ raw ∈ hs.queue.store.queued, raw.indexField ≠ field
  | .command _ => True

/-- A position helper on the field has read nothing that has changed since; a cleanup on the field
has nothing to clean up. -/
def Helper.KnowsAt (env : Environment) (field : String) (s : Store) : Helper → Prop
  | .position tenantId runId phase => queuedRunIndexField tenantId runId = field →
      phase.Knows env s tenantId runId
  | .cleanup call => queuedRunIndexField call.tenantId call.runId = field →
      call.phase = .returned ∨
        call.phase = .readQueue ∧ ∀ raw ∈ s.queued, raw.indexField ≠ field

structure FieldInvariant (env : Environment) (field : String) (hs : HelperSystem) : Prop where
  keys : FieldKeys env field hs.queue.store
  knows : ∀ helper ∈ hs.helpers, helper.KnowsAt env field hs.queue.store

section

variable {env : Environment} {s s' : Store} {field : String}

theorem MessageKeys.queuedRow {raw : RunPayload} (keys : MessageKeys env s raw)
    (hraw : raw ∈ s.queued) : QueuedRow env s raw :=
  ⟨keys.metadata.mpr hraw, keys.index hraw, keys.order.mpr hraw⟩

theorem Helper.KnowsAt.mono {helper : Helper} (h : helper.KnowsAt env field s)
    (sub : helper.field = field → ∀ raw ∈ s'.queued, raw.indexField = field → raw ∈ s.queued) :
    helper.KnowsAt env field s' := by
  cases helper with
  | position tenantId runId phase =>
    intro hfield
    refine Helper.Knows.mono
      (show (Helper.position tenantId runId phase).Knows env s from h hfield) ?_
    intro raw hraw hindex
    exact sub hfield raw hraw (hindex.trans hfield)
  | cleanup call =>
    intro hfield
    obtain hdone | ⟨hphase, hnone⟩ := h hfield
    · exact .inl hdone
    · exact .inr ⟨hphase, fun raw hraw hindex => hnone raw (sub hfield raw hraw hindex) hindex⟩

theorem Helper.knowsAt_of_inactive {helper : Helper} (h : helper.active = false) (s : Store) :
    helper.KnowsAt env field s := by
  cases helper with
  | position tenantId runId phase => exact fun _ => Helper.knows_of_inactive h s
  | cleanup call => exact fun _ => .inl (by simpa [Helper.active] using h)

/-- A command of a position helper that knows its field keeps the keys of the field. -/
theorem HelperEffect.keys (effect : HelperEffect env True field s s')
    (hqueued : s'.queued = s.queued)
    {raw : RunPayload} (hfield : raw.indexField = field) (keys : MessageKeys env s raw) :
    MessageKeys env s' raw := by
  cases effect with
  | none => exact keys
  | removeEntry other =>
    exact (keys.rows.same
      ⟨congrArg (List.count raw) hqueued, rfl, rfl, Iff.rfl, rfl, Iff.rfl⟩).keys
  | dropMetadata other own unqueued =>
    refine { keys with metadata := ?_, index := keys.index }
    by_cases heq : raw = other
    · have hnot : raw ∉ s.queued := heq ▸ unqueued trivial
      simp [← heq, hnot]
    · simpa [env.messageIdForRaw_injective.eq_iff, heq] using keys.metadata
  | dropOrder other own unqueued =>
    refine { keys with order := ?_, index := keys.index }
    by_cases heq : raw = other
    · have hnot : raw ∉ s.queued := heq ▸ unqueued trivial
      simp [← heq, hnot]
    · simpa [env.messageIdForRaw_injective.eq_iff, heq] using keys.order
  | writeIndex messageIds complete own =>
    refine { keys with index := fun hraw => ?_ }
    have hmem := complete trivial raw hraw hfield
    simpa [hfield, decodeIndex, env.messageIdForRaw_ne_empty] using hmem
  | dropIndex unqueued =>
    refine { keys with index := fun hraw => absurd hfield (unqueued trivial raw hraw) }

theorem PositionPhase.command_queued (tenantId runId : String) (s : Store)
    (phase : PositionPhase) : (phase.command tenantId runId s).1.queued = s.queued := by
  cases phase <;> rfl

/-- A cleanup that finds no message of the field returns at once. -/
theorem CleanupPhase.next_returned {tenantId runId : String} {items : List RunPayload}
    (h : ∀ raw ∈ items, ¬ raw.IsFor tenantId runId) :
    CleanupPhase.next env tenantId runId items = .returned := by
  induction items with
  | nil => rfl
  | cons raw items ih =>
    have hraw := h raw (by simp)
    rw [CleanupPhase.next, if_neg fun hrun => hraw hrun.2]
    exact ih fun other hother => h other (by simp [hother])

theorem CleanupCall.command_idle {call : CleanupCall}
    (knows : Helper.KnowsAt env field s (.cleanup call))
    (hfield : queuedRunIndexField call.tenantId call.runId = field) :
    (call.command env s).1 = s ∧ (call.command env s).2.phase = .returned := by
  obtain ⟨tenantId, runId, scanLimit, total, phase⟩ := call
  obtain hdone | ⟨hphase, hnone⟩ := knows hfield
  · dsimp only at hdone
    subst hdone
    exact ⟨rfl, rfl⟩
  · dsimp only at hphase hfield
    subst hphase
    refine ⟨rfl, CleanupPhase.next_returned fun raw hraw hrun => ?_⟩
    have hqueued : raw ∈ s.queued := by
      dsimp only at hraw
      split at hraw
      · simp at hraw
      · exact mem_of_mem_drop hraw
    exact hnone raw hqueued (hrun.indexField.trans hfield)

/-- A command of a helper keeps the keys of the field, its own field or not. -/
theorem Helper.command_keys (rows : Rows env s) {helper : Helper} (owns : helper.Owns env)
    (knows : helper.KnowsAt env field s) (keys : FieldKeys env field s) :
    FieldKeys env field (helper.command env s).1 ∧
      (helper.command env s).2.KnowsAt env field (helper.command env s).1 := by
  obtain ⟨write, -⟩ := helper.command_write rows owns
  by_cases hfield : helper.field = field
  · cases helper with
    | position tenantId runId phase =>
      change queuedRunIndexField tenantId runId = field at hfield
      obtain ⟨effect, hknows⟩ := PositionPhase.command_effect rows
        (fun raw hraw hindex => (keys raw (hindex.trans hfield)).queuedRow hraw) (knows hfield)
      have hqueued := phase.command_queued tenantId runId s
      refine ⟨fun raw hraw => effect.keys hqueued (hraw.trans hfield.symm) (keys raw hraw), ?_⟩
      intro _
      refine (show (Helper.position tenantId runId _).Knows env s from hknows).mono
        fun raw hraw _ => ?_
      exact hqueued ▸ hraw
    | cleanup call =>
      obtain ⟨hsame, hdone⟩ := CleanupCall.command_idle knows hfield
      refine ⟨?_, fun _ => .inl hdone⟩
      change FieldKeys env field (call.command env s).1
      rwa [hsame]
  · refine ⟨fun raw hraw => ((keys raw hraw).rows.same (write.sameMessage ?_)).keys, ?_⟩
    · rw [hraw]
      exact Ne.symm hfield
    · cases helper with
      | position => exact fun h => absurd h hfield
      | cleanup call =>
        intro h
        refine absurd ?_ hfield
        rw [← h]
        simp only [Helper.field, CleanupCall.command]
        split <;> rfl

end

theorem FieldInvariant.step {env : Environment} {field : String} {hs : HelperSystem}
    (inv : FieldInvariant env field hs) (wf : HelperWellFormed env hs) {l : HelperLabel}
    (peace : PeaceAt field hs l) : FieldInvariant env field (hs.step env l) := by
  cases l with
  | queue l =>
    obtain ⟨own, unpushed⟩ := peace
    refine ⟨fun raw hraw => ((inv.keys raw hraw).rows.step wf.queue (hraw ▸ own)).keys, ?_⟩
    intro helper hmem
    cases hactive : helper.active with
    | false => exact helper.knowsAt_of_inactive hactive _
    | true =>
      refine (inv.knows helper hmem).mono fun hfield raw hraw hindex => ?_
      obtain ⟨s₁, kept, change⟩ := hs.queue.effect_change env l
      obtain hq | hpush := change.pushed (wf.queue.rows.rewritten kept) hraw
      · exact kept.queued ▸ hq
      · exact absurd (hindex ▸ hpush) (unpushed helper hmem hactive hfield)
  | startPosition tenantId runId =>
    refine ⟨inv.keys, forall_mem_append.mpr ⟨inv.knows, forall_mem_singleton.mpr ?_⟩⟩
    intro hfield raw hraw hindex
    exact peace hfield raw hraw (hindex.trans hfield)
  | startCleanup tenantId runId scanLimit =>
    exact ⟨inv.keys, forall_mem_append.mpr
      ⟨inv.knows, forall_mem_singleton.mpr fun hfield => .inr ⟨rfl, peace hfield⟩⟩⟩
  | command i =>
    unfold HelperSystem.step
    dsimp only
    split
    · exact inv
    rename_i helper hget
    have hmem := mem_of_getElem? hget
    obtain ⟨keys, knows⟩ := Helper.command_keys wf.queue.rows (wf.owns helper hmem)
      (inv.knows helper hmem) inv.keys
    obtain ⟨write, -⟩ := Helper.command_write wf.queue.rows (wf.owns helper hmem)
    refine ⟨keys, fun other hother => ?_⟩
    obtain hother | rfl := mem_or_eq_of_mem_set hother
    · exact (inv.knows other hother).mono fun _ raw hraw _ => write.queued.subset hraw
    · exact knows

/-- Along a run that leaves the field in peace the keys of its messages agree. -/
theorem fieldInvariant_run (env : Environment) {field : String} {labels : List HelperLabel}
    (peace : (helperMachine env).Meets (PeaceAt field) (helperMachine env).start labels) :
    FieldInvariant env field ((helperMachine env).run labels) := by
  suffices h : HelperWellFormed env ((helperMachine env).run labels) ∧
      FieldInvariant env field ((helperMachine env).run labels) from h.2
  refine Machine.invariant_run (I := fun hs => HelperWellFormed env hs ∧
    FieldInvariant env field hs) ?_ ?_ peace
  · exact ⟨helperWellFormed_run env [], fun raw _ => (MessageRows.empty env raw).keys,
      by simp [helperMachine]⟩
  · rintro hs l ⟨wf, inv⟩ hl
    exact ⟨wf.step l, inv.step wf hl⟩

end AiPlatform.Queue
