import AiPlatform.Queue.Effects

/-!
# Every metadata row describes the message it is filed under

This holds in every run, whatever the ids and whatever the clients do. A lease row found under a
message id is the row of that payload, so a client that has read it and comes back later still
speaks about the same payload.
-/
namespace AiPlatform.Queue

open AiPlatform.Foundation Hash SortedSet

structure LeaseMeta.Describes (env : Environment) (m : LeaseMeta) (p : RunPayload) : Prop where
  messageId : m.messageId = env.messageIdForRaw p
  raw : m.raw = some p
  tenantId : m.tenantId = p.tenantId
  runId : m.runId = p.runId
  accepted : env.acceptsRaw p = true

structure QueuedMeta.Describes (m : QueuedMeta) (p : RunPayload) : Prop where
  raw : m.raw = some p
  tenantId : m.tenantId = p.tenantId
  runId : m.runId = p.runId
  valid : p.validIds = true
  sequenced : ∃ n, m.sequence = some (n + 1)

def LeaseRows (env : Environment) (h : Hash String (Encoded LeaseMeta)) : Prop :=
  ∀ id row, hget h id = some row →
    ∃ raw m, id = env.messageIdForRaw raw ∧ row = .table m ∧ m.Describes env raw

def QueuedRows (env : Environment) (h : Hash String (Encoded QueuedMeta)) : Prop :=
  ∀ id row, hget h id = some row →
    ∃ raw m, id = env.messageIdForRaw raw ∧ row = .table m ∧ m.Describes raw

def IndexRows (env : Environment) (h : RunIndex) : Prop :=
  ∀ field row, hget h field = some row →
    ∃ ids, row = .table ids ∧
      ∀ id ∈ ids, ∃ raw, id = env.messageIdForRaw raw ∧ raw.indexField = field

structure Rows (env : Environment) (s : Store) : Prop where
  processing : LeaseRows env s.processingMeta
  retry : LeaseRows env s.retryMeta
  queued : QueuedRows env s.queuedMeta
  index : IndexRows env s.queuedRunIndex
  listed : ∀ raw, raw ∈ s.queued ∨ raw ∈ s.processing → raw.validIds = true

section

variable {env : Environment}

variable {raw : RunPayload} {m : LeaseMeta} {h : RunIndex} {p : ReclaimPass}
  {K : RunPayload → LeaseMeta → Prop}

theorem SameLease.describes {m' : LeaseMeta} (same : SameLease m m') (h : m.Describes env raw) :
    m'.Describes env raw :=
  ⟨same.messageId.trans h.messageId, same.raw.trans h.raw, same.tenantId.trans h.tenantId,
    same.runId.trans h.runId, h.accepted⟩

theorem LeaseMeta.Describes.fenceKey (h : m.Describes env raw) :
    m.fenceKey env = raw.fenceKey env := by
  simp [LeaseMeta.fenceKey, RunPayload.fenceKey, h.tenantId, h.runId]

/-- The row filed under the id of `raw` describes `raw`. -/
theorem LeaseRows.at {h : Hash String (Encoded LeaseMeta)} (rows : LeaseRows env h)
    {row : Encoded LeaseMeta} (hrow : hget h (env.messageIdForRaw raw) = some row) :
    ∃ m, row = .table m ∧ m.Describes env raw := by
  obtain ⟨raw', m, hid, rfl, hm⟩ := rows _ _ hrow
  obtain rfl := env.messageIdForRaw_injective hid
  exact ⟨m, rfl, hm⟩

theorem LeaseRows.hset {h : Hash String (Encoded LeaseMeta)} (rows : LeaseRows env h)
    (hm : m.Describes env raw) :
    LeaseRows env (hset h (env.messageIdForRaw raw) (.table m)) :=
  forall_hset rows ⟨raw, m, rfl, rfl, hm⟩

theorem LeaseRows.hdel {h : Hash String (Encoded LeaseMeta)}
    (rows : LeaseRows env h) (id : String) :
    LeaseRows env (hdel h id) :=
  fun id' row hrow => rows id' row (hget_hdel_some hrow)

theorem LeaseRows.kept {h h' : Hash String (Encoded LeaseMeta)} (rows : LeaseRows env h)
    (kept : ∀ id, RowKept (hget h id) (hget h' id)) : LeaseRows env h' := by
  intro id row hrow
  have hk := kept id
  cases row with
  | text v =>
    rw [hrow] at hk
    obtain ⟨_, _, _, hv, _⟩ := rows id _ hk.text
    simp at hv
  | table m' =>
    rw [hrow] at hk
    obtain ⟨m, hm, same⟩ := hk.source
    obtain ⟨raw, m₀, hid, hm₀, hd⟩ := rows id _ hm
    obtain rfl : m = m₀ := by simpa using hm₀
    exact ⟨raw, m', hid, rfl, same.describes hd⟩

theorem QueuedRows.at {h : Hash String (Encoded QueuedMeta)} (rows : QueuedRows env h)
    {row : Encoded QueuedMeta} (hrow : hget h (env.messageIdForRaw raw) = some row) :
    ∃ m, row = .table m ∧ m.Describes raw := by
  obtain ⟨raw', m, hid, rfl, hm⟩ := rows _ _ hrow
  obtain rfl := env.messageIdForRaw_injective hid
  exact ⟨m, rfl, hm⟩

theorem QueuedRows.mono {h h' : Hash String (Encoded QueuedMeta)} (rows : QueuedRows env h)
    (sub : ∀ id row, hget h' id = some row → hget h id = some row) : QueuedRows env h' :=
  fun id row hrow => rows id row (sub id row hrow)

theorem QueuedRows.hset {h : Hash String (Encoded QueuedMeta)} (rows : QueuedRows env h)
    {m : QueuedMeta} (hm : m.Describes raw) :
    QueuedRows env (hset h (env.messageIdForRaw raw) (.table m)) :=
  forall_hset rows ⟨raw, m, rfl, rfl, hm⟩

section

variable (rows : IndexRows env h)
include rows

/-- Every listed id belongs to a payload of the field, so a list made of listed ids does too. -/
theorem IndexRows.decoded {field id : String} (hid : id ∈ decodeIndex (hget h field)) :
    ∃ raw, id = env.messageIdForRaw raw ∧ raw.indexField = field := by
  cases hrow : hget h field with
  | none => simp [hrow, decodeIndex] at hid
  | some row =>
    obtain ⟨ids, rfl, hids⟩ := rows field row hrow
    simp only [hrow, decodeIndex, List.mem_filter] at hid
    exact hids id hid.1

theorem IndexRows.hset {field : String} {ids : List String}
    (hids : ∀ id ∈ ids, ∃ raw, id = env.messageIdForRaw raw ∧ raw.indexField = field) :
    IndexRows env (hset h field (.table ids)) :=
  forall_hset rows ⟨ids, rfl, hids⟩

theorem IndexRows.hdel (field : String) :
    IndexRows env (hdel h field) :=
  fun field' row hrow => rows field' row (hget_hdel_some hrow)

theorem IndexRows.removeRunIndexMessage (field messageId : String) :
    IndexRows env (removeRunIndexMessage h field messageId) := by
  unfold Queue.removeRunIndexMessage
  split
  · exact rows
  · rename_i ids hrow
    dsimp only
    split
    · exact rows.hdel field
    · obtain ⟨ids', hids', hall⟩ := rows field _ hrow
      obtain rfl : ids = ids' := by simpa using hids'
      exact rows.hset fun id hid => hall id (List.mem_of_mem_filter hid)
  · split
    · exact rows.hdel field
    · exact rows

theorem IndexRows.removeMessageIdFromRunIndex (field messageId : String) :
    IndexRows env (removeMessageIdFromRunIndex h field messageId) := by
  unfold Queue.removeMessageIdFromRunIndex
  dsimp only
  split
  · exact rows
  split
  · exact rows.hdel field
  · exact rows.hset fun id hid => rows.decoded (List.mem_of_mem_filter hid)

end

/-! ## What a reclaim pass knows -/

/-- The call was made from a row `m` of its payload that satisfied `K` when it was read. -/
structure ExpectedLease.ReadFrom (K : RunPayload → LeaseMeta → Prop) (lease : ExpectedLease)
    (m : LeaseMeta) : Prop where
  known : K lease.raw m
  attemptId : m.attemptId = lease.attemptId
  ownerToken : m.leaseOwnerToken = lease.ownerToken

/-- The pending script call of a pass comes from a row that satisfied `K`; the attempts it read
decide which script it calls. -/
def ReclaimPass.Knows (env : Environment) (K : RunPayload → LeaseMeta → Prop) (p : ReclaimPass) :
    Prop :=
  match p.phase with
  | .requeue call _ => env.acceptsRaw call.lease.raw = true ∧ ∃ m a, call.lease.ReadFrom K m ∧
      m.attempts = some a ∧ 1 ≤ a ∧ a < p.maxAttempts ∧ SameLease m call.retryMetadata
  | .deadLetter call _ => ∃ m, call.lease.ReadFrom K m ∧ m.attempts = some call.attempts ∧
      1 ≤ call.attempts ∧ p.maxAttempts ≤ call.attempts
  | _ => True

theorem ReclaimPass.Knows.requeue (h : p.Knows env K) {call : RequeueCall} {rest : List RunPayload}
    (phase : p.phase = .requeue call rest) : ∃ m a, call.lease.ReadFrom K m ∧
      m.attempts = some a ∧ 1 ≤ a ∧ a < p.maxAttempts ∧ SameLease m call.retryMetadata := by
  simp only [Knows, phase] at h
  exact h.2

theorem ReclaimPass.Knows.deadLetter (h : p.Knows env K) {call : DeadLetterCall}
    {rest : List RunPayload} (phase : p.phase = .deadLetter call rest) :
    ∃ m, call.lease.ReadFrom K m ∧
      m.attempts = some call.attempts ∧ 1 ≤ call.attempts ∧ p.maxAttempts ≤ call.attempts := by
  simpa only [Knows, phase] using h

theorem ReclaimPass.Knows.mono {K' : RunPayload → LeaseMeta → Prop} (h : p.Knows env K)
    (hK : ∀ raw m, K raw m → K' raw m) : p.Knows env K' := by
  unfold Knows at h ⊢
  split
  · rename_i call rest phase
    rw [phase] at h
    obtain ⟨accepted, m, a, read, hm⟩ := h
    exact ⟨accepted, m, a, ⟨hK _ _ read.known, read.attemptId, read.ownerToken⟩, hm⟩
  · rename_i call rest phase
    rw [phase] at h
    obtain ⟨m, read, hm⟩ := h
    exact ⟨m, ⟨hK _ _ read.known, read.attemptId, read.ownerToken⟩, hm⟩
  · trivial

theorem ReclaimPass.knows_next (K : RunPayload → LeaseMeta → Prop) (p : ReclaimPass)
    (rest : List RunPayload) : ReclaimPass.Knows env K { p with phase := .next rest } := by
  cases rest <;> trivial

theorem ReclaimPass.decide_knows (p : ReclaimPass) (rest : List RunPayload) (flag : Bool)
    (known : K raw m) :
    ReclaimPass.Knows env K { p with phase := p.decide env raw rest m flag } := by
  unfold ReclaimPass.decide
  dsimp only
  split
  · exact p.knows_next K rest
  rename_i named
  simp only [not_or, not_lt] at named
  have hattempts : m.attempts = some (m.attempts.getD 0) := by
    cases ha : m.attempts with
    | none => simp [ha] at named
    | some a => rfl
  split
  · exact ⟨m, ⟨known, rfl, rfl⟩, hattempts, named.2.2, ‹_›⟩
  rename_i below
  split
  · exact ⟨‹_›, m, _, ⟨known, rfl, rfl⟩, hattempts, named.2.2, not_le.mp below,
      ⟨rfl, rfl, hattempts.symm, rfl, rfl, rfl, rfl, rfl⟩⟩
  · trivial

/-- A pass only learns from rows the store holds. -/
theorem ReclaimPass.command_knows {s : Store} (t : Tick)
    (processing : ∀ raw m, hget s.processingMeta (env.messageIdForRaw raw) = some (.table m) →
      K raw m)
    (retry : ∀ raw m, hget s.retryMeta (env.messageIdForRaw raw) = some (.table m) → K raw m)
    (knows : p.Knows env K) : (p.command env s t).2.Knows env K := by
  unfold ReclaimPass.command
  split
  · exact p.knows_next K _
  · rename_i raw rest _
    dsimp only
    cases hrow : hget s.processingMeta (env.messageIdForRaw raw) with
    | none => trivial
    | some row =>
      cases row with
      | text => exact p.knows_next K _
      | table m =>
        unfold ReclaimPass.onProcessingRow
        dsimp only
        split
        · exact p.knows_next K _
        · exact p.decide_knows _ _ (processing raw m hrow)
  · rename_i raw rest _
    dsimp only
    cases hrow : hget s.retryMeta (env.messageIdForRaw raw) with
    | none => exact p.knows_next K _
    | some row =>
      cases row with
      | text => exact p.knows_next K _
      | table m => exact p.decide_knows _ _ (retry raw m hrow)
  · exact p.knows_next K _
  · split
    · trivial
    · exact p.knows_next K _
  · exact p.knows_next K _
  · exact knows

/-- The passes after a step know no more than what the rows before it say. -/
theorem System.passesAfter_knows {sys : System} (l : Label)
    (processing : ∀ raw m, hget sys.store.processingMeta (env.messageIdForRaw raw) =
      some (.table m) → K raw m)
    (retry : ∀ raw m, hget sys.store.retryMeta (env.messageIdForRaw raw) = some (.table m) →
      K raw m) (knows : ∀ i, (sys.passes i).Knows env K) (i : Nat) :
    (sys.passesAfter env l i).Knows env K := by
  unfold System.passesAfter
  split
  · rename_i pass _ _ _
    by_cases hi : i = pass
    · subst hi
      simp [ReclaimPass.Knows]
    · simpa [hi] using knows i
  · rename_i pass tick
    by_cases hi : i = pass
    · subst hi
      simpa using ReclaimPass.command_knows tick processing retry (knows i)
    · simpa [hi] using knows i
  · exact knows i

end

end AiPlatform.Queue
