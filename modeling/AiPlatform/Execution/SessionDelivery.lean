import AiPlatform.Execution.SessionStore

/-!
# Delivery of batches to the host

One adapter, the host's ledger and a transport between them. A request that was sent may reach the
host at any later time, any number of times or never; a reply may be lost; a call may fail or be
cancelled while it waits. The adapter's lock lets one call run at a time. Meanwhile the store takes
part in anything that does not append to the adapter's epoch.
-/
namespace AiPlatform.Execution

open AiPlatform.Foundation AiPlatform.Kernel AiPlatform.Context List

/-! ## The host's answers to reads -/

section Reads

variable (rt : Runtime) (images : ImageValues) (epoch : Epoch)

def entriesUnder (rows : List EntryRow) (path : String) : List Json :=
  (rows.filter fun row => row.subpath = path).map fun row => row.entryJson.getD .null

/-- `callback_provider_epoch` with the action `load`. -/
def callbackLoad (path : Option String) : Except Refusal LoadReply := do
  let path ← requestPath rt path
  let rows ← verifyProviderLedger rt images epoch
  .ok ⟨entriesUnder rows path, epoch.nextSequence⟩

/-- `callback_provider_epoch` with the action `list_subkeys`. -/
def callbackListSubkeys (path : Option String) : Except Refusal ListReply := do
  let _ ← requestPath rt path
  let rows ← verifyProviderLedger rt images epoch
  let paths := ((rows.map EntryRow.subpath).filter fun path => path ≠ "").dedup
  .ok ⟨paths.insertionSort (· ≤ ·), some (paths.map fun path => (path, entriesUnder rows path)),
    epoch.nextSequence⟩

end Reads

/-! ## The system -/

/-- The arguments of an append, as the SDK gave them. -/
structure SdkBatch where
  subpath : Option String
  entries : List Json
  deriving DecidableEq

/-- The rows a batch is to become. -/
def SdkBatch.rows (batch : SdkBatch) : List (String × Json) :=
  batch.entries.map fun entry => (batch.subpath.getD "", Json.canonical entry)

def Payload.rows (p : Payload) : List (String × Json) :=
  p.entries.map fun entry => (p.subpath.getD "", entry)

theorem Payload.length_rows (p : Payload) : p.rows.length = p.entries.length :=
  length_map _

inductive Operation where
  | append (batch : SdkBatch)
  | load (cacheKey : CacheKey)
  | listSubkeys (sessionId : String)
  deriving DecidableEq

def Operation.batches : Operation → List SdkBatch
  | .append batch => [batch]
  | _ => []

/-- The call that holds the lock, and the request it awaits. -/
structure Flight where
  operation : Operation
  request : Nat
  deriving DecidableEq

inductive Body where
  | append (reply : AppendReply)
  | load (reply : LoadReply)
  | listSubkeys (reply : ListReply)
  deriving DecidableEq

/-- `completed` are the appends that returned, `reads` the last sequence each read was answered. -/
structure SessionExchange where
  adapter : Adapter
  active : Option Flight
  sent : List Payload
  replies : List (Nat × Body)
  store : ProviderStore
  completed : List SdkBatch
  reads : List Nat

inductive ExchangeLabel (rt : Runtime) where
  | append (key : SessionKey) (entries : List Json)
      (proper : ∀ entry ∈ entries, entry.Proper rt.floats)
  | load (key : SessionKey)
  | listSubkeys (key : Option SessionKey)
  /-- The host takes an append that was sent. -/
  | deliver (request : Nat) (call : AppendCall rt)
  /-- The host takes a read that was sent. -/
  | read (request : Nat)
  | receive (reply : Nat)
  /-- The call that waits times out, is refused or is cancelled. -/
  | fail
  | elsewhere (label : ProviderLabel rt)

namespace SessionExchange

def settle (s : SessionExchange) (operation : Operation) :
    Except StoreError (Adapter × Progress) → SessionExchange
  | .error _ => { s with active := none }
  | .ok (a, .returned) =>
    { s with adapter := a, active := none, completed := s.completed ++ operation.batches }
  | .ok (a, .requests p) =>
    { s with adapter := a, sent := s.sent ++ [p], active := some ⟨operation, s.sent.length⟩ }

def settleRead (s : SessionExchange) (nextSequence : Nat) :
    Except StoreError Adapter → SessionExchange
  | .error _ => { s with active := none }
  | .ok a => { s with adapter := a, active := none, reads := s.reads ++ [nextSequence - 1] }

section Steps

variable (rt : Runtime) (cfg : StoreConfig) (epoch : Nat)

/-- A reply of another action is invalid. -/
def accept (s : SessionExchange) (flight : Flight) (body : Body) : SessionExchange :=
  match flight.operation, body with
  | .append batch, .append reply =>
    match s.adapter.pendingBatch, s.sent[flight.request]? with
    | some pending, some p => s.settle (.append batch) (s.adapter.appended pending p reply)
    | _, _ => s
  | .load cacheKey, .load reply => s.settleRead reply.nextSequence (s.adapter.loaded cacheKey reply)
  | .listSubkeys id, .listSubkeys reply =>
    s.settleRead reply.nextSequence (s.adapter.listed rt id reply)
  | _, _ => { s with active := none }

def receive (s : SessionExchange) (reply : Nat) : SessionExchange :=
  match s.replies[reply]?, s.active with
  | some (request, body), some flight =>
    if flight.request = request then s.accept rt flight body else s
  | _, _ => s

/-- The request the host validates is the payload that was sent. -/
def Carries (p : Payload) (request : AppendRequest rt) : Prop :=
  p.action = .append ∧ request.subpath = p.subpath ∧ request.entries = p.entries ∧
    p.expectedSequence = some request.expectedSequence

instance (p : Payload) (request : AppendRequest rt) : Decidable (Carries rt p request) :=
  inferInstanceAs (Decidable (_ ∧ _ ∧ _ ∧ _))

def deliver (s : SessionExchange) (request : Nat) (call : AppendCall rt) : SessionExchange :=
  match s.sent[request]? with
  | none => s
  | some p =>
    if Carries rt p call.request then
      let answer := s.store.callback rt epoch call
      match answer.1 with
      | some (.ok reply) =>
        { s with store := answer.2, replies := s.replies ++ [(request, .append reply)] }
      | _ => { s with store := answer.2 }
    else s

def answerRead (p : Payload) (images : ImageValues) (epoch : Epoch) : Option Body :=
  match p.action with
  | .append => none
  | .load => (callbackLoad rt images epoch p.subpath).toOption.map Body.load
  | .listSubkeys => (callbackListSubkeys rt images epoch p.subpath).toOption.map Body.listSubkeys

def read (s : SessionExchange) (request : Nat) : SessionExchange :=
  match s.sent[request]?, s.store.epochs[epoch]? with
  | some p, some record =>
    match answerRead rt p s.store.images record.epoch with
    | some body => { s with replies := s.replies ++ [(request, body)] }
    | none => s
  | _, _ => s

def elsewhere (s : SessionExchange) : ProviderLabel rt → SessionExchange
  | .append other call =>
    if other = epoch then s else { s with store := s.store.step rt (.append other call) }
  | label => { s with store := s.store.step rt label }

/-- A call that finds the lock taken waits. -/
def step (s : SessionExchange) : ExchangeLabel rt → SessionExchange
  | .append key entries _ =>
    if s.active ≠ none then s
    else s.settle (.append ⟨(subpath rt.unicode key).toOption.getD none, entries⟩)
      (s.adapter.append rt cfg key entries)
  | .load key =>
    if s.active ≠ none then s
    else
      match s.adapter.load rt cfg key with
      | .error _ => s
      | .ok (cacheKey, progress) => s.settle (.load cacheKey) (.ok (s.adapter, progress))
  | .listSubkeys key =>
    if s.active ≠ none then s
    else
      match s.adapter.listSubkeys rt cfg key with
      | .error _ => s
      | .ok (id, progress) => s.settle (.listSubkeys id) (.ok (s.adapter, progress))
  | .deliver request call => s.deliver rt epoch request call
  | .read request => s.read rt epoch request
  | .receive reply => s.receive rt reply
  | .fail => { s with active := none }
  | .elsewhere label => s.elsewhere rt epoch label

end Steps

/-- The payloads of the pending batch. -/
def payloads (s : SessionExchange) : List Payload :=
  (s.adapter.pendingBatch.map PendingAppend.payloads).getD []

def nextChunk (s : SessionExchange) : Nat :=
  (s.adapter.pendingBatch.map PendingAppend.nextChunk).getD 0

/-- The rows of the appends that returned. -/
def done (s : SessionExchange) : List (String × Json) :=
  s.completed.flatMap SdkBatch.rows

end SessionExchange

/-- An adapter over an epoch of the store. -/
def sessionDelivery (rt : Runtime) (cfg : StoreConfig) (store : ProviderStore) (epoch : Nat) :
    Machine SessionExchange (ExchangeLabel rt) where
  start := ⟨.new, none, [], [], store, [], []⟩
  step := SessionExchange.step rt cfg epoch

/-! ## What a batch becomes -/

section Rows

theorem length_flatMap_rows (payloads : List Payload) :
    (payloads.flatMap Payload.rows).length = (payloads.flatMap Payload.entries).length := by
  induction payloads with
  | nil => rfl
  | cons p payloads ih =>
    rw [flatMap_cons, flatMap_cons, length_append, length_append, ih]
    simp [Payload.rows]

theorem ChunksOf.rows {start : Nat} {path : Option String} {entries : List Json}
    {payloads : List Payload} (h : ChunksOf start path entries payloads) :
    payloads.flatMap Payload.rows = entries.map fun entry => (path.getD "", entry) := by
  rw [← h.entries, map_flatMap]
  refine flatMap_congr fun p hp => ?_
  rw [Payload.rows, (h.form p hp).2.1]

end Rows

/-! ## The invariant -/

/-- The pending batch is one the SDK gave, cut from the sequence after the completed ones. -/
structure PendingAppend.Of (rt : Runtime) (start : Nat) (batch : SdkBatch) (p : PendingAppend) :
    Prop where
  lt : p.nextChunk < p.payloads.length
  signature : ∃ id, p.signature = encodeBatch id batch.subpath batch.entries
  trimmed : Trimmed rt.unicode batch.subpath
  proper : ∀ entry ∈ batch.entries, entry.Proper rt.floats
  chunks : ChunksOf start batch.subpath (batch.entries.map Json.canonical) p.payloads

def Body.readSequence : Body → Option Nat
  | .append _ => none
  | .load reply => some reply.nextSequence
  | .listSubkeys reply => some reply.nextSequence

namespace SessionExchange

/-- The chunk that is sent next, or again. -/
def current (s : SessionExchange) : Option Payload :=
  s.payloads[s.nextChunk]?

/-- A call that waits for an append waits for the current chunk of its own batch; a call that waits
for a read left nothing pending. -/
def Waits (s : SessionExchange) (flight : Flight) : Prop :=
  match flight.operation with
  | .append batch => ∃ p, s.current = some p ∧ s.sent[flight.request]? = some p ∧
    s.payloads.flatMap Payload.rows = batch.rows
  | _ => s.adapter.pendingBatch = none

/-- The host holds the completed batches and the first `stored` chunks of the pending one, of which
the adapter knows all but at most one. -/
structure Sound (rt : Runtime) (epoch : Nat) (base : List (String × Json)) (s : SessionExchange)
    (record : EpochRecord) (stored : Nat) : Prop where
  accounted : s.store.Accounted rt
  record_eq : s.store.epochs[epoch]? = some record
  content : acknowledged record.accepted =
    base ++ s.done ++ (s.payloads.take stored).flatMap Payload.rows
  stored_ge : s.nextChunk ≤ stored
  stored_le : stored ≤ s.nextChunk + 1
  stored_le_length : stored ≤ s.payloads.length
  unknown : s.adapter.nextSequence = none → s.adapter.completedSequence = none ∧
    s.adapter.pendingBatch = none ∧ s.done = []
  known : ∀ n ∈ s.adapter.nextSequence,
    n = (base ++ s.done).length + 1 + ((s.payloads.take s.nextChunk).flatMap Payload.rows).length ∧
    s.adapter.completedSequence = some (base ++ s.done).length ∧ base.length ∈ s.reads
  pending : ∀ p ∈ s.adapter.pendingBatch, ∃ batch, p.Of rt ((base ++ s.done).length + 1) batch
  /-- What was sent is stored, or it is the current chunk. -/
  sent : ∀ p ∈ s.sent, p.action = .append → ∃ e, p.expectedSequence = some e ∧
    (e < record.epoch.nextSequence ∨ s.current = some p)
  active : ∀ flight ∈ s.active, flight.request < s.sent.length ∧ s.Waits flight
  replies_lt : ∀ request body, (request, body) ∈ s.replies → request < s.sent.length
  stored_of_reply : ∀ request reply, (request, Body.append reply) ∈ s.replies →
    ∀ p ∈ s.sent[request]?, ∀ e ∈ p.expectedSequence, e < record.epoch.nextSequence
  /-- Nothing is stored while a read is under way. -/
  read_of_reply : ∀ request body, (request, body) ∈ s.replies → s.adapter.pendingBatch = none →
    (∃ flight ∈ s.active, flight.request = request) →
      ∀ n ∈ body.readSequence, n = record.epoch.nextSequence

section Invariant

variable {rt : Runtime} {cfg : StoreConfig} {epoch stored : Nat} {base : List (String × Json)}
variable {s : SessionExchange} {record : EpochRecord}

theorem payloads_of_pending {p : PendingAppend} (h : s.adapter.pendingBatch = some p) :
    s.payloads = p.payloads ∧ s.nextChunk = p.nextChunk := by
  simp [payloads, nextChunk, h]

theorem payloads_of_none (h : s.adapter.pendingBatch = none) :
    s.payloads = [] ∧ s.nextChunk = 0 := by
  simp [payloads, nextChunk, h]

theorem Sound.nextSequence_eq (h : s.Sound rt epoch base record stored) :
    record.epoch.nextSequence = (base ++ s.done).length + 1 +
      ((s.payloads.take stored).flatMap Payload.rows).length := by
  obtain ⟨batches, hbatches⟩ := h.accounted record (mem_of_getElem? h.record_eq)
  rw [hbatches.nextSequence_eq, h.content, length_append]
  omega

variable {p : Payload} {q : PendingAppend} {batch : SdkBatch} {progress : Progress}

theorem rows_take_current (hp : s.current = some p) :
    (s.payloads.take (s.nextChunk + 1)).flatMap Payload.rows =
      (s.payloads.take s.nextChunk).flatMap Payload.rows ++ p.rows := by
  rw [take_add_one, ← current, hp, flatMap_append]
  exact congrArg _ (flatMap_singleton ..)

theorem length_rows_take_current (hp : s.current = some p) :
    ((s.payloads.take (s.nextChunk + 1)).flatMap Payload.rows).length =
      ((s.payloads.take s.nextChunk).flatMap Payload.rows).length + p.entries.length := by
  rw [rows_take_current hp, length_append, p.length_rows]

section

variable (h : s.Sound rt epoch base record stored)
include h

/-- The current chunk is sent at the sequence after what the adapter knows to be stored. -/
theorem Sound.current_eq (hp : s.current = some p) :
    ∃ q batch, s.adapter.pendingBatch = some q ∧
      q.Of rt ((base ++ s.done).length + 1) batch ∧ q.payloads[q.nextChunk]? = some p ∧
      p.action = .append ∧ p.subpath = batch.subpath ∧ p.entries ≠ [] ∧
      p.expectedSequence = some ((base ++ s.done).length + 1 +
        ((s.payloads.take s.nextChunk).flatMap Payload.rows).length) := by
  cases hq : s.adapter.pendingBatch with
  | none => simp [current, payloads_of_none hq] at hp
  | some q =>
    obtain ⟨batch, hbatch⟩ := h.pending q hq
    obtain ⟨hpayloads, hchunk⟩ := payloads_of_pending hq
    rw [current, hpayloads, hchunk] at hp
    obtain ⟨haction, hsubpath, hne⟩ := hbatch.chunks.form p (mem_of_getElem? hp)
    refine ⟨q, batch, rfl, hbatch, hp, haction, hsubpath, hne, ?_⟩
    rw [hpayloads, hchunk, length_flatMap_rows]
    exact hbatch.chunks.numbered _ p hp

theorem Sound.idle :
    Sound rt epoch base { s with active := none } record stored :=
  { h with
    active := nofun
    read_of_reply := by
      rintro _ _ _ _ ⟨_, hflight, _⟩
      contradiction }

/-- Once the host has answered it, the current chunk is stored. -/
theorem Sound.stored_eq (hp : s.current = some p)
    (hstored : ∀ e ∈ p.expectedSequence, e < record.epoch.nextSequence) :
    stored = s.nextChunk + 1 := by
  obtain ⟨q, batch, -, -, -, -, -, -, hexpected⟩ := h.current_eq hp
  have hlt := hstored _ hexpected
  have hge := h.stored_ge
  have hle := h.stored_le
  by_contra hne
  obtain rfl : stored = s.nextChunk := by omega
  rw [h.nextSequence_eq] at hlt
  exact lt_irrefl _ hlt

theorem Sound.known_of_pending (hq : s.adapter.pendingBatch = some q) :
    s.adapter.completedSequence = some (base ++ s.done).length ∧ base.length ∈ s.reads := by
  cases hn : s.adapter.nextSequence with
  | none =>
    have hnone := (h.unknown hn).2.1
    rw [hq] at hnone
    contradiction
  | some n => exact (h.known n hn).2

/-- Where the current chunk is stored, everything that was sent is. -/
theorem Sound.sent_stored (hp : s.current = some p)
    (hstored : ∀ e ∈ p.expectedSequence, e < record.epoch.nextSequence) :
    ∀ r ∈ s.sent, r.action = .append → ∃ e, r.expectedSequence = some e ∧
      e < record.epoch.nextSequence := by
  intro r hr haction
  obtain ⟨e, he, hlt | hcurrent⟩ := h.sent r hr haction
  · exact ⟨e, he, hlt⟩
  · obtain rfl := Option.some.inj (hp.symm.trans hcurrent)
    exact ⟨e, he, hstored e he⟩

/-! ## Requests -/

/-- A call sends the current chunk, or a read when nothing is pending. -/
theorem Sound.send {operation : Operation} (hcurrent : p.action = .append → s.current = some p)
    (hwaits : Waits { s with sent := s.sent ++ [p] } ⟨operation, s.sent.length⟩) :
    Sound rt epoch base
      { s with sent := s.sent ++ [p], active := some ⟨operation, s.sent.length⟩ }
      record stored := by
  have hsent : ∀ r ∈ s.sent ++ [p], r.action = .append → ∃ e, r.expectedSequence = some e ∧
      (e < record.epoch.nextSequence ∨ s.current = some r) := by
    intro r hr haction
    rcases mem_append.mp hr with hr | hr
    · exact h.sent r hr haction
    · obtain rfl := mem_singleton.mp hr
      have hr := hcurrent haction
      obtain ⟨_, _, -, -, -, -, -, -, hexpected⟩ := h.current_eq hr
      exact ⟨_, hexpected, .inr hr⟩
  have hreplies : ∀ request body, (request, body) ∈ s.replies →
      request < (s.sent ++ [p]).length := by
    intro request body hreply
    have hlt := h.replies_lt request body hreply
    rw [length_append]
    omega
  exact
    { h with
      sent := hsent
      active := by
        rintro flight ⟨⟩
        exact ⟨by simp, hwaits⟩
      replies_lt := hreplies
      stored_of_reply := by
        intro request reply hreply r hr
        rw [getElem?_append_left (h.replies_lt request _ hreply)] at hr
        exact h.stored_of_reply request reply hreply r hr
      -- No reply bears the number of a request that is only being sent.
      read_of_reply := by
        rintro request body hreply - ⟨flight, ⟨⟩, rfl⟩
        exact absurd (h.replies_lt _ body hreply) (lt_irrefl _) }

/-! ## Appending -/

/-- The chunks of a new batch follow what is stored. -/
theorem Sound.openBatch (hnone : s.adapter.pendingBatch = none) {n : Nat}
    (hn : s.adapter.nextSequence = some n) (hq : q.Of rt n batch) (hchunk : q.nextChunk = 0)
    (cache : List (CacheKey × Option (List Json))) :
    Sound rt epoch base
      { s with adapter := { s.adapter with loadCache := cache, pendingBatch := some q },
               active := none }
      record 0 := by
  obtain ⟨hpayloads, hzero⟩ := payloads_of_none hnone
  obtain ⟨hnext, hcompleted, hreads⟩ := h.known n hn
  have hstored : stored = 0 := by
    have hle := h.stored_le_length
    rw [hpayloads] at hle
    exact Nat.le_zero.mp hle
  rw [hpayloads, hzero, take_nil, flatMap_nil, length_nil, Nat.add_zero] at hnext
  have hcontent : acknowledged record.accepted = base ++ s.done := by
    rw [h.content, hpayloads, take_nil, flatMap_nil, append_nil]
  refine
    { h.idle with
      content := hcontent.trans (append_nil _).symm
      stored_ge := hchunk.le
      stored_le := Nat.zero_le _
      stored_le_length := Nat.zero_le _
      unknown := fun hunknown => by
        rw [show s.adapter.nextSequence = none from hunknown] at hn
        contradiction
      known := ?_
      pending := ?_
      sent := ?_
      active := nofun
      read_of_reply := nofun }
  · intro m hm
    obtain rfl : n = m := Option.some.inj (hn.symm.trans hm)
    refine ⟨?_, hcompleted, hreads⟩
    show n = (base ++ s.done).length + 1 +
      ((q.payloads.take q.nextChunk).flatMap Payload.rows).length
    rw [hchunk, take_zero, flatMap_nil, length_nil, Nat.add_zero, hnext]
  · rintro p ⟨⟩
    exact ⟨batch, hnext ▸ hq⟩
  · intro p hp haction
    obtain ⟨e, he, hlt | hcurrent⟩ := h.sent p hp haction
    · exact ⟨e, he, .inl hlt⟩
    · simp [current, hpayloads] at hcurrent

/-- The acknowledgement of the current chunk, with more chunks to come. -/
theorem Sound.advance (hq : s.adapter.pendingBatch = some q) (hstored : stored = q.nextChunk + 1)
    (hlt : q.nextChunk + 1 < q.payloads.length)
    (hsent : ∀ r ∈ s.sent, r.action = .append → ∃ e, r.expectedSequence = some e ∧
      e < record.epoch.nextSequence) :
    Sound rt epoch base
      { s with adapter := { s.adapter with
                 loadCache := []
                 nextSequence := some record.epoch.nextSequence
                 pendingBatch := some { q with nextChunk := q.nextChunk + 1 } },
               active := none }
      record stored := by
  obtain ⟨hpayloads, hchunk⟩ := payloads_of_pending hq
  obtain ⟨batch, hbatch⟩ := h.pending q hq
  have hnext := h.nextSequence_eq
  have hcontent := h.content
  rw [hpayloads] at hnext hcontent
  obtain ⟨hcompleted, hreads⟩ := h.known_of_pending hq
  refine
    { h.idle with
      content := hcontent
      stored_ge := hstored.ge
      stored_le := by
        show stored ≤ q.nextChunk + 1 + 1
        omega
      stored_le_length := by
        show stored ≤ q.payloads.length
        omega
      unknown := nofun
      known := ?_
      pending := ?_
      sent := ?_
      active := nofun
      read_of_reply := nofun }
  · rintro m ⟨⟩
    refine ⟨?_, hcompleted, hreads⟩
    rw [hnext, hstored]
    rfl
  · rintro p ⟨⟩
    exact ⟨batch, { hbatch with lt := hlt }⟩
  · intro p hp haction
    obtain ⟨e, he, hlt⟩ := hsent p hp haction
    exact ⟨e, he, .inl hlt⟩

/-- The acknowledgement of the last chunk completes the batch. -/
theorem Sound.complete (hq : s.adapter.pendingBatch = some q) (hstored : stored = q.payloads.length)
    (hrows : s.payloads.flatMap Payload.rows = batch.rows)
    (hsent : ∀ r ∈ s.sent, r.action = .append → ∃ e, r.expectedSequence = some e ∧
      e < record.epoch.nextSequence) :
    Sound rt epoch base
      { s with adapter := { s.adapter with
                 loadCache := []
                 nextSequence := some record.epoch.nextSequence
                 completedSequence := some (record.epoch.nextSequence - 1)
                 pendingBatch := none },
               active := none
               completed := s.completed ++ [batch] }
      record 0 := by
  obtain ⟨hpayloads, hchunk⟩ := payloads_of_pending hq
  have hnext := h.nextSequence_eq
  have hcontent := h.content
  have hall : s.payloads.take stored = s.payloads := by
    rw [hstored, ← hpayloads, take_length]
  have hdone : done { s with completed := s.completed ++ [batch] } = s.done ++ batch.rows := by
    simp [done]
  rw [hall, hrows, append_assoc, ← hdone] at hcontent
  rw [hall, hrows, length_append, Nat.add_right_comm, Nat.add_assoc _ _ batch.rows.length,
    ← length_append, ← hdone, ← length_append] at hnext
  obtain ⟨-, hreads⟩ := h.known_of_pending hq
  exact
    { h.idle with
      content := hcontent.trans (append_nil _).symm
      stored_ge := le_rfl
      stored_le := Nat.zero_le _
      stored_le_length := le_rfl
      unknown := nofun
      known := by
        rintro m ⟨⟩
        refine ⟨hnext, ?_, hreads⟩
        show some (record.epoch.nextSequence - 1) = _
        rw [hnext]
        rfl
      pending := nofun
      sent := fun p hp haction =>
        let ⟨e, he, hlt⟩ := hsent p hp haction
        ⟨e, he, .inl hlt⟩
      active := nofun
      read_of_reply := by
        rintro _ _ _ _ ⟨_, hflight, _⟩
        contradiction }

/-- An append of nothing returns at once. -/
theorem Sound.empty (hrows : batch.rows = []) :
    Sound rt epoch base { s with active := none, completed := s.completed ++ [batch] }
      record stored := by
  have hdone : done { s with active := none, completed := s.completed ++ [batch] } = s.done := by
    simp [done, hrows]
  exact
    { h.idle with
      content := hdone.symm ▸ h.content
      unknown := hdone.symm ▸ h.unknown
      known := hdone.symm ▸ h.known
      pending := hdone.symm ▸ h.pending }

end

theorem rows_of_signature {id id' : String} {batch' : SdkBatch}
    (hproper : ∀ entry ∈ batch.entries, entry.Proper rt.floats)
    (hproper' : ∀ entry ∈ batch'.entries, entry.Proper rt.floats)
    (h : encodeBatch id batch.subpath batch.entries =
      encodeBatch id' batch'.subpath batch'.entries) : batch.rows = batch'.rows := by
  have hdecoded := congrArg (decodeBatch rt) h
  rw [decodeBatch_encodeBatch id _ hproper, decodeBatch_encodeBatch id' _ hproper'] at hdecoded
  obtain ⟨-, hpath, hentries⟩ := by simpa only [Except.ok.injEq, Prod.mk.injEq] using hdecoded
  have hsubpath : batch.subpath = batch'.subpath := by
    cases hb : batch.subpath <;> cases hb' : batch'.subpath <;>
      simp_all [textOrNull]
  have hmap := congrArg (List.map fun entry => (batch.subpath.getD "", entry)) hentries
  rw [map_map, map_map] at hmap
  rw [SdkBatch.rows, SdkBatch.rows, ← hsubpath]
  exact hmap

/-- What an append does up to its first request. -/
theorem append_cases {a next : Adapter} {key : SessionKey} {entries : List Json}
    (hproper : ∀ entry ∈ entries, entry.Proper rt.floats)
    (h : a.append rt cfg key entries = .ok (next, progress)) :
    ∃ id path, subpath rt.unicode key = .ok path ∧
      ((entries = [] ∧ next = a ∧ progress = .returned) ∨
      (∃ q, a.pendingBatch = some q ∧ q.signature = encodeBatch id path entries ∧
        a.resume q = (next, progress)) ∨
      (∃ n payloads, entries ≠ [] ∧ a.pendingBatch = none ∧ a.nextSequence = some n ∧
        ChunksOf n path (entries.map Json.canonical) payloads ∧
        { a with loadCache := [] }.resume ⟨encodeBatch id path entries, payloads, 0⟩ =
          (next, progress))) := by
  obtain ⟨⟨signature, frozen, sizes⟩, hinput, h⟩ := bind_eq_ok.mp h
  obtain ⟨id, path, hpath, rfl, rfl, hsizes⟩ := appendInput_eq_ok hproper hinput
  refine ⟨id, path, hpath, ?_⟩
  obtain ⟨hsignature, h⟩ := ensure_bind_eq_ok.mp h
  split_ifs at h with hempty
  · obtain ⟨rfl, rfl⟩ := by simpa using h
    exact .inl ⟨map_eq_nil_iff.mp hempty, rfl, rfl⟩
  · right
    split at h
    · contradiction
    · rename_i _ q _ hq
      exact .inl ⟨q, hq, hsignature q hq, Except.ok.inj h⟩
    · rename_i n hn hnone
      obtain ⟨decoded, hdecoded, h⟩ := bind_eq_ok.mp h
      rw [decodeBatch_encodeBatch id path hproper] at hdecoded
      obtain rfl := Except.ok.inj hdecoded
      obtain ⟨payloads, hpayloads, h⟩ := bind_eq_ok.mp h
      have hchunks := chunksOf_appendChunks (subpath_textOrNull (trimmed_of_subpath hpath) _)
        hsizes hpayloads
      exact .inr ⟨n, payloads, mt map_eq_nil_iff.mpr hempty, hnone, hn, hchunks,
        Except.ok.inj h⟩

section

variable (h : s.Sound rt epoch base record stored)
include h

theorem Sound.resume {a : Adapter} (hq : s.adapter.pendingBatch = some q)
    (hrows : q.payloads.flatMap Payload.rows = batch.rows)
    (hresume : s.adapter.resume q = (a, progress)) :
    ∃ p, Sound rt epoch base
      { s with adapter := a, sent := s.sent ++ [p],
               active := some ⟨.append batch, s.sent.length⟩ } record stored ∧
      progress = .requests p := by
  obtain ⟨other, hother⟩ := h.pending q hq
  obtain ⟨hpayloads, hchunk⟩ := payloads_of_pending hq
  obtain ⟨p, hp⟩ : ∃ p, q.payloads[q.nextChunk]? = some p := ⟨_, getElem?_eq_getElem hother.lt⟩
  have hcurrent : s.current = some p := by rw [current, hpayloads, hchunk, hp]
  simp only [Adapter.resume, hp, Prod.mk.injEq] at hresume
  obtain ⟨rfl, rfl⟩ := hresume
  have hsame : { s.adapter with pendingBatch := some q } = s.adapter := by rw [← hq]
  refine ⟨p, ?_, rfl⟩
  rw [hsame]
  refine h.send (fun _ => hcurrent) ⟨p, hcurrent, by simp, ?_⟩
  exact hpayloads ▸ hrows

theorem Sound.append (key : SessionKey) {entries : List Json}
    (hproper : ∀ entry ∈ entries, entry.Proper rt.floats) :
    ∃ stored, Sound rt epoch base
      (s.settle (.append ⟨(subpath rt.unicode key).toOption.getD none, entries⟩)
        (s.adapter.append rt cfg key entries)) record stored := by
  cases happend : s.adapter.append rt cfg key entries with
  | error _ => exact ⟨stored, h.idle⟩
  | ok result =>
    obtain ⟨a, progress⟩ := result
    obtain ⟨id, path, hpath, hcases⟩ := append_cases hproper happend
    rw [hpath]
    rcases hcases with ⟨rfl, rfl, rfl⟩ | ⟨q, hq, hsignature, hresume⟩ |
      ⟨n, payloads, hne, hnone, hn, hchunks, hresume⟩
    · exact ⟨stored, h.empty rfl⟩
    · obtain ⟨other, hother⟩ := h.pending q hq
      obtain ⟨id', hsignature'⟩ := hother.signature
      have hrows : other.rows = SdkBatch.rows ⟨path, entries⟩ :=
        rows_of_signature hother.proper hproper (hsignature'.symm.trans hsignature)
      have hpayloads : q.payloads.flatMap Payload.rows = other.rows := by
        rw [hother.chunks.rows, map_map]
        rfl
      obtain ⟨p, hsound, rfl⟩ := h.resume hq (hpayloads.trans hrows) hresume
      exact ⟨stored, hsound⟩
    · have hlt : 0 < payloads.length := by
        rw [length_pos_iff]
        rintro rfl
        exact hne (map_eq_nil_iff.mp hchunks.entries.symm)
      have hof : PendingAppend.Of rt n ⟨path, entries⟩
          ⟨encodeBatch id path entries, payloads, 0⟩ :=
        ⟨hlt, ⟨id, rfl⟩, trimmed_of_subpath hpath, hproper, hchunks⟩
      have hrows : payloads.flatMap Payload.rows = SdkBatch.rows ⟨path, entries⟩ := by
        rw [hchunks.rows, map_map]
        rfl
      have hopen := h.openBatch hnone hn hof rfl []
      obtain ⟨p, hsound, rfl⟩ := hopen.resume rfl hrows hresume
      exact ⟨0, hsound⟩

/-- The reply to the current chunk. -/
theorem Sound.appended {reply : AppendReply} (hq : s.adapter.pendingBatch = some q)
    (hp : s.current = some p) (hrows : s.payloads.flatMap Payload.rows = batch.rows)
    (hfiled : ∀ e ∈ p.expectedSequence, e < record.epoch.nextSequence) :
    ∃ stored, Sound rt epoch base (s.settle (.append batch) (s.adapter.appended q p reply))
      record stored := by
  cases happended : s.adapter.appended q p reply with
  | error _ => exact ⟨stored, h.idle⟩
  | ok result =>
    obtain ⟨hpayloads, hchunk⟩ := payloads_of_pending hq
    have hstored := h.stored_eq hp hfiled
    have hsent := h.sent_stored hp hfiled
    obtain ⟨_, _, -, -, -, -, -, -, hexpected⟩ := h.current_eq hp
    obtain ⟨-, happended⟩ := ensure_bind_eq_ok.mp happended
    obtain ⟨⟨-, hlast, hreply⟩, happended⟩ := ensure_bind_eq_ok.mp happended
    have hnext : reply.nextSequence = record.epoch.nextSequence := by
      have hfinal := h.nextSequence_eq
      rw [hstored, length_rows_take_current hp] at hfinal
      rw [hexpected, Option.getD_some] at hlast
      omega
    obtain rfl := Except.ok.inj happended
    rw [hnext]
    rcases Nat.lt_or_ge (q.nextChunk + 1) q.payloads.length with hlt | hge
    · have hadvanced := h.advance hq (hchunk ▸ hstored) hlt hsent
      obtain ⟨p', hp'⟩ : ∃ p', q.payloads[q.nextChunk + 1]? = some p' :=
        ⟨_, getElem?_eq_getElem hlt⟩
      simp only [Adapter.resume, hp']
      refine ⟨stored, hadvanced.send (fun _ => hp') ⟨p', hp', by simp, ?_⟩⟩
      exact hpayloads ▸ hrows
    · simp only [Adapter.resume, getElem?_eq_none hge]
      have hall : stored = q.payloads.length := by
        have hle := h.stored_le_length
        rw [hpayloads] at hle
        omega
      exact ⟨0, h.complete hq hall hrows hsent⟩

/-! ## Reading -/

/-- The reply to a read, made while nothing could be stored. -/
theorem Sound.learn (hnone : s.adapter.pendingBatch = none) {n : Nat}
    (hn : n = record.epoch.nextSequence) (cache : List (CacheKey × Option (List Json))) :
    Sound rt epoch base
      { s with adapter := { s.adapter with
                 loadCache := cache
                 nextSequence := some n
                 completedSequence := some (n - 1) },
               active := none
               reads := s.reads ++ [n - 1] }
      record stored := by
  obtain ⟨hpayloads, hzero⟩ := payloads_of_none hnone
  have hnext := h.nextSequence_eq
  rw [hpayloads, take_nil, flatMap_nil, length_nil, Nat.add_zero, ← hn] at hnext
  have hreads : base.length ∈ s.reads ++ [n - 1] := by
    cases hknown : s.adapter.nextSequence with
    | none =>
      rw [(h.unknown hknown).2.2, append_nil] at hnext
      simp [hnext]
    | some m => exact mem_append_left _ (h.known m hknown).2.2
  refine
    { h.idle with
      unknown := nofun
      known := ?_ }
  rintro m ⟨⟩
  refine ⟨?_, ?_, hreads⟩
  · show n =
      (base ++ s.done).length + 1 + ((s.payloads.take s.nextChunk).flatMap Payload.rows).length
    rw [hpayloads, take_nil, flatMap_nil, length_nil, Nat.add_zero, hnext]
  · show some (n - 1) = some (base ++ s.done).length
    rw [hnext, Nat.add_sub_cancel]

theorem Sound.receive (reply : Nat) :
    ∃ stored, Sound rt epoch base (s.receive rt reply) record stored := by
  unfold SessionExchange.receive
  split
  · rename_i request body flight hreply hactive
    split_ifs with hrequest
    · obtain rfl := hrequest
      have hmem := mem_of_getElem? hreply
      obtain ⟨hlt, hwaits⟩ := h.active flight hactive
      unfold accept
      split
      · rename_i batch reply hoperation
        rw [Waits, hoperation] at hwaits
        obtain ⟨p, hp, hsent, hrows⟩ := hwaits
        obtain ⟨q, _, hq, -⟩ := h.current_eq hp
        rw [hq, hsent]
        exact h.appended hq hp hrows (h.stored_of_reply _ reply hmem p hsent)
      · rename_i cacheKey reply hoperation
        rw [Waits, hoperation] at hwaits
        have hn := h.read_of_reply _ _ hmem hwaits ⟨flight, hactive, rfl⟩ _ rfl
        cases hloaded : s.adapter.loaded cacheKey reply with
        | error _ => exact ⟨stored, h.idle⟩
        | ok a =>
          obtain ⟨-, hloaded⟩ := ensure_bind_eq_ok.mp hloaded
          obtain ⟨-, hloaded⟩ := ensure_bind_eq_ok.mp hloaded
          obtain ⟨-, hloaded⟩ := ensure_bind_eq_ok.mp hloaded
          obtain rfl := Except.ok.inj hloaded
          exact ⟨stored, h.learn hwaits hn _⟩
      · rename_i id reply hoperation
        rw [Waits, hoperation] at hwaits
        have hn := h.read_of_reply _ _ hmem hwaits ⟨flight, hactive, rfl⟩ _ rfl
        cases hlisted : s.adapter.listed rt id reply with
        | error _ => exact ⟨stored, h.idle⟩
        | ok a =>
          obtain ⟨-, hlisted⟩ := ensure_bind_eq_ok.mp hlisted
          obtain ⟨-, hlisted⟩ := ensure_bind_eq_ok.mp hlisted
          obtain ⟨-, hlisted⟩ := ensure_bind_eq_ok.mp hlisted
          obtain rfl := Except.ok.inj hlisted
          exact ⟨stored, h.learn hwaits hn _⟩
      · exact ⟨stored, h.idle⟩
    · exact ⟨stored, h⟩
  · exact ⟨stored, h⟩

/-! ## The host -/

theorem Sound.reply {request : Nat} {body : Body} (hrequest : request < s.sent.length)
    (hstored : ∀ reply, body = .append reply →
      ∀ p ∈ s.sent[request]?, ∀ e ∈ p.expectedSequence, e < record.epoch.nextSequence)
    (hread : ∀ n ∈ body.readSequence, n = record.epoch.nextSequence) :
    Sound rt epoch base { s with replies := s.replies ++ [(request, body)] } record stored := by
  have hmem : ∀ {r b}, (r, b) ∈ s.replies ++ [(request, body)] →
      (r, b) ∈ s.replies ∨ (r = request ∧ b = body) := by
    intro r b hr
    simpa using hr
  exact
    { h with
      replies_lt := by
        intro r b hr
        rcases hmem hr with hr | ⟨rfl, -⟩
        · exact h.replies_lt r b hr
        · exact hrequest
      stored_of_reply := by
        intro r b hr
        rcases hmem hr with hr | ⟨rfl, hbody⟩
        · exact h.stored_of_reply r b hr
        · exact hstored b hbody.symm
      read_of_reply := by
        intro r b hr
        rcases hmem hr with hr | ⟨rfl, rfl⟩
        · exact h.read_of_reply r b hr
        · exact fun _ _ => hread }

/-- The host stores the current chunk. -/
theorem Sound.store (hp : s.current = some p) {next : EpochRecord} {images : ImageValues}
    {batches : List Batch} {b : Batch} (hbefore : Represents rt s.store.images record batches)
    (hafter : Represents rt images next (batches ++ [b])) (hpath : b.path = p.subpath.getD "")
    (hentries : b.originals = p.entries) (hmore : s.store.images.Extends images)
    (hexpected : p.expectedSequence = some record.epoch.nextSequence) :
    Sound rt epoch base { s with store := ⟨s.store.epochs.set epoch next, images⟩ } next
      (stored + 1) := by
  obtain ⟨q, batch, hq, hof, hcurrent, -, -, hne, hstart⟩ := h.current_eq hp
  obtain ⟨hpayloads, hchunk⟩ := payloads_of_pending hq
  have hstored : stored = s.nextChunk := by
    have hge := h.stored_ge
    have hle := h.stored_le
    by_contra hother
    obtain rfl : stored = s.nextChunk + 1 := by omega
    have hnext := h.nextSequence_eq
    rw [length_rows_take_current hp] at hnext
    have heq := Option.some.inj (hexpected.symm.trans hstart)
    have hpos := length_pos_iff.mpr hne
    omega
  have hrows : b.originals.map (fun entry => (b.path, entry)) = p.rows := by
    rw [hentries, hpath]
    rfl
  have hcontent := hbefore.acknowledged_concat hafter
  have hgrows := hbefore.nextSequence_lt_concat hafter
  exact
    { h with
      accounted := h.accounted.set epoch hmore hafter
      record_eq := by
        have hlt := (List.getElem?_eq_some_iff.mp h.record_eq).1
        exact List.getElem?_set_self hlt
      content := by
        show _ = base ++ s.done ++ (s.payloads.take (stored + 1)).flatMap Payload.rows
        rw [hcontent, h.content, hrows, hstored, rows_take_current hp, append_assoc _ _ p.rows]
      stored_ge := h.stored_ge.trans (Nat.le_succ _)
      stored_le := (congrArg (· + 1) hstored).le
      stored_le_length := by
        show stored + 1 ≤ s.payloads.length
        rw [hstored, hpayloads, hchunk]
        exact hof.lt
      sent := by
        intro r hr haction
        obtain ⟨e, he, hlt | hcurrent⟩ := h.sent r hr haction
        · exact ⟨e, he, .inl (hlt.trans hgrows)⟩
        · exact ⟨e, he, .inr hcurrent⟩
      stored_of_reply := fun request reply hreply r hr e he =>
        (h.stored_of_reply request reply hreply r hr e he).trans hgrows
      read_of_reply := by
        intro request body hreply hnone
        rw [show s.adapter.pendingBatch = none from hnone] at hq
        contradiction }

theorem Sound.deliver (request : Nat) (call : AppendCall rt) :
    ∃ record stored, Sound rt epoch base (s.deliver rt epoch request call) record stored := by
  unfold SessionExchange.deliver
  split
  · exact ⟨record, stored, h⟩
  · rename_i p hp
    split_ifs with hcarries
    · obtain ⟨haction, hsubpath, hentries, hexpected⟩ := hcarries
      obtain ⟨batches, hbatches⟩ := h.accounted record (List.mem_of_getElem? h.record_eq)
      have hrequest := (List.getElem?_eq_some_iff.mp hp).1
      simp only [ProviderStore.callback, h.record_eq]
      cases hok : callbackAppend rt record.epoch s.store.images call with
      | error refusal => exact ⟨record, stored, h⟩
      | ok result =>
        obtain ⟨reply, next, images⟩ := result
        rcases hbatches.callback_cases hok with
          ⟨append, hmem, owner, -, hretry, -, rfl, rfl, haccepted⟩ |
          ⟨b, hfresh, -, hpath, horiginals, hmore, -, hextended⟩
        · have hsame : s.store.epochs.set epoch record = s.store.epochs := by
            obtain ⟨hi, heq⟩ := List.getElem?_eq_some_iff.mp h.record_eq
            rw [← heq]
            exact List.set_getElem_self hi
          simp only [haccepted, hsame]
          refine ⟨record, stored, h.reply hrequest ?_ nofun⟩
          intro _ _ r hr e he
          obtain rfl := Option.some.inj (hp.symm.trans hr)
          obtain rfl := Option.some.inj (hexpected.symm.trans he)
          rw [← hretry.expectedSequence]
          exact hbatches.expectedSequence_lt hmem
        · rw [hfresh] at hexpected
          have hcurrent : s.current = some p := by
            obtain ⟨e, he, hlt | hcurrent⟩ := h.sent p (mem_of_getElem? hp) haction
            · obtain rfl := Option.some.inj (hexpected.symm.trans he)
              exact absurd hlt (lt_irrefl _)
            · exact hcurrent
          obtain ⟨q, batch, -, hof, -, -, hbatch, -, -⟩ := h.current_eq hcurrent
          have htrimmed : Trimmed rt.unicode p.subpath := hbatch ▸ hof.trimmed
          have hfiled : b.path = p.subpath.getD "" := by
            rw [hsubpath] at hpath
            exact htrimmed.requestPath_eq hpath
          have hstored := h.store hcurrent hbatches hextended hfiled
            (horiginals.trans hentries) hmore hexpected
          refine ⟨_, stored + 1, hstored.reply hrequest ?_ nofun⟩
          intro _ _ r hr e he
          obtain rfl := Option.some.inj (hp.symm.trans hr)
          obtain rfl := Option.some.inj (hexpected.symm.trans he)
          exact hbatches.nextSequence_lt_concat hextended
    · exact ⟨record, stored, h⟩

end

theorem toOption_eq_some {ε α : Type} {x : Except ε α} {a : α} (h : x.toOption = some a) :
    x = .ok a := by
  cases x with
  | error _ => contradiction
  | ok b => exact congrArg Except.ok (Option.some.inj h)

theorem answerRead_eq_some {images : ImageValues} {e : Epoch} {body : Body}
    (h : answerRead rt p images e = some body) :
    (∀ reply, body ≠ .append reply) ∧ ∀ n ∈ body.readSequence, n = e.nextSequence := by
  unfold answerRead at h
  split at h
  · contradiction
  · obtain ⟨reply, hreply, rfl⟩ := Option.map_eq_some_iff.mp h
    obtain ⟨path, -, hreply⟩ := bind_eq_ok.mp (toOption_eq_some hreply)
    obtain ⟨rows, -, hreply⟩ := bind_eq_ok.mp hreply
    obtain rfl := Except.ok.inj hreply
    exact ⟨nofun, fun n hn => (Option.some.inj hn).symm⟩
  · obtain ⟨reply, hreply, rfl⟩ := Option.map_eq_some_iff.mp h
    obtain ⟨path, -, hreply⟩ := bind_eq_ok.mp (toOption_eq_some hreply)
    obtain ⟨rows, -, hreply⟩ := bind_eq_ok.mp hreply
    obtain rfl := Except.ok.inj hreply
    exact ⟨nofun, fun n hn => (Option.some.inj hn).symm⟩

theorem Sound.read (h : s.Sound rt epoch base record stored) (request : Nat) :
    Sound rt epoch base (s.read rt epoch request) record stored := by
  unfold SessionExchange.read
  split
  · rename_i p other hp hother
    obtain rfl := Option.some.inj (h.record_eq.symm.trans hother)
    split
    · rename_i body hbody
      obtain ⟨hread, hn⟩ := answerRead_eq_some hbody
      exact h.reply (List.getElem?_eq_some_iff.mp hp).1
        (fun reply hreply => absurd hreply (hread reply)) hn
    · exact h
  · exact h

/-- Nothing else in the store touches the epoch. -/
theorem record_elsewhere {store : ProviderStore} {label : ProviderLabel rt}
    (hlabel : ∀ call, label ≠ .append epoch call) (h : store.epochs[epoch]? = some record) :
    (store.step rt label).epochs[epoch]? = some record := by
  have hlt := (List.getElem?_eq_some_iff.mp h).1
  cases label with
  | start =>
    show (store.epochs ++ [_])[epoch]? = _
    rw [getElem?_append_left hlt, h]
  | append other call =>
    have hne : other ≠ epoch := fun heq => hlabel call (heq ▸ rfl)
    simp only [ProviderStore.step, ProviderStore.callback]
    split
    · exact h
    · split
      · exact h
      · rw [getElem?_set_ne hne, h]
  | resume source recovery available proved =>
    simp only [ProviderStore.step, ProviderStore.resume]
    split
    · exact h
    · split
      · exact h
      · rw [getElem?_append_left hlt, h]

section

variable (h : s.Sound rt epoch base record stored)
include h

theorem Sound.step_store {label : ProviderLabel rt} (hlabel : ∀ call, label ≠ .append epoch call) :
    Sound rt epoch base { s with store := s.store.step rt label } record stored :=
  { h with
    accounted := h.accounted.step label
    record_eq := record_elsewhere hlabel h.record_eq }

theorem Sound.elsewhere (label : ProviderLabel rt) :
    Sound rt epoch base (s.elsewhere rt epoch label) record stored := by
  cases label with
  | start => exact h.step_store nofun
  | resume source recovery available proved => exact h.step_store nofun
  | append other call =>
    simp only [SessionExchange.elsewhere]
    split_ifs with hother
    · exact h
    · refine h.step_store fun call' heq => ?_
      injection heq with heq
      exact hother heq

/-! ## Every run -/

theorem Sound.load {key : SessionKey} {cacheKey : CacheKey}
    (hload : s.adapter.load rt cfg key = .ok (cacheKey, progress)) :
    Sound rt epoch base (s.settle (.load cacheKey) (.ok (s.adapter, progress))) record stored := by
  obtain ⟨hnone, hload⟩ := ensure_bind_eq_ok.mp hload
  obtain ⟨id, -, hload⟩ := bind_eq_ok.mp hload
  obtain ⟨path, -, hload⟩ := bind_eq_ok.mp hload
  split_ifs at hload
  · obtain ⟨-, rfl⟩ := by simpa using hload
    have hsame : s.completed ++ [] = s.completed := append_nil _
    simp only [settle, Operation.batches, hsame]
    exact h.idle
  · obtain ⟨p, hp, hload⟩ := bind_eq_ok.mp hload
    obtain ⟨-, rfl⟩ := by simpa using hload
    have haction : p.action ≠ .append := by
      rw [(payload_eq_ok hp).1]
      decide
    exact h.send (fun happend => absurd happend haction) hnone

theorem Sound.listSubkeys {key : Option SessionKey} {id : String}
    (hlist : s.adapter.listSubkeys rt cfg key = .ok (id, progress)) :
    Sound rt epoch base (s.settle (.listSubkeys id) (.ok (s.adapter, progress))) record
      stored := by
  obtain ⟨hnone, hlist⟩ := ensure_bind_eq_ok.mp hlist
  obtain ⟨_, -, hlist⟩ := bind_eq_ok.mp hlist
  obtain ⟨_, -, hlist⟩ := bind_eq_ok.mp hlist
  obtain ⟨p, hp, hlist⟩ := bind_eq_ok.mp hlist
  obtain ⟨-, rfl⟩ := by simpa using hlist
  have haction : p.action ≠ .append := by
    rw [(payload_eq_ok hp).1]
    decide
  exact h.send (fun happend => absurd happend haction) hnone

theorem Sound.step (label : ExchangeLabel rt) :
    ∃ record stored, Sound rt epoch base (s.step rt cfg epoch label) record stored := by
  cases label with
  | append key entries proper =>
    simp only [SessionExchange.step]
    split_ifs
    · exact ⟨record, stored, h⟩
    · exact ⟨record, h.append key proper⟩
  | load key =>
    simp only [SessionExchange.step]
    split_ifs
    · exact ⟨record, stored, h⟩
    · split
      · exact ⟨record, stored, h⟩
      · rename_i hload
        exact ⟨record, stored, h.load hload⟩
  | listSubkeys key =>
    simp only [SessionExchange.step]
    split_ifs
    · exact ⟨record, stored, h⟩
    · split
      · exact ⟨record, stored, h⟩
      · rename_i hlist
        exact ⟨record, stored, h.listSubkeys hlist⟩
  | deliver request call => exact h.deliver request call
  | read request => exact ⟨record, stored, h.read request⟩
  | receive reply => exact ⟨record, h.receive reply⟩
  | fail => exact ⟨record, stored, h.idle⟩
  | elsewhere label => exact ⟨record, stored, h.elsewhere label⟩

end

theorem sound_start {store : ProviderStore} (haccounted : store.Accounted rt)
    (hrecord : store.epochs[epoch]? = some record) :
    Sound rt epoch (acknowledged record.accepted) (sessionDelivery rt cfg store epoch).start
      record 0 where
  accounted := haccounted
  record_eq := hrecord
  content := by simp [sessionDelivery, done, payloads, Adapter.new]
  stored_ge := le_rfl
  stored_le := Nat.zero_le _
  stored_le_length := le_rfl
  unknown := fun _ => ⟨rfl, rfl, rfl⟩
  known := nofun
  pending := nofun
  sent := nofun
  active := nofun
  replies_lt := nofun
  stored_of_reply := nofun
  read_of_reply := nofun

theorem sound_run (cfg : StoreConfig) {store : ProviderStore} (haccounted : store.Accounted rt)
    (hrecord : store.epochs[epoch]? = some record) (events : List (ExchangeLabel rt)) :
    ∃ next stored, Sound rt epoch (acknowledged record.accepted)
      ((sessionDelivery rt cfg store epoch).run events) next stored :=
  Machine.invariant_reachable
    (I := fun s => ∃ next stored, Sound rt epoch (acknowledged record.accepted) s next stored)
    ⟨record, 0, sound_start haccounted hrecord⟩ (fun _ label ⟨_, _, h⟩ => h.step label) events

end Invariant

end SessionExchange

/-! ## What the ledger holds -/

/-- The rows as the verifier returns them. -/
def verifiedContent (rows : List (String × Json)) : List (String × Option Json) :=
  rows.map fun row => (row.1, some (Json.canonical row.2))

/-- The last row of the completed batches is the last row of one of them. -/
theorem exists_last_batch {completed : List SdkBatch} (h : completed.flatMap SdkBatch.rows ≠ []) :
    ∃ k batch, completed[k]? = some batch ∧ batch.entries ≠ [] ∧
      (completed.take (k + 1)).flatMap SdkBatch.rows = completed.flatMap SdkBatch.rows := by
  induction completed using List.reverseRecOn with
  | nil => contradiction
  | append_singleton completed last ih =>
    by_cases hlast : last.entries = []
    · have hrows : last.rows = [] := by rw [SdkBatch.rows, hlast, map_nil]
      rw [List.flatMap_append, List.flatMap_singleton, hrows, List.append_nil] at h ⊢
      obtain ⟨k, batch, hk, hne, htake⟩ := ih h
      have hlt := (List.getElem?_eq_some_iff.mp hk).1
      refine ⟨k, batch, ?_, hne, ?_⟩
      · rw [List.getElem?_append_left hlt, hk]
      · rw [List.take_append_of_le_length hlt, htake]
    · refine ⟨completed.length, last, getElem?_concat_length, hlast, ?_⟩
      rw [take_of_length_le (by simp)]

/-- Over any calls, faults and repetitions, the host's ledger verifies and holds what it held, then
the completed batches, then some first chunks of the pending one; the final sequence is the last of
a completed batch or of a read, and the host has committed it. -/
theorem batches_delivered_once (rt : Runtime) (cfg : StoreConfig)
    (history : List (ProviderLabel rt)) (epoch : Nat) (record : EpochRecord)
    (hrecord : ((providerSessions rt).run history).epochs[epoch]? = some record)
    (events : List (ExchangeLabel rt)) (s : SessionExchange)
    (hs : s = (sessionDelivery rt cfg ((providerSessions rt).run history) epoch).run events) :
    ∃ current rows chunks, s.store.epochs[epoch]? = some current ∧
      verifyProviderLedger rt s.store.images current.epoch = .ok rows ∧
      rows.map (fun row => (row.subpath, row.entryJson)) =
        verifiedContent (acknowledged record.accepted) ++
        verifiedContent (s.completed.flatMap SdkBatch.rows) ++
        verifiedContent ((s.payloads.take chunks).flatMap Payload.rows) ∧
      (∀ pending, s.adapter.pendingBatch = some pending → ∃ id, ∃ batch : SdkBatch,
        pending.signature = encodeBatch id batch.subpath batch.entries ∧
        s.payloads.flatMap Payload.rows = batch.rows) ∧
      ∀ final, s.adapter.completedSequence = some final →
        final < current.epoch.nextSequence ∧
        (final ∈ s.reads ∨ ∃ k batch, s.completed[k]? = some batch ∧ batch.entries ≠ [] ∧
          final = (acknowledged record.accepted).length +
            ((s.completed.take (k + 1)).flatMap SdkBatch.rows).length) := by
  obtain ⟨current, stored, h⟩ := SessionExchange.sound_run cfg
    (accounted_run history) hrecord events
  rw [← hs] at h
  obtain ⟨batches, hbatches⟩ := h.accounted current (mem_of_getElem? h.record_eq)
  have horder := hbatches.inOrder
  refine ⟨current, _, stored, h.record_eq, horder.verifies, ?_, ?_, ?_⟩
  · rw [horder.acknowledged, h.content, map_append, map_append]
    rfl
  · intro pending hpending
    obtain ⟨batch, hbatch⟩ := h.pending pending hpending
    obtain ⟨id, hid⟩ := hbatch.signature
    refine ⟨id, batch, hid, ?_⟩
    rw [(SessionExchange.payloads_of_pending hpending).1, hbatch.chunks.rows, map_map]
    rfl
  · intro final hfinal
    cases hn : s.adapter.nextSequence with
    | none =>
      rw [(h.unknown hn).1] at hfinal
      contradiction
    | some n =>
      obtain ⟨-, hcompleted, hread⟩ := h.known n hn
      obtain rfl := Option.some.inj (hcompleted.symm.trans hfinal)
      refine ⟨?_, ?_⟩
      · rw [h.nextSequence_eq]
        omega
      · by_cases hdone : s.done = []
        · rw [hdone, append_nil]
          exact .inl hread
        · obtain ⟨k, batch, hk, hne, htake⟩ := exists_last_batch hdone
          refine .inr ⟨k, batch, hk, hne, ?_⟩
          rw [htake, length_append]
          rfl

/-- The reply to an append is lost and the batch is sent again. -/
def lostReplyRun : List (ExchangeLabel .plain) :=
  [.load (.text "session"), .read 0, .receive 0,
    .append (.text "session") (AppendCall.single 1 Nat.le.refl "user").request.entries
      (AppendCall.single 1 Nat.le.refl "user").request.proper,
    .deliver 1 (.single 1 Nat.le.refl "user"), .fail,
    .append (.text "session") (AppendCall.single 1 Nat.le.refl "user").request.entries
      (AppendCall.single 1 Nat.le.refl "user").request.proper,
    .deliver 2 (.single 1 Nat.le.refl "user"), .receive 2]

theorem batches_delivered_once_lost_reply :
    ∃ current, ((sessionDelivery .plain ⟨"run", "attempt", "token", none, none, 1000⟩
        ((providerSessions .plain).run [.start]) 0).run lostReplyRun).store.epochs[0]? =
          some current ∧ 1 < current.epoch.nextSequence := by
  obtain ⟨current, rows, chunks, hcurrent, -, -, -, hfinal⟩ :=
    batches_delivered_once .plain ⟨"run", "attempt", "token", none, none, 1000⟩ [.start] 0
      ⟨.empty, []⟩ rfl lostReplyRun _ rfl
  exact ⟨current, hcurrent, (hfinal 1 (by decide +kernel)).1⟩

end AiPlatform.Execution
