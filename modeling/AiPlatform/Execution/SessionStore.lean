import AiPlatform.Context.ProviderContinuity

/-!
# The session store of the SDK

`ClaudeSessionStoreAdapter` gives the SDK a store whose contents are kept by the host. A batch is
cut into requests that fit, and a batch whose acknowledgement is uncertain is kept, so that only the
same batch can be sent again. Calls are split where they await the host: what a call does up to its
first request, and what it does with a reply.
-/
namespace AiPlatform.Execution

open AiPlatform.Foundation AiPlatform.Kernel AiPlatform.Context List

/-- The codes of `ClaudeSessionStoreTransportError` raised on this side of the transport, each
`provider_session_` and the name here. -/
inductive StoreError where
  | keyInvalid
  | identityMismatch
  | subpathInvalid
  | entryNotJson
  | entryShapeInvalid
  | entryTooLarge
  | requestTooLarge
  | responseInvalid
  | appendRejected
  | appendPending
  | sequenceUninitialized
  | sequenceConflict
  deriving DecidableEq, Repr

/-- What the constructor is given, as far as it is read below. -/
structure StoreConfig where
  runId : String
  attemptId : String
  callbackTokenId : String
  providerSessionId : Option String
  providerEpochId : Option String
  maxRequestBytes : Nat
  deriving DecidableEq, Repr

/-- `Mapping[str, Any] | str`; a member that is absent is read as `None`. -/
inductive SessionKey where
  | text (key : String)
  | mapping (sessionId subpath : Json)
  deriving DecidableEq

inductive StoreAction where
  | load
  | append
  | listSubkeys
  deriving DecidableEq, Repr

def StoreAction.name : StoreAction → String
  | load => "load"
  | append => "append"
  | listSubkeys => "list_subkeys"

structure Payload where
  action : StoreAction
  sessionId : String
  subpath : Option String
  entries : List Json
  expectedSequence : Option Nat
  deriving DecidableEq

def textOrNull : Option String → Json
  | some text => .str text
  | none => .null

def Payload.json (cfg : StoreConfig) (p : Payload) : Json :=
  .obj ([("action", .str p.action.name), ("run_id", .str cfg.runId),
    ("attempt_id", .str cfg.attemptId), ("callback_token_id", .str cfg.callbackTokenId),
    ("provider_session_id", .str p.sessionId), ("subpath", textOrNull p.subpath),
    ("entries", .arr p.entries),
    ("expected_sequence", (p.expectedSequence.map fun n => Json.int n).getD .null)] ++
    (cfg.providerEpochId.map fun id => ("provider_epoch_id", Json.str id)).toList)

/-- `len(self._payload(...))` in bytes of its compact JSON. -/
def Payload.size (cfg : StoreConfig) (p : Payload) : Nat :=
  (p.json cfg).size

def isMapping : Json → Bool
  | .obj _ => true
  | _ => false

section Payloads

variable (u : Unicode) (cfg : StoreConfig)

def SessionKey.sessionIdValue : SessionKey → Json
  | .text key => .str key
  | .mapping sessionId _ => sessionId

def sessionId (key : SessionKey) : Except StoreError String :=
  match key.sessionIdValue with
  | .str value => do
    ensure (strip u value ≠ "") .keyInvalid
    ensure (∀ expected ∈ cfg.providerSessionId, strip u value = expected) .identityMismatch
    .ok (strip u value)
  | _ => .error .keyInvalid

def subpath : SessionKey → Except StoreError (Option String)
  | .text _ => .ok none
  | .mapping _ .null => .ok none
  | .mapping _ (.str value) =>
    if value = "" then .ok none
    else if strip u value = "" then .error .subpathInvalid
    else .ok (some (strip u value))
  | .mapping _ _ => .error .subpathInvalid

def payload (action : StoreAction) (key : SessionKey) (entries : List Json)
    (expectedSequence : Option Nat) : Except StoreError Payload := do
  let id ← sessionId u cfg key
  ensure (action = .append → entries.all isMapping = true) .entryShapeInvalid
  let path ← subpath u key
  let p : Payload := ⟨action, id, path, if action = .append then entries else [], expectedSequence⟩
  ensure (p.size cfg ≤ cfg.maxRequestBytes) .requestTooLarge
  .ok p

/-! ## Cutting a batch -/

/-- The variables of the loop of `_append_chunks`. -/
structure ChunkState where
  payloads : List Payload
  start : Nat
  chunk : List Json
  chunkBytes : Nat

/-- A chunk that is full, or that the next entry would make too large, becomes a payload. -/
def ChunkState.flush (key : SessionKey) (entryBytes : Nat) (st : ChunkState) :
    Except StoreError ChunkState :=
  if st.chunk ≠ [] ∧ (st.chunk.length = maxProviderSessionBatchCount ∨
      cfg.maxRequestBytes < st.chunkBytes + entryBytes + 1) then do
    let p ← payload u cfg .append key st.chunk (some st.start)
    .ok { st with payloads := st.payloads ++ [p], start := st.start + st.chunk.length, chunk := [] }
  else .ok st

/-- Use the real envelope at this sequence, including digit growth. -/
def ChunkState.openBytes (key : SessionKey) (st : ChunkState) : Except StoreError Nat :=
  if st.chunk = [] then do
    let envelope ← payload u cfg .append key [] (some st.start)
    .ok (envelope.size cfg)
  else .ok st.chunkBytes

def ChunkState.add (key : SessionKey) (st : ChunkState) (entry : Json × Nat) :
    Except StoreError ChunkState := do
  let st ← st.flush u cfg key entry.2
  let chunkBytes ← st.openBytes u cfg key
  -- The empty envelope includes []; only entries and separating commas grow.
  let candidateBytes := chunkBytes + entry.2 + if st.chunk = [] then 0 else 1
  ensure (candidateBytes ≤ cfg.maxRequestBytes) .requestTooLarge
  .ok { st with chunk := st.chunk ++ [entry.1], chunkBytes := candidateBytes }

def appendChunks (key : SessionKey) (entries : List Json) (entrySizes : List Nat) (start : Nat) :
    Except StoreError (List Payload) := do
  let st ← (entries.zip entrySizes).foldlM (ChunkState.add u cfg key) ⟨[], start, [], 0⟩
  if st.chunk = [] then .ok st.payloads
  else do
    let p ← payload u cfg .append key st.chunk (some st.start)
    .ok (st.payloads ++ [p])

end Payloads

/-! ## Freezing a batch -/

section Freezing

variable (rt : Runtime) (cfg : StoreConfig)

/-- `json.dumps([session_id, subpath, entries], sort_keys=True, ...)` -/
def encodeBatch (id : String) (path : Option String) (entries : List Json) : List Char :=
  canonicalText (.arr [.str id, textOrNull path, .arr entries])

def decodeBatch (signature : List Char) : Except StoreError (Json × Json × List Json) :=
  match Json.loads rt.floats signature with
  | some (.arr [id, path, .arr entries]) => .ok (id, path, entries)
  | _ => .error .entryNotJson

/-- The signature of the batch, its entries as they are to be sent, and their sizes. -/
def appendInput (key : SessionKey) (entries : List Json) :
    Except StoreError (List Char × List Json × List Nat) := do
  ensure (entries.all isMapping = true) .entryShapeInvalid
  let id ← sessionId rt.unicode cfg key
  let path ← subpath rt.unicode key
  let encoded := encodeBatch id path entries
  let (_, _, frozen) ← decodeBatch rt encoded
  ensure (∀ entry ∈ frozen, entry.size ≤ maxProviderSessionEntryBytes) .entryTooLarge
  .ok (encoded, frozen, frozen.map Json.size)

end Freezing

/-! ## The adapter -/

structure PendingAppend where
  signature : List Char
  payloads : List Payload
  nextChunk : Nat
  deriving DecidableEq

abbrev CacheKey := String × Option String

structure Adapter where
  loadCache : List (CacheKey × Option (List Json))
  nextSequence : Option Nat
  pendingBatch : Option PendingAppend
  completedSequence : Option Nat
  deriving DecidableEq

def Adapter.new : Adapter := ⟨[], none, none, none⟩

/-- A call has returned, or it awaits the answer to a request. -/
inductive Progress where
  | returned
  | requests (p : Payload)
  deriving DecidableEq

structure LoadReply where
  entries : List Json
  nextSequence : Nat
  deriving DecidableEq

structure ListReply where
  subpaths : List String
  childEntries : Option (List (String × List Json))
  nextSequence : Nat
  deriving DecidableEq

namespace Adapter

/-- `while pending.next_chunk < len(pending.payloads)`, up to the next request or to the end. -/
def resume (a : Adapter) (pending : PendingAppend) : Adapter × Progress :=
  match pending.payloads[pending.nextChunk]? with
  | some p => ({ a with pendingBatch := some pending }, .requests p)
  | none =>
    ({ a with completedSequence := a.nextSequence.map fun n => n - 1, pendingBatch := none },
      .returned)

section Calls

variable (rt : Runtime) (cfg : StoreConfig)

def append (a : Adapter) (key : SessionKey) (entries : List Json) :
    Except StoreError (Adapter × Progress) := do
  let (signature, frozen, entrySizes) ← appendInput rt cfg key entries
  ensure (∀ pending ∈ a.pendingBatch, pending.signature = signature) .appendPending
  if frozen = [] then .ok (a, .returned)
  else
    match a.nextSequence, a.pendingBatch with
    | none, _ => .error .sequenceUninitialized
    | some _, some pending => .ok (a.resume pending)
    | some next, none => do
      let (id, path, _) ← decodeBatch rt signature
      let payloads ← appendChunks rt.unicode cfg (.mapping id path) frozen entrySizes next
      .ok ({ a with loadCache := [] }.resume ⟨signature, payloads, 0⟩)

/-- The reply to an append: the checks of `_request`, then the rest of the loop's body. -/
def appended (a : Adapter) (pending : PendingAppend) (p : Payload) (reply : AppendReply) :
    Except StoreError (Adapter × Progress) := do
  ensure (1 ≤ reply.nextSequence) .responseInvalid
  -- An acknowledgement is taken only for the very entries and sequence that were sent.
  ensure (reply.entryCount = p.entries.length ∧
    (reply.lastSequence : Int) = p.expectedSequence.getD 0 + p.entries.length - 1 ∧
    reply.nextSequence = reply.lastSequence + 1) .appendRejected
  .ok ({ a with nextSequence := some reply.nextSequence, loadCache := [] }.resume
    { pending with nextChunk := pending.nextChunk + 1 })

def load (a : Adapter) (key : SessionKey) : Except StoreError (CacheKey × Progress) := do
  ensure (a.pendingBatch = none) .appendPending
  let id ← sessionId rt.unicode cfg key
  let path ← subpath rt.unicode key
  if (a.loadCache.lookup (id, path)).isSome then .ok ((id, path), .returned)
  else do
    let p ← payload rt.unicode cfg .load key [] none
    .ok ((id, path), .requests p)

def loaded (a : Adapter) (cacheKey : CacheKey) (reply : LoadReply) : Except StoreError Adapter := do
  ensure (1 ≤ reply.nextSequence) .responseInvalid
  ensure (∀ next ∈ a.nextSequence, reply.nextSequence = next) .sequenceConflict
  ensure (reply.entries.all isMapping = true) .responseInvalid
  .ok { a with
    nextSequence := some reply.nextSequence
    completedSequence := some (reply.nextSequence - 1)
    loadCache := (cacheKey, if reply.entries = [] then none else some reply.entries) ::
      a.loadCache }

/-- A listing without a key is of the session the adapter was made for. -/
def listKey (key : Option SessionKey) : Except StoreError SessionKey :=
  match key, cfg.providerSessionId with
  | some key, _ => .ok key
  | none, some id => .ok (.mapping (.str id) .null)
  | none, none => .error .keyInvalid

def listSubkeys (a : Adapter) (key : Option SessionKey) :
    Except StoreError (String × Progress) := do
  ensure (a.pendingBatch = none) .appendPending
  let key ← listKey cfg key
  let id ← sessionId rt.unicode cfg key
  let p ← payload rt.unicode cfg .listSubkeys key [] none
  .ok (id, .requests p)

/-- The view of the children is taken whole or not at all. -/
def checkChildren (a : Adapter) (id : String) (subpaths : List String)
    (children : List (String × List Json)) (nextSequence : Nat) : Bool :=
  let childCount := (children.map fun child => child.2.length).sum
  subpaths.length ≤ maxProviderSessionEntries ∧ subpaths.Nodup ∧
    (∀ path ∈ subpaths, path ∈ children.map Prod.fst) ∧
    (∀ child ∈ children, child.1 ∈ subpaths) ∧
    (∀ path ∈ subpaths, path ≠ "" ∧ strip rt.unicode path = path ∧
      path.length ≤ maxProviderSessionSubpathLength) ∧
    (∀ child ∈ children, child.2 ≠ [] ∧ child.2.all isMapping = true) ∧
    childCount ≤ maxProviderSessionEntries ∧ nextSequence ≤ maxProviderSessionEntries + 1 ∧
    childCount ≤ nextSequence - 1 ∧
    ∀ main ∈ a.loadCache.lookup (id, none), childCount + (main.getD []).length = nextSequence - 1

def listed (a : Adapter) (id : String) (reply : ListReply) : Except StoreError Adapter := do
  ensure (1 ≤ reply.nextSequence) .responseInvalid
  ensure (∀ next ∈ a.nextSequence, reply.nextSequence = next) .sequenceConflict
  ensure (∀ children ∈ reply.childEntries,
    a.checkChildren rt id reply.subpaths children reply.nextSequence = true) .responseInvalid
  .ok { a with
    loadCache := (reply.childEntries.getD []).map (fun child => ((id, some child.1), some child.2))
      ++ a.loadCache
    nextSequence := some reply.nextSequence
    completedSequence := some (reply.nextSequence - 1) }

end Calls

end Adapter

/-! ## What is sent -/

section Sent

variable {rt : Runtime} {u : Unicode} {cfg : StoreConfig} {key : SessionKey}

/-- A subpath as the adapter sends it: none, or a text that is not blank, without blanks around. -/
def Trimmed (u : Unicode) (path : Option String) : Prop :=
  ∀ text ∈ path, text ≠ "" ∧ strip u text = text

theorem trimmed_none : Trimmed u none := by
  intro text htext
  contradiction

variable {path : Option String} {entries : List Json} {start : Nat}

theorem trimmed_of_subpath (h : subpath u key = .ok path) :
    Trimmed u path := by
  unfold subpath at h
  split at h
  · exact Except.ok.inj h ▸ trimmed_none
  · exact Except.ok.inj h ▸ trimmed_none
  · split_ifs at h with hempty hblank
    · exact Except.ok.inj h ▸ trimmed_none
    · obtain rfl := Except.ok.inj h
      intro text htext
      obtain rfl := Option.some.inj htext
      exact ⟨hblank, strip_strip _⟩
  · contradiction

theorem subpath_textOrNull (h : Trimmed u path) (id : Json) :
    subpath u (.mapping id (textOrNull path)) = .ok path := by
  cases path with
  | none => rfl
  | some text =>
    obtain ⟨hne, hstrip⟩ := h text rfl
    simp only [textOrNull, subpath, hstrip, hne, if_false]

/-- The host files the entries under the subpath that was sent. -/
theorem Trimmed.requestPath_eq {filed : String} (h : Trimmed rt.unicode path)
    (hfiled : requestPath rt path = .ok filed) :
    filed = path.getD "" := by
  cases path with
  | none => exact (Except.ok.inj hfiled).symm
  | some text =>
    obtain ⟨hne, hstrip⟩ := h text rfl
    simp only [requestPath, normalizeProviderSubpath, hstrip, hne, if_false] at hfiled
    split_ifs at hfiled
    · contradiction
    · exact (Except.ok.inj hfiled).symm

theorem payload_eq_ok {action : StoreAction} {expected : Option Nat} {p : Payload}
    (h : payload u cfg action key entries expected = .ok p) :
    p.action = action ∧ subpath u key = .ok p.subpath ∧ p.expectedSequence = expected ∧
      p.entries = if action = .append then entries else [] := by
  obtain ⟨id, -, h⟩ := bind_eq_ok.mp h
  obtain ⟨-, h⟩ := ensure_bind_eq_ok.mp h
  obtain ⟨path, hpath, h⟩ := bind_eq_ok.mp h
  obtain ⟨-, h⟩ := ensure_bind_eq_ok.mp h
  obtain rfl := Except.ok.inj h
  exact ⟨rfl, hpath, rfl, rfl⟩

/-- The payloads cut these entries into chunks, numbered from `start` on. -/
structure ChunksOf (start : Nat) (path : Option String) (entries : List Json)
    (payloads : List Payload) : Prop where
  entries : payloads.flatMap Payload.entries = entries
  numbered : ∀ j p, payloads[j]? = some p →
    p.expectedSequence = some (start + ((payloads.take j).flatMap Payload.entries).length)
  form : ∀ p ∈ payloads, p.action = .append ∧ p.subpath = path ∧ p.entries ≠ []

theorem chunksOf_nil (start : Nat) (path : Option String) : ChunksOf start path [] [] :=
  ⟨rfl, nofun, nofun⟩

theorem ChunksOf.snoc {chunk : List Json} {payloads : List Payload} {p : Payload}
    (h : ChunksOf start path entries payloads) (hpath : subpath u key = .ok path) (hne : chunk ≠ [])
    (hp : payload u cfg .append key chunk (some (start + entries.length)) = .ok p) :
    ChunksOf start path (entries ++ chunk) (payloads ++ [p]) := by
  obtain ⟨haction, hsubpath, hexpected, hentries⟩ := payload_eq_ok hp
  rw [if_pos rfl] at hentries
  refine ⟨?_, fun j q hq => ?_, fun q hq => ?_⟩
  · rw [flatMap_append, h.entries, flatMap_singleton, hentries]
  · rcases lt_or_ge j payloads.length with hj | hj
    · rw [getElem?_append_left hj] at hq
      rw [List.take_append_of_le_length hj.le]
      exact h.numbered j q hq
    · obtain ⟨hlt, -⟩ := List.getElem?_eq_some_iff.mp hq
      obtain rfl : j = payloads.length := by
        rw [List.length_append, List.length_singleton] at hlt
        omega
      rw [getElem?_concat_length] at hq
      obtain rfl := Option.some.inj hq
      rw [take_left, h.entries, hexpected]
  · rcases mem_append.mp hq with hq | hq
    · exact h.form q hq
    · obtain rfl := mem_singleton.mp hq
      exact ⟨haction, Except.ok.inj (hsubpath.symm.trans hpath), hentries ▸ hne⟩

/-- What the loop has taken in is in the payloads or in the open chunk. -/
structure ChunkState.Holds (start : Nat) (path : Option String) (taken : List Json)
    (st : ChunkState) : Prop where
  chunks : ∃ done, ChunksOf start path done st.payloads ∧ st.start = start + done.length ∧
    done ++ st.chunk = taken

section

variable {taken : List Json} {st next : ChunkState}
  (h : st.Holds start path taken) (hpath : subpath u key = .ok path)
include h hpath

theorem ChunkState.Holds.flush {entryBytes : Nat}
    (hnext : st.flush u cfg key entryBytes = .ok next) : next.Holds start path taken := by
  obtain ⟨done, hchunks, hstart, rfl⟩ := h.chunks
  unfold ChunkState.flush at hnext
  split_ifs at hnext with hfull
  · obtain ⟨p, hp, hnext⟩ := bind_eq_ok.mp hnext
    obtain rfl := Except.ok.inj hnext
    rw [hstart] at hp
    refine ⟨_, hchunks.snoc hpath hfull.1 hp, ?_, append_nil _⟩
    rw [length_append, hstart, Nat.add_assoc]
  · obtain rfl := Except.ok.inj hnext
    exact ⟨done, hchunks, hstart, rfl⟩

theorem ChunkState.Holds.add {entry : Json × Nat}
    (hnext : st.add u cfg key entry = .ok next) : next.Holds start path (taken ++ [entry.1]) := by
  obtain ⟨flushed, hflushed, hnext⟩ := bind_eq_ok.mp hnext
  obtain ⟨chunkBytes, -, hnext⟩ := bind_eq_ok.mp hnext
  obtain ⟨-, hnext⟩ := ensure_bind_eq_ok.mp hnext
  obtain rfl := Except.ok.inj hnext
  obtain ⟨done, hchunks, hstart, rfl⟩ := (h.flush hpath hflushed).chunks
  exact ⟨done, hchunks, hstart, (append_assoc ..).symm⟩

theorem ChunkState.Holds.foldlM {entries : List (Json × Nat)}
    (hnext : entries.foldlM (ChunkState.add u cfg key) st = .ok next) :
    next.Holds start path (taken ++ entries.map Prod.fst) := by
  induction entries generalizing st taken with
  | nil =>
    obtain rfl := Except.ok.inj hnext
    rw [map_nil, append_nil]
    exact h
  | cons entry entries ih =>
    rw [foldlM_cons] at hnext
    obtain ⟨middle, hmiddle, hnext⟩ := bind_eq_ok.mp hnext
    rw [map_cons, ← singleton_append, ← append_assoc]
    exact ih (h.add hpath hmiddle) hnext

end

theorem chunksOf_appendChunks {sizes : List Nat} {payloads : List Payload}
    (hpath : subpath u key = .ok path) (hsizes : sizes.length = entries.length)
    (h : appendChunks u cfg key entries sizes start = .ok payloads) :
    ChunksOf start path entries payloads := by
  obtain ⟨st, hst, h⟩ := bind_eq_ok.mp h
  have hstart : (⟨[], start, [], 0⟩ : ChunkState).Holds start path [] :=
    ⟨[], chunksOf_nil start path, rfl, rfl⟩
  obtain ⟨done, hchunks, hnext, htaken⟩ := (hstart.foldlM hpath hst).chunks
  rw [nil_append, map_fst_zip hsizes.ge] at htaken
  split_ifs at h with hempty
  · obtain rfl := Except.ok.inj h
    rw [hempty, append_nil] at htaken
    exact htaken ▸ hchunks
  · obtain ⟨p, hp, h⟩ := bind_eq_ok.mp h
    obtain rfl := Except.ok.inj h
    rw [hnext] at hp
    exact htaken ▸ hchunks.snoc hpath hempty hp

theorem decodeBatch_encodeBatch (id : String) (path : Option String)
    (hproper : ∀ entry ∈ entries, entry.Proper rt.floats) :
    decodeBatch rt (encodeBatch id path entries) =
      .ok (.str id, textOrNull path, entries.map Json.canonical) := by
  have hpath : (textOrNull path).Proper rt.floats := by cases path <;> exact trivial
  have hbatch : (Json.arr [.str id, textOrNull path, .arr entries]).Proper rt.floats := by
    refine Json.proper_arr.mpr ?_
    simp only [forall_mem_cons]
    exact ⟨trivial, hpath, Json.proper_arr.mpr hproper, nofun⟩
  have hcanonical : Json.canonical (.arr [.str id, textOrNull path, .arr entries]) =
      .arr [.str id, textOrNull path, .arr (entries.map Json.canonical)] := by
    have hsame : Json.canonical (textOrNull path) = textOrNull path := by cases path <;> rfl
    simp only [Json.canonical_arr, map_cons, map_nil, Json.canonical_str, hsame]
  rw [decodeBatch, encodeBatch, canonicalText, Json.loads_dumps hbatch.canonical, hcanonical]

theorem appendInput_eq_ok {frozen : List Json} {signature : List Char} {sizes : List Nat}
    (hproper : ∀ entry ∈ entries, entry.Proper rt.floats)
    (h : appendInput rt cfg key entries = .ok (signature, frozen, sizes)) :
    ∃ id path, subpath rt.unicode key = .ok path ∧ signature = encodeBatch id path entries ∧
      frozen = entries.map Json.canonical ∧ sizes.length = frozen.length := by
  obtain ⟨-, h⟩ := ensure_bind_eq_ok.mp h
  obtain ⟨id, -, h⟩ := bind_eq_ok.mp h
  obtain ⟨path, hpath, h⟩ := bind_eq_ok.mp h
  obtain ⟨decoded, hdecoded, h⟩ := bind_eq_ok.mp h
  rw [decodeBatch_encodeBatch id path hproper] at hdecoded
  obtain rfl := Except.ok.inj hdecoded
  obtain ⟨-, h⟩ := ensure_bind_eq_ok.mp h
  obtain ⟨rfl, rfl, rfl⟩ := by simpa using h
  exact ⟨id, path, hpath, rfl, rfl, by simp⟩

end Sent

end AiPlatform.Execution
