import AiPlatform.Foundation.Keyspace
import AiPlatform.Kernel.Identifiers

/-!
# The queue's keys in Redis

One field of `Store` per Redis key of `QueueKeys`. A queued or processing entry is the JSON text
of a validated payload; since that text is a function of the payload and determines it, the entry
is the payload itself, with the fields the scripts decode spelled out and every other field in
`body`. Hash values are JSON texts too: `Encoded.table` is the encoding of an object or array,
`Encoded.text` any other string, so the branches of the scripts that meet an undecodable value
are present. Times are microseconds.
-/
namespace AiPlatform.Queue

open AiPlatform.Foundation AiPlatform.Kernel

abbrev Time := Int

def seconds (n : Int) : Time := n * 1000000

/-- A dumped `QueueRunPayload`. -/
structure RunPayload where
  tenantId : String
  workspaceId : String
  userId : String
  runId : String
  body : String
  deriving DecidableEq, Repr

/-- What the queue takes from its surroundings: the payload hash, the pydantic checks on the fields
in `body`, the values `secrets.token_hex` returns, the precision of a number that Lua writes as
text, and the configured fence prefix. -/
structure Environment where
  messageIdForRaw : RunPayload → String
  messageIdForRaw_injective : Function.Injective messageIdForRaw
  messageIdForRaw_ne_empty : ∀ raw, messageIdForRaw raw ≠ ""
  validBody : String → Bool
  acceptsRaw : RunPayload → Bool
  tokenHex : Nat → String
  tokenHex_injective : Function.Injective tokenHex
  numberText : Time → Time
  reconciliationFencePrefix : String

/-- A text preceded by its length in unary, so that a concatenation of such codes can be split. -/
def delimited (s : String) : List Char := List.replicate s.toList.length '1' ++ '0' :: s.toList

theorem delimited_append_inj {a b : String} {x y : List Char}
    (h : delimited a ++ x = delimited b ++ y) : a = b ∧ x = y := by
  have hcount : ∀ (n m : Nat) (u v : List Char),
      List.replicate n '1' ++ '0' :: u = List.replicate m '1' ++ '0' :: v → n = m ∧ u = v := by
    intro n
    induction n with
    | zero =>
      intro m u v h
      cases m <;> simp_all [List.replicate_succ]
    | succ n ih =>
      intro m u v h
      cases m with
      | zero => simp [List.replicate_succ] at h
      | succ m =>
        have := ih m u v (by simpa [List.replicate_succ] using h)
        exact ⟨by omega, this.2⟩
  simp only [delimited, List.append_assoc, List.cons_append] at h
  obtain ⟨hlen, htail⟩ := hcount _ _ _ _ h
  obtain ⟨hab, hxy⟩ := List.append_inj htail hlen
  exact ⟨String.toList_inj.mp hab, hxy⟩

def RunPayload.code (p : RunPayload) : List Char :=
  delimited p.tenantId ++ (delimited p.workspaceId ++ (delimited p.userId ++
    (delimited p.runId ++ (delimited p.body ++ []))))

theorem RunPayload.code_injective : Function.Injective RunPayload.code := by
  rintro ⟨t, w, u, r, b⟩ ⟨t', w', u', r', b'⟩ h
  obtain ⟨rfl, h⟩ := delimited_append_inj h
  obtain ⟨rfl, h⟩ := delimited_append_inj h
  obtain ⟨rfl, h⟩ := delimited_append_inj h
  obtain ⟨rfl, h⟩ := delimited_append_inj h
  obtain ⟨rfl, -⟩ := delimited_append_inj h
  rfl

/-- An environment with readable codes in place of hashes and secrets, and exact numbers. -/
def Environment.plain : Environment where
  messageIdForRaw p := String.ofList p.code
  messageIdForRaw_injective _ _ h := RunPayload.code_injective (String.ofList_injective h)
  messageIdForRaw_ne_empty p h := by
    have hl := congrArg (fun s => s.toList.length) h
    simp [RunPayload.code, delimited] at hl
  validBody _ := true
  acceptsRaw _ := true
  tokenHex n := String.ofList (List.replicate n 'a')
  tokenHex_injective n m h := by
    have hl := congrArg List.length (String.ofList_injective h)
    simpa using hl
  numberText t := t
  reconciliationFencePrefix := "ai-platform:runs:reconciliation-fence"

/-- `QueueRunPayload.validate_ids` on the ids the queue uses. -/
def RunPayload.validIds (p : RunPayload) : Bool :=
  safeId p.tenantId && safeId p.workspaceId && safePrincipalUserId p.userId && safeId p.runId

def RunPayload.IsFor (p : RunPayload) (tenantId runId : String) : Prop :=
  p.tenantId = tenantId ∧ p.runId = runId

instance (p : RunPayload) (tenantId runId : String) : Decidable (p.IsFor tenantId runId) :=
  inferInstanceAs (Decidable (_ ∧ _))

def queuedRunIndexField (tenantId runId : String) : String := tenantId ++ ":" ++ runId

def RunPayload.indexField (p : RunPayload) : String := queuedRunIndexField p.tenantId p.runId

def reconciliationFenceKey (env : Environment) (tenantId runId : String) : String :=
  env.reconciliationFencePrefix ++ ":" ++ queuedRunIndexField tenantId runId

def RunPayload.fenceKey (env : Environment) (p : RunPayload) : String :=
  reconciliationFenceKey env p.tenantId p.runId

/-- The string stored for a hash field. -/
inductive Encoded (α : Type) where
  | table (value : α)
  | text (value : String)
  deriving DecidableEq, Repr

/-- A row of `queued-meta`. -/
structure QueuedMeta where
  runId : String
  tenantId : String
  workspaceId : String
  userId : String
  enqueuedAt : Time
  sequence : Option Nat
  raw : Option RunPayload
  deriving DecidableEq, Repr

/-- A row of `processing-meta` or `retry-meta`. A text field that is absent is the empty text,
which is what every reader puts in its place. -/
structure LeaseMeta where
  messageId : String
  raw : Option RunPayload
  attempts : Option Int
  leasedAt : Option Time
  heartbeatAt : Option Time
  workerId : String
  attemptId : String
  leaseProtocolVersion : Option Nat
  ownerToken : String
  ownerTokenV2 : String
  runId : String
  tenantId : String
  userId : String
  requeuedAt : Option Time
  deriving DecidableEq, Repr

structure DeadLetter where
  errorCode : String
  errorMessage : String
  attempts : Option Int
  workerId : Option String
  raw : RunPayload
  createdAt : Time
  deriving DecidableEq, Repr

/-- A fence key's value and the time to live it was last given. -/
structure Fence where
  ownerToken : String
  ttlMs : Int
  deriving DecidableEq, Repr

structure Store where
  queued : List RunPayload
  processing : List RunPayload
  processingMeta : Hash String (Encoded LeaseMeta)
  retryMeta : Hash String (Encoded LeaseMeta)
  deadLetter : List DeadLetter
  workerHeartbeat : Hash String Time
  queuedMeta : Hash String (Encoded QueuedMeta)
  queuedRunIndex : Hash String (Encoded (List String))
  queuedOrder : SortedSet
  queuedSequence : Nat
  fences : Hash String Fence

def Store.empty : Store where
  queued := []
  processing := []
  processingMeta := ∅
  retryMeta := ∅
  deadLetter := []
  workerHeartbeat := ∅
  queuedMeta := ∅
  queuedRunIndex := ∅
  queuedOrder := ∅
  queuedSequence := 0
  fences := ∅

/-- `lease_owner_token`: protocol 2 keeps the token under its own name. -/
def LeaseMeta.leaseOwnerToken (m : LeaseMeta) : String :=
  if m.leaseProtocolVersion = some 2 then m.ownerTokenV2 else m.ownerToken

/-- The metadata names this message, this attempt and this owner. -/
def LeaseMeta.IsLease (m : LeaseMeta) (messageId attemptId ownerToken : String) : Prop :=
  m.messageId = messageId ∧ m.attemptId = attemptId ∧ m.leaseOwnerToken = ownerToken

instance (m : LeaseMeta) (messageId attemptId ownerToken : String) :
    Decidable (m.IsLease messageId attemptId ownerToken) :=
  inferInstanceAs (Decidable (_ ∧ _ ∧ _))

/-- What is read back after Lua encodes the metadata: numbers keep the precision of their text. -/
def LeaseMeta.encoded (env : Environment) (m : LeaseMeta) : LeaseMeta :=
  { m with
    leasedAt := m.leasedAt.map env.numberText
    heartbeatAt := m.heartbeatAt.map env.numberText
    requeuedAt := m.requeuedAt.map env.numberText }

section

variable (env : Environment) (m : LeaseMeta)
include env m

@[simp] theorem LeaseMeta.encoded_messageId :
    (m.encoded env).messageId = m.messageId := rfl
@[simp] theorem LeaseMeta.encoded_raw :
    (m.encoded env).raw = m.raw := rfl
@[simp] theorem LeaseMeta.encoded_attempts :
    (m.encoded env).attempts = m.attempts := rfl
@[simp] theorem LeaseMeta.encoded_attemptId :
    (m.encoded env).attemptId = m.attemptId := rfl
@[simp] theorem LeaseMeta.encoded_leaseOwnerToken :
    (m.encoded env).leaseOwnerToken = m.leaseOwnerToken := rfl
@[simp] theorem LeaseMeta.encoded_tenantId :
    (m.encoded env).tenantId = m.tenantId := rfl
@[simp] theorem LeaseMeta.encoded_runId :
    (m.encoded env).runId = m.runId := rfl

end

theorem queuedRunIndexField_inj {t r t' r' : String} (ht : ':' ∉ t.toList) (hr : ':' ∉ r.toList)
    (h : queuedRunIndexField t r = queuedRunIndexField t' r') : t = t' ∧ r = r' :=
  append_separator_inj ht hr h

theorem reconciliationFenceKey_inj (env : Environment) {t r t' r' : String} :
    reconciliationFenceKey env t r = reconciliationFenceKey env t' r' ↔
      queuedRunIndexField t r = queuedRunIndexField t' r' := by
  constructor
  · intro h
    have hl := congrArg String.toList h
    simp only [reconciliationFenceKey, String.toList_append] at hl
    exact String.toList_inj.mp (List.append_cancel_left hl)
  · intro h
    simp [reconciliationFenceKey, h]

end AiPlatform.Queue
