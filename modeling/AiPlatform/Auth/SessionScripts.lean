import AiPlatform.Foundation.ScriptStore
import AiPlatform.Foundation.Outcome

/-!
# The scripts of browser contexts

A browser authority is two keys: the authority record, which names the generation and the context
handle that are current, and the context record, which carries the principal and the operation
under way. Each script runs atomically on the server; a refusal writes nothing.
-/
namespace AiPlatform.Auth

open AiPlatform.Foundation

inductive Key where
  | authority (incarnationDigest : String)
  | context (contextHandle : String)
  | oauthState (state : String)
  | credential (name : String)
  deriving DecidableEq

/-- What a key holds: a JSON text, or a text that does not decode. -/
inductive Raw where
  | json (value : Value)
  | text (content : String)
  deriving DecidableEq

abbrev Redis : Type := ExpiringStore Key Raw

/-! ## Replies -/

inductive Refusal where
  | corrupt
  | stale
  | missing
  | generationGap
  | generationConflict
  | migrationConflict
  | invalidTicket
  | refreshBusy
  | superseded
  | expired
  deriving DecidableEq

structure Grant where
  principal : Value
  subjectEpoch : ℚ
  operationEpoch : ℚ
  successfulRefreshEpoch : ℚ
  expiresAt : ℕ
  deriving DecidableEq

inductive Reply where
  | created (ttl : ℕ)
  | migrated (ttl : ℕ)
  | existing (ttl : ℕ)
  | repair (ttl : ℕ)
  | rebootstrapRequired
  | rotated (generation ttl : ℕ)
  | reconciled
  | targetRepaired (ttl : ℕ)
  | authorityBase
  | issued
  | principal (grant : Grant)
  | begun (grant : Grant)
  | committed (subjectEpoch : ℚ)
  | stored
  | consumed (operationEpoch : ℚ) (operationToken : String)
  | invalid
  deriving DecidableEq

abbrev Script : Type := Except Refusal (Reply × Redis)

/-! ## Helpers shared by the scripts -/

def maxEpoch : ℕ := 9007199254740991

def isEpoch (q : ℚ) : Prop := 0 ≤ q ∧ q ≤ maxEpoch ∧ q = ⌊q⌋

instance (q : ℚ) : Decidable (isEpoch q) := inferInstanceAs (Decidable (_ ∧ _ ∧ _))

theorem isEpoch_iff (q : ℚ) : isEpoch q ↔ ∃ n : ℕ, q = n ∧ n ≤ maxEpoch := by
  constructor
  · rintro ⟨hnonneg, hle, hint⟩
    have hfloor : 0 ≤ ⌊q⌋ := Int.floor_nonneg.mpr hnonneg
    obtain ⟨n, hn⟩ := Int.eq_ofNat_of_zero_le hfloor
    have hq : q = n := by rw [hint, hn]; simp
    exact ⟨n, hq, by rw [hq] at hle; exact_mod_cast hle⟩
  · rintro ⟨n, rfl, hn⟩
    exact ⟨by positivity, by exact_mod_cast hn, by simp⟩

/-- `epoch(record[key])`. -/
def epoch : Option Value → Bool
  | some (.number q) => decide (isEpoch q)
  | _ => false

theorem epoch_iff (v : Option Value) :
    epoch v = true ↔ ∃ n : ℕ, v = some (.number n) ∧ n ≤ maxEpoch := by
  rcases v with _ | v
  · simp [epoch]
  · cases v <;> simp [epoch, isEpoch_iff]

/-- `finite(value) and value >= 0`. -/
def nonnegative : Option Value → Bool
  | some (.number q) => decide (0 ≤ q)
  | _ => false

theorem nonnegative_iff (v : Option Value) :
    nonnegative v = true ↔ ∃ q : ℚ, v = some (.number q) ∧ 0 ≤ q := by
  rcases v with _ | v
  · simp [nonnegative]
  · cases v <;> simp [nonnegative]

/-- The fields that both versions of a context record carry. -/
def validOperation (record : Value) : Bool :=
  Value.isString (record.get "nonce_binding") && epoch (record.get "operation_epoch") &&
  epoch (record.get "tenant_user_subject_epoch") && Value.isString (record.get "operation_token") &&
  Value.isString (record.get "operation_kind") && nonnegative (record.get "lease_until") &&
  (record.get "principal" == some .null || Value.isTable (record.get "principal"))

def validV1 (record : Value) : Bool :=
  record.get "schema_version" == some (.number 1) && validOperation record

def validV2 (record : Value) : Bool :=
  record.get "schema_version" == some (.number 2) &&
  record.get "protocol_version" == some (.number 2) &&
  Value.isString (record.get "incarnation_digest") && epoch (record.get "generation") &&
  decide (1 ≤ record.num "generation") &&
  (record.get "successful_refresh_epoch" == none ||
    (epoch (record.get "successful_refresh_epoch") &&
      decide (record.num "successful_refresh_epoch" ≤ record.num "operation_epoch"))) &&
  validOperation record

def ticketAbsent (record : Value) : Bool :=
  record.get "rotation_ticket_digest" == none && record.get "rotation_ticket_generation" == none &&
  record.get "rotation_ticket_deadline" == none

def ticketValid (record : Value) : Bool :=
  Value.isString (record.get "rotation_ticket_digest") &&
  epoch (record.get "rotation_ticket_generation") &&
  decide (1 ≤ record.num "rotation_ticket_generation") &&
  record.get "rotation_ticket_generation" == record.get "generation" &&
  nonnegative (record.get "rotation_ticket_deadline")

def validAuthority (record : Value) : Bool :=
  record.get "schema_version" == some (.number 2) &&
  Value.isString (record.get "incarnation_digest") && epoch (record.get "generation") &&
  decide (1 ≤ record.num "generation") && Value.isString (record.get "context_handle") &&
  (ticketAbsent record || ticketValid record)

inductive Decoded where
  | missing
  | invalid
  | record (value : Value)

/-- `decode(redis.call("GET", key))`: a text that decodes to `false` looks like one that does not
decode. -/
def decode : Option Raw → Decoded
  | none => .missing
  | some (.text _) => .invalid
  | some (.json (.bool false)) => .invalid
  | some (.json value) => .record value.recode

structure Identity where
  incarnationDigest : String
  generation : ℕ
  contextHandle : String
  deriving DecidableEq

namespace Identity

variable (id : Identity)

def authorityKey : Key := .authority id.incarnationDigest

def contextKey : Key := .context id.contextHandle

/-- The checks of the identity arguments that most scripts start with. -/
def Accepted : Prop :=
  id.incarnationDigest ≠ "" ∧ 1 ≤ id.generation ∧ id.generation ≤ maxEpoch ∧ id.contextHandle ≠ ""

instance : Decidable id.Accepted := inferInstanceAs (Decidable (_ ∧ _ ∧ _ ∧ _))

end Identity

def sameAuthority (authority context : Value) (id : Identity) : Bool :=
  validAuthority authority && validV2 context &&
  authority.get "incarnation_digest" == some (.str id.incarnationDigest) &&
  authority.get "generation" == some (.number id.generation) &&
  authority.get "context_handle" == some (.str id.contextHandle) &&
  context.get "incarnation_digest" == some (.str id.incarnationDigest) &&
  context.get "generation" == some (.number id.generation)

def pristine (record : Value) : Bool :=
  record.get "principal" == some .null &&
  record.get "tenant_user_subject_epoch" == some (.number 0) &&
  record.get "operation_epoch" == some (.number 0) &&
  record.get "operation_token" == some (.str "") &&
  record.get "operation_kind" == some (.str "") && record.get "lease_until" == some (.number 0)

namespace Redis

variable (r : Redis)

/-- What a key decodes to, if it decodes to anything. -/
def record (key : Key) : Option Value :=
  match decode (r.get key) with
  | .record value => some value
  | _ => none

def ttlConsistent (authorityKey contextKey : Key) : Option ℕ :=
  match r.remaining authorityKey, r.remaining contextKey with
  | some a, some c => if 1000 < a - c ∨ 1000 < c - a then none else some (min a c)
  | _, _ => none

def grantExpiresAt (authorityKey contextKey : Key) : ℕ :=
  min ((r.expireTime authorityKey).getD 0) ((r.expireTime contextKey).getD 0) / 1000

/-- Both records, valid, alive and naming exactly this identity. -/
def current (id : Identity) : Option (Value × Value × ℕ) :=
  match r.record id.authorityKey, r.record id.contextKey,
    r.ttlConsistent id.authorityKey id.contextKey with
  | some authority, some context, some ttl =>
    if sameAuthority authority context id then some (authority, context, ttl) else none
  | _, _, _ => none

end Redis

/-- `if not value then return refusal end`. -/
def orRefuse {α : Type} (value : Option α) (refusal : Refusal) : Except Refusal α :=
  match value with
  | some a => .ok a
  | none => .error refusal

/-! ## Establishing, migrating and confirming a context -/

inductive CookieKind where
  | none
  | v1Matching
  | v1Conflict
  | v2
  | invalid
  deriving DecidableEq

structure BootstrapArgs where
  id : Identity
  nonceBinding : String
  ttlSeconds : ℕ
  cookieKind : CookieKind
  cookie : Identity
  ticketDigest : String
  ticketSeconds : ℕ
  recoveryOnly : Bool

def anonymousRecord (nonceBinding : String) : Value :=
  .obj [("schema_version", .number 1), ("nonce_binding", .str nonceBinding), ("principal", .null),
    ("tenant_user_subject_epoch", .number 0), ("operation_epoch", .number 0),
    ("operation_token", .str ""), ("operation_kind", .str ""), ("lease_until", .number 0)]

def authorityRecord (id : Identity) : Value :=
  .obj [("schema_version", .number 2), ("incarnation_digest", .str id.incarnationDigest),
    ("generation", .number id.generation), ("context_handle", .str id.contextHandle)]

/-- The record of version 1 with the fields of version 2 written over it. -/
def migratedRecord (existing : Value) (id : Identity) : Value :=
  (((existing.set "schema_version" (.number 2)).set "protocol_version" (.number 2)).set
    "incarnation_digest" (.str id.incarnationDigest)).set "generation" (.number id.generation)

def withTicket (authority : Value) (ticketDigest : String) (generation : ℕ)
    (deadline : ℚ) : Value :=
  ((authority.set "rotation_ticket_digest" (.str ticketDigest)).set
    "rotation_ticket_generation" (.number generation)).set
    "rotation_ticket_deadline" (.number deadline)

/-- Whole seconds of `TIME`, plus the lifetime of a ticket. -/
def ticketDeadline (r : Redis) (ticketSeconds : ℕ) : ℚ := (r.clock / 1000000 : ℕ) + ticketSeconds

/-- The record to migrate and its lifetime: the one of version 1 that is there, or a new one. -/
def existingContext (r : Redis) (args : BootstrapArgs) : Except Refusal (Value × ℕ) :=
  match decode (r.get args.id.contextKey) with
  | .invalid => .error .corrupt
  | .missing => .ok (anonymousRecord args.nonceBinding, args.ttlSeconds * 1000)
  | .record existing => do
    ensure (validV1 existing = true ∧
      existing.get "nonce_binding" = some (.str args.nonceBinding)) .stale
    ensure (args.cookieKind = .v1Matching ∨ pristine existing = true) .migrationConflict
    let ttl ← orRefuse (r.remaining args.id.contextKey) .missing
    .ok (existing, ttl)

def establish (r : Redis) (args : BootstrapArgs) : Script := do
  -- login recovery never creates or migrates state
  ensure (args.recoveryOnly = false) .missing
  ensure (args.cookieKind ≠ .v2 ∧ args.cookieKind ≠ .v1Conflict ∧ args.cookieKind ≠ .invalid) .stale
  ensure (args.id.generation = 1) .generationGap
  let (existing, ttl) ← existingContext r args
  .ok (if existing.get "principal" = some .null then .created ttl else .migrated ttl,
    (r.put args.id.contextKey (.json (migratedRecord existing args.id)) ttl).put
      args.id.authorityKey (.json (authorityRecord args.id)) ttl)

def BootstrapArgs.currentCookie (args : BootstrapArgs) (contextHandle : Option Value) : Prop :=
  args.cookieKind = .v2 ∧ args.cookie.incarnationDigest = args.id.incarnationDigest ∧
    args.cookie.generation = args.id.generation ∧
    some (Value.str args.cookie.contextHandle) = contextHandle

instance (args : BootstrapArgs) (contextHandle : Option Value) :
    Decidable (args.currentCookie contextHandle) := inferInstanceAs (Decidable (_ ∧ _ ∧ _ ∧ _))

/-- The context of the authority is another one: only its own cookie may ask for a ticket. -/
def offerRotation (r : Redis) (args : BootstrapArgs) (authority : Value) (ttl : ℕ) : Script := do
  ensure (args.currentCookie (authority.get "context_handle") ∧ args.ticketDigest ≠ "" ∧
    1 ≤ args.ticketSeconds ∧ args.ticketSeconds ≤ maxEpoch) .generationConflict
  .ok (.rebootstrapRequired, r.put args.id.authorityKey (.json (withTicket authority
    args.ticketDigest args.id.generation (ticketDeadline r args.ticketSeconds))) ttl)

def confirmContext (r : Redis) (args : BootstrapArgs) (authority context : Value) (ttl : ℕ) :
    Script := do
  ensure (sameAuthority authority context args.id = true ∧
    context.get "nonce_binding" = some (.str args.nonceBinding)) .stale
  .ok (if args.currentCookie (some (.str args.id.contextHandle)) then .existing ttl
    else .repair ttl, r)

def confirm (r : Redis) (args : BootstrapArgs) (authority : Value) : Script := do
  ensure (validAuthority authority = true) .corrupt
  let context ← orRefuse (r.record args.id.contextKey) .generationConflict
  ensure (validV2 context = true) .corrupt
  let ttl ← orRefuse (r.ttlConsistent args.id.authorityKey args.id.contextKey) .stale
  ensure (authority.get "incarnation_digest" = some (.str args.id.incarnationDigest)) .stale
  ensure (authority.num "generation" ≤ args.id.generation) .stale
  ensure (args.id.generation ≤ authority.num "generation") .generationGap
  if authority.get "context_handle" = some (.str args.id.contextHandle) then
    confirmContext r args authority context ttl
  else offerRotation r args authority ttl

def bootstrapScript (r : Redis) (args : BootstrapArgs) : Script := do
  ensure (args.id.Accepted ∧ args.nonceBinding ≠ "" ∧ 1 ≤ args.ttlSeconds ∧
    args.ttlSeconds ≤ maxEpoch) .corrupt
  match decode (r.get args.id.authorityKey) with
  | .invalid => .error .corrupt
  | .missing => establish r args
  | .record authority => confirm r args authority

/-! ## Rotation -/

structure RotateArgs where
  id : Identity
  newContextHandle : String
  nonceBinding : String
  ttlSeconds : ℕ
  ticketDigest : String

def RotateArgs.target (args : RotateArgs) : Identity :=
  ⟨args.id.incarnationDigest, args.id.generation + 1, args.newContextHandle⟩

def rotatedRecord (id : Identity) (nonceBinding : String) : Value :=
  .obj [("schema_version", .number 2), ("protocol_version", .number 2),
    ("incarnation_digest", .str id.incarnationDigest), ("generation", .number id.generation),
    ("nonce_binding", .str nonceBinding), ("principal", .null),
    ("tenant_user_subject_epoch", .number 0), ("operation_epoch", .number 0),
    ("operation_token", .str ""), ("operation_kind", .str ""), ("lease_until", .number 0)]

/-- The ticket that the authority holds is this one and its deadline has not passed. -/
def ticketMatches (r : Redis) (authority : Value) (args : RotateArgs) : Prop :=
  authority.get "rotation_ticket_digest" = some (.str args.ticketDigest) ∧
  authority.get "rotation_ticket_generation" = some (.number args.id.generation) ∧
  Value.isNumber (authority.get "rotation_ticket_deadline") = true ∧
  r.time ≤ authority.num "rotation_ticket_deadline"

instance (r : Redis) (authority : Value) (args : RotateArgs) :
    Decidable (ticketMatches r authority args) := inferInstanceAs (Decidable (_ ∧ _ ∧ _ ∧ _))

def rotateScript (r : Redis) (args : RotateArgs) : Script := do
  ensure (args.id.contextHandle ≠ args.newContextHandle ∧ args.id.Accepted ∧
    args.newContextHandle ≠ "" ∧ args.nonceBinding ≠ "" ∧ 1 ≤ args.ttlSeconds ∧
    args.ttlSeconds ≤ maxEpoch ∧ args.ticketDigest ≠ "") .corrupt
  let (authority, _, ttl) ← orRefuse (r.current args.id) .stale
  ensure (ticketMatches r authority args) .invalidTicket
  ensure (r.get args.target.contextKey = none) .generationConflict
  ensure (args.target.generation ≤ maxEpoch) .corrupt
  -- a rotation fences, it never renews: the remaining lifetime is kept
  .ok (.rotated args.target.generation ttl,
    (r.put args.target.contextKey (.json (rotatedRecord args.target args.nonceBinding)) ttl).put
      args.target.authorityKey (.json (authorityRecord args.target)) ttl)

def reconcileScript (r : Redis) (id : Identity) : Script := do
  ensure id.Accepted .corrupt
  let _ ← orRefuse (r.current id) .stale
  .ok (.reconciled, r)

/-- The context that a lost response left behind: it must be the successor of the base. -/
def repairTarget (r : Redis) (authority target : Value) (id : Identity) : Script := do
  let ttl ← orRefuse (r.ttlConsistent id.authorityKey id.contextKey) .stale
  ensure (sameAuthority authority target id = true) .stale
  .ok (.targetRepaired ttl, r)

/-- Nothing was rotated yet: the authority still names the base. -/
def confirmBase (r : Redis) (base : Identity) : Script := do
  let _ ← orRefuse (r.current base) .stale
  .ok (.authorityBase, r)

def repairScript (r : Redis) (base : Identity) (targetGeneration : ℕ)
    (targetContextHandle : String) :
    Script := do
  let target : Identity := ⟨base.incarnationDigest, targetGeneration, targetContextHandle⟩
  ensure (base.contextHandle ≠ target.contextHandle ∧ base.Accepted ∧
    target.generation ≤ maxEpoch ∧ target.generation = base.generation + 1 ∧
    target.contextHandle ≠ "") .corrupt
  let authority ← orRefuse (r.record base.authorityKey) .stale
  let old ← orRefuse (r.record base.contextKey) .stale
  ensure (validAuthority authority = true ∧ validV2 old = true ∧
    old.get "incarnation_digest" = some (.str base.incarnationDigest) ∧
    old.get "generation" = some (.number base.generation)) .stale
  match decode (r.get target.contextKey) with
  | .invalid => .error .stale
  | .record context => repairTarget r authority context target
  | .missing => confirmBase r base

def issueTicketScript (r : Redis) (id : Identity) (ticketDigest : String) (ticketSeconds : ℕ) :
    Script := do
  ensure (id.Accepted ∧ ticketDigest ≠ "" ∧ 1 ≤ ticketSeconds ∧ ticketSeconds ≤ maxEpoch) .corrupt
  let (authority, _, ttl) ← orRefuse (r.current id) .stale
  .ok (.issued, r.put id.authorityKey
    (.json (withTicket authority ticketDigest id.generation (ticketDeadline r ticketSeconds))) ttl)

/-! ## Reading and operations -/

def grant (r : Redis) (id : Identity) (context : Value) : Grant where
  principal := (context.get "principal").getD .null
  subjectEpoch := context.num "tenant_user_subject_epoch"
  operationEpoch := context.num "operation_epoch"
  successfulRefreshEpoch := context.num "successful_refresh_epoch"
  expiresAt := r.grantExpiresAt id.authorityKey id.contextKey

def principalScript (r : Redis) (id : Identity) : Script := do
  let (_, context, _) ← orRefuse (r.current id) .stale
  .ok (.principal (grant r id context), r)

def refreshKind : String := "refresh"

/-- What a begun operation leaves in the context. -/
def begunRecord (context : Value) (operationToken operationKind : String)
    (leaseUntil : ℚ) : Value :=
  -- a login or logout fences the completion evidence of the authority before it
  let fenced := if operationKind = refreshKind then context
    else context.set "successful_refresh_epoch" (.number 0)
  (((fenced.set "operation_epoch" (.number (context.num "operation_epoch" + 1))).set
    "operation_token" (.str operationToken)).set "operation_kind" (.str operationKind)).set
    "lease_until" (.number leaseUntil)

def beginScript (r : Redis) (id : Identity) (leaseSeconds : ℕ)
    (operationToken operationKind : String) : Script := do
  ensure (id.Accepted ∧ 1 ≤ leaseSeconds ∧ leaseSeconds ≤ maxEpoch ∧ operationToken ≠ "" ∧
    operationKind ≠ "") .corrupt
  let (_, context, _) ← orRefuse (r.current id) .stale
  ensure (context.num "operation_epoch" < maxEpoch) .corrupt
  ensure (operationKind = refreshKind → context.get "principal" ≠ some .null) .missing
  ensure (operationKind = refreshKind → context.num "lease_until" ≤ r.time) .refreshBusy
  let ttl ← orRefuse (r.remaining id.contextKey) .missing
  let begun := begunRecord context operationToken operationKind (r.time + leaseSeconds)
  let after := r.put id.contextKey (.json begun) ttl
  .ok (.begun (grant after id begun), after)

/-- The fields whose change makes a refresh count as a change of authorization. -/
def authorizationFields : List String :=
  ["department_id", "direct_department_ids", "department_ids", "department_authority_status",
    "authz_policy_version", "company_role", "company_username", "company_department", "roles",
    "permissions"]

/-- `cjson.encode(record[name])`: a missing field is encoded as `null`, a missing or `false` company
field as the empty string. -/
def authorizationField (record : Value) (name : String) : Value :=
  if name = "company_role" ∨ name = "company_username" ∨ name = "company_department" then
    match record.get name with
    | none => .str ""
    | some (.bool false) => .str ""
    | some value => value
  else (record.get name).getD .null

structure CommitArgs where
  id : Identity
  operationEpoch : ℕ
  operationToken : String
  principal : Value
  credential : Option (String × String × ℕ)

/-- `a == b` of the scripting language, where two tables are never the same. -/
def rawEqual (a b : Option Value) : Bool := a == b && !Value.isTable a

/-- Whether a refresh is committed for the subject that is logged in. -/
def sameSubject (previous : Option Value) (principal : Value) : Bool :=
  match previous with
  | some previous => Value.isTable (some previous) &&
      rawEqual (previous.get "user_id") (principal.get "user_id") &&
      rawEqual (previous.get "tenant_id") (principal.get "tenant_id")
  | none => false

def authorizationChanged (context principal : Value) : Bool :=
  if context.get "operation_kind" = some (.str refreshKind) ∧ principal ≠ .null then
    authorizationFields.any fun name =>
      authorizationField ((context.get "principal").getD .null) name !=
        authorizationField principal name
  else true

/-- The credential is stored no longer than the context and its own deadline. -/
def putCredential (r : Redis) (ttl : ℕ) (credential : Option (String × String × ℕ)) :
    Except Refusal Redis :=
  match credential with
  | none => .ok r
  | some (name, sealed, deadline) => do
    ensure (sealed ≠ "" ∧ deadline ≤ maxEpoch ∧ r.time < deadline) .expired
    let remaining := (⌊((deadline : ℚ) - r.time) * 1000⌋).toNat
    -- an expiry of zero makes `SET`, and with it the script, fail
    ensure (1 ≤ remaining) .corrupt
    .ok (r.put (.credential name) (.text sealed) (min ttl remaining))

/-- What a committed operation leaves in the context. -/
def committedRecord (context principal : Value) (args : CommitArgs) : Value :=
  -- only a refresh that carries its credential proves a renewal
  let renewed := if args.credential.isSome ∧
      context.get "operation_kind" = some (.str refreshKind) ∧ principal ≠ .null
    then context.set "successful_refresh_epoch" (.number args.operationEpoch) else context
  let subject := if authorizationChanged context principal
    then renewed.set "tenant_user_subject_epoch"
      (.number (context.num "tenant_user_subject_epoch" + 1))
    else renewed
  (((subject.set "principal" principal).set "operation_token" (.str "")).set
    "operation_kind" (.str "")).set "lease_until" (.number 0)

def commitScript (r : Redis) (args : CommitArgs) : Script := do
  ensure (args.id.Accepted ∧ 1 ≤ args.operationEpoch ∧ args.operationEpoch ≤ maxEpoch ∧
    args.operationToken ≠ "") .corrupt
  let (_, context, _) ← orRefuse (r.current args.id) .stale
  ensure (context.get "operation_epoch" = some (.number args.operationEpoch) ∧
    context.get "operation_token" = some (.str args.operationToken)) .superseded
  ensure (r.time < context.num "lease_until") .expired
  ensure (context.num "tenant_user_subject_epoch" < maxEpoch) .corrupt
  let principal := args.principal.recode
  ensure (principal = .null ∨ Value.isTable (some principal) = true) .corrupt
  ensure (context.get "operation_kind" = some (.str refreshKind) → principal ≠ .null →
    sameSubject (context.get "principal") principal = true) .superseded
  let ttl ← orRefuse (r.remaining args.id.contextKey) .missing
  let r ← putCredential r ttl args.credential
  let committed := committedRecord context principal args
  .ok (.committed (committed.num "tenant_user_subject_epoch"),
    r.put args.id.contextKey (.json committed) ttl)

structure StoreCredentialArgs where
  id : Identity
  operationEpoch : ℕ
  subjectEpoch : ℕ
  tenantId : String
  userId : String
  name : String
  sealed : String

def storeCredentialScript (r : Redis) (args : StoreCredentialArgs) : Script := do
  let (_, context, ttl) ← orRefuse (r.current args.id) .superseded
  ensure (context.get "operation_epoch" = some (.number args.operationEpoch) ∧
    context.get "tenant_user_subject_epoch" = some (.number args.subjectEpoch) ∧
    context.get "operation_token" = some (.str "") ∧
    Value.isTable (context.get "principal") = true ∧
    (context.get "principal").bind (·.get "tenant_id") = some (.str args.tenantId) ∧
    (context.get "principal").bind (·.get "user_id") = some (.str args.userId)) .superseded
  .ok (.stored, r.put (.credential args.name) (.text args.sealed) ttl)

/-! ## Callback states -/

structure OauthArgs where
  id : Identity
  provider : String
  operationEpoch : ℕ
  operationToken : String
  state : String
  ttlSeconds : ℕ

def oauthRecord (args : OauthArgs) : Value :=
  .obj [("context_handle", .str args.id.contextHandle), ("provider", .str args.provider),
    ("operation_epoch", .number args.operationEpoch), ("operation_token", .str args.operationToken),
    ("incarnation_digest", .str args.id.incarnationDigest),
    ("generation", .number args.id.generation)]

def issueOauthScript (r : Redis) (args : OauthArgs) : Script := do
  ensure (args.id.Accepted ∧ args.provider ≠ "" ∧ 1 ≤ args.operationEpoch ∧
    args.operationEpoch ≤ maxEpoch ∧ args.operationToken ≠ "" ∧ 1 ≤ args.ttlSeconds ∧
    args.ttlSeconds ≤ maxEpoch) .corrupt
  let (_, context, _) ← orRefuse (r.current args.id) .stale
  ensure (context.get "operation_epoch" = some (.number args.operationEpoch) ∧
    context.get "operation_token" = some (.str args.operationToken)) .superseded
  .ok (.issued, r.put (.oauthState args.state) (.json (oauthRecord args)) (args.ttlSeconds * 1000))

/-- The reply once the state is deleted: what it bound is checked afterwards. -/
def consumedReply (state : Value) (id : Identity) (provider : String) : Reply :=
  match state.get "operation_token" with
  | some (.str token) =>
    if state.get "context_handle" = some (.str id.contextHandle) ∧
        state.get "provider" = some (.str provider) ∧
        state.get "incarnation_digest" = some (.str id.incarnationDigest) ∧
        state.get "generation" = some (.number id.generation) ∧
        epoch (state.get "operation_epoch") = true ∧ 1 ≤ state.num "operation_epoch" ∧ token ≠ ""
    then .consumed (state.num "operation_epoch") token else .invalid
  | _ => .invalid

def consumeOauthScript (r : Redis) (id : Identity) (provider state : String) : Script := do
  ensure (id.Accepted ∧ provider ≠ "") .corrupt
  match decode (r.get (.oauthState state)) with
  | .invalid => .error .stale
  | .missing => do
    let _ ← orRefuse (r.current id) .stale
    .error .missing
  | .record value => do
    let _ ← orRefuse (r.current id) .stale
    .ok (consumedReply value id provider, r.del (.oauthState state))

end AiPlatform.Auth
