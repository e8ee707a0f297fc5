import AiPlatform.Auth.SessionScripts
import AiPlatform.Foundation.Fencing
import AiPlatform.Foundation.Runs

/-!
# Browser sessions

The calls that run the scripts of browser contexts, the errors they raise, and the machine of all
their interleavings. Next to the store the machine keeps, for every browser authority, the register
its life started with and what took effect since; no call reads that journal.
-/
namespace AiPlatform.Auth

open AiPlatform.Foundation AiPlatform.Foundation.Fencing

/-! ## Identities -/

/-- The keyed digests of the service, with equal digests only for equal texts. -/
structure Digests where
  contextHandle : String → String
  nonceBinding : String → String
  browserAuthority : String → String
  rotationTicket : String → String
  contextHandle_injective : Function.Injective contextHandle
  nonceBinding_injective : Function.Injective nonceBinding
  browserAuthority_injective : Function.Injective browserAuthority
  rotationTicket_injective : Function.Injective rotationTicket

structure Service where
  digests : Digests
  contextTtlSeconds : ℕ
  operationLeaseSeconds : ℕ

/-- What an authenticated cookie of version 2 says. -/
structure CookieIdentity where
  incarnation : String
  generation : ℕ
  contextHandle : String
  deriving DecidableEq

/-- A cookie that `parse_auth_context_cookie` accepted. -/
inductive Cookie where
  | v1 (contextHandle : String)
  | v2 (identity : CookieIdentity)
  deriving DecidableEq

def Service.identity (service : Service) (cookie : CookieIdentity) : Identity :=
  ⟨service.digests.browserAuthority cookie.incarnation, cookie.generation, cookie.contextHandle⟩

def isB64urlChar (c : Char) : Bool := c.isAlphanum || c == '_' || c == '-'

def isB64url (length : ℕ) (value : String) : Bool :=
  value.length == length && value.toList.all isB64urlChar

/-! ## Errors -/

structure AuthContextError where
  code : String
  statusCode : ℕ
  deriving DecidableEq

namespace AuthContextError

def stale : AuthContextError := ⟨"auth_context_stale", 409⟩
def rebootstrapRequired : AuthContextError := ⟨"auth_context_rebootstrap_required", 409⟩
def refreshInProgress : AuthContextError := ⟨"auth_refresh_in_progress", 409⟩
def missing : AuthContextError := ⟨"auth_context_missing", 401⟩
def superseded : AuthContextError := ⟨"auth_operation_superseded", 409⟩
def expired : AuthContextError := ⟨"auth_operation_expired", 409⟩
def unavailable : AuthContextError := ⟨"auth_context_unavailable", 503⟩

end AuthContextError

/-- `_raise_for_store_status` -/
def raiseForStoreStatus : Refusal → AuthContextError
  | .stale => .stale
  | .generationGap => .stale
  | .generationConflict => .stale
  | .migrationConflict => .stale
  | .invalidTicket => .stale
  | .refreshBusy => .refreshInProgress
  | .missing => .missing
  | .superseded => .superseded
  | .expired => .expired
  | .corrupt => .unavailable

/-! ## Bootstrap -/

structure BootstrapCall where
  nonce : String
  incarnation : String
  generation : ℕ
  suppliedCookie : Option Cookie
  rotationTicket : Option String
  recoveryOnly : Bool
  /-- What `secrets.token_urlsafe` returns, should a ticket be issued. -/
  freshTicket : String

namespace BootstrapCall

variable (service : Service) (call : BootstrapCall)

def contextHandle : String := service.digests.contextHandle call.nonce

def identity : Identity :=
  ⟨service.digests.browserAuthority call.incarnation, call.generation, call.contextHandle service⟩

def cookieKind : CookieKind :=
  match call.suppliedCookie with
  | none => .none
  | some (.v2 _) => .v2
  | some (.v1 handle) => if handle = call.contextHandle service then .v1Matching else .v1Conflict

def suppliedIdentity : Option CookieIdentity :=
  match call.suppliedCookie with
  | some (.v2 identity) => some identity
  | _ => none

/-- The arguments of the bootstrap script, which is never asked for a ticket. -/
def bootstrapArgs : BootstrapArgs where
  id := call.identity service
  nonceBinding := service.digests.nonceBinding call.nonce
  ttlSeconds := service.contextTtlSeconds
  cookieKind := call.cookieKind service
  cookie := (call.suppliedIdentity.map service.identity).getD ⟨"", 0, ""⟩
  ticketDigest := ""
  ticketSeconds := service.operationLeaseSeconds
  recoveryOnly := call.recoveryOnly

/-- Which script a call runs. -/
inductive Plan where
  | bootstrap
  | reconcile
  | rotate (base : Identity) (ticket : String)
  | repair (base : Identity)
  | issueTicket (base : Identity)

/-- With a ticket: the cookie is the one of the target, or the one of the base. -/
def ticketPlan (ticket : String) : Except AuthContextError Plan :=
  match call.suppliedIdentity with
  | none => .error .stale
  | some supplied =>
    if supplied.incarnation = call.incarnation ∧ call.generation = supplied.generation ∧
        call.contextHandle service = supplied.contextHandle then .ok .reconcile
    else if supplied.incarnation = call.incarnation ∧ call.generation = supplied.generation + 1 ∧
        call.contextHandle service ≠ supplied.contextHandle then
      .ok (.rotate (service.identity supplied) ticket)
    else .error .stale

/-- Without a ticket: the cookie may be the one of the base, or of the same generation under
another nonce. -/
def cookiePlan : Plan :=
  match call.suppliedIdentity with
  | none => .bootstrap
  | some supplied =>
    if supplied.incarnation = call.incarnation ∧ call.generation = supplied.generation + 1 ∧
        call.contextHandle service ≠ supplied.contextHandle then .repair (service.identity supplied)
    else if supplied.incarnation = call.incarnation ∧ supplied.generation = call.generation ∧
        supplied.contextHandle ≠ call.contextHandle service then
      .issueTicket (service.identity supplied)
    else .bootstrap

def plan : Except AuthContextError Plan := do
  ensure (isB64url 43 call.incarnation = true ∧ 1 ≤ call.generation ∧ call.generation ≤ maxEpoch ∧
    ∀ ticket ∈ call.rotationTicket, isB64url 43 ticket = true) .stale
  if call.recoveryOnly then do
    ensure (call.rotationTicket = none) .stale
    .ok .bootstrap
  else
    match call.rotationTicket with
    | some ticket => call.ticketPlan service ticket
    | none => .ok (call.cookiePlan service)

def rotateArgs (base : Identity) (ticket : String) : RotateArgs where
  id := base
  newContextHandle := call.contextHandle service
  nonceBinding := service.digests.nonceBinding call.nonce
  ttlSeconds := service.contextTtlSeconds
  ticketDigest := service.digests.rotationTicket ticket

def runPlan (r : Redis) : Plan → Script
  | .bootstrap => bootstrapScript r (call.bootstrapArgs service)
  | .reconcile => reconcileScript r (call.identity service)
  | .rotate base ticket => rotateScript r (call.rotateArgs service base ticket)
  | .repair base => repairScript r base call.generation (call.contextHandle service)
  | .issueTicket base => issueTicketScript r base
      (service.digests.rotationTicket call.freshTicket) service.operationLeaseSeconds

end BootstrapCall

inductive BootstrapStatus where
  | ready
  | rebootstrapRequired
  deriving DecidableEq

structure AuthBootstrapResult where
  status : BootstrapStatus
  identity : Identity
  setCookie : Bool
  rotationTicket : Option String
  cookieMaxAgeSeconds : Option ℕ
  deriving DecidableEq

/-- `_cookie_max_age_from_result` -/
def cookieMaxAge (ttl : ℕ) : Except AuthContextError ℕ := do
  ensure (1 ≤ ttl ∧ ttl ≤ maxEpoch) .unavailable
  .ok (max 1 ((ttl + 999) / 1000))

namespace BootstrapCall

variable (service : Service) (call : BootstrapCall)

def ready (setCookie : Bool) (ttl : ℕ) : Except AuthContextError AuthBootstrapResult := do
  let maxAge ← cookieMaxAge ttl
  .ok ⟨.ready, call.identity service, setCookie, none, some maxAge⟩

/-- What the caller gets for the reply of the script it ran. -/
def result (plan : Plan) (reply : Reply) : Except AuthContextError AuthBootstrapResult :=
  match plan, reply with
  | .bootstrap, .existing ttl => call.ready service false ttl
  | .bootstrap, .repair ttl => call.ready service true ttl
  | .bootstrap, .created ttl =>
    if call.recoveryOnly then .error .unavailable else call.ready service true ttl
  | .bootstrap, .migrated ttl =>
    if call.recoveryOnly then .error .unavailable else call.ready service true ttl
  | .bootstrap, .rebootstrapRequired => .error .rebootstrapRequired
  | .reconcile, .reconciled => .ok ⟨.ready, call.identity service, false, none, none⟩
  | .rotate _ _, .rotated _ ttl => call.ready service true ttl
  | .repair _, .targetRepaired ttl => call.ready service true ttl
  | .repair _, .authorityBase => .error .rebootstrapRequired
  | .issueTicket base, .issued =>
      .ok ⟨.rebootstrapRequired, base, false, some call.freshTicket, none⟩
  | _, _ => .error .unavailable

end BootstrapCall

/-! ## Operations -/

/-- A lease on one browser context. -/
structure AuthOperation where
  id : Identity
  epoch : ℕ
  token : String
  kind : String
  deriving DecidableEq

inductive Call where
  | bootstrap (call : BootstrapCall)
  | begin (cookie : CookieIdentity) (kind token : String)
  | commit (operation : AuthOperation) (principal : Value)
      (credential : Option (String × String × ℕ))
  | readPrincipal (cookie : CookieIdentity)
  | storeCredential (cookie : CookieIdentity) (name sealed : String)
      (operationEpoch subjectEpoch : ℕ) (tenantId userId : String)
  | issueOauth (operation : AuthOperation) (contextHandle provider state : String)
  | consumeOauth (cookie : CookieIdentity) (provider state : String)

namespace Call

variable (service : Service) (r : Redis)

def commitArgs (operation : AuthOperation) (principal : Value)
    (credential : Option (String × String × ℕ)) : CommitArgs :=
  ⟨operation.id, operation.epoch, operation.token, principal, credential⟩

def oauthArgs (operation : AuthOperation) (provider state : String) : OauthArgs :=
  ⟨operation.id, provider, operation.epoch, operation.token, state, service.operationLeaseSeconds⟩

/-- The script a call runs, once the checks before it went through. -/
def script : Call → Except AuthContextError Script
  | .bootstrap call => do
    let plan ← call.plan service
    .ok (call.runPlan service r plan)
  | .begin cookie kind token =>
    .ok (beginScript r (service.identity cookie) service.operationLeaseSeconds token kind)
  | .commit operation principal credential => do
    ensure (isB64url 43 operation.id.incarnationDigest = true ∧ 1 ≤ operation.id.generation ∧
      operation.id.generation ≤ maxEpoch) .unavailable
    .ok (commitScript r (commitArgs operation principal credential))
  | .readPrincipal cookie => .ok (principalScript r (service.identity cookie))
  | .storeCredential cookie name sealed operationEpoch subjectEpoch tenantId userId =>
    .ok (storeCredentialScript r ⟨service.identity cookie, operationEpoch, subjectEpoch, tenantId,
      userId, name, sealed⟩)
  | .issueOauth operation contextHandle provider state => do
    ensure (operation.id.contextHandle = contextHandle ∧ operation.kind = "oauth:" ++ provider)
      .superseded
    .ok (issueOauthScript r (oauthArgs service operation provider state))
  | .consumeOauth cookie provider state =>
    .ok (consumeOauthScript r (service.identity cookie) provider state)

/-- The reply and the store it leaves, for a call that was neither refused nor raised. -/
def perform (call : Call) : Option (Reply × Redis) :=
  match call.script service r with
  | .ok (.ok result) => some result
  | _ => none

end Call

/-! ## Journals -/

abbrev Session : Type := Register String String Value

abbrev Journal : Type := History String String Value

/-- The lease that a context record shows. -/
def leaseOf (context : Value) : Option (String × ℚ) :=
  match context.get "operation_token" with
  | some (.str token) => if token = "" then none else some (token, context.num "lease_until")
  | _ => none

/-- The register a browser authority starts with: what the record of version 1 held, if there was
one. -/
def originOf (existing : Option Value) : Session :=
  match existing with
  | some record => ⟨1, ⌊record.num "operation_epoch"⌋.toNat, leaseOf record,
      (record.get "principal").getD .null, none⟩
  | none => ⟨1, 0, none, .null, none⟩

/-- What a reply means for the browser authority it is about. -/
inductive Note where
  | origin (session : Session)
  | event (event : Event String String Value)

namespace Call

variable (service : Service) (r : Redis)

def bootstrapNote (call : BootstrapCall) (plan : BootstrapCall.Plan)
    (reply : Reply) : Option Note :=
  match plan, reply with
  | .bootstrap, .created _ =>
      some (.origin (originOf (r.record (call.identity service).contextKey)))
  | .bootstrap, .migrated _ =>
      some (.origin (originOf (r.record (call.identity service).contextKey)))
  | .rotate _ ticket, .rotated _ _ =>
    some (.event (.rotated (service.digests.rotationTicket ticket) .null))
  | .issueTicket _, .issued =>
    some (.event (.issued (service.digests.rotationTicket call.freshTicket)))
  | _, _ => none

/-- What the reply to a call is noted as. -/
def note (call : Call) (reply : Reply) : Option Note :=
  match call, reply with
  | .bootstrap call, reply =>
    match call.plan service with
    | .ok plan => bootstrapNote service r call plan reply
    | .error _ => none
  | .begin cookie _ token, .begun grant =>
    some (.event (.begun cookie.generation ⌊grant.operationEpoch⌋.toNat token
      (r.time + service.operationLeaseSeconds)))
  | .commit operation principal _, .committed _ =>
    some (.event (.committed operation.id.generation operation.epoch operation.token
      principal.recode))
  | .readPrincipal cookie, .principal grant =>
    some (.event (.read cookie.generation grant.principal))
  | _, _ => none

/-- The browser authority a call is about. -/
def digest : Call → String
  | .bootstrap call => service.digests.browserAuthority call.incarnation
  | .begin cookie _ _ => service.digests.browserAuthority cookie.incarnation
  | .commit operation _ _ => operation.id.incarnationDigest
  | .readPrincipal cookie => service.digests.browserAuthority cookie.incarnation
  | .storeCredential cookie _ _ _ _ _ _ => service.digests.browserAuthority cookie.incarnation
  | .issueOauth operation _ _ _ => operation.id.incarnationDigest
  | .consumeOauth cookie _ _ => service.digests.browserAuthority cookie.incarnation

/-- The ticket that a call draws. -/
def drawnTicket : Call → Option String
  | .bootstrap call =>
    match call.plan service with
    | .ok (.issueTicket _) => some call.freshTicket
    | _ => none
  | _ => none

end Call

/-! ## Runs -/

/-- The two keys of a browser authority are live: if its record is in the store, neither the record
nor the context it names has expired. -/
def Live (r : Redis) (digest : String) : Prop :=
  ∀ entry ∈ Hash.hget r.entries (.authority digest), (r.get (.authority digest)).isSome = true ∧
    ∀ authority handle, entry.value = .json authority →
      authority.recode.get "context_handle" = some (.str handle) →
        (r.get (.context handle)).isSome = true

structure World where
  redis : Redis
  drawn : List String
  journal : String → Option (Session × Journal)

structure Label where
  elapsed : ℕ
  call : Call

/-- The journal of an authority after one more note. -/
def noted (journal : Option (Session × Journal)) (now : ℚ) : Note → Session × Journal
  | .origin session => (session, [])
  | .event event =>
    let (origin, history) := journal.getD (originOf none, [])
    (origin, history ++ [(now, event)])

namespace World

def step (service : Service) (w : World) (label : Label) : World :=
  let r := w.redis.wait label.elapsed
  let drawn := w.drawn ++ (label.call.drawnTicket service).toList
  match label.call.perform service r with
  | none => ⟨r, drawn, w.journal⟩
  | some (reply, after) =>
    match label.call.note service r reply with
    | none => ⟨after, drawn, w.journal⟩
    | some note => ⟨after, drawn, Function.update w.journal (label.call.digest service)
        (some (noted (w.journal (label.call.digest service)) r.time note))⟩

/-- The service starts on any store, with no ticket drawn and nothing noted. -/
def system (service : Service) (redis : Redis) : Machine World Label where
  start := ⟨redis, [], fun _ => none⟩
  step := step service

/-- Tickets are fresh: a drawn one was not drawn before. -/
def Fresh (service : Service) (w : World) (label : Label) : Prop :=
  ∀ ticket ∈ label.call.drawnTicket service, ticket ∉ w.drawn

/-- The keys of a browser authority are live when the call comes. -/
def Alive (digest : String) (w : World) (label : Label) : Prop :=
  Live (w.redis.wait label.elapsed) digest

end World

end AiPlatform.Auth
