import AiPlatform.Auth.Sessions

/-!
# Browser sessions are fenced

`Write` says once what a call that goes through does to the records. A browser authority that lives
shows a register (`Holds`), and every write either is a step of that register or leaves it alone, so
its journal is a legal history.
-/
namespace AiPlatform.Auth

open AiPlatform.Foundation AiPlatform.Foundation.Fencing

/-! ## Reading records -/

theorem orRefuse_eq_ok {α : Type} {value : Option α} {refusal : Refusal} {a : α} :
    orRefuse value refusal = .ok a ↔ value = some a := by
  cases value <;> simp [orRefuse]

namespace Redis

variable {r : Redis} {key : Key} {id : Identity}

theorem record_of_get {v x : Value} {name : String} (h : r.get key = some (.json v))
    (hfield : v.recode.get name = some x) : r.record key = some v.recode := by
  rw [record, h]
  cases v with
  | bool b => cases hfield
  | _ => rfl

theorem get_of_record {v : Value} (h : r.record key = some v) :
    ∃ raw, r.get key = some (.json raw) ∧ v = raw.recode := by
  unfold record at h
  split at h
  · rename_i heq
    cases h
    unfold decode at heq
    split at heq
    · cases heq
    · cases heq
    · cases heq
    · rename_i raw _ hget
      cases heq
      exact ⟨raw, hget, rfl⟩
  · cases h

theorem settled_of_record {v : Value} (h : r.record key = some v) : v.Settled := by
  obtain ⟨raw, -, rfl⟩ := get_of_record h
  exact raw.settled_recode

theorem current_eq_some {authority context : Value} {ttl : ℕ}
    (h : r.current id = some (authority, context, ttl)) :
    r.record id.authorityKey = some authority ∧ r.record id.contextKey = some context ∧
      r.ttlConsistent id.authorityKey id.contextKey = some ttl ∧
      sameAuthority authority context id = true := by
  unfold current at h
  split at h
  · rename_i hauthority hcontext httl
    split_ifs at h with hsame
    cases h
    exact ⟨hauthority, hcontext, httl, hsame⟩
  · cases h

end Redis

/-- What two records that name an identity say about it. -/
structure Named (authority context : Value) (id : Identity) : Prop where
  authority_digest : authority.get "incarnation_digest" = some (.str id.incarnationDigest)
  authority_generation : authority.get "generation" = some (.number id.generation)
  authority_handle : authority.get "context_handle" = some (.str id.contextHandle)
  context_schema : context.get "schema_version" = some (.number 2)
  context_digest : context.get "incarnation_digest" = some (.str id.incarnationDigest)
  context_generation : context.get "generation" = some (.number id.generation)
  context_valid : validV2 context = true

variable {context : Value} {r : Redis}

theorem named_of_sameAuthority {authority : Value} {id : Identity}
    (h : sameAuthority authority context id = true) : Named authority context id := by
  simp only [sameAuthority, Bool.and_eq_true, beq_iff_eq] at h
  obtain ⟨⟨⟨⟨⟨⟨-, hvalid⟩, hdigest⟩, hgeneration⟩, hhandle⟩, hdigest'⟩, hgeneration'⟩ := h
  have hschema : context.get "schema_version" = some (.number 2) := by
    simp only [validV2, Bool.and_eq_true, beq_iff_eq] at hvalid
    tauto
  exact ⟨hdigest, hgeneration, hhandle, hschema, hdigest', hgeneration', hvalid⟩

/-! ## What a call can write -/

/-- Two stores with the same authority and context records. -/
structure SameRecords (r r' : Redis) : Prop where
  clock : r'.clock = r.clock
  authority : ∀ digest, Hash.hget r'.entries (.authority digest) =
    Hash.hget r.entries (.authority digest)
  context : ∀ handle, Hash.hget r'.entries (.context handle) = Hash.hget r.entries (.context handle)

theorem SameRecords.refl (r : Redis) : SameRecords r r := ⟨rfl, fun _ => rfl, fun _ => rfl⟩

theorem sameRecords_put_credential (r : Redis) (name : String) (raw : Raw) (ttl : ℕ) :
    SameRecords r (r.put (.credential name) raw ttl) where
  clock := rfl
  authority digest := by simp [ExpiringStore.hget_put]
  context handle := by simp [ExpiringStore.hget_put]

theorem sameRecords_put_oauthState (r : Redis) (state : String) (raw : Raw) (ttl : ℕ) :
    SameRecords r (r.put (.oauthState state) raw ttl) where
  clock := rfl
  authority digest := by simp [ExpiringStore.hget_put]
  context handle := by simp [ExpiringStore.hget_put]

theorem sameRecords_del_oauthState (r : Redis) (state : String) :
    SameRecords r (r.del (.oauthState state)) where
  clock := rfl
  authority digest := by simp [ExpiringStore.del]
  context handle := by simp [ExpiringStore.del]

/-- What a call about `id` can do to the records, and what is noted of it. -/
inductive Write (r : Redis) (id : Identity) : Redis → Option Note → Prop where
  | unnoted {r' : Redis} (same : SameRecords r r') : Write r id r' none
  | read {authority context : Value} {ttl : ℕ}
      (current : r.current id = some (authority, context, ttl)) :
      Write r id r (some (.event (.read id.generation ((context.get "principal").getD .null))))
  | created {existing : Option Value} {nonceBinding : String} {ttl : ℕ} (first : id.generation = 1)
      (vacant : r.get id.authorityKey = none) (found : r.record id.contextKey = existing)
      (absent : existing = none → r.get id.contextKey = none)
      (valid : ∀ record ∈ existing, validV1 record = true) :
      Write r id ((r.put id.contextKey (.json (migratedRecord
        (existing.getD (anonymousRecord nonceBinding)) id)) ttl).put
          id.authorityKey (.json (authorityRecord id)) ttl) (some (.origin (originOf existing)))
  | ticketed {authority context : Value} {ttl : ℕ}
      (current : r.current id = some (authority, context, ttl)) (ticketDigest : String)
      {deadline : ℚ} (future : 0 ≤ deadline) :
      Write r id (r.put id.authorityKey (.json (withTicket authority ticketDigest id.generation
        deadline)) ttl) (some (.event (.issued ticketDigest)))
  | rotated {authority context : Value} {ttl : ℕ} {args : RotateArgs} (about : args.id = id)
      (current : r.current id = some (authority, context, ttl))
      (ticket : ticketMatches r authority args) (moved : id.contextHandle ≠ args.newContextHandle)
      (vacant : r.get args.target.contextKey = none) :
      Write r id
        ((r.put args.target.contextKey (.json (rotatedRecord args.target args.nonceBinding))
        ttl).put args.target.authorityKey (.json (authorityRecord args.target)) ttl)
          (some (.event (.rotated args.ticketDigest .null)))
  | begun {authority context : Value} {ttl ttl' : ℕ} {token : String}
      (current : r.current id = some (authority, context, ttl)) (nonempty : token ≠ "")
      (kind : String) {leaseUntil : ℚ} (future : 0 ≤ leaseUntil)
      (bounded : context.num "operation_epoch" < maxEpoch)
      (kept : r.remaining id.contextKey = some ttl') :
      Write r id (r.put id.contextKey (.json (begunRecord context token kind leaseUntil)) ttl')
        (some (.event (.begun id.generation ⌊context.num "operation_epoch" + 1⌋.toNat token
          leaseUntil)))
  | committed {authority context : Value} {ttl ttl' : ℕ} {args : CommitArgs} {r₁ : Redis}
      (about : args.id = id) (current : r.current id = some (authority, context, ttl))
      (latest : context.get "operation_epoch" = some (.number args.operationEpoch))
      (held : context.get "operation_token" = some (.str args.operationToken))
      (nonempty : args.operationToken ≠ "") (live : r.time < context.num "lease_until")
      (bounded : context.num "tenant_user_subject_epoch" < maxEpoch)
      (table : args.principal.recode = .null ∨ Value.isTable (some args.principal.recode) = true)
      (kept : r.remaining id.contextKey = some ttl') (same : SameRecords r r₁) :
      Write r id (r₁.put id.contextKey (.json (committedRecord context args.principal.recode args))
        ttl') (some (.event (.committed id.generation args.operationEpoch args.operationToken
          args.principal.recode)))

section Scripts

variable {r r' : Redis} {reply : Reply}

theorem existingContext_eq_ok {args : BootstrapArgs} {record : Value} {ttl : ℕ}
    (h : existingContext r args = .ok (record, ttl)) :
    ∃ existing : Option Value, r.record args.id.contextKey = existing ∧
      record = existing.getD (anonymousRecord args.nonceBinding) ∧
      (existing = none → r.get args.id.contextKey = none) ∧
      ∀ v ∈ existing, validV1 v = true := by
  unfold existingContext at h
  split at h
  · cases h
  · rename_i hdecode
    cases h
    refine ⟨none, by rw [Redis.record, hdecode], rfl, fun _ => ?_, by simp⟩
    unfold decode at hdecode
    split at hdecode <;> simp_all
  · rename_i existing hdecode
    obtain ⟨⟨hvalid, -⟩, h⟩ := ensure_bind_eq_ok.mp h
    obtain ⟨-, h⟩ := ensure_bind_eq_ok.mp h
    obtain ⟨_, -, h⟩ := bind_eq_ok.mp h
    cases h
    exact ⟨some record, by rw [Redis.record, hdecode], rfl, by simp, by simpa using hvalid⟩

theorem establish_write {args : BootstrapArgs} (hvacant : r.get args.id.authorityKey = none)
    (h : establish r args = .ok (reply, r')) :
    Write r args.id r' (some (.origin (originOf (r.record args.id.contextKey)))) ∧
      ((∃ ttl, reply = .created ttl) ∨ ∃ ttl, reply = .migrated ttl) := by
  obtain ⟨-, h⟩ := ensure_bind_eq_ok.mp h
  obtain ⟨-, h⟩ := ensure_bind_eq_ok.mp h
  obtain ⟨hfirst, h⟩ := ensure_bind_eq_ok.mp h
  obtain ⟨⟨record, ttl⟩, hexisting, h⟩ := bind_eq_ok.mp h
  obtain ⟨existing, hfound, rfl, habsent, hvalid⟩ := existingContext_eq_ok hexisting
  cases h
  refine ⟨?_, by split_ifs <;> simp⟩
  rw [hfound]
  exact .created hfirst hvacant hfound habsent hvalid

/-- A bootstrap that is not asked for a ticket establishes the authority or writes nothing. -/
theorem bootstrapScript_write {args : BootstrapArgs} (hticket : args.ticketDigest = "")
    (h : bootstrapScript r args = .ok (reply, r')) :
    (Write r args.id r' (some (.origin (originOf (r.record args.id.contextKey)))) ∧
      ((∃ ttl, reply = .created ttl) ∨ ∃ ttl, reply = .migrated ttl)) ∨
    (r' = r ∧ ((∃ ttl, reply = .existing ttl) ∨ ∃ ttl, reply = .repair ttl)) := by
  obtain ⟨-, h⟩ := ensure_bind_eq_ok.mp h
  split at h
  · cases h
  · rename_i hdecode
    left
    refine establish_write ?_ h
    unfold decode at hdecode
    split at hdecode <;> simp_all
  · right
    obtain ⟨-, h⟩ := ensure_bind_eq_ok.mp h
    obtain ⟨context, -, h⟩ := bind_eq_ok.mp h
    obtain ⟨-, h⟩ := ensure_bind_eq_ok.mp h
    obtain ⟨ttl, -, h⟩ := bind_eq_ok.mp h
    obtain ⟨-, h⟩ := ensure_bind_eq_ok.mp h
    obtain ⟨-, h⟩ := ensure_bind_eq_ok.mp h
    obtain ⟨-, h⟩ := ensure_bind_eq_ok.mp h
    split_ifs at h with hhandle
    · obtain ⟨-, h⟩ := ensure_bind_eq_ok.mp h
      cases h
      exact ⟨rfl, by split_ifs <;> simp⟩
    · obtain ⟨⟨-, hdigest, -⟩, h⟩ := ensure_bind_eq_ok.mp h
      exact absurd hticket hdigest

theorem rotateScript_write {args : RotateArgs} (h : rotateScript r args = .ok (reply, r')) :
    Write r args.id r' (some (.event (.rotated args.ticketDigest .null))) ∧
      ∃ generation ttl, reply = .rotated generation ttl := by
  obtain ⟨⟨hmoved, -⟩, h⟩ := ensure_bind_eq_ok.mp h
  obtain ⟨⟨authority, context, ttl⟩, hcurrent, h⟩ := bind_eq_ok.mp h
  obtain ⟨hticket, h⟩ := ensure_bind_eq_ok.mp h
  obtain ⟨hvacant, h⟩ := ensure_bind_eq_ok.mp h
  obtain ⟨-, h⟩ := ensure_bind_eq_ok.mp h
  cases h
  exact ⟨.rotated rfl (orRefuse_eq_ok.mp hcurrent) hticket hmoved hvacant, _, _, rfl⟩

variable {id : Identity}

theorem reconcileScript_write (h : reconcileScript r id = .ok (reply, r')) :
    r' = r ∧ reply = .reconciled := by
  obtain ⟨-, h⟩ := ensure_bind_eq_ok.mp h
  obtain ⟨_, -, h⟩ := bind_eq_ok.mp h
  cases h
  exact ⟨rfl, rfl⟩

theorem repairScript_write {base : Identity} {targetGeneration : ℕ} {targetContextHandle : String}
    (h : repairScript r base targetGeneration targetContextHandle = .ok (reply, r')) :
    r' = r ∧ ((∃ ttl, reply = .targetRepaired ttl) ∨ reply = .authorityBase) := by
  obtain ⟨-, h⟩ := ensure_bind_eq_ok.mp h
  obtain ⟨authority, -, h⟩ := bind_eq_ok.mp h
  obtain ⟨old, -, h⟩ := bind_eq_ok.mp h
  obtain ⟨-, h⟩ := ensure_bind_eq_ok.mp h
  split at h
  · cases h
  · obtain ⟨ttl, -, h⟩ := bind_eq_ok.mp h
    obtain ⟨-, h⟩ := ensure_bind_eq_ok.mp h
    cases h
    exact ⟨rfl, .inl ⟨_, rfl⟩⟩
  · obtain ⟨_, -, h⟩ := bind_eq_ok.mp h
    cases h
    exact ⟨rfl, .inr rfl⟩

theorem issueTicketScript_write {ticketDigest : String} {ticketSeconds : ℕ}
    (h : issueTicketScript r id ticketDigest ticketSeconds = .ok (reply, r')) :
    Write r id r' (some (.event (.issued ticketDigest))) ∧ reply = .issued := by
  obtain ⟨-, h⟩ := ensure_bind_eq_ok.mp h
  obtain ⟨⟨authority, context, ttl⟩, hcurrent, h⟩ := bind_eq_ok.mp h
  cases h
  refine ⟨.ticketed (orRefuse_eq_ok.mp hcurrent) ticketDigest ?_, rfl⟩
  unfold ticketDeadline
  positivity

theorem principalScript_write (h : principalScript r id = .ok (reply, r')) :
    ∃ grant, reply = .principal grant ∧
      Write r id r' (some (.event (.read id.generation grant.principal))) := by
  obtain ⟨⟨authority, context, ttl⟩, hcurrent, h⟩ := bind_eq_ok.mp h
  cases h
  exact ⟨_, rfl, .read (orRefuse_eq_ok.mp hcurrent)⟩

theorem num_begunRecord (context : Value) (token kind : String) (leaseUntil : ℚ) :
    (begunRecord context token kind leaseUntil).num "operation_epoch" =
      context.num "operation_epoch" + 1 :=
  Value.num_of_get (by simp [begunRecord])

theorem beginScript_write {leaseSeconds : ℕ} {token kind : String}
    (h : beginScript r id leaseSeconds token kind = .ok (reply, r')) :
    ∃ grant, reply = .begun grant ∧ Write r id r' (some (.event (.begun id.generation
      ⌊grant.operationEpoch⌋.toNat token (r.time + leaseSeconds)))) := by
  obtain ⟨⟨-, -, -, hnonempty, -⟩, h⟩ := ensure_bind_eq_ok.mp h
  obtain ⟨⟨authority, context, ttl⟩, hcurrent, h⟩ := bind_eq_ok.mp h
  obtain ⟨hbounded, h⟩ := ensure_bind_eq_ok.mp h
  obtain ⟨-, h⟩ := ensure_bind_eq_ok.mp h
  obtain ⟨-, h⟩ := ensure_bind_eq_ok.mp h
  obtain ⟨ttl', hkept, h⟩ := bind_eq_ok.mp h
  cases h
  refine ⟨_, rfl, ?_⟩
  dsimp only [grant]
  rw [num_begunRecord]
  have hfuture : 0 ≤ r.time + leaseSeconds := by
    unfold ExpiringStore.time
    positivity
  exact .begun (orRefuse_eq_ok.mp hcurrent) hnonempty kind hfuture hbounded
    (orRefuse_eq_ok.mp hkept)

theorem putCredential_sameRecords {ttl : ℕ} {credential : Option (String × String × ℕ)}
    (h : putCredential r ttl credential = .ok r') : SameRecords r r' := by
  unfold putCredential at h
  split at h
  · cases h
    exact .refl r
  · obtain ⟨-, h⟩ := ensure_bind_eq_ok.mp h
    obtain ⟨-, h⟩ := ensure_bind_eq_ok.mp h
    cases h
    exact sameRecords_put_credential r _ _ _

theorem commitScript_write {args : CommitArgs} (h : commitScript r args = .ok (reply, r')) :
    Write r args.id r' (some (.event (.committed args.id.generation args.operationEpoch
      args.operationToken args.principal.recode))) ∧
    ∃ subjectEpoch, reply = .committed subjectEpoch := by
  obtain ⟨⟨-, -, -, hnonempty⟩, h⟩ := ensure_bind_eq_ok.mp h
  obtain ⟨⟨authority, context, ttl⟩, hcurrent, h⟩ := bind_eq_ok.mp h
  obtain ⟨⟨hlatest, hheld⟩, h⟩ := ensure_bind_eq_ok.mp h
  obtain ⟨hlive, h⟩ := ensure_bind_eq_ok.mp h
  obtain ⟨hbounded, h⟩ := ensure_bind_eq_ok.mp h
  obtain ⟨htable, h⟩ := ensure_bind_eq_ok.mp h
  obtain ⟨-, h⟩ := ensure_bind_eq_ok.mp h
  obtain ⟨ttl', hkept, h⟩ := bind_eq_ok.mp h
  obtain ⟨r₁, hcredential, h⟩ := bind_eq_ok.mp h
  cases h
  exact ⟨.committed rfl (orRefuse_eq_ok.mp hcurrent) hlatest hheld hnonempty hlive hbounded htable
    (orRefuse_eq_ok.mp hkept) (putCredential_sameRecords hcredential), _, rfl⟩

theorem storeCredentialScript_write {args : StoreCredentialArgs}
    (h : storeCredentialScript r args = .ok (reply, r')) : SameRecords r r' := by
  obtain ⟨⟨authority, context, ttl⟩, -, h⟩ := bind_eq_ok.mp h
  obtain ⟨-, h⟩ := ensure_bind_eq_ok.mp h
  cases h
  exact sameRecords_put_credential r _ _ _

theorem issueOauthScript_write {args : OauthArgs} (h : issueOauthScript r args = .ok (reply, r')) :
    SameRecords r r' := by
  obtain ⟨-, h⟩ := ensure_bind_eq_ok.mp h
  obtain ⟨⟨authority, context, ttl⟩, -, h⟩ := bind_eq_ok.mp h
  obtain ⟨-, h⟩ := ensure_bind_eq_ok.mp h
  cases h
  exact sameRecords_put_oauthState r _ _ _

theorem consumeOauthScript_write {provider state : String}
    (h : consumeOauthScript r id provider state = .ok (reply, r')) : SameRecords r r' := by
  obtain ⟨-, h⟩ := ensure_bind_eq_ok.mp h
  split at h
  · cases h
  · obtain ⟨_, -, h⟩ := bind_eq_ok.mp h
    cases h
  · obtain ⟨_, -, h⟩ := bind_eq_ok.mp h
    cases h
    exact sameRecords_del_oauthState r state

end Scripts

/-! ## Calls -/

namespace BootstrapCall

variable {service : Service} {call : BootstrapCall} {plan : BootstrapCall.Plan}

/-- The identity of the cookie that a plan relies on. -/
def Plan.base : Plan → Option Identity
  | .rotate base _ => some base
  | .repair base => some base
  | .issueTicket base => some base
  | _ => none

theorem base_of_ticketPlan {ticket : String} (h : call.ticketPlan service ticket = .ok plan) :
    ∀ base ∈ plan.base,
      base.incarnationDigest = service.digests.browserAuthority call.incarnation := by
  intro base hbase
  unfold ticketPlan at h
  split at h
  · cases h
  · split_ifs at h with hreconcile hrotate
    · cases h
      cases hbase
    · cases h
      cases hbase
      rw [← hrotate.1]
      rfl

theorem base_of_cookiePlan : ∀ base ∈ (call.cookiePlan service).base,
    base.incarnationDigest = service.digests.browserAuthority call.incarnation := by
  intro base hbase
  unfold cookiePlan at hbase
  split at hbase
  · cases hbase
  · split_ifs at hbase with hrepair hissue
    · cases hbase
      rw [← hrepair.1]
      rfl
    · cases hbase
      rw [← hissue.1]
      rfl
    · cases hbase

/-- A plan relies on a cookie of the browser authority it is about. -/
theorem base_of_plan (h : call.plan service = .ok plan) : ∀ base ∈ plan.base,
    base.incarnationDigest = service.digests.browserAuthority call.incarnation := by
  obtain ⟨-, h⟩ := ensure_bind_eq_ok.mp h
  split_ifs at h with hrecovery
  · obtain ⟨-, h⟩ := ensure_bind_eq_ok.mp h
    cases h
    simp [Plan.base]
  · split at h
    · exact base_of_ticketPlan h
    · cases h
      exact base_of_cookiePlan

theorem runPlan_write {r r' : Redis} {reply : Reply} (hplan : call.plan service = .ok plan)
    (h : call.runPlan service r plan = .ok (reply, r')) :
    ∃ id : Identity, id.incarnationDigest = service.digests.browserAuthority call.incarnation ∧
      Write r id r' (Call.bootstrapNote service r call plan reply) := by
  have hbase := base_of_plan hplan
  cases plan with
  | bootstrap =>
    refine ⟨call.identity service, rfl, ?_⟩
    rcases bootstrapScript_write rfl h with ⟨hwrite, ⟨ttl, rfl⟩ | ⟨ttl, rfl⟩⟩ |
      ⟨rfl, ⟨ttl, rfl⟩ | ⟨ttl, rfl⟩⟩
    · exact hwrite
    · exact hwrite
    · exact .unnoted (.refl r')
    · exact .unnoted (.refl r')
  | reconcile =>
    obtain ⟨rfl, rfl⟩ := reconcileScript_write h
    exact ⟨call.identity service, rfl, .unnoted (.refl r')⟩
  | rotate base ticket =>
    obtain ⟨hwrite, generation, ttl, rfl⟩ := rotateScript_write h
    exact ⟨base, hbase base rfl, hwrite⟩
  | repair base =>
    obtain ⟨rfl, ⟨ttl, rfl⟩ | rfl⟩ := repairScript_write h
    · exact ⟨base, hbase base rfl, .unnoted (.refl r')⟩
    · exact ⟨base, hbase base rfl, .unnoted (.refl r')⟩
  | issueTicket base =>
    obtain ⟨hwrite, rfl⟩ := issueTicketScript_write h
    exact ⟨base, hbase base rfl, hwrite⟩

end BootstrapCall

/-- What a call that goes through writes, whichever call it is. -/
theorem Call.perform_write {service : Service} {r' : Redis} {call : Call} {reply : Reply}
    (h : call.perform service r = some (reply, r')) :
    ∃ id : Identity, id.incarnationDigest = call.digest service ∧
      Write r id r' (call.note service r reply) := by
  unfold Call.perform at h
  split at h
  · rename_i script hscript
    cases h
    cases call with
    | bootstrap call =>
      obtain ⟨plan, hplan, hrun⟩ := bind_eq_ok.mp hscript
      obtain ⟨id, hid, hwrite⟩ := BootstrapCall.runPlan_write hplan (Except.ok.inj hrun)
      refine ⟨id, hid, ?_⟩
      simpa only [Call.note, hplan] using hwrite
    | «begin» cookie kind token =>
      obtain ⟨grant, rfl, hwrite⟩ := beginScript_write (Except.ok.inj hscript)
      exact ⟨service.identity cookie, rfl, hwrite⟩
    | commit operation principal credential =>
      obtain ⟨-, hrun⟩ := ensure_bind_eq_ok.mp hscript
      obtain ⟨hwrite, subjectEpoch, rfl⟩ := commitScript_write (Except.ok.inj hrun)
      exact ⟨operation.id, rfl, hwrite⟩
    | readPrincipal cookie =>
      obtain ⟨grant, rfl, hwrite⟩ := principalScript_write (Except.ok.inj hscript)
      exact ⟨service.identity cookie, rfl, hwrite⟩
    | storeCredential cookie name sealed operationEpoch subjectEpoch tenantId userId =>
      exact ⟨service.identity cookie, rfl,
        .unnoted (storeCredentialScript_write (Except.ok.inj hscript))⟩
    | issueOauth operation contextHandle provider state =>
      obtain ⟨-, hrun⟩ := ensure_bind_eq_ok.mp hscript
      exact ⟨operation.id, rfl, .unnoted (issueOauthScript_write (Except.ok.inj hrun))⟩
    | consumeOauth cookie provider state =>
      exact ⟨service.identity cookie, rfl,
        .unnoted (consumeOauthScript_write (Except.ok.inj hscript))⟩
  · cases h

/-! ## What a browser authority shows -/

/-- The two records of a browser authority show a session. -/
structure Shows (digest handle : String) (authority context : Value) (session : Session) :
    Prop where
  authority_generation : authority.get "generation" = some (.number session.generation)
  authority_handle : authority.get "context_handle" = some (.str handle)
  authority_ticket : authority.get "rotation_ticket_digest" = session.ticket.map .str
  context_schema : context.get "schema_version" = some (.number 2)
  context_digest : context.get "incarnation_digest" = some (.str digest)
  context_epoch : context.get "operation_epoch" = some (.number session.epoch)
  context_lease : leaseOf context = session.lease
  context_principal : context.get "principal" = some session.value

/-- The records are in the store, whether they have expired or not. -/
def Holds (r : Redis) (digest : String) (session : Session) : Prop :=
  ∃ handle authority context authorityExpiry contextExpiry,
    Hash.hget r.entries (.authority digest) = some ⟨.json authority, authorityExpiry⟩ ∧
    Hash.hget r.entries (.context handle) = some ⟨.json context, contextExpiry⟩ ∧
    Shows digest handle authority.recode context.recode session

theorem Holds.intro {digest handle : String} {authority : Value} {authorityExpiry contextExpiry : ℕ}
    {session : Session}
    (hauthority : Hash.hget r.entries (.authority digest) = some ⟨.json authority, authorityExpiry⟩)
    (hcontext : Hash.hget r.entries (.context handle) = some ⟨.json context, contextExpiry⟩)
    (hshows : Shows digest handle authority.recode context.recode session) :
    Holds r digest session :=
  ⟨handle, authority, context, _, _, hauthority, hcontext, hshows⟩

theorem get_eq_of_isSome {key : Key} {raw : Raw} {expiry : ℕ}
    (hentry : Hash.hget r.entries key = some ⟨raw, expiry⟩) (hlive : (r.get key).isSome = true) :
    r.get key = some raw := by
  obtain ⟨found, hfound⟩ := Option.isSome_iff_exists.mp hlive
  obtain ⟨entry, hfind, rfl⟩ := Option.map_eq_some_iff.mp hfound
  have hget := (Option.filter_eq_some_iff.mp hfind).1
  rw [hentry] at hget
  cases hget
  exact hfound

/-! ### Records after a write -/

theorem leaseOf_eq {token : String} {leaseUntil : ℚ}
    (htoken : context.get "operation_token" = some (.str token))
    (hlease : context.get "lease_until" = some (.number leaseUntil)) :
    leaseOf context = if token = "" then none else some (token, leaseUntil) := by
  rw [leaseOf, htoken, Value.num_of_get hlease]

namespace Shows

variable {digest handle : String} {authority context : Value} {session : Session}

section

variable (h : Shows digest handle authority context session)
include h

theorem withTicket (ticketDigest : String) (generation : ℕ) (deadline : ℚ) :
    Shows digest handle (Auth.withTicket authority ticketDigest generation deadline).recode context
      { session with ticket := some ticketDigest } where
  authority_generation := by simp [Auth.withTicket, h.authority_generation]
  authority_handle := by simp [Auth.withTicket, h.authority_handle]
  authority_ticket := by simp [Auth.withTicket]
  context_schema := h.context_schema
  context_digest := h.context_digest
  context_epoch := h.context_epoch
  context_lease := h.context_lease
  context_principal := h.context_principal

theorem begun (hsettled : context.Settled) {token : String} (hnonempty : token ≠ "") (kind : String)
    (leaseUntil : ℚ) :
    Shows digest handle authority (begunRecord context token kind leaseUntil).recode
      { session with epoch := session.epoch + 1, lease := some (token, leaseUntil) } where
  authority_generation := h.authority_generation
  authority_handle := h.authority_handle
  authority_ticket := h.authority_ticket
  context_schema := by
    unfold begunRecord
    split_ifs <;> simp [h.context_schema]
  context_digest := by
    unfold begunRecord
    split_ifs <;> simp [h.context_digest]
  context_epoch := by simp [begunRecord, Value.num_of_get h.context_epoch]
  context_lease := by
    rw [leaseOf_eq (by simp [begunRecord]; rfl) (by simp [begunRecord]; rfl), if_neg hnonempty]
  context_principal := by
    have hvalue := hsettled.get h.context_principal
    unfold begunRecord
    split_ifs <;> simp [h.context_principal, hvalue]

theorem committed (args : CommitArgs) :
    Shows digest handle authority (committedRecord context args.principal.recode args).recode
      { session with lease := none, value := args.principal.recode } where
  authority_generation := h.authority_generation
  authority_handle := h.authority_handle
  authority_ticket := h.authority_ticket
  context_schema := by
    unfold committedRecord
    split_ifs <;> simp [h.context_schema]
  context_digest := by
    unfold committedRecord
    split_ifs <;> simp [h.context_digest]
  context_epoch := by
    unfold committedRecord
    split_ifs <;> simp [h.context_epoch]
  context_lease := by
    rw [leaseOf_eq (by simp [committedRecord]; rfl) (by simp [committedRecord]; rfl), if_pos rfl]
  context_principal := by simp [committedRecord, Value.recode_recode]

end

end Shows

theorem shows_rotated (id : Identity) (nonceBinding : String) :
    Shows id.incarnationDigest id.contextHandle (authorityRecord id).recode
      (rotatedRecord id nonceBinding).recode ⟨id.generation, 0, none, .null, none⟩ where
  authority_generation := by simp [authorityRecord]
  authority_handle := by simp [authorityRecord]
  authority_ticket := by simp [authorityRecord]
  context_schema := by simp [rotatedRecord]
  context_digest := by simp [rotatedRecord]
  context_epoch := by simp [rotatedRecord]
  context_lease := by
    rw [leaseOf_eq (by simp [rotatedRecord]; rfl) (by simp [rotatedRecord]; rfl), if_pos rfl]
  context_principal := by simp [rotatedRecord]

/-- The fields of a record that both versions share are there. -/
theorem fields_of_validOperation {record : Value} (h : validOperation record = true) :
    ∃ epoch : ℕ, ∃ token leaseUntil principal,
      record.get "operation_epoch" = some (.number epoch) ∧
      record.get "operation_token" = some (.str token) ∧
      record.get "lease_until" = some (.number leaseUntil) ∧
      record.get "principal" = some principal := by
  simp only [validOperation, Bool.and_eq_true, epoch_iff, Value.isString_iff, nonnegative_iff,
    Bool.or_eq_true, beq_iff_eq] at h
  obtain ⟨⟨⟨⟨⟨⟨-, epoch, hepoch, -⟩, -⟩, token, htoken⟩, -⟩, leaseUntil, hlease, -⟩, hprincipal⟩ :=
    h
  refine ⟨epoch, token, leaseUntil, ?_⟩
  rcases hprincipal with hnull | htable
  · exact ⟨.null, hepoch, htoken, hlease, hnull⟩
  · cases hget : record.get "principal" with
    | none => simp [hget, Value.isTable] at htable
    | some principal => exact ⟨principal, hepoch, htoken, hlease, rfl⟩

/-- The register noted for an authority that is created is the one its records show. -/
theorem shows_created {existing : Option Value} (id : Identity) (nonceBinding : String)
    (hfirst : id.generation = 1) (hvalid : ∀ record ∈ existing, validV1 record = true)
    (hsettled : ∀ record ∈ existing, record.Settled) :
    Shows id.incarnationDigest id.contextHandle (authorityRecord id).recode
      (migratedRecord (existing.getD (anonymousRecord nonceBinding)) id).recode
      (originOf existing) where
  authority_generation := by cases existing <;> simp [authorityRecord, originOf, hfirst]
  authority_handle := by simp [authorityRecord]
  authority_ticket := by cases existing <;> simp [authorityRecord, originOf]
  context_schema := by simp [migratedRecord]
  context_digest := by simp [migratedRecord]
  context_epoch := by
    cases existing with
    | none => simp [migratedRecord, originOf, anonymousRecord]
    | some record =>
      have := hvalid record rfl
      simp only [validV1, Bool.and_eq_true] at this
      obtain ⟨epoch, _, _, _, hepoch, -⟩ := fields_of_validOperation this.2
      simp [migratedRecord, originOf, hepoch, Value.num_of_get hepoch]
  context_lease := by
    cases existing with
    | none =>
      rw [leaseOf_eq (by simp [migratedRecord, anonymousRecord]; rfl)
        (by simp [migratedRecord, anonymousRecord]; rfl), if_pos rfl]
      rfl
    | some record =>
      have := hvalid record rfl
      simp only [validV1, Bool.and_eq_true] at this
      obtain ⟨_, token, leaseUntil, _, -, htoken, hlease, -⟩ := fields_of_validOperation this.2
      rw [leaseOf_eq (by simp [migratedRecord, htoken]; rfl)
        (by simp [migratedRecord, hlease]; rfl), originOf, leaseOf_eq htoken hlease]
  context_principal := by
    cases existing with
    | none => simp [migratedRecord, originOf, anonymousRecord]
    | some record =>
      have := hvalid record rfl
      simp only [validV1, Bool.and_eq_true] at this
      obtain ⟨_, _, _, principal, -, -, -, hprincipal⟩ := fields_of_validOperation this.2
      have hvalue := (hsettled record rfl).get hprincipal
      simp [migratedRecord, originOf, hprincipal, hvalue]

/-! ## Writes and sessions -/

namespace Write

variable {r r' : Redis} {id : Identity} {note : Option Note} {digest : String} {session : Session}

theorem authority_frame (h : Write r id r' note) (hne : digest ≠ id.incarnationDigest) :
    Hash.hget r'.entries (.authority digest) = Hash.hget r.entries (.authority digest) := by
  cases h with
  | unnoted same => exact same.authority digest
  | read => rfl
  | created => simp [ExpiringStore.hget_put, Identity.authorityKey, Identity.contextKey, hne]
  | ticketed => simp [ExpiringStore.hget_put, Identity.authorityKey, hne]
  | rotated about =>
    subst about
    simp [ExpiringStore.hget_put, Identity.authorityKey, Identity.contextKey,
      RotateArgs.target, hne]
  | begun => simp [ExpiringStore.hget_put, Identity.contextKey]
  | committed _ _ _ _ _ _ _ _ _ same =>
    rw [ExpiringStore.hget_put, if_neg (by simp [Identity.contextKey]), same.authority]

/-- A context is written over only where there is none, where it is one of version 1, or where it
belongs to the browser authority of the call. -/
theorem context_frame (h : Write r id r' note) (handle : String) :
    Hash.hget r'.entries (.context handle) = Hash.hget r.entries (.context handle) ∨
    r.get (.context handle) = none ∨
    ∃ context, r.record (.context handle) = some context ∧
      (context.get "schema_version" = some (.number 1) ∨
        context.get "incarnation_digest" = some (.str id.incarnationDigest)) := by
  by_cases hhandle : handle = id.contextHandle
  · subst hhandle
    have hown : ∀ {authority context ttl}, r.current id = some (authority, context, ttl) →
        ∃ context, r.record (.context id.contextHandle) = some context ∧
          (context.get "schema_version" = some (.number 1) ∨
            context.get "incarnation_digest" = some (.str id.incarnationDigest)) := by
      intro authority context ttl hcurrent
      obtain ⟨-, hrecord, -, hsame⟩ := Redis.current_eq_some hcurrent
      exact ⟨context, hrecord, .inr (named_of_sameAuthority hsame).context_digest⟩
    cases h with
    | unnoted same => exact .inl (same.context _)
    | read => exact .inl rfl
    | @created existing _ _ first vacant found absent valid =>
      right
      cases existing with
      | none => exact .inl (absent rfl)
      | some record =>
        have hschema := valid record rfl
        simp only [validV1, Bool.and_eq_true, beq_iff_eq] at hschema
        exact .inr ⟨record, found, .inl hschema.1⟩
    | ticketed current => exact .inr (.inr (hown current))
    | rotated about current => exact .inr (.inr (hown current))
    | begun current => exact .inr (.inr (hown current))
    | committed _ current => exact .inr (.inr (hown current))
  · cases h with
    | unnoted same => exact .inl (same.context _)
    | read => exact .inl rfl
    | created =>
      left
      simp [ExpiringStore.hget_put, Identity.authorityKey, Identity.contextKey, hhandle]
    | ticketed =>
      left
      simp [ExpiringStore.hget_put, Identity.authorityKey]
    | @rotated _ _ _ args about current ticket moved vacant =>
      by_cases htarget : handle = args.newContextHandle
      · exact .inr (.inl (by rw [htarget]; exact vacant))
      · left
        simp [ExpiringStore.hget_put, Identity.authorityKey, Identity.contextKey, RotateArgs.target,
          htarget]
    | begun =>
      left
      simp [ExpiringStore.hget_put, Identity.contextKey, hhandle]
    | committed _ _ _ _ _ _ _ _ _ same =>
      left
      rw [ExpiringStore.hget_put, if_neg (by simp [Identity.contextKey, hhandle]), same.context]

/-- A call about another browser authority leaves a live context alone. -/
theorem context_kept (h : Write r id r' note) (hne : digest ≠ id.incarnationDigest)
    {handle : String} {context : Value} {expiry : ℕ}
    (hcontext : Hash.hget r.entries (.context handle) = some ⟨.json context, expiry⟩)
    (hvisible : (r.get (.context handle)).isSome = true)
    (hschema : context.recode.get "schema_version" = some (.number 2))
    (hdigest : context.recode.get "incarnation_digest" = some (.str digest)) :
    Hash.hget r'.entries (.context handle) = some ⟨.json context, expiry⟩ := by
  have hget := get_eq_of_isSome hcontext hvisible
  have hrecord := Redis.record_of_get hget hschema
  rcases h.context_frame handle with hsame | hnone | ⟨other, hother, hschema' | hdigest'⟩
  · exact hsame.trans hcontext
  · rw [hget] at hnone
    cases hnone
  · rw [hrecord] at hother
    cases hother
    rw [hschema] at hschema'
    simp at hschema'
  · rw [hrecord] at hother
    cases hother
    rw [hdigest] at hdigest'
    simp only [Option.some.injEq, Value.str.injEq] at hdigest'
    exact absurd hdigest' hne

theorem holds_of_ne (h : Write r id r' note) (hne : digest ≠ id.incarnationDigest)
    (hholds : Holds r digest session) (hlive : Live r digest) : Holds r' digest session := by
  obtain ⟨handle, authority, context, _, _, hauthority, hcontext, hshows⟩ := hholds
  have hvisible := (hlive _ hauthority).2 authority handle rfl hshows.authority_handle
  exact .intro ((h.authority_frame hne).trans hauthority)
    (h.context_kept hne hcontext hvisible hshows.context_schema hshows.context_digest) hshows

end Write

/-- What a script reads of a live browser authority is what the authority shows. -/
theorem Holds.current {id : Identity} {session : Session} {authority : Value} {ttl : ℕ}
    (h : Holds r id.incarnationDigest session) (hlive : Live r id.incarnationDigest)
    (hcurrent : r.current id = some (authority, context, ttl)) :
    Shows id.incarnationDigest id.contextHandle authority context session ∧
      id.generation = session.generation ∧ context.Settled ∧
      (∃ raw expiry, Hash.hget r.entries id.authorityKey = some ⟨.json raw, expiry⟩ ∧
        raw.recode = authority) ∧
      ∃ raw expiry, Hash.hget r.entries id.contextKey = some ⟨.json raw, expiry⟩ ∧
        raw.recode = context := by
  obtain ⟨hauthority, hcontext, -, hsame⟩ := Redis.current_eq_some hcurrent
  have hnamed := named_of_sameAuthority hsame
  obtain ⟨handle, rawAuthority, rawContext, _, _, hentry, hentry', hshows⟩ := h
  obtain ⟨hvisible, hvisible'⟩ := hlive _ hentry
  have hrecord := Redis.record_of_get (get_eq_of_isSome hentry hvisible) hshows.authority_handle
  cases hauthority.symm.trans hrecord
  -- the authority names one handle, so the context that was read is the one it shows
  have hhandle : handle = id.contextHandle := by
    have := hshows.authority_handle.symm.trans hnamed.authority_handle
    simpa using this
  subst hhandle
  have hrecord' := Redis.record_of_get (get_eq_of_isSome hentry'
    (hvisible' rawAuthority id.contextHandle rfl hshows.authority_handle)) hshows.context_schema
  cases hcontext.symm.trans hrecord'
  have hgeneration : id.generation = session.generation := by
    have := hnamed.authority_generation.symm.trans hshows.authority_generation
    simpa using this
  exact ⟨hshows, hgeneration, rawContext.settled_recode, ⟨_, _, hentry, rfl⟩, _, _, hentry', rfl⟩

namespace Write

variable {r r' : Redis} {id : Identity} {note : Option Note} {session : Session}

/-- A call about a live browser authority is a step of its session, or nothing it is noted for. -/
theorem holds_step (h : Write r id r' note) (hholds : Holds r id.incarnationDigest session)
    (hlive : Live r id.incarnationDigest) :
    (note = none ∧ Holds r' id.incarnationDigest session) ∨
    ∃ event session', note = some (.event event) ∧ Step r.time session event session' ∧
      Holds r' id.incarnationDigest session' := by
  cases h with
  | unnoted same =>
    obtain ⟨handle, authority, context, _, _, hauthority, hcontext, hshows⟩ := hholds
    exact .inl ⟨rfl, .intro ((same.authority _).trans hauthority) ((same.context _).trans hcontext)
      hshows⟩
  | read current =>
    obtain ⟨hshows, hgeneration, -⟩ := hholds.current hlive current
    refine .inr ⟨_, session, rfl, ?_, hholds⟩
    rw [hshows.context_principal, hgeneration]
    exact .read session
  | created first vacant =>
    -- a live authority is not vacant
    obtain ⟨handle, authority, context, _, _, hauthority, -⟩ := hholds
    have := (hlive _ hauthority).1
    rw [show r.get (.authority id.incarnationDigest) = none from vacant] at this
    cases this
  | @ticketed _ _ _ current ticketDigest deadline _ =>
    obtain ⟨hshows, -, -, -, raw, expiry, hcontext, rfl⟩ := hholds.current hlive current
    exact .inr ⟨_, _, rfl, .issued session ticketDigest,
      .intro (ExpiringStore.hget_put_self r _ _ _)
      ((r.hget_put_of_ne (by simp [Identity.authorityKey]) _ _).trans hcontext)
      (hshows.withTicket ticketDigest id.generation deadline)⟩
  | @rotated _ _ _ args about current ticket =>
    subst about
    obtain ⟨hshows, hgeneration, -⟩ := hholds.current hlive current
    have hticket : session.ticket = some args.ticketDigest := by
      have := hshows.authority_ticket.symm.trans ticket.1
      simpa using this
    have hshows' := shows_rotated args.target args.nonceBinding
    simp only [RotateArgs.target, hgeneration] at hshows'
    refine .inr ⟨_, _, rfl, .rotated hticket .null, .intro (ExpiringStore.hget_put_self _ _ _ _)
      ((ExpiringStore.hget_put_of_ne _ (by simp [Identity.authorityKey]) _ _).trans
        (ExpiringStore.hget_put_self r _ _ _)) ?_⟩
    simpa only [RotateArgs.target, hgeneration] using hshows'
  | @begun _ _ _ _ _ current nonempty kind leaseUntil _ _ _ =>
    obtain ⟨hshows, hgeneration, hsettled, ⟨raw, expiry, hauthority, rfl⟩, -⟩ :=
      hholds.current hlive current
    refine .inr ⟨_, _, rfl, ?_, .intro
      ((r.hget_put_of_ne (by simp [Identity.contextKey]) _ _).trans hauthority)
      (ExpiringStore.hget_put_self r _ _ _) (hshows.begun hsettled nonempty kind leaseUntil)⟩
    have hepoch : ⌊(session.epoch : ℚ) + 1⌋.toNat = session.epoch + 1 := by
      have : ((session.epoch : ℚ) + 1) = ((session.epoch + 1 : ℕ) : ℚ) := by push_cast; rfl
      rw [this, Int.floor_natCast, Int.toNat_natCast]
    rw [hgeneration, Value.num_of_get hshows.context_epoch, hepoch]
    exact .begun session _ leaseUntil
  | @committed _ _ _ _ args r₁ about current latest held nonempty live _ _ _ same =>
    subst about
    obtain ⟨hshows, hgeneration, -, ⟨raw, expiry, hauthority, rfl⟩, -⟩ :=
      hholds.current hlive current
    have hepoch : args.operationEpoch = session.epoch := by
      have := latest.symm.trans hshows.context_epoch
      simpa using this
    have hlease := hshows.context_lease
    rw [leaseOf, held] at hlease
    simp only [if_neg nonempty] at hlease
    refine .inr
      ⟨_, _, rfl, ?_, .intro ((r₁.hget_put_of_ne (by simp [Identity.contextKey]) _ _).trans
      ((same.authority _).trans hauthority)) (ExpiringStore.hget_put_self r₁ _ _ _)
      (hshows.committed args)⟩
    rw [hgeneration, hepoch]
    exact .committed hlease.symm live _

/-- Before its authority is created, nothing is noted but the creation. -/
theorem created_of_absent (h : Write r id r' note)
    (habsent : Hash.hget r.entries (.authority id.incarnationDigest) = none) :
    (note = none ∧ Hash.hget r'.entries (.authority id.incarnationDigest) = none) ∨
    ∃ origin, note = some (.origin origin) ∧ origin.generation = 1 ∧ origin.ticket = none ∧
      Holds r' id.incarnationDigest origin := by
  have hcurrent : ∀ {authority context ttl},
      r.current id = some (authority, context, ttl) → False := by
    intro authority context ttl hcurrent
    obtain ⟨raw, hget, -⟩ := Redis.get_of_record (Redis.current_eq_some hcurrent).1
    simp [ExpiringStore.get, ExpiringStore.find, Identity.authorityKey, habsent] at hget
  cases h with
  | unnoted same => exact .inl ⟨rfl, (same.authority _).trans habsent⟩
  | read current => exact (hcurrent current).elim
  | @created existing nonceBinding ttl first vacant found absent valid =>
    have hsettled : ∀ record ∈ existing, record.Settled := by
      rintro record hrecord
      exact Redis.settled_of_record (found.trans hrecord)
    refine .inr ⟨_, rfl, ?_, ?_, .intro (ExpiringStore.hget_put_self _ _ _ _)
      ((ExpiringStore.hget_put_of_ne _ (by simp [Identity.authorityKey]) _ _).trans
        (ExpiringStore.hget_put_self r _ _ _)) (shows_created id nonceBinding first valid hsettled)⟩
    · cases existing <;> rfl
    · cases existing <;> rfl
  | ticketed current => exact (hcurrent current).elim
  | rotated _ current => exact (hcurrent current).elim
  | begun current => exact (hcurrent current).elim
  | committed _ current => exact (hcurrent current).elim

end Write

/-! ## Runs -/

/-- Only a call that draws a ticket is noted as issuing one, and it issues the one it drew. -/
theorem Call.drawnTicket_of_note {service : Service} {call : Call} {reply : Reply}
    {ticketDigest : String} (h : call.note service r reply = some (.event (.issued ticketDigest))) :
    ∃ ticket, call.drawnTicket service = some ticket ∧
      service.digests.rotationTicket ticket = ticketDigest := by
  cases call with
  | bootstrap call =>
    cases hplan : call.plan service with
    | error e => simp [Call.note, hplan] at h
    | ok plan =>
      simp only [Call.note, hplan] at h
      cases plan with
      | issueTicket base =>
        refine ⟨call.freshTicket, by simp [Call.drawnTicket, hplan], ?_⟩
        cases reply <;> simp_all [Call.bootstrapNote]
      | _ => cases reply <;> simp_all [Call.bootstrapNote]
  | _ => cases reply <;> simp_all [Call.note]

namespace World

/-- What the journal of a browser authority says is what its records show. -/
structure Journaled (service : Service) (w : World) (digest : String) (origin : Session)
    (history : Journal) : Prop where
  first : origin.generation = 1
  unticketed : origin.ticket = none
  shown : ∃ session, Legal origin history session ∧ Holds w.redis digest session
  fresh : history.issuedTickets.Nodup
  drawn : ∀ ticketDigest ∈ history.issuedTickets,
    ∃ ticket ∈ w.drawn, service.digests.rotationTicket ticket = ticketDigest

/-- A browser authority is either not there yet, or its journal is right. -/
def Sound (service : Service) (digest : String) (w : World) : Prop :=
  (w.journal digest = none ∧ Hash.hget w.redis.entries (.authority digest) = none) ∨
  ∃ origin history, w.journal digest = some (origin, history) ∧
    Journaled service w digest origin history

variable {service : Service} {digest : String} {w : World} {label : Label}

variable {origin : Session} {history : Journal}

/-- A step that leaves the journal of `digest` and what it shows alone. -/
theorem Journaled.of_holds {w' : World} (h : Journaled service w digest origin history)
    (hdrawn : ∀ ticket ∈ w.drawn, ticket ∈ w'.drawn)
    (hholds : ∀ session, Holds w.redis digest session → Holds w'.redis digest session) :
    Journaled service w' digest origin history where
  first := h.first
  unticketed := h.unticketed
  shown := by
    obtain ⟨session, hlegal, hsession⟩ := h.shown
    exact ⟨session, hlegal, hholds session hsession⟩
  fresh := h.fresh
  drawn ticketDigest hmem := by
    obtain ⟨ticket, hticket, hdigest⟩ := h.drawn ticketDigest hmem
    exact ⟨ticket, hdrawn ticket hticket, hdigest⟩

section Step

variable (service : Service) (w : World) (label : Label)

/-- What a label does: the call is refused, it is answered without a note, or it is noted. -/
theorem step_cases :
    step service w label = ⟨w.redis.wait label.elapsed,
      w.drawn ++ (label.call.drawnTicket service).toList, w.journal⟩ ∨
    ∃ reply after, label.call.perform service (w.redis.wait label.elapsed) = some (reply, after) ∧
      ((label.call.note service (w.redis.wait label.elapsed) reply = none ∧
        step service w label =
          ⟨after, w.drawn ++ (label.call.drawnTicket service).toList, w.journal⟩) ∨
      ∃ note, label.call.note service (w.redis.wait label.elapsed) reply = some note ∧
        step service w label = ⟨after, w.drawn ++ (label.call.drawnTicket service).toList,
          Function.update w.journal (label.call.digest service)
            (some (noted (w.journal (label.call.digest service))
              (w.redis.wait label.elapsed).time note))⟩) := by
  simp only [step]
  cases hperform : label.call.perform service (w.redis.wait label.elapsed) with
  | none => exact .inl rfl
  | some result =>
    obtain ⟨reply, after⟩ := result
    refine .inr ⟨reply, after, rfl, ?_⟩
    cases hnote : label.call.note service (w.redis.wait label.elapsed) reply with
    | none => exact .inl ⟨rfl, by simp only [hnote]⟩
    | some note => exact .inr ⟨note, rfl, by simp only [hnote]⟩

end Step

/-- A noted event extends the journal; a ticket it issues was drawn just now. -/
theorem Journaled.snoc {session session' : Session} {event : Event String String Value}
    {reply : Reply} {after : Redis} {journal} (h : Journaled service w digest origin history)
    (hfresh : Fresh service w label) (hlegal : Legal origin history session)
    (hstep : Step (w.redis.wait label.elapsed).time session event session')
    (hholds : Holds after digest session')
    (hnote : label.call.note service (w.redis.wait label.elapsed) reply = some (.event event)) :
    Journaled service ⟨after, w.drawn ++ (label.call.drawnTicket service).toList, journal⟩ digest
      origin (history ++ [((w.redis.wait label.elapsed).time, event)]) where
  first := h.first
  unticketed := h.unticketed
  shown := ⟨session', hlegal.snoc hstep, hholds⟩
  fresh := by
    rw [History.issuedTickets_snoc]
    refine List.nodup_append'.mpr ⟨h.fresh, by cases event <;> simp [Event.issuedTicket], ?_⟩
    -- a ticket that is drawn now has a digest of its own
    intro ticketDigest hold hnew
    cases event with
    | issued issuedDigest =>
      simp only [Event.issuedTicket, Option.toList_some, List.mem_singleton] at hnew
      obtain ⟨ticket, hticket, heq⟩ := Call.drawnTicket_of_note hnote
      obtain ⟨earlier, hearlier, heq'⟩ := h.drawn ticketDigest hold
      have hsame : earlier = ticket :=
        service.digests.rotationTicket_injective (heq'.trans (hnew.trans heq.symm))
      exact hfresh ticket hticket (hsame ▸ hearlier)
    | _ => simp [Event.issuedTicket] at hnew
  drawn ticketDigest hmem := by
    rw [History.issuedTickets_snoc, List.mem_append] at hmem
    rcases hmem with hmem | hmem
    · obtain ⟨ticket, hticket, hdigest⟩ := h.drawn ticketDigest hmem
      exact ⟨ticket, List.mem_append_left _ hticket, hdigest⟩
    · cases event with
      | issued issuedDigest =>
        simp only [Event.issuedTicket, Option.toList_some, List.mem_singleton] at hmem
        obtain ⟨ticket, hticket, heq⟩ := Call.drawnTicket_of_note hnote
        exact ⟨ticket, by simp [hticket], heq.trans hmem.symm⟩
      | _ => simp [Event.issuedTicket] at hmem

/-- The journal of a live authority grows by what the step is noted as, and stays right. -/
theorem Journaled.step (h : Journaled service w digest origin history)
    (hjournal : w.journal digest = some (origin, history)) (hfresh : Fresh service w label)
    (halive : Alive digest w label) :
    ∃ more, (World.step service w label).journal digest = some (origin, history ++ more) ∧
      Journaled service (World.step service w label) digest origin (history ++ more) := by
  have hdrawn : ∀ ticket ∈ w.drawn, ticket ∈ w.drawn ++ (label.call.drawnTicket service).toList :=
    fun ticket hticket => List.mem_append_left _ hticket
  rcases step_cases service w label with heq | ⟨reply, after, hperform, hcase⟩
  · rw [heq]
    refine ⟨[], by simpa using hjournal, ?_⟩
    rw [List.append_nil]
    exact h.of_holds hdrawn fun session hsession => hsession
  obtain ⟨id, hid, hwrite⟩ := Call.perform_write hperform
  by_cases hdigest : digest = id.incarnationDigest
  · subst hdigest
    obtain ⟨session, hlegal, hholds⟩ := h.shown
    rcases hcase with ⟨hnote, heq⟩ | ⟨note, hnote, heq⟩
    · rw [hnote] at hwrite
      rw [heq]
      refine ⟨[], by simpa using hjournal, ?_⟩
      rw [List.append_nil]
      refine h.of_holds hdrawn fun session hsession => ?_
      rcases hwrite.holds_step hsession halive with ⟨-, hholds'⟩ | ⟨_, _, hsome, -⟩
      · exact hholds'
      · cases hsome
    · rcases hwrite.holds_step hholds halive with
        ⟨hnone, -⟩ | ⟨event, session', hevent, hstep, hholds'⟩
      · rw [hnote] at hnone
        cases hnone
      · cases hnote.symm.trans hevent
        rw [heq]
        exact ⟨_, by simp [← hid, noted, hjournal], h.snoc hfresh hlegal hstep hholds' hevent⟩
  · have hother : digest ≠ label.call.digest service := fun hsame => hdigest (hsame.trans hid.symm)
    refine ⟨[], ?_, ?_⟩
    · rcases hcase with ⟨-, heq⟩ | ⟨note, -, heq⟩ <;> simp [heq, hjournal, hother]
    · rw [List.append_nil]
      rcases hcase with ⟨-, heq⟩ | ⟨note, -, heq⟩ <;>
      · rw [heq]
        exact h.of_holds hdrawn fun session hsession => hwrite.holds_of_ne hdigest hsession halive

theorem Sound.step (h : Sound service digest w) (hfresh : Fresh service w label)
    (halive : Alive digest w label) : Sound service digest (World.step service w label) := by
  rcases h with ⟨hnone, habsent⟩ | ⟨origin, history, hjournal, hright⟩
  · rcases step_cases service w label with heq | ⟨reply, after, hperform, hcase⟩
    · rw [heq]
      exact .inl ⟨hnone, habsent⟩
    obtain ⟨id, hid, hwrite⟩ := Call.perform_write hperform
    by_cases hdigest : digest = id.incarnationDigest
    · subst hdigest
      rcases hwrite.created_of_absent habsent with ⟨hunnoted, habsent'⟩ |
        ⟨origin, horigin, hfirst, hunticketed, hholds⟩
      · rcases hcase with ⟨-, heq⟩ | ⟨note, hnote, -⟩
        · rw [heq]
          exact .inl ⟨hnone, habsent'⟩
        · rw [hnote] at hunnoted
          cases hunnoted
      · rcases hcase with ⟨hnote, -⟩ | ⟨note, hnote, heq⟩
        · rw [hnote] at horigin
          cases horigin
        · cases hnote.symm.trans horigin
          rw [heq]
          refine .inr ⟨origin, [], by simp [← hid, noted], hfirst, hunticketed,
            ⟨origin, .nil, hholds⟩, ?_, ?_⟩ <;> simp [History.issuedTickets]
    · have hother : digest ≠ label.call.digest service :=
        fun hsame => hdigest (hsame.trans hid.symm)
      have habsent' := (hwrite.authority_frame hdigest).trans habsent
      left
      rcases hcase with ⟨-, heq⟩ | ⟨note, -, heq⟩ <;> simp [heq, hnone, hother, habsent']
  · obtain ⟨more, hjournal', hright'⟩ := hright.step hjournal hfresh halive
    exact .inr ⟨origin, history ++ more, hjournal', hright'⟩

/-- Once an authority has started, its journal only grows. -/
theorem Journaled.runFrom {redis : Redis} {labels : List Label} {w : World}
    (h : Journaled service w digest origin history)
    (hjournal : w.journal digest = some (origin, history))
    (hmeets : (system service redis).Meets
      (fun w label => Fresh service w label ∧ Alive digest w label) w labels) :
    ∃ more, ((system service redis).runFrom w labels).journal digest =
      some (origin, history ++ more) := by
  induction labels generalizing w history with
  | nil => exact ⟨[], by simpa using hjournal⟩
  | cons label labels ih =>
    obtain ⟨more, hjournal', hright⟩ := h.step hjournal hmeets.1.1 hmeets.1.2
    obtain ⟨rest, hrest⟩ := ih hright hjournal' hmeets.2
    exact ⟨more ++ rest, by rw [← List.append_assoc]; exact hrest⟩

/-- Rotations, commits and reads of one browser authority, in every interleaving of calls: its
generation counts the rotations, its history is fenced, and no effect is forgotten. -/
theorem browser_authority_is_fenced (service : Service) (redis : Redis) (digest : String)
    (labels : List Label) (hvacant : Hash.hget redis.entries (.authority digest) = none)
    (hmeets : (system service redis).Meets
      (fun w label => Fresh service w label ∧ Alive digest w label)
      (system service redis).start labels) :
    ∀ origin history, ((system service redis).run labels).journal digest = some (origin, history) →
      origin.generation = 1 ∧ Fenced origin history ∧
      (∃ authority expiry,
        Hash.hget ((system service redis).run labels).redis.entries (.authority digest) =
          some ⟨.json authority, expiry⟩ ∧
        authority.recode.get "generation" =
          some (.number ((1 + history.usedTickets.length : ℕ) : ℚ))) ∧
      ∀ earlier later, labels = earlier ++ later → ∀ origin₁ history₁,
        ((system service redis).run earlier).journal digest = some (origin₁, history₁) →
          origin₁ = origin ∧ history₁ <+: history := by
  intro origin history hjournal
  have hstart : Sound service digest (system service redis).start := .inl ⟨rfl, hvacant⟩
  have hsound : ∀ {ls}, (system service redis).Meets
      (fun w label => Fresh service w label ∧ Alive digest w label)
      (system service redis).start ls → Sound service digest ((system service redis).run ls) :=
    Machine.invariant_run hstart fun w label h hc => h.step hc.1 hc.2
  rcases hsound hmeets with ⟨hnone, -⟩ | ⟨origin', history', hjournal', hright⟩
  · rw [hnone] at hjournal
    cases hjournal
  cases hjournal'.symm.trans hjournal
  obtain ⟨session, hlegal, handle, authority, context, expiry, _, hentry, -, hshows⟩ := hright.shown
  refine ⟨hright.first, hlegal.fenced hright.unticketed hright.fresh,
    ⟨authority, expiry, hentry, ?_⟩, ?_⟩
  · rw [hshows.authority_generation, hlegal.generation_eq, hright.first]
  · rintro earlier later rfl origin₁ history₁ hearlier
    have hsplit := Machine.meets_append.mp hmeets
    rcases hsound hsplit.1 with ⟨hnone, -⟩ | ⟨origin₂, history₂, hjournal₂, hright₂⟩
    · rw [hnone] at hearlier
      cases hearlier
    cases hjournal₂.symm.trans hearlier
    obtain ⟨more, hmore⟩ := hright₂.runFrom hearlier hsplit.2
    rw [Machine.run_append] at hjournal
    cases hmore.symm.trans hjournal
    exact ⟨rfl, List.prefix_append history₁ more⟩

/-! ### A login -/

def liveCheck (r : Redis) (digest : String) : Bool :=
  match Hash.hget r.entries (.authority digest) with
  | none => true
  | some entry => (r.get (.authority digest)).isSome &&
    match entry.value with
    | .text _ => true
    | .json authority =>
      match authority.recode.get "context_handle" with
      | some (.str handle) => (r.get (.context handle)).isSome
      | _ => true

theorem liveCheck_iff (r : Redis) (digest : String) :
    liveCheck r digest = true ↔ Live r digest := by
  unfold liveCheck Live
  cases Hash.hget r.entries (.authority digest) with
  | none => simp
  | some entry =>
    obtain ⟨raw, expiry⟩ := entry
    cases raw with
    | text content => simp
    | json authority =>
      simp only [Option.mem_def, Option.some.injEq, forall_eq', Raw.json.injEq, Bool.and_eq_true]
      refine and_congr_right fun _ => ⟨?_, fun h => ?_⟩
      · rintro h _ handle rfl hhandle
        simpa only [hhandle] using h
      · split
        · rename_i handle hhandle
          exact h authority handle rfl hhandle
        · rfl

instance (digest : String) (w : World) (label : Label) : Decidable (Alive digest w label) :=
  decidable_of_iff _ (liveCheck_iff _ digest)

instance (service : Service) (w : World) (label : Label) : Decidable (Fresh service w label) :=
  decidable_of_iff ((label.call.drawnTicket service).all (· ∉ w.drawn) = true) (by
    cases h : label.call.drawnTicket service <;> simp [Fresh, h])

/-- Digests that are the texts themselves. -/
def plainDigests : Digests where
  contextHandle := id
  nonceBinding := id
  browserAuthority := id
  rotationTicket := id
  contextHandle_injective := Function.injective_id
  nonceBinding_injective := Function.injective_id
  browserAuthority_injective := Function.injective_id
  rotationTicket_injective := Function.injective_id

def plainService : Service := ⟨plainDigests, 3600, 90⟩

def browser : String := "AAAAAAAAAAAAAAAAAAAAAAAAAAAAAAAAAAAAAAAAAAA"

def rotationTicket : String := "TTTTTTTTTTTTTTTTTTTTTTTTTTTTTTTTTTTTTTTTTTT"

/-- A login, a read of its principal, and a rotation with a ticket. -/
def loginLabels : List Label :=
  [⟨0, .bootstrap ⟨"n", browser, 1, none, none, false, ""⟩⟩,
    ⟨1000000, .begin ⟨browser, 1, "n"⟩ "login" "t"⟩,
    ⟨1000000, .commit ⟨⟨browser, 1, "n"⟩, 1, "t", "login"⟩ (.obj [("user_id", .str "u")]) none⟩,
    ⟨1000000, .readPrincipal ⟨browser, 1, "n"⟩⟩,
    ⟨1000000, .bootstrap ⟨"m", browser, 1, some (.v2 ⟨browser, 1, "n"⟩), none, false,
      rotationTicket⟩⟩,
    ⟨1000000, .bootstrap ⟨"m", browser, 2, some (.v2 ⟨browser, 1, "n"⟩), some rotationTicket, false,
      ""⟩⟩]

theorem browser_login_is_fenced : ∃ origin history,
    ((system plainService ⟨∅, 0⟩).run loginLabels).journal browser = some (origin, history) ∧
      history.length = 5 ∧ Fenced origin history := by
  have hjournal : ((system plainService ⟨∅, 0⟩).run loginLabels).journal browser =
      some (⟨1, 0, none, .null, none⟩, [(1, .begun 1 1 "t" 91),
        (2, .committed 1 1 "t" (.obj [("user_id", .str "u")])),
        (3, .read 1 (.obj [("user_id", .str "u")])), (4, .issued rotationTicket),
        (5, .rotated rotationTicket .null)]) := by
    decide +kernel
  exact ⟨_, _, hjournal, rfl, (browser_authority_is_fenced plainService ⟨∅, 0⟩ browser loginLabels
    (by decide) (by decide +kernel) _ _ hjournal).2.1⟩

end World

end AiPlatform.Auth
