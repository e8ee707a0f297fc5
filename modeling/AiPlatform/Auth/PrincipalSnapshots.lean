import AiPlatform.Auth.SessionFencing
import AiPlatform.Kernel.Unicode

/-!
# Principals in browser contexts

A principal is committed as a dictionary and read back through a strict validator. In between it
goes through the script encoder, which turns empty arrays into objects; the validator undoes that
for the department lists only.
-/
namespace AiPlatform.Auth

open AiPlatform.Foundation AiPlatform.Foundation.Fencing AiPlatform.Kernel

/-! ## Snapshots -/

structure AuthPrincipal where
  userId : String
  displayName : String
  tenantId : String
  departmentId : String
  roles : List String
  permissions : List String
  source : String
  authzPolicyVersion : ℤ
  authoritySource : String
  authorityCheckedAt : String
  companyJwtExpiresAt : Option ℤ
  companyUsername : String
  companyDepartment : String
  companyRole : String
  directDepartmentIds : List String
  departmentIds : List String
  departmentAuthorityStatus : String

/-- The dictionary that `principal_snapshot` builds and `_valid_snapshot` returns. -/
structure Snapshot where
  userId : String
  displayName : String
  tenantId : String
  departmentId : String
  directDepartmentIds : List String
  departmentIds : List String
  departmentAuthorityStatus : String
  roles : List String
  permissions : List String
  source : String
  authzPolicyVersion : ℤ
  authoritySource : String
  authorityCheckedAt : String
  companyUsername : String
  companyDepartment : String
  companyRole : String
  companyJwtExpiresAt : Option ℤ
  deriving DecidableEq

/-- `principal_snapshot` -/
def AuthPrincipal.snapshot (p : AuthPrincipal) : Snapshot where
  userId := p.userId
  displayName := p.displayName
  tenantId := p.tenantId
  departmentId := p.departmentId
  directDepartmentIds := p.directDepartmentIds
  departmentIds := p.departmentIds
  departmentAuthorityStatus := p.departmentAuthorityStatus
  roles := p.roles
  permissions := p.permissions
  source := p.source
  authzPolicyVersion := p.authzPolicyVersion
  authoritySource := if p.authoritySource = "" then p.source else p.authoritySource
  authorityCheckedAt := p.authorityCheckedAt
  companyUsername := p.companyUsername
  companyDepartment := p.companyDepartment
  companyRole := p.companyRole
  companyJwtExpiresAt := p.companyJwtExpiresAt

def strings (items : List String) : Value := .arr (items.map .str)

namespace Snapshot

def expiryMembers (s : Snapshot) : List (String × Value) :=
  match s.companyJwtExpiresAt with
  | none => []
  | some expiry => [("company_jwt_expires_at", .number expiry)]

def dict (s : Snapshot) : Value :=
  .obj (("user_id", .str s.userId) :: ("display_name", .str s.displayName) ::
    ("tenant_id", .str s.tenantId) :: ("department_id", .str s.departmentId) ::
    ("direct_department_ids", strings s.directDepartmentIds) ::
    ("department_ids", strings s.departmentIds) ::
    ("department_authority_status", .str s.departmentAuthorityStatus) ::
    ("roles", strings s.roles) :: ("permissions", strings s.permissions) ::
    ("source", .str s.source) :: ("authz_policy_version", .number s.authzPolicyVersion) ::
    ("authority_source", .str s.authoritySource) ::
    ("authority_checked_at", .str s.authorityCheckedAt) ::
    ("company_username", .str s.companyUsername) ::
    ("company_department", .str s.companyDepartment) ::
    ("company_role", .str s.companyRole) :: s.expiryMembers)

/-- The same snapshot, up to the order of the department ids. -/
def Same (s t : Snapshot) : Prop :=
  s.directDepartmentIds.Perm t.directDepartmentIds ∧ s.departmentIds.Perm t.departmentIds ∧
    { s with directDepartmentIds := [], departmentIds := [] } =
      { t with directDepartmentIds := [], departmentIds := [] }

end Snapshot

/-! ## The validator -/

/-- What the interpreter knows: its character tables, and which texts `datetime.fromisoformat`
reads, `Z` meaning `+00:00`, as a time with a zone. -/
structure Runtime where
  unicode : Unicode
  parsesAware : String → Bool

/-- `text.strip()` is not empty. -/
def Runtime.nonblank (rt : Runtime) (text : String) : Bool :=
  text.toList.any fun c => !rt.unicode.isSpace c

def asString : Option Value → Option String
  | some (.str s) => some s
  | _ => none

/-- A list of strings. -/
def asStrings : Option Value → Option (List String)
  | some (.arr items) => items.mapM fun v => asString (some v)
  | _ => none

def asInt : Option Value → Option ℤ
  | some (.number q) => if q.den = 1 then some q.num else none
  | _ => none

/-- `value.get(name, "")`, which must be a string. -/
def companyField (value : Value) (name : String) : Option String :=
  match value.get name with
  | none => some ""
  | field => asString field

/-- `company_jwt_expires_at`: absent, or a positive integer. -/
def expiryField (value : Value) : Option (Option ℤ) :=
  match value.get "company_jwt_expires_at" with
  | none => some none
  | some .null => some none
  | field =>
    match asInt field with
    | some expiry => if 0 < expiry then some (some expiry) else none
    | none => none

/-- `[] if value[name] == {} else value[name]`. -/
def emptied : Option Value → Option Value
  | some (.obj []) => some (.arr [])
  | field => field

/-- `is_department_id` -/
def isDepartmentId (id : String) : Bool :=
  0 < id.length && id.length ≤ 10 && id.toList.head? != some '0' && id.toList.all Char.isDigit

structure DepartmentAuthority where
  directDepartmentIds : List String
  departmentIds : List String
  departmentAuthorityStatus : String

/-- The checks of `department_authority_from_snapshot`. -/
def DepartmentsAccepted (direct effective : List String) (status : String) : Prop :=
  (status = "available" ∨ status = "unavailable") ∧ direct.length ≤ 128 ∧ effective.length ≤ 1536 ∧
  (∀ id ∈ direct ++ effective, isDepartmentId id = true) ∧ direct.Nodup ∧ effective.Nodup ∧
  (∀ id ∈ direct, id ∈ effective) ∧ (status = "available" → direct ≠ []) ∧
  (status = "unavailable" → direct = [] ∧ effective = [])

instance (direct effective : List String) (status : String) :
    Decidable (DepartmentsAccepted direct effective status) :=
  inferInstanceAs (Decidable (_ ∧ _ ∧ _ ∧ _ ∧ _ ∧ _ ∧ _ ∧ _ ∧ _))

def sorted (ids : List String) : List String := ids.insertionSort (· ≤ ·)

/-- `department_authority_from_snapshot`, on the department fields of the value. -/
def departmentAuthority (direct effective status : Option Value) : Option DepartmentAuthority :=
  if direct = none ∧ effective = none ∧ status = none then some ⟨[], [], "unavailable"⟩
  else do
    let direct ← asStrings direct
    let effective ← asStrings effective
    let status ← asString status
    if DepartmentsAccepted direct effective status then
      some ⟨sorted direct, sorted effective, status⟩
    else none

/-- `_valid_snapshot` -/
def validSnapshot (rt : Runtime) (value : Value) : Option Snapshot := do
  let userId ← asString (value.get "user_id")
  let displayName ← asString (value.get "display_name")
  let tenantId ← asString (value.get "tenant_id")
  let departmentId ← asString (value.get "department_id")
  let source ← asString (value.get "source")
  let roles ← asStrings (value.get "roles")
  let permissions ← asStrings (value.get "permissions")
  let version ← asInt (value.get "authz_policy_version")
  let authoritySource ← asString (value.get "authority_source")
  let checkedAt ← asString (value.get "authority_checked_at")
  guard (1 ≤ version ∧ rt.nonblank authoritySource = true ∧ rt.nonblank checkedAt = true ∧
    rt.parsesAware checkedAt = true)
  let expiry ← expiryField value
  let username ← companyField value "company_username"
  let department ← companyField value "company_department"
  let role ← companyField value "company_role"
  let authority ← departmentAuthority (emptied (value.get "direct_department_ids"))
    (emptied (value.get "department_ids")) (value.get "department_authority_status")
  some ⟨userId, displayName, tenantId, departmentId, authority.directDepartmentIds,
    authority.departmentIds, authority.departmentAuthorityStatus, roles, permissions,
    source, version, authoritySource, checkedAt, username, department, role, expiry⟩

/-! ## The calls -/

inductive CommitStatus where
  | committed
  | superseded
  | expired
  | missing
  deriving DecidableEq

/-- What `commit_auth_operation` returns for what the script replied. -/
def commitStatus : Except Refusal (Reply × Redis) → Except AuthContextError CommitStatus
  | .ok (.committed subjectEpoch, _) =>
    if isEpoch subjectEpoch ∧ 1 ≤ subjectEpoch then .ok .committed else .error .unavailable
  | .ok _ => .error .unavailable
  | .error .superseded => .ok .superseded
  | .error .expired => .ok .expired
  | .error .missing => .ok .missing
  | .error refusal => .error (raiseForStoreStatus refusal)

/-- `commit_auth_operation` -/
def commitAuthOperation (service : Service) (r : Redis) (operation : AuthOperation)
    (principal : Value) (credential : Option (String × String × ℕ)) :
    Except AuthContextError CommitStatus := do
  let script ← Call.script service r (.commit operation principal credential)
  commitStatus script

/-- What `principal_for_cookie` makes of the principal it read. -/
def snapshotOf (rt : Runtime) (principal : Value) : Except AuthContextError (Option Snapshot) :=
  if principal = .null then .ok none
  else
    match validSnapshot rt principal with
    | some snapshot => .ok (some snapshot)
    | none => .error .unavailable

/-- `principal_for_cookie` -/
def principalForCookie (service : Service) (rt : Runtime) (r : Redis) (cookie : CookieIdentity) :
    Except AuthContextError (Option Snapshot) :=
  match principalScript r (service.identity cookie) with
  | .ok (.principal grant, _) => snapshotOf rt grant.principal
  | .ok _ => .error .unavailable
  | .error refusal => .error (raiseForStoreStatus refusal)

/-! ## Through the encoder -/

theorem mapM_asString (items : List String) :
    (items.map Value.str).mapM (fun v => asString (some v)) = some items := by
  induction items with
  | nil => rfl
  | cons item items ih =>
    rw [List.map_cons, List.mapM_cons, ih]
    rfl

theorem asStrings_strings (items : List String) : asStrings (some (strings items)) = some items :=
  mapM_asString items

theorem recode_strings {items : List String} (h : items ≠ []) :
    (strings items).recode = strings items := by
  refine Value.recode_arr_of_settled (by simpa using h) ?_
  intro v hv
  obtain ⟨item, -, rfl⟩ := List.mem_map.mp hv
  rfl

/-- The department lists survive the encoder, empty or not. -/
theorem emptied_recode_strings (items : List String) :
    emptied (some (strings items).recode) = some (strings items) := by
  cases items with
  | nil => rfl
  | cons item items =>
    rw [recode_strings (by simp)]
    rfl

theorem emptied_strings (items : List String) :
    emptied (some (strings items)) = some (strings items) := by
  cases items <;> rfl

theorem asStrings_recode_strings (items : List String) :
    asStrings (some (strings items).recode) = if items = [] then none else some items := by
  split_ifs with h
  · subst h
    rfl
  · rw [recode_strings h, asStrings_strings]

theorem asInt_number (n : ℤ) : asInt (some (.number n)) = some n := by
  simp [asInt]

namespace Snapshot

variable (s : Snapshot)

/-- What the validator asks of a snapshot. -/
def Accepted (rt : Runtime) (s : Snapshot) : Prop :=
  (1 ≤ s.authzPolicyVersion ∧ rt.nonblank s.authoritySource = true ∧
    rt.nonblank s.authorityCheckedAt = true ∧ rt.parsesAware s.authorityCheckedAt = true) ∧
  (∀ expiry ∈ s.companyJwtExpiresAt, 0 < expiry) ∧
  DepartmentsAccepted s.directDepartmentIds s.departmentIds s.departmentAuthorityStatus

instance (rt : Runtime) : Decidable (s.Accepted rt) :=
  have : Decidable (∀ expiry ∈ s.companyJwtExpiresAt, 0 < expiry) :=
    decidable_of_iff (s.companyJwtExpiresAt.all (0 < ·) = true) (by
      cases s.companyJwtExpiresAt <;> simp)
  inferInstanceAs (Decidable (_ ∧ _ ∧ _))

/-- The snapshot with its department ids in order, as the validator returns it. -/
def normalized : Snapshot :=
  { s with directDepartmentIds := sorted s.directDepartmentIds
           departmentIds := sorted s.departmentIds }

theorem expiryField_dict :
    expiryField s.dict =
      if ∀ expiry ∈ s.companyJwtExpiresAt, 0 < expiry then some s.companyJwtExpiresAt
        else none := by
  cases hexpiry : s.companyJwtExpiresAt with
  | none => simp [expiryField, dict, expiryMembers, hexpiry]
  | some expiry => simp [expiryField, dict, expiryMembers, hexpiry, asInt_number]

theorem expiryField_recode_dict : expiryField s.dict.recode = expiryField s.dict := by
  cases hexpiry : s.companyJwtExpiresAt with
  | none => simp [expiryField, dict, expiryMembers, hexpiry]
  | some expiry => simp [expiryField, dict, expiryMembers, hexpiry]

/-- The validator reads the fields of `s` in `value`. -/
structure ReadIn (s : Snapshot) (value : Value) : Prop where
  userId : asString (value.get "user_id") = some s.userId
  displayName : asString (value.get "display_name") = some s.displayName
  tenantId : asString (value.get "tenant_id") = some s.tenantId
  departmentId : asString (value.get "department_id") = some s.departmentId
  source : asString (value.get "source") = some s.source
  roles : asStrings (value.get "roles") = some s.roles
  permissions : asStrings (value.get "permissions") = some s.permissions
  version : asInt (value.get "authz_policy_version") = some s.authzPolicyVersion
  authoritySource : asString (value.get "authority_source") = some s.authoritySource
  checkedAt : asString (value.get "authority_checked_at") = some s.authorityCheckedAt
  expiry : expiryField value =
    if ∀ expiry ∈ s.companyJwtExpiresAt, 0 < expiry then some s.companyJwtExpiresAt else none
  username : companyField value "company_username" = some s.companyUsername
  department : companyField value "company_department" = some s.companyDepartment
  role : companyField value "company_role" = some s.companyRole
  direct : emptied (value.get "direct_department_ids") = some (strings s.directDepartmentIds)
  effective : emptied (value.get "department_ids") = some (strings s.departmentIds)
  status : value.get "department_authority_status" = some (.str s.departmentAuthorityStatus)

theorem readIn_dict : s.ReadIn s.dict where
  userId := by simp [dict, asString]
  displayName := by simp [dict, asString]
  tenantId := by simp [dict, asString]
  departmentId := by simp [dict, asString]
  source := by simp [dict, asString]
  roles := by simp [dict, asStrings_strings]
  permissions := by simp [dict, asStrings_strings]
  version := by simp [dict, asInt_number]
  authoritySource := by simp [dict, asString]
  checkedAt := by simp [dict, asString]
  expiry := s.expiryField_dict
  username := by simp [dict, companyField, asString]
  department := by simp [dict, companyField, asString]
  role := by simp [dict, companyField, asString]
  direct := by simp [dict, emptied_strings]
  effective := by simp [dict, emptied_strings]
  status := by simp [dict]

/-- With a role and a permission, the encoder changes nothing that the validator reads. -/
theorem readIn_recode_dict (hroles : s.roles ≠ []) (hpermissions : s.permissions ≠ []) :
    s.ReadIn s.dict.recode where
  userId := by simp [dict, asString]
  displayName := by simp [dict, asString]
  tenantId := by simp [dict, asString]
  departmentId := by simp [dict, asString]
  source := by simp [dict, asString]
  roles := by simp [dict, asStrings_recode_strings, hroles]
  permissions := by simp [dict, asStrings_recode_strings, hpermissions]
  version := by simp [dict, asInt_number]
  authoritySource := by simp [dict, asString]
  checkedAt := by simp [dict, asString]
  expiry := s.expiryField_recode_dict.trans s.expiryField_dict
  username := by simp [dict, companyField, asString]
  department := by simp [dict, companyField, asString]
  role := by simp [dict, companyField, asString]
  direct := by simp [dict, emptied_recode_strings]
  effective := by simp [dict, emptied_recode_strings]
  status := by simp [dict]

variable {s}

theorem departmentAuthority_strings (direct effective : List String) (status : String) :
    departmentAuthority (some (strings direct)) (some (strings effective)) (some (.str status)) =
      if DepartmentsAccepted direct effective status then
        some ⟨sorted direct, sorted effective, status⟩ else none := by
  simp [departmentAuthority, asStrings_strings, asString]

theorem ReadIn.validSnapshot_eq {value : Value} (h : s.ReadIn value) (rt : Runtime) :
    validSnapshot rt value = if s.Accepted rt then some s.normalized else none := by
  unfold validSnapshot
  simp only [h.userId, h.displayName, h.tenantId, h.departmentId, h.source, h.roles, h.permissions,
    h.version, h.authoritySource, h.checkedAt, h.expiry, h.username, h.department, h.role, h.direct,
    h.effective, h.status, departmentAuthority_strings, Option.bind_eq_bind, Option.bind_some]
  by_cases hchecks : 1 ≤ s.authzPolicyVersion ∧ rt.nonblank s.authoritySource = true ∧
      rt.nonblank s.authorityCheckedAt = true ∧ rt.parsesAware s.authorityCheckedAt = true
  · by_cases hexpiry : ∀ expiry ∈ s.companyJwtExpiresAt, 0 < expiry
    · by_cases hdepartments : DepartmentsAccepted s.directDepartmentIds s.departmentIds
          s.departmentAuthorityStatus
      · rw [if_pos (show s.Accepted rt from ⟨hchecks, hexpiry, hdepartments⟩), if_pos hexpiry]
        simp [guard, hchecks, hdepartments, normalized]
      · rw [if_neg (fun hacc : s.Accepted rt => hdepartments hacc.2.2), if_pos hexpiry]
        simp [guard, hchecks, hdepartments]
    · rw [if_neg (fun hacc : s.Accepted rt => hexpiry hacc.2.1), if_neg hexpiry]
      simp [guard, hchecks]
  · rw [if_neg (fun hacc : s.Accepted rt => hchecks hacc.1)]
    simp [guard, hchecks]

/-- An empty list of roles or permissions comes back as an object, which is refused. -/
theorem validSnapshot_recode_of_empty (rt : Runtime) (h : s.roles = [] ∨ s.permissions = []) :
    validSnapshot rt s.dict.recode = none := by
  unfold validSnapshot
  rcases h with h | h
  · have hroles : asStrings (s.dict.recode.get "roles") = none := by
      simp [dict, asStrings_recode_strings, h]
    simp [hroles, -Value.get_recode]
  · have hpermissions : asStrings (s.dict.recode.get "permissions") = none := by
      simp [dict, asStrings_recode_strings, h]
    simp [hpermissions, -Value.get_recode]

/-! ### Up to the order of department ids -/

theorem Same.refl (s : Snapshot) : s.Same s := ⟨.refl _, .refl _, rfl⟩

theorem Same.trans {t u : Snapshot} (h : s.Same t) (h' : t.Same u) : s.Same u :=
  ⟨h.1.trans h'.1, h.2.1.trans h'.2.1, h.2.2.trans h'.2.2⟩

theorem same_normalized (s : Snapshot) : s.normalized.Same s :=
  ⟨List.perm_insertionSort _ _, List.perm_insertionSort _ _, rfl⟩

theorem Same.fields {t : Snapshot} (h : s.Same t) :
    s.roles = t.roles ∧ s.permissions = t.permissions ∧
      s.authzPolicyVersion = t.authzPolicyVersion ∧ s.authoritySource = t.authoritySource ∧
      s.authorityCheckedAt = t.authorityCheckedAt ∧
      s.companyJwtExpiresAt = t.companyJwtExpiresAt ∧
      s.departmentAuthorityStatus = t.departmentAuthorityStatus := by
  have h := h.2.2
  simp only [Snapshot.mk.injEq] at h
  tauto

end Snapshot

theorem DepartmentsAccepted.perm {direct direct' effective effective' : List String}
    {status : String}
    (h : DepartmentsAccepted direct effective status) (hdirect : direct.Perm direct')
    (heffective : effective.Perm effective') : DepartmentsAccepted direct' effective' status := by
  obtain ⟨hstatus, hlength, hlength', hids, hnodup, hnodup', hsub, havailable, hunavailable⟩ := h
  refine ⟨hstatus, hdirect.length_eq ▸ hlength, heffective.length_eq ▸ hlength', ?_,
    hdirect.nodup_iff.mp hnodup, heffective.nodup_iff.mp hnodup', ?_, ?_, ?_⟩
  · intro id hid
    exact hids id ((hdirect.append heffective).mem_iff.mpr hid)
  · intro id hid
    exact heffective.mem_iff.mp (hsub id (hdirect.mem_iff.mpr hid))
  · rintro hst rfl
    exact havailable hst hdirect.eq_nil
  · intro hst
    obtain ⟨rfl, rfl⟩ := hunavailable hst
    exact ⟨hdirect.nil_eq.symm, heffective.nil_eq.symm⟩

theorem Snapshot.Accepted.of_same {rt : Runtime} {s t : Snapshot} (h : s.Accepted rt)
    (hsame : s.Same t) : t.Accepted rt := by
  obtain ⟨-, -, hversion, hsource, hchecked, hexpiry, hstatus⟩ := hsame.fields
  obtain ⟨hchecks, hpositive, hdepartments⟩ := h
  rw [hversion, hsource, hchecked] at hchecks
  rw [hexpiry] at hpositive
  rw [hstatus] at hdepartments
  exact ⟨hchecks, hpositive, hdepartments.perm hsame.1 hsame.2.1⟩

/-- What reading a committed snapshot gives, once the encoder had its way with it. -/
theorem snapshotOf_recode_dict {rt : Runtime} {s : Snapshot} (h : s.Accepted rt) :
    snapshotOf rt s.dict.recode =
      if s.roles ≠ [] ∧ s.permissions ≠ [] then .ok (some s.normalized)
        else .error .unavailable := by
  have hne : s.dict.recode ≠ .null := by simp [Snapshot.dict, Value.recode]
  rw [snapshotOf, if_neg hne]
  split_ifs with hlists
  · rw [(s.readIn_recode_dict hlists.1 hlists.2).validSnapshot_eq rt, if_pos h]
  · rw [Snapshot.validSnapshot_recode_of_empty rt (by tauto)]

/-! ## Records stay valid -/

@[simp] theorem epoch_map_recode (v : Option Value) : epoch (v.map Value.recode) = epoch v := by
  rcases v with _ | v
  · rfl
  · cases v with
    | arr items => cases items <;> rfl
    | _ => rfl

@[simp] theorem nonnegative_map_recode (v : Option Value) :
    nonnegative (v.map Value.recode) = nonnegative v := by
  rcases v with _ | v
  · rfl
  · cases v with
    | arr items => cases items <;> rfl
    | _ => rfl

theorem beq_some_of_iff {v : Option Value} {x : Value} (h : ∀ y : Value, y.recode = x ↔ y = x) :
    (v.map Value.recode == some x) = (v == some x) := by
  rcases v with _ | v
  · rfl
  · rw [Bool.eq_iff_iff]
    simp [h v]

theorem beq_none_recode (v : Option Value) : (v.map Value.recode == none) = (v == none) := by
  cases v <;> rfl

theorem validOperation_recode (v : Value) : validOperation v.recode = validOperation v := by
  simp only [validOperation, Value.get_recode, Value.isString_map_recode, epoch_map_recode,
    nonnegative_map_recode, Value.isTable_map_recode, beq_some_of_iff fun _ => Value.recode_eq_null]

theorem validV2_recode (v : Value) : validV2 v.recode = validV2 v := by
  simp only [validV2, validOperation_recode, Value.num_recode, Value.get_recode,
    Value.isString_map_recode, epoch_map_recode, beq_none_recode,
    beq_some_of_iff fun _ => Value.recode_eq_number]

theorem epoch_natCast {n : ℕ} (h : n ≤ maxEpoch) : epoch (some (.number n)) = true :=
  (epoch_iff _).mpr ⟨n, rfl, h⟩

/-- A number below the bound that counts may be counted up. -/
theorem epoch_succ {record : Value} {name : String} (h : epoch (record.get name) = true)
    (hbound : record.num name < maxEpoch) :
    epoch (some (.number (record.num name + 1))) = true := by
  obtain ⟨n, hn, -⟩ := (epoch_iff _).mp h
  rw [Value.num_of_get hn] at hbound ⊢
  have hlt : n < maxEpoch := by exact_mod_cast hbound
  have hcast : ((n : ℚ) + 1) = ((n + 1 : ℕ) : ℚ) := by push_cast; rfl
  rw [hcast]
  exact epoch_natCast hlt

/-- What a valid context record holds. -/
structure ContextFields (context : Value) : Prop where
  schema : context.get "schema_version" = some (.number 2)
  protocol : context.get "protocol_version" = some (.number 2)
  digest : Value.isString (context.get "incarnation_digest") = true
  generation : epoch (context.get "generation") = true
  first : 1 ≤ context.num "generation"
  refresh : context.get "successful_refresh_epoch" = none ∨
    epoch (context.get "successful_refresh_epoch") = true ∧
      context.num "successful_refresh_epoch" ≤ context.num "operation_epoch"
  nonce : Value.isString (context.get "nonce_binding") = true
  operation : epoch (context.get "operation_epoch") = true
  subject : epoch (context.get "tenant_user_subject_epoch") = true
  token : Value.isString (context.get "operation_token") = true
  kind : Value.isString (context.get "operation_kind") = true
  lease : nonnegative (context.get "lease_until") = true
  principal : context.get "principal" = some .null ∨ Value.isTable (context.get "principal") = true

theorem validV2_iff (context : Value) : validV2 context = true ↔ ContextFields context := by
  simp only [validV2, validOperation, Bool.and_eq_true, Bool.or_eq_true, beq_iff_eq,
    decide_eq_true_eq]
  constructor
  · rintro ⟨⟨⟨⟨⟨⟨hschema, hprotocol⟩, hdigest⟩, hgeneration⟩, hfirst⟩, hrefresh⟩,
      ⟨⟨⟨⟨⟨hnonce, hoperation⟩, hsubject⟩, htoken⟩, hkind⟩, hlease⟩, hprincipal⟩
    exact ⟨hschema, hprotocol, hdigest, hgeneration, hfirst, hrefresh, hnonce, hoperation, hsubject,
      htoken, hkind, hlease, hprincipal⟩
  · intro h
    exact ⟨⟨⟨⟨⟨⟨h.schema, h.protocol⟩, h.digest⟩, h.generation⟩, h.first⟩, h.refresh⟩,
      ⟨⟨⟨⟨⟨h.nonce, h.operation⟩, h.subject⟩, h.token⟩, h.kind⟩, h.lease⟩, h.principal⟩

theorem num_nonneg_of_epoch {record : Value} {name : String} (h : epoch (record.get name) = true) :
    0 ≤ record.num name := by
  obtain ⟨n, hn, -⟩ := (epoch_iff _).mp h
  rw [Value.num_of_get hn]
  positivity

namespace ContextFields

variable {context : Value}

section

variable (h : ContextFields context)
include h

/-- A record whose evidence of a refresh is lost, or is of an epoch that is over. -/
theorem refreshed {n : ℕ} (hn : epoch (some (.number n)) = true)
    (hle : (n : ℚ) ≤ context.num "operation_epoch") :
    ContextFields (context.set "successful_refresh_epoch" (.number n)) where
  schema := by simp [h.schema]
  protocol := by simp [h.protocol]
  digest := by simp [h.digest]
  generation := by simp [h.generation]
  first := by simp [Value.num_set_of_ne, h.first]
  refresh := by simp [Value.num_set_of_ne, hn, hle]
  nonce := by simp [h.nonce]
  operation := by simp [h.operation]
  subject := by simp [h.subject]
  token := by simp [h.token]
  kind := by simp [h.kind]
  lease := by simp [h.lease]
  principal := by simpa using h.principal

/-- The epoch moves on, the other fields of the operation are replaced. -/
theorem operating (token kind : String) {epoch leaseUntil : ℚ}
    (hepoch : Auth.epoch (some (.number epoch)) = true)
    (hle : context.num "operation_epoch" ≤ epoch) (hfuture : 0 ≤ leaseUntil) :
    ContextFields ((((context.set "operation_epoch" (.number epoch)).set "operation_token"
      (.str token)).set "operation_kind" (.str kind)).set "lease_until" (.number leaseUntil)) where
  schema := by simp [h.schema]
  protocol := by simp [h.protocol]
  digest := by simp [h.digest]
  generation := by simp [h.generation]
  first := by simp [Value.num_set_of_ne, h.first]
  refresh := by
    refine h.refresh.imp (fun hnone => by simp [hnone]) fun hrefresh => ?_
    have := hrefresh.2.trans hle
    simp [Value.num_set_of_ne, hrefresh.1, this]
  nonce := by simp [h.nonce]
  operation := by simp [hepoch]
  subject := by simp [h.subject]
  token := by simp
  kind := by simp
  lease := by simp [nonnegative, hfuture]
  principal := by simpa using h.principal

theorem begun (token kind : String) {leaseUntil : ℚ} (hfuture : 0 ≤ leaseUntil)
    (hbound : context.num "operation_epoch" < maxEpoch) :
    ContextFields (begunRecord context token kind leaseUntil) := by
  have hnext := epoch_succ h.operation hbound
  unfold begunRecord
  split_ifs with hkind
  · exact h.operating token kind hnext (by linarith) hfuture
  · have hzero := h.refreshed (epoch_natCast (Nat.zero_le _))
      (by simpa using num_nonneg_of_epoch h.operation)
    refine hzero.operating token kind hnext ?_ hfuture
    rw [Value.num_set_of_ne _ (by decide)]
    linarith

theorem renewed {operationEpoch : ℕ}
    (hepoch : context.get "operation_epoch" = some (.number operationEpoch)) :
    ContextFields (context.set "successful_refresh_epoch" (.number operationEpoch)) := by
  have hvalid := h.operation
  rw [hepoch] at hvalid
  exact h.refreshed hvalid (Value.num_of_get hepoch).ge

theorem resubjected {subject : ℚ} (hsubject : epoch (some (.number subject)) = true) :
    ContextFields (context.set "tenant_user_subject_epoch" (.number subject)) where
  schema := by simp [h.schema]
  protocol := by simp [h.protocol]
  digest := by simp [h.digest]
  generation := by simp [h.generation]
  first := by simp [Value.num_set_of_ne, h.first]
  refresh := by simpa [Value.num_set_of_ne] using h.refresh
  nonce := by simp [h.nonce]
  operation := by simp [h.operation]
  subject := by simp [hsubject]
  token := by simp [h.token]
  kind := by simp [h.kind]
  lease := by simp [h.lease]
  principal := by simpa using h.principal

theorem ended {principal : Value}
    (htable : principal = .null ∨ Value.isTable (some principal) = true) :
    ContextFields ((((context.set "principal" principal).set "operation_token" (.str "")).set
      "operation_kind" (.str "")).set "lease_until" (.number 0)) where
  schema := by simp [h.schema]
  protocol := by simp [h.protocol]
  digest := by simp [h.digest]
  generation := by simp [h.generation]
  first := by simp [Value.num_set_of_ne, h.first]
  refresh := by simpa [Value.num_set_of_ne] using h.refresh
  nonce := by simp [h.nonce]
  operation := by simp [h.operation]
  subject := by simp [h.subject]
  token := by simp
  kind := by simp
  lease := by simp [nonnegative]
  principal := by simpa using htable

theorem committed (args : CommitArgs) {principal : Value}
    (hepoch : context.get "operation_epoch" = some (.number args.operationEpoch))
    (hbound : context.num "tenant_user_subject_epoch" < maxEpoch)
    (htable : principal = .null ∨ Value.isTable (some principal) = true) :
    ContextFields (committedRecord context principal args) := by
  have hnext := epoch_succ h.subject hbound
  unfold committedRecord
  split_ifs
  · exact ((h.renewed hepoch).resubjected hnext).ended htable
  · exact (h.renewed hepoch).ended htable
  · exact (h.resubjected hnext).ended htable
  · exact h.ended htable

end

end ContextFields

/-! ## Records keep naming their identity -/

theorem sameAuthority_iff (authority context : Value) (id : Identity) :
    sameAuthority authority context id = true ↔
      validAuthority authority = true ∧ Named authority context id := by
  refine ⟨fun h => ⟨?_, named_of_sameAuthority h⟩, fun ⟨hvalid, h⟩ => ?_⟩
  · simp only [sameAuthority, Bool.and_eq_true] at h
    tauto
  · simp [sameAuthority, hvalid, h.context_valid, h.authority_digest, h.authority_generation,
      h.authority_handle, h.context_digest, h.context_generation]

namespace Named

variable {authority context : Value} {id : Identity}

theorem begun (h : Named authority context id) (token kind : String) {leaseUntil : ℚ}
    (hfuture : 0 ≤ leaseUntil) (hbound : context.num "operation_epoch" < maxEpoch) :
    Named authority (begunRecord context token kind leaseUntil).recode id where
  authority_digest := h.authority_digest
  authority_generation := h.authority_generation
  authority_handle := h.authority_handle
  context_schema := by
    unfold begunRecord
    split_ifs <;> simp [h.context_schema]
  context_digest := by
    unfold begunRecord
    split_ifs <;> simp [h.context_digest]
  context_generation := by
    unfold begunRecord
    split_ifs <;> simp [h.context_generation]
  context_valid := by
    rw [validV2_recode]
    exact (validV2_iff _).mpr (((validV2_iff _).mp h.context_valid).begun token kind hfuture hbound)

theorem committed (h : Named authority context id) (args : CommitArgs) {principal : Value}
    (hepoch : context.get "operation_epoch" = some (.number args.operationEpoch))
    (hbound : context.num "tenant_user_subject_epoch" < maxEpoch)
    (htable : principal = .null ∨ Value.isTable (some principal) = true) :
    Named authority (committedRecord context principal args).recode id where
  authority_digest := h.authority_digest
  authority_generation := h.authority_generation
  authority_handle := h.authority_handle
  context_schema := by
    unfold committedRecord
    split_ifs <;> simp [h.context_schema]
  context_digest := by
    unfold committedRecord
    split_ifs <;> simp [h.context_digest]
  context_generation := by
    unfold committedRecord
    split_ifs <;> simp [h.context_generation]
  context_valid := by
    rw [validV2_recode]
    exact (validV2_iff _).mpr
      (((validV2_iff _).mp h.context_valid).committed args hepoch hbound htable)

theorem withTicket (h : Named authority context id) (ticketDigest : String) (deadline : ℚ) :
    Named (Auth.withTicket authority ticketDigest id.generation deadline).recode context id where
  authority_digest := by simp [Auth.withTicket, h.authority_digest]
  authority_generation := by simp [Auth.withTicket, h.authority_generation]
  authority_handle := by simp [Auth.withTicket, h.authority_handle]
  context_schema := h.context_schema
  context_digest := h.context_digest
  context_generation := h.context_generation
  context_valid := h.context_valid

end Named

theorem validAuthority_withTicket {authority : Value} {generation : ℕ}
    (h : validAuthority authority = true)
    (hgeneration : authority.get "generation" = some (.number generation)) (ticketDigest : String)
    {deadline : ℚ} (hfuture : 0 ≤ deadline) :
    validAuthority (withTicket authority ticketDigest generation deadline).recode = true := by
  simp only [validAuthority, Bool.and_eq_true, beq_iff_eq, decide_eq_true_eq] at h
  obtain ⟨⟨⟨⟨⟨hschema, hdigest⟩, hepoch⟩, hfirst⟩, hhandle⟩, -⟩ := h
  have hnum := Value.num_of_get hgeneration
  rw [hnum] at hfirst
  rw [hgeneration] at hepoch
  have hgeneration' : (withTicket authority ticketDigest generation deadline).num "generation" =
      generation := Value.num_of_get (by simp [withTicket, hgeneration])
  have hticket : (withTicket authority ticketDigest generation deadline).num
      "rotation_ticket_generation" = generation := Value.num_of_get (by simp [withTicket])
  have hvalid :
    ticketValid (withTicket authority ticketDigest generation deadline).recode = true := by
    simp only [ticketValid, Value.num_recode, hticket]
    simp [withTicket, hgeneration, hepoch, hfirst, nonnegative, hfuture]
  simp only [validAuthority, Value.num_recode, hgeneration', hvalid]
  simp [withTicket, hschema, hdigest, hgeneration, hepoch, hfirst, hhandle]

/-! ## A committed principal stays -/

/-- The records of an identity are in the store, expire together, and carry a principal that
satisfies `P`. -/
def Carries (r : Redis) (id : Identity) (P : Value → Prop) : Prop :=
  ∃ authority context authorityExpiry contextExpiry principal,
    Hash.hget r.entries id.authorityKey = some ⟨.json authority, authorityExpiry⟩ ∧
    Hash.hget r.entries id.contextKey = some ⟨.json context, contextExpiry⟩ ∧
    validAuthority authority.recode = true ∧ Named authority.recode context.recode id ∧
    authorityExpiry ≤ contextExpiry + 1000 ∧ contextExpiry ≤ authorityExpiry + 1000 ∧
    context.recode.get "principal" = some principal ∧ P principal

variable {r : Redis} {service : Service}

theorem ttlConsistent_eq_some {authorityKey contextKey : Key} {ttl : ℕ}
    (h : r.ttlConsistent authorityKey contextKey = some ttl) :
    ∃ a c, r.remaining authorityKey = some a ∧ r.remaining contextKey = some c ∧
      a ≤ c + 1000 ∧ c ≤ a + 1000 ∧ ttl = min a c := by
  unfold Redis.ttlConsistent at h
  split at h
  · rename_i a c ha hc
    split_ifs at h with hfar
    cases h
    exact ⟨a, c, ha, hc, by omega, by omega, rfl⟩
  · cases h

theorem ttlConsistent_of_remaining {authorityKey contextKey : Key} {a c : ℕ}
    (ha : r.remaining authorityKey = some a) (hc : r.remaining contextKey = some c)
    (hle : a ≤ c + 1000) (hle' : c ≤ a + 1000) :
    r.ttlConsistent authorityKey contextKey = some (min a c) := by
  unfold Redis.ttlConsistent
  rw [ha, hc]
  exact if_neg (by omega)

namespace Carries

variable {r r' : Redis} {id id' : Identity} {P : Value → Prop} {note : Option Note}

/-- While both keys have time left, the scripts find the identity and its principal. -/
theorem current (h : Carries r id P) (ha : (r.remaining id.authorityKey).isSome = true)
    (hc : (r.remaining id.contextKey).isSome = true) :
    ∃ authority context ttl principal, r.current id = some (authority, context, ttl) ∧
      context.get "principal" = some principal ∧ P principal := by
  obtain ⟨authority, context, authorityExpiry, contextExpiry, principal, hauthority,
    hcontext, hvalid, hnamed, hle, hle', hprincipal, hP⟩ := h
  obtain ⟨a, ha⟩ := Option.isSome_iff_exists.mp ha
  obtain ⟨c, hc⟩ := Option.isSome_iff_exists.mp hc
  obtain ⟨_, ha'⟩ := ExpiringStore.remaining_eq_some ha
  obtain ⟨_, hc'⟩ := ExpiringStore.remaining_eq_some hc
  cases hauthority.symm.trans ha'
  cases hcontext.symm.trans hc'
  have hget := get_eq_of_isSome hauthority (ExpiringStore.get_isSome_of_remaining ha)
  have hget' := get_eq_of_isSome hcontext (ExpiringStore.get_isSome_of_remaining hc)
  refine ⟨authority.recode, context.recode, min a c, principal, ?_, hprincipal, hP⟩
  unfold Redis.current
  rw [Redis.record_of_get hget hnamed.authority_handle,
    Redis.record_of_get hget' hnamed.context_schema,
    ttlConsistent_of_remaining ha hc (by omega) (by omega)]
  exact if_pos ((sameAuthority_iff _ _ _).mpr ⟨hvalid, hnamed⟩)

variable {ttl : ℕ} {authority context : Value}

/-- What the scripts find is what is carried. -/
theorem of_current (h : r.current id = some (authority, context, ttl)) :
    ∃ rawAuthority rawContext a c,
      Hash.hget r.entries id.authorityKey = some ⟨.json rawAuthority, r.now + a⟩ ∧
      Hash.hget r.entries id.contextKey = some ⟨.json rawContext, r.now + c⟩ ∧
      rawAuthority.recode = authority ∧ rawContext.recode = context ∧
      validAuthority authority = true ∧ Named authority context id ∧
      r.remaining id.contextKey = some c ∧ a ≤ c + 1000 ∧ c ≤ a + 1000 ∧ ttl = min a c := by
  obtain ⟨hauthority, hcontext, httl, hsame⟩ := Redis.current_eq_some h
  obtain ⟨hvalid, hnamed⟩ := (sameAuthority_iff _ _ _).mp hsame
  obtain ⟨a, c, ha, hc, hle, hle', rfl⟩ := ttlConsistent_eq_some httl
  obtain ⟨rawAuthority, hget, rfl⟩ := Redis.get_of_record hauthority
  obtain ⟨rawContext, hget', rfl⟩ := Redis.get_of_record hcontext
  obtain ⟨raw, hentry⟩ := ExpiringStore.remaining_eq_some ha
  obtain ⟨raw', hentry'⟩ := ExpiringStore.remaining_eq_some hc
  cases (get_eq_of_isSome hentry (ExpiringStore.get_isSome_of_remaining ha)).symm.trans hget
  cases (get_eq_of_isSome hentry' (ExpiringStore.get_isSome_of_remaining hc)).symm.trans hget'
  exact ⟨rawAuthority, rawContext, a, c, hentry, hentry', rfl, rfl, hvalid, hnamed,
    hc, hle, hle', rfl⟩

/-- A live browser authority has one current identity. -/
theorem identity_eq (h : Carries r id P) (hlive : Live r id.incarnationDigest)
    (hdigest : id'.incarnationDigest = id.incarnationDigest)
    (hcurrent : r.current id' = some (authority, context, ttl)) : id' = id := by
  obtain ⟨rawAuthority, _, _, _, _, hauthority, -, -, hnamed, -⟩ := h
  obtain ⟨rawAuthority', _, _, _, hauthority', -, rfl, -, -, hnamed', -⟩ := of_current hcurrent
  rw [Identity.authorityKey, hdigest] at hauthority'
  cases hauthority.symm.trans hauthority'
  have hgeneration := hnamed'.authority_generation.symm.trans hnamed.authority_generation
  have hhandle := hnamed'.authority_handle.symm.trans hnamed.authority_handle
  obtain ⟨_, generation, handle⟩ := id
  obtain ⟨_, generation', handle'⟩ := id'
  simp_all

/-- A commit leaves the principal that was committed. -/
theorem of_committed {ttl' : ℕ} {args : CommitArgs} {r₁ : Redis}
    (current : r.current args.id = some (authority, context, ttl))
    (latest : context.get "operation_epoch" = some (.number args.operationEpoch))
    (bounded : context.num "tenant_user_subject_epoch" < maxEpoch)
    (table : args.principal.recode = .null ∨ Value.isTable (some args.principal.recode) = true)
    (kept : r.remaining args.id.contextKey = some ttl') (same : SameRecords r r₁)
    (hP : P args.principal.recode) :
    Carries (r₁.put args.id.contextKey
      (.json (committedRecord context args.principal.recode args)) ttl') args.id P := by
  obtain ⟨rawAuthority, rawContext, a, c, hauthority, -, rfl, rfl, hvalid, hnamed,
    hc, hle, hle', -⟩ :=
    of_current current
  cases hc.symm.trans kept
  have hnow : r₁.now = r.now := by rw [ExpiringStore.now, ExpiringStore.now, same.clock]
  refine ⟨rawAuthority, _, _, _, args.principal.recode,
    (r₁.hget_put_of_ne (by simp [Identity.authorityKey, Identity.contextKey]) _ _).trans
      ((same.authority _).trans hauthority), r₁.hget_put_self _ _ _, hvalid,
    hnamed.committed args latest bounded table, ?_, ?_, ?_, hP⟩
  · omega
  · omega
  · simp [committedRecord, Value.recode_recode]

end Carries

/-- What is noted keeps the identity current and the principal within `P`. -/
def KeepsPrincipal (P : Value → Prop) : Option Note → Prop
  | some (.event (.rotated _ _)) => False
  | some (.event (.committed _ _ _ principal)) => P principal
  | _ => True

namespace Carries

variable {r r' : Redis} {id id' : Identity} {P : Value → Prop} {note : Option Note}

/-- The entries of the identity, unchanged, carry what they carried. -/
theorem of_entries (h : Carries r id P)
    (hauthority : Hash.hget r'.entries id.authorityKey = Hash.hget r.entries id.authorityKey)
    (hcontext : Hash.hget r'.entries id.contextKey = Hash.hget r.entries id.contextKey) :
    Carries r' id P := by
  obtain ⟨authority, context, _, _, principal, hauthority', hcontext', hrest⟩ := h
  exact ⟨authority, context, _, _, principal, hauthority.trans hauthority',
    hcontext.trans hcontext', hrest⟩

theorem write_of_ne (h : Carries r id P) (hlive : Live r id.incarnationDigest)
    (hwrite : Write r id' r' note) (hne : id.incarnationDigest ≠ id'.incarnationDigest) :
    Carries r' id P := by
  have hcarries := h
  obtain ⟨authority, context, _, _, _, hauthority, hcontext, -, hnamed, -⟩ := h
  have hvisible := (hlive _ hauthority).2 authority id.contextHandle rfl hnamed.authority_handle
  exact hcarries.of_entries (hwrite.authority_frame hne)
    ((hwrite.context_kept hne hcontext hvisible hnamed.context_schema hnamed.context_digest).trans
      hcontext.symm)

theorem write (h : Carries r id P) (hlive : Live r id.incarnationDigest)
    (hwrite : Write r id' r' note)
    (hkeeps : id'.incarnationDigest = id.incarnationDigest → KeepsPrincipal P note) :
    Carries r' id P := by
  by_cases hdigest : id'.incarnationDigest = id.incarnationDigest
  · specialize hkeeps hdigest
    cases hwrite with
    | unnoted same => exact h.of_entries (same.authority _) (same.context _)
    | read current => exact h
    | created first vacant =>
      obtain ⟨_, _, _, _, _, hauthority, -⟩ := h
      have := (hlive _ hauthority).1
      rw [← hdigest, show r.get (.authority id'.incarnationDigest) = none from vacant] at this
      cases this
    | rotated => exact hkeeps.elim
    | @ticketed _ _ _ current ticketDigest deadline future =>
      cases h.identity_eq hlive hdigest current
      obtain ⟨_, context, _, _, principal, -, hentry, -, -, -, -, hprincipal, hP⟩ := h
      obtain ⟨rawAuthority, rawContext, a, c, hauthority, hcontext, rfl, rfl, hvalid, hnamed, hc,
        hle, hle', rfl⟩ := of_current current
      cases hentry.symm.trans hcontext
      refine ⟨_, context, _, _, principal, r.hget_put_self _ _ _, (r.hget_put_of_ne
        (by simp [Identity.authorityKey, Identity.contextKey]) _ _).trans hcontext,
        validAuthority_withTicket hvalid hnamed.authority_generation ticketDigest future,
        hnamed.withTicket ticketDigest deadline, ?_, ?_, hprincipal, hP⟩
      · omega
      · omega
    | @begun _ _ _ _ token current nonempty kind leaseUntil future bounded kept =>
      cases h.identity_eq hlive hdigest current
      obtain ⟨_, context, _, _, principal, -, hentry, -, -, -, -, hprincipal, hP⟩ := h
      obtain ⟨rawAuthority, rawContext, a, c, hauthority, hcontext, rfl, rfl, hvalid, hnamed, hc,
        hle, hle', rfl⟩ := of_current current
      cases hentry.symm.trans hcontext
      cases hc.symm.trans kept
      have hsettled := context.settled_recode.get hprincipal
      refine ⟨rawAuthority, _, _, _, principal, (r.hget_put_of_ne
        (by simp [Identity.authorityKey, Identity.contextKey]) _ _).trans hauthority,
        r.hget_put_self _ _ _, hvalid, hnamed.begun token kind future bounded, ?_, ?_, ?_, hP⟩
      · omega
      · omega
      · unfold begunRecord
        rw [Value.get_recode]
        split_ifs <;> simp [-Value.get_recode, hprincipal, hsettled]
    | @committed _ _ _ _ args r₁ about current latest held nonempty live bounded table kept same =>
      subst about
      cases h.identity_eq hlive hdigest current
      exact of_committed current latest bounded table kept same hkeeps
  · exact h.write_of_ne hlive hwrite fun heq => hdigest heq.symm

end Carries

/-! ## Reading back -/

/-- A call keeps the identity current and commits nothing but principals within `P`. -/
def KeepsCommitted (service : Service) (id : Identity) (P : Value → Prop) (w : World)
    (label : Label) : Prop :=
  World.Alive id.incarnationDigest w label ∧
  (label.call.digest service = id.incarnationDigest →
    ∀ reply after, label.call.perform service (w.redis.wait label.elapsed) = some (reply, after) →
      KeepsPrincipal P (label.call.note service (w.redis.wait label.elapsed) reply))

theorem Carries.step {id : Identity} {P : Value → Prop} {w : World} {label : Label}
    (h : Carries w.redis id P) (hkeeps : KeepsCommitted service id P w label) :
    Carries (World.step service w label).redis id P := by
  have hwait : Carries (w.redis.wait label.elapsed) id P := h
  rcases World.step_cases service w label with heq | ⟨reply, after, hperform, hcase⟩
  · rw [heq]
    exact hwait
  · obtain ⟨id', hid, hwrite⟩ := Call.perform_write hperform
    have hafter := hwait.write hkeeps.1 hwrite fun hsame =>
      hkeeps.2 (hid.symm.trans hsame) reply after hperform
    rcases hcase with ⟨-, heq⟩ | ⟨note, -, heq⟩ <;>
    · rw [heq]
      exact hafter

theorem commitScript_of_commitAuthOperation {operation : AuthOperation} {principal : Value}
    {credential : Option (String × String × ℕ)}
    (h : commitAuthOperation service r operation principal credential = .ok .committed) :
    ∃ subjectEpoch after, Call.perform service r (.commit operation principal credential) =
      some (.committed subjectEpoch, after) := by
  obtain ⟨script, hscript, h⟩ := bind_eq_ok.mp h
  unfold commitStatus at h
  split at h
  · exact ⟨_, _, by rw [Call.perform, hscript]⟩
  all_goals cases h

theorem Carries.of_perform {after : Redis} {operation : AuthOperation} {principal : Value}
    {credential : Option (String × String × ℕ)} {subjectEpoch : ℚ} {P : Value → Prop}
    (hP : P principal.recode)
    (h : Call.perform service r (.commit operation principal credential) =
      some (.committed subjectEpoch, after)) : Carries after operation.id P := by
  unfold Call.perform at h
  split at h
  · rename_i result hscript
    cases h
    obtain ⟨-, hscript⟩ := ensure_bind_eq_ok.mp hscript
    obtain ⟨hwrite, -⟩ := commitScript_write (Except.ok.inj hscript)
    generalize hnote : some (Note.event _) = note at hwrite
    cases hwrite with
    | @committed _ _ _ _ args r₁ about current latest held nonempty live bounded table kept same =>
      simp only [Option.some.injEq, Note.event.injEq, Event.committed.injEq] at hnote
      have hid : args.id = operation.id := about
      rw [← about] at current kept ⊢
      rw [← hid]
      exact of_committed current latest bounded table kept same (hnote.2.2.2 ▸ hP)
    | _ => cases hnote
  · cases h

/-- A principal that was committed under a current lease and that no later call replaced reads back
as the same snapshot exactly when it has a role and a permission; otherwise the read fails. -/
theorem committed_principal_reads_back (service : Service) (rt : Runtime) (w : World)
    (elapsed : ℕ) (cookie : CookieIdentity) (operation : AuthOperation) (principal : AuthPrincipal)
    (credential : Option (String × String × ℕ)) (labels : List Label)
    (haccepted : (validSnapshot rt principal.snapshot.dict).isSome = true)
    (hcookie : operation.id = service.identity cookie)
    (hcommitted : commitAuthOperation service (w.redis.wait elapsed) operation
      principal.snapshot.dict credential = .ok .committed) :
    let start := World.step service w
      ⟨elapsed, .commit operation principal.snapshot.dict credential⟩
    let finish := ((World.system service start.redis).runFrom start labels).redis
    (World.system service start.redis).Meets (KeepsCommitted service operation.id fun v =>
      ∃ s : Snapshot, s.Same principal.snapshot ∧ v = s.dict.recode) start labels →
    (finish.remaining operation.id.authorityKey).isSome = true →
    (finish.remaining operation.id.contextKey).isSome = true →
      (principal.roles ≠ [] ∧ principal.permissions ≠ [] ∧
        ∃ s, principalForCookie service rt finish cookie = .ok (some s) ∧
          s.Same principal.snapshot) ∨
      ((principal.roles = [] ∨ principal.permissions = []) ∧
        principalForCookie service rt finish cookie = .error .unavailable) := by
  intro start finish hmeets hauthority hcontext
  have haccepted : principal.snapshot.Accepted rt := by
    rw [principal.snapshot.readIn_dict.validSnapshot_eq rt] at haccepted
    by_contra hnot
    simp [hnot] at haccepted
  obtain ⟨subjectEpoch, after, hperform⟩ := commitScript_of_commitAuthOperation hcommitted
  have hstart : Carries start.redis operation.id fun v =>
      ∃ s : Snapshot, s.Same principal.snapshot ∧ v = s.dict.recode := by
    have hafter := Carries.of_perform (P := fun v => ∃ s : Snapshot, s.Same principal.snapshot ∧
      v = s.dict.recode) ⟨_, .refl _, rfl⟩ hperform
    have hredis : start.redis = after := by simp [start, World.step, hperform, Call.note]
    rw [hredis]
    exact hafter
  have hfinish : Carries finish operation.id fun v =>
      ∃ s : Snapshot, s.Same principal.snapshot ∧ v = s.dict.recode :=
    Machine.invariant_runFrom (m := World.system service start.redis)
      (I := fun w => Carries w.redis operation.id _) (fun w label h hkeeps => h.step hkeeps)
      hstart hmeets
  obtain ⟨authority, context, ttl, _, hcurrent, hprincipal, s, hsame, rfl⟩ :=
    hfinish.current hauthority hcontext
  have hread : principalForCookie service rt finish cookie = snapshotOf rt s.dict.recode := by
    have hscript : principalScript finish (service.identity cookie) =
        .ok (.principal (grant finish operation.id context), finish) := by
      rw [principalScript, ← hcookie, hcurrent]
      rfl
    rw [principalForCookie, hscript]
    simp [grant, hprincipal]
  have hs : s.Accepted rt := haccepted.of_same ⟨hsame.1.symm, hsame.2.1.symm, hsame.2.2.symm⟩
  obtain ⟨hroles, hpermissions, -⟩ := hsame.fields
  have hroles : s.roles = principal.roles := hroles
  have hpermissions : s.permissions = principal.permissions := hpermissions
  rw [hread, snapshotOf_recode_dict hs, hroles, hpermissions]
  by_cases hlists : principal.roles ≠ [] ∧ principal.permissions ≠ []
  · left
    exact ⟨hlists.1, hlists.2, s.normalized, by rw [if_pos hlists],
      (Snapshot.same_normalized s).trans hsame⟩
  · right
    exact ⟨by tauto, by rw [if_neg hlists]⟩

/-! ### Two logins -/

def plainRuntime : Runtime := ⟨Unicode.ascii, fun text => text.endsWith "+00:00"⟩

/-- A member of two departments, with one role and the given permissions. -/
def member (permissions : List String) : AuthPrincipal where
  userId := "u"
  displayName := "U"
  tenantId := "t"
  departmentId := "12"
  roles := ["user"]
  permissions := permissions
  source := "company-login"
  authzPolicyVersion := 1
  authoritySource := ""
  authorityCheckedAt := "2026-01-01T00:00:00+00:00"
  companyJwtExpiresAt := none
  companyUsername := "u"
  companyDepartment := "d"
  companyRole := ""
  directDepartmentIds := ["12", "11"]
  departmentIds := ["12", "11", "1"]
  departmentAuthorityStatus := "available"

/-- The world in which a login was begun. -/
def loggingIn : World :=
  (World.system World.plainService ⟨∅, 0⟩).run
    [⟨0, .bootstrap ⟨"n", World.browser, 1, none, none, false, ""⟩⟩,
      ⟨1000000, .begin ⟨World.browser, 1, "n"⟩ "login" "t"⟩]

def loginOperation : AuthOperation := ⟨⟨World.browser, 1, "n"⟩, 1, "t", "login"⟩

def afterLogin (principal : AuthPrincipal) : World :=
  World.step World.plainService loggingIn
    ⟨1000000, .commit loginOperation principal.snapshot.dict none⟩

/-- A later refresh that only begins rewrites the record and keeps the principal. -/
def refreshBegins : List Label := [⟨1000000, .begin ⟨World.browser, 1, "n"⟩ "refresh" "r"⟩]

theorem member_reads_back :
    ∃ s, principalForCookie World.plainService plainRuntime
      ((World.system World.plainService (afterLogin (member ["chat:write"])).redis).runFrom
        (afterLogin (member ["chat:write"])) refreshBegins).redis ⟨World.browser, 1, "n"⟩ =
          .ok (some s) ∧
      s.Same (member ["chat:write"]).snapshot := by
  have h := committed_principal_reads_back World.plainService plainRuntime loggingIn 1000000
    ⟨World.browser, 1, "n"⟩ loginOperation (member ["chat:write"]) none refreshBegins
    (by decide +kernel) rfl (by decide +kernel)
    ⟨⟨by decide +kernel, fun _ reply _ _ => by cases reply <;> trivial⟩, trivial⟩
    (by decide +kernel) (by decide +kernel)
  rcases h with ⟨-, -, h⟩ | ⟨h, -⟩
  · exact h
  · simp [member] at h

/-- Without a permission the committed principal is accepted and committed, and cannot be read. -/
theorem member_without_permissions_is_lost :
    (validSnapshot plainRuntime (member []).snapshot.dict).isSome = true ∧
    commitAuthOperation World.plainService (loggingIn.redis.wait 1000000) loginOperation
      (member []).snapshot.dict none = .ok .committed ∧
    principalForCookie World.plainService plainRuntime (afterLogin (member [])).redis
      ⟨World.browser, 1, "n"⟩ = .error .unavailable := by
  decide +kernel

end AiPlatform.Auth
