import AiPlatform.Mcp.ToolReferences

/-!
# The policy for the invocation of a tool

`evaluate_tool_policy` compares identities: a built-in name, or `mcp__` with the id of a server and
the name of its tool joined by `__`. A server id may itself hold `__`, so two pairs can be written
alike; `_canonical_tool_policy_subjects`, which prepares the subjects of a run, refuses a list in
which that happens.
-/
namespace AiPlatform.Mcp

open AiPlatform.Foundation AiPlatform.Kernel List

/-! ## Identities -/

def builtinToolIdentities : List String :=
  ["Read", "Glob", "Grep", "LS", "Bash", "Write", "Edit", "NotebookEdit", "Agent", "WebFetch",
    "WebSearch", "Skill"]

def identityMark : List Char := ['m', 'c', 'p', '_', '_']

def identitySeparator : List Char := ['_', '_']

/-- Accept only exact built-ins or an exact SDK MCP identity. -/
def canonicalIdentity (value : Option Json) : String :=
  match value with
  | some (.str value) =>
    if value ∈ builtinToolIdentities then value
    else if ¬ identityMark <+: value.toList then ""
    else
      match partition identitySeparator (value.toList.drop 5) with
      | none => ""
      | some (server, tool) =>
        if isSafeMcpId (String.ofList server) ∧ isValidMcpPublicToolName (String.ofList tool) then
          value
        else ""
  | _ => ""

/-- `f"mcp__{server}__{tool}"` -/
def identityText (server tool : String) : String :=
  String.ofList (identityMark ++ (server.toList ++ identitySeparator ++ tool.toList))

def mcpIdentity (server tool : Option Json) : String :=
  match server, tool with
  | some (.str server), some (.str tool) =>
    if server = "" ∨ tool = "" then ""
    else canonicalIdentity (some (.str (identityText server tool)))
  | _, _ => ""

/-- `_mcp_identity(server, tool)` of two texts. -/
def toolIdentity (server tool : String) : String :=
  mcpIdentity (some (.str server)) (some (.str tool))

def declaredIdentities (value : Option Json) : List String :=
  match value with
  | some (.arr items) => (items.map fun item => canonicalIdentity (some item)).filter (· ≠ "")
  | _ => []

/-! ## The decision -/

inductive RiskLevel where
  | low
  | medium
  | high
  deriving DecidableEq, Repr

inductive PolicyOutcome where
  | allow
  | deny
  deriving DecidableEq, Repr

/-- `tool_identity_malformed`, `tool_not_registered` and so on, in the order of the checks. -/
inductive PolicyReason where
  | identityMalformed
  | notRegistered
  | identityUndeclared
  | notActive
  | notDistributed
  | identityNotAuthorized
  | objectNotAuthorized
  | parametersNotAuthorized
  | policyAllowed
  deriving DecidableEq, Repr

structure ToolPolicyDecision where
  outcome : PolicyOutcome
  reason : PolicyReason
  canonicalIdentity : String
  riskLevel : RiskLevel
  writeCapable : Bool
  deriving DecidableEq, Repr

def riskLevel (tool : Json) : RiskLevel :=
  match tool.get? "risk_level" with
  | some (.str value) =>
    if value = "medium" then .medium else if value = "high" then .high else .low
  | _ => .low

/-- `tool.get(key) is True` -/
def isTrue (tool : Json) (key : String) : Prop := tool.get? key = some (.bool true)

instance (tool : Json) (key : String) : Decidable (isTrue tool key) :=
  inferInstanceAs (Decidable (_ = _))

/-- `tool.get(key) is not None` -/
def isGiven (tool : Json) (key : String) : Prop :=
  tool.get? key ≠ none ∧ tool.get? key ≠ some .null

instance (tool : Json) (key : String) : Decidable (isGiven tool key) :=
  inferInstanceAs (Decidable (_ ∧ _))

def requestedIdentity (tool : Json) : String :=
  let requested := canonicalIdentity (tool.get? "requested_identity")
  if requested ≠ "" then requested else mcpIdentity (tool.get? "mcp_server") (tool.get? "mcp_tool")

/-- The identities the subject declares; for a selected registration without a list, the requested
one. -/
def subjectIdentities (tool : Json) (identity : String) : List String :=
  let declared := declaredIdentities (tool.get? "declared_identities")
  if isTrue tool "declared" ∧ declared = [] ∧ isGiven tool "mcp_server" then [identity]
  else declared

def policyReason (tool : Json) (identity : String) : PolicyReason :=
  if identity = "" then .identityMalformed
  else if ¬ isTrue tool "registered" then .notRegistered
  else if ¬ isTrue tool "declared" ∨ identity ∉ subjectIdentities tool identity then
    .identityUndeclared
  else if ¬ isTrue tool "active" then .notActive
  else if ¬ isTrue tool "distributed" then .notDistributed
  else if ¬ isTrue tool "identity_authorized" then .identityNotAuthorized
  else if ¬ isTrue tool "object_authorized" then .objectNotAuthorized
  else if ¬ isTrue tool "parameters_authorized" then .parametersNotAuthorized
  else .policyAllowed

/-- Allow only one exact, already-authorized capability for this run. -/
def evaluateToolPolicy (tool : Json) : ToolPolicyDecision :=
  let identity := requestedIdentity tool
  let reason := policyReason tool identity
  { outcome := if reason = .policyAllowed then .allow else .deny
    reason := reason
    canonicalIdentity := identity
    riskLevel := riskLevel tool
    writeCapable := decide (isTrue tool "write_capable") }

variable {tool raw : Json} {server : String} {subjects : List (String × Json)}

/-- What is allowed has an identity, and it is one of those the subject declares. -/
theorem mem_of_allow (h : (evaluateToolPolicy tool).outcome = .allow) :
    requestedIdentity tool ≠ "" ∧
      requestedIdentity tool ∈ subjectIdentities tool (requestedIdentity tool) := by
  have hreason : policyReason tool (requestedIdentity tool) = .policyAllowed := by
    by_contra hne
    simp [evaluateToolPolicy, hne] at h
  unfold policyReason at hreason
  split_ifs at hreason with hempty _ hdeclared
  exact ⟨hempty, by tauto⟩

/-! ## Which pairs an identity stands for -/

section Pairs

variable {pair other : String × String}

theorem ne_empty_of_accepted (h : Accepted pair) : pair.1 ≠ "" ∧ pair.2 ≠ "" := by
  have hserver : isSafeMcpId "" = false := by decide
  have htool : isValidMcpPublicToolName "" = false := by decide
  constructor
  · intro hempty
    simpa [hempty, hserver] using h.1
  · intro hempty
    simpa [hempty, htool] using h.2

theorem toolIdentity_of_accepted (h : Accepted pair) :
    toolIdentity pair.1 pair.2 = canonicalIdentity (some (.str (identityText pair.1 pair.2))) := by
  obtain ⟨hserver, htool⟩ := ne_empty_of_accepted h
  simp only [toolIdentity, mcpIdentity, hserver, htool, or_self, if_false]

/-- The server id of `other` goes on where that of `pair` ends, and the tool name of `pair` makes up
for it. -/
def Lookalike (pair other : String × String) : Prop :=
  ∃ m, other.1.toList = pair.1.toList ++ identitySeparator ++ m ∧
    pair.2.toList = m ++ identitySeparator ++ other.2.toList

theorem Lookalike.identityText_eq (h : Lookalike pair other) :
    identityText pair.1 pair.2 = identityText other.1 other.2 := by
  obtain ⟨m, hserver, htool⟩ := h
  simp [identityText, hserver, htool]

/-- A tool name starts with no underscore, so the two separators lie apart. -/
theorem lookalike_of_shorter (hpair : Accepted pair)
    (heq : pair.1.toList ++ identitySeparator ++ pair.2.toList =
      other.1.toList ++ identitySeparator ++ other.2.toList)
    (hlt : pair.1.toList.length < other.1.toList.length) : Lookalike pair other := by
  refine (doubled_append_cases heq hlt).resolve_left ?_
  rintro ⟨-, hname⟩
  obtain ⟨hsegment, -⟩ := isValidMcpPublicToolName_iff.mp hpair.2
  rw [hname] at hsegment
  exact absurd hsegment.all_tail.1 (by decide)

/-- Two accepted pairs are written alike exactly when they are equal or one server id goes on in the
other's tool name. -/
theorem identityText_eq_iff (hpair : Accepted pair) (hother : Accepted other) :
    identityText pair.1 pair.2 = identityText other.1 other.2 ↔
      pair = other ∨ Lookalike pair other ∨ Lookalike other pair := by
  constructor
  · intro h
    have heq := append_cancel_left (String.ofList_injective h)
    rcases Nat.lt_trichotomy pair.1.toList.length other.1.toList.length with hlt | hsame | hgt
    · exact .inr (.inl (lookalike_of_shorter hpair heq hlt))
    · simp only [append_assoc] at heq
      obtain ⟨hserver, hrest⟩ := append_inj heq hsame
      exact .inl (Prod.ext (String.toList_injective hserver)
        (String.toList_injective (append_cancel_left hrest)))
    · exact .inr (.inr (lookalike_of_shorter hother heq.symm hgt))
  · rintro (rfl | h | h)
    · rfl
    · exact h.identityText_eq
    · exact h.identityText_eq.symm

end Pairs

/-! ## What a grant covers -/

theorem canonicalIdentity_eq_or (value : String) :
    canonicalIdentity (some (.str value)) = value ∨ canonicalIdentity (some (.str value)) = "" := by
  simp only [canonicalIdentity]
  split_ifs
  · exact .inl rfl
  · split
    · exact .inr rfl
    · split_ifs
      · exact .inl rfl
      · exact .inr rfl
  · exact .inr rfl

theorem canonicalIdentity_toolIdentity (server name : String) :
    canonicalIdentity (some (.str (toolIdentity server name))) = toolIdentity server name := by
  have hempty : canonicalIdentity (some (.str "")) = "" := by decide
  simp only [toolIdentity, mcpIdentity]
  split_ifs
  · exact hempty
  · obtain h | h := canonicalIdentity_eq_or (identityText server name)
    · rw [h, h]
    · rw [h, hempty]

theorem requestedIdentity_of_pair {name : String}
    (hrequested : canonicalIdentity (tool.get? "requested_identity") = "" ∨
      tool.get? "requested_identity" = some (.str (toolIdentity server name)))
    (hserver : tool.get? "mcp_server" = some (.str server))
    (hname : tool.get? "mcp_tool" = some (.str name)) :
    requestedIdentity tool = toolIdentity server name := by
  have hpair : mcpIdentity (tool.get? "mcp_server") (tool.get? "mcp_tool") =
      toolIdentity server name := by
    rw [hserver, hname, toolIdentity]
  unfold requestedIdentity
  rw [hpair]
  obtain h | h := hrequested
  · rw [if_neg (not_not.mpr h)]
  · rw [h, canonicalIdentity_toolIdentity, ite_self]

/-- The empty text is no identity. -/
theorem toolIdentity_eq_iff {pair other : String × String} (hpair : Accepted pair)
    (hother : Accepted other) (hidentity : toolIdentity pair.1 pair.2 ≠ "") :
    toolIdentity pair.1 pair.2 = toolIdentity other.1 other.2 ↔
      pair = other ∨ Lookalike pair other ∨ Lookalike other pair := by
  rw [← identityText_eq_iff hpair hother]
  rw [toolIdentity_of_accepted hpair] at hidentity ⊢
  rw [toolIdentity_of_accepted hother]
  refine ⟨fun heq => ?_, fun heq => by rw [heq]⟩
  have hfirst := (canonicalIdentity_eq_or _).resolve_right hidentity
  have hsecond := (canonicalIdentity_eq_or _).resolve_right (heq ▸ hidentity)
  rw [← hfirst, heq, hsecond]

theorem deny_of_requestedIdentity_eq_empty (h : requestedIdentity tool = "") :
    (evaluateToolPolicy tool).outcome = .deny := by
  cases houtcome : (evaluateToolPolicy tool).outcome with
  | deny => rfl
  | allow => exact absurd h (mem_of_allow houtcome).1

/-- A subject that declares only identities of pairs written otherwise is denied. -/
theorem deny_of_grants {pair : String × String} {grants : List (String × String)}
    (hrequested : requestedIdentity tool = toolIdentity pair.1 pair.2) (hpair : Accepted pair)
    (hgrants : ∀ grant ∈ grants, Accepted grant)
    (hdeclared : tool.get? "declared_identities" =
      some (.arr (grants.map fun grant => .str (toolIdentity grant.1 grant.2))))
    (hsome : ∃ grant ∈ grants, toolIdentity grant.1 grant.2 ≠ "")
    (hother : ∀ grant ∈ grants, ¬ (pair = grant ∨ Lookalike pair grant ∨ Lookalike grant pair)) :
    (evaluateToolPolicy tool).outcome = .deny := by
  have hidentities : declaredIdentities (tool.get? "declared_identities") =
      (grants.map fun grant => toolIdentity grant.1 grant.2).filter (· ≠ "") := by
    rw [hdeclared, declaredIdentities, map_map]
    congr 1
    exact map_congr_left fun grant _ => canonicalIdentity_toolIdentity grant.1 grant.2
  cases houtcome : (evaluateToolPolicy tool).outcome with
  | deny => rfl
  | allow =>
    obtain ⟨hidentity, hmem⟩ := mem_of_allow houtcome
    have hfilled : declaredIdentities (tool.get? "declared_identities") ≠ [] := by
      obtain ⟨grant, hgrant, hnonempty⟩ := hsome
      rw [hidentities]
      exact ne_nil_of_mem (mem_filter.mpr ⟨mem_map_of_mem hgrant, by simpa using hnonempty⟩)
    simp only [subjectIdentities, hfilled, false_and, and_false, if_false] at hmem
    rw [hidentities] at hmem
    obtain ⟨grant, hgrant, heq⟩ := mem_map.mp (mem_of_mem_filter hmem)
    rw [hrequested] at hidentity heq
    exact absurd ((toolIdentity_eq_iff hpair (hgrants grant hgrant) hidentity).mp heq.symm)
      (hother grant hgrant)

/-! ## The subjects of a run -/

def internalContextTools : List String :=
  ["read_run_artifact", "stage_context_file_to_workspace", "stage_run_artifact_to_workspace",
    "search_memory"]

def internalResponseTools : List String := ["attach_file"]

/-- `raw.get(key)` -/
def field (raw : Json) (key : String) : Json := (raw.get? key).getD .null

/-- `str(raw.get("identity") or "")`; the text of anything but a string is no identity. -/
def rawIdentity (raw : Json) : String :=
  match raw.get? "identity" with
  | some (.str identity) => identity
  | _ => ""

/-- The tool of an internal server, which the identity names and the subject need not. -/
def internalTool (server : String) (tools : List String) (identity : String) : Option String :=
  tools.find? fun tool => identity = identityText server tool

/-- The name that is compared with the identity; `none` where the subject is skipped. -/
def namedTool (raw : Json) : Option String :=
  match raw.get? "mcp_server", raw.get? "mcp_tool" with
  | some (.str "ai-platform-context"), _ =>
    internalTool "ai-platform-context" internalContextTools (rawIdentity raw)
  | some (.str "ai-platform-response"), _ =>
    internalTool "ai-platform-response" internalResponseTools (rawIdentity raw)
  | _, some (.str tool) => some tool
  | _, _ => none

/-- An identity that starts with `mcp__` is the one of the server and the tool of its subject. -/
def namesItsPair (raw : Json) : Bool :=
  if identityMark <+: (rawIdentity raw).toList then
    match raw.get? "mcp_server", namedTool raw with
    | some (.str server), some tool =>
      server ≠ "" && tool ≠ "" && rawIdentity raw = identityText server tool
    | _, _ => false
  else true

/-- The capability the subject asks for, as it is given to the policy. -/
def subjectCapability (raw : Json) : Json :=
  .obj [("requested_identity", .str (rawIdentity raw)),
    ("declared_identities", .arr [.str (rawIdentity raw)]),
    ("registered", field raw "registered"), ("declared", field raw "declared"),
    ("active", field raw "active"), ("distributed", field raw "distributed"),
    ("identity_authorized", field raw "identity_authorized"),
    ("object_authorized", field raw "object_authorized"),
    ("parameters_authorized", field raw "parameters_authorized"),
    ("risk_level", field raw "risk_level"), ("write_capable", field raw "write_capable")]

def isObject : Json → Bool
  | .obj _ => true
  | _ => false

/-- The subject is an object, names its pair, and the policy allows what it asks for. -/
def granted (raw : Json) : Bool :=
  isObject raw && namesItsPair raw &&
    (evaluateToolPolicy (subjectCapability raw)).outcome = .allow &&
    (evaluateToolPolicy (subjectCapability raw)).canonicalIdentity = rawIdentity raw

/-- `(raw.get("mcp_server"), raw.get("mcp_tool"))` -/
def subjectPair (raw : Json) : Json × Json := (field raw "mcp_server", field raw "mcp_tool")

/-- `mcp_identity_collision` -/
inductive SubjectError where
  | identityCollision
  deriving DecidableEq, Repr

/-- An identity that is already bound to a subject with another server or tool. -/
def collides (subjects : List (String × Json)) (raw : Json) : Bool :=
  match subjects.lookup (rawIdentity raw) with
  | some existing =>
    identityMark <+: (rawIdentity raw).toList && subjectPair existing ≠ subjectPair raw
  | none => false

/-- One turn of the loop. -/
def addSubject (subjects : List (String × Json)) (raw : Json) :
    Except SubjectError (List (String × Json)) :=
  if ¬ (isObject raw ∧ namesItsPair raw) then .ok subjects
  else if collides subjects raw then .error .identityCollision
  else if ¬ granted raw ∨ (subjects.lookup (rawIdentity raw)).isSome then .ok subjects
  else .ok (subjects ++ [(rawIdentity raw, raw)])

/-- Keep only exact, complete capability subjects authorized by the worker. -/
def canonicalToolPolicySubjects (value : Json) : Except SubjectError (List (String × Json)) :=
  match value with
  | .arr items => items.foldlM addSubject []
  | _ => .ok []

/-- Every subject granted so far is bound to its identity, with its own server and tool. -/
def Bound (subjects : List (String × Json)) (raw : Json) : Prop :=
  ∃ kept, subjects.lookup (rawIdentity raw) = some kept ∧
    (identityMark <+: (rawIdentity raw).toList → subjectPair kept = subjectPair raw)

theorem Bound.append {more : List (String × Json)} (h : Bound subjects raw) :
    Bound (subjects ++ more) raw := by
  obtain ⟨kept, hkept, hpair⟩ := h
  exact ⟨kept, by rw [lookup_append, hkept, Option.some_or], hpair⟩

/-- What one turn does: a granted subject ends up bound, and nothing bound is lost. -/
theorem addSubject_spec {subjects' : List (String × Json)}
    (h : addSubject subjects raw = .ok subjects') :
    (∀ other, Bound subjects other → Bound subjects' other) ∧
      (granted raw = true → Bound subjects' raw) := by
  unfold addSubject at h
  split_ifs at h with hcandidate hcollides hkeep
  · obtain rfl := Except.ok.inj h
    refine ⟨fun _ h => h, ?_⟩
    intro hgranted
    obtain hnot | hsome := hkeep
    · exact absurd hgranted hnot
    · obtain ⟨kept, hkept⟩ := Option.isSome_iff_exists.mp hsome
      refine ⟨kept, hkept, ?_⟩
      intro hmark
      by_contra hpair
      simp [collides, hkept, hmark, hpair] at hcollides
  · obtain rfl := Except.ok.inj h
    refine ⟨fun _ h => h.append, ?_⟩
    intro _
    simp only [not_or, Bool.not_eq_true, Option.isSome_eq_false_iff, Option.isNone_iff_eq_none]
      at hkeep
    refine ⟨raw, ?_, fun _ => rfl⟩
    rw [lookup_append, hkeep.2]
    simp
  · obtain rfl := Except.ok.inj h
    refine ⟨fun _ h => h, ?_⟩
    intro hgranted
    simp only [granted, Bool.and_eq_true] at hgranted
    exact absurd hgranted.1.1 hcandidate

theorem bound_of_foldlM {items : List Json} {subjects' : List (String × Json)}
    (h : items.foldlM addSubject subjects = .ok subjects') :
    (∀ other, Bound subjects other → Bound subjects' other) ∧
      ∀ raw ∈ items, granted raw = true → Bound subjects' raw := by
  induction items generalizing subjects with
  | nil =>
    obtain rfl := Except.ok.inj h
    simp
  | cons raw items ih =>
    rw [foldlM_cons] at h
    obtain ⟨next, hstep, h⟩ := bind_eq_ok.mp h
    obtain ⟨hkept, hraw⟩ := addSubject_spec hstep
    obtain ⟨hrest, hitems⟩ := ih h
    refine ⟨fun other hother => hrest other (hkept other hother), ?_⟩
    intro other hother hgranted
    obtain rfl | hother := mem_cons.mp hother
    · exact hrest _ (hraw hgranted)
    · exact hitems other hother hgranted

/-- In a list that is not refused, subjects granted under one identity are of one pair. -/
theorem pair_eq_of_granted {items : List Json}
    (h : canonicalToolPolicySubjects (.arr items) = .ok subjects) {other : Json}
    (hraw : raw ∈ items) (hother : other ∈ items) (hgranted : granted raw = true)
    (hgranted' : granted other = true) (hmark : identityMark <+: (rawIdentity raw).toList)
    (heq : rawIdentity raw = rawIdentity other) : subjectPair raw = subjectPair other := by
  obtain ⟨-, hbound⟩ := bound_of_foldlM h
  obtain ⟨kept, hkept, hpair⟩ := hbound raw hraw hgranted
  obtain ⟨kept', hkept', hpair'⟩ := hbound other hother hgranted'
  rw [← heq, hkept, Option.some.injEq] at hkept'
  subst hkept'
  rw [← hpair hmark, hpair' (heq ▸ hmark)]

/-! ## What references and identities determine -/

/-- A reference of a server id without `::` that does not end with a colon is read back, and none is
built of an id with `::`. An identity stands for two accepted pairs exactly when one server id goes
on in the other's tool name; a pair without an identity is denied, and so is one of which a subject
declares neither the identity nor that of a pair written alike; and in a list of subjects that is
not refused no identity is granted to two pairs. -/
theorem references_and_identities_determine_tools (u : Unicode) :
    (∀ server tool, isSafeMcpId server = true → isValidMcpPublicToolName tool = true →
      (mcpToolReferenceSeparator <:+: server.toList →
        buildMcpToolReference u server tool = .error .serverIdInvalid) ∧
      (¬ mcpToolReferenceSeparator <:+: server.toList ++ [':'] →
        reparsedReference u server tool = .ok (server, tool))) ∧
    (∀ pair other, Accepted pair → Accepted other → toolIdentity pair.1 pair.2 ≠ "" →
      (toolIdentity pair.1 pair.2 = toolIdentity other.1 other.2 ↔
        pair = other ∨ Lookalike pair other ∨ Lookalike other pair)) ∧
    (∀ (tool : Json) (pair : String × String), Accepted pair →
      tool.get? "mcp_server" = some (.str pair.1) → tool.get? "mcp_tool" = some (.str pair.2) →
      (canonicalIdentity (tool.get? "requested_identity") = "" ∨
        tool.get? "requested_identity" = some (.str (toolIdentity pair.1 pair.2))) →
      (toolIdentity pair.1 pair.2 = "" → (evaluateToolPolicy tool).outcome = .deny) ∧
      ∀ grants : List (String × String), (∀ grant ∈ grants, Accepted grant) →
        tool.get? "declared_identities" =
          some (.arr (grants.map fun grant => .str (toolIdentity grant.1 grant.2))) →
        (∃ grant ∈ grants, toolIdentity grant.1 grant.2 ≠ "") →
        (∀ grant ∈ grants, ¬ (pair = grant ∨ Lookalike pair grant ∨ Lookalike grant pair)) →
        (evaluateToolPolicy tool).outcome = .deny) ∧
    (∀ items subjects, canonicalToolPolicySubjects (.arr items) = .ok subjects →
      ∀ raw ∈ items, ∀ other ∈ items, granted raw = true → granted other = true →
        identityMark <+: (rawIdentity raw).toList → rawIdentity raw = rawIdentity other →
        subjectPair raw = subjectPair other) := by
  refine ⟨?_, ?_, ?_, ?_⟩
  · intro server tool hserver htool
    exact ⟨buildMcpToolReference_of_separator hserver, reparsedReference_of_clear hserver htool⟩
  · intro pair other hpair hother hidentity
    exact toolIdentity_eq_iff hpair hother hidentity
  · intro tool pair hpair hserver hname hasked
    have hrequested := requestedIdentity_of_pair hasked hserver hname
    constructor
    · intro hempty
      exact deny_of_requestedIdentity_eq_empty (hrequested.trans hempty)
    · intro grants hgrants hdeclared hsome hother
      exact deny_of_grants hrequested hpair hgrants hdeclared hsome hother
  · intro items subjects h raw hraw other hother hgranted hgranted' hmark heq
    exact pair_eq_of_granted h hraw hother hgranted hgranted' hmark heq

/-- The subject of tool `c` of server `a__b`, with a declaration made for tool `b__c` of server
`a`. -/
def lookalikeSubject : Json :=
  .obj [("mcp_server", .str "a__b"), ("mcp_tool", .str "c"),
    ("declared_identities", .arr [.str (toolIdentity "a" "b__c")]),
    ("registered", .bool true), ("declared", .bool true), ("active", .bool true),
    ("distributed", .bool true), ("identity_authorized", .bool true),
    ("object_authorized", .bool true), ("parameters_authorized", .bool true)]

/-- An accepted server id of which no reference is built, and two accepted pairs with one identity,
a declaration of the one of which allows the other. -/
theorem separators_mislead :
    (isSafeMcpId "a::b" = true ∧ isValidMcpPublicToolName "c" = true ∧
      buildMcpToolReference Unicode.ascii "a::b" "c" = .error .serverIdInvalid) ∧
    (isSafeMcpId "a__b" = true ∧ isValidMcpPublicToolName "c" = true ∧
      isSafeMcpId "a" = true ∧ isValidMcpPublicToolName "b__c" = true ∧
      toolIdentity "a__b" "c" = "mcp__a__b__c" ∧ toolIdentity "a" "b__c" = "mcp__a__b__c" ∧
      (evaluateToolPolicy lookalikeSubject).outcome = .allow) := by
  decide +kernel

end AiPlatform.Mcp
