import Mathlib.Data.Fintype.Pi
import AiPlatform.Foundation.Keyspace

/-!
# The ledger of model token usage

Snapshots of what one invocation has used so far, and `PostgresModelTokenUsage.record`, which turns
them into deltas. A snapshot carries running totals above a baseline; the scope's row keeps the
totals accepted last, and an accepted snapshot adds the differences as delta rows. One call is one
step: it holds the advisory lock of its provider session and the lock of its scope's row.
-/
namespace AiPlatform.Runs

open AiPlatform.Foundation Hash

/-! ## Counters -/

/-- `TOKEN_FIELDS`. -/
inductive TokenField where
  | inputTokens
  | cacheReadInputTokens
  | cacheCreationInputTokens
  | outputTokens
  deriving DecidableEq, Repr

instance : Fintype TokenField where
  elems := {.inputTokens, .cacheReadInputTokens, .cacheCreationInputTokens, .outputTokens}
  complete field := by cases field <;> decide

abbrev Counts : Type := TokenField → Int

abbrev ModelCounts : Type := Hash String Counts

/-- `models.get(model, {}).get(field, 0)`. -/
def count (models : ModelCounts) (model : String) (field : TokenField) : Int :=
  (hget models model).elim 0 (· field)

/-- `==` on dictionaries. -/
def sameCounts (a b : ModelCounts) : Bool :=
  ((hgetall a).all fun e => hget b e.1 == some e.2) &&
    ((hgetall b).all fun e => hget a e.1 == some e.2)

def deltasFrom (previous : ModelCounts) :
    List (String × Counts) → Option (List (String × Counts))
  | [] => some []
  | (model, counts) :: rest =>
    let delta : Counts := fun field => counts field - count previous model field
    if ∃ field, delta field < 0 then none
    else
      (deltasFrom previous rest).map fun deltas =>
        -- A first explicit zero is a row; a repeated one is not.
        if !hexists previous model || decide (∃ field, delta field ≠ 0) then
          (model, delta) :: deltas
        else deltas

/-- `none` rejects the observation: a model is gone or a counter went back. -/
def cumulativeDeltas (previous current : ModelCounts) : Option (List (String × Counts)) :=
  if (hgetall previous).any fun e => !hexists current e.1 then none
  else deltasFrom previous (hgetall current)

/-! ## Snapshots -/

inductive Baseline where
  | fresh
  | restored
  | unknown
  deriving DecidableEq, Repr

inductive Coverage where
  | reportedFinal
  | partialReport
  | unavailable
  deriving DecidableEq, Repr

inductive UsageReason where
  | baselineUnknown
  | reportMissing
  | counterRegressed
  | observationConflict
  | scopeChanged
  | sessionReset
  | sessionChanged
  | scopeOverlap
  | providerIdentityUnknown
  deriving DecidableEq, Repr

/-- The fields of a snapshot as a callback carries them. -/
structure UsagePayload where
  scopeId : String
  observationSeq : Int
  baseline : Baseline
  models : ModelCounts
  coverage : Coverage
  providerSessionId : Option String
  baselineModels : Option ModelCounts
  reason : Option UsageReason

/-- A name of 1 to 512 characters, none of them a control character. -/
def isActualModel (name : String) : Bool :=
  1 ≤ name.length && name.length ≤ 512 && name.toList.all fun c => 32 ≤ c.val

def isTokenCounter (value : Int) : Bool := 0 ≤ value && value ≤ 2 ^ 63 - 1

/-- `_validate_models`: at most 32 models, and the first entry that is not one. -/
def validateModels (models : ModelCounts) : Except String Unit :=
  if 32 < hlen models then .error "invalid_model_counts"
  else
    (hgetall models).forM fun e =>
      if !isActualModel e.1 then .error "invalid_actual_model"
      else if ∃ field, isTokenCounter (e.2 field) = false then .error "invalid_token_counter"
      else .ok ()

def isScopeId (scopeId : String) : Bool :=
  1 ≤ scopeId.length && scopeId.length ≤ 128 &&
    scopeId.toList.all fun c => c.isAlphanum || c == '_' || c == '-'

/-- `ModelUsageSnapshot.__post_init__`. -/
def UsagePayload.check (p : UsagePayload) : Except String Unit := do
  if !isScopeId p.scopeId then throw "invalid_usage_scope"
  if !(1 ≤ p.observationSeq && p.observationSeq ≤ 2 ^ 63 - 1) then
    throw "invalid_observation_seq"
  if p.providerSessionId.any fun id => 128 < id.length then throw "invalid_provider_session_id"
  validateModels p.models
  if let some models := p.baselineModels then validateModels models
  if p.baseline = .fresh ∧ p.baselineModels.any fun models => hlen models ≠ 0 then
    throw "fresh_baseline_must_be_zero"
  if p.baseline = .unknown ∧ hlen p.models ≠ 0 then throw "unknown_baseline_has_no_counts"
  if p.coverage = .reportedFinal ∧ (hlen p.models = 0 ∨ p.reason ≠ none) then
    throw "final_report_requires_known_models"

/-- A snapshot can only be built from fields that pass the check. -/
structure ModelUsageSnapshot extends UsagePayload where
  checked : toUsagePayload.check = .ok ()

def normalizeModelUsageSnapshot (p : UsagePayload) : Except String ModelUsageSnapshot :=
  match h : p.check with
  | .ok () => .ok ⟨p, h⟩
  | .error e => .error e

def sameBaseline : Option ModelCounts → Option ModelCounts → Bool
  | none, none => true
  | some a, some b => sameCounts a b
  | _, _ => false

/-- `old["payload_json"] == payload`. -/
def samePayload (a b : UsagePayload) : Bool :=
  a.scopeId = b.scopeId && a.observationSeq = b.observationSeq && a.baseline = b.baseline &&
    sameCounts a.models b.models && a.coverage = b.coverage &&
    a.providerSessionId = b.providerSessionId && sameBaseline a.baselineModels b.baselineModels &&
    a.reason = b.reason

/-! ## The tables -/

structure ScopeKey where
  tenantId : String
  runId : String
  attemptId : String
  scopeId : String
  deriving DecidableEq, Repr

/-- A row of `model_token_usage_scopes`, without its times. -/
structure ScopeRow where
  baseline : Baseline
  baselineJson : Option ModelCounts
  providerSessionId : Option String
  latestObservationSeq : Int
  cumulativeJson : ModelCounts
  coverage : Coverage
  coverageReason : Option UsageReason

/-- A row of `model_token_usage_deltas`. -/
structure DeltaRow where
  key : ScopeKey
  observationSeq : Int
  actualModel : String
  counts : Counts
  deriving DecidableEq

structure UsageLedger where
  scopes : Hash ScopeKey ScopeRow
  observations : Hash (ScopeKey × Int) UsagePayload
  deltas : List DeltaRow

def UsageLedger.empty : UsageLedger := ⟨∅, ∅, []⟩

inductive RecordOutcome where
  | duplicate
  | stale
  | partialReport
  | accepted
  deriving DecidableEq, Repr

/-- One call of `record`: `providerId` is what `provider_session` answered. -/
structure Delivery where
  tenantId : String
  runId : String
  attemptId : String
  snapshot : ModelUsageSnapshot
  providerId : Option String

namespace Delivery

def key (d : Delivery) : ScopeKey := ⟨d.tenantId, d.runId, d.attemptId, d.snapshot.scopeId⟩

def seq (d : Delivery) : Int := d.snapshot.observationSeq

/-- `not provider_id`. -/
def providerUnknown (d : Delivery) : Bool := d.providerId.all (· == "")

/-- The row `insert … on conflict do nothing` writes for a scope seen for the first time. -/
def firstRow (d : Delivery) : ScopeRow where
  baseline := d.snapshot.baseline
  baselineJson := d.snapshot.baselineModels
  providerSessionId := d.providerId
  latestObservationSeq := -1
  cumulativeJson := ∅
  coverage := .unavailable
  coverageReason := none

/-- What the checks before the overlap check find, the first finding first. -/
def refusal (d : Delivery) (row : ScopeRow) (regressed : Bool) : Option UsageReason :=
  if d.snapshot.baseline ≠ row.baseline ∨
      sameBaseline d.snapshot.baselineModels row.baselineJson = false ∨
      (row.providerSessionId ≠ none ∧ row.providerSessionId ≠ d.providerId) then
    some .scopeChanged
  else if d.snapshot.baselineModels.isNone ∨ d.snapshot.baseline = .unknown then
    some .baselineUnknown
  else if d.providerUnknown ∨
      (d.snapshot.providerSessionId ≠ none ∧ d.snapshot.providerSessionId ≠ d.providerId) then
    some .providerIdentityUnknown
  else if regressed then some .counterRegressed
  else none

end Delivery

/-- Where a scope's counters stand in the session: its totals above its baseline. -/
def ScopeRow.absolute (row : ScopeRow) : ModelCounts :=
  hmap (fun model counts field => counts field + count (row.baselineJson.getD ∅) model field)
    row.cumulativeJson

namespace UsageLedger

/-- The rows of the same provider session the overlap check reads. -/
def others (l : UsageLedger) (d : Delivery) : List ScopeRow :=
  ((hgetall l.scopes).filter fun e =>
    e.1.tenantId == d.tenantId && e.2.providerSessionId == d.providerId && e.1 != d.key &&
      hlen e.2.cumulativeJson != 0).map (·.2)

def overlaps (l : UsageLedger) (d : Delivery) : Bool :=
  (l.others d).any fun other =>
    (cumulativeDeltas other.absolute (d.snapshot.baselineModels.getD ∅)).isNone

def markPartial (l : UsageLedger) (key : ScopeKey) (row : ScopeRow) (reason : UsageReason) :
    UsageLedger :=
  { l with
    scopes := hset l.scopes key
      { row with
        coverage := .partialReport
        coverageReason := row.coverageReason.or (some reason) } }

def refuse (l : UsageLedger) (d : Delivery) (row : ScopeRow) (reason : UsageReason) :
    UsageLedger :=
  l.markPartial d.key { row with latestObservationSeq := d.seq } reason

def acceptRow (d : Delivery) (row : ScopeRow) : ScopeRow :=
  let reason := row.coverageReason.or d.snapshot.reason
  let known := hlen row.cumulativeJson ≠ 0 ∨ hlen d.snapshot.models ≠ 0
  { row with
    latestObservationSeq := d.seq
    cumulativeJson := d.snapshot.models
    coverage := if reason ≠ none ∧ known then .partialReport else d.snapshot.coverage
    coverageReason := reason
    providerSessionId := d.providerId }

def accept (l : UsageLedger) (d : Delivery) (row : ScopeRow) (deltas : List (String × Counts)) :
    UsageLedger :=
  { l with
    scopes := hset l.scopes d.key (acceptRow d row)
    deltas := l.deltas ++ deltas.map fun delta => ⟨d.key, d.seq, delta.1, delta.2⟩ }

/-- From the stored observation on: stale, refused or accepted. -/
def settle (l : UsageLedger) (d : Delivery) (row : ScopeRow) : UsageLedger × RecordOutcome :=
  if d.seq ≤ row.latestObservationSeq then (l, .stale)
  else
    let deltas := cumulativeDeltas row.cumulativeJson d.snapshot.models
    let reason := (d.refusal row deltas.isNone).or
      (if !(deltas.getD []).isEmpty && l.overlaps d then some .scopeOverlap else none)
    match reason with
    | some reason => (l.refuse d row reason, .partialReport)
    | none => (l.accept d row (deltas.getD []), .accepted)

def record (l : UsageLedger) (d : Delivery) : UsageLedger × RecordOutcome :=
  let row := (hget l.scopes d.key).getD d.firstRow
  let l := { l with scopes := hset l.scopes d.key row }
  match hget l.observations (d.key, d.seq) with
  | some old =>
    if samePayload old d.snapshot.toUsagePayload then (l, .duplicate)
    else (l.markPartial d.key row .observationConflict, .partialReport)
  | none =>
    settle { l with
      observations := hset l.observations (d.key, d.seq) d.snapshot.toUsagePayload } d row

end UsageLedger

end AiPlatform.Runs
