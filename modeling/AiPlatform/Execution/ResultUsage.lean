import AiPlatform.Foundation.Json
import AiPlatform.Kernel.Unicode
import AiPlatform.Runs.TokenUsage

/-!
# Usage observed by one invocation

The token side of `ClaudeResultUsage`: it reads the running totals out of result messages, subtracts
the totals the session was restored with, and hands out numbered snapshots. Costs are read by other
methods and take no part here.
-/
namespace AiPlatform.Execution

open AiPlatform.Foundation AiPlatform.Kernel AiPlatform.Runs Hash

/-- The keys of `_TOKEN_FIELDS`. -/
def tokenFieldName : TokenField → String
  | .inputTokens => "inputTokens"
  | .outputTokens => "outputTokens"
  | .cacheReadInputTokens => "cacheReadInputTokens"
  | .cacheCreationInputTokens => "cacheCreationInputTokens"

def maxTokenCounter : Int := 2 ^ 63 - 1

/-- A count is an `int`, not a `bool`, within the bounds. -/
def tokenCount (usage : Json) (field : TokenField) : Option Int :=
  match usage.get? (tokenFieldName field) with
  | some (.int value) => if 0 ≤ value ∧ value ≤ maxTokenCounter then some value else none
  | _ => none

/-- The counts of one model, if all four are there. -/
def tokenCounts : Json → Option Counts
  | .obj members =>
    if ∀ field, (tokenCount (.obj members) field).isSome then
      some fun field => (tokenCount (.obj members) field).getD 0
    else none
  | _ => none

def readModels : List (String × Json) → Option ModelCounts
  | [] => some ∅
  | (name, usage) :: rest =>
    if !isActualModel name then none
    else
      match tokenCounts usage, readModels rest with
      | some counts, some models => some (hset models name counts)
      | _, _ => none

/-- `_models` with the token counters' bound. -/
def models : Json → Option ModelCounts
  | .obj members =>
    if 1 ≤ members.length ∧ members.length ≤ 32 then readModels members else none
  | _ => none

/-- `models`, and the empty object that a restored session may hold. -/
def restoredModels (usage : Json) : Option ModelCounts :=
  if usage = .obj [] then some ∅ else models usage

/-- What a `ResultMessage` has that is read here. -/
structure ResultMessage where
  sessionId : Option String
  modelUsage : Json
  subtype : Option String

structure ClaudeResultUsage where
  sessionId : Option String
  observationSeq : Int
  scopeId : String
  tokenBaseline : Baseline
  tokenBaselineModels : ModelCounts
  tokenModels : ModelCounts
  tokenReason : Option UsageReason
  tokenLastValid : Bool
  tokenBlocked : Bool

/-- `_RESET_COMMAND.match(text.lstrip())`. -/
def isResetCommand (u : Unicode) (text : Text) : Bool :=
  let stripped := text.dropWhile u.isSpace
  (["/clear", "/reset", "/new"].map String.toList).any fun command =>
    command.isPrefixOf stripped && ((stripped.drop command.length).head?.all u.isSpace)

/-- The newest `cost-state` entry of the session. -/
def costState (sessionId : Option String) (resumedEntries : List Json) : Option Json :=
  resumedEntries.reverse.find? fun entry =>
    entry.get? "type" = some (.str "cost-state") &&
      (match entry.get? "sessionId" with
        | some (.str id) => sessionId == some id
        | some .null | none => sessionId == none
        | _ => false)

namespace ClaudeResultUsage

def observeInput (u : Unicode) (usage : ClaudeResultUsage) (text : Text) : ClaudeResultUsage :=
  if isResetCommand u text then
    { usage with tokenReason := some .sessionReset, tokenBlocked := true }
  else usage

/-- `__init__`: without entries the session is fresh, with entries its totals must be known. -/
def init (u : Unicode) (sessionId : Option String) (prompt : Text) (resumedEntries : List Json)
    (scopeId : String) : ClaudeResultUsage :=
  let restored := (costState sessionId resumedEntries).bind fun entry =>
    restoredModels ((entry.get? "modelUsage").getD .null)
  let baseline : Baseline :=
    if resumedEntries.isEmpty then .fresh else if restored.isSome then .restored else .unknown
  observeInput u
    { sessionId
      observationSeq := 0
      scopeId
      tokenBaseline := baseline
      tokenBaselineModels := restored.getD ∅
      tokenModels := ∅
      tokenReason := if baseline = .unknown then some .baselineUnknown else none
      tokenLastValid := false
      tokenBlocked := baseline = .unknown }
    prompt

/-- Subtract the baseline model by model; `none` if one is gone or went back. -/
def subtractBaseline : List (String × Counts) → ModelCounts → Option ModelCounts
  | [], models => some models
  | (name, baseline) :: rest, models =>
    match hget models name with
    | none => none
    | some counts =>
      if ∃ field, counts field < baseline field then none
      else subtractBaseline rest (hset models name fun field => counts field - baseline field)

def regressed (old models : ModelCounts) : Bool :=
  (hgetall old).any fun e =>
    match hget models e.1 with
    | none => true
    | some counts => decide (∃ field, counts field < e.2 field)

/-- A crashed CLI can report all zeros. -/
def falseZero (message : ResultMessage) (models : ModelCounts) : Bool :=
  message.subtype == some "error_during_execution" &&
    (hgetall models).all fun e => decide (∀ field, e.2 field = 0)

def observeTokenResult (usage : ClaudeResultUsage) (message : ResultMessage) :
    ClaudeResultUsage :=
  let usage := { usage with tokenLastValid := false }
  let usage :=
    if usage.sessionId ≠ none ∧ message.sessionId ≠ usage.sessionId then
      { usage with tokenReason := some .sessionChanged, tokenBlocked := true }
    else usage
  if usage.tokenBlocked then usage
  else
    match models message.modelUsage with
    | none => { usage with tokenReason := some .reportMissing }
    | some models =>
      if falseZero message models then { usage with tokenReason := some .reportMissing }
      else
        match subtractBaseline (hgetall usage.tokenBaselineModels) models with
        | none => { usage with tokenReason := some .counterRegressed, tokenBlocked := true }
        | some models =>
          if regressed usage.tokenModels models then
            { usage with tokenReason := some .counterRegressed, tokenBlocked := true }
          else { usage with tokenModels := models, tokenLastValid := true }

/-- `observe_result`: the other half of the observation adopts the session's name. -/
def observeResult (usage : ClaudeResultUsage) (message : ResultMessage) : ClaudeResultUsage :=
  let usage := usage.observeTokenResult message
  { usage with sessionId := usage.sessionId.or message.sessionId }

def modelUsageSnapshot (usage : ClaudeResultUsage) (terminal : Bool) :
    ClaudeResultUsage × UsagePayload :=
  let seq := usage.observationSeq + 1
  ({ usage with observationSeq := seq },
    { scopeId := usage.scopeId
      observationSeq := seq
      baseline := usage.tokenBaseline
      models := usage.tokenModels
      coverage :=
        if terminal && usage.tokenLastValid && usage.tokenReason.isNone then .reportedFinal
        else if hlen usage.tokenModels ≠ 0 then .partialReport
        else .unavailable
      providerSessionId := usage.sessionId
      baselineModels :=
        if usage.tokenBaseline = .unknown then none else some usage.tokenBaselineModels
      reason := usage.tokenReason })

end ClaudeResultUsage

end AiPlatform.Execution
