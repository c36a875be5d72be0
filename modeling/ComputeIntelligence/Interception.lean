import ComputeIntelligence.AttributionIndex
import Mathlib.Tactic.NormNum

/-! # What the interceptor reads and answers

The data and the pure parts of `interceptor/gateway.py`: the settings with what their
validator checks, requests and results, the identifiers and headers of a request, the
policy checks, and the headers of an answer.

A request's metadata is a `dict[str, Any]`.  Wherever the code applies `str`, `bool` or
`>` to a value of it, the operation may raise, and so does the function here.
-/
namespace ComputeIntelligence

/-- `DeploymentMode`. -/
inductive DeploymentMode where
  | passive | advisory | active
deriving DecidableEq

def DeploymentMode.value : DeploymentMode → String
  | .passive => "passive"
  | .advisory => "advisory"
  | .active => "active"

/-- `InterceptionOutcome`. -/
inductive InterceptionOutcome where
  | passthrough | enriched | redirected | softStopped | hardStopped
  | failOpen | circuitOpen | timeout
deriving DecidableEq

/-- The outcomes that count as failing open. -/
def InterceptionOutcome.failsOpen : InterceptionOutcome → Bool
  | .failOpen | .circuitOpen | .timeout => true
  | _ => false

/-- `FailOpenReason`, without the two members nothing in the gateway uses. -/
inductive FailOpenReason where
  | indexUnavailable | policyTimeout | lookupTimeout | runtimeException | resourceExhaustion
deriving DecidableEq

def FailOpenReason.value : FailOpenReason → String
  | .indexUnavailable => "INDEX_UNAVAILABLE"
  | .policyTimeout => "POLICY_TIMEOUT"
  | .lookupTimeout => "LOOKUP_TIMEOUT"
  | .runtimeException => "RUNTIME_EXCEPTION"
  | .resourceExhaustion => "RESOURCE_EXHAUSTION"

/-- `InterceptorConfig`, as `_validate_active_lite_thresholds` accepts it. -/
structure InterceptorConfig where
  timeoutMs : Int := 20
  policyTimeoutMs : Int := 15
  circuitBreakerThreshold : Int := 5
  circuitBreakerResetS : ℚ := 30
  shadowWarmProbability : ℚ := 1 / 100
  shadowWarmMaxTrackedWorkloads : Int := 10000
  shadowEventsEnabled : Bool := true
  maxEnrichmentHeaderBytes : Int := 4096
  maxHeaderValueLength : Int := 512
  activeLiteMinConfidence : ℚ := 9 / 10
  activeLiteGateMinConfidence : ℚ := 19 / 20
  policyTimeout_pos : 0 < policyTimeoutMs := by norm_num
  policyTimeout_le : 0 < timeoutMs → policyTimeoutMs ≤ timeoutMs := by norm_num
  minConfidence_unit : 0 ≤ activeLiteMinConfidence ∧ activeLiteMinConfidence ≤ 1 := by norm_num
  gateConfidence_unit :
    0 ≤ activeLiteGateMinConfidence ∧ activeLiteGateMinConfidence ≤ 1 := by norm_num
  min_le_gate : activeLiteMinConfidence ≤ activeLiteGateMinConfidence := by norm_num
  tracked_pos : 0 < shadowWarmMaxTrackedWorkloads := by norm_num

/-- `InterceptorConfig()`. -/
def InterceptorConfig.default : InterceptorConfig := {}

/-- `InterceptionRequest`. -/
structure InterceptionRequest where
  requestId : String
  model : String
  serviceName : String := ""
  apiKeyId : String := ""
  inputTokens : Int := 0
  estimatedCostUsd : PyFloat := .finite 0
  headers : PyDict String String := PyDict.empty
  workloadId : String := ""
  metadata : PyDict String PyVal := PyDict.empty

/-- `EnforcementAction`. -/
inductive EnforcementAction where
  | allow | softStop | hardStop | redirect
deriving DecidableEq

/-- `PolicyEvaluationResult`. -/
structure PolicyEvaluationResult where
  policyId : String
  policyName : String
  action : EnforcementAction
  violated : Bool
  details : String := ""
deriving DecidableEq

/-- `InterceptionResult`. -/
structure InterceptionResult where
  outcome : InterceptionOutcome
  requestId : String
  enrichmentHeaders : PyDict String String := PyDict.empty
  redirectModel : Option String := none
  policyResults : List PolicyEvaluationResult := []
  attribution : Option AttributionIndexEntry := none
  elapsedMs : ℚ := 0
  shadowEventLogged : Bool := false

/-! ### The request -/

namespace InterceptionRequest

/-- `str(request.metadata.get(key, ""))`. -/
def metaStr (request : InterceptionRequest) (key : String) : Except PyExn String :=
  (request.metadata.getD key (.str "")).toStr

/-- `bool(request.metadata.get(key, False))`. -/
def metaFlag (request : InterceptionRequest) (key : String) : Except PyExn Bool :=
  (request.metadata.getD key (.bool false)).truth

/-- `_resolve_workload_id`: the first candidate that is not blank.  The candidates are
all built before the first one is looked at. -/
def resolveWorkloadId (request : InterceptionRequest) : Except PyExn String := do
  let fromMetadata ← request.metaStr "workload_id"
  let candidates := [request.workloadId, request.serviceName, request.apiKeyId, fromMetadata]
  .ok (((candidates.map PyText.strip).find? (· ≠ "")).getD "")

/-- `_resolve_tenant_id`. -/
def resolveTenantId (request : InterceptionRequest) : Except PyExn String :=
  (request.metaStr "tenant_id").map PyText.strip

/-- `_should_downgrade_active_to_advisory`. -/
def shouldDowngrade (request : InterceptionRequest) : Except PyExn Bool := do
  let env := PyText.lower (PyText.strip (← request.metaStr "environment"))
  let isNonProduction := ["dev", "development", "test", "testing", "staging"].contains env
  let format := PyText.lower (PyText.strip (← request.metaStr "response_format_type"))
  let hasSemanticGuardrail ←
    if format = "json_object" then .ok true
    else do
      if (← request.metaFlag "tools_present") then .ok true
      else request.metaFlag "strict_json_schema"
  .ok (if isNonProduction then hasSemanticGuardrail else true)

end InterceptionRequest

/-- Whether `_sanitize_request_headers` drops a header. -/
def headerRefused (key value : String) : Bool :=
  let headerName := PyText.lower key
  let looksLikeEmail := PyText.contains "@" value && PyText.contains "." value
  let looksSensitive := PyText.contains "api-key" headerName ||
    PyText.contains "authorization" headerName || PyText.contains "prompt" headerName ||
    PyText.contains "token" headerName || PyText.contains "bearer " (PyText.lower value) ||
    looksLikeEmail
  let looksPromptLike :=
    1024 < value.length && (PyText.contains " " value || PyText.contains "\n" value)
  looksSensitive || looksPromptLike

/-- `_sanitize_request_headers`. -/
def sanitizeRequestHeaders (headers : PyDict String String) : PyDict String String :=
  headers.items.foldl
    (fun sanitized h => if headerRefused h.1 h.2 then sanitized else sanitized.set h.1 h.2)
    PyDict.empty

/-! ### Policies -/

/-- A violation, as every check reports it. -/
def softStop (policyId policyName details : String) : PolicyEvaluationResult :=
  { policyId, policyName, action := .softStop, violated := true, details }

/-- Model allowlist. -/
def modelAllowlistViolation (request : InterceptionRequest) (attribution : AttributionIndexEntry) :
    Option PolicyEvaluationResult :=
  if attribution.modelAllowlist ≠ [] ∧ request.model ∉ attribution.modelAllowlist then
    some (softStop "model_allowlist" "Production Model Allowlist"
      ("Model '" ++ request.model ++ "' not in allowlist"))
  else none

/-- Budget ceiling, above 90% utilized. -/
def budgetCeilingViolation (attribution : AttributionIndexEntry) : Option PolicyEvaluationResult :=
  match attribution.budgetRemainingUsd, attribution.budgetLimitUsd with
  | some remaining, some limit =>
      let utilization := (remaining.div limit).subFrom 1
      if limit.gt 0 ∧ utilization.gt (9 / 10) then
        some (softStop "budget_ceiling" "Budget Ceiling"
          ("Budget " ++ (utilization.scale 100).format 0 ++ "% utilized"))
      else none
  | _, _ => none

/-- Token budget. -/
def tokenBudgetViolation (request : InterceptionRequest) (attribution : AttributionIndexEntry) :
    Except PyExn (Option PolicyEvaluationResult) :=
  match attribution.tokenBudgetOutput with
  | some budget =>
      if budget = 0 then .ok none
      else do
        if (← (request.metadata.getD "max_tokens" (.int 0)).gtInt budget) then
          .ok (some (softStop "token_budget" "Token Budget Per Request"
            ("Requested tokens exceed budget of " ++ (← PyVal.intStr budget))))
        else .ok none
  | none => .ok none

/-- Input token budget. -/
def inputTokenViolation (request : InterceptionRequest) (attribution : AttributionIndexEntry) :
    Except PyExn (Option PolicyEvaluationResult) :=
  match attribution.tokenBudgetInput with
  | some budget =>
      if budget ≠ 0 ∧ budget < request.inputTokens then do
        let tokens ← PyVal.intStr request.inputTokens
        let limit ← PyVal.intStr budget
        .ok (some (softStop "token_budget_input" "Token Size Limit"
          ("Input tokens " ++ tokens ++ " exceed budget " ++ limit)))
      else .ok none
  | none => .ok none

/-- Per-request cost ceiling. -/
def costCeilingViolation (request : InterceptionRequest) (attribution : AttributionIndexEntry) :
    Option PolicyEvaluationResult :=
  match attribution.costCeilingPerRequestUsd with
  | some cap =>
      if request.estimatedCostUsd.gtFloat cap then
        some (softStop "cost_ceiling" "High-Cost Model Approval Gate"
          ("Estimated request cost " ++ request.estimatedCostUsd.format 6 ++ " exceeds cap " ++
            cap.format 6))
      else none
  | none => none

/-- `_evaluate_policies`. -/
def evaluatePolicies (request : InterceptionRequest) (attribution : AttributionIndexEntry) :
    Except PyExn (List PolicyEvaluationResult) := do
  let tokenBudget ← tokenBudgetViolation request attribution
  let inputTokens ← inputTokenViolation request attribution
  .ok ((modelAllowlistViolation request attribution).toList ++
    (budgetCeilingViolation attribution).toList ++ tokenBudget.toList ++
    inputTokens.toList ++
    (costCeilingViolation request attribution).toList)

/-- `any(v.violated for v in violations)`. -/
def hasViolation (violations : List PolicyEvaluationResult) : Bool :=
  violations.any PolicyEvaluationResult.violated

/-! ### Headers of an answer -/

/-- `_build_fail_open_headers`. -/
def buildFailOpenHeaders (reason : FailOpenReason) : PyDict String String :=
  (PyDict.empty.set "X-ACI-Fail-Open" "true").set "X-ACI-Fail-Open-Reason" reason.value

/-- `_map_attribution_reason`. -/
def mapAttributionReason (methodUsed : String) : String :=
  let method := PyText.upper methodUsed
  if PyText.startsWith "R1" method then "DIRECT_OWNER_MAPPING"
  else if PyText.startsWith "R2" method then "CI_PROVENANCE_MATCH"
  else if PyText.startsWith "R3" method || PyText.startsWith "R4" method ||
      PyText.startsWith "R5" method then "HEURISTIC_MATCH"
  else if PyText.startsWith "R6" method then "GATEWAY_INHERITANCE"
  else "UNKNOWN"

/-- `_build_advisory`: a code and a detail, both empty if there is nothing to advise. -/
def buildAdvisory (request : InterceptionRequest) (attribution : AttributionIndexEntry)
    (violations : List PolicyEvaluationResult) : String × String :=
  match attribution.approvedAlternatives with
  | alt :: rest =>
      if request.model ∉ alt :: rest then
        ("SUGGEST_MODEL_DOWNGRADE",
          PyText.take 200 ("Equivalent lower-cost alternative available: " ++ alt))
      else violationAdvisory
  | [] => violationAdvisory
where
  /-- The advice drawn from the violations. -/
  violationAdvisory : String × String :=
    match violations.find? fun v => ["token_budget", "token_budget_input"].contains v.policyId with
    | some v => ("SUGGEST_TOKEN_CAP", PyText.take 200 v.details)
    | none => match violations.find? fun v => v.policyId = "cost_ceiling" with
        | some v => ("SUGGEST_COST_CAP", PyText.take 200 v.details)
        | none => ("", "")

/-- `_estimate_header_bytes`. -/
def estimateHeaderBytes (headers : PyDict String String) : Nat :=
  (headers.items.map fun h => h.1.length + h.2.length + 4).sum

/-- The headers kept when the budget is short, most important first. -/
def headerPriority : List String :=
  ["X-ACI-Est-Cost-USD", "X-ACI-Attribution-Owner-Id", "X-ACI-Attribution-Confidence",
    "X-ACI-Attribution-Reason", "X-ACI-Price-Snapshot-Id", "X-ACI-Advisory",
    "X-ACI-Advisory-Code", "X-ACI-Advisory-Detail", "X-ACI-Confidence-Flag",
    "X-ACI-Policy-Violations", "X-ACI-Budget-Remaining-Pct", "X-ACI-Alternative-Models",
    "X-ACI-Intervention-Applied", "X-ACI-Intervention-Type", "X-ACI-Intervention-Delta",
    "X-ACI-Fail-Open", "X-ACI-Fail-Open-Reason"]

/-- The loop of `_enforce_header_budget` over the priorities. -/
def trimHeaders (clamped : PyDict String String) (maxBytes : Int) :
    List String → PyDict String String → PyDict String String
  | [], trimmed => trimmed
  | key :: rest, trimmed =>
      let added := match clamped.get? key with
        | some value => trimmed.set key value
        | none => trimmed
      if maxBytes < estimateHeaderBytes added then added.erase key
      else trimHeaders clamped maxBytes rest added

/-- `_enforce_header_budget`. -/
def enforceHeaderBudget (config : InterceptorConfig) (headers : PyDict String String) :
    PyDict String String :=
  let clamped := PyDict.ofList
    (headers.items.map fun h => (h.1, PyText.sliceTo config.maxHeaderValueLength h.2))
  if estimateHeaderBytes clamped ≤ config.maxEnrichmentHeaderBytes then clamped
  else (trimHeaders clamped config.maxEnrichmentHeaderBytes headerPriority PyDict.empty).set
    "X-ACI-Header-Budget-Applied" "1"

/-- The price snapshot the request names, as both header builders add it. -/
def addPriceSnapshot (request : InterceptionRequest) (headers : PyDict String String) :
    Except PyExn (PyDict String String) := do
  let snapshotId := PyText.strip (← request.metaStr "price_snapshot_id")
  .ok (if snapshotId = "" then headers else headers.set "X-ACI-Price-Snapshot-Id" snapshotId)

/-- `_build_basic_headers`. -/
def buildBasicHeaders (config : InterceptorConfig) (request : InterceptionRequest)
    (attribution : AttributionIndexEntry) (failOpenReason : Option FailOpenReason) :
    Except PyExn (PyDict String String) := do
  let headers := PyDict.ofList
    [("X-ACI-Est-Cost-USD", request.estimatedCostUsd.format 6),
     ("X-ACI-Attribution-Confidence", PyFloat.formatFixed 2 attribution.confidence.1)]
  let headers ← addPriceSnapshot request headers
  let headers := match failOpenReason with
    | some reason => (buildFailOpenHeaders reason).items.foldl (fun d h => d.set h.1 h.2) headers
    | none => headers
  .ok (enforceHeaderBudget config headers)

/-- `X-ACI-Budget-Remaining-Pct`, where the entry has a budget. -/
def budgetRemainingPct (attribution : AttributionIndexEntry) : Option String :=
  match attribution.budgetRemainingUsd, attribution.budgetLimitUsd with
  | some remaining, some limit =>
      if limit = .finite 0 then none else some (((remaining.div limit).scale 100).format 0)
  | _, _ => none

/-- `X-ACI-Confidence-Flag`, for the tiers below chargeback. -/
def confidenceFlag (attribution : AttributionIndexEntry) : Option String :=
  if attribution.confidenceTier = "provisional" then some "PROVISIONAL"
  else if attribution.confidenceTier = "estimated" then some "ESTIMATED"
  else none

/-- `_build_enrichment_headers`. -/
def buildEnrichmentHeaders (config : InterceptorConfig) (request : InterceptionRequest)
    (attribution : AttributionIndexEntry) (violations : List PolicyEvaluationResult) :
    Except PyExn (PyDict String String) := do
  let ownerId := ([attribution.teamId, attribution.personId].find? (· ≠ "")).getD
    attribution.teamName
  let (advisoryCode, advisoryDetail) := buildAdvisory request attribution violations
  let headers := PyDict.ofList
    [("X-ACI-Est-Cost-USD", request.estimatedCostUsd.format 6),
     ("X-ACI-Attribution-Owner-Id", ownerId),
     ("X-ACI-Attribution-Confidence", PyFloat.formatFixed 2 attribution.confidence.1),
     ("X-ACI-Attribution-Reason", mapAttributionReason attribution.methodUsed),
     ("X-ACI-Model", request.model),
     ("X-ACI-Advisory", if advisoryCode ≠ "" then "true" else "false")]
  let headers ← addPriceSnapshot request headers
  let optional :=
    (if advisoryCode ≠ "" then
      [("X-ACI-Advisory-Code", advisoryCode), ("X-ACI-Advisory-Detail", advisoryDetail)]
    else []) ++
    (if attribution.teamName ≠ "" then [("X-ACI-Team-Name", attribution.teamName)] else []) ++
    ((budgetRemainingPct attribution).map (("X-ACI-Budget-Remaining-Pct", ·))).toList ++
    (if attribution.approvedAlternatives ≠ [] then
      [("X-ACI-Alternative-Models", PyText.join "," attribution.approvedAlternatives)] else []) ++
    ((confidenceFlag attribution).map (("X-ACI-Confidence-Flag", ·))).toList ++
    (if violations ≠ [] then [("X-ACI-Policy-Violations", toString violations.length)] else [])
  .ok (enforceHeaderBudget config (optional.foldl (fun d h => d.set h.1 h.2) headers))

end ComputeIntelligence
