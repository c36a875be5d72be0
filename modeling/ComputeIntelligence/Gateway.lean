import ComputeIntelligence.Effects
import ComputeIntelligence.Events
import ComputeIntelligence.ShadowWarming

/-! # The fail-open interceptor

`FailOpenInterceptor.intercept` (`interceptor/gateway.py`) as a computation over the
interceptor's own state: the circuit, the counters, the warmer, and what was handed to
the event publisher.

The circuit is a parameter (`CircuitOps`): the code calls four methods of it, and each
may raise.  What one call meets in the world around it is an input (`CallEnv`), indexed
by the place in the code that asks: a call passes each place at most once.  The
background tasks it starts are recorded, not run.  Log lines and the Prometheus
counters are left out, but for the dictionary that turns the circuit state into a
gauge, since looking a state up in it may raise.
-/
namespace ComputeIntelligence

/-- The places where the monotonic clock is read. -/
inductive Tick where
  | start | circuitOpen | noWorkload | miss | refresh | lookup | policyStart | policyEnd
  | policyTimeout | policyEvent | answer | failed
deriving DecidableEq

/-- The places where an event is made. -/
inductive Emission where
  | shadow | policyEvaluated | intervention | failure
deriving DecidableEq

/-- The two places where the metrics are recorded. -/
inductive MetricsPass where
  | answered | failed
deriving DecidableEq

/-- What the publisher does with an event: it answers, hands back an awaitable, or
raises. -/
inductive PublishReply where
  | returned (accepted : Bool) | awaitable | raised
deriving DecidableEq

/-- What one call meets. -/
structure CallEnv where
  /-- `time.monotonic()`, in seconds. -/
  monotonic : Tick → ℚ
  /-- `index.lookup`. -/
  lookup : String → Except PyExn (Option AttributionIndexEntry)
  /-- `random.random()`. -/
  draw : ℚ
  eventId : Emission → String
  now : Emission → AwareDateTime
  /-- `event_bus.publish`. -/
  publish : DomainEvent → PublishReply

/-- How an interceptor is set up. -/
structure Gateway where
  config : InterceptorConfig := .default
  mode : DeploymentMode := .advisory
  hasEventBus : Bool := false
  hasRefreshFn : Bool := false

/-- The counters of `get_metrics`. -/
structure InterceptorTotals where
  requests : Nat := 0
  enriched : Nat := 0
  failOpen : Nat := 0
  redirected : Nat := 0
  cacheMisses : Nat := 0
deriving DecidableEq

/-- The state of a `FailOpenInterceptor` whose circuit has state `β`. -/
structure Interceptor (β : Type) where
  circuit : β
  totals : InterceptorTotals := {}
  warmer : ShadowWarmer := {}
  /-- The events handed to the publisher, oldest first. -/
  handed : List DomainEvent := []
  /-- The workloads whose background refresh was started, oldest first. -/
  refreshes : List String := []

/-- The methods of the circuit breaker that the interceptor calls. -/
structure CircuitOps (β : Type) where
  isOpen : Eff PyExn β Bool
  recordSuccess : Eff PyExn β Unit
  recordFailure : Eff PyExn β Unit
  /-- The property `state`, as the metrics read it. -/
  state : MetricsPass → Eff PyExn β PyVal

/-- A computation of the interceptor. -/
abbrev InterceptM (β : Type) := Eff PyExn (Interceptor β)

variable {β : Type}

/-- Call a method of the circuit. -/
def onCircuit {α : Type} (op : Eff PyExn β α) : InterceptM β α :=
  op.zoom Interceptor.circuit (fun s c => { s with circuit := c })

/-- A triple of a method is one of its call. -/
theorem onCircuit_spec {α : Type} {op : Eff PyExn β α} {P : β → Prop} {Q : α → β → Prop}
    {R : PyExn → β → Prop} (h : Eff.Spec P op Q R) :
    Eff.Spec (fun s : Interceptor β => P s.circuit) (onCircuit op) (fun a s => Q a s.circuit)
      (fun x s => R x s.circuit) :=
  h.zoom fun _ _ => rfl

/-- Update the counters. -/
def count (f : InterceptorTotals → InterceptorTotals) : InterceptM β Unit :=
  Eff.modify fun s => { s with totals := f s.totals }

/-- Milliseconds since the start of the call. -/
def CallEnv.elapsedMs (env : CallEnv) (tick : Tick) : ℚ :=
  (env.monotonic tick - env.monotonic .start) * 1000

/-! ### Events -/

/-- The event, if its attributes are small enough to be validated. -/
def makeEvent (env : CallEnv) (place : Emission) (eventType : EventType) (subjectId : String)
    (attributes : PyDict String PyVal) (idempotencyKey tenantId : String) : Option DomainEvent :=
  if h : payloadFits attributes then
    some { eventId := env.eventId place
           eventType := eventType
           subjectId := subjectId
           attributes := ⟨attributes, h⟩
           eventTime := env.now place
           ingestTime := env.now place
           source := "interceptor"
           idempotencyKey := idempotencyKey
           tenantId := tenantId }
  else none

/-- `_publish_async_event`: every exception on the way is swallowed. -/
def publishAsyncEvent (g : Gateway) (env : CallEnv) (place : Emission) (eventType : EventType)
    (subjectId : String) (attributes : PyDict String PyVal) (idempotencyKey tenantId : String) :
    InterceptM β Bool :=
  if g.hasEventBus then
    match makeEvent env place eventType subjectId attributes idempotencyKey tenantId with
    | some event => do
        Eff.modify fun s => { s with handed := s.handed ++ [event] }
        pure (match env.publish event with
          | .returned accepted => accepted
          | .awaitable => true
          | .raised => false)
    | none => pure false
  else pure false

/-- `_emit_shadow_event`. -/
def emitShadowEvent (g : Gateway) (env : CallEnv) (place : Emission) (eventType : EventType)
    (workloadId requestId : String) (elapsedMs : ℚ) (tenantId : String) : InterceptM β Bool :=
  if g.config.shadowEventsEnabled then
    publishAsyncEvent g env place eventType workloadId
      (PyDict.ofList
        [("request_id", .str requestId), ("workload_id", .str workloadId),
         ("elapsed_ms", .float (.finite elapsedMs)), ("interceptor_mode", .str g.mode.value),
         ("tenant_id", .str tenantId)])
      ("shadow:" ++ requestId) tenantId
  else pure false

/-- `_emit_policy_evaluation_event`. -/
def emitPolicyEvaluationEvent (g : Gateway) (env : CallEnv) (request : InterceptionRequest)
    (workloadId : String) (violations : List PolicyEvaluationResult) (elapsedMs : ℚ)
    (failOpen : Bool) : InterceptM β Bool := do
  let tenantId ← Eff.lift request.resolveTenantId
  let violatedIds := (violations.filter PolicyEvaluationResult.violated).map
    PolicyEvaluationResult.policyId
  let environment ← Eff.lift (request.metaStr "environment")
  publishAsyncEvent g env .policyEvaluated .policyEvaluated workloadId
    (PyDict.ofList
      [("request_id", .str request.requestId), ("workload_id", .str workloadId),
       ("violation_count", .int violatedIds.length),
       ("violated_policy_ids", .list (violatedIds.map .str)), ("mode", .str g.mode.value),
       ("fail_open", .bool failOpen), ("elapsed_ms", .float (.finite elapsedMs)),
       ("environment", .str environment)])
    ("policy_eval:" ++ request.requestId ++ ":" ++ g.mode.value) tenantId

/-- `_emit_intervention_event`. -/
def emitInterventionEvent (g : Gateway) (env : CallEnv) (request : InterceptionRequest)
    (actionType : String) (elapsedMs : ℚ) (attribution : AttributionIndexEntry)
    (newModel : Option String) : InterceptM β Bool := do
  let workloadId ← Eff.lift request.resolveWorkloadId
  if workloadId = "" then pure false
  else do
    let tenantId ← Eff.lift request.resolveTenantId
    let environment ← Eff.lift (request.metaStr "environment")
    publishAsyncEvent g env .intervention .interventionApplied workloadId
      (PyDict.ofList
        [("request_id", .str request.requestId), ("workload_id", .str workloadId),
         ("action_type", .str actionType), ("original_model", .str request.model),
         ("new_model", .str (newModel.getD "")),
         ("attribution_confidence", .float (.finite attribution.confidence.1)),
         ("estimated_cost_usd", .float request.estimatedCostUsd),
         ("environment", .str environment), ("elapsed_ms", .float (.finite elapsedMs)),
         ("tenant_id", .str tenantId)])
      ("intervention:" ++ request.requestId ++ ":" ++ actionType) tenantId

/-! ### The pipeline -/

/-- The refresh that a cache miss may start. -/
def shadowRefresh (g : Gateway) (env : CallEnv) (workloadId : String) : InterceptM β Unit :=
  if g.hasRefreshFn then
    Eff.modify fun s =>
      let (trigger, warmer) := s.warmer.shouldTriggerRefresh g.config workloadId
        (env.monotonic .refresh) env.draw
      { s with
        warmer := warmer
        refreshes := if trigger then s.refreshes ++ [workloadId] else s.refreshes }
  else pure ()

/-- The index has no entry. -/
def missed (g : Gateway) (env : CallEnv) (request : InterceptionRequest) (workloadId : String) :
    InterceptM β InterceptionResult := do
  count fun t => { t with cacheMisses := t.cacheMisses + 1, failOpen := t.failOpen + 1 }
  shadowRefresh g env workloadId
  let tenantId ← Eff.lift request.resolveTenantId
  let shadowLogged ← emitShadowEvent g env .shadow .shadowInterceptMiss workloadId
    request.requestId (env.elapsedMs .miss) tenantId
  pure { outcome := .failOpen, requestId := request.requestId, elapsedMs := env.elapsedMs .miss,
         shadowEventLogged := shadowLogged,
         enrichmentHeaders := buildFailOpenHeaders .indexUnavailable }

/-- A timeout: a shadow event, and the basic headers. -/
def timedOut (g : Gateway) (env : CallEnv) (request : InterceptionRequest) (workloadId : String)
    (attribution : AttributionIndexEntry) (elapsedMs : ℚ) (reason : FailOpenReason) :
    InterceptM β InterceptionResult := do
  let tenantId ← Eff.lift request.resolveTenantId
  let shadowLogged ← emitShadowEvent g env .shadow .shadowInterceptTimeout workloadId
    request.requestId elapsedMs tenantId
  let headers ← Eff.lift (buildBasicHeaders g.config request attribution (some reason))
  pure { outcome := .timeout, requestId := request.requestId, elapsedMs := elapsedMs,
         attribution := some attribution, enrichmentHeaders := headers,
         shadowEventLogged := shadowLogged }

/-- The outcome when the request is served with advice only. -/
def advisoryOutcome (violations : List PolicyEvaluationResult) : InterceptionOutcome :=
  if hasViolation violations then .softStopped else .enriched

/-- The answer with full headers: Advisory mode, and Active mode when downgraded.  Only
the former reports a success. -/
def advise (g : Gateway) (env : CallEnv) (request : InterceptionRequest)
    (attribution : AttributionIndexEntry) (violations : List PolicyEvaluationResult)
    (report : InterceptM β Unit) : InterceptM β InterceptionResult := do
  let headers ← Eff.lift (buildEnrichmentHeaders g.config request attribution violations)
  report
  count fun t => { t with enriched := t.enriched + 1 }
  pure { outcome := advisoryOutcome violations, requestId := request.requestId,
         enrichmentHeaders := headers, elapsedMs := env.elapsedMs .answer,
         attribution := some attribution, policyResults := violations }

/-- The policies whose violation may stop a request. -/
def hardStopIds : List String :=
  ["model_allowlist", "budget_ceiling", "token_budget_input", "cost_ceiling"]

/-- Whether a violation is a hard stop in Active mode. -/
def isHardStop (v : PolicyEvaluationResult) : Bool :=
  v.action = .hardStop || hardStopIds.contains v.policyId

/-- The answer that redirects to an approved model. -/
def redirectTo (g : Gateway) (env : CallEnv) (request : InterceptionRequest)
    (attribution : AttributionIndexEntry) (violations : List PolicyEvaluationResult)
    (headers : PyDict String String) (altModel : String) : InterceptM β InterceptionResult := do
  count fun t => { t with redirected := t.redirected + 1 }
  let headers := ((headers.set "X-ACI-Intervention-Applied" "true").set
    "X-ACI-Intervention-Type" "MODEL_ROUTE").set "X-ACI-Intervention-Delta"
      (PyText.take 512 ("\x7bmodel:" ++ request.model ++ "->" ++ altModel ++ "\x7d"))
  let _ ← emitInterventionEvent g env request "MODEL_ROUTE" (env.elapsedMs .answer) attribution
    (some altModel)
  pure { outcome := .redirected, requestId := request.requestId, enrichmentHeaders := headers,
         redirectModel := some altModel, elapsedMs := env.elapsedMs .answer,
         attribution := some attribution, policyResults := violations }

/-- The answer of Active mode when it neither stops nor redirects. -/
def serveActive (g : Gateway) (env : CallEnv) (request : InterceptionRequest)
    (attribution : AttributionIndexEntry) (violations : List PolicyEvaluationResult)
    (headers : PyDict String String) : InterceptM β InterceptionResult := do
  count fun t => { t with enriched := t.enriched + 1 }
  if hasViolation violations then
    let _ ← emitInterventionEvent g env request "SOFT_STOP" (env.elapsedMs .answer) attribution none
  pure { outcome := advisoryOutcome violations, requestId := request.requestId,
         enrichmentHeaders := headers, elapsedMs := env.elapsedMs .answer,
         attribution := some attribution, policyResults := violations }

/-- `_active_routing`. -/
def activeRouting (g : Gateway) (env : CallEnv) (request : InterceptionRequest)
    (attribution : AttributionIndexEntry) (violations : List PolicyEvaluationResult) :
    InterceptM β InterceptionResult := do
  let headers ← Eff.lift (buildEnrichmentHeaders g.config request attribution violations)
  if violations.any isHardStop ∧
      g.config.activeLiteGateMinConfidence ≤ attribution.confidence.1 then do
    let _ ← emitInterventionEvent g env request "GATE_REJECT" (env.elapsedMs .answer) attribution
      none
    pure { outcome := .hardStopped, requestId := request.requestId, enrichmentHeaders := headers,
           elapsedMs := env.elapsedMs .answer, attribution := some attribution,
           policyResults := violations }
  else
    match attribution.approvedAlternatives with
    | altModel :: rest =>
        if request.model ∉ altModel :: rest then
          redirectTo g env request attribution violations headers altModel
        else serveActive g env request attribution violations headers
    | [] => serveActive g env request attribution violations headers

/-- Active mode falls back to advice on low confidence or on the request's environment. -/
def downgraded (g : Gateway) (request : InterceptionRequest)
    (attribution : AttributionIndexEntry) : Except PyExn Bool :=
  if attribution.confidence.1 < g.config.activeLiteMinConfidence then .ok true
  else request.shouldDowngrade

/-- The mode-dependent step. -/
def route (ops : CircuitOps β) (g : Gateway) (env : CallEnv) (request : InterceptionRequest)
    (attribution : AttributionIndexEntry) (violations : List PolicyEvaluationResult) :
    InterceptM β InterceptionResult :=
  match g.mode with
  | .passive => do
      onCircuit ops.recordSuccess
      count fun t => { t with enriched := t.enriched + 1 }
      pure { outcome := .passthrough, requestId := request.requestId,
             elapsedMs := env.elapsedMs .answer, attribution := some attribution,
             policyResults := violations }
  | .advisory => advise g env request attribution violations (onCircuit ops.recordSuccess)
  | .active => do
      if (← Eff.lift (downgraded g request attribution)) then
        advise g env request attribution violations (pure ())
      else do
        let result ← activeRouting g env request attribution violations
        onCircuit ops.recordSuccess
        pure result

/-- The lookup left too little of the time budget. -/
def CallEnv.lookupTimedOut (env : CallEnv) (config : InterceptorConfig) : Bool :=
  decide (config.timeoutMs - env.elapsedMs .lookup ≤ 2)

/-- The policies took longer than their budget. -/
def CallEnv.policyTimedOut (env : CallEnv) (config : InterceptorConfig) : Bool :=
  decide (config.policyTimeoutMs < (env.monotonic .policyEnd - env.monotonic .policyStart) * 1000)

/-- The index has an entry. -/
def enrich (ops : CircuitOps β) (g : Gateway) (env : CallEnv) (request : InterceptionRequest)
    (workloadId : String) (attribution : AttributionIndexEntry) :
    InterceptM β InterceptionResult :=
  if env.lookupTimedOut g.config then do
    count fun t => { t with failOpen := t.failOpen + 1 }
    timedOut g env request workloadId attribution (env.elapsedMs .lookup) .lookupTimeout
  else do
    let violations ← Eff.lift (evaluatePolicies request attribution)
    if env.policyTimedOut g.config then do
      count fun t => { t with failOpen := t.failOpen + 1 }
      let _ ← emitPolicyEvaluationEvent g env request workloadId violations
        (env.elapsedMs .policyTimeout) true
      timedOut g env request workloadId attribution (env.elapsedMs .policyTimeout) .policyTimeout
    else do
      let _ ← emitPolicyEvaluationEvent g env request workloadId violations
        (env.elapsedMs .policyEvent) false
      route ops g env request attribution violations

/-- The request was let through by the circuit. -/
def admitted (ops : CircuitOps β) (g : Gateway) (env : CallEnv) (request : InterceptionRequest) :
    InterceptM β InterceptionResult := do
  let workloadId ← Eff.lift request.resolveWorkloadId
  if workloadId = "" then
    pure { outcome := .passthrough, requestId := request.requestId,
           elapsedMs := env.elapsedMs .noWorkload }
  else do
    match ← Eff.lift (env.lookup workloadId) with
    | none => missed g env request workloadId
    | some attribution => enrich ops g env request workloadId attribution

/-- `_intercept_inner`. -/
def interceptInner (ops : CircuitOps β) (g : Gateway) (env : CallEnv)
    (request : InterceptionRequest) : InterceptM β InterceptionResult := do
  let request := { request with headers := sanitizeRequestHeaders request.headers }
  if (← onCircuit ops.isOpen) then do
    count fun t => { t with failOpen := t.failOpen + 1 }
    pure { outcome := .circuitOpen, requestId := request.requestId,
           elapsedMs := env.elapsedMs .circuitOpen,
           enrichmentHeaders := buildFailOpenHeaders .resourceExhaustion }
  else admitted ops g env request

/-- The gauge of a circuit state: a dictionary lookup, which hashes its key. -/
def stateGauge : PyVal → Except PyExn ℚ
  | .list _ | .dict _ => .error .typeError
  | .str "half_open" => .ok 1
  | .str "open" => .ok 2
  | _ => .ok 0

/-- `_record_observability_metrics`, as far as it can raise. -/
def recordObservabilityMetrics (ops : CircuitOps β) (pass : MetricsPass) : InterceptM β Unit := do
  let state ← onCircuit (ops.state pass)
  let _ ← Eff.lift (stateGauge state)
  pure ()

/-- The handler of `intercept`. -/
def failOpenResult (ops : CircuitOps β) (g : Gateway) (env : CallEnv)
    (request : InterceptionRequest) : InterceptM β InterceptionResult := do
  count fun t => { t with failOpen := t.failOpen + 1 }
  onCircuit ops.recordFailure
  let workloadId ← Eff.lift request.resolveWorkloadId
  let shadowLogged ← emitFailure workloadId
  recordObservabilityMetrics ops .failed
  pure { outcome := .failOpen, requestId := request.requestId,
         elapsedMs := env.elapsedMs .failed, shadowEventLogged := shadowLogged,
         enrichmentHeaders := buildFailOpenHeaders .runtimeException }
where
  /-- The shadow event of a request that has a workload. -/
  emitFailure (workloadId : String) : InterceptM β Bool :=
    if workloadId = "" then pure false
    else do
      let tenantId ← Eff.lift request.resolveTenantId
      emitShadowEvent g env .failure .shadowInterceptTimeout workloadId request.requestId
        (env.elapsedMs .failed) tenantId

/-- `intercept`. -/
def intercept (ops : CircuitOps β) (g : Gateway) (env : CallEnv) (request : InterceptionRequest) :
    InterceptM β InterceptionResult := do
  count fun t => { t with requests := t.requests + 1 }
  Eff.catching
    (do
      let result ← interceptInner ops g env request
      recordObservabilityMetrics ops .answered
      pure result)
    fun _ => failOpenResult ops g env request

/-! ### What leaves the circuit alone

Everything but the four methods of the circuit. -/

/-- However it ends, the computation leaves the circuit as it was. -/
def KeepsCircuit {α : Type} (x : InterceptM β α) : Prop := Eff.Frames Interceptor.circuit x

variable {g : Gateway} {env : CallEnv} {request : InterceptionRequest}

theorem count_keepsCircuit (f : InterceptorTotals → InterceptorTotals) :
    KeepsCircuit (count f : InterceptM β Unit) :=
  Eff.frames_modify fun _ => rfl

section Frames
variable {γ : Type} {part : Interceptor β → γ}
  (hhanded : ∀ s handed, part { s with handed := handed } = part s)
include hhanded

/-- Publishing touches nothing but the events handed over. -/
theorem publishAsyncEvent_frames {place : Emission} {eventType : EventType}
    {subjectId idempotencyKey tenantId : String} {attributes : PyDict String PyVal} :
    Eff.Frames part (publishAsyncEvent g env place eventType subjectId attributes idempotencyKey
      tenantId) := by
  refine Eff.frames_ite ?_ (Eff.frames_pure _)
  split
  · exact Eff.Frames.bind (Eff.frames_modify fun s => hhanded s _) fun _ => Eff.frames_pure _
  · exact Eff.frames_pure _

theorem emitShadowEvent_frames {place : Emission} {eventType : EventType}
    {workloadId requestId tenantId : String} {elapsedMs : ℚ} :
    Eff.Frames part (emitShadowEvent g env place eventType workloadId requestId elapsedMs
      tenantId) :=
  Eff.frames_ite (publishAsyncEvent_frames hhanded) (Eff.frames_pure _)

theorem emitPolicyEvaluationEvent_frames {workloadId : String}
    {violations : List PolicyEvaluationResult} {elapsedMs : ℚ} {failOpen : Bool} :
    Eff.Frames part (emitPolicyEvaluationEvent g env request workloadId violations elapsedMs
      failOpen) :=
  (Eff.frames_lift _).bind fun _ => (Eff.frames_lift _).bind fun _ =>
    publishAsyncEvent_frames hhanded

theorem emitInterventionEvent_frames {actionType : String} {elapsedMs : ℚ}
    {attribution : AttributionIndexEntry} {newModel : Option String} :
    Eff.Frames part (emitInterventionEvent g env request actionType elapsedMs attribution
      newModel) := by
  refine (Eff.frames_lift _).bind fun _ => Eff.frames_ite (Eff.frames_pure _) ?_
  exact (Eff.frames_lift _).bind fun _ => (Eff.frames_lift _).bind fun _ =>
    publishAsyncEvent_frames hhanded

theorem emitFailure_frames {workloadId : String} :
    Eff.Frames part (failOpenResult.emitFailure g env request workloadId) :=
  Eff.frames_ite (Eff.frames_pure _)
    ((Eff.frames_lift _).bind fun _ => emitShadowEvent_frames hhanded)

end Frames

theorem publishAsyncEvent_keepsCircuit {place : Emission} {eventType : EventType}
    {subjectId idempotencyKey tenantId : String} {attributes : PyDict String PyVal} :
    KeepsCircuit (publishAsyncEvent g env place eventType subjectId attributes idempotencyKey
      tenantId : InterceptM β Bool) :=
  publishAsyncEvent_frames fun _ _ => rfl

theorem emitShadowEvent_keepsCircuit {place : Emission} {eventType : EventType}
    {workloadId requestId tenantId : String} {elapsedMs : ℚ} :
    KeepsCircuit (emitShadowEvent g env place eventType workloadId requestId elapsedMs tenantId :
      InterceptM β Bool) :=
  emitShadowEvent_frames fun _ _ => rfl

theorem emitPolicyEvaluationEvent_keepsCircuit {workloadId : String}
    {violations : List PolicyEvaluationResult} {elapsedMs : ℚ} {failOpen : Bool} :
    KeepsCircuit (emitPolicyEvaluationEvent g env request workloadId violations elapsedMs failOpen :
      InterceptM β Bool) :=
  emitPolicyEvaluationEvent_frames fun _ _ => rfl

theorem emitInterventionEvent_keepsCircuit {actionType : String} {elapsedMs : ℚ}
    {attribution : AttributionIndexEntry} {newModel : Option String} :
    KeepsCircuit (emitInterventionEvent g env request actionType elapsedMs attribution newModel :
      InterceptM β Bool) :=
  emitInterventionEvent_frames fun _ _ => rfl

theorem shadowRefresh_keepsCircuit {workloadId : String} :
    KeepsCircuit (shadowRefresh g env workloadId : InterceptM β Unit) :=
  Eff.frames_ite (Eff.frames_modify fun _ => rfl) (Eff.frames_pure _)

theorem missed_keepsCircuit {workloadId : String} :
    KeepsCircuit (missed g env request workloadId : InterceptM β InterceptionResult) :=
  (count_keepsCircuit _).bind fun _ => shadowRefresh_keepsCircuit.bind fun _ =>
    (Eff.frames_lift _).bind fun _ => emitShadowEvent_keepsCircuit.bind fun _ => Eff.frames_pure _

theorem timedOut_keepsCircuit {workloadId : String} {attribution : AttributionIndexEntry}
    {elapsedMs : ℚ} {reason : FailOpenReason} :
    KeepsCircuit (timedOut g env request workloadId attribution elapsedMs reason :
      InterceptM β InterceptionResult) :=
  (Eff.frames_lift _).bind fun _ => emitShadowEvent_keepsCircuit.bind fun _ =>
    (Eff.frames_lift _).bind fun _ => Eff.frames_pure _

theorem serveActive_keepsCircuit {attribution : AttributionIndexEntry}
    {violations : List PolicyEvaluationResult} {headers : PyDict String String} :
    KeepsCircuit (serveActive g env request attribution violations headers :
      InterceptM β InterceptionResult) := by
  refine (count_keepsCircuit _).bind fun _ => ?_
  exact Eff.frames_ite (emitInterventionEvent_keepsCircuit.bind fun _ => Eff.frames_pure _)
    (Eff.frames_pure _)

theorem redirectTo_keepsCircuit {attribution : AttributionIndexEntry}
    {violations : List PolicyEvaluationResult} {headers : PyDict String String}
    {altModel : String} :
    KeepsCircuit (redirectTo g env request attribution violations headers altModel :
      InterceptM β InterceptionResult) :=
  (count_keepsCircuit _).bind fun _ => emitInterventionEvent_keepsCircuit.bind fun _ =>
    Eff.frames_pure _

theorem activeRouting_keepsCircuit {attribution : AttributionIndexEntry}
    {violations : List PolicyEvaluationResult} :
    KeepsCircuit (activeRouting g env request attribution violations :
      InterceptM β InterceptionResult) := by
  refine (Eff.frames_lift _).bind fun _ => Eff.frames_ite ?_ ?_
  · exact emitInterventionEvent_keepsCircuit.bind fun _ => Eff.frames_pure _
  · split
    · exact Eff.frames_ite redirectTo_keepsCircuit serveActive_keepsCircuit
    · exact serveActive_keepsCircuit

theorem emitFailure_keepsCircuit {workloadId : String} :
    KeepsCircuit (failOpenResult.emitFailure g env request workloadId : InterceptM β Bool) :=
  emitFailure_frames fun _ _ => rfl

/-! ### What never raises -/

/-- Publishing swallows its exceptions. -/
theorem publishAsyncEvent_returns {place : Emission} {eventType : EventType}
    {subjectId idempotencyKey tenantId : String} {attributes : PyDict String PyVal} :
    Eff.Returns (publishAsyncEvent g env place eventType subjectId attributes idempotencyKey
      tenantId : InterceptM β Bool) := by
  refine Eff.returns_ite ?_ (Eff.returns_pure _)
  split
  · exact (Eff.returns_modify _).bind fun _ => Eff.returns_pure _
  · exact Eff.returns_pure _

theorem emitShadowEvent_returns {place : Emission} {eventType : EventType}
    {workloadId requestId tenantId : String} {elapsedMs : ℚ} :
    Eff.Returns (emitShadowEvent g env place eventType workloadId requestId elapsedMs tenantId :
      InterceptM β Bool) :=
  Eff.returns_ite publishAsyncEvent_returns (Eff.returns_pure _)

/-! ### Which calls report to the circuit -/

/-- The exits that report neither a success nor a failure: no workload, a miss, either
timeout, and the downgrade of Active mode. -/
def Silent (g : Gateway) (env : CallEnv) (request : InterceptionRequest) : Prop :=
  match request.resolveWorkloadId with
  | .error _ => False
  | .ok workloadId => workloadId = "" ∨
      match env.lookup workloadId with
      | .error _ => False
      | .ok none => True
      | .ok (some attribution) =>
          env.lookupTimedOut g.config = true ∨ env.policyTimedOut g.config = true ∨
            g.mode = .active ∧ downgraded g request attribution = .ok true

theorem silent_of_blank (h : request.resolveWorkloadId = .ok "") : Silent g env request := by
  unfold Silent
  rw [h]
  exact .inl rfl

theorem silent_of_miss {workloadId : String} (h : request.resolveWorkloadId = .ok workloadId)
    (hl : env.lookup workloadId = .ok none) : Silent g env request := by
  unfold Silent
  rw [h]
  simp only [hl]
  exact .inr trivial

theorem silent_of_hit {workloadId : String} {attribution : AttributionIndexEntry}
    (h : request.resolveWorkloadId = .ok workloadId)
    (hl : env.lookup workloadId = .ok (some attribution))
    (hs : env.lookupTimedOut g.config = true ∨ env.policyTimedOut g.config = true ∨
      g.mode = .active ∧ downgraded g request attribution = .ok true) :
    Silent g env request := by
  unfold Silent
  rw [h]
  simp only [hl]
  exact .inr hs

section Reports
variable {ops : CircuitOps β} {I J : β → Prop}

/-- The circuit is as `record_success` leaves it, or the call was silent. -/
def Reported (I J : β → Prop) (g : Gateway) (env : CallEnv) (request : InterceptionRequest)
    (s : Interceptor β) : Prop :=
  J s.circuit ∨ Silent g env request ∧ I s.circuit

/-- A computation that keeps the circuit, on a silent exit. -/
theorem KeepsCircuit.reported {x : InterceptM β InterceptionResult} (h : KeepsCircuit x)
    (hs : Silent g env request) :
    Eff.Spec (fun s => I s.circuit) x (fun _ => Reported I J g env request)
      (fun _ s => I s.circuit) :=
  (Eff.Frames.spec h).weaken (fun _ hi => hi) (fun _ _ hi => .inr ⟨hs, hi⟩) (fun _ _ hi => hi)

variable (hsucc : Eff.Spec I ops.recordSuccess (fun _ => J) (fun _ => I))
include hsucc

theorem route_reports {workloadId : String} {attribution : AttributionIndexEntry}
    {violations : List PolicyEvaluationResult}
    (hid : request.resolveWorkloadId = .ok workloadId)
    (hl : env.lookup workloadId = .ok (some attribution)) :
    Eff.Spec (fun s => I s.circuit) (route ops g env request attribution violations)
      (fun _ => Reported I J g env request) (fun _ s => I s.circuit) := by
  have hrec := onCircuit_spec hsucc
  have hcount : ∀ f, Eff.Spec (fun s : Interceptor β => J s.circuit) (count f)
      (fun _ s => J s.circuit) (fun _ s => I s.circuit) := fun f =>
    Eff.spec_modify fun _ h => h
  unfold route
  cases hm : g.mode with
  | passive =>
    exact hrec.bind fun _ => (hcount _).bind fun _ => Eff.spec_pure fun _ h => .inl h
  | advisory =>
    refine Eff.spec_lift_bind (fun headers _ => ?_) (fun _ _ _ h => h)
    exact hrec.bind fun _ => (hcount _).bind fun _ => Eff.spec_pure fun _ h => .inl h
  | active =>
    refine Eff.spec_lift_bind (fun down hd => Eff.spec_ite (fun hdown => ?_) fun _ => ?_)
      (fun _ _ _ h => h)
    · rw [hdown] at hd
      refine KeepsCircuit.reported ?_ (silent_of_hit hid hl (.inr (.inr ⟨hm, hd⟩)))
      exact (Eff.frames_lift _).bind fun _ => (Eff.frames_pure _).bind fun _ =>
        (count_keepsCircuit _).bind fun _ => Eff.frames_pure _
    · refine (Eff.Frames.spec activeRouting_keepsCircuit).bind fun result => ?_
      exact hrec.bind fun _ => Eff.spec_pure fun _ h => .inl h

theorem enrich_reports {workloadId : String} {attribution : AttributionIndexEntry}
    (hid : request.resolveWorkloadId = .ok workloadId)
    (hl : env.lookup workloadId = .ok (some attribution)) :
    Eff.Spec (fun s => I s.circuit) (enrich ops g env request workloadId attribution)
      (fun _ => Reported I J g env request) (fun _ s => I s.circuit) := by
  refine Eff.spec_ite (fun ht => ?_) fun _ => ?_
  · refine KeepsCircuit.reported ?_ (silent_of_hit hid hl (.inl ht))
    exact (count_keepsCircuit _).bind fun _ => timedOut_keepsCircuit
  · refine Eff.spec_lift_bind (fun violations _ => Eff.spec_ite (fun ht => ?_) fun _ => ?_)
      (fun _ _ _ h => h)
    · refine KeepsCircuit.reported ?_ (silent_of_hit hid hl (.inr (.inl ht)))
      exact (count_keepsCircuit _).bind fun _ => emitPolicyEvaluationEvent_keepsCircuit.bind
        fun _ => timedOut_keepsCircuit
    · exact (Eff.Frames.spec emitPolicyEvaluationEvent_keepsCircuit).bind fun _ =>
        route_reports hsucc hid hl

/-- **A request let through reports or is silent.**  If it is answered, the circuit is
as `record_success` leaves it, or the exit was a silent one and the circuit is as
before; if it raises, the circuit is as before. -/
theorem admitted_reports :
    Eff.Spec (fun s => I s.circuit) (admitted ops g env request)
      (fun _ => Reported I J g env request) (fun _ s => I s.circuit) := by
  refine Eff.spec_lift_bind (fun workloadId hid => Eff.spec_ite (fun hblank => ?_) fun _ => ?_)
    (fun _ _ _ h => h)
  · rw [hblank] at hid
    exact KeepsCircuit.reported (Eff.frames_pure _) (silent_of_blank hid)
  · refine Eff.spec_lift_bind (fun found hl => ?_) (fun _ _ _ h => h)
    cases found with
    | none => exact KeepsCircuit.reported missed_keepsCircuit (silent_of_miss hid hl)
    | some attribution => exact enrich_reports hsucc hid hl

end Reports

end ComputeIntelligence
