import ComputeIntelligence.ActiveGates
import ComputeIntelligence.EventBus

/-! # The audit events of one call

A call hands over at most one policy event and, after it, at most one intervention event;
whatever else it hands over is a shadow event and comes last.  What the audit events of a
call are is a function of its inputs and of what the circuit answers
(`InterceptCall.auditEvents`), and `intercept_hands` says that `intercept` hands over
exactly those, however the rest of it ends.

Every event the interceptor makes passes its schema.
-/
namespace ComputeIntelligence
variable {β : Type}

/-- The two kinds of audit events. -/
def DomainEvent.isAudit (e : DomainEvent) : Bool :=
  e.eventType = .policyEvaluated || e.eventType = .interventionApplied

/-! ### Attributes and keys -/

/-- The attributes of a policy event. -/
def policyAttributes (g : Gateway) (request : InterceptionRequest) (workloadId : String)
    (violations : List PolicyEvaluationResult) (elapsedMs : ℚ) (failOpen : Bool)
    (environment : String) : PyDict String PyVal :=
  let violatedIds := (violations.filter PolicyEvaluationResult.violated).map
    PolicyEvaluationResult.policyId
  PyDict.ofList
    [("request_id", .str request.requestId), ("workload_id", .str workloadId),
     ("violation_count", .int violatedIds.length),
     ("violated_policy_ids", .list (violatedIds.map .str)), ("mode", .str g.mode.value),
     ("fail_open", .bool failOpen), ("elapsed_ms", .float (.finite elapsedMs)),
     ("environment", .str environment)]

/-- The attributes of an intervention event. -/
def interventionAttributes (request : InterceptionRequest) (workloadId actionType : String)
    (elapsedMs : ℚ) (attribution : AttributionIndexEntry) (newModel : Option String)
    (environment tenantId : String) : PyDict String PyVal :=
  PyDict.ofList
    [("request_id", .str request.requestId), ("workload_id", .str workloadId),
     ("action_type", .str actionType), ("original_model", .str request.model),
     ("new_model", .str (newModel.getD "")),
     ("attribution_confidence", .float (.finite attribution.confidence.1)),
     ("estimated_cost_usd", .float request.estimatedCostUsd),
     ("environment", .str environment), ("elapsed_ms", .float (.finite elapsedMs)),
     ("tenant_id", .str tenantId)]

/-- The attributes of a shadow event. -/
def shadowAttributes (g : Gateway) (workloadId requestId : String) (elapsedMs : ℚ)
    (tenantId : String) : PyDict String PyVal :=
  PyDict.ofList
    [("request_id", .str requestId), ("workload_id", .str workloadId),
     ("elapsed_ms", .float (.finite elapsedMs)), ("interceptor_mode", .str g.mode.value),
     ("tenant_id", .str tenantId)]

/-- The idempotency key of a policy event. -/
def policyKey (g : Gateway) (request : InterceptionRequest) : String :=
  "policy_eval:" ++ request.requestId ++ ":" ++ g.mode.value

/-- The idempotency key of an intervention event. -/
def interventionKey (request : InterceptionRequest) (actionType : String) : String :=
  "intervention:" ++ request.requestId ++ ":" ++ actionType

/-- The dedup key of an event of the interceptor. -/
def interceptorKey (tenantId idempotencyKey : String) : String :=
  tenantId ++ ":" ++ "interceptor" ++ ":" ++ idempotencyKey

variable {g : Gateway} {env : CallEnv} {request : InterceptionRequest}

theorem policy_accepts (workloadId : String) (violations : List PolicyEvaluationResult)
    (elapsedMs : ℚ) (failOpen : Bool) (environment : String) :
    (eventPayloadSchemas .policyEvaluated).Accepts
      (policyAttributes g request workloadId violations elapsedMs failOpen environment) := by
  have hids : (FieldType.listStr.check (.list (((violations.filter
      PolicyEvaluationResult.violated).map PolicyEvaluationResult.policyId).map .str))).isSome := by
    simp [FieldType.check, PyVal.isStr]
  apply StrictSchema.accepts_of_forall₂
  unfold policyAttributes
  rw [PyDict.items_ofList (by simp)]
  exact .cons ⟨rfl, rfl⟩ <| .cons ⟨rfl, rfl⟩ <| .cons ⟨rfl, rfl⟩ <| .cons ⟨rfl, hids⟩ <|
    .cons ⟨rfl, rfl⟩ <| .cons ⟨rfl, rfl⟩ <| .cons ⟨rfl, rfl⟩ <| .cons ⟨rfl, rfl⟩ .nil

theorem intervention_accepts (workloadId actionType : String) (elapsedMs : ℚ)
    (attribution : AttributionIndexEntry) (newModel : Option String)
    (environment tenantId : String) :
    (eventPayloadSchemas .interventionApplied).Accepts
      (interventionAttributes request workloadId actionType elapsedMs attribution newModel
        environment tenantId) := by
  apply StrictSchema.accepts_of_forall₂
  unfold interventionAttributes
  rw [PyDict.items_ofList (by simp)]
  exact .cons ⟨rfl, rfl⟩ <| .cons ⟨rfl, rfl⟩ <| .cons ⟨rfl, rfl⟩ <| .cons ⟨rfl, rfl⟩ <|
    .cons ⟨rfl, rfl⟩ <| .cons ⟨rfl, rfl⟩ <| .cons ⟨rfl, rfl⟩ <| .cons ⟨rfl, rfl⟩ <|
    .cons ⟨rfl, rfl⟩ <| .cons ⟨rfl, rfl⟩ .nil

theorem shadow_accepts (workloadId requestId : String) (elapsedMs : ℚ) (tenantId : String) :
    shadowInterceptPayload.Accepts
      (shadowAttributes g workloadId requestId elapsedMs tenantId) := by
  apply StrictSchema.accepts_of_forall₂
  unfold shadowAttributes
  rw [PyDict.items_ofList (by simp)]
  exact .cons ⟨rfl, rfl⟩ <| .cons ⟨rfl, rfl⟩ <| .cons ⟨rfl, rfl⟩ <| .cons ⟨rfl, rfl⟩ <|
    .cons ⟨rfl, rfl⟩ .nil

section Made
variable {place : Emission} {eventType : EventType} {subjectId idempotencyKey tenantId : String}
  {attributes : PyDict String PyVal} {event : DomainEvent}

/-- An event is made iff its attributes fit. -/
theorem makeEvent_isSome :
    (makeEvent env place eventType subjectId attributes idempotencyKey tenantId).isSome = true ↔
      payloadFits attributes = true := by
  unfold makeEvent
  split
  · rename_i hfits
    exact ⟨fun _ => hfits, fun _ => rfl⟩
  · rename_i hlarge
    refine ⟨fun h => ?_, fun h => absurd h hlarge⟩
    cases h

theorem makeEvent_dedupKey
    (h : makeEvent env place eventType subjectId attributes idempotencyKey tenantId = some event) :
    event.dedupKey = interceptorKey tenantId idempotencyKey := by
  unfold makeEvent at h
  split at h
  · cases h
    rfl
  · cases h

/-- What is made of attributes that pass the schema is accepted. -/
theorem makeEvent_accepted
    (h : makeEvent env place eventType subjectId attributes idempotencyKey tenantId = some event)
    (ha : (eventPayloadSchemas eventType).Accepts attributes) : event.Accepted := by
  unfold makeEvent at h
  split at h
  · cases h
    exact ⟨rfl, ha⟩
  · cases h

end Made

/-! ### What a call decides -/

/-- What `_evaluate_policies` was called with, and what it returned. -/
structure Evaluation where
  workloadId : String
  attribution : AttributionIndexEntry
  violations : List PolicyEvaluationResult

/-- The policy evaluation that a request let through by the circuit runs to completion, if
it gets there. -/
def evaluation (g : Gateway) (env : CallEnv) (request : InterceptionRequest) : Option Evaluation :=
  match request.resolveWorkloadId with
  | .error _ => none
  | .ok workloadId =>
      if workloadId = "" then none
      else match env.lookup workloadId with
        | .ok (some attribution) =>
            if env.lookupTimedOut g.config then none
            else match evaluatePolicies request attribution with
              | .ok violations => some ⟨workloadId, attribution, violations⟩
              | .error _ => none
        | _ => none

/-- What `_active_routing` does to a request: the type of the action, and the new model. -/
structure Intervention where
  actionType : String
  newModel : Option String

/-- A request that is served with violations. -/
def Evaluation.softStopped (ev : Evaluation) : Option Intervention :=
  if hasViolation ev.violations then some ⟨"SOFT_STOP", none⟩ else none

/-- The branches of `_active_routing`; `none` is the request served as it is. -/
def Evaluation.action (g : Gateway) (request : InterceptionRequest) (ev : Evaluation) :
    Option Intervention :=
  if ev.violations.any isHardStop ∧
      g.config.activeLiteGateMinConfidence ≤ ev.attribution.confidence.1 then
    some ⟨"GATE_REJECT", none⟩
  else
    match ev.attribution.approvedAlternatives with
    | altModel :: rest =>
        if request.model ∉ altModel :: rest then some ⟨"MODEL_ROUTE", some altModel⟩
        else ev.softStopped
    | [] => ev.softStopped

/-- What becomes of the request after the evaluation, if `_active_routing` is reached and
its headers can be built. -/
def Evaluation.routing (g : Gateway) (env : CallEnv) (request : InterceptionRequest)
    (ev : Evaluation) : Option Intervention :=
  if env.policyTimedOut g.config then none
  else match g.mode, downgraded g request ev.attribution,
      buildEnrichmentHeaders g.config request ev.attribution ev.violations with
    | .active, .ok false, .ok _ => ev.action g request
    | _, _, _ => none

theorem Evaluation.routing_of_late (ev : Evaluation) (h : env.policyTimedOut g.config = true) :
    ev.routing g env request = none :=
  if_pos h

theorem Evaluation.routing_of_inactive (ev : Evaluation) (h : g.mode ≠ .active) :
    ev.routing g env request = none := by
  unfold Evaluation.routing
  split
  · rfl
  · split
    · rename_i hm _ _
      exact absurd hm h
    · rfl

theorem Evaluation.routing_of_downgraded (ev : Evaluation)
    (h : downgraded g request ev.attribution ≠ .ok false) : ev.routing g env request = none := by
  unfold Evaluation.routing
  split
  · rfl
  · split
    · rename_i hd _
      exact absurd hd h
    · rfl

theorem Evaluation.routing_of_headers (ev : Evaluation)
    (h : (buildEnrichmentHeaders g.config request ev.attribution ev.violations).isOk = false) :
    ev.routing g env request = none := by
  unfold Evaluation.routing
  split
  · rfl
  · split
    · rename_i hh
      rw [hh] at h
      cases h
    · rfl

theorem Evaluation.routing_of_active (ev : Evaluation) (hm : g.mode = .active)
    (hin : env.policyTimedOut g.config = false)
    (hd : downgraded g request ev.attribution = .ok false)
    (hh : (buildEnrichmentHeaders g.config request ev.attribution ev.violations).isOk = true) :
    ev.routing g env request = ev.action g request := by
  unfold Evaluation.routing
  rw [hin, hm, hd]
  cases hb : buildEnrichmentHeaders g.config request ev.attribution ev.violations with
  | ok headers => rfl
  | error e =>
    rw [hb] at hh
    cases hh

/-! ### The events -/

/-- The time on a policy event. -/
def CallEnv.policyElapsedMs (env : CallEnv) (config : InterceptorConfig) : ℚ :=
  env.elapsedMs (if env.policyTimedOut config then .policyTimeout else .policyEvent)

/-- The policy event of an evaluation, if it can be made. -/
def policyEvent (g : Gateway) (env : CallEnv) (request : InterceptionRequest) (ev : Evaluation) :
    Option DomainEvent :=
  match request.resolveTenantId, request.metaStr "environment" with
  | .ok tenantId, .ok environment =>
      makeEvent env .policyEvaluated .policyEvaluated ev.workloadId
        (policyAttributes g request ev.workloadId ev.violations (env.policyElapsedMs g.config)
          (env.policyTimedOut g.config) environment)
        (policyKey g request) tenantId
  | _, _ => none

/-- The event of an intervention, if it can be made. -/
def interventionEvent (env : CallEnv) (request : InterceptionRequest) (ev : Evaluation)
    (action : Intervention) : Option DomainEvent :=
  match request.resolveTenantId, request.metaStr "environment" with
  | .ok tenantId, .ok environment =>
      makeEvent env .intervention .interventionApplied ev.workloadId
        (interventionAttributes request ev.workloadId action.actionType (env.elapsedMs .answer)
          ev.attribution action.newModel environment tenantId)
        (interventionKey request action.actionType) tenantId
  | _, _ => none

/-- The texts of the tenant and of the environment can be made. -/
def Named (request : InterceptionRequest) : Prop :=
  ∃ tenantId environment, request.resolveTenantId = .ok tenantId ∧
    request.metaStr "environment" = .ok environment

theorem policyEvent_unnamed (h : ¬ Named request) (ev : Evaluation) :
    policyEvent g env request ev = none := by
  unfold policyEvent
  split
  · rename_i ht he
    exact absurd ⟨_, _, ht, he⟩ h
  · rfl

theorem interventionEvent_unnamed (h : ¬ Named request) (ev : Evaluation) (action : Intervention) :
    interventionEvent env request ev action = none := by
  unfold interventionEvent
  split
  · rename_i ht he
    exact absurd ⟨_, _, ht, he⟩ h
  · rfl

/-- The events of an action. -/
def actionEvents (env : CallEnv) (request : InterceptionRequest) (ev : Evaluation)
    (action : Option Intervention) : List DomainEvent :=
  (action.bind (interventionEvent env request ev)).toList

/-- The audit events of a request that was let through, in the order of their making. -/
def auditEvents (g : Gateway) (env : CallEnv) (request : InterceptionRequest) : List DomainEvent :=
  match evaluation g env request with
  | none => []
  | some ev => (policyEvent g env request ev).toList ++
      actionEvents env request ev (ev.routing g env request)

theorem auditEvents_of_none (h : evaluation g env request = none) :
    auditEvents g env request = [] := by
  unfold auditEvents
  rw [h]

theorem auditEvents_of_miss {workloadId : String}
    (hid : request.resolveWorkloadId = .ok workloadId) (hworkload : workloadId ≠ "")
    (hmiss : ∀ attribution, env.lookup workloadId ≠ .ok (some attribution)) :
    auditEvents g env request = [] := by
  apply auditEvents_of_none
  unfold evaluation
  rw [hid]
  dsimp only
  rw [if_neg hworkload]
  cases hl : env.lookup workloadId with
  | error e => rfl
  | ok found =>
    cases found with
    | none => rfl
    | some attribution => exact absurd hl (hmiss attribution)

/-! ### What each part of a call hands over -/

section Hands
variable {h : List DomainEvent}

/-- The events are those of `h`, and after them shadow events only. -/
def Trails (h events : List DomainEvent) : Prop :=
  ∃ rest, events = h ++ rest ∧ ∀ e ∈ rest, e.isAudit = false ∧ e.Accepted

theorem trails_refl (h : List DomainEvent) : Trails h h :=
  ⟨[], (List.append_nil h).symm, List.forall_mem_nil _⟩

theorem Trails.append {events more : List DomainEvent} (ht : Trails h events)
    (hmore : ∀ e ∈ more, e.isAudit = false ∧ e.Accepted) : Trails h (events ++ more) := by
  obtain ⟨rest, rfl, hrest⟩ := ht
  refine ⟨rest ++ more, List.append_assoc h rest more, fun e he => ?_⟩
  rcases List.mem_append.mp he with he | he
  · exact hrest e he
  · exact hmore e he

/-- Since `h`, nothing but shadow events was handed over. -/
def Trailed (h : List DomainEvent) (s : Interceptor β) : Prop := Trails h s.handed

/-- However it ends, the computation hands over shadow events only. -/
def Quiet {α : Type} (x : InterceptM β α) : Prop :=
  ∀ h, Eff.Spec (Trailed h) x (fun _ => Trailed h) (fun _ => Trailed h)

theorem Quiet.bind {α γ : Type} {x : InterceptM β α} {f : α → InterceptM β γ} (hx : Quiet x)
    (hf : ∀ a, Quiet (f a)) : Quiet (x >>= f) :=
  fun h => (hx h).bind fun a => hf a h

theorem quiet_pure {α : Type} (a : α) : Quiet (pure a : InterceptM β α) :=
  fun _ => Eff.spec_pure fun _ hs => hs

theorem quiet_lift {α : Type} (x : Except PyExn α) : Quiet (Eff.lift x : InterceptM β α) :=
  fun _ => Eff.spec_lift (fun _ _ _ hs => hs) fun _ _ _ hs => hs

theorem quiet_ite {α : Type} {c : Prop} [Decidable c] {x y : InterceptM β α} (hx : Quiet x)
    (hy : Quiet y) : Quiet (if c then x else y) :=
  fun h => Eff.spec_ite (fun _ => hx h) fun _ => hy h

theorem count_quiet (f : InterceptorTotals → InterceptorTotals) :
    Quiet (count f : InterceptM β Unit) :=
  fun _ => Eff.spec_modify fun _ hs => hs

theorem onCircuit_quiet {α : Type} (op : Eff PyExn β α) : Quiet (onCircuit op) :=
  fun h => Eff.Frames.spec (I := Trails h) (show Eff.Frames Interceptor.handed _ from fun _ => rfl)

/-- A quiet computation that starts with `h`. -/
theorem Quiet.hands {α : Type} {x : InterceptM β α} (hx : Quiet x) (h : List DomainEvent) :
    Eff.Spec (fun s => s.handed = h) x (fun _ => Trailed h) (fun _ => Trailed h) :=
  (hx h).weaken (fun _ hs => hs ▸ trails_refl _) (fun _ _ hs => hs) fun _ _ hs => hs

theorem count_hands (f : InterceptorTotals → InterceptorTotals) {R : PyExn → Interceptor β → Prop} :
    Eff.Spec (fun s => s.handed = h) (count f) (fun _ s => s.handed = h) R :=
  Eff.spec_modify fun _ hs => hs

/-- Publishing hands over the event it makes. -/
theorem publishAsyncEvent_hands (hbus : g.hasEventBus = true) {place : Emission}
    {eventType : EventType} {subjectId idempotencyKey tenantId : String}
    {attributes : PyDict String PyVal} {R : PyExn → Interceptor β → Prop} :
    Eff.Spec (fun s => s.handed = h)
      (publishAsyncEvent g env place eventType subjectId attributes idempotencyKey tenantId)
      (fun _ s => s.handed = h ++ (makeEvent env place eventType subjectId attributes
        idempotencyKey tenantId).toList) R := by
  unfold publishAsyncEvent
  rw [if_pos hbus]
  cases makeEvent env place eventType subjectId attributes idempotencyKey tenantId with
  | none => exact Eff.spec_pure fun s hs => hs.trans (List.append_nil h).symm
  | some event =>
    refine Eff.Spec.bind (Eff.spec_modify fun s hs => ?_) fun _ => Eff.spec_pure fun _ hs => hs
    exact congrArg (· ++ [event]) hs

theorem emitShadowEvent_quiet {place : Emission} {eventType : EventType}
    {workloadId requestId tenantId : String} {elapsedMs : ℚ}
    (hshadow : eventType = .shadowInterceptMiss ∨ eventType = .shadowInterceptTimeout) :
    Quiet (emitShadowEvent g env place eventType workloadId requestId elapsedMs tenantId :
      InterceptM β Bool) := by
  refine quiet_ite ?_ (quiet_pure _)
  intro h s hs
  by_cases hbus : g.hasEventBus = true
  · refine ((publishAsyncEvent_hands hbus).weaken (fun _ ht => ht) (fun _ s' hs' => ?_)
      fun _ _ hs' => hs') s rfl
    unfold Trailed
    rw [hs']
    refine hs.append fun e he => ?_
    have hmade := Option.mem_toList.mp he
    refine ⟨?_, makeEvent_accepted hmade ?_⟩
    · unfold DomainEvent.isAudit
      rw [makeEvent_eventType hmade]
      rcases hshadow with rfl | rfl <;> rfl
    · rcases hshadow with rfl | rfl <;> exact shadow_accepts _ _ _ _
  · unfold publishAsyncEvent
    rw [if_neg hbus]
    exact hs

theorem shadowRefresh_quiet {workloadId : String} :
    Quiet (shadowRefresh g env workloadId : InterceptM β Unit) :=
  quiet_ite (fun _ => Eff.spec_modify fun _ hs => hs) (quiet_pure _)

theorem missed_quiet {workloadId : String} :
    Quiet (missed g env request workloadId : InterceptM β InterceptionResult) :=
  (count_quiet _).bind fun _ => shadowRefresh_quiet.bind fun _ => (quiet_lift _).bind fun _ =>
    (emitShadowEvent_quiet (.inl rfl)).bind fun _ => quiet_pure _

theorem timedOut_quiet {workloadId : String} {attribution : AttributionIndexEntry}
    {elapsedMs : ℚ} {reason : FailOpenReason} :
    Quiet (timedOut g env request workloadId attribution elapsedMs reason :
      InterceptM β InterceptionResult) :=
  (quiet_lift _).bind fun _ => (emitShadowEvent_quiet (.inr rfl)).bind fun _ =>
    (quiet_lift _).bind fun _ => quiet_pure _

theorem advise_quiet {attribution : AttributionIndexEntry}
    {violations : List PolicyEvaluationResult} {report : InterceptM β Unit}
    (hreport : Quiet report) : Quiet (advise g env request attribution violations report) :=
  (quiet_lift _).bind fun _ => hreport.bind fun _ => (count_quiet _).bind fun _ => quiet_pure _

theorem metrics_quiet (ops : CircuitOps β) (pass : MetricsPass) :
    Quiet (recordObservabilityMetrics ops pass) :=
  (onCircuit_quiet _).bind fun _ => (quiet_lift _).bind fun _ => quiet_pure _

theorem failOpenResult_quiet (ops : CircuitOps β) : Quiet (failOpenResult ops g env request) := by
  refine (count_quiet _).bind fun _ => (onCircuit_quiet _).bind fun _ => (quiet_lift _).bind
    fun workloadId => Quiet.bind ?_ fun _ => (metrics_quiet ops _).bind fun _ => quiet_pure _
  refine quiet_ite (quiet_pure _) ?_
  exact (quiet_lift _).bind fun _ => emitShadowEvent_quiet (.inr rfl)

/-! ### The audit events -/

/-- A policy event is handed over, unless a text in it cannot be made. -/
theorem emitPolicyEvaluationEvent_hands (hbus : g.hasEventBus = true) (ev : Evaluation) :
    Eff.Spec (fun s : Interceptor β => s.handed = h)
      (emitPolicyEvaluationEvent g env request ev.workloadId ev.violations
        (env.policyElapsedMs g.config) (env.policyTimedOut g.config))
      (fun _ s => Named request ∧ s.handed = h ++ (policyEvent g env request ev).toList)
      (fun _ s => ¬ Named request ∧ s.handed = h) := by
  refine Eff.spec_lift_bind (fun tenantId ht => ?_) fun e ht s hs => ⟨?_, hs⟩
  · refine Eff.spec_lift_bind (fun environment he => ?_) fun e he s hs => ⟨?_, hs⟩
    · refine (publishAsyncEvent_hands hbus).weaken (fun _ hs => hs) (fun _ s hs => ?_)
        fun _ _ hs => hs
      refine ⟨⟨tenantId, environment, ht, he⟩, ?_⟩
      unfold policyEvent
      rw [ht, he]
      exact hs
    · rintro ⟨_, _, -, hok⟩
      rw [he] at hok
      cases hok
  · rintro ⟨_, _, hok, -⟩
    rw [ht] at hok
    cases hok

/-- Where the policy event had its texts, an intervention event has them too. -/
theorem emitInterventionEvent_hands (hbus : g.hasEventBus = true) (hnamed : Named request)
    {ev : Evaluation} (hid : request.resolveWorkloadId = .ok ev.workloadId)
    (hworkload : ev.workloadId ≠ "") (action : Intervention) {R : PyExn → Interceptor β → Prop} :
    Eff.Spec (fun s => s.handed = h)
      (emitInterventionEvent g env request action.actionType (env.elapsedMs .answer)
        ev.attribution action.newModel)
      (fun _ s => s.handed = h ++ (interventionEvent env request ev action).toList) R := by
  obtain ⟨tenantId, environment, ht, he⟩ := hnamed
  unfold emitInterventionEvent interventionEvent
  rw [hid, ht, he, Eff.lift_ok_bind, if_neg hworkload, Eff.lift_ok_bind, Eff.lift_ok_bind]
  exact publishAsyncEvent_hands hbus

/-- The outcomes by which `_active_routing` says that it has acted. -/
def InterceptionOutcome.intervenes : InterceptionOutcome → Bool
  | .redirected | .hardStopped | .softStopped => true
  | _ => false

/-- The event of the action was handed over, and the result says whether there was one. -/
def Acted (h : List DomainEvent) (env : CallEnv) (request : InterceptionRequest) (ev : Evaluation)
    (action : Option Intervention) (r : InterceptionResult) (s : Interceptor β) : Prop :=
  s.handed = h ++ actionEvents env request ev action ∧ r.outcome.intervenes = action.isSome

section Routing
variable (hbus : g.hasEventBus = true) (hnamed : Named request) {ev : Evaluation}
  (hid : request.resolveWorkloadId = .ok ev.workloadId) (hworkload : ev.workloadId ≠ "")
  {headers : PyDict String String} {R : PyExn → Interceptor β → Prop}
include hbus hnamed hid hworkload

theorem serveActive_hands :
    Eff.Spec (fun s => s.handed = h) (serveActive g env request ev.attribution ev.violations headers)
      (Acted h env request ev ev.softStopped) R := by
  unfold Evaluation.softStopped
  refine (count_hands _).bind fun _ => Eff.spec_ite (fun hv => ?_) fun hv => ?_
  · rw [if_pos hv]
    refine (emitInterventionEvent_hands hbus hnamed hid hworkload ⟨"SOFT_STOP", none⟩).bind
      fun _ => Eff.spec_pure fun s hs => ⟨hs, ?_⟩
    simp [advisoryOutcome, hv, InterceptionOutcome.intervenes]
  · rw [if_neg hv]
    refine Eff.spec_pure fun s hs => ⟨hs.trans (List.append_nil h).symm, ?_⟩
    simp [advisoryOutcome, hv, InterceptionOutcome.intervenes]

/-- **`_active_routing` hands over the event of its action**, and its result says whether
it acted; what raises is the building of the headers. -/
theorem activeRouting_hands :
    Eff.Spec (fun s : Interceptor β => s.handed = h)
      (activeRouting g env request ev.attribution ev.violations)
      (fun r s => (buildEnrichmentHeaders g.config request ev.attribution ev.violations).isOk ∧
        Acted h env request ev (ev.action g request) r s)
      (fun _ s => (buildEnrichmentHeaders g.config request ev.attribution ev.violations).isOk = false
        ∧ s.handed = h) := by
  refine Eff.spec_lift_bind (fun headers hh => ?_) fun e hh s hs => ⟨by rw [hh]; rfl, hs⟩
  suffices hacted : Eff.Spec (fun s : Interceptor β => s.handed = h) _
      (Acted h env request ev (ev.action g request)) fun _ _ => False by
    refine hacted.weaken (fun _ hs => hs) (fun _ s hs => ⟨by rw [hh]; rfl, hs⟩) nofun
  have hserved : Eff.Spec (fun s : Interceptor β => s.handed = h)
      (serveActive g env request ev.attribution ev.violations headers)
      (Acted h env request ev ev.softStopped) fun _ _ => False :=
    serveActive_hands hbus hnamed hid hworkload
  unfold Evaluation.action
  refine Eff.spec_ite (fun hstop => ?_) fun hstop => ?_
  · rw [if_pos hstop]
    refine (emitInterventionEvent_hands hbus hnamed hid hworkload ⟨"GATE_REJECT", none⟩).bind
      fun _ => Eff.spec_pure fun s hs => ⟨hs, rfl⟩
  · rw [if_neg hstop]
    cases ev.attribution.approvedAlternatives with
    | nil => exact hserved
    | cons altModel rest =>
      dsimp only
      refine Eff.spec_ite (fun hmodel => ?_) fun hmodel => ?_
      · rw [if_pos hmodel]
        refine (count_hands _).bind fun _ => ?_
        refine (emitInterventionEvent_hands hbus hnamed hid hworkload
          ⟨"MODEL_ROUTE", some altModel⟩).bind fun _ => Eff.spec_pure fun s hs => ⟨hs, rfl⟩
      · rw [if_neg hmodel]
        exact hserved

/-- The mode-dependent step hands over the event of the action, if there is one. -/
theorem route_hands (ops : CircuitOps β) (hin : env.policyTimedOut g.config = false) :
    Eff.Spec (fun s => s.handed = h) (route ops g env request ev.attribution ev.violations)
      (fun _ => Trailed (h ++ actionEvents env request ev (ev.routing g env request)))
      (fun _ => Trailed (h ++ actionEvents env request ev (ev.routing g env request))) := by
  have hnone : ∀ {x : InterceptM β InterceptionResult}, Quiet x →
      ev.routing g env request = none → Eff.Spec (fun s => s.handed = h) x
        (fun _ => Trailed (h ++ actionEvents env request ev (ev.routing g env request)))
        (fun _ => Trailed (h ++ actionEvents env request ev (ev.routing g env request))) := by
    intro x hx hr
    rw [hr, show h ++ actionEvents env request ev none = h from List.append_nil h]
    exact hx.hands h
  have hkept : ∀ s : Interceptor β, s.handed = h → ev.routing g env request = none →
      Trailed (h ++ actionEvents env request ev (ev.routing g env request)) s := by
    intro s hs hr
    rw [hr, show h ++ actionEvents env request ev none = h from List.append_nil h]
    exact hs ▸ trails_refl _
  unfold route
  cases hm : g.mode with
  | passive =>
    refine hnone ?_ (ev.routing_of_inactive (by rw [hm]; decide))
    exact (onCircuit_quiet _).bind fun _ => (count_quiet _).bind fun _ => quiet_pure _
  | advisory =>
    exact hnone (advise_quiet (onCircuit_quiet _)) (ev.routing_of_inactive (by rw [hm]; decide))
  | active =>
    refine Eff.spec_lift_bind (fun down hd => ?_) fun e hd s hs => ?_
    · cases down with
      | true =>
        exact hnone (advise_quiet (quiet_pure _)) (ev.routing_of_downgraded (by rw [hd]; decide))
      | false =>
        refine Eff.Spec.bind ?_ fun result => (onCircuit_quiet _ _).bind fun _ => quiet_pure _ _
        refine (activeRouting_hands hbus hnamed hid hworkload).weaken (fun _ hs => hs)
          (fun r s hs => ?_) fun e s hs => hkept s hs.2 (ev.routing_of_headers hs.1)
        obtain ⟨hh, hs, -⟩ := hs
        rw [ev.routing_of_active hm hin hd hh]
        unfold Trailed
        rw [hs]
        exact trails_refl _
    · refine hkept s hs (ev.routing_of_downgraded fun hok => ?_)
      rw [hd] at hok
      cases hok

end Routing

/-- The computation leaves the events `h`, those of `audits`, and shadow events. -/
def HandsOver (h audits : List DomainEvent) (x : InterceptM β InterceptionResult) : Prop :=
  Eff.Spec (fun s => s.handed = h) x (fun _ => Trailed (h ++ audits))
    (fun _ => Trailed (h ++ audits))

theorem trailed_of_nil {s : Interceptor β} {audits : List DomainEvent} (hs : s.handed = h)
    (hnil : audits = []) : Trailed (h ++ audits) s := by
  rw [hnil, List.append_nil]
  exact hs ▸ trails_refl _

theorem Quiet.handsOver {x : InterceptM β InterceptionResult} (hx : Quiet x) {audits : List DomainEvent}
    (hnil : audits = []) : HandsOver h audits x := by
  unfold HandsOver
  rw [hnil, List.append_nil]
  exact hx.hands h

/-- The policy event comes first; what follows it runs only if its texts can be made. -/
theorem emitPolicyEvaluationEvent_handsOver (hbus : g.hasEventBus = true) {ev : Evaluation}
    {x : InterceptM β InterceptionResult}
    (hx : Named request → HandsOver (h ++ (policyEvent g env request ev).toList)
      (actionEvents env request ev (ev.routing g env request)) x) :
    HandsOver h ((policyEvent g env request ev).toList ++
        actionEvents env request ev (ev.routing g env request))
      (emitPolicyEvaluationEvent g env request ev.workloadId ev.violations
        (env.policyElapsedMs g.config) (env.policyTimedOut g.config) >>= fun _ => x) := by
  unfold HandsOver
  rw [← List.append_assoc]
  refine Eff.Spec.bind ((emitPolicyEvaluationEvent_hands hbus ev).weaken (fun _ hs => hs)
    (fun _ _ hs => hs) fun _ s hs => ?_) fun _ => ?_
  · obtain ⟨hunnamed, hs⟩ := hs
    have hnone : actionEvents env request ev (ev.routing g env request) = [] := by
      unfold actionEvents
      cases ev.routing g env request with
      | none => rfl
      | some action => rw [Option.bind_some, interventionEvent_unnamed hunnamed]; rfl
    refine trailed_of_nil ?_ hnone
    rw [policyEvent_unnamed hunnamed, hs]
    exact (List.append_nil h).symm
  · intro s hs
    exact hx hs.1 s hs.2

theorem enrich_handsOver (hbus : g.hasEventBus = true) (ops : CircuitOps β) {workloadId : String}
    {attribution : AttributionIndexEntry} (hid : request.resolveWorkloadId = .ok workloadId)
    (hworkload : workloadId ≠ "") (hl : env.lookup workloadId = .ok (some attribution)) :
    HandsOver h (auditEvents g env request) (enrich ops g env request workloadId attribution) := by
  have heval : evaluation g env request = if env.lookupTimedOut g.config then none
      else match evaluatePolicies request attribution with
        | .ok violations => some ⟨workloadId, attribution, violations⟩
        | .error _ => none := by
    unfold evaluation
    rw [hid]
    simp only [if_neg hworkload, hl]
  refine Eff.spec_ite (fun hlate => ?_) fun hlate => ?_
  · rw [if_pos hlate] at heval
    exact ((count_quiet _).bind fun _ => timedOut_quiet).handsOver (auditEvents_of_none heval)
  · rw [if_neg hlate] at heval
    refine Eff.spec_lift_bind (fun violations hv => ?_) fun e hv s hs => ?_
    · rw [hv] at heval
      have haudits : auditEvents g env request =
          (policyEvent g env request ⟨workloadId, attribution, violations⟩).toList ++
            actionEvents env request ⟨workloadId, attribution, violations⟩
              (Evaluation.routing g env request ⟨workloadId, attribution, violations⟩) := by
        unfold auditEvents
        rw [heval]
      have hfirst := @emitPolicyEvaluationEvent_handsOver β g env request h hbus
        ⟨workloadId, attribution, violations⟩
      rw [haudits]
      refine Eff.spec_ite (fun hpolicy => ?_) fun hpolicy => ?_
      · unfold CallEnv.policyElapsedMs at hfirst
        rw [if_pos hpolicy, hpolicy] at hfirst
        refine (count_hands _).bind fun _ => hfirst fun _ => timedOut_quiet.handsOver ?_
        rw [Evaluation.routing_of_late _ hpolicy]
        rfl
      · unfold CallEnv.policyElapsedMs at hfirst
        rw [if_neg hpolicy, eq_false_of_ne_true hpolicy] at hfirst
        exact hfirst fun hnamed => route_hands hbus hnamed hid hworkload ops
          (eq_false_of_ne_true hpolicy)
    · rw [hv] at heval
      exact trailed_of_nil hs (auditEvents_of_none heval)

/-- A request that the circuit lets through leaves its audit events. -/
theorem admitted_handsOver (hbus : g.hasEventBus = true) (ops : CircuitOps β) :
    HandsOver h (auditEvents g env request) (admitted ops g env request) := by
  refine Eff.spec_lift_bind (fun workloadId hid => ?_) fun e hid s hs => ?_
  · refine Eff.spec_ite (fun hblank => ?_) fun hworkload => ?_
    · refine (quiet_pure _).handsOver (auditEvents_of_none ?_)
      unfold evaluation
      rw [hid]
      exact if_pos hblank
    · refine Eff.spec_lift_bind (fun found hl => ?_) fun e hl s hs => ?_
      · cases found with
        | none =>
          refine missed_quiet.handsOver (auditEvents_of_miss hid hworkload fun attribution ha => ?_)
          rw [hl] at ha
          cases ha
        | some attribution => exact enrich_handsOver hbus ops hid hworkload hl
      · refine trailed_of_nil hs (auditEvents_of_miss hid hworkload fun attribution ha => ?_)
        rw [hl] at ha
        cases ha
  · refine trailed_of_nil hs (auditEvents_of_none ?_)
    unfold evaluation
    rw [hid]

/-- The audit events of a call: none if the circuit refuses it. -/
def callEvents (ops : CircuitOps β) (g : Gateway) (env : CallEnv) (request : InterceptionRequest)
    (circuit : β) : List DomainEvent :=
  match (ops.isOpen circuit).1 with
  | .ok false => auditEvents g env
      { request with headers := sanitizeRequestHeaders request.headers }
  | _ => []

theorem interceptInner_handsOver (hbus : g.hasEventBus = true) (ops : CircuitOps β) {circuit : β} :
    Eff.Spec (fun s => s.handed = h ∧ s.circuit = circuit) (interceptInner ops g env request)
      (fun _ => Trailed (h ++ callEvents ops g env request circuit))
      (fun _ => Trailed (h ++ callEvents ops g env request circuit)) := by
  have hgate : Eff.Spec (fun s : Interceptor β => s.handed = h ∧ s.circuit = circuit)
      (onCircuit ops.isOpen) (fun refused s => (ops.isOpen circuit).1 = .ok refused ∧ s.handed = h)
      (fun _ => Trailed (h ++ callEvents ops g env request circuit)) := by
    rintro s ⟨hs, rfl⟩
    have hrun : onCircuit ops.isOpen s =
        ((ops.isOpen s.circuit).1, { s with circuit := (ops.isOpen s.circuit).2 }) := rfl
    rw [hrun]
    cases hopen : (ops.isOpen s.circuit).1 with
    | ok refused => exact ⟨rfl, hs⟩
    | error e =>
      refine trailed_of_nil hs ?_
      unfold callEvents
      rw [hopen]
  refine hgate.bind fun refused s hs => ?_
  obtain ⟨hopen, hs⟩ := hs
  unfold callEvents
  rw [hopen]
  cases refused with
  | true =>
    exact ((count_quiet _).bind fun _ => quiet_pure _).handsOver rfl s hs
  | false => exact admitted_handsOver hbus ops s hs

/-- **A call hands over its audit events**, in order, and after them shadow events only. -/
theorem intercept_hands (hbus : g.hasEventBus = true) (ops : CircuitOps β) (env : CallEnv)
    (request : InterceptionRequest) (s : Interceptor β) :
    Trailed (s.handed ++ callEvents ops g env request s.circuit)
      (intercept ops g env request s).2 := by
  have hspec : Eff.Spec (fun t : Interceptor β => t.handed = s.handed ∧ t.circuit = s.circuit)
      (intercept ops g env request)
      (fun _ => Trailed (s.handed ++ callEvents ops g env request s.circuit))
      (fun _ => Trailed (s.handed ++ callEvents ops g env request s.circuit)) := by
    refine Eff.Spec.bind (Q := fun _ t => t.handed = s.handed ∧ t.circuit = s.circuit)
      (Eff.spec_modify fun _ ht => ht) fun _ => ?_
    refine Eff.Spec.catching ?_ fun _ => failOpenResult_quiet ops _
    refine (interceptInner_handsOver hbus ops).bind fun result => ?_
    exact (metrics_quiet ops _ _).bind fun _ => quiet_pure _ _
  have hends := hspec s ⟨rfl, rfl⟩
  generalize intercept ops g env request s = answer at hends ⊢
  obtain ⟨_ | _, _⟩ := answer
  · exact hends
  · exact hends

end Hands

end ComputeIntelligence
