import ComputeIntelligence.AuditTrail
import ComputeIntelligence.ExceptRules
import ComputeIntelligence.HalfOpen

/-! # Active mode acts only behind its gates

`_intercept_inner` has about ten exits.  One of them may redirect a request to another
model, one may stop it; everything else serves it as it is.  This module says what must
have held for a request to be redirected or stopped (`Behind`), that a redirected request
is not redirected twice, that the HTTP layer turns every stopped request into an error,
and that a fail-open answer never comes with an intervention event.

The last point depends on what runs after an intervention has been emitted:
`record_success` and the metrics.  The circuit is therefore a breaker over a store that
hands out any state at any call and raises nothing but `RedisError` (`storeOps`).
-/
namespace ComputeIntelligence

/-! ### A store that raises at most `RedisError` -/

/-- What one call of the circuit meets: the state the store hands to the mutator, the
clock, and whether the store raises `RedisError`. -/
structure StoreCall where
  found : CircuitBreakerState
  now : ℚ
  stamp : ℚ
  redisError : Bool

/-- `_safe_mutate`: a `RedisError` is caught, and the mutator runs on the fallback copy. -/
def StoreCall.safeMutate {α : Type} (e : StoreCall)
    (mutator : CircuitBreakerState → α × CircuitBreakerState) :
    Eff PyExn CircuitBreakerState α := fun fallback =>
  let r := mutator (if e.redisError then fallback else e.found)
  (.ok r.1, r.2)

/-- What the circuit calls of one `intercept` meet. -/
structure StoreCalls where
  gate : StoreCall
  report : StoreCall
  failure : StoreCall
  metrics : MetricsPass → StoreCall

/-- The circuit breaker over such a store; its state is the fallback copy. -/
def storeOps (cfg : BreakerConfig) (e : StoreCalls) : CircuitOps CircuitBreakerState where
  isOpen := e.gate.safeMutate (CircuitBreakerState.isOpen cfg e.gate.now)
  recordSuccess := e.report.safeMutate fun s => ((), s.recordSuccess cfg e.report.now)
  recordFailure := e.failure.safeMutate fun s =>
    ((), s.recordFailure cfg e.failure.now e.failure.stamp)
  state := fun pass => (e.metrics pass).safeMutate fun s =>
    (.str (s.transition cfg (e.metrics pass).now).state.value,
      s.transition cfg (e.metrics pass).now)

theorem StoreCall.safeMutate_returns {α : Type} (e : StoreCall)
    (mutator : CircuitBreakerState → α × CircuitBreakerState) :
    Eff.Returns (onCircuit (e.safeMutate mutator)) := fun _ => ⟨_, _, rfl⟩

/-! ### The HTTP layer -/

/-- A `JSONResponse`. -/
structure JSONResponse where
  statusCode : Nat
  content : PyVal

/-- The policies that `_gate_error_from_result` knows. -/
def gateErrorIds : List String :=
  ["token_budget_input", "model_allowlist", "budget_ceiling", "cost_ceiling"]

/-- `_gate_error_from_result` (`api/app.py`). -/
def gateErrorFromResult (result : InterceptionResult) : Option JSONResponse :=
  let hardViolations := result.policyResults.filter fun v =>
    v.violated && gateErrorIds.contains v.policyId
  let approved := match result.attribution with
    | some entry => PyVal.list (entry.approvedAlternatives.map .str)
    | none => .list []
  let error (kind : String) (primary : PolicyEvaluationResult) (more : List (String × PyVal)) :=
    PyVal.dict [("error", .dict ([("type", .str kind), ("message", .str primary.details),
      ("request_id", .str result.requestId), ("policy_id", .str primary.policyId)] ++ more))]
  match hardViolations with
  | [] => none
  | primary :: _ =>
      if primary.policyId = "token_budget_input" then
        some ⟨413, error "token_size_exceeded" primary [("retry", .bool false)]⟩
      else if primary.policyId = "model_allowlist" then
        some ⟨403, error "model_not_allowed" primary [("approved_alternatives", approved)]⟩
      else if primary.policyId = "budget_ceiling" then
        some ⟨429, error "budget_exceeded" primary [("retry_after_seconds", .int 3600)]⟩
      else if primary.policyId = "cost_ceiling" then
        some ⟨403, error "cost_approval_required" primary [("approved_alternatives", approved)]⟩
      else none

/-- A violation of one of its policies is answered with an error. -/
theorem gateError_isSome {result : InterceptionResult} {v : PolicyEvaluationResult}
    (hv : v ∈ result.policyResults) (hviolated : v.violated = true)
    (hid : v.policyId ∈ gateErrorIds) : (gateErrorFromResult result).isSome = true := by
  unfold gateErrorFromResult
  dsimp only
  have hmem : v ∈ result.policyResults.filter fun v =>
      v.violated && gateErrorIds.contains v.policyId := by
    simp [List.mem_filter, hv, hviolated, hid]
  cases hh : result.policyResults.filter fun v =>
      v.violated && gateErrorIds.contains v.policyId with
  | nil =>
    rw [hh] at hmem
    cases hmem
  | cons primary rest =>
    have hprimary : primary ∈ result.policyResults.filter fun v =>
        v.violated && gateErrorIds.contains v.policyId := by
      rw [hh]
      exact List.mem_cons_self
    have hknown : primary.policyId ∈ gateErrorIds := by
      simp only [List.mem_filter, Bool.and_eq_true, List.contains_iff_mem] at hprimary
      exact hprimary.2.2
    simp only [gateErrorIds, List.mem_cons, List.not_mem_nil, or_false] at hknown
    rcases hknown with h | h | h | h <;> simp [h]

/-! ### The gates -/

/-- What must have held for a request to be modified on the strength of `entry`. -/
structure Behind (g : Gateway) (env : CallEnv) (request : InterceptionRequest)
    (r : InterceptionResult) (entry : AttributionIndexEntry) : Prop where
  active : g.mode = .active
  found : ∃ w, request.resolveWorkloadId = .ok w ∧ env.lookup w = .ok (some entry)
  attribution : r.attribution = some entry
  environment : ∃ text, request.metaStr "environment" = .ok text ∧
    PyText.lower (PyText.strip text) ∈ ["dev", "development", "test", "testing", "staging"]
  notJsonObject : ∃ text, request.metaStr "response_format_type" = .ok text ∧
    PyText.lower (PyText.strip text) ≠ "json_object"
  noTools : request.metaFlag "tools_present" = .ok false
  noStrictSchema : request.metaFlag "strict_json_schema" = .ok false
  confident : g.config.activeLiteMinConfidence ≤ entry.confidence.1
  lookupInTime : env.lookupTimedOut g.config = false
  policiesInTime : env.policyTimedOut g.config = false

/-- What an answer says about the gates. -/
structure Gated (g : Gateway) (env : CallEnv) (request : InterceptionRequest)
    (r : InterceptionResult) : Prop where
  redirect_iff : r.redirectModel.isSome = true ↔ r.outcome = .redirected
  redirected : r.outcome = .redirected → ∃ entry, Behind g env request r entry ∧
    request.model ∉ entry.approvedAlternatives ∧
    r.redirectModel = entry.approvedAlternatives.head?
  hardStopped : r.outcome = .hardStopped → ∃ entry, Behind g env request r entry ∧
    g.config.activeLiteGateMinConfidence ≤ entry.confidence.1 ∧
    ∃ v ∈ r.policyResults, v.violated = true ∧ v.policyId ∈ hardStopIds

variable {g : Gateway} {env : CallEnv} {request : InterceptionRequest} {r : InterceptionResult}
  {entry : AttributionIndexEntry} {violations : List PolicyEvaluationResult}

/-- An answer that neither redirects nor stops. -/
theorem gated_of_served (hnone : r.redirectModel = none) (hredirect : r.outcome ≠ .redirected)
    (hstop : r.outcome ≠ .hardStopped) : Gated g env request r where
  redirect_iff := by
    rw [hnone]
    exact ⟨nofun, fun h => absurd h hredirect⟩
  redirected h := absurd h hredirect
  hardStopped h := absurd h hstop

theorem advisoryOutcome_cases (violations : List PolicyEvaluationResult) :
    advisoryOutcome violations = .softStopped ∨ advisoryOutcome violations = .enriched := by
  unfold advisoryOutcome
  split
  · exact .inl rfl
  · exact .inr rfl

theorem advisoryOutcome_served (violations : List PolicyEvaluationResult) :
    advisoryOutcome violations ≠ .redirected ∧ advisoryOutcome violations ≠ .hardStopped := by
  rcases advisoryOutcome_cases violations with ho | ho
  · rw [ho]
    decide
  · rw [ho]
    decide

/-- A request is not downgraded only if it says it is not for production, and asks for
none of the formats a different model might break. -/
theorem not_shouldDowngrade (h : request.shouldDowngrade = .ok false) :
    (∃ text, request.metaStr "environment" = .ok text ∧
      PyText.lower (PyText.strip text) ∈ ["dev", "development", "test", "testing", "staging"]) ∧
    (∃ text, request.metaStr "response_format_type" = .ok text ∧
      PyText.lower (PyText.strip text) ≠ "json_object") ∧
    request.metaFlag "tools_present" = .ok false ∧
    request.metaFlag "strict_json_schema" = .ok false := by
  unfold InterceptionRequest.shouldDowngrade at h
  obtain ⟨environment, henv, h⟩ := Except.bind_eq_ok h
  obtain ⟨format, hformat, h⟩ := Except.bind_eq_ok h
  dsimp only at h
  split at h
  · have hresult := Except.ok.inj h
    split at hresult <;> cases hresult
  · rename_i hjson
    obtain ⟨tools, htools, h⟩ := Except.bind_eq_ok h
    cases tools with
    | true =>
      have hresult := Except.ok.inj h
      split at hresult <;> cases hresult
    | false =>
      obtain ⟨strict, hstrict, h⟩ := Except.bind_eq_ok h
      have hresult := Except.ok.inj h
      split at hresult
      · rename_i hnonprod
        subst hresult
        refine ⟨⟨environment, henv, ?_⟩, ⟨format, hformat, hjson⟩, htools, hstrict⟩
        exact List.contains_iff_mem.mp hnonprod
      · cases hresult

theorem softStop_violated (policyId policyName details : String) :
    (softStop policyId policyName details).violated = true ∧
      (softStop policyId policyName details).action = .softStop := ⟨rfl, rfl⟩

/-- Every reported violation is a violation, and none is a hard stop by itself. -/
theorem evaluatePolicies_violated (h : evaluatePolicies request entry = .ok violations) :
    ∀ v ∈ violations, v.violated = true ∧ v.action = .softStop := by
  unfold evaluatePolicies at h
  obtain ⟨token, htoken, h⟩ := Except.bind_eq_ok h
  obtain ⟨input, hinput, h⟩ := Except.bind_eq_ok h
  cases h
  have hallow : ∀ v ∈ modelAllowlistViolation request entry,
      v.violated = true ∧ v.action = .softStop := by
    intro v hv
    unfold modelAllowlistViolation at hv
    split at hv
    · cases hv
      exact softStop_violated _ _ _
    · cases hv
  have hbudget : ∀ v ∈ budgetCeilingViolation entry, v.violated = true ∧ v.action = .softStop := by
    intro v hv
    unfold budgetCeilingViolation at hv
    dsimp only at hv
    split at hv
    · split at hv
      · cases hv
        exact softStop_violated _ _ _
      · cases hv
    · cases hv
  have htoken : ∀ v ∈ token, v.violated = true ∧ v.action = .softStop := by
    intro v hv
    unfold tokenBudgetViolation at htoken
    split at htoken
    · split at htoken
      · cases htoken
        cases hv
      · obtain ⟨exceeds, -, htoken⟩ := Except.bind_eq_ok htoken
        split at htoken
        · obtain ⟨_, -, htoken⟩ := Except.bind_eq_ok htoken
          cases htoken
          cases hv
          exact softStop_violated _ _ _
        · cases htoken
          cases hv
    · cases htoken
      cases hv
  have hinput : ∀ v ∈ input, v.violated = true ∧ v.action = .softStop := by
    intro v hv
    unfold inputTokenViolation at hinput
    split at hinput
    · split at hinput
      · obtain ⟨_, -, hinput⟩ := Except.bind_eq_ok hinput
        obtain ⟨_, -, hinput⟩ := Except.bind_eq_ok hinput
        cases hinput
        cases hv
        exact softStop_violated _ _ _
      · cases hinput
        cases hv
    · cases hinput
      cases hv
  have hcost : ∀ v ∈ costCeilingViolation request entry,
      v.violated = true ∧ v.action = .softStop := by
    intro v hv
    unfold costCeilingViolation at hv
    split at hv
    · split at hv
      · cases hv
        exact softStop_violated _ _ _
      · cases hv
    · cases hv
  intro v hv
  simp only [List.mem_append, Option.mem_toList] at hv
  rcases hv with (((hv | hv) | hv) | hv) | hv
  · exact hallow v hv
  · exact hbudget v hv
  · exact htoken v hv
  · exact hinput v hv
  · exact hcost v hv

/-! ### Every exit -/

section Exits
variable {β : Type} {ops : CircuitOps β} {n : List DomainEvent}

/-- No intervention has been emitted since there were `n`. -/
def Unmoved (n : List DomainEvent) (s : Interceptor β) : Prop := s.handedOf .interventionApplied = n

/-- The answer is gated, and comes without an intervention event if it fails open. -/
def Answered (n : List DomainEvent) (g : Gateway) (env : CallEnv) (request : InterceptionRequest)
    (r : InterceptionResult) (s : Interceptor β) : Prop :=
  Gated g env request r ∧
    (r.outcome = .failOpen ∨ r.outcome = .circuitOpen ∨ r.outcome = .timeout → Unmoved n s)

/-- What emits no intervention keeps their list, however it ends. -/
theorem Omits.unmoved {α : Type} {x : InterceptM β α} (h : Omits .interventionApplied x) :
    Eff.Spec (Unmoved n) x (fun _ => Unmoved n) (fun _ => Unmoved n) :=
  Eff.Frames.spec (I := fun events => events = n) h

/-- An intervention event is handed over last: what raises, raises before. -/
theorem emitInterventionEvent_spec {actionType : String} {elapsedMs : ℚ}
    {newModel : Option String} :
    Eff.Spec (Unmoved n)
      (emitInterventionEvent g env request actionType elapsedMs entry newModel : InterceptM β Bool)
      (fun _ _ => True) (fun _ => Unmoved n) := by
  refine Eff.spec_lift_bind (fun w _ => Eff.spec_ite (fun _ => ?_) fun _ => ?_) fun _ _ _ h => h
  · exact Eff.spec_pure fun _ _ => trivial
  · refine Eff.spec_lift_bind (fun tenant _ => ?_) fun _ _ _ h => h
    refine Eff.spec_lift_bind (fun environment _ => ?_) fun _ _ _ h => h
    exact (publishAsyncEvent_returns.spec_const (p := True)).weaken (fun _ _ => trivial)
      (fun _ _ h => h) fun _ _ h => h

/-- What `_active_routing` answers. -/
def Routed (g : Gateway) (request : InterceptionRequest) (entry : AttributionIndexEntry)
    (violations : List PolicyEvaluationResult) (r : InterceptionResult) : Prop :=
  (r.outcome = .hardStopped ∧ r.redirectModel = none ∧ r.attribution = some entry ∧
    r.policyResults = violations ∧ violations.any isHardStop = true ∧
    g.config.activeLiteGateMinConfidence ≤ entry.confidence.1) ∨
  (r.outcome = .redirected ∧ r.attribution = some entry ∧ r.redirectModel.isSome = true ∧
    r.redirectModel = entry.approvedAlternatives.head? ∧
    request.model ∉ entry.approvedAlternatives) ∨
  (r.redirectModel = none ∧ (r.outcome = .softStopped ∨ r.outcome = .enriched))

theorem serveActive_spec {headers : PyDict String String} :
    Eff.Spec (Unmoved n) (serveActive g env request entry violations headers :
      InterceptM β InterceptionResult)
      (fun r _ => Routed g request entry violations r) (fun _ => Unmoved n) := by
  refine (Omits.unmoved (count_omits _)).bind fun _ => Eff.spec_ite (fun _ => ?_) fun _ => ?_
  · refine emitInterventionEvent_spec.bind fun _ => Eff.spec_pure fun _ _ => ?_
    exact .inr (.inr ⟨rfl, advisoryOutcome_cases violations⟩)
  · refine Eff.spec_pure fun _ _ => ?_
    exact .inr (.inr ⟨rfl, advisoryOutcome_cases violations⟩)

theorem activeRouting_spec :
    Eff.Spec (Unmoved n) (activeRouting g env request entry violations :
      InterceptM β InterceptionResult)
      (fun r _ => Routed g request entry violations r) (fun _ => Unmoved n) := by
  refine Eff.spec_lift_bind (fun headers _ => Eff.spec_ite (fun hstop => ?_) fun _ => ?_)
    fun _ _ _ h => h
  · refine emitInterventionEvent_spec.bind fun _ => Eff.spec_pure fun _ _ => ?_
    exact .inl ⟨rfl, rfl, rfl, rfl, hstop.1, hstop.2⟩
  · split
    · rename_i altModel rest halt
      refine Eff.spec_ite (fun hmodel => ?_) fun _ => serveActive_spec
      refine (Omits.unmoved (count_omits _)).bind fun _ => ?_
      refine emitInterventionEvent_spec.bind fun _ => Eff.spec_pure fun _ _ => ?_
      refine .inr (.inl ⟨rfl, rfl, rfl, ?_, ?_⟩)
      · rw [halt]
        rfl
      · rw [halt]
        exact hmodel
    · exact serveActive_spec

/-- A hard stop of an evaluated policy is one of the four. -/
theorem hardStop_of_any (hviol : evaluatePolicies request entry = .ok violations)
    (h : violations.any isHardStop = true) :
    ∃ v ∈ violations, v.violated = true ∧ v.policyId ∈ hardStopIds := by
  obtain ⟨v, hv, hstop⟩ := List.any_eq_true.mp h
  obtain ⟨hviolated, haction⟩ := evaluatePolicies_violated hviol v hv
  refine ⟨v, hv, hviolated, ?_⟩
  unfold isHardStop at hstop
  rw [haction] at hstop
  simpa using hstop

/-- What `_active_routing` answers is gated, if the gates held when it was called. -/
theorem Routed.gated (h : Routed g request entry violations r)
    (hviol : evaluatePolicies request entry = .ok violations)
    (hbehind : r.attribution = some entry → Behind g env request r entry) :
    Gated g env request r := by
  rcases h with ⟨hout, hnone, hattr, hres, hany, hgate⟩ | ⟨hout, hattr, hsome, hhead, hmodel⟩ |
    ⟨hnone, hout⟩
  · refine ⟨?_, fun hr => absurd (hout.symm.trans hr) (by decide), fun _ => ?_⟩
    · rw [hnone]
      exact ⟨nofun, fun hr => absurd (hout.symm.trans hr) (by decide)⟩
    · obtain ⟨v, hv, hrest⟩ := hardStop_of_any hviol hany
      exact ⟨entry, hbehind hattr, hgate, v, hres ▸ hv, hrest⟩
  · refine ⟨⟨fun _ => hout, fun _ => hsome⟩, fun _ => ⟨entry, hbehind hattr, hmodel, hhead⟩, ?_⟩
    exact fun hr => absurd (hout.symm.trans hr) (by decide)
  · refine gated_of_served hnone (fun hr => ?_) fun hr => ?_
    · rcases hout with hout | hout <;> exact absurd (hout.symm.trans hr) (by decide)
    · rcases hout with hout | hout <;> exact absurd (hout.symm.trans hr) (by decide)

/-- An answer that serves the request as it is, without an intervention so far. -/
theorem Unmoved.answered {s : Interceptor β} (h : Unmoved n s) (hnone : r.redirectModel = none)
    (hredirect : r.outcome ≠ .redirected) (hstop : r.outcome ≠ .hardStopped) :
    Answered n g env request r s :=
  ⟨gated_of_served hnone hredirect hstop, fun _ => h⟩

theorem missed_spec {workloadId : String} :
    Eff.Spec (Unmoved n) (missed g env request workloadId : InterceptM β InterceptionResult)
      (Answered n g env request) (fun _ => Unmoved n) := by
  refine (Omits.unmoved (count_omits _)).bind fun _ => ?_
  refine (Omits.unmoved shadowRefresh_omits).bind fun _ => ?_
  refine Eff.spec_lift_bind (fun tenant _ => ?_) fun _ _ _ h => h
  refine (Omits.unmoved (emitShadowEvent_omits (by decide))).bind fun _ => ?_
  exact Eff.spec_pure fun _ h => h.answered rfl nofun nofun

theorem timedOut_spec {workloadId : String} {elapsedMs : ℚ} {reason : FailOpenReason} :
    Eff.Spec (Unmoved n) (timedOut g env request workloadId entry elapsedMs reason :
      InterceptM β InterceptionResult) (Answered n g env request) (fun _ => Unmoved n) := by
  refine Eff.spec_lift_bind (fun tenant _ => ?_) fun _ _ _ h => h
  refine (Omits.unmoved (emitShadowEvent_omits (by decide))).bind fun _ => ?_
  refine Eff.spec_lift_bind (fun headers _ => ?_) fun _ _ _ h => h
  exact Eff.spec_pure fun _ h => h.answered rfl nofun nofun

theorem advise_spec {report : InterceptM β Unit} (hreport : Omits .interventionApplied report) :
    Eff.Spec (Unmoved n) (advise g env request entry violations report)
      (Answered n g env request) (fun _ => Unmoved n) := by
  refine Eff.spec_lift_bind (fun headers _ => ?_) fun _ _ _ h => h
  refine (Omits.unmoved hreport).bind fun _ => (Omits.unmoved (count_omits _)).bind fun _ => ?_
  obtain ⟨hredirect, hstop⟩ := advisoryOutcome_served violations
  exact Eff.spec_pure fun _ h => h.answered rfl hredirect hstop

variable (hsucc : Eff.Returns (onCircuit ops.recordSuccess))
include hsucc

/-- The mode-dependent step.  After `_active_routing` only `record_success` runs, which
returns. -/
theorem route_spec {workloadId : String} (hid : request.resolveWorkloadId = .ok workloadId)
    (hl : env.lookup workloadId = .ok (some entry))
    (hviol : evaluatePolicies request entry = .ok violations)
    (hlookup : env.lookupTimedOut g.config = false)
    (hpolicy : env.policyTimedOut g.config = false) :
    Eff.Spec (Unmoved n) (route ops g env request entry violations)
      (Answered n g env request) (fun _ => Unmoved n) := by
  unfold route
  cases hm : g.mode with
  | passive =>
    refine (Omits.unmoved (onCircuit_omits _)).bind fun _ => ?_
    refine (Omits.unmoved (count_omits _)).bind fun _ => ?_
    exact Eff.spec_pure fun _ h => h.answered rfl nofun nofun
  | advisory => exact advise_spec (onCircuit_omits _)
  | active =>
    refine Eff.spec_lift_bind (fun down hdown => Eff.spec_ite (fun _ => ?_) fun hactive => ?_)
      fun _ _ _ h => h
    · exact advise_spec (Eff.frames_pure _)
    · rw [eq_false_of_ne_true hactive] at hdown
      have hlow : ¬ entry.confidence.1 < g.config.activeLiteMinConfidence := by
        intro hlow
        rw [downgraded, if_pos hlow] at hdown
        cases hdown
      rw [downgraded, if_neg hlow] at hdown
      obtain ⟨henv, hjson, htools, hstrict⟩ := not_shouldDowngrade hdown
      refine activeRouting_spec.bind fun result => hsucc.spec_const.bind fun _ =>
        Eff.spec_pure fun _ hrouted => ?_
      refine ⟨hrouted.gated hviol fun hattr => ?_, fun hfail => ?_⟩
      · exact ⟨hm, ⟨workloadId, hid, hl⟩, hattr, henv, hjson, htools, hstrict, not_lt.mp hlow,
          hlookup, hpolicy⟩
      · rcases hrouted with ⟨ho, -⟩ | ⟨ho, -⟩ | ⟨-, ho | ho⟩ <;> rw [ho] at hfail <;> simp at hfail

theorem enrich_spec {workloadId : String} (hid : request.resolveWorkloadId = .ok workloadId)
    (hl : env.lookup workloadId = .ok (some entry)) :
    Eff.Spec (Unmoved n) (enrich ops g env request workloadId entry)
      (Answered n g env request) (fun _ => Unmoved n) := by
  refine Eff.spec_ite (fun _ => ?_) fun hlookup => ?_
  · exact (Omits.unmoved (count_omits _)).bind fun _ => timedOut_spec
  · refine Eff.spec_lift_bind (fun violations hviol => Eff.spec_ite (fun _ => ?_) fun hpolicy => ?_)
      fun _ _ _ h => h
    · refine (Omits.unmoved (count_omits _)).bind fun _ => ?_
      exact (Omits.unmoved (emitPolicyEvaluationEvent_omits (by decide))).bind fun _ =>
        timedOut_spec
    · refine (Omits.unmoved (emitPolicyEvaluationEvent_omits (by decide))).bind fun _ => ?_
      exact route_spec hsucc hid hl hviol (eq_false_of_ne_true hlookup)
        (eq_false_of_ne_true hpolicy)

theorem inner_spec :
    Eff.Spec (Unmoved n) (interceptInner ops g env request) (Answered n g env request)
      (fun _ => Unmoved n) := by
  refine (Omits.unmoved (onCircuit_omits _)).bind fun refused => Eff.spec_ite (fun _ => ?_)
    fun _ => ?_
  · refine (Omits.unmoved (count_omits _)).bind fun _ => ?_
    exact Eff.spec_pure fun _ h => h.answered rfl nofun nofun
  · refine Eff.spec_lift_bind (fun workloadId hid => Eff.spec_ite (fun _ => ?_) fun _ => ?_)
      fun _ _ _ h => h
    · exact Eff.spec_pure fun _ h => h.answered rfl nofun nofun
    · refine Eff.spec_lift_bind (fun found hl => ?_) fun _ _ _ h => h
      cases found with
      | none => exact missed_spec
      | some entry => exact enrich_spec hsucc hid hl

/-- `intercept` as a whole: the metrics return too, so an exception was raised before any
intervention, and the handler emits none. -/
theorem intercept_spec (hmetrics : Eff.Returns (recordObservabilityMetrics ops .answered)) :
    Eff.Spec (Unmoved n) (intercept ops g env request) (Answered n g env request)
      (fun _ _ => True) := by
  refine Eff.Spec.bind (Q := fun _ => Unmoved n) (Eff.spec_modify fun _ h => h) fun _ => ?_
  refine Eff.Spec.catching (R := fun _ => Unmoved n) ?_ fun _ => ?_
  · refine (inner_spec hsucc).bind fun result => ?_
    refine Eff.Spec.bind (Q := fun _ => Answered n g env request result) ?_ fun _ =>
      Eff.spec_pure fun _ h => h
    exact hmetrics.spec (I := fun events => Gated g env request result ∧
      (result.outcome = .failOpen ∨ result.outcome = .circuitOpen ∨ result.outcome = .timeout →
        events = n)) (metrics_omits ops .answered)
  · refine Eff.Spec.weaken (R := fun _ => Unmoved n) ?_ (fun _ h => h) (fun _ _ h => h)
      fun _ _ _ => trivial
    refine (Omits.unmoved (count_omits _)).bind fun _ => ?_
    refine (Omits.unmoved (onCircuit_omits _)).bind fun _ => ?_
    refine Eff.spec_lift_bind (fun workloadId _ => ?_) fun _ _ _ h => h
    refine (Omits.unmoved (emitFailure_omits (by decide))).bind fun _ => ?_
    refine (Omits.unmoved (metrics_omits ops .failed)).bind fun _ => ?_
    exact Eff.spec_pure fun _ h => h.answered rfl nofun nofun

end Exits

/-! ### The result -/

/-- What holds of a call that was answered with `r` and left the interceptor in `s'`. -/
structure GatedCall (g : Gateway) (env : CallEnv) (request : InterceptionRequest)
    (s : Interceptor CircuitBreakerState) (r : InterceptionResult)
    (s' : Interceptor CircuitBreakerState) : Prop where
  gated : Gated g env request r
  /-- A stopped request becomes an HTTP error. -/
  rejected : r.outcome = .hardStopped → (gateErrorFromResult r).isSome = true
  /-- A fail-open answer comes without an intervention event. -/
  unmoved : r.outcome = .failOpen ∨ r.outcome = .circuitOpen ∨ r.outcome = .timeout →
    s'.handedOf .interventionApplied = s.handedOf .interventionApplied
  /-- The model a request was redirected to is not redirected again on the same entry,
  whatever the interceptor, its mode and its clock are by then. -/
  redirectedOnce : ∀ model entry, r.redirectModel = some model → r.attribution = some entry →
    ∀ (g₂ : Gateway) (calls₂ : StoreCalls) (env₂ : CallEnv) (request₂ : InterceptionRequest)
      (s₂ : Interceptor CircuitBreakerState), request₂.model = model →
      (∀ w, request₂.resolveWorkloadId = .ok w → env₂.lookup w = .ok (some entry)) →
      Eff.Ends (fun r₂ _ => r₂.outcome ≠ .redirected) (fun _ _ => True)
        (intercept (storeOps g₂.breaker calls₂) g₂ env₂ request₂ s₂)

theorem storeOps_metrics_returns (cfg : BreakerConfig) (calls : StoreCalls) (pass : MetricsPass) :
    Eff.Returns (recordObservabilityMetrics (storeOps cfg calls) pass) := by
  intro s
  generalize hc : (if (calls.metrics pass).redisError = true then s.circuit
    else (calls.metrics pass).found).transition cfg (calls.metrics pass).now = c
  refine ⟨(), { s with circuit := c }, ?_⟩
  cases hst : c.state <;>
    simp [recordObservabilityMetrics, onCircuit, Eff.zoom, storeOps, StoreCall.safeMutate, hc, hst,
      CircuitState.value, bind, pure, Eff.lift, stateGauge]

/-- Every call over a store that raises at most `RedisError` is answered behind the gates. -/
theorem intercept_answered (g : Gateway) (calls : StoreCalls) (env : CallEnv)
    (request : InterceptionRequest) (s : Interceptor CircuitBreakerState) :
    Eff.Ends (Answered (s.handedOf .interventionApplied) g env request) (fun _ _ => True)
      (intercept (storeOps g.breaker calls) g env request s) :=
  intercept_spec (calls.report.safeMutate_returns _) (storeOps_metrics_returns _ _ _) s rfl

/-- **Requests are modified only behind every gate.** -/
theorem modified_behind_gates (g : Gateway) (calls : StoreCalls) (env : CallEnv)
    (request : InterceptionRequest) (s : Interceptor CircuitBreakerState) :
    Eff.Ends (GatedCall g env request s) (fun _ _ => True)
      (intercept (storeOps g.breaker calls) g env request s) := by
  have h := intercept_answered g calls env request s
  generalize intercept (storeOps g.breaker calls) g env request s = answer at h ⊢
  obtain ⟨e | r, s'⟩ := answer
  · trivial
  · refine ⟨h.1, fun hstop => ?_, h.2, ?_⟩
    · obtain ⟨_, -, -, v, hv, hviolated, hid⟩ := h.1.hardStopped hstop
      refine gateError_isSome hv hviolated ?_
      simp only [hardStopIds, List.mem_cons] at hid
      simp only [gateErrorIds, List.mem_cons]
      tauto
    · intro model entry hmodel hattr g₂ calls₂ env₂ request₂ s₂ hsame hentry
      have hredirected : r.outcome = .redirected := h.1.redirect_iff.mp (by rw [hmodel]; rfl)
      obtain ⟨entry', hbehind, -, hhead⟩ := h.1.redirected hredirected
      have heq : entry' = entry := Option.some.inj (hbehind.attribution.symm.trans hattr)
      subst heq
      have happroved : model ∈ entry'.approvedAlternatives :=
        List.mem_of_mem_head? (hhead.symm.trans hmodel)
      have h₂ := intercept_answered g₂ calls₂ env₂ request₂ s₂
      generalize intercept (storeOps g₂.breaker calls₂) g₂ env₂ request₂ s₂ = answer₂ at h₂ ⊢
      obtain ⟨e₂ | r₂, s₂'⟩ := answer₂
      · trivial
      · intro hagain
        obtain ⟨entry₂, hbehind₂, hnot, -⟩ := h₂.1.redirected hagain
        obtain ⟨w, hw, hl⟩ := hbehind₂.found
        have hl' := hentry w hw
        rw [hl] at hl'
        cases hl'
        rw [hsame] at hnot
        exact hnot happroved

/-- A development request in Active mode, against an entry that approves another model
and, in the second case, allows no other. -/
example (allowlist : List String) (outcome : InterceptionOutcome)
    (h : (allowlist, outcome) ∈ [([], .redirected), (["small"], .hardStopped)]) :
    (intercept (storeOps {} ⟨⟨{}, 0, 0, true⟩, ⟨{}, 0, 0, false⟩, ⟨{}, 0, 0, false⟩,
        fun _ => ⟨{}, 0, 0, true⟩⟩) { mode := .active }
      { InterceptRun.servedEnv with lookup := fun _ => .ok (some
        { InterceptRun.servedEntry with approvedAlternatives := ["small"],
                                        modelAllowlist := allowlist }) }
      InterceptRun.servedRequest { circuit := {} }).1.toOption.map InterceptionResult.outcome =
        some outcome := by
  rcases List.mem_pair.mp h with h | h <;> cases h <;> decide +kernel

end ComputeIntelligence
