import ComputeIntelligence.ActiveGates

/-! # The answer of a call

What `intercept` answers does not depend on the counters, the warmer or the events it hands
over, but for the one bit that the circuit reads at the start.  `Answer` keeps of a result what
does not depend on the clock alone, and `interceptAnswer` computes it from the request, the index
and the settings, with no state: every call over a store that raises nothing but `RedisError`
ends as it says (`intercept_endsAs`).
-/
namespace ComputeIntelligence

/-- An `InterceptionResult` without the time it took and the shadow event. -/
structure Answer where
  outcome : InterceptionOutcome
  enrichmentHeaders : PyDict String String := PyDict.empty
  redirectModel : Option String := none
  policyResults : List PolicyEvaluationResult := []
  attribution : Option AttributionIndexEntry := none

def InterceptionResult.answer (r : InterceptionResult) : Answer :=
  ⟨r.outcome, r.enrichmentHeaders, r.redirectModel, r.policyResults, r.attribution⟩

/-! ### The answer, without the state -/

/-- What a policy event resolves before it is published. -/
def InterceptionRequest.eventContext (request : InterceptionRequest) : Except PyExn Unit := do
  let _ ← request.resolveTenantId
  let _ ← request.metaStr "environment"
  .ok ()

/-- What an intervention event resolves before it is published. -/
def InterceptionRequest.interventionContext (request : InterceptionRequest) :
    Except PyExn Unit := do
  let workloadId ← request.resolveWorkloadId
  if workloadId = "" then .ok () else request.eventContext

def failOpenAnswer (outcome : InterceptionOutcome) (reason : FailOpenReason) : Answer :=
  { outcome := outcome, enrichmentHeaders := buildFailOpenHeaders reason }

def timeoutAnswer (g : Gateway) (request : InterceptionRequest) (entry : AttributionIndexEntry)
    (reason : FailOpenReason) : Except PyExn Answer := do
  let _ ← request.resolveTenantId
  let headers ← buildBasicHeaders g.config request entry (some reason)
  .ok { outcome := .timeout, enrichmentHeaders := headers, attribution := some entry }

/-- An answer that serves the request, or stops it, with its headers. -/
def servedAnswer (outcome : InterceptionOutcome) (entry : AttributionIndexEntry)
    (violations : List PolicyEvaluationResult) (headers : PyDict String String) : Answer :=
  { outcome := outcome, enrichmentHeaders := headers, policyResults := violations,
    attribution := some entry }

def adviseAnswer (g : Gateway) (request : InterceptionRequest) (entry : AttributionIndexEntry)
    (violations : List PolicyEvaluationResult) : Except PyExn Answer := do
  let headers ← buildEnrichmentHeaders g.config request entry violations
  .ok (servedAnswer (advisoryOutcome violations) entry violations headers)

/-- The headers of a redirect. -/
def addIntervention (request : InterceptionRequest) (altModel : String)
    (headers : PyDict String String) : PyDict String String :=
  ((headers.set "X-ACI-Intervention-Applied" "true").set
    "X-ACI-Intervention-Type" "MODEL_ROUTE").set "X-ACI-Intervention-Delta"
      (PyText.take 512 ("\x7bmodel:" ++ request.model ++ "->" ++ altModel ++ "\x7d"))

def serveActiveAnswer (request : InterceptionRequest) (entry : AttributionIndexEntry)
    (violations : List PolicyEvaluationResult) (headers : PyDict String String) :
    Except PyExn Answer :=
  if hasViolation violations then do
    let _ ← request.interventionContext
    .ok (servedAnswer (advisoryOutcome violations) entry violations headers)
  else .ok (servedAnswer (advisoryOutcome violations) entry violations headers)

def redirectAnswer (request : InterceptionRequest) (entry : AttributionIndexEntry)
    (violations : List PolicyEvaluationResult) (headers : PyDict String String)
    (altModel : String) : Except PyExn Answer := do
  let _ ← request.interventionContext
  .ok { servedAnswer .redirected entry violations (addIntervention request altModel headers) with
    redirectModel := some altModel }

def activeAnswer (g : Gateway) (request : InterceptionRequest) (entry : AttributionIndexEntry)
    (violations : List PolicyEvaluationResult) : Except PyExn Answer := do
  let headers ← buildEnrichmentHeaders g.config request entry violations
  if violations.any isHardStop ∧ g.config.activeLiteGateMinConfidence ≤ entry.confidence.1 then do
    let _ ← request.interventionContext
    .ok (servedAnswer .hardStopped entry violations headers)
  else
    match entry.approvedAlternatives with
    | altModel :: rest =>
        if request.model ∉ altModel :: rest then
          redirectAnswer request entry violations headers altModel
        else serveActiveAnswer request entry violations headers
    | [] => serveActiveAnswer request entry violations headers

def routeAnswer (g : Gateway) (request : InterceptionRequest) (entry : AttributionIndexEntry)
    (violations : List PolicyEvaluationResult) : Except PyExn Answer :=
  match g.mode with
  | .passive => .ok (servedAnswer .passthrough entry violations PyDict.empty)
  | .advisory => adviseAnswer g request entry violations
  | .active => do
      if (← downgraded g request entry) then adviseAnswer g request entry violations
      else activeAnswer g request entry violations

def enrichAnswer (g : Gateway) (env : CallEnv) (request : InterceptionRequest)
    (entry : AttributionIndexEntry) : Except PyExn Answer :=
  if env.lookupTimedOut g.config then timeoutAnswer g request entry .lookupTimeout
  else do
    let violations ← evaluatePolicies request entry
    if env.policyTimedOut g.config then do
      let _ ← request.eventContext
      timeoutAnswer g request entry .policyTimeout
    else do
      let _ ← request.eventContext
      routeAnswer g request entry violations

def admittedAnswer (g : Gateway) (env : CallEnv) (request : InterceptionRequest) :
    Except PyExn Answer := do
  let workloadId ← request.resolveWorkloadId
  if workloadId = "" then .ok { outcome := .passthrough }
  else do
    match ← env.lookup workloadId with
    | none => do
        let _ ← request.resolveTenantId
        .ok (failOpenAnswer .failOpen .indexUnavailable)
    | some entry => enrichAnswer g env request entry

def innerAnswer (refused : Bool) (g : Gateway) (env : CallEnv) (request : InterceptionRequest) :
    Except PyExn Answer :=
  if refused then .ok (failOpenAnswer .circuitOpen .resourceExhaustion)
  else admittedAnswer g env request

/-- The answer of the handler, which raises where `str` of the metadata it needs does. -/
def handlerAnswer (request : InterceptionRequest) : Except PyExn Answer := do
  let workloadId ← request.resolveWorkloadId
  if workloadId = "" then .ok (failOpenAnswer .failOpen .runtimeException)
  else do
    let _ ← request.resolveTenantId
    .ok (failOpenAnswer .failOpen .runtimeException)

/-- What `intercept` answers. -/
def interceptAnswer (refused : Bool) (g : Gateway) (env : CallEnv)
    (request : InterceptionRequest) : Except PyExn Answer :=
  (innerAnswer refused g env request).tryCatch fun _ => handlerAnswer request

/-! ### Which exit a call takes -/

/-- The circuit lets the request through, and the index has `entry` for it. -/
structure Hits (refused : Bool) (env : CallEnv) (request : InterceptionRequest)
    (entry : AttributionIndexEntry) : Prop where
  letThrough : refused = false
  found : ∃ w, request.resolveWorkloadId = .ok w ∧ w ≠ "" ∧ env.lookup w = .ok (some entry)

/-- The call has its entry, but runs out of time. -/
inductive TimesOut (refused : Bool) (g : Gateway) (env : CallEnv) (request : InterceptionRequest)
    (entry : AttributionIndexEntry) : FailOpenReason → Prop
  | lookup (hits : Hits refused env request entry) (late : env.lookupTimedOut g.config = true) :
      TimesOut refused g env request entry .lookupTimeout
  | policies (hits : Hits refused env request entry)
      (lookupInTime : env.lookupTimedOut g.config = false)
      (evaluated : ∃ violations, evaluatePolicies request entry = .ok violations)
      (late : env.policyTimedOut g.config = true) (context : request.eventContext = .ok ()) :
      TimesOut refused g env request entry .policyTimeout

/-- The call gets to the mode-dependent step. -/
structure Evaluated (refused : Bool) (g : Gateway) (env : CallEnv) (request : InterceptionRequest)
    (entry : AttributionIndexEntry) (violations : List PolicyEvaluationResult) : Prop where
  hits : Hits refused env request entry
  lookupInTime : env.lookupTimedOut g.config = false
  evaluated : evaluatePolicies request entry = .ok violations
  policiesInTime : env.policyTimedOut g.config = false
  context : request.eventContext = .ok ()

section
variable {refused : Bool} {g : Gateway} {env : CallEnv} {request : InterceptionRequest}
  {entry : AttributionIndexEntry} {violations : List PolicyEvaluationResult} {a : Answer}
  {reason : FailOpenReason}

theorem Hits.innerAnswer_eq (h : Hits refused env request entry) :
    innerAnswer refused g env request = enrichAnswer g env request entry := by
  obtain ⟨rfl, w, hid, hne, hl⟩ := h
  show admittedAnswer g env request = _
  unfold admittedAnswer
  rw [hid]
  show (if w = "" then _ else _) = _
  rw [if_neg hne, hl]
  rfl

theorem TimesOut.innerAnswer_eq (h : TimesOut refused g env request entry reason) :
    innerAnswer refused g env request = timeoutAnswer g request entry reason := by
  cases h with
  | lookup hits late =>
    rw [hits.innerAnswer_eq, enrichAnswer, if_pos late]
  | policies hits lookupInTime evaluated late context =>
    obtain ⟨violations, hviol⟩ := evaluated
    rw [hits.innerAnswer_eq, enrichAnswer, if_neg (ne_true_of_eq_false lookupInTime), hviol]
    show (if env.policyTimedOut g.config = true then _ else _) = _
    rw [if_pos late, context]
    rfl

theorem Evaluated.innerAnswer_eq (h : Evaluated refused g env request entry violations) :
    innerAnswer refused g env request = routeAnswer g request entry violations := by
  rw [h.hits.innerAnswer_eq, enrichAnswer, if_neg (ne_true_of_eq_false h.lookupInTime), h.evaluated]
  show (if env.policyTimedOut g.config = true then _ else _) = _
  rw [if_neg (ne_true_of_eq_false h.policiesInTime), h.context]
  rfl

/-- The call is one that Active mode may redirect, and nothing stops it. -/
structure Reroutes (g : Gateway) (request : InterceptionRequest) (entry : AttributionIndexEntry)
    (violations : List PolicyEvaluationResult) : Prop where
  active : g.mode = .active
  notDowngraded : downgraded g request entry = .ok false
  notStopped : ¬ (violations.any isHardStop = true ∧
    g.config.activeLiteGateMinConfidence ≤ entry.confidence.1)
  approved : entry.approvedAlternatives ≠ []
  notApproved : request.model ∉ entry.approvedAlternatives

/-- The answer of a redirect. -/
def reroutedAnswer (request : InterceptionRequest) (entry : AttributionIndexEntry)
    (violations : List PolicyEvaluationResult) (headers : PyDict String String)
    (altModel : String) : Answer :=
  { servedAnswer .redirected entry violations (addIntervention request altModel headers) with
    redirectModel := some altModel }

/-- The identifiers of an intervention event are those of the policy event before it. -/
theorem Evaluated.interventionContext (h : Evaluated refused g env request entry violations) :
    request.interventionContext = .ok () := by
  obtain ⟨w, hid, hne, -⟩ := h.hits.found
  unfold InterceptionRequest.interventionContext
  rw [hid]
  show (if w = "" then Except.ok () else request.eventContext) = _
  rw [if_neg hne, h.context]

theorem Reroutes.routeAnswer_eq (h : Reroutes g request entry violations)
    (hcontext : request.interventionContext = .ok ()) {headers : PyDict String String}
    (hheaders : buildEnrichmentHeaders g.config request entry violations = .ok headers)
    {altModel : String} (halt : entry.approvedAlternatives.head? = some altModel) :
    routeAnswer g request entry violations =
      .ok (reroutedAnswer request entry violations headers altModel) := by
  obtain ⟨rest, hrest⟩ := List.head?_eq_some_iff.1 halt
  have hforeign : request.model ∉ altModel :: rest := by
    rw [← hrest]
    exact h.notApproved
  unfold routeAnswer
  rw [h.active]
  show (downgraded g request entry >>= _) = _
  rw [h.notDowngraded]
  show activeAnswer g request entry violations = _
  unfold activeAnswer
  rw [hheaders]
  show (if violations.any isHardStop = true ∧ _ then _ else _) = _
  rw [if_neg h.notStopped, hrest]
  show (if request.model ∉ altModel :: rest then _ else _) = _
  rw [if_pos hforeign, redirectAnswer, hcontext]
  rfl

theorem advisoryOutcome_failsOpen (violations : List PolicyEvaluationResult) :
    (advisoryOutcome violations).failsOpen = false := by
  rcases advisoryOutcome_cases violations with ho | ho
  · rw [ho]
    rfl
  · rw [ho]
    rfl

theorem activeAnswer_cases (h : activeAnswer g request entry violations = .ok a) :
    ∃ headers, buildEnrichmentHeaders g.config request entry violations = .ok headers ∧
      ((∃ outcome, outcome ≠ .redirected ∧ outcome.failsOpen = false ∧
          a = servedAnswer outcome entry violations headers) ∨
        ∃ altModel, entry.approvedAlternatives.head? = some altModel ∧
          request.model ∉ entry.approvedAlternatives ∧
          ¬ (violations.any isHardStop = true ∧
            g.config.activeLiteGateMinConfidence ≤ entry.confidence.1) ∧
          a = reroutedAnswer request entry violations headers altModel) := by
  unfold activeAnswer at h
  obtain ⟨headers, hheaders, h⟩ := Except.bind_eq_ok h
  refine ⟨headers, hheaders, ?_⟩
  have hserved : serveActiveAnswer request entry violations headers = .ok a →
      ∃ outcome, outcome ≠ .redirected ∧ outcome.failsOpen = false ∧
        a = servedAnswer outcome entry violations headers := by
    intro h
    have ha : a = servedAnswer (advisoryOutcome violations) entry violations headers := by
      unfold serveActiveAnswer at h
      split at h
      · obtain ⟨_, -, h⟩ := Except.bind_eq_ok h
        exact (Except.ok.inj h).symm
      · exact (Except.ok.inj h).symm
    exact ⟨_, (advisoryOutcome_served violations).1, advisoryOutcome_failsOpen violations, ha⟩
  split at h
  · obtain ⟨_, -, h⟩ := Except.bind_eq_ok h
    exact .inl ⟨.hardStopped, nofun, rfl, (Except.ok.inj h).symm⟩
  · rename_i hgate
    cases halt : entry.approvedAlternatives with
    | nil =>
      rw [halt] at h
      exact .inl (hserved h)
    | cons altModel rest =>
      rw [halt] at h
      dsimp only at h
      -- the call is redirected unless it asks for one of the approved models
      split at h
      · rename_i hforeign
        obtain ⟨_, -, h⟩ := Except.bind_eq_ok h
        exact .inr ⟨altModel, rfl, hforeign, hgate, (Except.ok.inj h).symm⟩
      · exact .inl (hserved h)

/-- **The exits of the mode-dependent step.** -/
theorem routeAnswer_cases (h : routeAnswer g request entry violations = .ok a) :
    (g.mode = .passive ∧ a = servedAnswer .passthrough entry violations PyDict.empty) ∨
    ∃ headers, buildEnrichmentHeaders g.config request entry violations = .ok headers ∧
      ((∃ outcome, outcome ≠ .redirected ∧ outcome.failsOpen = false ∧
          a = servedAnswer outcome entry violations headers) ∨
        ∃ altModel, Reroutes g request entry violations ∧
          entry.approvedAlternatives.head? = some altModel ∧
          a = reroutedAnswer request entry violations headers altModel) := by
  have hadvised : adviseAnswer g request entry violations = .ok a →
      ∃ headers, buildEnrichmentHeaders g.config request entry violations = .ok headers ∧
        ∃ outcome, outcome ≠ .redirected ∧ outcome.failsOpen = false ∧
          a = servedAnswer outcome entry violations headers := by
    intro h
    unfold adviseAnswer at h
    obtain ⟨headers, hheaders, h⟩ := Except.bind_eq_ok h
    exact ⟨headers, hheaders, _, (advisoryOutcome_served violations).1,
      advisoryOutcome_failsOpen violations, (Except.ok.inj h).symm⟩
  unfold routeAnswer at h
  cases hmode : g.mode with
  | passive =>
    rw [hmode] at h
    exact .inl ⟨rfl, (Except.ok.inj h).symm⟩
  | advisory =>
    rw [hmode] at h
    obtain ⟨headers, hheaders, hserved⟩ := hadvised h
    exact .inr ⟨headers, hheaders, .inl hserved⟩
  | active =>
    rw [hmode] at h
    obtain ⟨down, hdown, h⟩ := Except.bind_eq_ok h
    cases down with
    | true =>
      -- downgraded, the call gets the answer of Advisory mode
      obtain ⟨headers, hheaders, hserved⟩ := hadvised h
      exact .inr ⟨headers, hheaders, .inl hserved⟩
    | false =>
      obtain ⟨headers, hheaders, hserved | ⟨altModel, halt, hforeign, hgate, ha⟩⟩ :=
        activeAnswer_cases h
      · exact .inr ⟨headers, hheaders, .inl hserved⟩
      · have hsome : entry.approvedAlternatives ≠ [] := by
          intro hnil
          rw [hnil] at halt
          cases halt
        exact .inr ⟨headers, hheaders, .inr ⟨altModel, ⟨hmode, hdown, hgate, hsome, hforeign⟩,
          halt, ha⟩⟩

/-- The exits before an entry is found carry nothing, or the headers of failing open. -/
def IsEarly (a : Answer) : Prop :=
  a = { outcome := .passthrough } ∨
    ∃ outcome reason, (outcome = .failOpen ∨ outcome = .circuitOpen) ∧
      a = failOpenAnswer outcome reason

theorem enrichAnswer_cases (hits : Hits refused env request entry)
    (h : enrichAnswer g env request entry = .ok a) :
    (∃ reason, TimesOut refused g env request entry reason ∧
      timeoutAnswer g request entry reason = .ok a) ∨
    ∃ violations, Evaluated refused g env request entry violations ∧
      routeAnswer g request entry violations = .ok a := by
  unfold enrichAnswer at h
  split at h
  · rename_i late
    exact .inl ⟨_, .lookup hits late, h⟩
  · rename_i lookupInTime
    obtain ⟨violations, hviol, h⟩ := Except.bind_eq_ok h
    split at h
    · rename_i late
      obtain ⟨_, context, h⟩ := Except.bind_eq_ok h
      exact .inl ⟨_, .policies hits (eq_false_of_ne_true lookupInTime) ⟨violations, hviol⟩ late
        context, h⟩
    · rename_i policiesInTime
      obtain ⟨_, context, h⟩ := Except.bind_eq_ok h
      exact .inr ⟨violations, ⟨hits, eq_false_of_ne_true lookupInTime, hviol,
        eq_false_of_ne_true policiesInTime, context⟩, h⟩

theorem innerAnswer_cases (h : innerAnswer refused g env request = .ok a) :
    IsEarly a ∨
    (∃ entry reason, TimesOut refused g env request entry reason ∧
      timeoutAnswer g request entry reason = .ok a) ∨
    ∃ entry violations, Evaluated refused g env request entry violations ∧
      routeAnswer g request entry violations = .ok a := by
  unfold innerAnswer at h
  split at h
  · cases h
    exact .inl (.inr ⟨_, _, .inr rfl, rfl⟩)
  · rename_i letThrough
    unfold admittedAnswer at h
    obtain ⟨w, hid, h⟩ := Except.bind_eq_ok h
    split at h
    · cases h
      exact .inl (.inl rfl)
    · rename_i hne
      obtain ⟨found, hl, h⟩ := Except.bind_eq_ok h
      cases found with
      | none =>
        obtain ⟨tenant, -, h⟩ := Except.bind_eq_ok h
        cases h
        exact .inl (.inr ⟨_, _, .inl rfl, rfl⟩)
      | some entry =>
        have hits : Hits refused env request entry :=
          ⟨eq_false_of_ne_true letThrough, w, hid, hne, hl⟩
        rcases enrichAnswer_cases hits h with ⟨reason, hlate, hanswer⟩ | ⟨violations, hev, hanswer⟩
        · exact .inr (.inl ⟨entry, reason, hlate, hanswer⟩)
        · exact .inr (.inr ⟨entry, violations, hev, hanswer⟩)

/-- The handler answers as the exits before an entry do. -/
theorem handlerAnswer_early (h : handlerAnswer request = .ok a) : IsEarly a := by
  unfold handlerAnswer at h
  obtain ⟨w, -, h⟩ := Except.bind_eq_ok h
  split at h
  · cases h
    exact .inr ⟨_, _, .inl rfl, rfl⟩
  · obtain ⟨tenant, -, h⟩ := Except.bind_eq_ok h
    cases h
    exact .inr ⟨_, _, .inl rfl, rfl⟩

/-- **The exits of a call.** -/
theorem interceptAnswer_cases (h : interceptAnswer refused g env request = .ok a) :
    IsEarly a ∨
    (∃ entry reason, TimesOut refused g env request entry reason ∧
      timeoutAnswer g request entry reason = .ok a) ∨
    ∃ entry violations, Evaluated refused g env request entry violations ∧
      routeAnswer g request entry violations = .ok a := by
  unfold interceptAnswer at h
  cases hinner : innerAnswer refused g env request with
  | ok b =>
    rw [hinner] at h
    cases h
    exact innerAnswer_cases hinner
  | error e =>
    rw [hinner] at h
    exact .inl (handlerAnswer_early h)

theorem interceptAnswer_of_inner (h : innerAnswer refused g env request = .ok a) :
    interceptAnswer refused g env request = .ok a := by
  unfold interceptAnswer
  rw [h]
  rfl

end

/-! ### Every call ends as its answer -/

section
variable {β : Type} {ops : CircuitOps β} {g : Gateway} {env : CallEnv}
  {request : InterceptionRequest} {entry : AttributionIndexEntry}
  {violations : List PolicyEvaluationResult}

open InterceptionResult (answer)

theorem emitPolicyEvaluationEvent_endsAs {workloadId : String} {elapsedMs : ℚ} {failOpen : Bool} :
    Eff.EndsAs (fun _ => ()) (emitPolicyEvaluationEvent g env request workloadId violations
      elapsedMs failOpen : InterceptM β Bool) request.eventContext := by
  refine Eff.endsAs_lift_bind fun tenant _ => Eff.endsAs_lift_bind fun environment _ => ?_
  exact publishAsyncEvent_returns.endsAs ()

theorem emitInterventionEvent_endsAs {actionType : String} {elapsedMs : ℚ}
    {newModel : Option String} :
    Eff.EndsAs (fun _ => ()) (emitInterventionEvent g env request actionType elapsedMs entry
      newModel : InterceptM β Bool) request.interventionContext := by
  refine Eff.endsAs_lift_bind fun w _ => Eff.endsAs_ite (fun _ => Eff.endsAs_pure _ _) fun _ => ?_
  refine Eff.endsAs_lift_bind fun tenant _ => Eff.endsAs_lift_bind fun environment _ => ?_
  exact publishAsyncEvent_returns.endsAs ()

theorem serveActive_endsAs {headers : PyDict String String} :
    Eff.EndsAs answer (serveActive g env request entry violations headers :
      InterceptM β InterceptionResult) (serveActiveAnswer request entry violations headers) := by
  refine (Eff.returns_modify _).endsAs_bind fun _ => Eff.endsAs_ite (fun _ => ?_) fun _ => ?_
  · exact emitInterventionEvent_endsAs.bind fun _ => Eff.endsAs_pure _ _
  · exact Eff.endsAs_pure _ _

theorem redirectTo_endsAs {headers : PyDict String String} {altModel : String} :
    Eff.EndsAs answer (redirectTo g env request entry violations headers altModel :
      InterceptM β InterceptionResult)
      (redirectAnswer request entry violations headers altModel) :=
  (Eff.returns_modify _).endsAs_bind fun _ =>
    emitInterventionEvent_endsAs.bind fun _ => Eff.endsAs_pure _ _

theorem activeRouting_endsAs :
    Eff.EndsAs answer (activeRouting g env request entry violations :
      InterceptM β InterceptionResult) (activeAnswer g request entry violations) := by
  refine Eff.endsAs_lift_bind fun headers _ => Eff.endsAs_ite (fun _ => ?_) fun _ => ?_
  · exact emitInterventionEvent_endsAs.bind fun _ => Eff.endsAs_pure _ _
  · cases entry.approvedAlternatives with
    | nil => exact serveActive_endsAs
    | cons altModel rest =>
      exact Eff.endsAs_ite (fun _ => redirectTo_endsAs) fun _ => serveActive_endsAs

theorem timedOut_endsAs {workloadId : String} {elapsedMs : ℚ} {reason : FailOpenReason} :
    Eff.EndsAs answer (timedOut g env request workloadId entry elapsedMs reason :
      InterceptM β InterceptionResult) (timeoutAnswer g request entry reason) := by
  refine Eff.endsAs_lift_bind fun tenant _ => emitShadowEvent_returns.endsAs_bind fun _ => ?_
  exact Eff.endsAs_lift_bind fun headers _ => Eff.endsAs_pure _ _

theorem shadowRefresh_returns {workloadId : String} :
    Eff.Returns (shadowRefresh g env workloadId : InterceptM β Unit) :=
  Eff.returns_ite (Eff.returns_modify _) (Eff.returns_pure _)

theorem missed_endsAs {workloadId : String} :
    Eff.EndsAs answer (missed g env request workloadId : InterceptM β InterceptionResult)
      (do
        let _ ← request.resolveTenantId
        .ok (failOpenAnswer .failOpen .indexUnavailable)) := by
  refine (Eff.returns_modify _).endsAs_bind fun _ => shadowRefresh_returns.endsAs_bind fun _ => ?_
  refine Eff.endsAs_lift_bind fun tenant _ => ?_
  exact emitShadowEvent_returns.endsAs_bind fun _ => Eff.endsAs_pure _ _

theorem advise_endsAs {report : InterceptM β Unit} (hreport : Eff.Returns report) :
    Eff.EndsAs answer (advise g env request entry violations report)
      (adviseAnswer g request entry violations) := by
  refine Eff.endsAs_lift_bind fun headers _ => hreport.endsAs_bind fun _ => ?_
  exact (Eff.returns_modify _).endsAs_bind fun _ => Eff.endsAs_pure _ _

section Reported
variable (hsucc : Eff.Returns (onCircuit ops.recordSuccess))
include hsucc

theorem route_endsAs :
    Eff.EndsAs answer (route ops g env request entry violations)
      (routeAnswer g request entry violations) := by
  unfold route routeAnswer
  cases g.mode with
  | passive =>
    exact hsucc.endsAs_bind fun _ => (Eff.returns_modify _).endsAs_bind fun _ =>
      Eff.endsAs_pure _ _
  | advisory => exact advise_endsAs hsucc
  | active =>
    refine Eff.endsAs_lift_bind fun down _ => Eff.endsAs_ite (fun _ => ?_) fun _ => ?_
    · exact advise_endsAs (Eff.returns_pure _)
    · exact activeRouting_endsAs.afterwards hsucc

theorem enrich_endsAs {workloadId : String} :
    Eff.EndsAs answer (enrich ops g env request workloadId entry)
      (enrichAnswer g env request entry) := by
  refine Eff.endsAs_ite (fun _ => ?_) fun _ => ?_
  · exact (Eff.returns_modify _).endsAs_bind fun _ => timedOut_endsAs
  · refine Eff.endsAs_lift_bind fun violations _ => Eff.endsAs_ite (fun _ => ?_) fun _ => ?_
    · refine (Eff.returns_modify _).endsAs_bind fun _ => ?_
      exact emitPolicyEvaluationEvent_endsAs.bind fun _ => timedOut_endsAs
    · exact emitPolicyEvaluationEvent_endsAs.bind fun _ => route_endsAs hsucc

theorem admitted_endsAs :
    Eff.EndsAs answer (admitted ops g env request) (admittedAnswer g env request) := by
  refine Eff.endsAs_lift_bind fun workloadId _ => Eff.endsAs_ite (fun _ => ?_) fun _ => ?_
  · exact Eff.endsAs_pure _ _
  · refine Eff.endsAs_lift_bind fun found _ => ?_
    cases found with
    | none => exact missed_endsAs
    | some entry => exact enrich_endsAs hsucc

/-- The circuit is read once, before anything is decided. -/
theorem interceptInner_endsAs {refused : Bool} {s : Interceptor β}
    (hread : ∃ s', onCircuit ops.isOpen s = (.ok refused, s')) :
    (interceptInner ops g env request s).1.map answer = innerAnswer refused g env request := by
  obtain ⟨s', hopen⟩ := hread
  unfold interceptInner
  dsimp only
  rw [Eff.bind_of_ok hopen]
  unfold innerAnswer
  cases refused with
  | true => rfl
  | false => exact admitted_endsAs hsucc s'

end Reported

theorem failOpenResult_endsAs (hfail : Eff.Returns (onCircuit ops.recordFailure))
    (hmetrics : Eff.Returns (recordObservabilityMetrics ops .failed)) :
    Eff.EndsAs answer (failOpenResult ops g env request) (handlerAnswer request) := by
  refine (Eff.returns_modify _).endsAs_bind fun _ => hfail.endsAs_bind fun _ => ?_
  refine Eff.endsAs_lift_bind fun workloadId _ => ?_
  by_cases hblank : workloadId = ""
  · rw [failOpenResult.emitFailure, if_pos hblank, if_pos hblank]
    refine (Eff.returns_pure _).endsAs_bind fun _ => hmetrics.endsAs_bind fun _ => ?_
    exact Eff.endsAs_pure _ _
  · rw [failOpenResult.emitFailure, if_neg hblank, if_neg hblank]
    cases request.resolveTenantId with
    | error e => exact fun _ => rfl
    | ok tenantId =>
      rw [Eff.lift_ok_bind]
      refine emitShadowEvent_returns.endsAs_bind fun _ => hmetrics.endsAs_bind fun _ => ?_
      exact Eff.endsAs_pure _ _

end

/-! ### Over a store that raises at most `RedisError` -/

/-- What the circuit says of a call over the store: whether it refuses. -/
def StoreCalls.refuses (calls : StoreCalls) (cfg : BreakerConfig)
    (s : Interceptor CircuitBreakerState) : Bool :=
  ((if calls.gate.redisError then s.circuit else calls.gate.found).isOpen cfg calls.gate.now).1

/-- The in-process circuit, as a store whose calls all fall back on the copy. -/
def WallTimes.storeCalls (t : WallTimes) : StoreCalls where
  gate := ⟨{}, t.gate, 0, true⟩
  report := ⟨{}, t.report, 0, true⟩
  failure := ⟨{}, t.failure, t.stamp, true⟩
  metrics := fun pass => ⟨{}, t.observed pass, 0, true⟩

/-- What holds over every store holds over the in-process circuit. -/
theorem localOps_eq_storeOps (cfg : BreakerConfig) (t : WallTimes) :
    localOps cfg t = storeOps cfg t.storeCalls := rfl

/-- Counting the request does not change what the circuit says. -/
theorem isOpen_counted (g : Gateway) (calls : StoreCalls) (s : Interceptor CircuitBreakerState) :
    ∃ s', onCircuit (storeOps g.breaker calls).isOpen
      { s with totals := { s.totals with requests := s.totals.requests + 1 } } =
        (.ok (calls.refuses g.breaker s), s') :=
  ⟨_, rfl⟩

/-- **Every call ends as its answer.** -/
theorem intercept_endsAs (g : Gateway) (calls : StoreCalls) (env : CallEnv)
    (request : InterceptionRequest) (s : Interceptor CircuitBreakerState) :
    (intercept (storeOps g.breaker calls) g env request s).1.map InterceptionResult.answer =
      interceptAnswer (calls.refuses g.breaker s) g env request := by
  have hsucc : Eff.Returns (onCircuit (storeOps g.breaker calls).recordSuccess) :=
    calls.report.safeMutate_returns _
  have hfail : Eff.Returns (onCircuit (storeOps g.breaker calls).recordFailure) :=
    calls.failure.safeMutate_returns _
  have hmetrics := storeOps_metrics_returns g.breaker calls
  -- the state after the request is counted
  have hread := isOpen_counted g calls s
  generalize hs₁ : ({ s with totals := { s.totals with requests := s.totals.requests + 1 } } :
    Interceptor CircuitBreakerState) = s₁ at hread
  have hinner : (interceptInner (storeOps g.breaker calls) g env request s₁).1.map
      InterceptionResult.answer = innerAnswer (calls.refuses g.breaker s) g env request :=
    interceptInner_endsAs hsucc hread
  have hcounted : ∀ x : InterceptM CircuitBreakerState InterceptionResult,
      (count (fun t => { t with requests := t.requests + 1 }) >>= fun _ => x) s = x s₁ := by
    intro x
    rw [← hs₁]
    rfl
  unfold intercept interceptAnswer
  rw [hcounted, ← hinner]
  unfold Eff.catching
  -- the metrics are recorded on both exits, and never raise
  match hrun : interceptInner (storeOps g.breaker calls) g env request s₁ with
  | (.ok r, s₂) =>
    obtain ⟨_, s₃, hrun'⟩ := hmetrics .answered s₂
    rw [Eff.bind_of_ok hrun, Eff.bind_of_ok hrun']
    rfl
  | (.error e, s₂) =>
    rw [Eff.bind_of_error hrun]
    exact failOpenResult_endsAs hfail (hmetrics .failed) s₂

variable {g : Gateway} {calls : StoreCalls} {env : CallEnv} {request : InterceptionRequest}
  {s s' : Interceptor CircuitBreakerState} {r : InterceptionResult} {a : Answer}

theorem answer_of_run (h : intercept (storeOps g.breaker calls) g env request s = (.ok r, s')) :
    interceptAnswer (calls.refuses g.breaker s) g env request = .ok r.answer := by
  rw [← intercept_endsAs, h]
  rfl

theorem run_of_answer
    (h : interceptAnswer (calls.refuses g.breaker s) g env request = .ok a) :
    ∃ r s', intercept (storeOps g.breaker calls) g env request s = (.ok r, s') ∧ r.answer = a := by
  rw [← intercept_endsAs] at h
  match hrun : intercept (storeOps g.breaker calls) g env request s with
  | (.error e, s') =>
    rw [hrun] at h
    cases h
  | (.ok r, s') =>
    rw [hrun] at h
    exact ⟨r, s', rfl, Except.ok.inj h⟩

/-- A run whose result has what can be read off the answer. -/
theorem run_of_map_answer {α : Type} {f : Answer → α} {x : α}
    (h : (interceptAnswer (calls.refuses g.breaker s) g env request).toOption.map f = some x) :
    ∃ r s', intercept (storeOps g.breaker calls) g env request s = (.ok r, s') ∧
      f r.answer = x := by
  cases ha : interceptAnswer (calls.refuses g.breaker s) g env request with
  | error e =>
    rw [ha] at h
    cases h
  | ok a =>
    rw [ha] at h
    obtain ⟨r, s', hrun, rfl⟩ := run_of_answer ha
    exact ⟨r, s', hrun, Option.some.inj h⟩

/-- What the answer does not have, not every result has. -/
theorem not_forall_of_answer {P : Answer → Prop} [DecidablePred P]
    (h : (interceptAnswer (calls.refuses g.breaker s) g env request).toOption.map
      (fun a => decide (P a)) = some false) :
    ¬ ∀ r s', intercept (storeOps g.breaker calls) g env request s = (.ok r, s') →
      P r.answer := by
  intro hall
  obtain ⟨r, s', hrun, hfalse⟩ := run_of_map_answer h
  exact of_decide_eq_false hfalse (hall r s' hrun)

end ComputeIntelligence
