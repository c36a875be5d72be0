import ComputeIntelligence.CircuitBreaker
import ComputeIntelligence.Gateway
import ComputeIntelligence.GuardedRuns

/-! # Runs of the interceptor, and the half-open circuit

Completed `intercept` calls one after the other, on an interceptor whose circuit state
is in the process (`LocalCircuitStateStore`).  A call comes with its mode, its request,
what it meets, and its readings of the wall clock, which does not go back.

In HALF_OPEN every call that `is_open` lets through takes a probe slot, and nothing but
a report gives it back.  Five exits of the pipeline do not report (`Silent`).  Once the
slots are gone the circuit is stuck: every later call is refused
(`InterceptRun.wedged_forever`).

If every probe reports, the circuit never gets there, and from every state it reaches
some requests close it (`InterceptRun.neverWedged_of_probesReport`).
-/
namespace ComputeIntelligence
open CircuitBreakerState

/-- The readings of `time.time()` one call makes, in the order it makes them. -/
structure WallTimes where
  gate : ℚ
  report : ℚ
  observe : ℚ
  failure : ℚ
  stamp : ℚ
  observeFailure : ℚ

/-- Every reading at the same instant. -/
def WallTimes.const (t : ℚ) : WallTimes := ⟨t, t, t, t, t, t⟩

/-- The readings do not go back. -/
structure WallTimes.Ordered (t : WallTimes) : Prop where
  report : t.gate ≤ t.report
  observe : t.report ≤ t.observe
  failure : t.observe ≤ t.failure
  stamp : t.failure ≤ t.stamp
  observeFailure : t.stamp ≤ t.observeFailure

/-- When the metrics read the state. -/
def WallTimes.observed (t : WallTimes) : MetricsPass → ℚ
  | .answered => t.observe
  | .failed => t.observeFailure

/-- The circuit breaker over its in-process state. -/
def localOps (cfg : BreakerConfig) (t : WallTimes) : CircuitOps CircuitBreakerState where
  isOpen := fun s => (.ok (s.isOpen cfg t.gate).1, (s.isOpen cfg t.gate).2)
  recordSuccess := fun s => (.ok (), s.recordSuccess cfg t.report)
  recordFailure := fun s => (.ok (), s.recordFailure cfg t.failure t.stamp)
  state := fun pass s =>
    (.ok (.str (s.transition cfg (t.observed pass)).state.value), s.transition cfg (t.observed pass))

/-- The breaker an interceptor builds: the number of probes keeps its default. -/
def Gateway.breaker (g : Gateway) : BreakerConfig where
  failureThreshold := g.config.circuitBreakerThreshold
  resetTimeoutS := g.config.circuitBreakerResetS

/-- One `intercept` call. -/
structure InterceptCall where
  mode : DeploymentMode
  request : InterceptionRequest
  env : CallEnv
  times : WallTimes

/-- An interceptor between two calls. -/
structure InterceptRun where
  interceptor : Interceptor CircuitBreakerState := { circuit := {} }
  clock : ℚ := 0
  /-- What the latest call returned. -/
  answer : Option InterceptionResult := none

namespace InterceptRun

/-- The circuit between two calls. -/
def circuit (s : InterceptRun) : CircuitBreakerState := s.interceptor.circuit

/-- The gateway in the mode of the call. -/
def gateway (g : Gateway) (c : InterceptCall) : Gateway := { g with mode := c.mode }

/-- The call, and the interceptor it leaves. -/
def answerTo (g : Gateway) (s : InterceptRun) (c : InterceptCall) :
    Except PyExn InterceptionResult × Interceptor CircuitBreakerState :=
  intercept (localOps g.breaker c.times) (gateway g c) c.env c.request s.interceptor

/-- One completed call. -/
def step (g : Gateway) (s : InterceptRun) (c : InterceptCall) : InterceptRun where
  interceptor := (answerTo g s c).2
  clock := c.times.observeFailure
  answer := (answerTo g s c).1.toOption

/-- The clock does not go back. -/
def Valid (s : InterceptRun) (c : InterceptCall) : Prop := s.clock ≤ c.times.gate ∧ c.times.Ordered

/-- A half-open circuit has a free probe slot. -/
def NotWedged (g : Gateway) (s : InterceptRun) : Prop :=
  s.circuit.state = .halfOpen → s.circuit.halfOpenProbeCount < g.breaker.halfOpenMaxProbes

/-- The continuation closes the circuit: its calls are valid and all in one mode, the
last answer does not fail open, and the circuit is closed. -/
def ClosedBy (g : Gateway) (mode : DeploymentMode) (s : InterceptRun)
    (more : List InterceptCall) : Prop :=
  Run.Guarded (step g) Valid s more ∧ (∀ c ∈ more, c.mode = mode) ∧
    (Run.exec (step g) s more).circuit.state = .closed ∧
    ∃ r, (Run.exec (step g) s more).answer = some r ∧ r.outcome.failsOpen = false

/-- In every mode, some finite, nonempty continuation closes the circuit. -/
def Recovers (g : Gateway) (s : InterceptRun) : Prop :=
  ∀ mode, ∃ c more, ClosedBy g mode s (c :: more)

/-- **A half-open circuit is never wedged**, along the run, and closes again. -/
def NeverWedged (g : Gateway) (s : InterceptRun) (run : List InterceptCall) : Prop :=
  Run.Always (step g) (fun s => s.NotWedged g ∧ s.Recovers g) s run

/-- The call is let through as a probe: it finds the circuit half-open with a slot. -/
def IsProbe (g : Gateway) (s : InterceptRun) (c : InterceptCall) : Prop :=
  (s.circuit.transition g.breaker c.times.gate).state = .halfOpen ∧
    (s.circuit.transition g.breaker c.times.gate).halfOpenProbeCount < g.breaker.halfOpenMaxProbes

/-- If the call is a probe, it does not leave by a silent exit. -/
def ProbeReports (g : Gateway) (s : InterceptRun) (c : InterceptCall) : Prop :=
  s.IsProbe g c → ¬ Silent (gateway g c) c.env c.request

/-! ### What one call does to the circuit -/

variable {g : Gateway} {s : InterceptRun} {c : InterceptCall}

/-- What a call can make of the circuit `b`: it is refused, it reports a success, it
leaves by a silent exit, or it fails; a failing call whose handler raises leaves before
the metrics are recorded. -/
inductive Effect (cfg : BreakerConfig) (t : WallTimes) (silent : Prop) (b : CircuitBreakerState) :
    CircuitBreakerState → Prop
  | refused : (b.isOpen cfg t.gate).1 = true →
      Effect cfg t silent b ((b.isOpen cfg t.gate).2.transition cfg t.observe)
  | succeeded : (b.isOpen cfg t.gate).1 = false →
      Effect cfg t silent b
        (((b.isOpen cfg t.gate).2.recordSuccess cfg t.report).transition cfg t.observe)
  | silent : (b.isOpen cfg t.gate).1 = false → silent →
      Effect cfg t silent b ((b.isOpen cfg t.gate).2.transition cfg t.observe)
  | failed : (b.isOpen cfg t.gate).1 = false →
      Effect cfg t silent b
        (((b.isOpen cfg t.gate).2.recordFailure cfg t.failure t.stamp).transition cfg
          t.observeFailure)
  | raised : (b.isOpen cfg t.gate).1 = false →
      Effect cfg t silent b ((b.isOpen cfg t.gate).2.recordFailure cfg t.failure t.stamp)

section Specs
variable (cfg : BreakerConfig) (t : WallTimes) (env : CallEnv) (request : InterceptionRequest)

/-- Recording the metrics reads the circuit once more, and never raises here. -/
theorem metrics_spec (pass : MetricsPass) (I : CircuitBreakerState → Prop) :
    Eff.Spec (fun s : Interceptor CircuitBreakerState => I (s.circuit.transition cfg (t.observed pass)))
      (recordObservabilityMetrics (localOps cfg t) pass) (fun _ s => I s.circuit)
      (fun _ _ => False) := by
  intro s hs
  cases hst : (s.circuit.transition cfg (t.observed pass)).state <;>
    simpa [recordObservabilityMetrics, onCircuit, Eff.zoom, localOps, hst, CircuitState.value, bind,
      pure, Eff.lift, stateGauge] using hs

/-- The handler records a failure. -/
theorem failOpenResult_spec (b : CircuitBreakerState) :
    Eff.Spec (fun s : Interceptor CircuitBreakerState => s.circuit = b)
      (failOpenResult (localOps cfg t) g env request)
      (fun _ s => s.circuit = (b.recordFailure cfg t.failure t.stamp).transition cfg t.observeFailure)
      (fun _ s => s.circuit = b.recordFailure cfg t.failure t.stamp) := by
  have hfail : Eff.Spec (fun s : Interceptor CircuitBreakerState => s.circuit = b)
      (onCircuit (localOps cfg t).recordFailure)
      (fun _ s => s.circuit = b.recordFailure cfg t.failure t.stamp)
      (fun _ s => s.circuit = b.recordFailure cfg t.failure t.stamp) := by
    intro s hs
    simp only [onCircuit, Eff.zoom, localOps, hs, Eff.ends_ok]
  refine Eff.Spec.bind (Q := fun _ s => s.circuit = b) (Eff.spec_modify fun _ h => h) fun _ => ?_
  refine hfail.bind fun _ => Eff.spec_lift_bind (fun workloadId _ => ?_) (fun _ _ _ h => h)
  refine (Eff.Frames.spec (I := fun c => c = b.recordFailure cfg t.failure t.stamp)
    emitFailure_keepsCircuit).bind fun logged => ?_
  refine ((metrics_spec cfg t .failed
    (fun c => c = (b.recordFailure cfg t.failure t.stamp).transition cfg t.observeFailure)).weaken
    (fun s h => ?_) (fun _ _ h => h) (fun _ _ h => h.elim)).bind fun _ => Eff.spec_pure fun _ h => h
  rw [show s.circuit = _ from h]
  rfl

/-- **What one call can make of the circuit.** -/
theorem intercept_effect (b : CircuitBreakerState) :
    Eff.Spec (fun s : Interceptor CircuitBreakerState => s.circuit = b)
      (intercept (localOps cfg t) g env request)
      (fun _ s => Effect cfg t (Silent g env request) b s.circuit)
      (fun _ s => Effect cfg t (Silent g env request) b s.circuit) := by
  -- the circuit once the inner pipeline has answered, before the metrics are read
  let Answered (c : CircuitBreakerState) : Prop :=
    Effect cfg t (Silent g env request) b (c.transition cfg t.observe)
  have hadmitted : (b.isOpen cfg t.gate).1 = false →
      Eff.Spec (fun s : Interceptor CircuitBreakerState => s.circuit = (b.isOpen cfg t.gate).2)
        (admitted (localOps cfg t) g env
          { request with headers := sanitizeRequestHeaders request.headers })
        (fun _ s => Answered s.circuit)
        (fun _ s => (b.isOpen cfg t.gate).1 = false ∧ s.circuit = (b.isOpen cfg t.gate).2) := by
    intro hlet
    refine (admitted_reports (I := fun c => c = (b.isOpen cfg t.gate).2)
      (J := fun c => c = (b.isOpen cfg t.gate).2.recordSuccess cfg t.report) ?_).weaken
      (fun _ h => h) (fun _ s h => ?_) (fun _ _ h => ⟨hlet, h⟩)
    · intro c hc
      simp only [localOps, hc, Eff.ends_ok]
    · rcases h with h | ⟨hsilent, h⟩
      · rw [show s.circuit = _ from h]
        exact .succeeded hlet
      · rw [show s.circuit = _ from h]
        exact .silent hlet hsilent
  have hinner : Eff.Spec (fun s : Interceptor CircuitBreakerState => s.circuit = b)
      (interceptInner (localOps cfg t) g env request) (fun _ s => Answered s.circuit)
      (fun _ s => (b.isOpen cfg t.gate).1 = false ∧ s.circuit = (b.isOpen cfg t.gate).2) := by
    refine Eff.Spec.bind (Q := fun refused s =>
      refused = (b.isOpen cfg t.gate).1 ∧ s.circuit = (b.isOpen cfg t.gate).2) ?_ fun refused => ?_
    · intro s hs
      simp only [onCircuit, Eff.zoom, localOps, hs, Eff.ends_ok, and_self]
    · refine Eff.spec_ite (fun hr => ?_) fun hr => ?_
      · refine Eff.Spec.bind (Q := fun _ s => Answered s.circuit)
          (Eff.spec_modify fun s hs => ?_) fun _ => Eff.spec_pure fun _ h => h
        change Answered s.circuit
        rw [hs.2]
        exact .refused (by rw [← hs.1, hr])
      · intro s hs
        have hlet : (b.isOpen cfg t.gate).1 = false := by
          rw [← hs.1]
          exact Bool.eq_false_iff.mpr hr
        exact hadmitted hlet s hs.2
  refine Eff.Spec.bind (Q := fun _ s => s.circuit = b) (Eff.spec_modify fun _ h => h) fun _ => ?_
  refine Eff.Spec.catching (R := fun _ s =>
      (b.isOpen cfg t.gate).1 = false ∧ s.circuit = (b.isOpen cfg t.gate).2)
    (hinner.bind fun result => ?_) fun _ => ?_
  · refine ((metrics_spec cfg t .answered
      (fun c => Effect cfg t (Silent g env request) b c)).weaken (fun _ h => h) (fun _ _ h => h)
      (fun _ _ h => h.elim)).bind fun _ => Eff.spec_pure fun _ h => h
  · intro s hs
    refine (failOpenResult_spec cfg t env request (b.isOpen cfg t.gate).2).weaken
      (fun s (h : s.circuit = _) => h) (fun _ s h => ?_) (fun _ s h => ?_) s hs.2
    · rw [show s.circuit = _ from h]
      exact .failed hs.1
    · rw [show s.circuit = _ from h]
      exact .raised hs.1

end Specs

theorem step_effect (g : Gateway) (s : InterceptRun) (c : InterceptCall) :
    Effect g.breaker c.times (Silent (gateway g c) c.env c.request) s.circuit
      (step g s c).circuit := by
  have h := intercept_effect g.breaker c.times c.env c.request (g := gateway g c) s.circuit
    s.interceptor rfl
  unfold circuit step answerTo
  match hx : intercept (localOps g.breaker c.times) (gateway g c) c.env c.request s.interceptor with
  | (.ok r, s') =>
    rw [hx] at h
    exact h
  | (.error e, s') =>
    rw [hx] at h
    exact h

/-! ### The invariant -/

/-- In HALF_OPEN every probe taken has reported a success, and one more is needed. -/
def Balanced (cfg : BreakerConfig) (b : CircuitBreakerState) : Prop :=
  b.state = .halfOpen → b.halfOpenProbeCount = b.halfOpenSuccessCount ∧
    b.halfOpenSuccessCount < cfg.halfOpenMaxProbes

variable {cfg : BreakerConfig} {b : CircuitBreakerState}

theorem balanced_of_ne (h : b.state ≠ .halfOpen) : Balanced cfg b := fun hh => absurd hh h

/-- A circuit that half-opens has taken no probe. -/
theorem Balanced.transition (hmax : 0 < cfg.halfOpenMaxProbes) (h : Balanced cfg b) (now : ℚ) :
    Balanced cfg (b.transition cfg now) := by
  rcases transition_cases cfg now b with ⟨heq, -⟩ | ⟨-, -, heq⟩
  · rwa [heq]
  · rw [heq]
    exact fun _ => ⟨rfl, hmax⟩

/-- A success gives the probe's slot back, or closes the circuit. -/
theorem Balanced.recordSuccess {now : ℚ} (h : Balanced cfg (b.transition cfg now))
    (hlet : (b.isOpen cfg now).1 = false) (report : ℚ) :
    Balanced cfg ((b.isOpen cfg now).2.recordSuccess cfg report) := by
  rcases isOpen_recordSuccess hlet report with hclosed | ⟨hhalf, hmore, heq⟩
  · exact balanced_of_ne (by rw [hclosed]; decide)
  · rw [heq]
    exact fun _ => ⟨congrArg (· + 1) (h hhalf).1, hmore⟩

theorem recordFailure_balanced (now stamp : ℚ) : Balanced cfg (b.recordFailure cfg now stamp) := by
  refine balanced_of_ne ?_
  have hstate : (b.recordFailure cfg now stamp).state = .opened ∨ _ := recordFailure_state
  rcases hstate with h | ⟨h, -⟩
  · rw [h]
    decide
  · rw [h]
    decide

/-- A call keeps the balance if, as a probe, it is not silent. -/
theorem Balanced.effect {t : WallTimes} {silent : Prop} {b' : CircuitBreakerState}
    (hmax : 0 < cfg.halfOpenMaxProbes) (h : Balanced cfg b) (he : Effect cfg t silent b b')
    (hprobe : (b.transition cfg t.gate).state = .halfOpen ∧
      (b.transition cfg t.gate).halfOpenProbeCount < cfg.halfOpenMaxProbes → ¬ silent) :
    Balanced cfg b' := by
  have h₀ := h.transition hmax t.gate
  cases he with
  | refused href =>
    refine Balanced.transition hmax ?_ _
    obtain ⟨hopen | ⟨hhalf, hfull⟩, heq⟩ := isOpen_eq_true href
    · rw [heq]
      exact balanced_of_ne (by rw [hopen]; decide)
    · obtain ⟨hcount, hless⟩ := h₀ hhalf
      rw [hcount] at hfull
      exact absurd hless (not_lt.mpr hfull)
  | succeeded hlet => exact (h₀.recordSuccess hlet _).transition hmax _
  | silent hlet hs =>
    rcases isOpen_eq_false hlet with ⟨hclosed, heq⟩ | ⟨hhalf, hslot, -⟩
    · rw [heq]
      exact h₀.transition hmax _
    · exact absurd hs (hprobe ⟨hhalf, hslot⟩)
  | failed _ => exact (recordFailure_balanced _ _).transition hmax _
  | raised _ => exact recordFailure_balanced _ _

theorem breaker_maxProbes_pos (g : Gateway) : 0 < g.breaker.halfOpenMaxProbes := by
  change (0 : Int) < 3
  decide

/-- The step lemma: a call whose probe reports keeps the balance. -/
theorem balanced_step (h : Balanced g.breaker s.circuit) (hp : s.ProbeReports g c) :
    Balanced g.breaker (step g s c).circuit :=
  h.effect (breaker_maxProbes_pos g) (step_effect g s c) hp

theorem Balanced.notWedged (h : Balanced g.breaker s.circuit) : s.NotWedged g := by
  intro hhalf
  obtain ⟨hcount, hless⟩ := h hhalf
  rwa [hcount]

/-! ### A request that is served in every mode -/

/-- An entry with full confidence and no constraint. -/
def servedEntry : AttributionIndexEntry where
  workloadId := "svc"
  teamId := "team"
  teamName := "Team"
  costCenterId := "cc"
  confidence := fullScore
  confidenceTier := "chargeback_ready"
  methodUsed := "R1"
  materializedAt := 0

/-- A development request for it. -/
def servedRequest : InterceptionRequest where
  requestId := "r"
  model := "m"
  workloadId := "svc"
  metadata := PyDict.ofList [("environment", .str "dev")]

/-- The index answers at once. -/
def servedEnv : CallEnv where
  monotonic := fun _ => 0
  lookup := fun _ => .ok (some servedEntry)
  draw := 1
  eventId := fun _ => "e"
  now := fun _ => AwareDateTime.utc 0
  publish := fun _ => .returned true

/-- The request, all of it at time `t`. -/
def servedCall (mode : DeploymentMode) (t : ℚ) : InterceptCall :=
  ⟨mode, servedRequest, servedEnv, .const t⟩

theorem servedRequest_workload : servedRequest.resolveWorkloadId = .ok "svc" := by decide +kernel

theorem servedRequest_tenant : servedRequest.resolveTenantId = .ok "" := by decide +kernel

theorem servedRequest_environment : servedRequest.metaStr "environment" = .ok "dev" := by
  decide +kernel

theorem served_policies : evaluatePolicies servedRequest servedEntry = .ok [] := by decide +kernel

theorem served_headers (config : InterceptorConfig) :
    ∃ headers, buildEnrichmentHeaders config servedRequest servedEntry [] = .ok headers := by
  have hsnap : servedRequest.metaStr "price_snapshot_id" = .ok "" := by decide +kernel
  unfold buildEnrichmentHeaders addPriceSnapshot
  rw [hsnap]
  exact ⟨_, rfl⟩

theorem served_notDowngraded (g : Gateway) : downgraded g servedRequest servedEntry = .ok false := by
  have hdown : servedRequest.shouldDowngrade = .ok false := by decide +kernel
  have hconf : ¬ servedEntry.confidence.1 < g.config.activeLiteMinConfidence :=
    not_lt.mpr g.config.minConfidence_unit.2
  unfold downgraded
  rw [if_neg hconf, hdown]

theorem served_inTime (hbudget : 2 < g.config.timeoutMs) :
    servedEnv.lookupTimedOut g.config = false ∧ servedEnv.policyTimedOut g.config = false := by
  have hb : (2 : ℚ) < g.config.timeoutMs := by exact_mod_cast hbudget
  have hp : (0 : ℚ) < g.config.policyTimeoutMs := by exact_mod_cast g.config.policyTimeout_pos
  refine ⟨decide_eq_false fun h => ?_, decide_eq_false fun h => ?_⟩
  · simp only [CallEnv.elapsedMs, servedEnv] at h
    linarith
  · simp only [servedEnv] at h
    linarith

section Served
variable {t : WallTimes}

/-- The circuit after the success of a request that found it as `b`. -/
def Served (cfg : BreakerConfig) (t : WallTimes) (b : CircuitBreakerState) (r : InterceptionResult)
    (s : Interceptor CircuitBreakerState) : Prop :=
  r.outcome.failsOpen = false ∧ s.circuit = b.recordSuccess cfg t.report

theorem reportSuccess_spec (b : CircuitBreakerState) {R : PyExn → Interceptor CircuitBreakerState → Prop} :
    Eff.Spec (fun s : Interceptor CircuitBreakerState => s.circuit = b)
      (onCircuit (localOps cfg t).recordSuccess)
      (fun _ s => s.circuit = b.recordSuccess cfg t.report) R := by
  intro s hs
  simp only [onCircuit, Eff.zoom, localOps, hs, Eff.ends_ok]

theorem route_served (b : CircuitBreakerState) :
    Eff.Spec (fun s : Interceptor CircuitBreakerState => s.circuit = b)
      (route (localOps cfg t) g servedEnv servedRequest servedEntry []) (Served cfg t b)
      (fun _ _ => False) := by
  obtain ⟨headers, hheaders⟩ := served_headers g.config
  have hcount : ∀ f b', Eff.Spec (fun s : Interceptor CircuitBreakerState => s.circuit = b')
      (count f) (fun _ s => s.circuit = b') (fun _ _ => False) := fun f b' =>
    Eff.spec_modify fun _ h => h
  unfold route
  cases g.mode with
  | passive =>
    exact (reportSuccess_spec b).bind fun _ => (hcount _ _).bind fun _ =>
      Eff.spec_pure fun _ h => ⟨rfl, h⟩
  | advisory =>
    unfold advise
    rw [hheaders, Eff.lift_ok_bind]
    exact (reportSuccess_spec b).bind fun _ => (hcount _ _).bind fun _ =>
      Eff.spec_pure fun _ h => ⟨rfl, h⟩
  | active =>
    have hserve : Eff.Spec (fun s : Interceptor CircuitBreakerState => s.circuit = b)
        (activeRouting g servedEnv servedRequest servedEntry [])
        (fun r s => r.outcome.failsOpen = false ∧ s.circuit = b) (fun _ _ => False) := by
      unfold activeRouting
      rw [hheaders, Eff.lift_ok_bind]
      exact (hcount _ b).bind fun _ => Eff.spec_pure fun _ h => ⟨rfl, h⟩
    rw [served_notDowngraded, Eff.lift_ok_bind]
    refine hserve.bind fun result s hs => ?_
    refine Eff.Spec.bind (R := fun _ _ => False) (reportSuccess_spec b)
      (fun _ => Eff.spec_pure ?_) s hs.2
    exact fun _ h => ⟨hs.1, h⟩

/-- The request is served and reports its success, whatever the mode. -/
theorem admitted_served (hbudget : 2 < g.config.timeoutMs) (b : CircuitBreakerState) :
    Eff.Spec (fun s : Interceptor CircuitBreakerState => s.circuit = b)
      (admitted (localOps cfg t) g servedEnv servedRequest) (Served cfg t b)
      (fun _ _ => False) := by
  obtain ⟨hlookup, hpolicy⟩ := served_inTime hbudget
  have hemit : Eff.Returns (emitPolicyEvaluationEvent g servedEnv servedRequest "svc" []
      (servedEnv.elapsedMs .policyEvent) false : InterceptM CircuitBreakerState Bool) :=
    (Eff.returns_lift servedRequest_tenant).bind fun _ =>
      (Eff.returns_lift servedRequest_environment).bind fun _ => publishAsyncEvent_returns
  unfold admitted
  rw [servedRequest_workload, Eff.lift_ok_bind, if_neg (by decide)]
  change Eff.Spec _ (enrich (localOps cfg t) g servedEnv servedRequest "svc" servedEntry) _ _
  unfold enrich
  rw [hlookup, if_neg (by decide), served_policies, Eff.lift_ok_bind, hpolicy, if_neg (by decide)]
  exact (hemit.spec (I := fun c => c = b) emitPolicyEvaluationEvent_keepsCircuit).bind fun _ =>
    route_served b

theorem servedRequest_sanitized :
    { servedRequest with headers := sanitizeRequestHeaders servedRequest.headers } =
      servedRequest := rfl

/-- The whole pipeline, if the circuit lets the request through. -/
theorem inner_served (hbudget : 2 < g.config.timeoutMs) (b : CircuitBreakerState)
    (hlet : (b.isOpen cfg t.gate).1 = false) :
    Eff.Spec (fun s : Interceptor CircuitBreakerState => s.circuit = b)
      (interceptInner (localOps cfg t) g servedEnv servedRequest)
      (Served cfg t (b.isOpen cfg t.gate).2) (fun _ _ => False) := by
  unfold interceptInner
  simp only [servedRequest_sanitized]
  refine Eff.Spec.bind
    (Q := fun refused s => refused = false ∧ s.circuit = (b.isOpen cfg t.gate).2) ?_
    fun refused => Eff.spec_ite (fun hr s hs => ?_) fun _ => ?_
  · intro s hs
    simp only [onCircuit, Eff.zoom, localOps, hs, Eff.ends_ok]
    exact ⟨hlet, trivial⟩
  · rw [hr] at hs
    exact absurd hs.1 (by decide)
  · exact (admitted_served hbudget _).weaken (fun _ h => h.2) (fun _ _ h => h) (fun _ _ h => h)

theorem intercept_served (hbudget : 2 < g.config.timeoutMs) (b : CircuitBreakerState)
    (hlet : (b.isOpen cfg t.gate).1 = false) :
    Eff.Spec (fun s : Interceptor CircuitBreakerState => s.circuit = b)
      (intercept (localOps cfg t) g servedEnv servedRequest)
      (fun r s => r.outcome.failsOpen = false ∧ s.circuit =
        ((b.isOpen cfg t.gate).2.recordSuccess cfg t.report).transition cfg t.observe)
      (fun _ _ => False) := by
  refine Eff.Spec.bind (Q := fun _ s => s.circuit = b) (Eff.spec_modify fun _ h => h) fun _ => ?_
  refine Eff.Spec.catching (R := fun _ _ => False) ?_ fun _ _ h => h.elim
  refine (inner_served hbudget b hlet).bind fun r s hs => ?_
  refine (Eff.Spec.bind (metrics_spec cfg t .answered
    (fun c => c = ((b.isOpen cfg t.gate).2.recordSuccess cfg t.report).transition cfg t.observe))
    fun _ => Eff.spec_pure fun _ h => ⟨hs.1, h⟩) s ?_
  beta_reduce
  rw [hs.2]
  rfl

/-- **Serving a request**: let through at time `now`, it is answered without failing
open and leaves its success in the circuit. -/
theorem step_served (hbudget : 2 < g.config.timeoutMs) (mode : DeploymentMode) (now : ℚ)
    (hlet : (s.circuit.isOpen g.breaker now).1 = false) :
    (step g s (servedCall mode now)).circuit =
        ((s.circuit.isOpen g.breaker now).2.recordSuccess g.breaker now).transition g.breaker now ∧
      ∃ r, (step g s (servedCall mode now)).answer = some r ∧ r.outcome.failsOpen = false := by
  have hspec := intercept_served (g := gateway g (servedCall mode now)) (t := .const now)
    hbudget s.circuit hlet s.interceptor rfl
  change ((answerTo g s (servedCall mode now)).2).circuit = _ ∧
    ∃ r, (answerTo g s (servedCall mode now)).1.toOption = some r ∧ _
  match hx : answerTo g s (servedCall mode now) with
  | (.ok r, i) =>
    unfold answerTo at hx
    simp only [servedCall] at hx hspec
    rw [hx] at hspec
    exact ⟨hspec.2, r, rfl, hspec.1⟩
  | (.error e, i) =>
    unfold answerTo at hx
    simp only [servedCall] at hx hspec
    rw [hx] at hspec
    exact hspec.elim

end Served

/-! ### Recovery -/

theorem servedCall_valid {now : ℚ} (mode : DeploymentMode) (h : s.clock ≤ now) :
    s.Valid (servedCall mode now) :=
  ⟨h, le_rfl, le_rfl, le_rfl, le_rfl, le_rfl⟩

/-- Serving a request closes the circuit, or leaves it half-open and balanced with one
more success. -/
theorem step_served_progress (hbudget : 2 < g.config.timeoutMs) (mode : DeploymentMode) {now : ℚ}
    (hbal : Balanced g.breaker (s.circuit.transition g.breaker now))
    (hopen : (s.circuit.transition g.breaker now).state ≠ .opened) :
    ((step g s (servedCall mode now)).circuit.state = .closed ∨
      (step g s (servedCall mode now)).circuit.state = .halfOpen ∧
        Balanced g.breaker (step g s (servedCall mode now)).circuit ∧
        (step g s (servedCall mode now)).circuit.halfOpenSuccessCount =
          (s.circuit.transition g.breaker now).halfOpenSuccessCount + 1) ∧
      ∃ r, (step g s (servedCall mode now)).answer = some r ∧ r.outcome.failsOpen = false := by
  have hlet : (s.circuit.isOpen g.breaker now).1 = false := by
    by_contra href
    obtain ⟨ho | ⟨hhalf, hfull⟩, -⟩ := isOpen_eq_true (Bool.not_eq_false _ ▸ href)
    · exact hopen ho
    · obtain ⟨hcount, hless⟩ := hbal hhalf
      exact absurd hless (not_lt.mpr (hcount ▸ hfull))
  obtain ⟨hcirc, hserved⟩ := step_served hbudget mode now hlet
  refine ⟨?_, hserved⟩
  have hbal' := hbal.recordSuccess hlet now
  rcases isOpen_recordSuccess hlet now with hclosed | ⟨hhalf, -, heq⟩
  · rw [hcirc, transition_of_ne (by rw [hclosed]; decide)]
    exact .inl hclosed
  · have hstate : ((s.circuit.isOpen g.breaker now).2.recordSuccess g.breaker now).state =
        .halfOpen := by
      rw [heq]
      exact hhalf
    rw [hcirc, transition_of_ne (by rw [hstate]; decide)]
    exact .inr ⟨hstate, hbal', by rw [heq]⟩

theorem closedBy_nil {mode : DeploymentMode} (hclosed : s.circuit.state = .closed)
    (hserved : ∃ r, s.answer = some r ∧ r.outcome.failsOpen = false) : ClosedBy g mode s [] :=
  ⟨trivial, fun _ h => absurd h List.not_mem_nil, hclosed, hserved⟩

theorem closedBy_cons {mode : DeploymentMode} {now : ℚ} {more : List InterceptCall}
    (hclock : s.clock ≤ now) (h : ClosedBy g mode (step g s (servedCall mode now)) more) :
    ClosedBy g mode s (servedCall mode now :: more) := by
  obtain ⟨hvalid, hmode, hclosed, hserved⟩ := h
  refine ⟨⟨servedCall_valid mode hclock, hvalid⟩, ?_, hclosed, hserved⟩
  intro c hc
  rcases List.mem_cons.mp hc with rfl | hc
  · rfl
  · exact hmode c hc

/-- Requests served one after the other close a circuit that is not open.  The induction
is on the number of successes still needed. -/
theorem closes_by_probes (hbudget : 2 < g.config.timeoutMs) (mode : DeploymentMode) {now : ℚ}
    (n : Nat) : ∀ s : InterceptRun, s.clock ≤ now →
      (s.circuit.transition g.breaker now).state ≠ .opened →
      Balanced g.breaker (s.circuit.transition g.breaker now) →
      g.breaker.halfOpenMaxProbes - (s.circuit.transition g.breaker now).halfOpenSuccessCount ≤ n →
      ∃ c more, ClosedBy g mode s (c :: more) := by
  induction n with
  | zero =>
    intro s hclock hopen hbal hn
    obtain ⟨hnext | ⟨hnext, hbal', hcount⟩, hserved⟩ := step_served_progress hbudget mode hbal hopen
    · exact ⟨_, _, closedBy_cons hclock (closedBy_nil hnext hserved)⟩
    · have := (hbal' hnext).2
      omega
  | succ n ih =>
    intro s hclock hopen hbal hn
    obtain ⟨hnext | ⟨hnext, hbal', hcount⟩, hserved⟩ := step_served_progress hbudget mode hbal hopen
    · exact ⟨_, _, closedBy_cons hclock (closedBy_nil hnext hserved)⟩
    · have hsame : (step g s (servedCall mode now)).circuit.transition g.breaker now = _ :=
        transition_of_ne (by rw [hnext]; decide)
      obtain ⟨c, more, hmore⟩ := ih (step g s (servedCall mode now)) le_rfl
        (by rw [hsame, hnext]; decide) (by rw [hsame]; exact hbal') (by rw [hsame]; omega)
      exact ⟨_, _, closedBy_cons hclock hmore⟩

/-- **A balanced circuit recovers**: wait for its timeout, then serve requests. -/
theorem Balanced.recovers (hbudget : 2 < g.config.timeoutMs) (h : Balanced g.breaker s.circuit) :
    s.Recovers g := by
  intro mode
  let now := max s.clock (s.circuit.lastFailureTime + g.breaker.resetTimeoutS)
  have hbal := h.transition (breaker_maxProbes_pos g) now
  have hopen : (s.circuit.transition g.breaker now).state ≠ .opened := by
    intro ho
    have hwait := (transition_opened_iff.mp ho).2
    have hreset : s.circuit.lastFailureTime + g.breaker.resetTimeoutS ≤ now := le_max_right _ _
    linarith
  exact closes_by_probes hbudget mode _ s (le_max_left _ _) hopen hbal (Int.self_le_toNat _)

/-! ### Every run -/

/-- **If every probe reports, a half-open circuit is never wedged**: along every run of
completed calls it keeps a free slot whenever it is half-open, and from every state it
reaches some requests, in whatever mode, close it again.  The time budget has to leave
room for a lookup at all. -/
theorem neverWedged_of_probesReport (g : Gateway) (hbudget : 2 < g.config.timeoutMs) (clock : ℚ)
    (run : List InterceptCall) (hp : Run.Guarded (step g) (ProbeReports g) { clock := clock } run) :
    NeverWedged g { clock := clock } run :=
  hp.always (fun _ _ => balanced_step) (fun _ h => ⟨h.notWedged, h.recovers hbudget⟩)
    (balanced_of_ne (show CircuitState.closed ≠ .halfOpen by decide))

theorem served_notSilent (hbudget : 2 < g.config.timeoutMs) :
    ¬ Silent g servedEnv servedRequest := by
  obtain ⟨hlookup, hpolicy⟩ := served_inTime hbudget
  unfold Silent
  rw [servedRequest_workload]
  rintro (h | h | h | ⟨-, h⟩)
  · exact absurd h (by decide)
  · rw [hlookup] at h
    cases h
  · rw [hpolicy] at h
    cases h
  · rw [served_notDowngraded] at h
    cases h

/-- The index raises. -/
def raisingCall (now : ℚ) : InterceptCall :=
  { servedCall .advisory now with env := { servedEnv with lookup := fun _ => .error .other } }

/-- The index has no entry. -/
def missingCall (now : ℚ) : InterceptCall :=
  { servedCall .advisory now with env := { servedEnv with lookup := fun _ => .ok none } }

/-- One failure opens the circuit. -/
def touchy : Gateway := { config := { InterceptorConfig.default with circuitBreakerThreshold := 1 } }

theorem raisingCall_notSilent (now : ℚ) :
    ¬ Silent (gateway touchy (raisingCall now)) (raisingCall now).env (raisingCall now).request := by
  unfold Silent
  rw [show (raisingCall now).request.resolveWorkloadId = .ok "svc" from servedRequest_workload]
  rintro (h | h)
  · exact absurd h (by decide)
  · exact h

theorem servedProbes_neverWedged : NeverWedged touchy { clock := 0 }
    [raisingCall 0, servedCall .active 30, servedCall .passive 31, servedCall .advisory 32] :=
  neverWedged_of_probesReport touchy (by decide) 0 _
    ⟨fun _ => raisingCall_notSilent 0, fun _ => served_notSilent (by decide),
      fun _ => served_notSilent (by decide), fun _ => served_notSilent (by decide), trivial⟩

/-- Three misses after the timeout take the three slots. -/
theorem misses_wedge :
    Run.Guarded (step touchy) Valid { clock := 0 }
        [raisingCall 0, missingCall 30, missingCall 31, missingCall 32] ∧
      ¬ NeverWedged touchy { clock := 0 }
        [raisingCall 0, missingCall 30, missingCall 31, missingCall 32] := by
  have hord : ∀ t, (WallTimes.const t).Ordered := fun t => ⟨le_rfl, le_rfl, le_rfl, le_rfl, le_rfl⟩
  refine ⟨⟨⟨?_, hord 0⟩, ⟨?_, hord 30⟩, ⟨?_, hord 31⟩, ⟨?_, hord 32⟩, trivial⟩, fun h => ?_⟩
  · exact le_refl (0 : ℚ)
  · exact (by norm_num : (0 : ℚ) ≤ 30)
  · exact (by norm_num : (30 : ℚ) ≤ 31)
  · exact (by norm_num : (31 : ℚ) ≤ 32)
  · have hw := (h _ List.prefix_rfl).1 (by decide +kernel)
    revert hw
    decide +kernel

/-! ### Once wedged -/

/-- A half-open circuit without a free slot. -/
def Wedged (cfg : BreakerConfig) (b : CircuitBreakerState) : Prop :=
  b.state = .halfOpen ∧ cfg.halfOpenMaxProbes ≤ b.halfOpenProbeCount

theorem Wedged.refuses (h : Wedged cfg b) (now : ℚ) : (b.isOpen cfg now).1 = true := by
  have hsame : b.transition cfg now = b := transition_of_ne (by rw [h.1]; decide)
  rw [isOpen_of_halfOpen (by rw [hsame, h.1]), hsame, if_neg (not_lt.mpr h.2)]

theorem Wedged.effect {t : WallTimes} {silent : Prop} {b' : CircuitBreakerState}
    (h : Wedged cfg b) (he : Effect cfg t silent b b') : Wedged cfg b' := by
  have href := h.refuses t.gate
  have hsame : b.transition cfg t.gate = b := transition_of_ne (by rw [h.1]; decide)
  cases he with
  | refused _ =>
    have hasked : Wedged cfg (b.isOpen cfg t.gate).2 := by
      rw [(isOpen_eq_true href).2, hsame]
      exact h
    rw [transition_of_ne (by rw [hasked.1]; decide)]
    exact hasked
  | succeeded hlet | silent hlet | failed hlet | raised hlet =>
    rw [href] at hlet
    cases hlet

/-- A call on a wedged circuit is answered, with the outcome CIRCUIT_OPEN. -/
theorem Wedged.answer (h : Wedged g.breaker s.circuit) :
    ∃ r, (step g s c).answer = some r ∧ r.outcome = .circuitOpen := by
  have hspec : Eff.Spec (fun i : Interceptor CircuitBreakerState => i.circuit = s.circuit)
      (intercept (localOps g.breaker c.times) (gateway g c) c.env c.request)
      (fun r _ => r.outcome = .circuitOpen) (fun _ _ => False) := by
    refine Eff.Spec.bind (Q := fun _ i => i.circuit = s.circuit) (Eff.spec_modify fun _ h => h)
      fun _ => Eff.Spec.catching (R := fun _ _ => False) ?_ fun _ _ h => h.elim
    refine Eff.Spec.bind (Q := fun r _ => r.outcome = .circuitOpen) ?_ fun r => ?_
    · refine Eff.Spec.bind (Q := fun refused _ => refused = true) (fun i hi => ?_) fun refused => ?_
      · simp only [onCircuit, Eff.zoom, localOps, hi, Eff.ends_ok]
        exact h.refuses _
      · refine Eff.spec_ite (fun _ => ?_) fun hlet i href => absurd href hlet
        exact Eff.Spec.bind (Q := fun _ _ => True) (Eff.spec_modify fun _ _ => trivial) fun _ =>
          Eff.spec_pure fun _ _ => rfl
    · intro i hi
      exact (metrics_spec g.breaker c.times .answered fun _ => True).bind
        (fun _ => Eff.spec_pure fun _ _ => hi) i trivial
  have hrun := hspec s.interceptor rfl
  change ∃ r, (answerTo g s c).1.toOption = some r ∧ _
  unfold answerTo
  generalize intercept (localOps g.breaker c.times) (gateway g c) c.env c.request s.interceptor = x
    at hrun ⊢
  obtain ⟨e | r, i⟩ := x
  · exact hrun.elim
  · exact ⟨r, rfl, hrun⟩

/-- **Wedged for good**: whatever is called next, and whenever, every later answer is
CIRCUIT_OPEN. -/
theorem wedged_forever (h : Wedged g.breaker s.circuit) (run : List InterceptCall)
    (c : InterceptCall) :
    ∃ r, (Run.exec (step g) s (run ++ [c])).answer = some r ∧ r.outcome = .circuitOpen := by
  have hrun : Wedged g.breaker (Run.exec (step g) s run).circuit :=
    Run.exec_invariant (I := fun s => Wedged g.breaker s.circuit)
      (fun s c hs => hs.effect (step_effect g s c)) h run
  rw [Run.exec_concat]
  exact hrun.answer

end InterceptRun
end ComputeIntelligence
