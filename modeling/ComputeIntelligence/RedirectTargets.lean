import ComputeIntelligence.Answers
import ComputeIntelligence.PolicyChecks

/-! # Where a redirect leads

A redirect goes to the first approved alternative of the entry.  The alternatives and the
allowlist are two lists of the entry that nothing compares.  A call is redirected exactly when it
passes every gate (`redirected_iff`), so a redirect stays on the allowlist exactly when no call
passes the gates with a first alternative that is not on it.
-/
namespace ComputeIntelligence

/-- The call passes every gate of a redirect. -/
structure Redirects (refused : Bool) (g : Gateway) (env : CallEnv) (request : InterceptionRequest)
    (entry : AttributionIndexEntry) (violations : List PolicyEvaluationResult) : Prop where
  evaluated : Evaluated refused g env request entry violations
  reroutes : Reroutes g request entry violations
  priceSnapshot : ∃ t, request.metaStr "price_snapshot_id" = .ok t

/-- A redirect leads to a model of the allowlist, where the entry has one: evaluating the
policies again does not find the model refused. -/
def StaysAllowed (request : InterceptionRequest) (r : InterceptionResult) : Prop :=
  r.outcome = .redirected → ∀ entry, r.attribution = some entry → entry.modelAllowlist ≠ [] →
    ∃ model, r.redirectModel = some model ∧ model ∈ entry.modelAllowlist ∧
      ∀ violations, evaluatePolicies { request with model := model } entry = .ok violations →
        ¬ Reports violations "model_allowlist"

variable {refused : Bool} {g : Gateway} {env : CallEnv} {request : InterceptionRequest}
  {entry : AttributionIndexEntry} {violations : List PolicyEvaluationResult} {a : Answer}

/-! ### When a call is redirected -/

theorem buildEnrichmentHeaders_returns_iff (config : InterceptorConfig)
    (request : InterceptionRequest) (entry : AttributionIndexEntry)
    (violations : List PolicyEvaluationResult) :
    (∃ headers, buildEnrichmentHeaders config request entry violations = .ok headers) ↔
      ∃ t, request.metaStr "price_snapshot_id" = .ok t := by
  unfold buildEnrichmentHeaders addPriceSnapshot
  constructor
  · rintro ⟨headers, h⟩
    obtain ⟨offered, hoffered, -⟩ := Except.bind_eq_ok h
    obtain ⟨t, ht, -⟩ := Except.bind_eq_ok hoffered
    exact ⟨t, ht⟩
  · rintro ⟨t, ht⟩
    rw [ht]
    exact ⟨_, rfl⟩

/-- A call that passes the gates is redirected to the first alternative. -/
theorem Redirects.answer_eq (h : Redirects refused g env request entry violations) :
    ∃ headers altModel, entry.approvedAlternatives.head? = some altModel ∧
      interceptAnswer refused g env request =
        .ok (reroutedAnswer request entry violations headers altModel) := by
  obtain ⟨headers, hheaders⟩ :=
    (buildEnrichmentHeaders_returns_iff g.config request entry violations).2 h.priceSnapshot
  have hhead := List.head?_eq_some_head h.reroutes.approved
  refine ⟨headers, _, hhead, interceptAnswer_of_inner ?_⟩
  rw [h.evaluated.innerAnswer_eq]
  exact h.reroutes.routeAnswer_eq h.evaluated.interventionContext hheaders hhead

/-- Nothing else is redirected. -/
theorem redirects_of_answer (h : interceptAnswer refused g env request = .ok a)
    (hout : a.outcome = .redirected) :
    ∃ entry violations, Redirects refused g env request entry violations ∧
      a.attribution = some entry ∧ a.redirectModel = entry.approvedAlternatives.head? := by
  rcases interceptAnswer_cases h with hearly | ⟨entry, reason, hlate, ha⟩ |
    ⟨entry, violations, hev, ha⟩
  · rcases hearly with rfl | ⟨outcome, reason, ho, rfl⟩
    · cases hout
    · rcases ho with rfl | rfl
      · cases hout
      · cases hout
  · -- the answer of a timeout is a timeout
    unfold timeoutAnswer at ha
    obtain ⟨tenant, -, ha⟩ := Except.bind_eq_ok ha
    obtain ⟨headers, -, ha⟩ := Except.bind_eq_ok ha
    cases ha
    cases hout
  · rcases routeAnswer_cases ha with ⟨-, rfl⟩ | ⟨headers, hheaders, hserved | hrerouted⟩
    · cases hout
    · obtain ⟨outcome, hne, -, rfl⟩ := hserved
      exact absurd hout hne
    · obtain ⟨altModel, hreroutes, halt, rfl⟩ := hrerouted
      have hsnapshot :=
        (buildEnrichmentHeaders_returns_iff g.config request entry violations).1 ⟨_, hheaders⟩
      exact ⟨entry, violations, ⟨hev, hreroutes, hsnapshot⟩, rfl, halt.symm⟩

/-! ### Whether it stays on the allowlist -/

/-- A model of the allowlist is not refused. -/
theorem not_reports_of_mem {model : String} (hmem : model ∈ entry.modelAllowlist)
    (h : evaluatePolicies { request with model := model } entry = .ok violations) :
    ¬ Reports violations "model_allowlist" := by
  rw [reports_iff h, violates_modelAllowlist]
  exact fun hrefused => hrefused.2 hmem

/-- The entry allows the requested model only, and approves another. -/
def otherwiseApproved : AttributionIndexEntry :=
  { InterceptRun.servedEntry with modelAllowlist := ["m"], approvedAlternatives := ["small"] }

/-- The index answers at once, with that entry. -/
def otherwiseApprovedEnv : CallEnv :=
  { InterceptRun.servedEnv with lookup := fun _ => .ok (some otherwiseApproved) }

/-- A store that answers every call with a fresh circuit. -/
def freshStore : StoreCalls where
  gate := ⟨{}, 0, 0, false⟩
  report := ⟨{}, 0, 0, false⟩
  failure := ⟨{}, 0, 0, false⟩
  metrics := fun _ => ⟨{}, 0, 0, false⟩

end ComputeIntelligence
