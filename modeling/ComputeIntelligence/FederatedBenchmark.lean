import Mathlib.Data.List.Sort
import Mathlib.Data.Rat.Floor
import Mathlib.Tactic.Linarith
import ComputeIntelligence.PyDict
import ComputeIntelligence.PyValue

/-! # Federated benchmarks

`FederatedBenchmarkProtocol` (`benchmark/federated.py`), in exact arithmetic.  What an
organization submits may be any float; clipping leaves a rational.  The two outcomes of
`_add_noise` that a release draws are arguments of it.

A history is a sequence of calls, newest first; `after` is the state it leaves.  What the
state remembers of it is what was last submitted under each key (`getLast?_metrics_after`),
and no cohort has a member twice (`Distinct`).
-/
namespace ComputeIntelligence

/-- `FBPConfig`, without the churn rate, which nothing reads. -/
structure FBPConfig where
  epsilonTotalQuarterly : ℚ := 4
  epsilonPerRelease : ℚ := 1
  costPerTokenClip : ℚ := 1 / 10
  carbonPerInferenceClip : ℚ := 100
  minCohortSize : Int := 5
  useSecureNoise : Bool := true

/-- `BenchmarkMetric`, with a raw value of type `V`. -/
structure BenchmarkMetric (V : Type) where
  orgId : String
  metricName : String
  rawValue : V
  period : String

/-- `CohortBenchmark`. -/
structure CohortBenchmark where
  cohortId : String
  metricName : String
  noisyMean : ℚ
  noisyMedian : ℚ
  memberCount : Nat
  epsilonConsumed : ℚ
  period : String
  suppressed : Bool := false
  suppressionReason : String := ""

/-- What `publish_benchmark` raises. -/
inductive FbpError where
  | valueError (message : String)
  | privacyBudgetExhausted (orgId : String) (budget limit : ℚ)

/-- The protocol's state: the members of each cohort, the metrics by key, and what each
organization has consumed this quarter. -/
structure FederatedBenchmarkProtocol where
  cohorts : PyDict String (List String) := PyDict.empty
  metrics : PyDict String (List (BenchmarkMetric ℚ)) := PyDict.empty
  budgetConsumed : PyDict String ℚ := PyDict.empty

/-- `f"{org_id}:{metric_name}:{period}"`. -/
def metricKey (orgId metricName period : String) : String :=
  orgId ++ ":" ++ metricName ++ ":" ++ period

/-- The key under which a metric is stored. -/
def BenchmarkMetric.key {V : Type} (metric : BenchmarkMetric V) : String :=
  metricKey metric.orgId metric.metricName metric.period

/-- An outcome of the noise mechanism, by the scale. -/
abbrev NoiseFn := ℚ → ℚ

/-- `_discrete_laplace`, by the two geometric draws. -/
def discreteLaplace (first second : Nat) : NoiseFn := fun scale =>
  if scale ≤ 0 then 0 else first - second

/-- The outcomes of `_add_noise`: of the secure mechanism, if it is selected. -/
def FBPConfig.CanDraw (config : FBPConfig) (noise : NoiseFn) : Prop :=
  config.useSecureNoise = true → ∃ first second, noise = discreteLaplace first second

/-- The nearest integer, ties to even. -/
def roundEven (q : ℚ) : Int :=
  if q - ⌊q⌋ < 1 / 2 then ⌊q⌋
  else if 1 / 2 < q - ⌊q⌋ then ⌊q⌋ + 1
  else if ⌊q⌋ % 2 = 0 then ⌊q⌋ else ⌊q⌋ + 1

/-- `round(q, n)`. -/
def pyRound (n : Nat) (q : ℚ) : ℚ := roundEven (q * 10 ^ n) / 10 ^ n

/-- `np.mean`. -/
def mean (values : List ℚ) : ℚ := values.sum / values.length

/-- `np.median`: of an even number of values, the mean of the middle two. -/
def median (values : List ℚ) : ℚ :=
  let sorted := values.insertionSort (· ≤ ·)
  let half := sorted.length / 2
  if sorted.length % 2 = 1 then sorted.getD half 0
  else (sorted.getD (half - 1) 0 + sorted.getD half 0) / 2

/-- `sensitivity_bounds`. -/
def FBPConfig.sensitivityBounds (config : FBPConfig) : PyDict String ℚ :=
  PyDict.ofList
    [("cost_per_token_usd", config.costPerTokenClip),
     ("carbon_per_inference_gco2e", config.carbonPerInferenceClip),
     ("attribution_confidence", 1),
     ("waste_pct", 100)]

/-- `sensitivity_bounds.get(metric_name, 1000.0)`. -/
def FBPConfig.bound (config : FBPConfig) (metricName : String) : ℚ :=
  config.sensitivityBounds.getD metricName 1000

/-- `max(0.0, min(raw_value, bound))`: for NaN, `min` and then `max` keep their first
argument. -/
def clip (bound : ℚ) : PyFloat → ℚ
  | .finite q => max 0 (min q bound)
  | .posInf => max 0 bound
  | .negInf => 0
  | .nan => 0

/-- The metric that is stored. -/
def FBPConfig.clipped (config : FBPConfig) (metric : BenchmarkMetric PyFloat) :
    BenchmarkMetric ℚ :=
  { metric with rawValue := clip (config.bound metric.metricName) metric.rawValue }

namespace FederatedBenchmarkProtocol
variable (config : FBPConfig) (s : FederatedBenchmarkProtocol)

/-! ### The operations -/

/-- `create_cohort`. -/
def createCohort (cohortId : String) : FederatedBenchmarkProtocol :=
  { s with cohorts := s.cohorts.set cohortId [] }

/-- `join_cohort`. -/
def joinCohort (orgId cohortId : String) : Bool × FederatedBenchmarkProtocol :=
  match s.cohorts.get? cohortId with
  | none => (false, s)
  | some members =>
      if orgId ∈ members then (false, s)
      else (true, { s with cohorts := s.cohorts.set cohortId (members ++ [orgId]) })

/-- `submit_metric`. -/
def submitMetric (metric : BenchmarkMetric PyFloat) : FederatedBenchmarkProtocol :=
  { s with
    metrics := s.metrics.set metric.key (s.metrics.getD metric.key [] ++ [config.clipped metric]) }

/-- `reset_quarterly_budgets`. -/
def resetQuarterlyBudgets : FederatedBenchmarkProtocol := { s with budgetConsumed := PyDict.empty }

/-- `get_remaining_budget`. -/
def getRemainingBudget (orgId : String) : ℚ :=
  max 0 (config.epsilonTotalQuarterly - s.budgetConsumed.getD orgId 0)

/-- The latest metrics of the members, of those that have any. -/
def aggregated (members : List String) (metricName period : String) :
    List (BenchmarkMetric ℚ) :=
  members.filterMap fun orgId => (s.metrics.getD (metricKey orgId metricName period) []).getLast?

/-- One more release for a member. -/
def charge (epsilon : ℚ) (budget : PyDict String ℚ) (orgId : String) : PyDict String ℚ :=
  budget.set orgId (budget.getD orgId 0 + epsilon)

/-- One more release for all the members. -/
def charged (epsilon : ℚ) (members : List String) : FederatedBenchmarkProtocol :=
  { s with budgetConsumed := members.foldl (charge epsilon) s.budgetConsumed }

/-- A suppressed benchmark. -/
def suppressedBenchmark (cohortId metricName period : String) (memberCount : Nat)
    (reason : String) : CohortBenchmark :=
  { cohortId, metricName, noisyMean := 0, noisyMedian := 0, memberCount, epsilonConsumed := 0,
    period, suppressed := true, suppressionReason := reason }

/-- `publish_benchmark`, with the outcomes of the noise for the mean and the median. -/
def publishBenchmark (cohortId metricName period : String) (meanNoise medianNoise : NoiseFn) :
    Except FbpError CohortBenchmark × FederatedBenchmarkProtocol :=
  let members := s.cohorts.getD cohortId []
  if members.length < config.minCohortSize then
    (.ok (suppressedBenchmark cohortId metricName period members.length
      ("Cohort size " ++ toString members.length ++ " < minimum " ++
        toString config.minCohortSize)), s)
  else
    let values := (s.aggregated members metricName period).map BenchmarkMetric.rawValue
    if values = [] then
      (.ok (suppressedBenchmark cohortId metricName period members.length
        "No metric submissions for this period"), s)
    else
      let epsilonTotal := config.epsilonPerRelease
      let epsilonPerStat := epsilonTotal / 2
      if epsilonPerStat ≤ 0 then
        (.error (.valueError "epsilon_per_release must be greater than 0"), s)
      else
        let limit := config.epsilonTotalQuarterly
        match members.find? fun orgId => limit < s.budgetConsumed.getD orgId 0 + epsilonTotal with
        | some orgId =>
            (.error (.privacyBudgetExhausted orgId (s.budgetConsumed.getD orgId 0 + epsilonTotal)
              limit), s)
        | none =>
            let bound := config.bound metricName
            let meanNoiseScale := bound / values.length / epsilonPerStat
            let medianNoiseScale := bound / epsilonPerStat
            (.ok { cohortId, metricName,
                   noisyMean := pyRound 6 (mean values + meanNoise meanNoiseScale),
                   noisyMedian := pyRound 6 (median values + medianNoise medianNoiseScale),
                   memberCount := members.length, epsilonConsumed := epsilonTotal, period },
              s.charged epsilonTotal members)

/-- Every member can afford one more release. -/
def Affordable (members : List String) : Prop :=
  ∀ orgId ∈ members,
    s.budgetConsumed.getD orgId 0 + config.epsilonPerRelease ≤ config.epsilonTotalQuarterly

/-- A release is due: the cohort is large enough, and some member has submitted. -/
def Due (cohortId metricName period : String) : Prop :=
  config.minCohortSize ≤ (s.cohorts.getD cohortId []).length ∧
    s.aggregated (s.cohorts.getD cohortId []) metricName period ≠ []

/-- What a release returns. -/
def releasedBenchmark (cohortId metricName period : String) (meanNoise medianNoise : NoiseFn) :
    CohortBenchmark :=
  let members := s.cohorts.getD cohortId []
  let values := (s.aggregated members metricName period).map BenchmarkMetric.rawValue
  let epsilonPerStat := config.epsilonPerRelease / 2
  let meanNoiseScale := config.bound metricName / values.length / epsilonPerStat
  let medianNoiseScale := config.bound metricName / epsilonPerStat
  { cohortId, metricName, noisyMean := pyRound 6 (mean values + meanNoise meanNoiseScale),
    noisyMedian := pyRound 6 (median values + medianNoise medianNoiseScale),
    memberCount := members.length, epsilonConsumed := config.epsilonPerRelease, period }

variable {config s} {cohortId metricName period : String} (meanNoise medianNoise : NoiseFn)

/-- **A release that is not due** is suppressed and changes nothing. -/
theorem publishBenchmark_of_not_due (h : ¬ Due config s cohortId metricName period) :
    ∃ reason, publishBenchmark config s cohortId metricName period meanNoise medianNoise =
      (.ok (suppressedBenchmark cohortId metricName period (s.cohorts.getD cohortId []).length
        reason), s) := by
  unfold publishBenchmark
  dsimp only
  by_cases hsize : ((s.cohorts.getD cohortId []).length : Int) < config.minCohortSize
  · rw [if_pos hsize]
    exact ⟨_, rfl⟩
  · have hnone : (s.aggregated (s.cohorts.getD cohortId []) metricName period).map
        BenchmarkMetric.rawValue = [] := by
      by_contra hvalues
      exact h ⟨not_lt.1 hsize, fun hnil => hvalues (by rw [hnil]; rfl)⟩
    rw [if_neg hsize, if_pos hnone]
    exact ⟨_, rfl⟩

/-- What is due passes the checks on the cohort and on its values. -/
theorem Due.checks (h : Due config s cohortId metricName period) :
    ¬ ((s.cohorts.getD cohortId []).length : Int) < config.minCohortSize ∧
      ¬ (s.aggregated (s.cohorts.getD cohortId []) metricName period).map
        BenchmarkMetric.rawValue = [] :=
  ⟨not_lt.2 h.1, fun hnil => h.2 (List.map_eq_nil_iff.1 hnil)⟩

/-- A release that is due, with no budget for it at all. -/
theorem publishBenchmark_of_nonpos (heps : config.epsilonPerRelease ≤ 0)
    (h : Due config s cohortId metricName period) :
    publishBenchmark config s cohortId metricName period meanNoise medianNoise =
      (.error (.valueError "epsilon_per_release must be greater than 0"), s) := by
  obtain ⟨hsize, hvalues⟩ := h.checks
  have hstat : config.epsilonPerRelease / 2 ≤ 0 := by linarith
  unfold publishBenchmark
  dsimp only
  rw [if_neg hsize, if_neg hvalues, if_pos hstat]

/-- **A release that is due**, by what the members can afford. -/
theorem publishBenchmark_of_due (heps : 0 < config.epsilonPerRelease)
    (h : Due config s cohortId metricName period) :
    (Affordable config s (s.cohorts.getD cohortId []) ∧
      publishBenchmark config s cohortId metricName period meanNoise medianNoise =
        (.ok (releasedBenchmark config s cohortId metricName period meanNoise medianNoise),
          s.charged config.epsilonPerRelease (s.cohorts.getD cohortId []))) ∨
    (¬ Affordable config s (s.cohorts.getD cohortId []) ∧
      ∃ orgId budget limit,
        publishBenchmark config s cohortId metricName period meanNoise medianNoise =
          (.error (.privacyBudgetExhausted orgId budget limit), s)) := by
  obtain ⟨hsize, hvalues⟩ := h.checks
  have hstat : ¬ config.epsilonPerRelease / 2 ≤ 0 := by linarith
  unfold publishBenchmark
  dsimp only
  rw [if_neg hsize, if_neg hvalues, if_neg hstat]
  cases hfind : (s.cohorts.getD cohortId []).find? fun orgId => decide
      (config.epsilonTotalQuarterly < s.budgetConsumed.getD orgId 0 + config.epsilonPerRelease) with
  | none =>
    refine .inl ⟨fun orgId hmem => ?_, rfl⟩
    simpa using List.find?_eq_none.1 hfind orgId hmem
  | some orgId =>
    refine .inr ⟨fun hall => ?_, orgId, _, _, rfl⟩
    have hover := List.find?_some hfind
    exact absurd (hall orgId (List.mem_of_find?_eq_some hfind)) (by simpa using hover)

/-! ### Charging the members -/

theorem get?_charge (epsilon : ℚ) (budget : PyDict String ℚ) (member orgId : String) :
    (charge epsilon budget member).get? orgId =
      if orgId = member then some (budget.getD orgId 0 + epsilon) else budget.get? orgId := by
  unfold charge
  rw [PyDict.get?_set]
  by_cases h : orgId = member
  · rw [h, if_pos rfl]
  · rw [if_neg h, if_neg h]

/-- Members who are all different are charged once each. -/
theorem get?_foldl_charge (epsilon : ℚ) {members : List String} (hn : members.Nodup)
    (budget : PyDict String ℚ) (orgId : String) :
    (members.foldl (charge epsilon) budget).get? orgId =
      if orgId ∈ members then some (budget.getD orgId 0 + epsilon) else budget.get? orgId := by
  induction members generalizing budget with
  | nil => simp
  | cons member members ih =>
    obtain ⟨hnot, hrest⟩ := List.nodup_cons.1 hn
    have hget : (charge epsilon budget member).getD orgId 0 =
        if orgId = member then budget.getD orgId 0 + epsilon else budget.getD orgId 0 := by
      unfold PyDict.getD
      rw [get?_charge]
      split
      · rfl
      · rfl
    rw [List.foldl_cons, ih hrest, hget, get?_charge]
    by_cases h : orgId = member
    · subst h
      simp [hnot]
    · simp [h]

/-! ### Histories -/

/-- A call of the protocol. -/
inductive Call where
  | createCohort (cohortId : String)
  | joinCohort (orgId cohortId : String)
  | submitMetric (metric : BenchmarkMetric PyFloat)
  | publishBenchmark (cohortId metricName period : String) (meanNoise medianNoise : NoiseFn)
  | resetQuarterlyBudgets

/-- The state after a call. -/
def step (config : FBPConfig) (s : FederatedBenchmarkProtocol) : Call → FederatedBenchmarkProtocol
  | .createCohort cohortId => s.createCohort cohortId
  | .joinCohort orgId cohortId => (s.joinCohort orgId cohortId).2
  | .submitMetric metric => submitMetric config s metric
  | .publishBenchmark cohortId metricName period meanNoise medianNoise =>
      (publishBenchmark config s cohortId metricName period meanNoise medianNoise).2
  | .resetQuarterlyBudgets => s.resetQuarterlyBudgets

/-- The state after a history, newest call first. -/
def after (config : FBPConfig) : List Call → FederatedBenchmarkProtocol
  | [] => {}
  | call :: earlier => step config (after config earlier) call

/-- The latest metric submitted under a key. -/
def latest (key : String) : List Call → Option (BenchmarkMetric PyFloat)
  | [] => none
  | .submitMetric metric :: earlier => if metric.key = key then some metric else latest key earlier
  | _ :: earlier => latest key earlier

/-- A release changes nothing but the budgets. -/
theorem publishBenchmark_frame :
    (publishBenchmark config s cohortId metricName period meanNoise medianNoise).2.cohorts =
        s.cohorts ∧
      (publishBenchmark config s cohortId metricName period meanNoise medianNoise).2.metrics =
        s.metrics := by
  by_cases hdue : Due config s cohortId metricName period
  · by_cases heps : 0 < config.epsilonPerRelease
    · rcases publishBenchmark_of_due meanNoise medianNoise heps hdue with
        ⟨-, h⟩ | ⟨-, orgId, budget, limit, h⟩
      · rw [h]
        exact ⟨rfl, rfl⟩
      · rw [h]
        exact ⟨rfl, rfl⟩
    · rw [publishBenchmark_of_nonpos meanNoise medianNoise (not_lt.1 heps) hdue]
      exact ⟨rfl, rfl⟩
  · obtain ⟨reason, h⟩ := publishBenchmark_of_not_due meanNoise medianNoise hdue
    rw [h]
    exact ⟨rfl, rfl⟩

theorem joinCohort_metrics (orgId cohortId : String) :
    (s.joinCohort orgId cohortId).2.metrics = s.metrics := by
  unfold joinCohort
  cases s.cohorts.get? cohortId with
  | none => rfl
  | some members =>
    dsimp only
    split
    · rfl
    · rfl

/-- **What is stored under a key** ends with the latest submission of the history. -/
theorem getLast?_metrics_after (key : String) (history : List Call) :
    ((after config history).metrics.getD key []).getLast? =
      (latest key history).map config.clipped := by
  induction history with
  | nil => rfl
  | cons call earlier ih =>
    cases call with
    | createCohort cohortId => exact ih
    | joinCohort orgId cohortId =>
      change (PyDict.getD (joinCohort _ orgId cohortId).2.metrics key []).getLast? = _
      rw [joinCohort_metrics]
      exact ih
    | submitMetric metric =>
      change (PyDict.getD (PyDict.set _ metric.key _) key []).getLast? = _
      unfold latest PyDict.getD
      rw [PyDict.get?_set]
      -- a submission is appended under its own key
      by_cases hkey : key = metric.key
      · rw [if_pos hkey, if_pos hkey.symm, Option.getD_some, List.getLast?_concat]
        rfl
      · rw [if_neg hkey, if_neg (Ne.symm hkey)]
        exact ih
    | publishBenchmark cohortId metricName period meanNoise medianNoise =>
      change (PyDict.getD (publishBenchmark _ _ _ _ _ _ _).2.metrics key []).getLast? = _
      rw [(publishBenchmark_frame meanNoise medianNoise).2]
      exact ih
    | resetQuarterlyBudgets => exact ih

/-- No cohort has a member twice. -/
def Distinct (s : FederatedBenchmarkProtocol) : Prop :=
  ∀ cohortId members, s.cohorts.get? cohortId = some members → members.Nodup

theorem Distinct.step (h : Distinct s) (call : Call) : Distinct (step config s call) := by
  cases call with
  | createCohort cohortId =>
    intro c members hget
    change PyDict.get? (PyDict.set _ cohortId []) c = some members at hget
    rw [PyDict.get?_set] at hget
    split at hget
    · obtain rfl := Option.some.inj hget
      exact List.nodup_nil
    · exact h c members hget
  | joinCohort orgId cohortId =>
    change Distinct (s.joinCohort orgId cohortId).2
    unfold joinCohort
    cases hc : s.cohorts.get? cohortId with
    | none => exact h
    | some joined =>
      dsimp only
      split
      · exact h
      · -- the organization that joins was not a member
        rename_i hnew
        intro c members hget
        dsimp only at hget
        rw [PyDict.get?_set] at hget
        split at hget
        · obtain rfl := Option.some.inj hget
          refine (h cohortId joined hc).append (List.nodup_singleton _) ?_
          exact List.disjoint_singleton.2 hnew
        · exact h c members hget
  | submitMetric metric => exact h
  | publishBenchmark cohortId metricName period meanNoise medianNoise =>
    intro c members hget
    change PyDict.get? (publishBenchmark _ _ _ _ _ _ _).2.cohorts c = some members at hget
    rw [(publishBenchmark_frame meanNoise medianNoise).1] at hget
    exact h c members hget
  | resetQuarterlyBudgets => exact h

theorem distinct_after (history : List Call) : Distinct (after config history) := by
  induction history with
  | nil => exact fun _ _ hget => nomatch hget
  | cons call earlier ih => exact ih.step call

theorem Distinct.members (h : Distinct s) (cohortId : String) :
    (s.cohorts.getD cohortId []).Nodup := by
  unfold PyDict.getD
  cases hc : s.cohorts.get? cohortId with
  | none => exact List.nodup_nil
  | some members => exact h cohortId members hc

end FederatedBenchmarkProtocol
end ComputeIntelligence
