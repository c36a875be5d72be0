import ComputeIntelligence.FederatedBenchmark

/-! # The accounting of the privacy budget

After any history, what an organization has consumed is the price of a release times the
number of releases, since the last reset, of cohorts it was a member of at the time, and it
is within the quarter's total (`budget_accounted`).  That a cohort has no member twice is
what makes each release count once.
-/
namespace ComputeIntelligence
namespace FederatedBenchmarkProtocol

/-- A benchmark was released: neither suppressed nor refused. -/
def isRelease : Except FbpError CohortBenchmark → Bool
  | .ok benchmark => !benchmark.suppressed
  | .error _ => false

/-- The members of the cohort that a call releases a benchmark of. -/
def releasedTo (config : FBPConfig) (s : FederatedBenchmarkProtocol) : Call → List String
  | .publishBenchmark cohortId metricName period meanNoise medianNoise =>
      if isRelease (publishBenchmark config s cohortId metricName period meanNoise medianNoise).1 then
        s.cohorts.getD cohortId []
      else []
  | _ => []

/-- The number of releases since the last reset of cohorts that contained the organization
at the time. -/
def releases (config : FBPConfig) (orgId : String) : List Call → Nat
  | [] => 0
  | .resetQuarterlyBudgets :: _ => 0
  | call :: earlier =>
      releases config orgId earlier +
        if orgId ∈ releasedTo config (after config earlier) call then 1 else 0

/-- A metric was submitted under the key of an organization. -/
def Submitted (history : List Call) (orgId metricName period : String) : Prop :=
  ∃ metric, .submitMetric metric ∈ history ∧ metric.key = metricKey orgId metricName period

/-- The budget of a history is accounted for. -/
structure BudgetAccounted (config : FBPConfig) (history : List Call) : Prop where
  consumed : ∀ orgId, (after config history).budgetConsumed.getD orgId 0 =
    config.epsilonPerRelease * releases config orgId history
  bounded : ∀ orgId consumed, (after config history).budgetConsumed.get? orgId = some consumed →
    consumed ≤ config.epsilonTotalQuarterly
  remaining : ∀ orgId, getRemainingBudget config (after config history) orgId =
    max 0 (config.epsilonTotalQuarterly - config.epsilonPerRelease * releases config orgId history)
  unchanged : ∀ cohortId metricName period meanNoise medianNoise,
    let (answer, s) := publishBenchmark config (after config history) cohortId metricName period
      meanNoise medianNoise
    isRelease answer = false → s.budgetConsumed = (after config history).budgetConsumed
  exhausted : ∀ cohortId metricName period meanNoise medianNoise,
    let members := (after config history).cohorts.getD cohortId []
    (∃ orgId budget limit, (publishBenchmark config (after config history) cohortId metricName
      period meanNoise medianNoise).1 = .error (.privacyBudgetExhausted orgId budget limit)) ↔
    config.minCohortSize ≤ members.length ∧
      (∃ orgId ∈ members, Submitted history orgId metricName period) ∧
      ∃ orgId ∈ members, config.epsilonTotalQuarterly <
        (after config history).budgetConsumed.getD orgId 0 + config.epsilonPerRelease

variable {config : FBPConfig} {s : FederatedBenchmarkProtocol} {history : List Call}
variable {cohortId metricName period : String} (meanNoise medianNoise : NoiseFn)

/-! ### One call -/

/-- What a call does to the budgets: a reset clears them, and the members of a release
are charged for it. -/
theorem step_budget (heps : 0 < config.epsilonPerRelease) {call : Call}
    (hcall : call ≠ .resetQuarterlyBudgets) :
    (step config s call).budgetConsumed =
      (releasedTo config s call).foldl (charge config.epsilonPerRelease) s.budgetConsumed := by
  cases call with
  | createCohort cohortId => rfl
  | joinCohort orgId cohortId =>
    change (joinCohort s orgId cohortId).2.budgetConsumed = s.budgetConsumed
    unfold joinCohort
    cases s.cohorts.get? cohortId with
    | none => rfl
    | some members =>
      dsimp only
      split
      · rfl
      · rfl
  | submitMetric metric => rfl
  | publishBenchmark cohortId metricName period meanNoise medianNoise =>
    unfold step releasedTo
    dsimp only
    by_cases hdue : Due config s cohortId metricName period
    · rcases publishBenchmark_of_due meanNoise medianNoise heps hdue with
        ⟨-, h⟩ | ⟨-, orgId, budget, limit, h⟩
      · rw [h]
        rfl
      · rw [h]
        rfl
    · obtain ⟨reason, h⟩ := publishBenchmark_of_not_due meanNoise medianNoise hdue
      rw [h]
      rfl
  | resetQuarterlyBudgets => exact absurd rfl hcall

/-- Those who are charged could afford it, and are all different. -/
theorem releasedTo_spec (heps : 0 < config.epsilonPerRelease) (hs : Distinct s) (call : Call) :
    (releasedTo config s call).Nodup ∧ Affordable config s (releasedTo config s call) := by
  unfold releasedTo
  split
  · rename_i cohortId metricName period meanNoise medianNoise
    by_cases hdue : Due config s cohortId metricName period
    · rcases publishBenchmark_of_due meanNoise medianNoise heps hdue with
        ⟨hafford, h⟩ | ⟨-, orgId, budget, limit, h⟩
      · rw [h]
        exact ⟨hs.members cohortId, hafford⟩
      · rw [h]
        exact ⟨List.nodup_nil, fun _ hmem => nomatch hmem⟩
    · obtain ⟨reason, h⟩ := publishBenchmark_of_not_due meanNoise medianNoise hdue
      rw [h]
      exact ⟨List.nodup_nil, fun _ hmem => nomatch hmem⟩
  · exact ⟨List.nodup_nil, fun _ hmem => nomatch hmem⟩

theorem releases_cons {call : Call} (hcall : call ≠ .resetQuarterlyBudgets) (orgId : String) :
    releases config orgId (call :: history) = releases config orgId history +
      if orgId ∈ releasedTo config (after config history) call then 1 else 0 := by
  cases call with
  | resetQuarterlyBudgets => exact absurd rfl hcall
  | _ => rfl

/-! ### Runs -/

/-- What an organization has consumed is the price of its releases. -/
theorem consumed_after (heps : 0 < config.epsilonPerRelease) (history : List Call)
    (orgId : String) : (after config history).budgetConsumed.getD orgId 0 =
      config.epsilonPerRelease * releases config orgId history := by
  induction history with
  | nil => exact (mul_zero _).symm
  | cons call earlier ih =>
    by_cases hcall : call = .resetQuarterlyBudgets
    · subst hcall
      exact (mul_zero _).symm
    · -- members are all different, so a release charges each of them once
      have hbudget := step_budget (s := after config earlier) heps hcall
      obtain ⟨hnodup, -⟩ := releasedTo_spec heps (distinct_after earlier) call
      unfold PyDict.getD at ih ⊢
      unfold after
      rw [hbudget, get?_foldl_charge _ hnodup, releases_cons hcall]
      by_cases hmem : orgId ∈ releasedTo config (after config earlier) call
      · rw [if_pos hmem, if_pos hmem, Option.getD_some]
        unfold PyDict.getD
        rw [ih]
        push_cast
        ring
      · rw [if_neg hmem, if_neg hmem]
        exact ih

/-- No organization consumes more than the total. -/
theorem bounded_after (heps : 0 < config.epsilonPerRelease) (history : List Call)
    {orgId : String} {consumed : ℚ}
    (h : (after config history).budgetConsumed.get? orgId = some consumed) :
    consumed ≤ config.epsilonTotalQuarterly := by
  induction history with
  | nil => exact nomatch h
  | cons call earlier ih =>
    by_cases hcall : call = .resetQuarterlyBudgets
    · subst hcall
      exact nomatch h
    · obtain ⟨hnodup, hafford⟩ := releasedTo_spec heps (distinct_after earlier) call
      unfold after at h
      rw [step_budget heps hcall, get?_foldl_charge _ hnodup] at h
      split at h
      · rename_i hmem
        obtain rfl := Option.some.inj h
        exact hafford orgId hmem
      · exact ih h

theorem latest_eq_none_iff {key : String} :
    latest key history = none ↔ ∀ metric, .submitMetric metric ∈ history → metric.key ≠ key := by
  induction history with
  | nil => simp [latest]
  | cons call earlier ih =>
    cases call with
    | submitMetric metric =>
      unfold latest
      by_cases hkey : metric.key = key
      · rw [if_pos hkey]
        constructor
        · intro h
          cases h
        · intro h
          exact absurd hkey (h metric List.mem_cons_self)
      · rw [if_neg hkey, ih]
        simp [hkey]
    | _ => simpa [latest] using ih

/-- Some member has metrics exactly when some were submitted under the key of a member. -/
theorem aggregated_ne_nil_iff (members : List String) :
    (after config history).aggregated members metricName period ≠ [] ↔
      ∃ orgId ∈ members, Submitted history orgId metricName period := by
  have hnone : (after config history).aggregated members metricName period = [] ↔
      ∀ orgId ∈ members, ¬ Submitted history orgId metricName period := by
    unfold aggregated
    rw [List.filterMap_eq_nil_iff]
    refine forall₂_congr fun orgId _ => ?_
    rw [getLast?_metrics_after, Option.map_eq_none_iff, latest_eq_none_iff]
    unfold Submitted
    push Not
    rfl
  rw [ne_eq, hnone]
  push Not
  rfl

/-- A release that is not made leaves the budgets as they are. -/
theorem budget_of_not_release (heps : 0 < config.epsilonPerRelease)
    (h : isRelease (publishBenchmark config s cohortId metricName period meanNoise
      medianNoise).1 = false) :
    (publishBenchmark config s cohortId metricName period meanNoise medianNoise).2.budgetConsumed =
      s.budgetConsumed := by
  have hstep := step_budget (s := s) heps (fun heq => nomatch heq :
    Call.publishBenchmark cohortId metricName period meanNoise medianNoise ≠ .resetQuarterlyBudgets)
  unfold step releasedTo at hstep
  dsimp only at hstep
  rw [if_neg (by rw [h]; exact Bool.false_ne_true)] at hstep
  exact hstep

/-- A release is refused for its price exactly when it is due and some member cannot
afford it. -/
theorem exhausted_iff (heps : 0 < config.epsilonPerRelease) :
    (∃ orgId budget limit, (publishBenchmark config s cohortId metricName period meanNoise
      medianNoise).1 = .error (.privacyBudgetExhausted orgId budget limit)) ↔
      Due config s cohortId metricName period ∧
        ¬ Affordable config s (s.cohorts.getD cohortId []) := by
  by_cases hdue : Due config s cohortId metricName period
  · rcases publishBenchmark_of_due meanNoise medianNoise heps hdue with
      ⟨hafford, h⟩ | ⟨hafford, orgId, budget, limit, h⟩
    · rw [h]
      exact ⟨(fun ⟨_, _, _, hans⟩ => nomatch hans), fun hboth => absurd hafford hboth.2⟩
    · rw [h]
      exact ⟨fun _ => ⟨hdue, hafford⟩, fun _ => ⟨orgId, budget, limit, rfl⟩⟩
  · obtain ⟨reason, h⟩ := publishBenchmark_of_not_due meanNoise medianNoise hdue
    rw [h]
    exact ⟨(fun ⟨_, _, _, hans⟩ => nomatch hans), fun hboth => absurd hboth.1 hdue⟩

/-- **The budget is accounted for** after every history. -/
theorem budget_accounted (heps : 0 < config.epsilonPerRelease) (history : List Call) :
    BudgetAccounted config history where
  consumed := consumed_after heps history
  bounded := fun _ _ => bounded_after heps history
  remaining := by
    intro orgId
    unfold getRemainingBudget
    rw [consumed_after heps]
  unchanged := fun _ _ _ meanNoise medianNoise =>
    budget_of_not_release meanNoise medianNoise heps
  exhausted := by
    intro cohortId metricName period meanNoise medianNoise
    dsimp only
    rw [exhausted_iff meanNoise medianNoise heps]
    unfold Due Affordable
    rw [aggregated_ne_nil_iff, and_assoc]
    push Not
    rfl

/-- Five organizations join a cohort and submit, and a benchmark is released. -/
def oneRelease : List Call :=
  let orgs := ["org-0", "org-1", "org-2", "org-3", "org-4"]
  let submit (orgId : String) : Call := .submitMetric
    { orgId, metricName := "cost_per_token_usd", rawValue := .finite (3 / 1000), period := "2026-Q1" }
  .publishBenchmark "cohort" "cost_per_token_usd" "2026-Q1" (discreteLaplace 0 0)
    (discreteLaplace 1 0) :: orgs.map submit ++ orgs.map (fun orgId => .joinCohort orgId "cohort") ++
      [.createCohort "cohort"]

theorem budget_accounted_oneRelease :
    BudgetAccounted {} oneRelease ∧ releases {} "org-0" oneRelease = 1 :=
  ⟨budget_accounted (by decide) oneRelease, by decide +kernel⟩

end FederatedBenchmarkProtocol
end ComputeIntelligence
