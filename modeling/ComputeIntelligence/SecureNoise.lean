import Mathlib.Tactic.FieldSimp
import Mathlib.Tactic.NormNum
import ComputeIntelligence.FederatedBenchmark

/-! # What the secure noise hides

The secure noise is an integer, so a published mean is the average of the members' values
plus an integer, and rounding to six digits keeps the fraction (`pyRound_add_int`).  Two
stores that differ in one submitted value can return the same means exactly when their
rounded averages differ by an integer (`hides_iff`): the fraction tells them apart.
-/
namespace ComputeIntelligence

theorem roundEven_add_even (q : ℚ) (k : Int) :
    roundEven (q + ((2 * k : Int) : ℚ)) = roundEven q + 2 * k := by
  have hfloor : ⌊q + ((2 * k : Int) : ℚ)⌋ = ⌊q⌋ + 2 * k := Int.floor_add_intCast q (2 * k)
  have hrest : q + ((2 * k : Int) : ℚ) - ((⌊q⌋ + 2 * k : Int) : ℚ) = q - ⌊q⌋ := by
    push_cast
    ring
  have hparity : (⌊q⌋ + 2 * k) % 2 = ⌊q⌋ % 2 := by omega
  unfold roundEven
  rw [hfloor, hrest, hparity]
  split
  · rfl
  · split
    · omega
    · split
      · rfl
      · omega

/-- Rounding to six digits keeps integers apart. -/
theorem pyRound_add_int (q : ℚ) (k : Int) : pyRound 6 (q + k) = pyRound 6 q + k := by
  have hscale : (q + k) * 10 ^ 6 = q * 10 ^ 6 + ((2 * (500000 * k) : Int) : ℚ) := by
    push_cast
    ring
  unfold pyRound
  rw [hscale, roundEven_add_even]
  push_cast
  ring

namespace FederatedBenchmarkProtocol

/-- The average of the members' latest values. -/
def average (s : FederatedBenchmarkProtocol) (cohortId metricName period : String) : ℚ :=
  mean ((s.aggregated (s.cohorts.getD cohortId []) metricName period).map BenchmarkMetric.rawValue)

/-- A mean that a release can return for some outcome of the draws. -/
def CanReturn (config : FBPConfig) (s : FederatedBenchmarkProtocol)
    (cohortId metricName period : String) (y : ℚ) : Prop :=
  ∃ meanNoise medianNoise benchmark, config.CanDraw meanNoise ∧ config.CanDraw medianNoise ∧
    (publishBenchmark config s cohortId metricName period meanNoise medianNoise).1 =
      .ok benchmark ∧ benchmark.noisyMean = y

/-- Two states that differ only in one submitted value, clipped in both. -/
def Neighbours (config : FBPConfig) (s s' : FederatedBenchmarkProtocol) : Prop :=
  s'.cohorts = s.cohorts ∧ s'.budgetConsumed = s.budgetConsumed ∧
    ∃ key earlier later, ∃ (metric : BenchmarkMetric PyFloat) (value : PyFloat),
      s.metrics.get? key = some (earlier ++ config.clipped metric :: later) ∧
      s'.metrics.get? key =
        some (earlier ++ config.clipped { metric with rawValue := value } :: later) ∧
      ∀ k, k ≠ key → s'.metrics.get? k = s.metrics.get? k

/-- Whatever mean is returned on the one store can be returned on the other. -/
def Hides (config : FBPConfig) (s s' : FederatedBenchmarkProtocol)
    (cohortId metricName period : String) : Prop :=
  ∀ y, CanReturn config s cohortId metricName period y →
    CanReturn config s' cohortId metricName period y

/-- The means that are published differ by an integer, if noise is added at all. -/
def SameFraction (config : FBPConfig) (s s' : FederatedBenchmarkProtocol)
    (cohortId metricName period : String) : Prop :=
  ∃ k : Int, pyRound 6 (average s cohortId metricName period) =
    pyRound 6 (average s' cohortId metricName period) + k ∧ (config.bound metricName ≤ 0 → k = 0)

variable {config : FBPConfig} {s s' : FederatedBenchmarkProtocol}
variable {cohortId metricName period : String}

/-! ### Neighbours -/

/-- Neighbours have metrics under the same keys. -/
theorem Neighbours.getLast?_eq_none (h : Neighbours config s s') (k : String) :
    (s'.metrics.getD k []).getLast? = none ↔ (s.metrics.getD k []).getLast? = none := by
  obtain ⟨-, -, key, earlier, later, metric, value, hs, hs', hother⟩ := h
  unfold PyDict.getD
  by_cases hk : k = key
  · rw [hk, hs, hs']
    simp
  · rw [hother k hk]

theorem Neighbours.due_iff (h : Neighbours config s s') :
    Due config s' cohortId metricName period ↔ Due config s cohortId metricName period := by
  have hnil : ∀ members : List String, s'.aggregated members metricName period = [] ↔
      s.aggregated members metricName period = [] := by
    intro members
    unfold aggregated
    rw [List.filterMap_eq_nil_iff, List.filterMap_eq_nil_iff]
    exact forall₂_congr fun orgId _ => h.getLast?_eq_none _
  unfold Due
  rw [h.1, ne_eq, ne_eq, hnil]

theorem Neighbours.affordable_iff (h : Neighbours config s s') (members : List String) :
    Affordable config s' members ↔ Affordable config s members := by
  unfold Affordable
  rw [h.2.1]

/-! ### What can be returned -/

/-- The noise of a draw: an integer, and none where the scale is not positive. -/
theorem discreteLaplace_eq (first second : Nat) (scale : ℚ) :
    ∃ k : Int, discreteLaplace first second scale = k ∧ (scale ≤ 0 → k = 0) := by
  unfold discreteLaplace
  by_cases hscale : scale ≤ 0
  · rw [if_pos hscale]
    exact ⟨0, by norm_num, fun _ => rfl⟩
  · rw [if_neg hscale]
    exact ⟨first - second, by push_cast; rfl, fun h => absurd h hscale⟩

/-- Every integer is the noise of some draw, where the scale is positive. -/
theorem exists_discreteLaplace {k : Int} {scale : ℚ} (h : scale ≤ 0 → k = 0) :
    ∃ first second, discreteLaplace first second scale = k := by
  unfold discreteLaplace
  by_cases hscale : scale ≤ 0
  · exact ⟨0, 0, by rw [if_pos hscale, h hscale]; rfl⟩
  · obtain ⟨n, hn | hn⟩ := k.eq_nat_or_neg
    · exact ⟨n, 0, by rw [if_neg hscale, hn]; norm_num⟩
    · exact ⟨0, n, by rw [if_neg hscale, hn]; norm_num⟩

/-- The scale of the mean's noise has the sign of the bound. -/
theorem meanNoiseScale_nonpos (heps : 0 < config.epsilonPerRelease) {values : List ℚ}
    (h : values ≠ []) (bound : ℚ) :
    bound / values.length / (config.epsilonPerRelease / 2) ≤ 0 ↔ bound ≤ 0 := by
  have hlength : (0 : ℚ) < values.length := by exact_mod_cast List.length_pos_of_ne_nil h
  have hstat : 0 < config.epsilonPerRelease / 2 := by linarith
  rw [div_le_iff₀ hstat, zero_mul, div_le_iff₀ hlength, zero_mul]

/-- **The means of a release**: the rounded average plus an integer, any integer where
noise is added. -/
theorem canReturn_iff (hsecure : config.useSecureNoise = true) (heps : 0 < config.epsilonPerRelease)
    (hdue : Due config s cohortId metricName period)
    (hafford : Affordable config s (s.cohorts.getD cohortId [])) (y : ℚ) :
    CanReturn config s cohortId metricName period y ↔
      ∃ k : Int, y = pyRound 6 (average s cohortId metricName period) + k ∧
        (config.bound metricName ≤ 0 → k = 0) := by
  have hreleased : ∀ meanNoise medianNoise,
      (publishBenchmark config s cohortId metricName period meanNoise medianNoise).1 =
        .ok (releasedBenchmark config s cohortId metricName period meanNoise medianNoise) := by
    intro meanNoise medianNoise
    rcases publishBenchmark_of_due meanNoise medianNoise heps hdue with ⟨-, h⟩ | ⟨hnot, -⟩
    · rw [h]
    · exact absurd hafford hnot
  have hvalues : (s.aggregated (s.cohorts.getD cohortId []) metricName period).map
      BenchmarkMetric.rawValue ≠ [] := fun hnil => hdue.2 (List.map_eq_nil_iff.1 hnil)
  have hsign := meanNoiseScale_nonpos heps hvalues (config.bound metricName)
  constructor
  · rintro ⟨meanNoise, medianNoise, benchmark, hmean, -, hok, rfl⟩
    rw [hreleased] at hok
    obtain rfl := Except.ok.inj hok
    obtain ⟨first, second, rfl⟩ := hmean hsecure
    obtain ⟨k, hk, hzero⟩ := discreteLaplace_eq first second (config.bound metricName /
      ((s.aggregated (s.cohorts.getD cohortId []) metricName period).map
        BenchmarkMetric.rawValue).length / (config.epsilonPerRelease / 2))
    refine ⟨k, ?_, fun hbound => hzero (hsign.2 hbound)⟩
    unfold releasedBenchmark
    dsimp only
    rw [hk, pyRound_add_int]
    rfl
  · rintro ⟨k, rfl, hzero⟩
    -- two exponents whose difference is `k`; the median takes any
    obtain ⟨first, second, hk⟩ := exists_discreteLaplace fun hscale => hzero (hsign.1 hscale)
    refine ⟨discreteLaplace first second, discreteLaplace 0 0, _, fun _ => ⟨first, second, rfl⟩,
      fun _ => ⟨0, 0, rfl⟩, hreleased _ _, ?_⟩
    unfold releasedBenchmark
    dsimp only
    rw [hk, pyRound_add_int]
    rfl

/-- A mean that is returned without a release is zero. -/
theorem canReturn_of_not_due (hnot : ¬ Due config s cohortId metricName period) (y : ℚ) :
    CanReturn config s cohortId metricName period y ↔ y = 0 := by
  constructor
  · rintro ⟨meanNoise, medianNoise, benchmark, -, -, hok, rfl⟩
    obtain ⟨reason, h⟩ := publishBenchmark_of_not_due meanNoise medianNoise hnot
    rw [h] at hok
    obtain rfl := Except.ok.inj hok
    rfl
  · rintro rfl
    obtain ⟨reason, h⟩ :=
      publishBenchmark_of_not_due (discreteLaplace 0 0) (discreteLaplace 0 0) hnot
    exact ⟨discreteLaplace 0 0, discreteLaplace 0 0, _, fun _ => ⟨0, 0, rfl⟩, fun _ => ⟨0, 0, rfl⟩,
      by rw [h], rfl⟩

/-- A release that raises returns nothing. -/
theorem not_canReturn (hdue : Due config s cohortId metricName period)
    (hnot : ¬ (0 < config.epsilonPerRelease ∧
      Affordable config s (s.cohorts.getD cohortId []))) (y : ℚ) :
    ¬ CanReturn config s cohortId metricName period y := by
  rintro ⟨meanNoise, medianNoise, benchmark, -, -, hok, -⟩
  by_cases heps : 0 < config.epsilonPerRelease
  · rcases publishBenchmark_of_due meanNoise medianNoise heps hdue with
      ⟨hafford, -⟩ | ⟨-, orgId, budget, limit, h⟩
    · exact hnot ⟨heps, hafford⟩
    · rw [h] at hok
      cases hok
  · rw [publishBenchmark_of_nonpos meanNoise medianNoise (not_lt.1 heps) hdue] at hok
    cases hok

/-- Submitting one value or another. -/
theorem neighbours_submitMetric (s : FederatedBenchmarkProtocol)
    (metric : BenchmarkMetric PyFloat) (value : PyFloat) :
    Neighbours config (submitMetric config s metric)
      (submitMetric config s { metric with rawValue := value }) := by
  refine ⟨rfl, rfl, metric.key, s.metrics.getD metric.key [], [], metric, value, ?_, ?_, ?_⟩
  · exact (PyDict.get?_set _ _ _ _).trans (if_pos rfl)
  · exact (PyDict.get?_set _ _ _ _).trans (if_pos rfl)
  · intro k hk
    exact (PyDict.get?_set _ _ _ _).trans ((if_neg hk).trans
      ((PyDict.get?_set _ _ _ _).trans (if_neg hk)).symm)

/-- Five organizations in a cohort with a cost per token each, one of them given. -/
def fiveCosts (value : PyFloat) : FederatedBenchmarkProtocol :=
  let orgs := ["org-1", "org-2", "org-3", "org-4"]
  let others := after {} (orgs.map (fun orgId => .submitMetric
      ⟨orgId, "cost_per_token_usd", .finite (3 / 1000), "2026-Q1"⟩) ++
    ("org-0" :: orgs).map (fun orgId => .joinCohort orgId "cohort") ++ [.createCohort "cohort"])
  submitMetric {} others ⟨"org-0", "cost_per_token_usd", value, "2026-Q1"⟩

end FederatedBenchmarkProtocol
end ComputeIntelligence
