import ComputeIntelligence.LeastSquares
import Mathlib.Data.Rat.Sqrt

/-! # The spend forecast

`SpendForecastEngine.forecast` (`forecast/engine.py`), over any ordered field and with any function
in the place of `sqrt`.  The months of the history are the abscissae 0, 1, …, so from two months on
they are spread, and the line of the forecast is the one that `LeastSquares.fit` puts through the
points (`line_eq_fit`).
-/
namespace ComputeIntelligence

/-- `ForecastPoint`. -/
structure ForecastPoint (K : Type) where
  monthOffset : Nat
  predictedSpendUsd : K
  lowerBoundUsd : K
  upperBoundUsd : K
deriving DecidableEq

/-- `SpendForecast`. -/
structure SpendForecast (K : Type) where
  trendPct : K
  residualStddevUsd : K
  points : List (ForecastPoint K)
deriving DecidableEq

namespace SpendForecastEngine
open LeastSquares
variable {K : Type} [Field K] [LinearOrder K]

/-- `x_vals`. -/
def xVals (history : List K) : List K := (List.range history.length).map Nat.cast

/-- `n`. -/
def n (history : List K) : K := (xVals history).length

/-- `x_mean`. -/
def xMean (history : List K) : K := (xVals history).sum / n history

/-- `y_mean`. -/
def yMean (history : List K) : K := history.sum / n history

/-- `denom`. -/
def denom (history : List K) : K := ((xVals history).map fun x => (x - xMean history) ^ 2).sum

/-- `slope`. -/
def slope (history : List K) : K :=
  if denom history = 0 then 0
  else (List.zipWith (fun x y => (x - xMean history) * (y - yMean history))
    (xVals history) history).sum / denom history

/-- `intercept`. -/
def intercept (history : List K) : K := yMean history - slope history * xMean history

/-- `residuals`. -/
def residuals (history : List K) : List K :=
  List.zipWith (fun x y => y - (intercept history + slope history * x)) (xVals history) history

/-- `residual_variance`. -/
def residualVariance (history : List K) : K :=
  ((residuals history).map fun r => r * r).sum / n history

/-- The point of an offset, for a width of the envelope. -/
def forecastPoint (history : List K) (confidenceWidth : K) (offset : Nat) : ForecastPoint K :=
  let monthIndex : K := (history.length + (offset - 1) : Nat)
  let prediction := max (intercept history + slope history * monthIndex) 0
  let lower := max (prediction - confidenceWidth) 0
  { monthOffset := offset, predictedSpendUsd := prediction, lowerBoundUsd := lower,
    upperBoundUsd := max (prediction + confidenceWidth) lower }

/-- `trend_pct`. -/
def trendPct (history : List K) : K :=
  match history.head?, history.getLast? with
  | some baseline, some latest =>
      if baseline = 0 then 0 else (latest - baseline) / baseline * 100
  | _, _ => 0

/-- `forecast`; an error is the text of its `ValueError`. -/
def forecast (sqrt : K → K) (monthlySpendUsd : List K) (horizonMonths : Int) :
    Except String (SpendForecast K) :=
  if monthlySpendUsd.length < 2 then
    .error "at least two months of spend history are required"
  else if horizonMonths ≤ 0 then .error "horizon_months must be > 0"
  else
    let residualStddev := sqrt (residualVariance monthlySpendUsd)
    let confidenceWidth := 196 / 100 * residualStddev
    .ok { trendPct := trendPct monthlySpendUsd, residualStddevUsd := residualStddev,
          points := (List.range' 1 horizonMonths.toNat).map
            (forecastPoint monthlySpendUsd confidenceWidth) }

/-! ### The line -/

/-- The months of the history with their spend. -/
def points (history : List K) : List (K × K) := (xVals history).zip history

/-- The line of the forecast. -/
def line (history : List K) : Line K := { intercept := intercept history, slope := slope history }

section
variable {history : List K}

omit [LinearOrder K] in
theorem length_xVals (history : List K) : (xVals history).length = history.length := by
  unfold xVals
  rw [List.length_map, List.length_range]

omit [LinearOrder K] in
theorem map_fst_points (history : List K) : (points history).map Prod.fst = xVals history :=
  List.map_fst_zip (length_xVals history).le

omit [LinearOrder K] in
theorem map_snd_points (history : List K) : (points history).map Prod.snd = history :=
  List.map_snd_zip (length_xVals history).ge

omit [LinearOrder K] in
theorem xMean_eq (history : List K) : xMean history = LeastSquares.mean (xVals history) := rfl

omit [LinearOrder K] in
theorem yMean_eq (history : List K) : yMean history = LeastSquares.mean history := by
  unfold yMean n LeastSquares.mean
  rw [length_xVals]

omit [LinearOrder K] in
theorem denom_eq (history : List K) : denom history = spread (xVals history) := rfl

variable [IsStrictOrderedRing K]

/-- Two months have different abscissae. -/
theorem denom_pos (hlength : 2 ≤ history.length) : 0 < denom history := by
  have hfirst : ((0 : Nat) : K) ∈ xVals history :=
    List.mem_map_of_mem (List.mem_range.2 (by omega))
  have hsecond : ((1 : Nat) : K) ∈ xVals history :=
    List.mem_map_of_mem (List.mem_range.2 (by omega))
  rw [denom_eq]
  exact spread_pos hfirst hsecond (Nat.cast_injective.ne (by omega))

/-- **The line is the least-squares line of the history.** -/
theorem line_eq_fit (hlength : 2 ≤ history.length) : line history = fit (points history) := by
  have hslope : slope history = covariation (points history) / spread (xVals history) := by
    unfold slope covariation
    rw [if_neg (denom_pos hlength).ne', map_fst_points, map_snd_points, denom_eq, xMean_eq,
      yMean_eq, points, List.map_zip_eq_zipWith]
    rfl
  unfold line fit intercept
  rw [map_fst_points, map_snd_points, hslope, xMean_eq, yMean_eq]

omit [IsStrictOrderedRing K] in
theorem residuals_eq (history : List K) :
    residuals history = (points history).map (line history).residual := by
  rw [points, List.map_zip_eq_zipWith]
  rfl

theorem line_normal (hlength : 2 ≤ history.length) : (line history).Normal (points history) := by
  rw [line_eq_fit hlength]
  apply fit_normal
  rw [map_fst_points, ← denom_eq]
  exact (denom_pos hlength).ne'

end

/-! ### The points -/

/-- The bounds of a forecast are in order. -/
structure Ordered (p : ForecastPoint K) : Prop where
  nonneg : 0 ≤ p.lowerBoundUsd
  lower : p.lowerBoundUsd ≤ p.predictedSpendUsd
  upper : p.predictedSpendUsd ≤ p.upperBoundUsd

theorem forecastPoint_ordered [IsStrictOrderedRing K] (history : List K) {confidenceWidth : K}
    (hwidth : 0 ≤ confidenceWidth) (offset : Nat) :
    Ordered (forecastPoint history confidenceWidth offset) where
  nonneg := le_max_right _ _
  lower := max_le (sub_le_self _ hwidth) (le_max_right _ _)
  upper := le_max_of_le_left (le_add_of_nonneg_right hwidth)

/-- What a forecast over some history and horizon is. -/
structure Fitted (history : List K) (horizon : Nat) (result : SpendForecast K) : Prop where
  denom_ne : denom history ≠ 0
  optimal : ∀ l : Line K, (line history).squaredError (points history) ≤
    l.squaredError (points history)
  residuals_sum : (residuals history).sum = 0
  stddev : result.residualStddevUsd ^ 2 = residualVariance history
  offsets : result.points.map ForecastPoint.monthOffset = List.range' 1 horizon
  predicted : ∀ k p, result.points[k]? = some p →
    p.predictedSpendUsd = max ((line history).eval (history.length + k : Nat)) 0
  ordered : ∀ p ∈ result.points, Ordered p

/-- A forecast continues the least-squares line of its history, with ordered bounds. -/
theorem forecast_fitted [IsStrictOrderedRing K] {sqrt : K → K} {history : List K} {horizon : Int}
    (hlength : 2 ≤ history.length) (hhorizon : 1 ≤ horizon)
    (hnonneg : 0 ≤ sqrt (residualVariance history))
    (hsquare : sqrt (residualVariance history) ^ 2 = residualVariance history) :
    ∃ result, forecast sqrt history horizon = .ok result ∧
      Fitted history horizon.toNat result := by
  have hnormal := line_normal hlength
  have hwidth : 0 ≤ 196 / 100 * sqrt (residualVariance history) := by positivity
  unfold forecast
  rw [if_neg (by omega), if_neg (by omega)]
  refine ⟨_, rfl, (denom_pos hlength).ne', hnormal.squaredError_le, ?_, hsquare, ?_, ?_, ?_⟩
  · rw [residuals_eq]
    exact hnormal.sum
  · rw [List.map_map]
    exact List.map_id _
  · intro k p hp
    rw [List.getElem?_map, Option.map_eq_some_iff] at hp
    obtain ⟨offset, hoffset, rfl⟩ := hp
    obtain ⟨hk, hget⟩ := List.getElem?_eq_some_iff.1 hoffset
    rw [List.getElem_range', Nat.one_mul] at hget
    -- the offset of the k-th point is k + 1, and its month is k months after the history
    subst hget
    show max (intercept history + slope history * ((history.length + (1 + k - 1) : Nat) : K)) 0 = _
    rw [Nat.add_sub_cancel_left]
    rfl
  · intro p hp
    obtain ⟨offset, -, rfl⟩ := List.mem_map.1 hp
    exact forecastPoint_ordered history hwidth offset

/-- Four months that lie on both sides of their mean. -/
def swingHistory : List ℚ := [3, 1, 1, 3]

/-- Their forecast for two months. -/
theorem forecast_swingHistory :
    2 ≤ swingHistory.length ∧ (1 : Int) ≤ 2 ∧
      0 ≤ Rat.sqrt (residualVariance swingHistory) ∧
      Rat.sqrt (residualVariance swingHistory) ^ 2 = residualVariance swingHistory ∧
      (∃ result, forecast Rat.sqrt swingHistory 2 = .ok result ∧ Fitted swingHistory 2 result) ∧
      (forecast Rat.sqrt swingHistory 2).toOption.map SpendForecast.points =
        some [⟨1, 2, 4 / 100, 396 / 100⟩, ⟨2, 2, 4 / 100, 396 / 100⟩] := by
  have hnonneg : 0 ≤ Rat.sqrt (residualVariance swingHistory) := by decide +kernel
  have hsquare : Rat.sqrt (residualVariance swingHistory) ^ 2 = residualVariance swingHistory := by
    decide +kernel
  exact ⟨by decide, by decide, hnonneg, hsquare,
    forecast_fitted (by decide) (by decide) hnonneg hsquare, by decide +kernel⟩

end SpendForecastEngine
end ComputeIntelligence
