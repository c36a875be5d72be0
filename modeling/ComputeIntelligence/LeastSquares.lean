import Mathlib.Algebra.BigOperators.Ring.List
import Mathlib.Algebra.Order.BigOperators.Group.List
import Mathlib.Algebra.Order.Field.Basic
import Mathlib.Order.Lattice
import Mathlib.Tactic.Linarith
import Mathlib.Tactic.Ring

/-! # Fitting a line

A line fits a list of points as well as any other if its residuals sum to 0, and do so too when each
is multiplied with its abscissa (`Normal`): in that case the squared error of another line is that
of the first and the squares of the distances between the two (`squaredError_eq`).  The line through
the means whose slope is the covariation over the spread is such a line (`fit_normal`), as soon as
two of the points have different abscissae.
-/
namespace LeastSquares
variable {K : Type} [Field K]

/-- A line, by its value at 0 and its slope. -/
structure Line (K : Type) where
  intercept : K
  slope : K

namespace Line

/-- The value of the line. -/
def eval (l : Line K) (x : K) : K := l.intercept + l.slope * x

/-- How far a point lies above the line. -/
def residual (l : Line K) (p : K × K) : K := p.2 - l.eval p.1

/-- The sum of the squared residuals. -/
def squaredError (l : Line K) (points : List (K × K)) : K :=
  (points.map fun p => l.residual p ^ 2).sum

/-- The normal equations. -/
structure Normal (l : Line K) (points : List (K × K)) : Prop where
  sum : (points.map l.residual).sum = 0
  moment : (points.map fun p => p.1 * l.residual p).sum = 0

/-- The squared error of another line. -/
theorem squaredError_eq (l l' : Line K) (points : List (K × K)) :
    l'.squaredError points = l.squaredError points +
      (points.map fun p => (l.eval p.1 - l'.eval p.1) ^ 2).sum +
      2 * ((l.intercept - l'.intercept) * (points.map l.residual).sum +
        (l.slope - l'.slope) * (points.map fun p => p.1 * l.residual p).sum) := by
  induction points with
  | nil => simp [squaredError]
  | cons p points ih =>
    unfold squaredError at ih ⊢
    simp only [List.map_cons, List.sum_cons, ih]
    unfold residual eval
    ring

/-- A line that satisfies the normal equations fits best. -/
theorem Normal.squaredError_le [LinearOrder K] [IsStrictOrderedRing K] {l : Line K}
    {points : List (K × K)} (h : l.Normal points) (l' : Line K) :
    l.squaredError points ≤ l'.squaredError points := by
  have hsquares : 0 ≤ (points.map fun p => (l.eval p.1 - l'.eval p.1) ^ 2).sum := by
    apply List.sum_nonneg
    intro d hd
    obtain ⟨p, -, rfl⟩ := List.mem_map.1 hd
    exact sq_nonneg _
  rw [squaredError_eq l l', h.sum, h.moment]
  linarith

end Line

/-! ### The line through the means -/

/-- The mean of some values. -/
def mean (vals : List K) : K := vals.sum / vals.length

/-- The sum of the squared distances from the mean. -/
def spread (vals : List K) : K := (vals.map fun v => (v - mean vals) ^ 2).sum

/-- The sum of the products of the distances from the means. -/
def covariation (points : List (K × K)) : K :=
  (points.map fun p =>
    (p.1 - mean (points.map Prod.fst)) * (p.2 - mean (points.map Prod.snd))).sum

/-- The line through the means whose slope is the covariation over the spread. -/
def fit (points : List (K × K)) : Line K :=
  let slope := covariation points / spread (points.map Prod.fst)
  { intercept := mean (points.map Prod.snd) - slope * mean (points.map Prod.fst), slope }

theorem sum_map_sub {α : Type} (f g : α → K) (l : List α) :
    (l.map fun a => f a - g a).sum = (l.map f).sum - (l.map g).sum := by
  induction l with
  | nil => simp
  | cons a l ih =>
    simp only [List.map_cons, List.sum_cons, ih]
    ring

/-- The distances from the mean sum to 0. -/
theorem sum_sub_mean [CharZero K] (vals : List K) :
    (vals.map fun v => v - mean vals).sum = 0 := by
  rw [sum_map_sub, List.map_id', List.map_const', List.sum_replicate, nsmul_eq_mul]
  cases vals with
  | nil => simp
  | cons v vals =>
    have hlength : ((v :: vals).length : K) ≠ 0 := Nat.cast_ne_zero.2 (Nat.succ_ne_zero _)
    rw [mean, mul_div_cancel₀ _ hlength, sub_self]

/-- The residuals of the fitted line, from the means. -/
theorem residual_fit (points : List (K × K)) (p : K × K) : (fit points).residual p =
    (p.2 - mean (points.map Prod.snd)) -
      (fit points).slope * (p.1 - mean (points.map Prod.fst)) := by
  unfold Line.residual Line.eval fit
  ring

/-- **The fitted line satisfies the normal equations.** -/
theorem fit_normal [CharZero K] {points : List (K × K)}
    (hspread : spread (points.map Prod.fst) ≠ 0) : (fit points).Normal points := by
  have hx : (points.map fun p => p.1 - mean (points.map Prod.fst)).sum = 0 := by
    have h := sum_sub_mean (points.map Prod.fst)
    rwa [List.map_map] at h
  have hy : (points.map fun p => p.2 - mean (points.map Prod.snd)).sum = 0 := by
    have h := sum_sub_mean (points.map Prod.snd)
    rwa [List.map_map] at h
  have hsum : (points.map (fit points).residual).sum = 0 := by
    rw [List.map_congr_left fun p _ => residual_fit points p, sum_map_sub,
      List.sum_map_mul_left, hx, hy, mul_zero, sub_zero]
  refine ⟨hsum, ?_⟩
  -- the abscissae may be taken from their mean, since the residuals sum to 0
  have hcentred : (points.map fun p => p.1 * (fit points).residual p).sum =
      (points.map fun p => (p.1 - mean (points.map Prod.fst)) * (fit points).residual p).sum +
        mean (points.map Prod.fst) * (points.map (fit points).residual).sum := by
    rw [← List.sum_map_mul_left, ← List.sum_map_add]
    exact congrArg List.sum (List.map_congr_left fun p _ => by ring)
  have hsplit : (points.map fun p =>
      (p.1 - mean (points.map Prod.fst)) * (fit points).residual p).sum =
        covariation points - (fit points).slope * spread (points.map Prod.fst) := by
    unfold covariation spread
    rw [List.map_map, ← List.sum_map_mul_left, ← sum_map_sub]
    refine congrArg List.sum (List.map_congr_left fun p _ => ?_)
    rw [residual_fit]
    simp only [Function.comp_apply]
    ring
  have hslope : (fit points).slope * spread (points.map Prod.fst) = covariation points :=
    div_mul_cancel₀ _ hspread
  rw [hcentred, hsplit, hslope, hsum, sub_self, mul_zero, add_zero]

/-- Values that are not all the same are spread. -/
theorem spread_pos [LinearOrder K] [IsStrictOrderedRing K] {vals : List K} {v w : K} (hv : v ∈ vals)
    (hw : w ∈ vals) (hne : v ≠ w) : 0 < spread vals := by
  have hterm : ∀ d ∈ vals.map fun v => (v - mean vals) ^ 2, 0 ≤ d := by
    intro d hd
    obtain ⟨u, -, rfl⟩ := List.mem_map.1 hd
    exact sq_nonneg _
  have hle : ∀ u ∈ vals, (u - mean vals) ^ 2 ≤ spread vals := fun u hu =>
    List.single_le_sum hterm _ (List.mem_map_of_mem hu)
  rcases eq_or_ne v (mean vals) with hmean | hmean
  · have hpos : 0 < (w - mean vals) ^ 2 := by
      apply sq_pos_of_ne_zero
      rw [← hmean]
      exact sub_ne_zero.2 hne.symm
    exact hpos.trans_le (hle w hw)
  · exact (sq_pos_of_ne_zero (sub_ne_zero.2 hmean)).trans_le (hle v hv)

end LeastSquares
