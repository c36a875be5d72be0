import ComputeIntelligence.Calibration
import ComputeIntelligence.OrderStatistics
import ComputeIntelligence.RoundedArith

/-! # Calibration is monotone

A higher raw confidence is never calibrated to a lower one.  Interpolation on a rising curve
is monotone, also where raw points repeat (`monotone_interpolate`), and between the ends of any
curve it finds a segment with a width (`locate_spec`).  The warm-start curves rise, and
so does the pointwise median of regressions that do.  Scores are exact here.
-/
namespace ComputeIntelligence
open ScoreArith

/-- Raw and calibrated scores that do not fall. -/
def Rising (points : List (ℚ × ℚ)) : Prop :=
  points.Pairwise fun p q => p.1 ≤ q.1 ∧ p.2 ≤ q.2

theorem Rising.le_getLast {p : ℚ × ℚ} {rest : List (ℚ × ℚ)} (h : Rising (p :: rest)) :
    ∀ q ∈ p :: rest, q.2 ≤ ((p :: rest).getLast (List.cons_ne_nil p rest)).2 := by
  intro q hq
  have hsplit := List.dropLast_append_getLast (List.cons_ne_nil p rest)
  unfold Rising at h
  rw [← hsplit, List.pairwise_append] at h
  rw [← hsplit] at hq
  rcases List.mem_append.1 hq with hq | hq
  · exact (h.2.2 q hq _ (List.mem_singleton_self _)).2
  · rw [List.mem_singleton.1 hq]

/-! ### Segments -/

section Segment
variable {p q : ℚ × ℚ} {v w : ℚ}

theorem between_mono (hraw : p.1 < q.1) (hcal : p.2 ≤ q.2) (h : v ≤ w) :
    between p q v ≤ between p q w := by
  unfold between
  have hwidth : 0 ≤ q.1 - p.1 := by linarith
  have hrise : 0 ≤ q.2 - p.2 := by linarith
  gcongr

theorem between_left (p q : ℚ × ℚ) : between p q p.1 = p.2 := by
  unfold between
  rw [sub_self, zero_div, zero_mul, add_zero]

theorem between_right (hraw : p.1 < q.1) : between p q q.1 = q.2 := by
  unfold between
  rw [div_self (by linarith), one_mul]
  ring

end Segment

/-! ### Plateaus -/

theorem le_greatest (c : ℚ) (points : List (ℚ × ℚ)) : c ≤ greatest c points := by
  induction points generalizing c with
  | nil => exact le_rfl
  | cons p points ih => exact le_trans (le_max_left c p.2) (ih _)

theorem greatest_le {c b : ℚ} {points : List (ℚ × ℚ)} (hc : c ≤ b) (h : ∀ p ∈ points, p.2 ≤ b) :
    greatest c points ≤ b := by
  induction points generalizing c with
  | nil => exact hc
  | cons p points ih =>
    exact ih (max_le hc (h p List.mem_cons_self)) fun q hq => h q (List.mem_cons_of_mem p hq)

/-! ### The loop -/

/-- What the loop over the segments returns. -/
abbrev walk (value : ℚ) (points : List (ℚ × ℚ)) : ℚ :=
  (locateSegment value points).calibrated value

section Loop
variable {p q : ℚ × ℚ} {rest : List (ℚ × ℚ)} {v w : ℚ}

/-- One round, for a value behind the first point. -/
theorem locateSegment_cons (hp : p.1 < v) :
    locateSegment v (p :: q :: rest) =
      if v ≤ q.1 then .segment p q else locateSegment v (q :: rest) := by
  rw [locateSegment]
  by_cases hq : v ≤ q.1
  · have hwidth : ¬ q.1 - p.1 ≤ lit 0 := by
      rw [lit_exact]
      linarith
    rw [if_pos ⟨le_of_lt hp, hq⟩, if_pos hq, if_neg hwidth]
  · rw [if_neg (fun h => hq h.2), if_neg hq]

theorem walk_cons (hp : p.1 < v) :
    walk v (p :: q :: rest) = if v ≤ q.1 then between p q v else walk v (q :: rest) := by
  unfold walk
  rw [locateSegment_cons hp]
  split
  · rfl
  · rfl

/-- Between the first point and the last, the loop finds a segment with a width. -/
theorem locateSegment_spec (hp : p.1 < v)
    (hlast : v ≤ ((p :: rest).getLast (List.cons_ne_nil p rest)).1) :
    ∃ q r, locateSegment v (p :: rest) = .segment q r ∧ q.1 < v ∧ v ≤ r.1 := by
  induction rest generalizing p with
  | nil => exact absurd hp (not_lt.2 hlast)
  | cons q rest ih =>
    rw [locateSegment_cons hp]
    by_cases hq : v ≤ q.1
    · exact ⟨p, q, if_pos hq, hp, hq⟩
    · rw [if_neg hq]
      rw [List.getLast_cons (List.cons_ne_nil q rest)] at hlast
      exact ih (not_le.1 hq) hlast

/-- The loop stays between the first point and the last. -/
theorem walk_bounds (hrising : Rising (p :: rest)) (hp : p.1 < v)
    (hlast : v ≤ ((p :: rest).getLast (List.cons_ne_nil p rest)).1) :
    p.2 ≤ walk v (p :: rest) ∧
      walk v (p :: rest) ≤ ((p :: rest).getLast (List.cons_ne_nil p rest)).2 := by
  induction rest generalizing p with
  | nil => exact absurd hp (not_lt.2 hlast)
  | cons q rest ih =>
    obtain ⟨hhead, htail⟩ := List.pairwise_cons.1 hrising
    have hpq := hhead q List.mem_cons_self
    rw [List.getLast_cons (List.cons_ne_nil q rest)] at hlast ⊢
    rw [walk_cons hp]
    by_cases hq : v ≤ q.1
    · have hraw : p.1 < q.1 := lt_of_lt_of_le hp hq
      have hright : between p q v ≤ q.2 := by
        rw [← between_right hraw]
        exact between_mono hraw hpq.2 hq
      have hleft : p.2 ≤ between p q v := by
        rw [← between_left p q]
        exact between_mono hraw hpq.2 (le_of_lt hp)
      rw [if_pos hq]
      exact ⟨hleft, le_trans hright (Rising.le_getLast htail q List.mem_cons_self)⟩
    · rw [if_neg hq]
      obtain ⟨hlow, hhigh⟩ := ih htail (not_le.1 hq) hlast
      exact ⟨le_trans hpq.2 hlow, hhigh⟩

theorem walk_mono (hrising : Rising (p :: rest)) (hp : p.1 < v) (hvw : v ≤ w)
    (hlast : w ≤ ((p :: rest).getLast (List.cons_ne_nil p rest)).1) :
    walk v (p :: rest) ≤ walk w (p :: rest) := by
  induction rest generalizing p with
  | nil => exact absurd (lt_of_lt_of_le hp hvw) (not_lt.2 hlast)
  | cons q rest ih =>
    obtain ⟨hhead, htail⟩ := List.pairwise_cons.1 hrising
    have hpq := hhead q List.mem_cons_self
    rw [List.getLast_cons (List.cons_ne_nil q rest)] at hlast
    rw [walk_cons hp, walk_cons (lt_of_lt_of_le hp hvw)]
    by_cases hv : v ≤ q.1
    · have hraw : p.1 < q.1 := lt_of_lt_of_le hp hv
      rw [if_pos hv]
      by_cases hw : w ≤ q.1
      · rw [if_pos hw]
        exact between_mono hraw hpq.2 hvw
      · -- the point between the two segments separates them
        rw [if_neg hw]
        have hright : between p q v ≤ q.2 := by
          rw [← between_right hraw]
          exact between_mono hraw hpq.2 hv
        exact le_trans hright (walk_bounds htail (not_le.1 hw) hlast).1
    · have hw : ¬ w ≤ q.1 := fun h => hv (le_trans hvw h)
      rw [if_neg hv, if_neg hw]
      exact ih htail (not_le.1 hv) hlast

/-- The plateau in front is no higher than what follows it. -/
theorem greatest_le_walk (hrising : Rising (p :: rest)) (hp : p.1 < v)
    (hlast : v ≤ ((p :: rest).getLast (List.cons_ne_nil p rest)).1) :
    greatest p.2 (rest.takeWhile fun q => q.1 = p.1) ≤ walk v (p :: rest) := by
  induction rest generalizing p with
  | nil => exact absurd hp (not_lt.2 hlast)
  | cons q rest ih =>
    obtain ⟨hhead, htail⟩ := List.pairwise_cons.1 hrising
    have hpq := hhead q List.mem_cons_self
    by_cases hsame : q.1 = p.1
    · have hq : ¬ v ≤ q.1 := by
        rw [hsame]
        exact not_le.2 hp
      rw [List.getLast_cons (List.cons_ne_nil q rest)] at hlast
      rw [walk_cons hp, if_neg hq, List.takeWhile_cons_of_pos (by simpa using hsame), ← hsame]
      show greatest (max p.2 q.2) _ ≤ _
      rw [max_eq_right hpq.2]
      exact ih htail (not_le.1 hq) hlast
    · rw [List.takeWhile_cons_of_neg (by simpa using hsame)]
      exact (walk_bounds hrising hp hlast).1

end Loop

/-! ### Curves -/

/-- **No guard, no fallback**, whatever the points. -/
theorem locate_spec {points : List (ℚ × ℚ)} (hne : points ≠ []) (value : ℚ) :
    (∃ c, locate points value = .plateau c) ∨ ∃ p q, locate points value = .segment p q := by
  obtain ⟨p, rest, rfl⟩ := List.exists_cons_of_ne_nil hne
  unfold locate
  dsimp only
  by_cases hlow : value ≤ p.1
  · rw [if_pos hlow]
    exact .inl ⟨_, rfl⟩
  · rw [if_neg hlow]
    by_cases hhigh : ((p :: rest).getLast (List.cons_ne_nil p rest)).1 ≤ value
    · rw [if_pos hhigh]
      exact .inl ⟨_, rfl⟩
    · rw [if_neg hhigh]
      obtain ⟨q, r, heq, -, -⟩ := locateSegment_spec (not_le.1 hlow) (le_of_not_ge hhigh)
      exact .inr ⟨q, r, heq⟩

/-- **Interpolation is monotone** on a rising curve, whatever raw points repeat. -/
theorem monotone_interpolate {points : List (ℚ × ℚ)} (hrising : Rising points) (hne : points ≠ []) :
    Monotone (interpolate points) := by
  obtain ⟨p, rest, rfl⟩ := List.exists_cons_of_ne_nil hne
  intro v w hvw
  unfold interpolate locate
  dsimp only
  have hlow : greatest p.2 (rest.takeWhile fun q => q.1 = p.1) ≤
      ((p :: rest).getLast (List.cons_ne_nil p rest)).2 := by
    refine greatest_le (hrising.le_getLast p List.mem_cons_self) fun q hq => ?_
    exact hrising.le_getLast q (List.mem_cons_of_mem p (List.takeWhile_sublist _ |>.subset hq))
  have hhigh := le_greatest ((p :: rest).getLast (List.cons_ne_nil p rest)).2
    ((p :: rest).reverse.tail.takeWhile fun q =>
      q.1 = ((p :: rest).getLast (List.cons_ne_nil p rest)).1)
  by_cases hwlow : w ≤ p.1
  · rw [if_pos hwlow, if_pos (le_trans hvw hwlow)]
    exact le_rfl
  · rw [if_neg hwlow]
    by_cases hwhigh : ((p :: rest).getLast (List.cons_ne_nil p rest)).1 ≤ w
    · rw [if_pos hwhigh]
      by_cases hvlow : v ≤ p.1
      · rw [if_pos hvlow]
        exact le_trans hlow hhigh
      · rw [if_neg hvlow]
        by_cases hvhigh : ((p :: rest).getLast (List.cons_ne_nil p rest)).1 ≤ v
        · rw [if_pos hvhigh]
          exact le_rfl
        · rw [if_neg hvhigh]
          exact le_trans (walk_bounds hrising (not_le.1 hvlow) (le_of_not_ge hvhigh)).2 hhigh
    · have hwlast := le_of_not_ge hwhigh
      rw [if_neg hwhigh]
      by_cases hvlow : v ≤ p.1
      · rw [if_pos hvlow]
        exact greatest_le_walk hrising (not_le.1 hwlow) hwlast
      · have hvhigh : ¬ ((p :: rest).getLast (List.cons_ne_nil p rest)).1 ≤ v :=
          fun h => hwhigh (le_trans h hvw)
        rw [if_neg hvlow, if_neg hvhigh]
        exact walk_mono hrising (not_le.1 hvlow) hvw hwlast

/-! ### The engine -/

namespace CalibrationEngine

/-- The median rises with the values. -/
theorem median_mono {xs ys : List ℚ} (h : List.Forall₂ (· ≤ ·) xs ys) : median xs ≤ median ys := by
  unfold median
  dsimp only
  rw [h.length_eq]
  have hstat := OrderStatistics.getD_insertionSort_le h
  split
  · rw [lit_exact, lit_exact]
    have hlow := hstat (ys.length / 2 - 1) 0
    have hhigh := hstat (ys.length / 2) 0
    gcongr
  · exact hstat _ _

theorem linspace_rising (n : Nat) : (linspace n : List ℚ).Pairwise (· ≤ ·) := by
  unfold linspace
  simp only [lit_exact, add_zero]
  rw [List.pairwise_append]
  refine ⟨?_, List.pairwise_singleton _ _, ?_⟩
  · rw [List.pairwise_map]
    refine (List.pairwise_lt_range (n := n)).imp fun {i j} hij => ?_
    have hle : (i : ℚ) ≤ j := by exact_mod_cast le_of_lt hij
    gcongr
  · intro x hx y hy
    obtain ⟨i, hi, rfl⟩ := List.mem_map.1 hx
    obtain rfl := List.mem_singleton.1 hy
    have hin := List.mem_range.1 hi
    have hn : (0 : ℚ) < n := by exact_mod_cast (by omega : 0 < n)
    rw [mul_one_div, div_le_one hn]
    exact_mod_cast le_of_lt hin

theorem linspace_ne_nil (n : Nat) : (linspace n : List ℚ) ≠ [] :=
  List.append_ne_nil_of_right_ne_nil _ (List.cons_ne_nil _ _)

/-- A curve that a monotone function gives rises. -/
theorem rising_of_monotone {f : ℚ → ℚ} (hf : Monotone f) (n : Nat) :
    Rising ((linspace n).map fun x => (x, f x)) := by
  unfold Rising
  rw [List.pairwise_map]
  exact (linspace_rising n).imp fun h => ⟨h, hf h⟩

/-- The pointwise median of monotone functions is monotone. -/
theorem monotone_median {predicts : List (ℚ → ℚ)} (h : ∀ predict ∈ predicts, Monotone predict) :
    Monotone fun x => median (predicts.map fun predict => predict x) := by
  intro x y hxy
  apply median_mono
  rw [List.forall₂_map_left_iff, List.forall₂_map_right_iff]
  exact List.forall₂_same.2 fun predict hp => h predict hp hxy

theorem rising_warmStart : ∀ p ∈ (warmStartCurves : List (String × List (ℚ × ℚ))),
    Rising p.2 ∧ p.2 ≠ [] := by
  unfold Rising
  decide +kernel

/-- The curves of a trained engine rise, and its regressions are monotone. -/
theorem holds_rising {libs : CalibrationLibraries ℚ} {config : CalibrationConfig ℚ}
    (hisotonic : ∀ predict, Fitted libs config.cap predict → Monotone predict)
    (labels : List GroundTruthLabel) :
    Holds (fun points => Rising points ∧ points ≠ []) Monotone (trained libs config labels) := by
  refine holds_trained rising_warmStart (fun predict hp => ?_) (fun predicts hp => ?_) labels
  · refine ⟨hisotonic predict hp, rising_of_monotone (hisotonic predict hp) 49, ?_⟩
    exact fun h => linspace_ne_nil 49 (List.map_eq_nil_iff.1 h)
  · refine ⟨rising_of_monotone (monotone_median fun f hf => hisotonic f (hp f hf)) 19, ?_⟩
    exact fun h => linspace_ne_nil 19 (List.map_eq_nil_iff.1 h)

/-- A correct attribution at one half. -/
def halfLabel : GroundTruthLabel where
  attributionId := "attr"
  trueTeamId := "team:a"
  trueCostCenterId := "cc"
  source := "user_correction"
  predictedTeamId := "team:a"
  predictedConfidence := .finite (1 / 2)
  methodUsed := "R2"
  wasCorrect := true
  createdAt := 0

/-- The regression of that label between its anchors. -/
def halfLibraries : CalibrationLibraries ℚ where
  isotonic cap _ := .ok fun x => cap * min 1 (2 * max 0 x)
  choice _ n := List.range n

end CalibrationEngine
end ComputeIntelligence
