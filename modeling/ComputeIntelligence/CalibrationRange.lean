import Mathlib.Data.List.GetD
import ComputeIntelligence.Calibration
import ComputeIntelligence.ScoreRange

/-! # Calibration keeps scores

A confidence between 0 and 1 is calibrated to one: by a regression, which is clipped; by a
curve whose calibrated points are scores, since the line between two of them never leaves
their range (`isScore_between`); and by the discount of a method without a curve.
-/
namespace ComputeIntelligence
variable {F : Type} [RoundedArith F]
open ScoreArith RoundedArith

/-! ### Interpolation -/

theorem isScore_greatest {c : F} {points : List (F × F)} (hc : IsScore c)
    (h : ∀ p ∈ points, IsScore p.2) : IsScore (greatest c points) := by
  induction points generalizing c with
  | nil => exact hc
  | cons p points ih =>
    exact ih (hc.max (h p List.mem_cons_self)) fun q hq => h q (List.mem_cons_of_mem p hq)

/-- What the loop over the segments finds: two points, around the value where they are a
segment, or nothing. -/
def Located.Within (points : List (F × F)) (value : F) : Located F → Prop
  | .segment p q => p ∈ points ∧ q ∈ points ∧ p.1 ≤ value ∧ value ≤ q.1 ∧ ¬ q.1 - p.1 ≤ lit 0
  | .guard p q => p ∈ points ∧ q ∈ points
  | .fallback => True
  | .plateau _ => False

theorem Located.Within.cons {points : List (F × F)} {value : F} {found : Located F}
    (h : found.Within points value) (p : F × F) : found.Within (p :: points) value := by
  cases found with
  | segment q r => exact ⟨List.mem_cons_of_mem p h.1, List.mem_cons_of_mem p h.2.1, h.2.2⟩
  | guard q r => exact ⟨List.mem_cons_of_mem p h.1, List.mem_cons_of_mem p h.2⟩
  | fallback => exact trivial
  | plateau c => exact h.elim

theorem locateSegment_within (points : List (F × F)) (value : F) :
    (locateSegment value points).Within points value := by
  induction points with
  | nil => exact trivial
  | cons p rest ih =>
    cases rest with
    | nil => exact trivial
    | cons q rest =>
      have hq : q ∈ p :: q :: rest := List.mem_cons_of_mem p List.mem_cons_self
      rw [locateSegment]
      split
      · rename_i hin
        split
        · exact ⟨List.mem_cons_self, hq⟩
        · rename_i hwidth
          exact ⟨List.mem_cons_self, hq, hin.1, hin.2, hwidth⟩
      · exact ih.cons p

/-- Between two scores the line stays a score, whether it rises or falls. -/
theorem isScore_between {p q : F × F} (hp : IsScore p.2) (hq : IsScore q.2) {value : F}
    (hlow : p.1 ≤ value) (hhigh : value ≤ q.1) (hwidth : ¬ q.1 - p.1 ≤ lit 0) :
    IsScore (between p q value) := by
  have hwidth' : 0 < val (q.1 - p.1) := lit_zero_lt_iff.1 (not_le.1 hwidth)
  have ht0 : 0 ≤ val ((value - p.1) / (q.1 - p.1)) := by
    rw [val_div]
    refine rnd_nonneg (div_nonneg ?_ (le_of_lt hwidth'))
    rw [val_sub]
    exact rnd_nonneg (sub_nonneg.2 (val_le_val.2 hlow))
  have ht1 : val ((value - p.1) / (q.1 - p.1)) ≤ 1 := by
    rw [val_div]
    refine rnd_le_one ((div_le_one hwidth').2 ?_)
    rw [val_sub, val_sub]
    exact rnd_mono (sub_le_sub_right (val_le_val.2 hhigh) _)
  have hrise : val (q.2 - p.2) = rnd F (val q.2 - val p.2) := val_sub _ _
  unfold IsScore between
  generalize q.2 - p.2 = d at hrise ⊢
  generalize (value - p.1) / (q.1 - p.1) = t at ht0 ht1 ⊢
  have hproduct : val (t * d) = rnd F (val t * val d) := val_mul t d
  rw [val_add]
  rcases le_total (val p.2) (val q.2) with hup | hdown
  · have hd0 : 0 ≤ val d := by
      rw [hrise]
      exact rnd_nonneg (sub_nonneg.2 hup)
    have hd1 : val d ≤ rnd F (1 - val p.2) := by
      rw [hrise]
      exact rnd_mono (sub_le_sub_right hq.2 _)
    have h0 : 0 ≤ val (t * d) := by
      rw [hproduct]
      exact rnd_nonneg (mul_nonneg ht0 hd0)
    have h1 : val (t * d) ≤ val d := by
      rw [hproduct]
      exact rnd_le_val (mul_le_of_le_one_left hd0 ht1)
    refine ⟨rnd_nonneg (add_nonneg hp.1 h0), ?_⟩
    exact le_trans (rnd_mono (add_le_add_right (le_trans h1 hd1) _)) (rnd_compl hp.1 hp.2)
  · have hd0 : val d ≤ 0 := by
      rw [hrise]
      exact le_of_le_of_eq (rnd_mono (sub_nonpos.2 hdown)) (rnd_zero F)
    have hd1 : -val p.2 ≤ val d := by
      calc -val p.2 = rnd F (-val p.2) := by rw [rnd_neg, rnd_val]
        _ ≤ rnd F (val q.2 - val p.2) := rnd_mono (by linarith [hq.1])
        _ = val d := hrise.symm
    have h0 : val (t * d) ≤ 0 := by
      rw [hproduct]
      exact le_of_le_of_eq (rnd_mono (mul_nonpos_of_nonneg_of_nonpos ht0 hd0)) (rnd_zero F)
    have h1 : val d ≤ val (t * d) := by
      rw [hproduct]
      exact val_le_rnd (by nlinarith)
    refine ⟨rnd_nonneg (by linarith), ?_⟩
    exact le_trans (rnd_le_val (by linarith)) hp.2

/-- Interpolation on scores gives a score. -/
theorem isScore_interpolate {points : List (F × F)} (h : ∀ p ∈ points, IsScore p.2) {value : F}
    (hvalue : IsScore value) : IsScore (interpolate points value) := by
  unfold interpolate locate
  cases points with
  | nil => exact hvalue
  | cons p rest =>
    have hrest : ∀ q ∈ rest, IsScore q.2 := fun q hq => h q (List.mem_cons_of_mem p hq)
    dsimp only
    split
    · refine isScore_greatest (h p List.mem_cons_self) fun q hq => ?_
      exact hrest q ((List.takeWhile_sublist _).subset hq)
    · split
      · refine isScore_greatest (h _ (List.getLast_mem _)) fun q hq => ?_
        have hmem := List.mem_of_mem_tail ((List.takeWhile_sublist _).subset hq)
        exact h q (List.mem_reverse.1 hmem)
      · have hwithin := locateSegment_within (p :: rest) value
        cases hfound : locateSegment value (p :: rest) with
        | segment q r =>
          rw [hfound] at hwithin
          obtain ⟨hq, hr, hlow, hhigh, hwidth⟩ := hwithin
          exact isScore_between (h q hq) (h r hr) hlow hhigh hwidth
        | guard q r =>
          rw [hfound] at hwithin
          exact (h q hwithin.1).max (h r hwithin.2)
        | fallback => exact hvalue
        | plateau c =>
          rw [hfound] at hwithin
          exact hwithin.elim

namespace CalibrationEngine

theorem isScore_median {xs : List F} (h : ∀ x ∈ xs, IsScore x) : IsScore (median xs) := by
  have hstat : ∀ n, IsScore ((xs.insertionSort (· ≤ ·)).getD n (lit 0)) := by
    intro n
    rcases Nat.lt_or_ge n (xs.insertionSort (· ≤ ·)).length with hn | hn
    · rw [List.getD_eq_getElem _ _ hn]
      exact h _ ((List.perm_insertionSort _ xs).mem_iff.1 (List.getElem_mem hn))
    · rw [List.getD_eq_default _ _ hn]
      exact isScore_zero
  unfold median
  dsimp only
  split
  · have htwo : rnd F 2 = 2 := by
      have hd := rnd_dyadic (F := F) (k := 2) (n := 0) (by norm_num) (by norm_num)
      simpa using hd
    have ha := hstat (xs.length / 2 - 1)
    have hb := hstat (xs.length / 2)
    unfold IsScore
    rw [val_div, val_add, val_lit, htwo]
    refine ⟨rnd_nonneg (div_nonneg (rnd_nonneg (add_nonneg ha.1 hb.1)) zero_le_two), ?_⟩
    refine rnd_le_one ((div_le_one two_pos).2 ?_)
    exact le_of_le_of_eq (rnd_mono (by linarith [ha.2, hb.2])) htwo
  · exact hstat _

/-- The warm-start curves are the decimal ones, rounded. -/
theorem warmStartCurves_eq : (warmStartCurves : List (String × List (F × F))) =
    warmStartCurves.map fun p => (p.1, p.2.map fun q : ℚ × ℚ => (lit q.1, lit q.2)) := rfl

/-- The points of a trained engine are scores. -/
theorem holds_scores {libs : CalibrationLibraries F} {config : CalibrationConfig F}
    (hcap : IsScore config.cap)
    (hisotonic : ∀ predict, Fitted libs config.cap predict → ∀ x,
      lit 0 ≤ predict x ∧ predict x ≤ config.cap) (labels : List GroundTruthLabel) :
    Holds (fun points => ∀ p ∈ points, IsScore p.2) (fun _ => True)
      (trained libs config labels) := by
  have hpredict : ∀ predict, Fitted libs config.cap predict → ∀ x, IsScore (predict x) := by
    intro predict hp x
    obtain ⟨hlow, hhigh⟩ := hisotonic predict hp x
    exact ⟨lit_zero_le_iff.1 hlow, le_trans (val_le_val.2 hhigh) hcap.2⟩
  refine holds_trained ?_ (fun predict hp => ⟨trivial, ?_⟩) (fun predicts hp => ?_) labels
  · rw [warmStartCurves_eq]
    intro p hp q hq
    obtain ⟨curve, hcurve, rfl⟩ := List.mem_map.1 hp
    obtain ⟨point, hpoint, rfl⟩ := List.mem_map.1 hq
    have hunit : ∀ curve ∈ (warmStartCurves : List (String × List (ℚ × ℚ))),
        ∀ point ∈ curve.2, 0 ≤ point.2 ∧ point.2 ≤ 1 := by decide +kernel
    obtain ⟨h0, h1⟩ := hunit curve hcurve point hpoint
    exact isScore_lit h0 h1
  · intro p hmem
    obtain ⟨x, -, rfl⟩ := List.mem_map.1 hmem
    exact hpredict predict hp x
  · intro p hmem
    obtain ⟨x, -, rfl⟩ := List.mem_map.1 hmem
    refine isScore_median fun y hy => ?_
    obtain ⟨predict, hin, rfl⟩ := List.mem_map.1 hy
    exact hpredict predict (hp predict hin) x

/-- Calibration keeps scores, after any labels and for any method. -/
theorem isScore_calibrate {libs : CalibrationLibraries F} {config : CalibrationConfig F}
    (hcap : IsScore config.cap)
    (hisotonic : ∀ predict, Fitted libs config.cap predict → ∀ x,
      lit 0 ≤ predict x ∧ predict x ≤ config.cap) (labels : List GroundTruthLabel)
    (method : String) {raw : F} (hraw : IsScore raw) :
    IsScore (calibrate config (trained libs config labels) method raw) := by
  have hholds := holds_scores hcap hisotonic labels
  unfold calibrate
  split
  · exact hraw.mul (isScore_lit (by norm_num) (by norm_num))
  · rename_i curve hcurve
    split
    · exact isScore_min hcap (le_max_left _ _)
    · exact isScore_interpolate (hholds.curves method curve hcurve) hraw

end CalibrationEngine
end ComputeIntelligence
