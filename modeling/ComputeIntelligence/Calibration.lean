import ComputeIntelligence.ExceptRules
import ComputeIntelligence.HreMethods
import ComputeIntelligence.Pipeline

/-! # The calibration engine

`CalibrationEngine` (`confidence/calibration.py`).  A method is calibrated by a warm-start
curve, then by the pointwise median of bootstrapped regressions, and from enough labels on by
one isotonic regression.

The regression and the random numbers are not of this program: they are parameters
(`CalibrationLibraries`).  The points of a curve are pairs of a raw and a calibrated score; the
statistics of a curve that only go into the log, and its uncertainty band, are left out.
-/
namespace ComputeIntelligence
variable {F : Type} [ScoreArith F]
open ScoreArith

/-- A `CalibrationCurve`. -/
structure CalibrationCurve (F : Type) where
  points : List (F × F)
  sampleCount : Nat
  isWarmStart : Bool

/-- The settings of `ConfidenceConfig` that calibration reads. -/
structure CalibrationConfig (F : Type) where
  cap : F
  minSamplesFullCalibration : Int := 200
  minSamplesBootstrap : Int := 50

/-- `ConfidenceConfig()`. -/
def CalibrationConfig.default : CalibrationConfig F := { cap := dec 95 2 }

/-- A score, its outcome and its weight. -/
structure Sample where
  score : PyFloat
  outcome : ℚ
  weight : ℚ

/-- `sklearn` and `numpy`. -/
structure CalibrationLibraries (F : Type) where
  /-- `IsotonicRegression(y_min=0.0, y_max=cap, out_of_bounds="clip")` of the samples: what it
  predicts, or what `fit` raises. -/
  isotonic : F → List Sample → Except PyExn (F → F)
  /-- The indices that round `b` chooses among `n`, from the seed 42. -/
  choice : Nat → Nat → List Nat

/-- `WARM_START_CURVES`. -/
def warmStartCurves : List (String × List (F × F)) :=
  [("R1", [(dec 0 1, dec 0 1), (dec 5 1, dec 5 1), (dec 9 1, dec 92 2), (dec 98 2, dec 98 2),
      (dec 1 0, dec 1 0)]),
    ("R2", [(dec 0 1, dec 0 1), (dec 3 1, dec 22 2), (dec 5 1, dec 40 2), (dec 7 1, dec 58 2),
      (dec 9 1, dec 82 2), (dec 1 0, dec 90 2)]),
    ("R3", [(dec 0 1, dec 0 1), (dec 3 1, dec 18 2), (dec 5 1, dec 35 2), (dec 7 1, dec 52 2),
      (dec 9 1, dec 75 2), (dec 1 0, dec 85 2)]),
    ("R4", [(dec 0 1, dec 0 1), (dec 3 1, dec 20 2), (dec 5 1, dec 38 2), (dec 7 1, dec 55 2),
      (dec 9 1, dec 78 2), (dec 1 0, dec 88 2)]),
    ("R5", [(dec 0 1, dec 0 1), (dec 3 1, dec 15 2), (dec 5 1, dec 30 2), (dec 7 1, dec 48 2),
      (dec 9 1, dec 68 2), (dec 1 0, dec 75 2)]),
    ("R6", [(dec 0 1, dec 0 1), (dec 3 1, dec 12 2), (dec 5 1, dec 25 2), (dec 7 1, dec 40 2),
      (dec 9 1, dec 58 2), (dec 1 0, dec 65 2)])]

/-! ### Interpolation -/

/-- Where `_interpolate` returns: at an end of the curve, in a segment of it, at the guard of
its division, or behind its loop. -/
inductive Located (F : Type) where
  | plateau (calibrated : F)
  | segment (p q : F × F)
  | guard (p q : F × F)
  | fallback

/-- The greatest of a calibrated score and those of some points. -/
def greatest (c : F) (points : List (F × F)) : F := points.foldl (fun m p => max m p.2) c

/-- The loop over the segments. -/
def locateSegment (value : F) : List (F × F) → Located F
  | p :: q :: rest =>
      if p.1 ≤ value ∧ value ≤ q.1 then
        if q.1 - p.1 ≤ lit 0 then .guard p q else .segment p q
      else locateSegment value (q :: rest)
  | _ => .fallback

/-- The branch of `_interpolate` for a value; every curve has a point. -/
def locate (points : List (F × F)) (value : F) : Located F :=
  match points with
  | [] => .fallback
  | p :: rest =>
      let last := (p :: rest).getLast (List.cons_ne_nil p rest)
      if value ≤ p.1 then .plateau (greatest p.2 (rest.takeWhile fun q => q.1 = p.1))
      else if last.1 ≤ value then
        .plateau (greatest last.2 ((p :: rest).reverse.tail.takeWhile fun q => q.1 = last.1))
      else locateSegment value (p :: rest)

/-- A segment of a curve at a value. -/
def between (p q : F × F) (value : F) : F :=
  p.2 + (value - p.1) / (q.1 - p.1) * (q.2 - p.2)

/-- What each branch returns. -/
def Located.calibrated (value : F) : Located F → F
  | .plateau calibrated => calibrated
  | .segment p q => between p q value
  | .guard p q => max p.2 q.2
  | .fallback => value

/-- `_interpolate`. -/
def interpolate (points : List (F × F)) (value : F) : F := (locate points value).calibrated value

/-! ### The engine -/

/-- The state of a `CalibrationEngine`. -/
structure CalibrationEngine (F : Type) where
  curves : PyDict String (CalibrationCurve F)
  groundTruth : GroundTruth
  isoModels : PyDict String (F → F)

namespace CalibrationEngine

/-- `CalibrationEngine()`. -/
def init : CalibrationEngine F where
  curves := PyDict.ofList (warmStartCurves.map fun p =>
    (p.1, { points := p.2, sampleCount := 0, isWarmStart := true }))
  groundTruth := PyDict.empty
  isoModels := PyDict.empty

/-- `calibrate`. -/
def calibrate (config : CalibrationConfig F) (s : CalibrationEngine F) (method : String)
    (rawConfidence : F) : F :=
  match s.curves.get? method with
  | none => rawConfidence * dec 7 1
  | some curve =>
      match s.isoModels.get? method with
      | some predict => min config.cap (max (lit 0) (predict rawConfidence))
      | none => interpolate curve.points rawConfidence

/-- The samples of the labels, with `_with_tail_anchors`. -/
def withTailAnchors (labels : List GroundTruthLabel) : List Sample :=
  labels.map (fun label => ⟨label.predictedConfidence, if label.wasCorrect then 1 else 0, 1⟩) ++
    [⟨.finite 0, 0, 5 / 100⟩, ⟨.finite 1, 1, 5 / 100⟩]

/-- `np.linspace(0.0, 1.0, n + 1)`. -/
def linspace (n : Nat) : List F :=
  (List.range n).map (fun i : Nat => lit (i : ℚ) * (lit 1 / lit n) + lit 0) ++ [lit 1]

/-- `np.median`. -/
def median (xs : List F) : F :=
  let sorted := xs.insertionSort (· ≤ ·)
  if xs.length % 2 = 0 then
    (sorted.getD (xs.length / 2 - 1) (lit 0) + sorted.getD (xs.length / 2) (lit 0)) / lit 2
  else sorted.getD (xs.length / 2) (lit 0)

/-- The points of a regression. -/
def isotonicPoints (predict : F → F) : List (F × F) := (linspace 49).map fun x => (x, predict x)

/-- The points of the bootstrapped regressions: the median of their predictions. -/
def bootstrapPoints (predicts : List (F → F)) : List (F × F) :=
  (linspace 19).map fun x => (x, median (predicts.map fun predict => predict x))

/-- `_fit_isotonic`. -/
def fitIsotonic (libs : CalibrationLibraries F) (config : CalibrationConfig F)
    (s : CalibrationEngine F) (method : String) : CalibrationEngine F :=
  let labels := s.groundTruth.getD method []
  match libs.isotonic config.cap (withTailAnchors labels) with
  | .error _ => s
  | .ok predict =>
      { s with
        isoModels := s.isoModels.set method predict
        curves := s.curves.set method
          { points := isotonicPoints predict, sampleCount := labels.length, isWarmStart := false } }

/-- The regressions of `_fit_bootstrap`, each of a resample. -/
def bootstrapFits (libs : CalibrationLibraries F) (cap : F) (samples : List Sample) :
    Except PyExn (List (F → F)) :=
  (List.range 100).mapM fun b =>
    libs.isotonic cap ((libs.choice b samples.length).filterMap fun i => samples[i]?)

/-- `_fit_bootstrap`. -/
def fitBootstrap (libs : CalibrationLibraries F) (config : CalibrationConfig F)
    (s : CalibrationEngine F) (method : String) : CalibrationEngine F :=
  let labels := s.groundTruth.getD method []
  match bootstrapFits libs config.cap (withTailAnchors labels) with
  | .error _ => s
  | .ok predicts =>
      { s with
        curves := s.curves.set method
          { points := bootstrapPoints predicts, sampleCount := labels.length,
            isWarmStart := true } }

/-- `add_ground_truth`, also where the fit raises: the label stays. -/
def addGroundTruth (libs : CalibrationLibraries F) (config : CalibrationConfig F)
    (s : CalibrationEngine F) (label : GroundTruthLabel) : CalibrationEngine F :=
  let s := { s with groundTruth := AttributionProcessor.addGroundTruth s.groundTruth label }
  let count : Int := (s.groundTruth.getD label.methodUsed []).length
  if config.minSamplesFullCalibration ≤ count then fitIsotonic libs config s label.methodUsed
  else if config.minSamplesBootstrap ≤ count then fitBootstrap libs config s label.methodUsed
  else s

/-- The engine after some labels. -/
def trained (libs : CalibrationLibraries F) (config : CalibrationConfig F)
    (labels : List GroundTruthLabel) : CalibrationEngine F :=
  labels.foldl (addGroundTruth libs config) init

/-! ### One method among others -/

/-- Two engines agree on a method. -/
structure AgreeOn (method : String) (s s' : CalibrationEngine F) : Prop where
  curves : s.curves.get? method = s'.curves.get? method
  labels : s.groundTruth.get? method = s'.groundTruth.get? method
  models : s.isoModels.get? method = s'.isoModels.get? method

theorem AgreeOn.calibrate_eq {method : String} {s s' : CalibrationEngine F}
    (h : AgreeOn method s s') (config : CalibrationConfig F) (raw : F) :
    calibrate config s method raw = calibrate config s' method raw := by
  unfold calibrate
  rw [h.curves, h.models]

/-- A label of another method leaves a method alone. -/
theorem agreeOn_addGroundTruth_of_ne (libs : CalibrationLibraries F) (config : CalibrationConfig F)
    (s : CalibrationEngine F) {label : GroundTruthLabel} {method : String}
    (h : method ≠ label.methodUsed) : AgreeOn method (addGroundTruth libs config s label) s := by
  have hlabels : (AttributionProcessor.addGroundTruth s.groundTruth label).get? method =
      s.groundTruth.get? method := by
    unfold AttributionProcessor.addGroundTruth
    rw [PyDict.get?_set, if_neg h]
  unfold addGroundTruth fitIsotonic fitBootstrap
  dsimp only
  split
  · split
    · exact ⟨rfl, hlabels, rfl⟩
    · exact ⟨by rw [PyDict.get?_set, if_neg h], hlabels, by rw [PyDict.get?_set, if_neg h]⟩
  · split
    · split
      · exact ⟨rfl, hlabels, rfl⟩
      · exact ⟨by rw [PyDict.get?_set, if_neg h], hlabels, rfl⟩
    · exact ⟨rfl, hlabels, rfl⟩

/-- A label of a method keeps engines that agree on it in agreement. -/
theorem AgreeOn.addGroundTruth {libs : CalibrationLibraries F} {config : CalibrationConfig F}
    {s s' : CalibrationEngine F} {label : GroundTruthLabel} (h : AgreeOn label.methodUsed s s') :
    AgreeOn label.methodUsed (addGroundTruth libs config s label)
      (addGroundTruth libs config s' label) := by
  have hlabels : (AttributionProcessor.addGroundTruth s.groundTruth label).get? label.methodUsed =
      (AttributionProcessor.addGroundTruth s'.groundTruth label).get? label.methodUsed := by
    unfold AttributionProcessor.addGroundTruth PyDict.getD
    rw [PyDict.get?_set, PyDict.get?_set, h.labels]
  have hheld : (AttributionProcessor.addGroundTruth s.groundTruth label).getD label.methodUsed [] =
      (AttributionProcessor.addGroundTruth s'.groundTruth label).getD label.methodUsed [] := by
    unfold PyDict.getD
    rw [hlabels]
  unfold CalibrationEngine.addGroundTruth fitIsotonic fitBootstrap
  dsimp only
  rw [hheld]
  split
  · split
    · exact ⟨h.curves, hlabels, h.models⟩
    · exact ⟨by rw [PyDict.get?_set, PyDict.get?_set, if_pos rfl, if_pos rfl], hlabels,
        by rw [PyDict.get?_set, PyDict.get?_set, if_pos rfl, if_pos rfl]⟩
  · split
    · split
      · exact ⟨h.curves, hlabels, h.models⟩
      · exact ⟨by rw [PyDict.get?_set, PyDict.get?_set, if_pos rfl, if_pos rfl], hlabels, h.models⟩
    · exact ⟨h.curves, hlabels, h.models⟩

/-- **A method is trained by its own labels only.** -/
theorem agreeOn_trained_filter (libs : CalibrationLibraries F) (config : CalibrationConfig F)
    (labels : List GroundTruthLabel) (method : String) :
    AgreeOn method (trained libs config labels)
      (trained libs config (labels.filter fun label => label.methodUsed = method)) := by
  unfold trained
  induction labels using List.reverseRecOn with
  | nil => exact ⟨rfl, rfl, rfl⟩
  | append_singleton labels label ih =>
    rw [List.filter_append, List.foldl_append, List.foldl_append]
    by_cases h : label.methodUsed = method
    · subst h
      rw [List.filter_cons_of_pos (by simp)]
      exact ih.addGroundTruth
    · rw [List.filter_cons_of_neg (by simpa using h)]
      have hother := agreeOn_addGroundTruth_of_ne libs config
        (labels.foldl (addGroundTruth libs config) init) (Ne.symm h)
      exact ⟨hother.curves.trans ih.curves, hother.labels.trans ih.labels,
        hother.models.trans ih.models⟩

/-- Enough labels of a method put their regression in the place of its curve. -/
theorem calibrate_addGroundTruth_of_fit {libs : CalibrationLibraries F}
    {config : CalibrationConfig F} {s : CalibrationEngine F} {label : GroundTruthLabel}
    {predict : F → F}
    (hcount : config.minSamplesFullCalibration ≤
      (s.groundTruth.getD label.methodUsed [] ++ [label]).length)
    (hfit : libs.isotonic config.cap
      (withTailAnchors (s.groundTruth.getD label.methodUsed [] ++ [label])) = .ok predict) (raw : F) :
    calibrate config (addGroundTruth libs config s label) label.methodUsed raw =
      min config.cap (max (lit 0) (predict raw)) := by
  have hlabels : (AttributionProcessor.addGroundTruth s.groundTruth label).getD label.methodUsed [] =
      s.groundTruth.getD label.methodUsed [] ++ [label] := by
    unfold AttributionProcessor.addGroundTruth
    show (PyDict.get? _ _).getD [] = _
    rw [PyDict.get?_set, if_pos rfl]
    rfl
  unfold addGroundTruth fitIsotonic
  dsimp only
  rw [hlabels, if_pos hcount, hfit]
  unfold calibrate
  dsimp only
  rw [PyDict.get?_set, PyDict.get?_set, if_pos rfl, if_pos rfl]

/-! ### What the labels keep -/

/-- The curves and the regressions of an engine are as told. -/
structure Holds (P : List (F × F) → Prop) (Q : (F → F) → Prop) (s : CalibrationEngine F) :
    Prop where
  curves : ∀ method curve, s.curves.get? method = some curve → P curve.points
  models : ∀ method predict, s.isoModels.get? method = some predict → Q predict

/-- A regression of some samples. -/
def Fitted (libs : CalibrationLibraries F) (cap : F) (predict : F → F) : Prop :=
  ∃ samples, libs.isotonic cap samples = .ok predict

section Holds
variable {libs : CalibrationLibraries F} {config : CalibrationConfig F}
  {P : List (F × F) → Prop} {Q : (F → F) → Prop} {s : CalibrationEngine F}

omit [ScoreArith F] in
theorem Holds.setCurve (h : Holds P Q s) {method : String} {curve : CalibrationCurve F}
    (hcurve : P curve.points) : Holds P Q { s with curves := s.curves.set method curve } where
  curves m c hc := by
    rw [PyDict.get?_set] at hc
    split at hc
    · obtain rfl := Option.some.inj hc
      exact hcurve
    · exact h.curves m c hc
  models := h.models

omit [ScoreArith F] in
theorem Holds.setModel (h : Holds P Q s) {method : String} {predict : F → F}
    (hpredict : Q predict) : Holds P Q { s with isoModels := s.isoModels.set method predict } where
  curves := h.curves
  models m f hf := by
    rw [PyDict.get?_set] at hf
    split at hf
    · obtain rfl := Option.some.inj hf
      exact hpredict
    · exact h.models m f hf

/-- One label: what holds of the regressions and of their curves goes on to hold. -/
theorem Holds.addGroundTruth
    (hisotonic : ∀ predict, Fitted libs config.cap predict → Q predict ∧ P (isotonicPoints predict))
    (hbootstrap : ∀ predicts, (∀ predict ∈ predicts, Fitted libs config.cap predict) →
      P (bootstrapPoints predicts))
    (h : Holds P Q s) (label : GroundTruthLabel) : Holds P Q (addGroundTruth libs config s label) := by
  have hs : Holds P Q
      { s with groundTruth := AttributionProcessor.addGroundTruth s.groundTruth label } :=
    ⟨h.curves, h.models⟩
  unfold CalibrationEngine.addGroundTruth
  dsimp only
  split
  · unfold fitIsotonic
    dsimp only
    split
    · exact hs
    · rename_i predict hpredict
      obtain ⟨hq, hp⟩ := hisotonic predict ⟨_, hpredict⟩
      exact (hs.setModel hq).setCurve hp
  · split
    · unfold fitBootstrap
      dsimp only
      split
      · exact hs
      · rename_i predicts hpredicts
        refine hs.setCurve (hbootstrap predicts fun predict hp => ?_)
        obtain ⟨b, -, hfit⟩ := Except.mem_of_mapM hpredicts predict hp
        exact ⟨_, hfit⟩
    · exact hs

/-- Any number of labels. -/
theorem holds_trained (hwarm : ∀ p ∈ (warmStartCurves : List (String × List (F × F))), P p.2)
    (hisotonic : ∀ predict, Fitted libs config.cap predict → Q predict ∧ P (isotonicPoints predict))
    (hbootstrap : ∀ predicts, (∀ predict ∈ predicts, Fitted libs config.cap predict) →
      P (bootstrapPoints predicts))
    (labels : List GroundTruthLabel) : Holds P Q (trained libs config labels) := by
  unfold trained
  have hinit : Holds P Q (init : CalibrationEngine F) := by
    refine ⟨fun method curve hcurve => ?_, fun method predict h => ?_⟩
    · have hmem := PyDict.mem_of_find hcurve
      have hkeys : ((warmStartCurves : List (String × List (F × F))).map fun p =>
          (p.1, ({ points := p.2, sampleCount := 0, isWarmStart := true } :
            CalibrationCurve F))).map Prod.fst = ["R1", "R2", "R3", "R4", "R5", "R6"] := rfl
      unfold init at hmem
      dsimp only at hmem
      rw [PyDict.items_ofList (by rw [hkeys]; decide)] at hmem
      obtain ⟨p, hp, heq⟩ := List.mem_map.1 hmem
      obtain ⟨-, rfl⟩ := Prod.mk.inj heq
      exact hwarm p hp
    · cases h
  induction labels using List.reverseRecOn with
  | nil => exact hinit
  | append_singleton labels label ih =>
    rw [List.foldl_append]
    exact ih.addGroundTruth hisotonic hbootstrap label

end Holds
end CalibrationEngine
end ComputeIntelligence
