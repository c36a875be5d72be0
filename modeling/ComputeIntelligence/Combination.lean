import ComputeIntelligence.HreEngine

/-! # The combination of evidence

`combine_evidence` (`hre/combination.py`) with everything it returns, and with the learned
correlations that the engine does not pass.  The confidence it returns without them is
`combineEvidence` (`combineEvidence_eq`).

The loop over the pairs leaves each method the least of the discounts applied to it
(`weight_eq`), and the whole result depends on the correlations through the discounts of
the pairs alone (`combineEvidenceResult_congr`).
-/
namespace ComputeIntelligence
variable {F : Type} [ScoreArith F]
open ScoreArith

/-- `IndividualEvidence`. -/
structure IndividualEvidence (F : Type) where
  method : String
  rawConfidence : F
  calibratedConfidence : F
  weight : F

/-- `DependencyPenalty`. -/
structure DependencyPenalty (F : Type) where
  methodA : String
  methodB : String
  discountFactor : F
  rationale : String

/-- `EvidenceCombinationResult`. -/
structure EvidenceCombinationResult (F : Type) where
  combinedConfidence : F
  individualConfidences : List (IndividualEvidence F)
  dependencyPenaltiesApplied : List (DependencyPenalty F) := []
  capped : Bool := false
  diminishingReturnsApplied : Bool := false

/-- The correlations in use: a learned key replaces a configured one. -/
def mergedCorrelations (config : CombinationConfig F) (learned : PyDict (String × String) F) :
    PyDict (String × String) F :=
  learned.items.foldl (fun correlations p => correlations.set p.1 p.2) config.correlatedPairs

/-- `bounded_signals`. -/
def boundedSignals (signals : List (String × F)) : List (String × F) :=
  signals.map fun s => (s.1, max (lit 0) (min (lit 1) s.2))

/-- Step 1: the weights. -/
def dependencyWeights (correlations : PyDict (String × String) F) (bounded : List (String × F)) :
    PyDict String F :=
  (pairsOf bounded).foldl (discountPair correlations)
    (bounded.foldl (fun weights s => weights.set s.1 (lit 1)) PyDict.empty)

/-- Step 1: the penalties. -/
def dependencyPenalties (correlations : PyDict (String × String) F)
    (bounded : List (String × F)) : List (DependencyPenalty F) :=
  (pairsOf bounded).filterMap fun p =>
    (discountOf correlations p.1.1 p.2.1).map fun discount =>
      { methodA := p.1.1, methodB := p.2.1, discountFactor := discount,
        rationale := "correlated_signals" }

/-- Step 2: the signals, strongest first, each with its multiplier. -/
def rankedSignals (config : CombinationConfig F) (bounded : List (String × F)) :
    List ((String × F) × F) :=
  let sorted := bounded.insertionSort fun a b => b.2 ≤ a.2
  sorted.zip (diminishing config.diminishingFactor sorted.length).reverse

/-- Step 3: the product of the complements. -/
def productTerm (weight : String → F) (ranked : List ((String × F) × F)) : F :=
  ranked.foldl (fun product (s, d) =>
    product * (lit 1 - min (lit 1) (max (lit 0) (s.2 * weight s.1 * d)))) (lit 1)

/-- `weights.get(method, 1.0)`. -/
def weightOf (correlations : PyDict (String × String) F) (bounded : List (String × F))
    (method : String) : F :=
  (dependencyWeights correlations bounded).getD method (lit 1)

/-- The combined confidence of two or more signals, before it is rounded. -/
def unroundedConfidence (config : CombinationConfig F)
    (correlations : PyDict (String × String) F) (bounded : List (String × F)) : F :=
  min config.cap (lit 1 - productTerm (weightOf correlations bounded) (rankedSignals config bounded))

/-- `combine_evidence`; no learned correlations and an empty map of them are the same. -/
def combineEvidenceResult (config : CombinationConfig F) (learned : PyDict (String × String) F)
    (signals : List (String × F)) : EvidenceCombinationResult F :=
  match boundedSignals signals with
  | [] => { combinedConfidence := lit 0, individualConfidences := [] }
  | [(method, conf)] =>
      { combinedConfidence := min config.cap conf
        individualConfidences := [⟨method, conf, conf, lit 1⟩]
        capped := min config.cap conf < conf }
  | bounded =>
      let correlations := mergedCorrelations config learned
      let weight := weightOf correlations bounded
      let ranked := rankedSignals config bounded
      { combinedConfidence := round 4 (unroundedConfidence config correlations bounded)
        individualConfidences := ranked.map fun (s, d) =>
          ⟨s.1, s.2, s.2, round 4 (weight s.1 * d)⟩
        dependencyPenaltiesApplied := dependencyPenalties correlations bounded
        capped := config.cap < lit 1 - productTerm weight ranked
        diminishingReturnsApplied := 2 < bounded.length }

/-- The combined confidence before it is rounded: one signal is only capped. -/
def confidenceBeforeRounding (config : CombinationConfig F) (learned : PyDict (String × String) F)
    (signals : List (String × F)) : F :=
  match boundedSignals signals with
  | [] => lit 0
  | [(_, conf)] => min config.cap conf
  | bounded => unroundedConfidence config (mergedCorrelations config learned) bounded

/-- The confidence of two or more signals is rounded to four decimals. -/
theorem combinedConfidence_eq (config : CombinationConfig F)
    (learned : PyDict (String × String) F) (signals : List (String × F)) :
    (combineEvidenceResult config learned signals).combinedConfidence =
      if signals.length < 2 then confidenceBeforeRounding config learned signals
      else round 4 (confidenceBeforeRounding config learned signals) := by
  have hlen : signals.length = (boundedSignals signals).length := (List.length_map _).symm
  unfold combineEvidenceResult confidenceBeforeRounding
  rw [hlen]
  rcases boundedSignals signals with _ | ⟨s, _ | ⟨t, rest⟩⟩
  · rfl
  · rfl
  · rw [if_neg (by simp)]

/-- `combine_noisy_or_simple`. -/
def combineNoisyOrSimple (confidences : List F) (cap : F) : F :=
  if confidences = [] then lit 0
  else min cap (lit 1 - confidences.foldl (fun product c => product * (lit 1 - c)) (lit 1))

/-- Without learned correlations the confidence is that of the engine. -/
theorem combineEvidence_eq (config : CombinationConfig F) (signals : List (String × F)) :
    combineEvidence config signals =
      (combineEvidenceResult config PyDict.empty signals).combinedConfidence := by
  unfold combineEvidence combineEvidenceResult boundedSignals
  generalize signals.map (fun s => (s.1, max (lit 0) (min (lit 1) s.2))) = bounded
  rcases bounded with _ | ⟨s, _ | ⟨t, rest⟩⟩ <;> rfl

/-! ### The weights -/

omit [ScoreArith F] in
/-- A learned key replaces a configured one. -/
theorem get?_mergedCorrelations (config : CombinationConfig F)
    (learned : PyDict (String × String) F) (k : String × String) :
    (mergedCorrelations config learned).get? k =
      (learned.get? k).or (config.correlatedPairs.get? k) := by
  obtain ⟨items, hn⟩ := learned
  unfold mergedCorrelations
  generalize config.correlatedPairs = pairs
  show (items.foldl (fun correlations p => correlations.set p.1 p.2) pairs).get? k =
    (PyDict.find k items).or (pairs.get? k)
  induction items generalizing pairs with
  | nil => rfl
  | cons p items ih =>
    obtain ⟨hnot, hrest⟩ := List.nodup_cons.1 hn
    obtain ⟨key, x⟩ := p
    rw [List.foldl_cons, ih hrest, PyDict.get?_set, PyDict.find]
    by_cases hk : key = k
    · subst hk
      rw [PyDict.find_eq_none_iff.2 hnot, if_pos rfl, if_pos rfl]
      rfl
    · rw [if_neg hk, if_neg (Ne.symm hk)]

/-- The weaker signal of a pair: the first, when they are equal. -/
def weaker (p : (String × F) × (String × F)) : String := if p.1.2 ≤ p.2.2 then p.1.1 else p.2.1

/-- The discounts that a list of pairs applies to a method, in order. -/
def discountsOn (correlations : PyDict (String × String) F) (method : String)
    (pairs : List ((String × F) × (String × F))) : List F :=
  pairs.filterMap fun p =>
    if weaker p = method then discountOf correlations p.1.1 p.2.1 else none

/-- The discounts that are applied to a method. -/
def appliedDiscounts (correlations : PyDict (String × String) F) (bounded : List (String × F))
    (method : String) : List F :=
  discountsOn correlations method (pairsOf bounded)

theorem discountPair_of_none {correlations : PyDict (String × String) F}
    {p : (String × F) × (String × F)} (h : discountOf correlations p.1.1 p.2.1 = none)
    (weights : PyDict String F) : discountPair correlations weights p = weights := by
  unfold discountPair
  rw [h]

theorem discountPair_of_some {correlations : PyDict (String × String) F}
    {p : (String × F) × (String × F)} {discount : F}
    (h : discountOf correlations p.1.1 p.2.1 = some discount) (weights : PyDict String F) :
    discountPair correlations weights p =
      weights.set (weaker p) (min (weights.getD (weaker p) (lit 1)) discount) := by
  unfold discountPair
  rw [h]
  rfl

/-- A pair lowers the weight of its weaker signal to the discount, and no other. -/
theorem getD_discountPair (correlations : PyDict (String × String) F)
    (weights : PyDict String F) (p : (String × F) × (String × F)) (method : String) :
    (discountPair correlations weights p).getD method (lit 1) =
      (discountsOn correlations method [p]).foldl min (weights.getD method (lit 1)) := by
  unfold discountsOn
  rcases hd : discountOf correlations p.1.1 p.2.1 with _ | discount
  · rw [discountPair_of_none hd]
    simp [hd]
  · rw [discountPair_of_some hd]
    by_cases hw : weaker p = method
    · simp [hd, hw, PyDict.getD, PyDict.get?_set]
    · simp [hw, PyDict.getD, PyDict.get?_set, Ne.symm hw]

theorem getD_foldl_discountPair (correlations : PyDict (String × String) F) (method : String)
    (pairs : List ((String × F) × (String × F))) (weights : PyDict String F) :
    (pairs.foldl (discountPair correlations) weights).getD method (lit 1) =
      (discountsOn correlations method pairs).foldl min (weights.getD method (lit 1)) := by
  induction pairs generalizing weights with
  | nil => rfl
  | cons p pairs ih =>
    have hsplit : discountsOn correlations method (p :: pairs) =
        discountsOn correlations method [p] ++ discountsOn correlations method pairs :=
      List.filterMap_append (l := [p])
    rw [List.foldl_cons, ih, getD_discountPair, hsplit, List.foldl_append]

/-- Every weight begins at 1. -/
theorem getD_initialWeights (bounded : List (String × F)) (method : String) :
    (bounded.foldl (fun weights s => weights.set s.1 (lit 1)) PyDict.empty).getD method (lit 1) =
      (lit 1 : F) := by
  have hgo : ∀ weights : PyDict String F, weights.getD method (lit 1) = lit 1 →
      (bounded.foldl (fun weights s => weights.set s.1 (lit 1)) weights).getD method (lit 1) =
        lit 1 := by
    induction bounded with
    | nil => exact fun weights h => h
    | cons s bounded ih =>
      intro weights h
      refine ih _ ?_
      show ((weights.set s.1 (lit 1)).get? method).getD (lit 1) = lit 1
      rw [PyDict.get?_set]
      split
      · rfl
      · exact h
  exact hgo PyDict.empty rfl

/-- The weight of a method is the least of 1 and the discounts applied to it. -/
theorem weight_eq (correlations : PyDict (String × String) F) (bounded : List (String × F))
    (method : String) :
    weightOf correlations bounded method =
      (appliedDiscounts correlations bounded method).foldl min (lit 1) := by
  unfold weightOf dependencyWeights
  rw [getD_foldl_discountPair, getD_initialWeights]
  rfl

/-! ### The ranks -/

theorem length_diminishing (factor : F) (n : Nat) : (diminishing factor n).length = n := by
  induction n with
  | zero => rfl
  | succ n ih =>
    rw [diminishing, List.length_append, ih]
    split
    · exact Nat.add_comm 1 n
    · exact Nat.add_comm 1 n

/-- The ranked signals are the signals, each with one multiplier. -/
theorem rankedSignals_perm (config : CombinationConfig F) (bounded : List (String × F)) :
    ((rankedSignals config bounded).map Prod.fst).Perm bounded := by
  unfold rankedSignals
  dsimp only
  rw [List.map_fst_zip]
  · exact List.perm_insertionSort _ bounded
  · rw [List.length_reverse, length_diminishing]

/-! ### What the result depends on -/

theorem pairsOf_map {α β : Type} (f : α → β) (xs : List α) :
    pairsOf (xs.map f) = (pairsOf xs).map (Prod.map f f) := by
  induction xs with
  | nil => rfl
  | cons x xs ih =>
    rw [List.map_cons, pairsOf, ih, pairsOf, List.map_append, List.map_map, List.map_map]
    rfl

/-- Bounding the confidences keeps the methods of the pairs. -/
theorem methods_of_mem_pairsOf_bounded {signals : List (String × F)}
    {p : (String × F) × (String × F)} (h : p ∈ pairsOf (boundedSignals signals)) :
    ∃ q ∈ pairsOf signals, p.1.1 = q.1.1 ∧ p.2.1 = q.2.1 := by
  unfold boundedSignals at h
  rw [pairsOf_map] at h
  obtain ⟨q, hq, rfl⟩ := List.mem_map.1 h
  exact ⟨q, hq, rfl, rfl⟩

theorem mem_pairsOf_bounded {signals : List (String × F)} {q : (String × F) × (String × F)}
    (h : q ∈ pairsOf signals) :
    ∃ p ∈ pairsOf (boundedSignals signals), p.1.1 = q.1.1 ∧ p.2.1 = q.2.1 := by
  unfold boundedSignals
  rw [pairsOf_map]
  exact ⟨_, List.mem_map_of_mem h, rfl, rfl⟩

section congr
variable {correlations correlations' : PyDict (String × String) F} {bounded : List (String × F)}

theorem weightOf_congr (h : ∀ p ∈ pairsOf bounded,
    discountOf correlations' p.1.1 p.2.1 = discountOf correlations p.1.1 p.2.1) :
    weightOf correlations' bounded = weightOf correlations bounded := by
  funext method
  rw [weight_eq, weight_eq]
  congr 1
  refine List.filterMap_congr fun p hp => ?_
  rw [h p hp]

theorem dependencyPenalties_congr (h : ∀ p ∈ pairsOf bounded,
    discountOf correlations' p.1.1 p.2.1 = discountOf correlations p.1.1 p.2.1) :
    dependencyPenalties correlations' bounded = dependencyPenalties correlations bounded := by
  refine List.filterMap_congr fun p hp => ?_
  rw [h p hp]

/-- Every discount of a pair is in the list of penalties. -/
theorem mem_dependencyPenalties {p : (String × F) × (String × F)} {discount : F}
    (hp : p ∈ pairsOf bounded) (hd : discountOf correlations p.1.1 p.2.1 = some discount) :
    ⟨p.1.1, p.2.1, discount, "correlated_signals"⟩ ∈ dependencyPenalties correlations bounded := by
  refine List.mem_filterMap.2 ⟨p, hp, ?_⟩
  rw [hd]
  rfl

theorem discountOf_of_mem_dependencyPenalties {penalty : DependencyPenalty F}
    (h : penalty ∈ dependencyPenalties correlations bounded) :
    discountOf correlations penalty.methodA penalty.methodB = some penalty.discountFactor := by
  obtain ⟨p, -, hp⟩ := List.mem_filterMap.1 h
  obtain ⟨discount, hd, rfl⟩ := Option.map_eq_some_iff.1 hp
  exact hd

/-- The penalties show the discount of every pair. -/
theorem discountOf_eq_of_dependencyPenalties_eq {p : (String × F) × (String × F)}
    (h : dependencyPenalties correlations' bounded = dependencyPenalties correlations bounded)
    (hp : p ∈ pairsOf bounded) :
    discountOf correlations' p.1.1 p.2.1 = discountOf correlations p.1.1 p.2.1 := by
  rcases hd : discountOf correlations p.1.1 p.2.1 with _ | discount
  · rcases hd' : discountOf correlations' p.1.1 p.2.1 with _ | discount'
    · rfl
    · have hmem := mem_dependencyPenalties hp hd'
      rw [h] at hmem
      have := discountOf_of_mem_dependencyPenalties hmem
      rw [hd] at this
      cases this
  · have hmem := mem_dependencyPenalties hp hd
    rw [← h] at hmem
    exact discountOf_of_mem_dependencyPenalties hmem

end congr

/-- Correlations with the same discounts on the pairs give the same result. -/
theorem combineEvidenceResult_congr {config : CombinationConfig F}
    {pairs learned learned' : PyDict (String × String) F} {signals : List (String × F)}
    (h : ∀ p ∈ pairsOf signals,
      discountOf (mergedCorrelations { config with correlatedPairs := pairs } learned') p.1.1 p.2.1 =
        discountOf (mergedCorrelations config learned) p.1.1 p.2.1) :
    combineEvidenceResult { config with correlatedPairs := pairs } learned' signals =
      combineEvidenceResult config learned signals := by
  have hb : ∀ p ∈ pairsOf (boundedSignals signals),
      discountOf (mergedCorrelations { config with correlatedPairs := pairs } learned') p.1.1 p.2.1 =
        discountOf (mergedCorrelations config learned) p.1.1 p.2.1 := by
    intro p hp
    obtain ⟨q, hq, h1, h2⟩ := methods_of_mem_pairsOf_bounded hp
    rw [h1, h2]
    exact h q hq
  unfold combineEvidenceResult
  generalize boundedSignals signals = bounded at hb
  rcases bounded with _ | ⟨s, _ | ⟨t, rest⟩⟩
  · rfl
  · rfl
  · unfold unroundedConfidence rankedSignals
    dsimp only
    rw [weightOf_congr hb, dependencyPenalties_congr hb]

/-- Equal results have the same discounts on the pairs. -/
theorem discountOf_eq_of_result_eq {config : CombinationConfig F}
    {pairs learned learned' : PyDict (String × String) F} {signals : List (String × F)}
    (h : combineEvidenceResult { config with correlatedPairs := pairs } learned' signals =
      combineEvidenceResult config learned signals) {q : (String × F) × (String × F)}
    (hq : q ∈ pairsOf signals) :
    discountOf (mergedCorrelations { config with correlatedPairs := pairs } learned') q.1.1 q.2.1 =
      discountOf (mergedCorrelations config learned) q.1.1 q.2.1 := by
  obtain ⟨p, hp, h1, h2⟩ := mem_pairsOf_bounded hq
  unfold combineEvidenceResult at h
  rw [← h1, ← h2]
  -- a list with a pair has two signals, and the result then lists the penalties
  generalize boundedSignals signals = bounded at h hp
  rcases bounded with _ | ⟨s, _ | ⟨t, rest⟩⟩
  · cases hp
  · cases hp
  · exact discountOf_eq_of_dependencyPenalties_eq
      (congrArg EvidenceCombinationResult.dependencyPenaltiesApplied h) hp

end ComputeIntelligence
