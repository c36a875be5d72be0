import ComputeIntelligence.Combination
import ComputeIntelligence.NoisyOr
import ComputeIntelligence.RoundedArith

/-! # The safeguards of the combination

In exact arithmetic, and with a configuration between 0 and 1, the combination is a weighted
noisy-or: the clamps inside it do nothing, every effective weight lies between 0 and 1, and
the confidence is between 0 and the smaller of the cap and the plain noisy-or.
-/
namespace ComputeIntelligence
open NoisyOr

/-- A configuration between 0 and 1, with learned correlations between 0 and 1. -/
structure UnitConfig (config : CombinationConfig ℚ) (learned : PyDict (String × String) ℚ) :
    Prop where
  cap : InUnit config.cap
  factor : InUnit config.diminishingFactor
  configured : ∀ k x, config.correlatedPairs.get? k = some x → InUnit x
  learned : ∀ k x, learned.get? k = some x → InUnit x

/-! ### The multipliers -/

/-- One more multiplier: 1, or the one before it times the factor. -/
theorem diminishing_succ (factor : ℚ) (n : Nat) :
    ∃ d, diminishing factor (n + 1) = d :: diminishing factor n ∧
      (n < 2 ∧ d = 1 ∨ ∃ d' rest, diminishing factor n = d' :: rest ∧ d = d' * factor) := by
  induction n with
  | zero => exact ⟨1, rfl, .inl ⟨by omega, rfl⟩⟩
  | succ n ih =>
    obtain ⟨d', hd', -⟩ := ih
    by_cases hn : n + 1 < 2
    · refine ⟨1, ?_, .inl ⟨hn, rfl⟩⟩
      rw [diminishing, if_pos hn]
      rfl
    · refine ⟨d' * factor, ?_, .inr ⟨d', _, hd', rfl⟩⟩
      rw [diminishing, if_neg hn, hd']
      rfl

/-- The multipliers lie between 0 and 1. -/
theorem unit_of_mem_diminishing {factor : ℚ} (h : InUnit factor) (n : Nat) :
    ∀ d ∈ diminishing factor n, InUnit d := by
  induction n with
  | zero => exact fun d hd => (List.not_mem_nil hd).elim
  | succ n ih =>
    obtain ⟨d, hd, hcase⟩ := diminishing_succ factor n
    rw [hd]
    intro x hx
    rcases List.mem_cons.1 hx with rfl | hx
    · rcases hcase with ⟨-, rfl⟩ | ⟨d', rest, hrest, rfl⟩
      · exact ⟨zero_le_one, le_rfl⟩
      · rw [hrest] at ih
        exact (ih d' List.mem_cons_self).mul h
    · exact ih x hx

/-- The multipliers fall. -/
theorem diminishing_falls {factor : ℚ} (h : InUnit factor) (n : Nat) :
    (diminishing factor n).reverse.Pairwise (· ≥ ·) := by
  rw [List.pairwise_reverse]
  induction n with
  | zero => exact List.Pairwise.nil
  | succ n ih =>
    obtain ⟨d, hd, hcase⟩ := diminishing_succ factor n
    have hunit := unit_of_mem_diminishing h n
    rw [hd]
    refine List.pairwise_cons.2 ⟨fun x hx => ?_, ih⟩
    rcases hcase with ⟨hn, rfl⟩ | ⟨d', rest, hrest, rfl⟩
    · -- the first two are 1, and nothing before them is less
      have hones : ∀ m, m < 3 → ∀ y ∈ diminishing factor m, y = 1 := by
        intro m hm y hy
        rcases m with _ | _ | _ | m
        · cases hy
        · exact List.mem_singleton.1 hy
        · rcases List.mem_cons.1 hy with rfl | hy
          · rfl
          · exact List.mem_singleton.1 hy
        · omega
      exact le_of_eq (hones n (by omega) x hx).symm
    · rw [hrest] at ih hx hunit
      have hd' : d' ≤ x := by
        rcases List.mem_cons.1 hx with rfl | hx
        · exact le_rfl
        · exact (List.pairwise_cons.1 ih).1 x hx
      exact le_trans (mul_le_of_le_one_right (hunit d' List.mem_cons_self).1 h.2) hd'

/-! ### The combination as a noisy-or -/

theorem unit_of_mem_bounded {signals : List (String × ℚ)} {s : String × ℚ}
    (h : s ∈ boundedSignals signals) : InUnit s.2 := by
  obtain ⟨t, -, rfl⟩ := List.mem_map.1 h
  exact ⟨le_max_left 0 _, max_le zero_le_one (min_le_left 1 _)⟩

theorem mem_rankedSignals {config : CombinationConfig ℚ} (h : InUnit config.diminishingFactor)
    {bounded : List (String × ℚ)} {p : (String × ℚ) × ℚ} (hp : p ∈ rankedSignals config bounded) :
    p.1 ∈ bounded ∧ InUnit p.2 := by
  obtain ⟨hs, hd⟩ := List.of_mem_zip hp
  exact ⟨(List.mem_insertionSort _).1 hs,
    unit_of_mem_diminishing h _ _ (List.mem_reverse.1 hd)⟩

/-- The factors of the product. -/
def factors (weight : String → ℚ) (ranked : List ((String × ℚ) × ℚ)) : List (ℚ × ℚ) :=
  ranked.map fun p => (p.1.2, weight p.1.1 * p.2)

theorem factors_cons (weight : String → ℚ) (p : (String × ℚ) × ℚ)
    (ranked : List ((String × ℚ) × ℚ)) :
    factors weight (p :: ranked) = (p.1.2, weight p.1.1 * p.2) :: factors weight ranked := rfl

theorem foldl_mul {α : Type} (f : α → ℚ) (l : List α) (a : ℚ) :
    l.foldl (fun product x => product * f x) a = a * (l.map f).prod := by
  induction l generalizing a with
  | nil => exact (mul_one a).symm
  | cons x l ih => rw [List.foldl_cons, ih, List.map_cons, List.prod_cons, mul_assoc]

/-- Between 0 and 1 the clamps do nothing. -/
theorem productTerm_eq {weight : String → ℚ} {ranked : List ((String × ℚ) × ℚ)}
    (h : ∀ p ∈ factors weight ranked, InUnit p.1 ∧ InUnit p.2) :
    productTerm weight ranked = miss (factors weight ranked) := by
  have hfold : productTerm weight ranked = 1 * (ranked.map fun p =>
      1 - min 1 (max 0 (p.1.2 * weight p.1.1 * p.2))).prod := foldl_mul _ ranked 1
  rw [hfold, one_mul, factors, miss, List.map_map]
  congr 1
  refine List.map_congr_left fun p hp => ?_
  obtain ⟨hc, hw⟩ := h _ (List.mem_map_of_mem hp)
  have hunit := hc.mul hw
  dsimp only at hunit
  rw [mul_assoc, max_eq_right hunit.1, min_eq_right hunit.2]
  rfl

/-- The plain noisy-or is the one whose weights are 1. -/
theorem combineNoisyOrSimple_eq (confidences : List ℚ) {cap : ℚ} (h : 0 ≤ cap) :
    combineNoisyOrSimple confidences cap =
      min cap (1 - miss (confidences.map fun c => (c, 1))) := by
  unfold combineNoisyOrSimple
  split
  · rename_i hnil
    rw [hnil, List.map_nil, miss_nil, sub_self, min_eq_right h]
    rfl
  · have hfold : confidences.foldl (fun product c => product * (ScoreArith.lit 1 - c))
        (ScoreArith.lit 1) = 1 * (confidences.map fun c => 1 - c).prod := foldl_mul _ confidences 1
    rw [hfold, one_mul, miss, List.map_map]
    simp [Function.comp_def]

/-- The weight of a method: 1 when nothing is applied to it, else the least of what is. -/
def LeastDiscount (applied : List ℚ) (w : ℚ) : Prop :=
  (applied = [] ∧ w = 1) ∨ (w ∈ applied ∧ ∀ x ∈ applied, w ≤ x)

theorem leastDiscount_foldl {applied : List ℚ} (h : ∀ x ∈ applied, x ≤ 1) :
    LeastDiscount applied (applied.foldl min 1) := by
  have hgo : ∀ (xs : List ℚ) (a : ℚ), (xs.foldl min a = a ∨ xs.foldl min a ∈ xs) ∧
      xs.foldl min a ≤ a ∧ ∀ x ∈ xs, xs.foldl min a ≤ x := by
    intro xs
    induction xs with
    | nil => exact fun a => ⟨.inl rfl, le_rfl, fun x hx => (List.not_mem_nil hx).elim⟩
    | cons x xs ih =>
      intro a
      obtain ⟨hmem, hle, hall⟩ := ih (min a x)
      rw [List.foldl_cons]
      refine ⟨?_, le_trans hle (min_le_left a x), fun y hy => ?_⟩
      · rcases hmem with heq | hmem
        · rw [heq]
          rcases min_choice a x with hm | hm
          · exact .inl hm
          · right
            rw [hm]
            exact List.mem_cons_self
        · exact .inr (List.mem_cons_of_mem x hmem)
      · rcases List.mem_cons.1 hy with rfl | hy
        · exact le_trans hle (min_le_right a y)
        · exact hall y hy
  rcases applied with _ | ⟨x, xs⟩
  · exact .inl ⟨rfl, rfl⟩
  · obtain ⟨hmem, -, hall⟩ := hgo xs x
    have hfirst : (x :: xs).foldl min 1 = xs.foldl min x := by
      rw [List.foldl_cons, min_eq_right (h x List.mem_cons_self)]
    rw [hfirst]
    refine .inr ⟨?_, fun y hy => ?_⟩
    · rcases hmem with heq | hmem
      · rw [heq]
        exact List.mem_cons_self
      · exact List.mem_cons_of_mem x hmem
    · rcases List.mem_cons.1 hy with rfl | hy
      · exact (hgo xs y).2.1
      · exact hall y hy

section bounds
variable {config : CombinationConfig ℚ} {learned : PyDict (String × String) ℚ}

theorem UnitConfig.unit_correlation (h : UnitConfig config learned) {k : String × String} {x : ℚ}
    (hx : (mergedCorrelations config learned).get? k = some x) : InUnit x := by
  rw [get?_mergedCorrelations, Option.or_eq_some_iff] at hx
  rcases hx with hx | ⟨-, hx⟩
  · exact h.learned k x hx
  · exact h.configured k x hx

theorem UnitConfig.unit_discount (h : UnitConfig config learned) {a b : String} {x : ℚ}
    (hx : discountOf (mergedCorrelations config learned) a b = some x) : InUnit x := by
  unfold discountOf at hx
  split at hx
  · rename_i y hy
    split at hx
    · exact h.unit_correlation hx
    · obtain rfl := Option.some.inj hx
      exact h.unit_correlation hy
  · exact h.unit_correlation hx

/-- The discounts applied to a method lie between 0 and 1. -/
theorem UnitConfig.unit_applied (h : UnitConfig config learned)
    {bounded : List (String × ℚ)} {method : String} :
    ∀ x ∈ appliedDiscounts (mergedCorrelations config learned) bounded method, InUnit x := by
  intro x hx
  obtain ⟨p, -, hp⟩ := List.mem_filterMap.1 hx
  split at hp
  · exact h.unit_discount hp
  · cases hp

theorem UnitConfig.leastDiscount (h : UnitConfig config learned) (bounded : List (String × ℚ))
    (method : String) :
    LeastDiscount (appliedDiscounts (mergedCorrelations config learned) bounded
      method) (weightOf (mergedCorrelations config learned) bounded method) := by
  rw [weight_eq]
  exact leastDiscount_foldl fun x hx => (h.unit_applied x hx).2

theorem UnitConfig.unit_weight (h : UnitConfig config learned) (bounded : List (String × ℚ))
    (method : String) :
    InUnit (weightOf (mergedCorrelations config learned) bounded method) := by
  rcases h.leastDiscount bounded method with ⟨-, hw⟩ | ⟨hw, -⟩
  · rw [hw]
    exact ⟨zero_le_one, le_rfl⟩
  · exact h.unit_applied _ hw

/-- The factors of the product lie between 0 and 1. -/
theorem UnitConfig.unit_factors (h : UnitConfig config learned) (signals : List (String × ℚ)) :
    ∀ p ∈ factors (weightOf (mergedCorrelations config learned)
      (boundedSignals signals)) (rankedSignals config (boundedSignals signals)),
        InUnit p.1 ∧ InUnit p.2 := by
  intro p hp
  obtain ⟨q, hq, rfl⟩ := List.mem_map.1 hp
  obtain ⟨hs, hd⟩ := mem_rankedSignals h.factor hq
  exact ⟨unit_of_mem_bounded hs, (h.unit_weight _ _).mul hd⟩

/-- The combination before rounding is the capped noisy-or of the weighted signals. -/
theorem UnitConfig.confidenceBeforeRounding_eq (h : UnitConfig config learned)
    (signals : List (String × ℚ)) :
    confidenceBeforeRounding config learned signals = min config.cap (1 - miss
      (factors (weightOf (mergedCorrelations config learned) (boundedSignals signals))
        (rankedSignals config (boundedSignals signals)))) := by
  have hproduct := productTerm_eq (h.unit_factors signals)
  unfold confidenceBeforeRounding unroundedConfidence
  rw [← hproduct]
  rcases hb : boundedSignals signals with _ | ⟨s, _ | ⟨t, rest⟩⟩
  · show (0 : ℚ) = min config.cap (1 - 1)
    rw [sub_self, min_eq_right h.cap.1]
  · -- one signal has no pair, and the first multiplier
    have hweight : weightOf (mergedCorrelations config learned) [s] s.1 = 1 := by
      rw [weight_eq]
      rfl
    rw [← hb, hproduct, hb]
    show min config.cap s.2 = min config.cap
      (1 - ((1 - s.2 * (weightOf (mergedCorrelations config learned) [s] s.1 * 1)) * 1))
    rw [hweight]
    congr 1
    ring
  · rfl

end bounds

/-- The safeguards only lower a confidence: before it is rounded it lies between 0 and the cap,
it is no greater than the plain noisy-or, and the effective weight of every signal lies between
0 and 1, where the weight of a method is 1 or the least discount applied to it. -/
theorem safeguards {config : CombinationConfig ℚ} {learned : PyDict (String × String) ℚ}
    (h : UnitConfig config learned) (signals : List (String × ℚ)) :
    (0 ≤ confidenceBeforeRounding config learned signals ∧
      confidenceBeforeRounding config learned signals ≤ config.cap) ∧
    confidenceBeforeRounding config learned signals ≤
      combineNoisyOrSimple ((boundedSignals signals).map Prod.snd) config.cap ∧
    ((rankedSignals config (boundedSignals signals)).map Prod.fst).Perm (boundedSignals signals) ∧
    ∀ p ∈ rankedSignals config (boundedSignals signals),
      InUnit (weightOf (mergedCorrelations config learned) (boundedSignals signals) p.1.1 * p.2) ∧
      LeastDiscount
        (appliedDiscounts (mergedCorrelations config learned) (boundedSignals signals) p.1.1)
        (weightOf (mergedCorrelations config learned) (boundedSignals signals) p.1.1) := by
  have hfactors := h.unit_factors signals
  have hmiss := unit_miss fun p hp => (hfactors p hp).1.mul (hfactors p hp).2
  refine ⟨?_, ?_, rankedSignals_perm config _, fun p hp => ⟨?_, h.leastDiscount _ _⟩⟩
  · rw [h.confidenceBeforeRounding_eq]
    exact ⟨le_min h.cap.1 hmiss.compl.1, min_le_left _ _⟩
  · rw [h.confidenceBeforeRounding_eq, combineNoisyOrSimple_eq _ h.cap.1]
    refine min_le_min_left _ (sub_le_sub_left (le_trans (le_of_eq ?_) (miss_ones_le hfactors)) 1)
    -- with weights 1 the order of the signals does not matter
    have hperm := (rankedSignals_perm config (boundedSignals signals)).symm.map
      fun s : String × ℚ => (s.2, (1 : ℚ))
    rw [List.map_map] at hperm
    rw [factors, List.map_map, List.map_map]
    exact miss_perm hperm
  · exact (h.unit_weight _ _).mul (mem_rankedSignals h.factor hp).2

/-- The correlations of the default configuration lie between 0 and 1/2. -/
theorem default_correlation {k : String × String} {x : ℚ}
    (h : (CombinationConfig.default : CombinationConfig ℚ).correlatedPairs.get? k = some x) :
    0 ≤ x ∧ x ≤ 1 / 2 := by
  have hitems : (CombinationConfig.default : CombinationConfig ℚ).correlatedPairs.items =
      [(("R3", "R4"), 5 / 10), (("R2", "R5"), 4 / 10), (("R4", "R5"), 3 / 10)] := by
    decide +kernel
  have hmem := PyDict.mem_of_find h
  rw [hitems] at hmem
  simp only [List.mem_cons, Prod.mk.injEq, List.not_mem_nil, or_false] at hmem
  rcases hmem with ⟨-, rfl⟩ | ⟨-, rfl⟩ | ⟨-, rfl⟩ <;> norm_num

theorem unitConfig_default : UnitConfig CombinationConfig.default PyDict.empty := by
  refine ⟨?_, ?_, ?_, fun k x hx => (by cases hx)⟩
  · show InUnit (95 / 10 ^ 2 : ℚ)
    norm_num [InUnit]
  · show InUnit (5 / 10 ^ 1 : ℚ)
    norm_num [InUnit]
  · intro k x hx
    obtain ⟨hlo, hhi⟩ := default_correlation hx
    exact ⟨hlo, by linarith⟩

/-- The safeguards of the default configuration, on three signals. -/
theorem safeguards_default :
    confidenceBeforeRounding CombinationConfig.default PyDict.empty
      [("R2", 6 / 10), ("R3", 1 / 2), ("R4", 1 / 2)] ≤
        combineNoisyOrSimple [6 / 10, 1 / 2, 1 / 2] (95 / 100 : ℚ) := by
  have h := (safeguards unitConfig_default [("R2", 6 / 10), ("R3", 1 / 2), ("R4", 1 / 2)]).2.1
  have hbounded : (boundedSignals [("R2", (6 / 10 : ℚ)), ("R3", 1 / 2), ("R4", 1 / 2)]).map
      Prod.snd = [6 / 10, 1 / 2, 1 / 2] := by decide +kernel
  have hcap : (CombinationConfig.default : CombinationConfig ℚ).cap = 95 / 100 := by
    decide +kernel
  rw [hbounded, hcap] at h
  exact h

end ComputeIntelligence
