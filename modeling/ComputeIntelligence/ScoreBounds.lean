import ComputeIntelligence.Combination
import ComputeIntelligence.RoundedArith

/-! # Bounds on scores

Scores between 0 and 1, in any rounded arithmetic: products, complements, rounding and
combination stay between the bounds, and the combination of signals is positive exactly when
one of them is, for the confidences that R2 to R5 give (`combineEvidence_pos_iff`).
-/
namespace ComputeIntelligence
variable {F : Type} [RoundedArith F]
open ScoreArith RoundedArith PyFloat

/-- A score between 0 and 1. -/
def IsScore (a : F) : Prop := 0 ≤ val a ∧ val a ≤ 1

theorem lit_zero_le_iff {a : F} : lit 0 ≤ a ↔ 0 ≤ val a := by
  rw [← val_le_val, val_zero]

theorem lit_zero_lt_iff {a : F} : lit 0 < a ↔ 0 < val a := by
  rw [← val_lt_val, val_zero]

theorem isScore_lit {q : ℚ} (h0 : 0 ≤ q) (h1 : q ≤ 1) : IsScore (lit q : F) := by
  unfold IsScore
  rw [val_lit]
  exact ⟨rnd_nonneg h0, rnd_le_one h1⟩

theorem isScore_one : IsScore (lit 1 : F) := isScore_lit zero_le_one le_rfl

theorem isScore_zero : IsScore (lit 0 : F) := isScore_lit le_rfl zero_le_one

namespace IsScore
variable {a b : F}

theorem mul (ha : IsScore a) (hb : IsScore b) : IsScore (a * b) := by
  unfold IsScore
  rw [val_mul]
  exact ⟨rnd_nonneg (mul_nonneg ha.1 hb.1), rnd_le_one (mul_le_one₀ ha.2 hb.1 hb.2)⟩

theorem compl (ha : IsScore a) : IsScore (lit 1 - a) := by
  unfold IsScore
  rw [val_sub, val_one]
  exact ⟨rnd_nonneg (sub_nonneg.2 ha.2), rnd_le_one (sub_le_self 1 ha.1)⟩

theorem min (ha : IsScore a) (hb : IsScore b) : IsScore (min a b) := by
  unfold IsScore
  rw [val_min]
  exact ⟨le_min ha.1 hb.1, min_le_of_left_le ha.2⟩

theorem max (ha : IsScore a) (hb : IsScore b) : IsScore (max a b) := by
  unfold IsScore
  rw [val_max]
  exact ⟨le_max_of_le_left ha.1, max_le ha.2 hb.2⟩

theorem round (ha : IsScore a) (n : Nat) : IsScore (round n a) := by
  have hone : decimalRound n 1 = 1 := by
    have h := decimalRound_grid n (10 ^ n)
    rwa [Nat.cast_pow, Nat.cast_ofNat, div_self (by positivity)] at h
  unfold IsScore
  rw [val_round]
  exact ⟨rnd_nonneg (decimalRound_nonneg n ha.1),
    rnd_le_one (le_of_le_of_eq (decimalRound_mono n ha.2) hone)⟩

end IsScore

/-- Clamping gives a score. -/
theorem isScore_clamp (a : F) : IsScore (min (lit 1) (max (lit 0) a)) := by
  unfold IsScore
  rw [val_min, val_max, val_one, val_zero]
  exact ⟨le_min zero_le_one (le_max_left _ _), min_le_left _ _⟩

theorem isScore_of_mem_bounded {signals : List (String × F)} {s : String × F}
    (h : s ∈ boundedSignals signals) : IsScore s.2 := by
  obtain ⟨t, -, rfl⟩ := List.mem_map.1 h
  unfold IsScore
  rw [val_max, val_min, val_one, val_zero]
  exact ⟨le_max_left _ _, max_le zero_le_one (min_le_left _ _)⟩

/-! ### The product -/

/-- The effective confidence of a ranked signal. -/
def effective (weight : String → F) (p : (String × F) × F) : F :=
  min (lit 1) (max (lit 0) (p.1.2 * weight p.1.1 * p.2))

/-- A product of complements only falls. -/
theorem foldl_compl_spec (weight : String → F) (ranked : List ((String × F) × F)) {a : F}
    (ha : IsScore a) :
    IsScore (ranked.foldl (fun product p => product * (lit 1 - effective weight p)) a) ∧
      ranked.foldl (fun product p => product * (lit 1 - effective weight p)) a ≤ a := by
  induction ranked generalizing a with
  | nil => exact ⟨ha, le_rfl⟩
  | cons p ranked ih =>
    have hfactor : IsScore (lit 1 - effective weight p) := (isScore_clamp _).compl
    obtain ⟨hscore, hle⟩ := ih (ha.mul hfactor)
    refine ⟨hscore, le_trans hle ?_⟩
    rw [← val_le_val, val_mul]
    exact rnd_le_val (mul_le_of_le_one_right ha.1 hfactor.2)

theorem isScore_productTerm (weight : String → F) (ranked : List ((String × F) × F)) :
    IsScore (productTerm weight ranked) :=
  (foldl_compl_spec weight ranked isScore_one).1

/-- Each factor bounds the product. -/
theorem productTerm_le (weight : String → F) {ranked : List ((String × F) × F)}
    {p : (String × F) × F} (hp : p ∈ ranked) :
    productTerm weight ranked ≤ lit 1 - effective weight p := by
  obtain ⟨before, after, rfl⟩ := List.append_of_mem hp
  have hbefore := (foldl_compl_spec weight before isScore_one).1
  have hfactor : IsScore (lit 1 - effective weight p) := (isScore_clamp _).compl
  have hsplit : productTerm weight (before ++ p :: after) =
      after.foldl (fun product p => product * (lit 1 - effective weight p))
        (before.foldl (fun product p => product * (lit 1 - effective weight p)) (lit 1) *
          (lit 1 - effective weight p)) := by
    unfold productTerm
    rw [List.foldl_append]
    rfl
  rw [hsplit]
  refine le_trans (foldl_compl_spec weight after (hbefore.mul hfactor)).2 ?_
  rw [← val_le_val, val_mul]
  exact rnd_le_val (mul_le_of_le_one_left hfactor.1 hbefore.2)

/-- The combination lies between 0 and the cap. -/
theorem isScore_combineEvidence {config : CombinationConfig F} (hcap : IsScore config.cap)
    (signals : List (String × F)) : IsScore (combineEvidence config signals) := by
  rw [combineEvidence_eq, combinedConfidence_eq]
  have hscore : IsScore (confidenceBeforeRounding config PyDict.empty signals) := by
    unfold confidenceBeforeRounding
    split
    · exact isScore_zero
    · rename_i method conf hb
      have hmem : (method, conf) ∈ boundedSignals signals := by
        rw [hb]
        exact List.mem_cons_self
      exact hcap.min (isScore_of_mem_bounded hmem)
    · exact hcap.min (isScore_productTerm _ _).compl
  split
  · exact hscore
  · exact hscore.round 4

/-! ### Positive combinations -/

/-- The least positive score that a method gives, rounded down to a power of two. -/
abbrev leastScore : ℚ := 1 / 2 ^ 10

/-- A score that is positive is no less than a thousandth. -/
def Graded (a : F) : Prop := 0 < val a → leastScore ≤ val a

theorem rnd_inverse_pow {n : Nat} (h : n ≤ 1074) : rnd F (1 / 2 ^ n) = 1 / 2 ^ n := by
  have hd := rnd_dyadic (F := F) (k := 1) (by norm_num) h
  rwa [Nat.cast_one] at hd

/-- Rounding to three decimals gives a graded score. -/
theorem graded_round (a : F) : Graded (round 3 a) := by
  intro hpos
  rw [val_round] at hpos ⊢
  have hround : 0 < decimalRound 3 (val a) := by
    by_contra hle
    exact absurd hpos (not_lt.2 (le_of_le_of_eq (rnd_mono (not_lt.1 hle)) (rnd_zero F)))
  have hnonneg : 0 ≤ val a := by
    by_contra hneg
    exact absurd hround (not_lt.2 (decimalRound_nonpos 3 (not_le.1 hneg)))
  rw [decimalRound_of_nonneg 3 hnonneg] at hround ⊢
  generalize roundHalfEven (val a * 10 ^ 3) = k at *
  have hk : (1 : ℚ) ≤ k := by
    have hk0 : k ≠ 0 := by
      rintro rfl
      norm_num at hround
    exact_mod_cast Nat.pos_of_ne_zero hk0
  have hle : leastScore ≤ (k : ℚ) / 10 ^ 3 := by
    unfold leastScore
    rw [div_le_div_iff₀ (by positivity) (by positivity)]
    linarith
  exact le_of_eq_of_le (rnd_inverse_pow (by norm_num)).symm (rnd_mono hle)

/-- The default discounts are no less than a quarter. -/
theorem default_discount {a b : String} {x : F}
    (h : discountOf (CombinationConfig.default : CombinationConfig F).correlatedPairs a b =
      some x) : 1 / 2 ^ 2 ≤ val x := by
  have hget : ∀ k, (CombinationConfig.default : CombinationConfig F).correlatedPairs.get? k =
      some x → 1 / 2 ^ 2 ≤ val x := by
    intro k hk
    have hmem := PyDict.mem_of_find hk
    have hitems : (CombinationConfig.default : CombinationConfig F).correlatedPairs.items =
      [(("R3", "R4"), dec 5 1), (("R2", "R5"), dec 4 1), (("R4", "R5"), dec 3 1)] := rfl
    have hquarter : ∀ q : ℚ, 1 / 2 ^ 2 ≤ q → 1 / 2 ^ 2 ≤ val (lit q : F) := by
      intro q hq
      rw [val_lit]
      exact le_of_eq_of_le (rnd_inverse_pow (by norm_num)).symm (rnd_mono hq)
    rw [hitems] at hmem
    simp only [List.mem_cons, Prod.mk.injEq, List.not_mem_nil, or_false] at hmem
    rcases hmem with ⟨-, rfl⟩ | ⟨-, rfl⟩ | ⟨-, rfl⟩ <;> exact hquarter _ (by norm_num)
  unfold discountOf at h
  split at h
  · rename_i y hy
    split at h
    · exact hget _ h
    · obtain rfl := Option.some.inj h
      exact hget _ hy
  · exact hget _ h

theorem default_weight (bounded : List (String × F)) (method : String) :
    1 / 2 ^ 2 ≤ val (weightOf (CombinationConfig.default : CombinationConfig F).correlatedPairs
      bounded method) := by
  have hgo : ∀ (xs : List F) (a : F), (1 / 2 ^ 2 : ℚ) ≤ val a → (∀ x ∈ xs, 1 / 2 ^ 2 ≤ val x) →
      (1 / 2 ^ 2 : ℚ) ≤ val (xs.foldl min a) := by
    intro xs
    induction xs with
    | nil => exact fun a ha _ => ha
    | cons x xs ih =>
      intro a ha hxs
      refine ih _ ?_ fun y hy => hxs y (List.mem_cons_of_mem x hy)
      rw [val_min]
      exact le_min ha (hxs x List.mem_cons_self)
  rw [weight_eq]
  refine hgo _ _ ?_ fun x hx => ?_
  · rw [val_one]
    norm_num
  · obtain ⟨p, -, hp⟩ := List.mem_filterMap.1 hx
    split at hp
    · exact default_discount hp
    · cases hp

theorem mem_diminishing_of_le {factor d : F} {n m : Nat} (hnm : n ≤ m)
    (h : d ∈ diminishing factor n) : d ∈ diminishing factor m := by
  induction m, hnm using Nat.le_induction with
  | base => exact h
  | succ m _ ih =>
    rw [diminishing]
    exact List.mem_append_right _ ih

/-- The first four multipliers are no less than a quarter. -/
theorem default_multiplier {n : Nat} (hn : n ≤ 4) {d : F}
    (h : d ∈ diminishing (CombinationConfig.default : CombinationConfig F).diminishingFactor n) :
    1 / 2 ^ 2 ≤ val d := by
  have hhalf : val (dec 5 1 : F) = 1 / 2 ^ 1 := by
    rw [val_lit, show ((5 : Int) / 10 ^ 1 : ℚ) = 1 / 2 ^ 1 by norm_num]
    exact rnd_inverse_pow (by norm_num)
  have hthird : val (lit 1 * dec 5 1 : F) = 1 / 2 ^ 1 := by
    rw [val_mul, val_one, one_mul, rnd_val, hhalf]
  have hfourth : val (lit 1 * dec 5 1 * dec 5 1 : F) = 1 / 2 ^ 2 := by
    rw [val_mul, hthird, hhalf, show (1 / 2 ^ 1 * (1 / 2 ^ 1) : ℚ) = 1 / 2 ^ 2 by norm_num]
    exact rnd_inverse_pow (by norm_num)
  have hmem : d ∈ [lit 1 * dec 5 1 * dec 5 1, lit 1 * dec 5 1, lit 1, lit 1] :=
    mem_diminishing_of_le hn h
  simp only [List.mem_cons, List.not_mem_nil, or_false] at hmem
  rcases hmem with rfl | rfl | rfl | rfl
  · rw [hfourth]
  · rw [hthird]
    norm_num
  · rw [val_one]
    norm_num
  · rw [val_one]
    norm_num

/-- A graded positive signal among at most four has a positive effect. -/
theorem effective_pos {weight : F} {c d : F} (hc : leastScore ≤ val c)
    (hw : 1 / 2 ^ 2 ≤ val weight) (hd : 1 / 2 ^ 2 ≤ val d) :
    1 / 2 ^ 14 ≤ val (min (lit 1) (max (lit 0) (c * weight * d))) := by
  have h1 : (1 / 2 ^ 12 : ℚ) ≤ val (c * weight) := by
    rw [val_mul]
    refine le_of_eq_of_le (rnd_inverse_pow (by norm_num)).symm (rnd_mono ?_)
    calc (1 / 2 ^ 12 : ℚ) = leastScore * (1 / 2 ^ 2) := by norm_num
      _ ≤ val c * val weight := mul_le_mul hc hw (by norm_num) (le_trans (by norm_num) hc)
  have h2 : (1 / 2 ^ 14 : ℚ) ≤ val (c * weight * d) := by
    rw [val_mul]
    refine le_of_eq_of_le (rnd_inverse_pow (by norm_num)).symm (rnd_mono ?_)
    calc (1 / 2 ^ 14 : ℚ) = 1 / 2 ^ 12 * (1 / 2 ^ 2) := by norm_num
      _ ≤ val (c * weight) * val d := mul_le_mul h1 hd (by norm_num) (le_trans (by norm_num) h1)
  rw [val_min, val_max, val_one]
  exact le_min (by norm_num) (le_max_of_le_right h2)

/-- A confidence that is far enough from 0 survives the combination. -/
theorem unroundedConfidence_pos {bounded : List (String × F)} (hlen : bounded.length ≤ 4)
    {s : String × F} (hs : s ∈ bounded) (hc : leastScore ≤ val s.2) :
    1 / 2 ^ 14 ≤ val (unroundedConfidence CombinationConfig.default
      (CombinationConfig.default : CombinationConfig F).correlatedPairs bounded) := by
  have hmem := ((rankedSignals_perm CombinationConfig.default bounded).mem_iff).2 hs
  obtain ⟨⟨t, d⟩, hp, rfl⟩ := List.mem_map.1 hmem
  have hd : 1 / 2 ^ 2 ≤ val d := by
    refine default_multiplier hlen (List.mem_reverse.1 ?_)
    have hzip := (List.of_mem_zip hp).2
    rwa [List.length_insertionSort] at hzip
  have hw := default_weight bounded t.1
  unfold unroundedConfidence
  generalize weightOf (CombinationConfig.default : CombinationConfig F).correlatedPairs bounded =
    weight at hw ⊢
  have heff : 1 / 2 ^ 14 ≤ val (effective weight (t, d)) := effective_pos hc hw hd
  -- the complement of the product is no less than the effect of the signal
  have hfactor : val (lit 1 - effective weight (t, d)) ≤ ((2 ^ 14 - 1 : Nat) : ℚ) / 2 ^ 14 := by
    rw [val_sub, val_one]
    refine le_of_le_of_eq (rnd_mono ?_) (rnd_dyadic (by norm_num) (by norm_num))
    norm_num at heff ⊢
    linarith
  have hproduct := val_le_val.2 (productTerm_le weight hp)
  rw [val_min, val_sub, val_one]
  refine le_min ?_ ?_
  · show (1 / 2 ^ 14 : ℚ) ≤ val (dec 95 2 : F)
    rw [val_lit]
    exact le_of_eq_of_le (rnd_inverse_pow (by norm_num)).symm (rnd_mono (by norm_num))
  · refine le_of_eq_of_le (rnd_inverse_pow (by norm_num)).symm (rnd_mono ?_)
    have hle := le_trans hproduct hfactor
    norm_num at hle ⊢
    linarith

theorem val_bounded (c : F) : val (max (lit 0) (min (lit 1) c)) = max 0 (min 1 (val c)) := by
  rw [val_max, val_min, val_zero, val_one]

/-- With no positive signal the combination is not positive. -/
theorem combineEvidence_nonpos {signals : List (String × F)} (h : ∀ s ∈ signals, val s.2 ≤ 0) :
    val (combineEvidence CombinationConfig.default signals) ≤ 0 := by
  have hzero : ∀ s ∈ boundedSignals signals, val s.2 = 0 := by
    intro s hs
    obtain ⟨t, ht, rfl⟩ := List.mem_map.1 hs
    rw [val_bounded]
    exact max_eq_left (min_le_of_right_le (h t ht))
  have heff : ∀ (weight : String → F) (ranked : List ((String × F) × F)) (a : F),
      (∀ p ∈ ranked, val p.1.2 = 0) → ranked.foldl (fun product p =>
        product * (lit 1 - effective weight p)) a = a := by
    intro weight ranked
    induction ranked with
    | nil => exact fun a _ => rfl
    | cons p ranked ih =>
      intro a hp
      have hone : val (lit 1 - effective weight p) = 1 := by
        have h0 : val (effective weight p) = 0 := by
          unfold effective
          rw [val_min, val_max, val_mul, val_mul, hp p List.mem_cons_self, zero_mul, rnd_zero,
            zero_mul, rnd_zero, val_zero, val_one, max_self]
          norm_num
        rw [val_sub, val_one, h0, sub_zero, rnd_one]
      have hsame : a * (lit 1 - effective weight p) = a := by
        rw [← val_inj, val_mul, hone, mul_one, rnd_val]
      rw [List.foldl_cons, hsame]
      exact ih a fun q hq => hp q (List.mem_cons_of_mem p hq)
  have hbefore : val (confidenceBeforeRounding CombinationConfig.default PyDict.empty signals) ≤
      0 := by
    unfold confidenceBeforeRounding
    split
    · rw [val_zero]
    · rename_i method conf hb
      have hmem : (method, conf) ∈ boundedSignals signals := by
        rw [hb]
        exact List.mem_cons_self
      rw [val_min]
      exact min_le_of_right_le (le_of_eq (hzero _ hmem))
    · have hproduct : ∀ weight : String → F, productTerm weight
          (rankedSignals CombinationConfig.default (boundedSignals signals)) = lit 1 := by
        intro weight
        refine heff weight _ (lit 1) fun p hp => hzero p.1 ?_
        exact (rankedSignals_perm _ _).mem_iff.1 (List.mem_map_of_mem hp)
      unfold unroundedConfidence
      rw [hproduct, val_min, val_sub, sub_self, rnd_zero]
      exact min_le_right _ _
  rw [combineEvidence_eq, combinedConfidence_eq]
  split
  · exact hbefore
  · rw [val_round]
    have hround : decimalRound 4 0 = 0 := by
      have h := decimalRound_grid 4 0
      simpa using h
    exact le_of_le_of_eq (rnd_mono (le_of_le_of_eq (decimalRound_mono 4 hbefore) hround))
      (rnd_zero F)

/-- The combination of at most four graded signals is positive exactly when one of them is. -/
theorem combineEvidence_pos_iff {signals : List (String × F)} (hlen : signals.length ≤ 4)
    (hgraded : ∀ s ∈ signals, Graded s.2) :
    lit 0 < combineEvidence CombinationConfig.default signals ↔ ∃ s ∈ signals, lit 0 < s.2 := by
  constructor
  · intro h
    by_contra hnone
    push Not at hnone
    refine absurd (lit_zero_lt_iff.1 h) (not_lt.2 (combineEvidence_nonpos fun s hs => ?_))
    have hle := val_le_val.2 (hnone s hs)
    rwa [val_zero] at hle
  · rintro ⟨s, hs, hpos⟩
    have hleast := hgraded s hs (lit_zero_lt_iff.1 hpos)
    have hmem : (s.1, max (lit 0) (min (lit 1) s.2)) ∈ boundedSignals signals :=
      List.mem_map_of_mem hs
    have hbounded : leastScore ≤ val (max (lit 0) (min (lit 1) s.2)) := by
      rw [val_bounded]
      exact le_max_of_le_right (le_min (by norm_num) hleast)
    have hblen : (boundedSignals signals).length ≤ 4 := le_of_eq_of_le (List.length_map _) hlen
    have hbefore : 1 / 2 ^ 14 ≤
        val (confidenceBeforeRounding CombinationConfig.default PyDict.empty signals) := by
      unfold confidenceBeforeRounding
      split
      · rename_i hb
        rw [hb] at hmem
        cases hmem
      · rename_i method conf hb
        rw [hb] at hmem
        obtain ⟨-, rfl⟩ := Prod.mk.inj (List.mem_singleton.1 hmem)
        rw [val_min]
        refine le_min ?_ (le_trans (by norm_num) hbounded)
        show (1 / 2 ^ 14 : ℚ) ≤ val (dec 95 2 : F)
        rw [val_lit]
        exact le_of_eq_of_le (rnd_inverse_pow (by norm_num)).symm (rnd_mono (by norm_num))
      · exact unroundedConfidence_pos hblen hmem hbounded
    rw [lit_zero_lt_iff, combineEvidence_eq, combinedConfidence_eq]
    split
    · exact lt_of_lt_of_le (by norm_num) hbefore
    · rw [val_round]
      have hround : (1 / 2 ^ 14 : ℚ) ≤ decimalRound 4 (1 / 2 ^ 14) := by decide +kernel
      refine lt_of_lt_of_le (show (0 : ℚ) < 1 / 2 ^ 14 by norm_num) ?_
      exact le_of_eq_of_le (rnd_inverse_pow (by norm_num)).symm
        (rnd_mono (le_trans hround (decimalRound_mono 4 hbefore)))

end ComputeIntelligence
