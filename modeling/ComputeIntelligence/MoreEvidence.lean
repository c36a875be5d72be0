import ComputeIntelligence.CombinationBounds

/-! # More evidence

What appending a signal, or raising one, does to the combined confidence, with the default
configuration and in exact arithmetic.

Without a correlated pair of methods the combination is a noisy-or that sorts its signals, and
with two signals the stronger is the one at full weight; in both cases more evidence never
lowers it (`neverLowers_of_harmless`).
-/
namespace ComputeIntelligence
open NoisyOr

/-- The default configuration, in exact arithmetic. -/
abbrev exactConfig : CombinationConfig ℚ := CombinationConfig.default

/-- The combined confidence before it is rounded. -/
def exactConfidence (signals : List (String × ℚ)) : ℚ :=
  confidenceBeforeRounding exactConfig PyDict.empty signals

/-- Confidences with at most four decimals, between 0 and 1. -/
def FourDecimals (c : ℚ) : Prop := c ≤ 1 ∧ ∃ k : Nat, c = k / 10 ^ 4

/-- More evidence never lowers a confidence, for signals over the given methods: appending the
last one does not, raising one does not, and the confidence is no less than the capped
confidence of each. -/
structure NeverLowers (confidence : List (String × ℚ) → ℚ) (admissible : ℚ → Prop)
    (methods : List String) : Prop where
  append : ∀ signals s, (signals ++ [s]).map Prod.fst = methods →
    (∀ t ∈ signals ++ [s], admissible t.2) → confidence signals ≤ confidence (signals ++ [s])
  raise : ∀ before after m x y, (before ++ (m, x) :: after).map Prod.fst = methods →
    (∀ t ∈ before ++ (m, x) :: after, admissible t.2) → admissible y → x ≤ y →
      confidence (before ++ (m, x) :: after) ≤ confidence (before ++ (m, y) :: after)
  floor : ∀ signals, signals.map Prod.fst = methods → (∀ t ∈ signals, admissible t.2) →
    ∀ t ∈ signals, min exactConfig.cap t.2 ≤ confidence signals

theorem admissible_of_raised {admissible : ℚ → Prop} {before after : List (String × ℚ)} {m : String}
    {x y : ℚ} (h : ∀ t ∈ before ++ (m, x) :: after, admissible t.2) (hy : admissible y) :
    ∀ t ∈ before ++ (m, y) :: after, admissible t.2 := by
  intro t ht
  rcases List.mem_append.1 ht with hb | ht
  · exact h t (List.mem_append_left _ hb)
  · rcases List.mem_cons.1 ht with rfl | ha
    · exact hy
    · exact h t (List.mem_append_right _ (List.mem_cons_of_mem _ ha))

/-- No two of the methods are correlated by default. -/
def Uncorrelated (methods : List String) : Prop :=
  ∀ p ∈ pairsOf methods, discountOf exactConfig.correlatedPairs p.1 p.2 = none

/-! ### The confidence as a noisy-or -/

/-- The product for signals between 0 and 1. -/
def exactMiss (signals : List (String × ℚ)) : ℚ :=
  miss (factors (weightOf exactConfig.correlatedPairs signals) (rankedSignals exactConfig signals))

theorem boundedSignals_of_unit {signals : List (String × ℚ)} (h : ∀ s ∈ signals, InUnit s.2) :
    boundedSignals signals = signals := by
  refine (List.map_congr_left fun s hs => ?_).trans (List.map_id signals)
  obtain ⟨hlo, hhi⟩ := h s hs
  show (s.1, max (0 : ℚ) (min 1 s.2)) = s
  rw [min_eq_right hhi, max_eq_right hlo]

theorem exactConfidence_eq {signals : List (String × ℚ)} (h : ∀ s ∈ signals, InUnit s.2) :
    exactConfidence signals = min exactConfig.cap (1 - exactMiss signals) := by
  have heq := unitConfig_default.confidenceBeforeRounding_eq signals
  rw [boundedSignals_of_unit h] at heq
  exact heq

theorem unit_factors {signals : List (String × ℚ)} (h : ∀ s ∈ signals, InUnit s.2) :
    ∀ p ∈ factors (weightOf exactConfig.correlatedPairs signals)
      (rankedSignals exactConfig signals), InUnit p.1 ∧ InUnit p.2 := by
  have hunit := unitConfig_default.unit_factors signals
  rw [boundedSignals_of_unit h] at hunit
  exact hunit

/-- A smaller product is a greater confidence. -/
theorem exactConfidence_le {s t : List (String × ℚ)} (hs : ∀ p ∈ s, InUnit p.2)
    (ht : ∀ p ∈ t, InUnit p.2) (h : exactMiss t ≤ exactMiss s) :
    exactConfidence s ≤ exactConfidence t := by
  rw [exactConfidence_eq hs, exactConfidence_eq ht]
  exact min_le_min_left _ (sub_le_sub_left h 1)

theorem floor_of_exactMiss_le {signals : List (String × ℚ)} (h : ∀ p ∈ signals, InUnit p.2)
    {t : String × ℚ} (hmiss : exactMiss signals ≤ 1 - t.2) :
    min exactConfig.cap t.2 ≤ exactConfidence signals := by
  rw [exactConfidence_eq h]
  exact min_le_min_left _ (by linarith)

/-! ### Without a correlated pair -/

theorem weightOf_of_uncorrelated {signals : List (String × ℚ)}
    (h : Uncorrelated (signals.map Prod.fst)) (method : String) :
    weightOf exactConfig.correlatedPairs signals method = 1 := by
  have hnone : appliedDiscounts exactConfig.correlatedPairs signals method = [] := by
    refine List.filterMap_eq_nil_iff.2 fun p hp => ?_
    unfold Uncorrelated at h
    rw [pairsOf_map] at h
    have hd := h _ (List.mem_map_of_mem hp)
    split
    · exact hd
    · rfl
  rw [weight_eq, hnone]
  rfl

/-- The multipliers of `n` signals. -/
def multipliers (n : Nat) : List ℚ := (diminishing exactConfig.diminishingFactor n).reverse

/-- Without a correlated pair the confidences are sorted and weighted by rank alone. -/
theorem exactMiss_of_uncorrelated {signals : List (String × ℚ)}
    (h : Uncorrelated (signals.map Prod.fst)) :
    exactMiss signals =
      missBy (multipliers signals.length) (falling (signals.map Prod.snd)) := by
  have hsorted : (signals.insertionSort fun a b => b.2 ≤ a.2).map Prod.snd =
      falling (signals.map Prod.snd) :=
    List.map_insertionSort _ _ Prod.snd signals fun _ _ _ _ => Iff.rfl
  have hlen : (signals.insertionSort fun a b => b.2 ≤ a.2).length = signals.length :=
    List.length_insertionSort _ signals
  unfold exactMiss missBy factors rankedSignals multipliers
  dsimp only
  rw [← hsorted, ← List.map_id (diminishing exactConfig.diminishingFactor signals.length).reverse,
    List.zip_map, hlen]
  congr 1
  refine List.map_congr_left fun p _ => ?_
  rw [weightOf_of_uncorrelated h, one_mul]
  rfl

theorem mem_pairsOf_append {α : Type} {xs : List α} {p : α × α} (h : p ∈ pairsOf xs)
    (ys : List α) : p ∈ pairsOf (xs ++ ys) := by
  induction xs with
  | nil => cases h
  | cons x xs ih =>
    rw [pairsOf, List.mem_append] at h
    rw [List.cons_append, pairsOf, List.mem_append]
    rcases h with h | h
    · obtain ⟨y, hy, rfl⟩ := List.mem_map.1 h
      exact .inl (List.mem_map_of_mem (List.mem_append_left ys hy))
    · exact .inr (ih h)

theorem unit_multipliers (n : Nat) : ∀ d ∈ multipliers n, InUnit d := fun d hd =>
  unit_of_mem_diminishing unitConfig_default.factor n d (List.mem_reverse.1 hd)

theorem multipliers_fall (n : Nat) : (multipliers n).Pairwise (· ≥ ·) :=
  diminishing_falls unitConfig_default.factor n

theorem length_multipliers (n : Nat) : (multipliers n).length = n := by
  rw [multipliers, List.length_reverse, length_diminishing]

theorem multipliers_succ (n : Nat) : ∃ d, multipliers (n + 1) = multipliers n ++ [d] := by
  obtain ⟨d, hd, -⟩ := diminishing_succ exactConfig.diminishingFactor n
  refine ⟨d, ?_⟩
  rw [multipliers, hd, List.reverse_cons]
  rfl

/-- Fewer signals have the first of the multipliers. -/
theorem multipliers_add (m k : Nat) : ∃ rest, multipliers (m + k) = multipliers m ++ rest := by
  induction k with
  | zero => exact ⟨[], (List.append_nil _).symm⟩
  | succ k ih =>
    obtain ⟨rest, hrest⟩ := ih
    obtain ⟨d, hd⟩ := multipliers_succ (m + k)
    refine ⟨rest ++ [d], ?_⟩
    rw [← Nat.add_assoc, hd, hrest, List.append_assoc]

theorem multipliers_three : multipliers 3 = [1, 1, 1 / 2] := by decide +kernel

theorem append_of_uncorrelated {signals : List (String × ℚ)} {s : String × ℚ}
    (h : Uncorrelated ((signals ++ [s]).map Prod.fst)) (hu : ∀ t ∈ signals ++ [s], InUnit t.2) :
    exactMiss (signals ++ [s]) ≤ exactMiss signals := by
  have hfront : Uncorrelated (signals.map Prod.fst) := by
    intro p hp
    apply h p
    rw [List.map_append]
    exact mem_pairsOf_append hp _
  obtain ⟨d, hd⟩ := multipliers_succ signals.length
  have hw := unit_multipliers (signals.length + 1)
  have hfall := multipliers_fall (signals.length + 1)
  rw [exactMiss_of_uncorrelated h, exactMiss_of_uncorrelated hfront, List.length_append,
    List.length_singleton, hd, List.map_append]
  rw [hd] at hw hfall
  refine missBy_falling_concat hw hfall ?_ fun x hx => ?_
  · rw [List.length_map, length_multipliers]
  · have hmem : x ∈ (signals ++ [s]).map Prod.snd := by
      rw [List.map_append]
      exact hx
    obtain ⟨t, ht, rfl⟩ := List.mem_map.1 hmem
    exact hu t ht

theorem raise_of_uncorrelated {before after : List (String × ℚ)} {m : String} {x y : ℚ}
    (h : Uncorrelated ((before ++ (m, x) :: after).map Prod.fst))
    (hu : ∀ t ∈ before ++ (m, y) :: after, InUnit t.2) (hxy : x ≤ y) :
    exactMiss (before ++ (m, y) :: after) ≤ exactMiss (before ++ (m, x) :: after) := by
  have hsame : (before ++ (m, y) :: after).map Prod.fst =
      (before ++ (m, x) :: after).map Prod.fst := by simp
  have hlen : (before ++ (m, y) :: after).length = (before ++ (m, x) :: after).length := by simp
  rw [exactMiss_of_uncorrelated h, exactMiss_of_uncorrelated (hsame ▸ h), hlen, List.map_append,
    List.map_append]
  refine missBy_falling_raise (unit_multipliers _) (multipliers_fall _) (fun c hc => ?_) hxy
  have hmem : c ∈ (before ++ (m, y) :: after).map Prod.snd := by simpa using hc
  obtain ⟨t, ht, rfl⟩ := List.mem_map.1 hmem
  exact hu t ht

/-- The first rank has full weight, and no signal does better elsewhere. -/
theorem floor_of_uncorrelated {signals : List (String × ℚ)}
    (h : Uncorrelated (signals.map Prod.fst)) (hu : ∀ t ∈ signals, InUnit t.2)
    {t : String × ℚ} (ht : t ∈ signals) : exactMiss signals ≤ 1 - t.2 := by
  have hconf : ∀ c ∈ signals.map Prod.snd, InUnit c := by
    intro c hc
    obtain ⟨s, hs, rfl⟩ := List.mem_map.1 hc
    exact hu s hs
  -- the signal in front, at full weight
  obtain ⟨u, v, huv⟩ := List.append_of_mem (List.mem_map_of_mem ht : t.2 ∈ signals.map Prod.snd)
  have hperm : (signals.map Prod.snd).Perm (t.2 :: (u ++ v)) := huv ▸ List.perm_middle
  have hfront : ∀ c ∈ t.2 :: (u ++ v), InUnit c := fun c hc => hconf c (hperm.mem_iff.2 hc)
  have hlen : signals.length = 1 + (u ++ v).length := by
    have hsame := hperm.length_eq
    rw [List.length_map, List.length_cons] at hsame
    omega
  obtain ⟨rest, hrest⟩ := multipliers_add 1 (u ++ v).length
  have hw := unit_multipliers (1 + (u ++ v).length)
  have hfall := multipliers_fall (1 + (u ++ v).length)
  have hone : multipliers 1 = [1] := rfl
  rw [hone] at hrest
  rw [exactMiss_of_uncorrelated h, falling_perm hperm, hlen]
  refine le_trans (missBy_sort_le hw hfall hfront) ?_
  rw [hrest] at hw ⊢
  rw [List.singleton_append, missBy_cons, mul_one]
  have hothers : InUnit (missBy rest (u ++ v)) :=
    unit_missBy (fun w hm => hw w (List.mem_cons_of_mem 1 hm))
      fun c hm => hfront c (List.mem_cons_of_mem _ hm)
  exact mul_le_of_le_one_right (hu t ht).compl.1 hothers.2

/-! ### Two signals -/

/-- The share of the weaker of two signals: the discount, if there is one. -/
def share (a b : String) : ℚ := (discountOf exactConfig.correlatedPairs a b).getD 1

theorem unit_share (a b : String) : InUnit (share a b) := by
  unfold share
  rcases h : discountOf exactConfig.correlatedPairs a b with _ | w
  · exact ⟨zero_le_one, le_rfl⟩
  · exact unitConfig_default.unit_discount h

theorem weightOf_pair (s t : String × ℚ) (method : String) :
    weightOf exactConfig.correlatedPairs [s, t] method =
      if weaker (s, t) = method then share s.1 t.1 else 1 := by
  have hpairs : pairsOf [s, t] = [(s, t)] := rfl
  have hunit := unit_share s.1 t.1
  rw [weight_eq, appliedDiscounts, hpairs, discountsOn]
  unfold share at hunit ⊢
  by_cases h : weaker (s, t) = method
  · rcases hd : discountOf exactConfig.correlatedPairs s.1 t.1 with _ | w
    · simp [h, hd]
    · rw [hd] at hunit
      simpa [h, hd] using hunit.2
  · simp [h]

/-- The stronger of two signals has full weight. -/
theorem exactMiss_pair {s t : String × ℚ} (hne : s.1 ≠ t.1) :
    exactMiss [s, t] = (1 - max s.2 t.2) * (1 - min s.2 t.2 * share s.1 t.1) := by
  have hrank : rankedSignals exactConfig [s, t] =
      if t.2 ≤ s.2 then [(s, 1), (t, 1)] else [(t, 1), (s, 1)] := by
    have hsort : [s, t].insertionSort (fun a b => b.2 ≤ a.2) =
        if t.2 ≤ s.2 then [s, t] else [t, s] := by
      by_cases h : t.2 ≤ s.2 <;> simp [List.orderedInsert, h]
    unfold rankedSignals
    rw [hsort]
    by_cases h : t.2 ≤ s.2
    · rw [if_pos h, if_pos h]
      rfl
    · rw [if_neg h, if_neg h]
      rfl
  unfold exactMiss factors
  rw [hrank]
  by_cases hst : s.2 ≤ t.2
  · have hs : weightOf exactConfig.correlatedPairs [s, t] s.1 = share s.1 t.1 := by
      rw [weightOf_pair, if_pos (by simp [weaker, hst])]
    have ht : weightOf exactConfig.correlatedPairs [s, t] t.1 = 1 := by
      rw [weightOf_pair, if_neg (by simp [weaker, hst, hne])]
    rw [max_eq_right hst, min_eq_left hst]
    by_cases h : t.2 ≤ s.2
    · rw [if_pos h]
      simp [hs, ht, mul_comm]
    · rw [if_neg h]
      simp [hs, ht]
  · have hs : weightOf exactConfig.correlatedPairs [s, t] s.1 = 1 := by
      rw [weightOf_pair, if_neg (by simp [weaker, hst, Ne.symm hne])]
    have ht : weightOf exactConfig.correlatedPairs [s, t] t.1 = share s.1 t.1 := by
      rw [weightOf_pair, if_pos (by simp [weaker, hst])]
    have hle := le_of_not_ge hst
    rw [max_eq_left hle, min_eq_right hle, if_pos hle]
    simp [hs, ht]

section pair
variable {s t : String × ℚ}

/-- Raising either of two signals lowers the product. -/
theorem raise_of_pair {s' t' : String × ℚ} (hne : s.1 ≠ t.1) (hs1 : s'.1 = s.1) (ht1 : t'.1 = t.1)
    (hs : s.2 ≤ s'.2) (ht : t.2 ≤ t'.2) (hu : ∀ p ∈ [s, t], InUnit p.2)
    (hu' : ∀ p ∈ [s', t'], InUnit p.2) : exactMiss [s', t'] ≤ exactMiss [s, t] := by
  have hus := hu s (by simp)
  have hut := hu t (by simp)
  have hus' := hu' s' (by simp)
  have hut' := hu' t' (by simp)
  have hshare := unit_share s.1 t.1
  have hmin' : InUnit (min s'.2 t'.2) := ⟨le_min hus'.1 hut'.1, min_le_of_left_le hus'.2⟩
  have hweak : min s.2 t.2 * share s.1 t.1 ≤ min s'.2 t'.2 * share s.1 t.1 :=
    mul_le_mul_of_nonneg_right (min_le_min hs ht) hshare.1
  rw [exactMiss_pair hne, exactMiss_pair (by rw [hs1, ht1]; exact hne), hs1, ht1]
  refine mul_le_mul (sub_le_sub_left (max_le_max hs ht) 1) (sub_le_sub_left hweak 1)
    (hmin'.mul hshare).compl.1 ?_
  exact sub_nonneg.2 (max_le hus.2 hut.2)

theorem floor_of_pair (hne : s.1 ≠ t.1) (hu : ∀ p ∈ [s, t], InUnit p.2) :
    ∀ p ∈ [s, t], exactMiss [s, t] ≤ 1 - p.2 := by
  have hus := hu s (by simp)
  have hut := hu t (by simp)
  have hweak : InUnit (min s.2 t.2 * share s.1 t.1) :=
    InUnit.mul ⟨le_min hus.1 hut.1, min_le_of_left_le hus.2⟩ (unit_share _ _)
  have hmax : exactMiss [s, t] ≤ 1 - max s.2 t.2 := by
    rw [exactMiss_pair hne]
    exact mul_le_of_le_one_right (sub_nonneg.2 (max_le hus.2 hut.2)) hweak.compl.2
  intro p hp
  rcases List.mem_cons.1 hp with rfl | hp
  · exact le_trans hmax (sub_le_sub_left (le_max_left _ _) 1)
  · obtain rfl := List.mem_singleton.1 hp
    exact le_trans hmax (sub_le_sub_left (le_max_right _ _) 1)

end pair

theorem exactMiss_single (s : String × ℚ) : exactMiss [s] = 1 - s.2 := by
  have h : Uncorrelated ([s].map Prod.fst) := fun p hp => (List.not_mem_nil hp).elim
  rw [exactMiss_of_uncorrelated h]
  show (1 - s.2 * 1) * 1 = 1 - s.2
  rw [mul_one, mul_one]

/-! ### Where more evidence never lowers the confidence -/

/-- At most two methods, or no two of them correlated. -/
def Harmless (methods : List String) : Prop := methods.length ≤ 2 ∨ Uncorrelated methods

theorem uncorrelated_of_length_le_one {methods : List String} (h : methods.length ≤ 1) :
    Uncorrelated methods := by
  rcases methods with _ | ⟨a, _ | ⟨b, rest⟩⟩
  · exact fun p hp => (List.not_mem_nil hp).elim
  · exact fun p hp => (List.not_mem_nil hp).elim
  · rw [List.length_cons, List.length_cons] at h
    omega

/-- A harmless list is uncorrelated, or a pair of different methods. -/
theorem Harmless.cases {signals : List (String × ℚ)} (h : Harmless (signals.map Prod.fst))
    (hn : (signals.map Prod.fst).Nodup) :
    Uncorrelated (signals.map Prod.fst) ∨ ∃ s t, signals = [s, t] ∧ s.1 ≠ t.1 := by
  rcases h with h | h
  · rcases signals with _ | ⟨s, _ | ⟨t, _ | ⟨u, rest⟩⟩⟩
    · exact .inl (uncorrelated_of_length_le_one (by simp))
    · exact .inl (uncorrelated_of_length_le_one (by simp))
    · refine .inr ⟨s, t, rfl, fun he => ?_⟩
      rw [List.map_cons, List.nodup_cons] at hn
      exact hn.1 (by simp [he])
    · simp only [List.map_cons, List.length_cons] at h
      omega
  · exact .inl h

theorem neverLowers_of_harmless {methods : List String} (hn : methods.Nodup)
    (h : Harmless methods) : NeverLowers exactConfidence InUnit methods := by
  constructor
  · rintro signals s rfl hu
    have hfront : ∀ t ∈ signals, InUnit t.2 := fun t ht => hu t (List.mem_append_left _ ht)
    refine exactConfidence_le hfront hu ?_
    rcases h.cases hn with h | ⟨a, b, hab, hne⟩
    · exact append_of_uncorrelated h hu
    · -- a single signal before the second of a pair
      rcases signals with _ | ⟨c, _ | ⟨d, rest⟩⟩
      · cases hab
      · obtain ⟨rfl, htail⟩ := List.cons.inj hab
        obtain rfl := List.singleton_inj.1 htail
        rw [exactMiss_single c]
        exact floor_of_pair hne hu c List.mem_cons_self
      · have hlen := congrArg List.length hab
        simp only [List.length_append, List.length_cons, List.length_nil] at hlen
        omega
  · rintro before after m x y rfl hu hy hxy
    have hu' := admissible_of_raised hu hy
    refine exactConfidence_le hu hu' ?_
    rcases h.cases hn with h | ⟨a, b, hab, hne⟩
    · exact raise_of_uncorrelated h hu' hxy
    · rcases before with _ | ⟨c, _ | ⟨d, rest⟩⟩
      · obtain ⟨rfl, rfl⟩ := List.cons.inj hab
        exact raise_of_pair hne rfl rfl hxy le_rfl hu hu'
      · obtain ⟨rfl, htail⟩ := List.cons.inj hab
        obtain ⟨rfl, rfl⟩ := List.cons.inj htail
        exact raise_of_pair hne rfl rfl le_rfl hxy hu hu'
      · have hlen := congrArg List.length hab
        simp only [List.length_append, List.length_cons, List.length_nil] at hlen
        omega
  · rintro signals rfl hu t ht
    refine floor_of_exactMiss_le hu ?_
    rcases h.cases hn with h | ⟨a, b, rfl, hne⟩
    · exact floor_of_uncorrelated h hu ht
    · exact floor_of_pair hne hu t ht

/-! ### The rounded confidence -/

theorem FourDecimals.unit {c : ℚ} (h : FourDecimals c) : InUnit c := by
  obtain ⟨hle, k, rfl⟩ := h
  exact ⟨by positivity, hle⟩

/-- The capped confidence of a signal is not changed by rounding. -/
theorem FourDecimals.round_capped {c : ℚ} (h : FourDecimals c) :
    PyFloat.decimalRound 4 (min exactConfig.cap c) = min exactConfig.cap c := by
  obtain ⟨-, k, rfl⟩ := h
  have hcap : exactConfig.cap = ((9500 : Nat) : ℚ) / 10 ^ 4 := by decide +kernel
  rcases min_choice exactConfig.cap ((k : ℚ) / 10 ^ 4) with hm | hm
  · rw [hm, hcap]
    exact PyFloat.decimalRound_grid 4 9500
  · rw [hm]
    exact PyFloat.decimalRound_grid 4 k

/-- With four decimals the returned confidence is the rounded one, of one signal too. -/
theorem combineEvidence_exact {signals : List (String × ℚ)}
    (h : ∀ t ∈ signals, FourDecimals t.2) :
    combineEvidence exactConfig signals = PyFloat.decimalRound 4 (exactConfidence signals) := by
  rw [combineEvidence_eq, combinedConfidence_eq]
  split
  · show exactConfidence signals = _
    rcases signals with _ | ⟨s, _ | ⟨t, rest⟩⟩
    · have hzero : exactConfidence [] = ((0 : Nat) : ℚ) / 10 ^ 4 := by decide +kernel
      rw [hzero]
      exact (PyFloat.decimalRound_grid 4 0).symm
    · have hs := h s List.mem_cons_self
      have hunit : ∀ p ∈ [s], InUnit p.2 := fun p hp => (h p hp).unit
      have hval : exactConfidence [s] = min exactConfig.cap s.2 := by
        rw [exactConfidence_eq hunit, exactMiss_single, sub_sub_cancel]
      rw [hval, hs.round_capped]
    · simp only [List.length_cons] at *
      omega
  · rfl

/-- Rounding keeps what more evidence does. -/
theorem NeverLowers.rounded {methods : List String}
    (h : NeverLowers exactConfidence InUnit methods) :
    NeverLowers (combineEvidence exactConfig) FourDecimals methods := by
  constructor
  · intro signals s hm hd
    have hfront : ∀ t ∈ signals, FourDecimals t.2 := fun t ht => hd t (List.mem_append_left _ ht)
    rw [combineEvidence_exact hfront, combineEvidence_exact hd]
    exact PyFloat.decimalRound_mono 4 (h.append signals s hm fun t ht => (hd t ht).unit)
  · intro before after m x y hm hd hy hxy
    have hd' := admissible_of_raised hd hy
    rw [combineEvidence_exact hd, combineEvidence_exact hd']
    exact PyFloat.decimalRound_mono 4
      (h.raise before after m x y hm (fun t ht => (hd t ht).unit) hy.unit hxy)
  · intro signals hm hd t ht
    rw [combineEvidence_exact hd, ← (hd t ht).round_capped]
    exact PyFloat.decimalRound_mono 4 (h.floor signals hm (fun t ht => (hd t ht).unit) t ht)

end ComputeIntelligence
