import Mathlib.Algebra.BigOperators.Group.List.Basic
import Mathlib.Algebra.Order.Ring.Unbundled.Basic
import Mathlib.Data.List.Sort
import Mathlib.Tactic.Linarith
import Mathlib.Tactic.Ring

/-! # Weighted noisy-or

The noisy-or of weighted confidences is the complement of the product of the complements.
For confidences and weights between 0 and 1 the product lies between 0 and 1, and it is
least when every weight is 1.

Where the weights fall along the list, the product over the confidences in falling order is
the least over all their orders (`miss_sort_le`): the greatest noisy-or gives the greatest
weight to the greatest confidence.  So a noisy-or that sorts its confidences never falls when
one of them is raised.
-/
namespace NoisyOr
variable {K : Type} [CommRing K]

/-- The product of the complements, for confidences with their weights. -/
def miss (l : List (K × K)) : K := (l.map fun p => 1 - p.1 * p.2).prod

@[simp] theorem miss_nil : miss ([] : List (K × K)) = 1 := rfl

@[simp] theorem miss_cons (p : K × K) (l : List (K × K)) :
    miss (p :: l) = (1 - p.1 * p.2) * miss l := List.prod_cons

theorem miss_append (l m : List (K × K)) : miss (l ++ m) = miss l * miss m := by
  unfold miss
  rw [List.map_append, List.prod_append]

/-- The order of the factors does not matter. -/
theorem miss_perm {l m : List (K × K)} (h : l.Perm m) : miss l = miss m :=
  (h.map _).prod_eq

/-- The product for confidences that take their weights by position. -/
def missBy (weights confidences : List K) : K := miss (confidences.zip weights)

@[simp] theorem missBy_cons (w : K) (weights : List K) (c : K) (confidences : List K) :
    missBy (w :: weights) (c :: confidences) = (1 - c * w) * missBy weights confidences :=
  miss_cons _ _

@[simp] theorem missBy_nil (confidences : List K) : missBy [] confidences = 1 := by
  unfold missBy
  rw [List.zip_nil_right, miss_nil]

theorem missBy_concat {weights confidences : List K} (h : confidences.length = weights.length)
    (w c : K) : missBy (weights ++ [w]) (confidences ++ [c]) =
      missBy weights confidences * (1 - c * w) := by
  unfold missBy
  rw [List.zip_append h, miss_append]
  simp

variable [LinearOrder K] [IsStrictOrderedRing K]

/-- Between 0 and 1. -/
def InUnit (x : K) : Prop := 0 ≤ x ∧ x ≤ 1

theorem InUnit.mul {x y : K} (hx : InUnit x) (hy : InUnit y) : InUnit (x * y) :=
  ⟨mul_nonneg hx.1 hy.1, mul_le_one₀ hx.2 hy.1 hy.2⟩

theorem InUnit.compl {x : K} (hx : InUnit x) : InUnit (1 - x) :=
  ⟨sub_nonneg.2 hx.2, sub_le_self 1 hx.1⟩

/-- The product lies between 0 and 1. -/
theorem unit_miss {l : List (K × K)} (h : ∀ p ∈ l, InUnit (p.1 * p.2)) : InUnit (miss l) := by
  induction l with
  | nil => exact ⟨zero_le_one, le_rfl⟩
  | cons p l ih =>
    rw [miss_cons]
    exact (h p List.mem_cons_self).compl.mul (ih fun q hq => h q (List.mem_cons_of_mem p hq))

/-- Weights below 1 raise the product. -/
theorem miss_ones_le {l : List (K × K)} (h : ∀ p ∈ l, InUnit p.1 ∧ InUnit p.2) :
    miss (l.map fun p => (p.1, 1)) ≤ miss l := by
  induction l with
  | nil => exact le_rfl
  | cons p l ih =>
    obtain ⟨hc, hw⟩ := h p List.mem_cons_self
    have hrest := fun q hq => h q (List.mem_cons_of_mem p hq)
    have hones : InUnit (miss (l.map fun p => (p.1, (1 : K)))) := by
      refine unit_miss fun q hq => ?_
      obtain ⟨r, hr, rfl⟩ := List.mem_map.1 hq
      rw [mul_one]
      exact (hrest r hr).1
    rw [List.map_cons, miss_cons, miss_cons, mul_one]
    refine mul_le_mul ?_ (ih hrest) hones.1 (hc.mul hw).compl.1
    have hle : p.1 * p.2 ≤ p.1 := mul_le_of_le_one_right hc.1 hw.2
    linarith

/-! ### Falling weights -/

theorem unit_missBy {weights confidences : List K} (hw : ∀ w ∈ weights, InUnit w)
    (hc : ∀ c ∈ confidences, InUnit c) : InUnit (missBy weights confidences) := by
  refine unit_miss fun p hp => ?_
  obtain ⟨h1, h2⟩ := List.of_mem_zip hp
  exact (hc _ h1).mul (hw _ h2)

/-- The greater confidence with the greater weight: the smaller product. -/
theorem swap_le {x y d e : K} (h : y ≤ x) (hde : e ≤ d) :
    (1 - x * d) * (1 - y * e) ≤ (1 - y * d) * (1 - x * e) := by
  have hcross : 0 ≤ (x - y) * (d - e) := mul_nonneg (sub_nonneg.2 h) (sub_nonneg.2 hde)
  have hexpand : (1 - y * d) * (1 - x * e) - (1 - x * d) * (1 - y * e) = (x - y) * (d - e) := by
    ring
  linarith

/-- Inserting a confidence at its place in falling order, rather than in front. -/
theorem missBy_orderedInsert_le {weights confidences : List K} {x : K}
    (hw : ∀ w ∈ weights, InUnit w) (hfall : weights.Pairwise (· ≥ ·))
    (hc : ∀ c ∈ x :: confidences, InUnit c) :
    missBy weights (confidences.orderedInsert (fun a b => b ≤ a) x) ≤
      missBy weights (x :: confidences) := by
  induction confidences generalizing weights with
  | nil => exact le_rfl
  | cons b confidences ih =>
    by_cases hb : b ≤ x
    · rw [List.orderedInsert_cons_of_le (fun a b => b ≤ a) confidences hb]
    · rw [List.orderedInsert_of_not_le (fun a b => b ≤ a) confidences hb]
      have hx := hc x List.mem_cons_self
      have hbu := hc b (List.mem_cons_of_mem x List.mem_cons_self)
      have hrest : ∀ c ∈ x :: confidences, InUnit c := by
        intro c hmem
        rcases List.mem_cons.1 hmem with rfl | hmem
        · exact hx
        · exact hc c (List.mem_cons_of_mem x (List.mem_cons_of_mem b hmem))
      have hxb : x ≤ b := le_of_lt (not_le.1 hb)
      rcases weights with _ | ⟨d, _ | ⟨e, weights⟩⟩
      · rw [missBy_nil, missBy_nil]
      · rw [missBy_cons, missBy_cons, missBy_nil, missBy_nil, mul_one, mul_one]
        have hle := mul_le_mul_of_nonneg_right hxb (hw d List.mem_cons_self).1
        linarith
      · obtain ⟨hde, htail⟩ := List.pairwise_cons.1 hfall
        have hwt : ∀ w ∈ e :: weights, InUnit w := fun w h => hw w (List.mem_cons_of_mem d h)
        have hlast : InUnit (missBy weights confidences) :=
          unit_missBy (fun w h => hwt w (List.mem_cons_of_mem e h))
            fun c h => hrest c (List.mem_cons_of_mem x h)
        rw [missBy_cons, missBy_cons, missBy_cons]
        calc (1 - b * d) * missBy (e :: weights) (confidences.orderedInsert (fun a b => b ≤ a) x)
            ≤ (1 - b * d) * missBy (e :: weights) (x :: confidences) :=
              mul_le_mul_of_nonneg_left (ih hwt htail hrest)
                (hbu.mul (hw d List.mem_cons_self)).compl.1
          _ = (1 - b * d) * (1 - x * e) * missBy weights confidences := by
              rw [missBy_cons, mul_assoc]
          _ ≤ (1 - x * d) * (1 - b * e) * missBy weights confidences :=
              mul_le_mul_of_nonneg_right (swap_le hxb (hde e List.mem_cons_self)) hlast.1
          _ = (1 - x * d) * ((1 - b * e) * missBy weights confidences) := mul_assoc _ _ _

/-- The falling order has the least product. -/
theorem missBy_sort_le {weights confidences : List K} (hw : ∀ w ∈ weights, InUnit w)
    (hfall : weights.Pairwise (· ≥ ·)) (hc : ∀ c ∈ confidences, InUnit c) :
    missBy weights (confidences.insertionSort (fun a b => b ≤ a)) ≤ missBy weights confidences := by
  induction confidences generalizing weights with
  | nil => exact le_rfl
  | cons x confidences ih =>
    have hrest : ∀ c ∈ confidences, InUnit c := fun c h => hc c (List.mem_cons_of_mem x h)
    have hsorted : ∀ c ∈ x :: confidences.insertionSort (fun a b => b ≤ a), InUnit c := by
      intro c h
      rcases List.mem_cons.1 h with rfl | h
      · exact hc c List.mem_cons_self
      · exact hrest c ((List.mem_insertionSort _).1 h)
    rw [List.insertionSort_cons]
    refine le_trans (missBy_orderedInsert_le hw hfall hsorted) ?_
    rcases weights with _ | ⟨d, weights⟩
    · rw [missBy_nil, missBy_nil]
    · rw [missBy_cons, missBy_cons]
      refine mul_le_mul_of_nonneg_left
        (ih (fun w h => hw w (List.mem_cons_of_mem d h)) hfall.of_cons hrest) ?_
      exact ((hc x List.mem_cons_self).mul (hw d List.mem_cons_self)).compl.1

/-- Falling order. -/
abbrev falling (confidences : List K) : List K := confidences.insertionSort (fun a b => b ≤ a)

omit [CommRing K] [IsStrictOrderedRing K] in
/-- Sorting forgets the order. -/
theorem falling_perm {l m : List K} (h : l.Perm m) : falling l = falling m := by
  refine List.Perm.eq_of_pairwise (fun a b _ _ hab hba => le_antisymm hba hab)
    (List.pairwise_insertionSort _ l) (List.pairwise_insertionSort _ m) ?_
  exact (List.perm_insertionSort _ l).trans (h.trans (List.perm_insertionSort _ m).symm)

theorem missBy_mono {weights : List K} (hw : ∀ w ∈ weights, InUnit w) {s t : List K} {x y : K}
    (hs : ∀ c ∈ s, InUnit c) (ht : ∀ c ∈ t, InUnit c) (h : x ≤ y) :
    missBy weights (s ++ y :: t) ≤ missBy weights (s ++ x :: t) := by
  induction s generalizing weights with
  | nil =>
    rcases weights with _ | ⟨w, weights⟩
    · rw [missBy_nil, missBy_nil]
    · rw [List.nil_append, List.nil_append, missBy_cons, missBy_cons]
      have hle := mul_le_mul_of_nonneg_right h (hw w List.mem_cons_self).1
      refine mul_le_mul_of_nonneg_right (by linarith) ?_
      exact (unit_missBy (fun v hv => hw v (List.mem_cons_of_mem w hv)) ht).1
  | cons b s ih =>
    rcases weights with _ | ⟨w, weights⟩
    · rw [missBy_nil, missBy_nil]
    · rw [List.cons_append, List.cons_append, missBy_cons, missBy_cons]
      refine mul_le_mul_of_nonneg_left
        (ih (fun v hv => hw v (List.mem_cons_of_mem w hv))
          fun c hc => hs c (List.mem_cons_of_mem b hc)) ?_
      exact ((hs b List.mem_cons_self).mul (hw w List.mem_cons_self)).compl.1

/-- Raising a confidence never raises the product of the sorted list. -/
theorem missBy_falling_raise {weights : List K} (hw : ∀ w ∈ weights, InUnit w)
    (hfall : weights.Pairwise (· ≥ ·)) {s t : List K} {x y : K}
    (hc : ∀ c ∈ s ++ y :: t, InUnit c) (h : x ≤ y) :
    missBy weights (falling (s ++ y :: t)) ≤ missBy weights (falling (s ++ x :: t)) := by
  -- the place of `x` in the sorted list
  have hx : x ∈ falling (s ++ x :: t) := (List.mem_insertionSort _).2 (by simp)
  obtain ⟨u, v, huv⟩ := List.append_of_mem hx
  have hperm : (u ++ v).Perm (s ++ t) := by
    have h1 : (u ++ x :: v).Perm (s ++ x :: t) := huv ▸ List.perm_insertionSort _ _
    have h2 := (List.perm_middle.symm.trans h1).trans List.perm_middle
    exact h2.cons_inv
  have hswap : (s ++ y :: t).Perm (u ++ y :: v) :=
    List.perm_middle.trans ((hperm.symm.cons y).trans List.perm_middle.symm)
  have hmem : ∀ c ∈ u ++ y :: v, InUnit c := fun c hcm => hc c (hswap.mem_iff.2 hcm)
  rw [falling_perm hswap, huv]
  refine le_trans (missBy_sort_le hw hfall hmem) (missBy_mono hw ?_ ?_ h)
  · exact fun c hcm => hmem c (List.mem_append_left _ hcm)
  · exact fun c hcm => hmem c (List.mem_append_right _ (List.mem_cons_of_mem y hcm))

/-- One more confidence, with one more weight, never raises the product of the sorted list. -/
theorem missBy_falling_concat {weights : List K} {w : K} (hw : ∀ v ∈ weights ++ [w], InUnit v)
    (hfall : (weights ++ [w]).Pairwise (· ≥ ·)) {confidences : List K} {c : K}
    (hlen : confidences.length = weights.length) (hc : ∀ x ∈ confidences ++ [c], InUnit x) :
    missBy (weights ++ [w]) (falling (confidences ++ [c])) ≤
      missBy weights (falling confidences) := by
  have hperm : (confidences ++ [c]).Perm (falling confidences ++ [c]) :=
    (List.perm_insertionSort _ confidences).symm.append_right [c]
  have hmem : ∀ x ∈ falling confidences ++ [c], InUnit x := fun x hx => hc x (hperm.mem_iff.2 hx)
  have hsorted : (falling confidences).length = weights.length := by
    rw [List.length_insertionSort, hlen]
  rw [falling_perm hperm]
  refine le_trans (missBy_sort_le hw hfall hmem) ?_
  rw [missBy_concat hsorted]
  have hrest : InUnit (missBy weights (falling confidences)) :=
    unit_missBy (fun v hv => hw v (List.mem_append_left _ hv))
      fun x hx => hmem x (List.mem_append_left _ hx)
  have hlast : InUnit (c * w) := (hc c (by simp)).mul (hw w (by simp))
  exact mul_le_of_le_one_right hrest.1 hlast.compl.2

end NoisyOr
