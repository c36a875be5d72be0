import ComputeIntelligence.ScoreBounds

/-! # The error of a rounded sum

One rounding of a number up to 1 moves it by at most a unit, and one addition of numbers that
are not negative is off by at most a unit of its result.  A sum of `n` terms, added from the
left as they come, is then off by a factor between `(1 - unit) ^ n` and `(1 + unit) ^ n`.
Exact arithmetic has the unit 0, the doubles have `2 ^ -53`: below their normal range they
add without an error, since all of them are multiples of the least one.
-/
namespace PyFloat

/-- Rounding moves a number by at most half a unit of its last place. -/
theorem magnitude_dist {q : ℚ} (h : 0 ≤ q) : |magnitude q - q| ≤ 1 / 2 * 2 ^ ulpExp q := by
  have hu : (0 : ℚ) < 2 ^ ulpExp q := by positivity
  obtain ⟨hlo, hhi⟩ := roundHalfEven_dist (div_nonneg h (le_of_lt hu))
  have hq : q = q / 2 ^ ulpExp q * 2 ^ ulpExp q := (div_mul_cancel₀ _ (ne_of_gt hu)).symm
  have hform : magnitude q - q =
      ((roundHalfEven (q / 2 ^ ulpExp q) : ℚ) - q / 2 ^ ulpExp q) * 2 ^ ulpExp q := by
    rw [sub_mul, ← hq]
    rfl
  rw [hform, abs_mul, abs_of_pos hu]
  apply mul_le_mul_of_nonneg_right ?_ (le_of_lt hu)
  rw [abs_le]
  constructor
  · linarith
  · linarith

/-- Of a number up to 1 the last place is at most `2 ^ -52`. -/
theorem nearest_dist {q : ℚ} (h0 : 0 ≤ q) (h1 : q ≤ 1) : |nearest q - q| ≤ 2 ^ (-53 : Int) := by
  rw [nearest_of_nonneg h0]
  split
  · rw [sub_self, abs_zero]
    positivity
  · rcases eq_or_lt_of_le h0 with rfl | hpos
    · rw [magnitude_zero, sub_zero, abs_zero]
      positivity
    · have hunit : ulpExp q ≤ -52 := by
        have hlow : (2 : ℚ) ^ binade q ≤ 2 ^ (0 : Int) := by
          rw [zpow_zero]
          exact le_trans (binade_spec hpos).1 h1
        have := (zpow_le_zpow_iff_right₀ one_lt_two).1 hlow
        rw [ulpExp_eq]
        omega
      calc |magnitude q - q| ≤ 1 / 2 * 2 ^ ulpExp q := magnitude_dist h0
        _ ≤ 1 / 2 * 2 ^ (-52 : Int) :=
            mul_le_mul_of_nonneg_left (zpow_le_zpow_right₀ one_le_two hunit) (by norm_num)
        _ = 2 ^ (-53 : Int) := by norm_num

/-- In the normal range a rounding is off by a factor. -/
theorem nearest_dist_of_normal {q : ℚ} (h : 2 ^ (-1022 : Int) ≤ q) :
    |nearest q - q| ≤ 2 ^ (-53 : Int) * q := by
  have hpos : 0 < q := lt_of_lt_of_le (by positivity) h
  rw [nearest_of_nonneg (le_of_lt hpos)]
  split
  · rw [sub_self, abs_zero]
    positivity
  · obtain ⟨hlow, hhigh⟩ := binade_spec hpos
    have hunit : ulpExp q = binade q - 52 := by
      have := (zpow_lt_zpow_iff_right₀ one_lt_two).1 (lt_of_le_of_lt h hhigh)
      rw [ulpExp_eq]
      omega
    calc |magnitude q - q| ≤ 1 / 2 * 2 ^ ulpExp q := magnitude_dist (le_of_lt hpos)
      _ = 2 ^ (-53 : Int) * 2 ^ binade q := by
          rw [hunit, show binade q - 52 = -52 + binade q by ring, zpow_add₀ two_ne_zero,
            ← mul_assoc]
          norm_num
      _ ≤ 2 ^ (-53 : Int) * q := mul_le_mul_of_nonneg_left hlow (by positivity)

/-- A small double is a multiple of the least one. -/
theorem exists_multiple {a : ℚ} (hexact : nearest a = a) (h0 : 0 ≤ a) (h1 : a ≤ 1) :
    ∃ k : Nat, a = k / 2 ^ 1074 := by
  have hsmall : ¬2 ^ 1024 ≤ magnitude a := by
    have hle := magnitude_le_of_le_one h0 h1
    have hpow : (2 : ℚ) ^ (-54 : Int) ≤ 1 := by norm_num
    have hlarge : magnitude a < 2 ^ 1024 := by
      calc magnitude a ≤ a + 2 ^ (-54 : Int) := hle
        _ < 2 ^ 2 := by linarith
        _ ≤ 2 ^ 1024 := pow_le_pow_right₀ one_le_two (by norm_num)
    exact not_le.2 hlarge
  rw [nearest_of_nonneg h0, if_neg hsmall] at hexact
  obtain ⟨d, hd⟩ := Int.eq_ofNat_of_zero_le
    (show (0 : Int) ≤ ulpExp a + 1074 by rw [ulpExp_eq]; omega)
  refine ⟨roundHalfEven (a / 2 ^ ulpExp a) * 2 ^ d, ?_⟩
  have hunit : (2 : ℚ) ^ ulpExp a = (2 ^ d : Nat) / 2 ^ 1074 := by
    rw [natCast_twoPow, ← zpow_natCast, ← zpow_sub₀ two_ne_zero]
    congr 1
    push_cast at hd ⊢
    omega
  calc a = roundHalfEven (a / 2 ^ ulpExp a) * 2 ^ ulpExp a := hexact.symm
    _ = ((roundHalfEven (a / 2 ^ ulpExp a) * 2 ^ d : Nat) : ℚ) / 2 ^ 1074 := by
        rw [hunit, Nat.cast_mul]
        exact (mul_div_assoc _ _ _).symm

theorem nearest_add_dist {a b : ℚ} (ha : nearest a = a) (hb : nearest b = b) (ha0 : 0 ≤ a)
    (hb0 : 0 ≤ b) : |nearest (a + b) - (a + b)| ≤ 2 ^ (-53 : Int) * (a + b) := by
  by_cases hnormal : 2 ^ (-1022 : Int) ≤ a + b
  · exact nearest_dist_of_normal hnormal
  · -- both are multiples of the least double, and their sum has few bits
    have hlt := not_le.1 hnormal
    have hone : (2 : ℚ) ^ (-1022 : Int) ≤ 1 := by
      rw [← zpow_zero (2 : ℚ)]
      exact zpow_le_zpow_right₀ one_le_two (by norm_num)
    obtain ⟨j, hj⟩ := exists_multiple ha ha0 (by linarith)
    obtain ⟨k, hk⟩ := exists_multiple hb hb0 (by linarith)
    have hsum : a + b = ((j + k : Nat) : ℚ) / 2 ^ 1074 := by
      rw [hj, hk, Nat.cast_add]
      exact (add_div _ _ _).symm
    have hfew : j + k < 2 ^ 53 := by
      have hscaled : ((j + k : Nat) : ℚ) < 2 ^ (-1022 : Int) * 2 ^ (1074 : Int) := by
        rw [hsum, div_lt_iff₀ (by positivity)] at hlt
        exact_mod_cast hlt
      rw [← zpow_add₀ two_ne_zero] at hscaled
      norm_num at hscaled
      have : j + k < 4503599627370496 := by exact_mod_cast hscaled
      omega
    rw [hsum, nearest_dyadic hfew le_rfl, sub_self, abs_zero, ← hsum]
    exact mul_nonneg (by positivity) (add_nonneg ha0 hb0)

end PyFloat

namespace ComputeIntelligence

/-- A rounded arithmetic whose roundings are off by a unit. -/
class UnitRoundoff (F : Type) extends RoundedArith F where
  unit : ℚ
  unit_nonneg : 0 ≤ unit
  unit_lt_one : unit < 1
  rnd_dist : ∀ {q : ℚ}, 0 ≤ q → q ≤ 1 → |rnd q - q| ≤ unit
  add_dist : ∀ {a b : F}, 0 ≤ val a → 0 ≤ val b →
    |rnd (val a + val b) - (val a + val b)| ≤ unit * (val a + val b)

instance : UnitRoundoff ℚ where
  unit := 0
  unit_nonneg := le_rfl
  unit_lt_one := zero_lt_one
  rnd_dist {q} _ _ := by
    show |q - q| ≤ 0
    rw [sub_self, abs_zero]
  add_dist {a b} _ _ := by
    show |a + b - (a + b)| ≤ 0 * (a + b)
    rw [sub_self, abs_zero, zero_mul]

instance : UnitRoundoff Binary64 where
  unit := 2 ^ (-53 : Int)
  unit_nonneg := by positivity
  unit_lt_one := by norm_num
  rnd_dist := PyFloat.nearest_dist
  add_dist {a b} ha hb := PyFloat.nearest_add_dist a.exact b.exact ha hb

namespace UnitRoundoff
variable {F : Type} [UnitRoundoff F]
open ScoreArith RoundedArith

/-- A sum from the left stays within a power of the unit. -/
theorem val_foldl_bounds (xs : List F) (h : ∀ x ∈ xs, 0 ≤ val x) {a : F} (ha : 0 ≤ val a) :
    (val a + (xs.map val).sum) * (1 - unit F) ^ xs.length ≤ val (xs.foldl (· + ·) a) ∧
      val (xs.foldl (· + ·) a) ≤ (val a + (xs.map val).sum) * (1 + unit F) ^ xs.length := by
  induction xs generalizing a with
  | nil => simp
  | cons x xs ih =>
    have hx := h x List.mem_cons_self
    have hunit := unit_nonneg (F := F)
    have hlt := unit_lt_one (F := F)
    have hrest : 0 ≤ (xs.map val).sum :=
      List.sum_nonneg fun q hq => by
        obtain ⟨y, hy, rfl⟩ := List.mem_map.1 hq
        exact h y (List.mem_cons_of_mem x hy)
    obtain ⟨hlo, hhi⟩ := abs_le.1 (add_dist ha hx)
    rw [← val_add] at hlo hhi
    have hstep : 0 ≤ val (a + x) := by
      rw [val_add]
      exact rnd_nonneg (add_nonneg ha hx)
    obtain ⟨hlower, hupper⟩ := ih (fun y hy => h y (List.mem_cons_of_mem x hy)) hstep
    rw [List.foldl_cons, List.map_cons, List.sum_cons, List.length_cons, pow_succ', pow_succ',
      ← mul_assoc, ← mul_assoc, ← add_assoc]
    constructor
    · refine le_trans (mul_le_mul_of_nonneg_right ?_ (pow_nonneg (by linarith) _)) hlower
      nlinarith
    · refine le_trans hupper (mul_le_mul_of_nonneg_right ?_ (pow_nonneg (by linarith) _))
      nlinarith

theorem val_total_bounds {xs : List F} (h : ∀ x ∈ xs, 0 ≤ val x) :
    (xs.map val).sum * (1 - unit F) ^ xs.length ≤ val (total xs) ∧
      val (total xs) ≤ (xs.map val).sum * (1 + unit F) ^ xs.length := by
  have hgo := val_foldl_bounds xs h (a := lit 0) (by rw [val_zero])
  rw [val_zero, zero_add] at hgo
  exact hgo

variable (F) in
/-- How far a sum of `n` terms can be from the exact one, as a factor. -/
def drift (n : Nat) : ℚ := 1 / (1 - unit F) ^ n - 1

/-- The exact sum, measured by the rounded one. -/
theorem sum_div_total_dist {xs : List F} (h : ∀ x ∈ xs, 0 ≤ val x) (hpos : 0 < (xs.map val).sum) :
    |(xs.map val).sum / val (total xs) - 1| ≤ drift F xs.length := by
  have hunit := unit_nonneg (F := F)
  have hlt := unit_lt_one (F := F)
  obtain ⟨hlower, hupper⟩ := val_total_bounds h
  have hlow : 0 < (1 - unit F) ^ xs.length := pow_pos (by linarith) _
  have hhigh : 0 < (1 + unit F) ^ xs.length := pow_pos (by linarith) _
  have htotal : 0 < val (total xs) := lt_of_lt_of_le (mul_pos hpos hlow) hlower
  have hprod : (1 - unit F) ^ xs.length * (1 + unit F) ^ xs.length ≤ 1 := by
    rw [← mul_pow]
    exact pow_le_one₀ (by nlinarith) (by nlinarith)
  have hbelow : (xs.map val).sum / val (total xs) ≤ 1 / (1 - unit F) ^ xs.length := by
    rw [div_le_div_iff₀ htotal hlow, one_mul]
    exact hlower
  have habove : (1 - unit F) ^ xs.length ≤ (xs.map val).sum / val (total xs) := by
    rw [le_div_iff₀ htotal]
    calc (1 - unit F) ^ xs.length * val (total xs)
        ≤ (1 - unit F) ^ xs.length * ((xs.map val).sum * (1 + unit F) ^ xs.length) :=
          mul_le_mul_of_nonneg_left hupper (le_of_lt hlow)
      _ = (xs.map val).sum * ((1 - unit F) ^ xs.length * (1 + unit F) ^ xs.length) := by ring
      _ ≤ (xs.map val).sum * 1 := mul_le_mul_of_nonneg_left hprod (le_of_lt hpos)
      _ = (xs.map val).sum := mul_one _
  have hamgm : 2 ≤ (1 - unit F) ^ xs.length + 1 / (1 - unit F) ^ xs.length := by
    generalize (1 - unit F) ^ xs.length = c at hlow
    rw [← sub_nonneg]
    have hsq : c + 1 / c - 2 = (c - 1) ^ 2 / c := by
      field_simp
      ring
    rw [hsq]
    positivity
  unfold drift
  rw [abs_le]
  constructor
  · linarith
  · linarith

end UnitRoundoff

end ComputeIntelligence
