import ComputeIntelligence.ScoreRange

/-! # The order of rounded results

One monotone rounding after each operation keeps every inequality between exact results, so sums,
differences, products, quotients and rounded values are ordered as the exact ones are.
-/
namespace ComputeIntelligence
namespace RoundedArith
open ScoreArith
variable {F : Type} [RoundedArith F] {a a' b b' c : F}

theorem add_mono (ha : a ≤ a') (hb : b ≤ b') : a + b ≤ a' + b' := by
  rw [← val_le_val] at ha hb ⊢
  rw [val_add, val_add]
  exact rnd_mono (add_le_add ha hb)

theorem sub_mono (ha : a ≤ a') (hb : b' ≤ b) : a - b ≤ a' - b' := by
  rw [← val_le_val] at ha hb ⊢
  rw [val_sub, val_sub]
  exact rnd_mono (sub_le_sub ha hb)

theorem mul_mono (ha : lit 0 ≤ a) (haa : a ≤ a') (hb : lit 0 ≤ b) (hbb : b ≤ b') :
    a * b ≤ a' * b' := by
  rw [lit_zero_le_iff] at ha hb
  rw [← val_le_val] at haa hbb ⊢
  rw [val_mul, val_mul]
  exact rnd_mono (mul_le_mul haa hbb hb (ha.trans haa))

theorem mul_mono_left (hc : lit 0 ≤ c) (h : a ≤ a') : a * c ≤ a' * c := by
  rw [lit_zero_le_iff] at hc
  rw [← val_le_val] at h ⊢
  rw [val_mul, val_mul]
  exact rnd_mono (mul_le_mul_of_nonneg_right h hc)

/-- A factor that is not positive turns the order round. -/
theorem mul_anti (hc : c ≤ lit 0) (hb : b ≤ b') : c * b' ≤ c * b := by
  rw [← val_le_val, val_zero] at hc
  rw [← val_le_val] at hb ⊢
  rw [val_mul, val_mul]
  exact rnd_mono (mul_le_mul_of_nonpos_left hb hc)

theorem mul_le_left (ha : lit 0 ≤ a) (hb : b ≤ lit 1) : a * b ≤ a := by
  rw [lit_zero_le_iff] at ha
  rw [← val_le_val, val_one] at hb
  rw [← val_le_val, val_mul]
  exact rnd_le_val (mul_le_of_le_one_right ha hb)

theorem div_mono (hc : lit 0 ≤ c) (h : a ≤ a') : a / c ≤ a' / c := by
  rw [lit_zero_le_iff] at hc
  rw [← val_le_val] at h ⊢
  rw [val_div, val_div]
  exact rnd_mono (div_le_div_of_nonneg_right h hc)

/-- A part of the whole. -/
theorem div_le_one (hb : lit 0 < b) (h : a ≤ b) : a / b ≤ lit 1 := by
  rw [lit_zero_lt_iff] at hb
  rw [← val_le_val] at h
  rw [← val_le_val, val_div, val_one]
  exact rnd_le_one ((div_le_one₀ hb).2 h)

theorem round_mono (n : Nat) (h : a ≤ b) : round n a ≤ round n b := by
  rw [← val_le_val] at h ⊢
  rw [val_round, val_round]
  exact rnd_mono (PyFloat.decimalRound_mono n h)

theorem round_nonneg (n : Nat) (h : lit 0 ≤ a) : lit 0 ≤ round n a := by
  rw [lit_zero_le_iff] at h ⊢
  rw [val_round]
  exact rnd_nonneg (PyFloat.decimalRound_nonneg n h)

/-- A number with few bits is what it says. -/
theorem val_lit_natCast {k : Nat} (h : k < 2 ^ 53) : val (lit (k : ℚ) : F) = k := by
  have hk := rnd_dyadic (F := F) (k := k) (n := 0) h (Nat.zero_le _)
  rw [pow_zero, div_one] at hk
  rw [val_lit, hk]

/-- Rounding to decimals keeps a whole number. -/
theorem round_lit_natCast (n : Nat) {k : Nat} (h : k < 2 ^ 53) :
    round n (lit (k : ℚ) : F) = lit (k : ℚ) := by
  have hgrid : PyFloat.decimalRound n (k : ℚ) = k := by
    have hk := PyFloat.decimalRound_grid n (k * 10 ^ n)
    have hpow : ((10 : ℚ) ^ n) ≠ 0 := pow_ne_zero _ (by norm_num)
    rw [Nat.cast_mul, Nat.cast_pow, Nat.cast_ofNat, mul_div_assoc, div_self hpow, mul_one] at hk
    exact hk
  rw [← val_inj, val_round, val_lit_natCast h, hgrid, ← val_lit, val_lit_natCast h]

theorem nonneg_sub (h : b ≤ a) : lit 0 ≤ a - b := by
  rw [← val_le_val] at h
  rw [lit_zero_le_iff, val_sub]
  exact rnd_nonneg (sub_nonneg.2 h)

theorem neg_nonpos (h : lit 0 ≤ a) : (lit 0 : F) - a ≤ lit 0 := sub_le_left h

end RoundedArith
end ComputeIntelligence
