import Mathlib.Algebra.Order.Field.Power
import Mathlib.Tactic.Linarith
import Mathlib.Tactic.Positivity
import Mathlib.Tactic.Ring
import ComputeIntelligence.PyValue

/-! # Rounding to nearest

Rounding to the nearest integer with ties to even is monotone, keeps the integers and moves a
number by at most a half; so do rounding to a number of decimals and rounding to the nearest
double, on their own grids.

The double nearest to a positive number is computed in the binade of the number.  Within a
binade the rounding is that to integers, scaled; across binades the power of two between them
separates the results (`magnitude_mono`).
-/
namespace PyFloat

/-! ### Integers -/

theorem floor_cast {q : ℚ} (h : 0 ≤ q) : ((q.floor.toNat : Nat) : ℚ) ≤ q ∧
    q < (q.floor.toNat : Nat) + 1 := by
  have hpos : 0 ≤ q.floor := Rat.le_floor_iff.2 (by simpa using h)
  have hcast : ((q.floor.toNat : Nat) : ℚ) = ((q.floor : Int) : ℚ) := by
    rw [← Int.cast_natCast, Int.toNat_of_nonneg hpos]
  rw [hcast]
  exact ⟨Rat.floor_le q, by exact_mod_cast Rat.lt_floor_add_one q⟩

/-- The nearest integer lies no further than a half away. -/
theorem roundHalfEven_dist {q : ℚ} (h : 0 ≤ q) :
    q - 1 / 2 ≤ roundHalfEven q ∧ (roundHalfEven q : ℚ) ≤ q + 1 / 2 := by
  obtain ⟨hlo, hhi⟩ := floor_cast h
  unfold roundHalfEven
  dsimp only
  split
  · constructor <;> linarith
  · split
    · push_cast
      constructor <;> linarith
    · split
      · constructor <;> linarith
      · push_cast
        constructor <;> linarith

theorem floor_le_roundHalfEven (q : ℚ) :
    q.floor.toNat ≤ roundHalfEven q ∧ roundHalfEven q ≤ q.floor.toNat + 1 := by
  unfold roundHalfEven
  dsimp only
  split_ifs <;> omega

/-- A greater number has no smaller nearest integer. -/
theorem roundHalfEven_mono {p q : ℚ} (h : p ≤ q) :
    roundHalfEven p ≤ roundHalfEven q := by
  have hfloor : p.floor.toNat ≤ q.floor.toNat := Int.toNat_le_toNat (Rat.floor_monotone h)
  rcases Nat.eq_or_lt_of_le hfloor with heq | hlt
  · -- the same floor: the same tie
    unfold roundHalfEven
    dsimp only
    rw [heq]
    split_ifs <;> first | omega | (exfalso; linarith)
  · have h1 := (floor_le_roundHalfEven p).2
    have h2 := (floor_le_roundHalfEven q).1
    omega

theorem roundHalfEven_natCast (n : Nat) : roundHalfEven (n : ℚ) = n := by
  unfold roundHalfEven
  have hfloor : (n : ℚ).floor.toNat = n := by
    rw [show (n : ℚ) = ((n : Int) : ℚ) from rfl, Rat.floor_intCast, Int.toNat_natCast]
  simp [hfloor]

/-- Bounds that are integers survive rounding. -/
theorem roundHalfEven_le {q : ℚ} {n : Nat} (hn : q ≤ n) : roundHalfEven q ≤ n :=
  le_of_le_of_eq (roundHalfEven_mono hn) (roundHalfEven_natCast n)

theorem le_roundHalfEven {q : ℚ} {n : Nat} (hn : (n : ℚ) ≤ q) : n ≤ roundHalfEven q :=
  le_of_eq_of_le (roundHalfEven_natCast n).symm (roundHalfEven_mono hn)

/-! ### Decimals -/

/-- Rounding to `n` decimals. -/
def decimalRound (n : Nat) (q : ℚ) : ℚ :=
  let m : ℚ := roundHalfEven (|q| * 10 ^ n) / 10 ^ n
  if 0 ≤ q then m else -m

theorem decimalRound_of_nonneg (n : Nat) {q : ℚ} (h : 0 ≤ q) :
    decimalRound n q = roundHalfEven (q * 10 ^ n) / 10 ^ n := by
  unfold decimalRound
  rw [if_pos h, abs_of_nonneg h]

theorem decimalRound_of_neg (n : Nat) {q : ℚ} (h : q < 0) :
    decimalRound n q = -(roundHalfEven (-q * 10 ^ n) / 10 ^ n) := by
  unfold decimalRound
  rw [if_neg (not_le.2 h), abs_of_neg h]

theorem decimalRound_nonneg (n : Nat) {q : ℚ} (h : 0 ≤ q) : 0 ≤ decimalRound n q := by
  rw [decimalRound_of_nonneg n h]
  positivity

theorem decimalRound_nonpos (n : Nat) {q : ℚ} (h : q < 0) : decimalRound n q ≤ 0 := by
  rw [decimalRound_of_neg n h]
  have : (0 : ℚ) ≤ roundHalfEven (-q * 10 ^ n) / 10 ^ n := by positivity
  linarith

theorem decimalRound_mono (n : Nat) {p q : ℚ} (h : p ≤ q) :
    decimalRound n p ≤ decimalRound n q := by
  have hten : (0 : ℚ) < 10 ^ n := by positivity
  have hscaled : ∀ {x y : ℚ}, x ≤ y →
      (roundHalfEven (x * 10 ^ n) : ℚ) / 10 ^ n ≤ roundHalfEven (y * 10 ^ n) / 10 ^ n := by
    intro x y hxy
    have hmul : x * 10 ^ n ≤ y * 10 ^ n := mul_le_mul_of_nonneg_right hxy (le_of_lt hten)
    exact div_le_div_of_nonneg_right (by exact_mod_cast roundHalfEven_mono hmul) (le_of_lt hten)
  by_cases hp : 0 ≤ p
  · rw [decimalRound_of_nonneg n hp, decimalRound_of_nonneg n (le_trans hp h)]
    exact hscaled h
  · by_cases hq : 0 ≤ q
    · exact le_trans (decimalRound_nonpos n (not_le.1 hp)) (decimalRound_nonneg n hq)
    · rw [decimalRound_of_neg n (not_le.1 hp), decimalRound_of_neg n (not_le.1 hq)]
      exact neg_le_neg (hscaled (neg_le_neg h))

/-- Decimals of the given number are kept. -/
theorem decimalRound_grid (n k : Nat) : decimalRound n (k / 10 ^ n) = (k / 10 ^ n : ℚ) := by
  have hten : (10 : ℚ) ^ n ≠ 0 := by positivity
  rw [decimalRound_of_nonneg n (by positivity), div_mul_cancel₀ _ hten, roundHalfEven_natCast]

theorem decimalRound_dist (n : Nat) {q : ℚ} (h : 0 ≤ q) :
    q - 1 / 2 / 10 ^ n ≤ decimalRound n q ∧ decimalRound n q ≤ q + 1 / 2 / 10 ^ n := by
  have hten : (0 : ℚ) < 10 ^ n := by positivity
  obtain ⟨hlo, hhi⟩ := roundHalfEven_dist (mul_nonneg h (le_of_lt hten))
  rw [decimalRound_of_nonneg n h]
  constructor
  · rw [le_div_iff₀ hten, sub_mul, div_mul_cancel₀ _ (ne_of_gt hten)]
    exact hlo
  · rw [div_le_iff₀ hten, add_mul, div_mul_cancel₀ _ (ne_of_gt hten)]
    exact hhi

/-! ### Binary places -/

theorem twoPow_eq (e : Int) : twoPow e = (2 : ℚ) ^ e := by
  unfold twoPow
  split
  · rename_i h
    rw [← zpow_natCast, Int.toNat_of_nonneg h]
  · rename_i h
    have hneg : ((-e).toNat : Int) = -e := Int.toNat_of_nonneg (by omega)
    rw [one_div, ← zpow_natCast, hneg, zpow_neg, inv_inv]

theorem natCast_twoPow (n : Nat) : ((2 ^ n : Nat) : ℚ) = (2 : ℚ) ^ (n : Int) := by
  rw [Nat.cast_pow, Nat.cast_ofNat, zpow_natCast]

/-- The binary exponent of a positive number. -/
def binade (q : ℚ) : Int :=
  let guess : Int := (Nat.log2 q.num.toNat : Int) - Nat.log2 q.den
  if twoPow guess ≤ q then guess else guess - 1

theorem ulpExp_eq (q : ℚ) : ulpExp q = max (binade q - 52) (-1074) := rfl

/-- A quotient lies in one of two binades, by the logarithms of its terms. -/
theorem div_bounds {n d : Nat} (hn : n ≠ 0) (hd : d ≠ 0) :
    (2 : ℚ) ^ ((Nat.log2 n : Int) - Nat.log2 d - 1) ≤ (n : ℚ) / d ∧
      (n : ℚ) / d < 2 ^ ((Nat.log2 n : Int) - Nat.log2 d + 1) := by
  have hden : (0 : ℚ) < d := by exact_mod_cast Nat.pos_of_ne_zero hd
  have hnlo : (2 : ℚ) ^ Nat.log2 n ≤ n := by exact_mod_cast Nat.log2_self_le hn
  have hnhi : (n : ℚ) < 2 ^ (Nat.log2 n + 1) := by exact_mod_cast Nat.lt_log2_self
  have hdlo : (2 : ℚ) ^ Nat.log2 d ≤ d := by exact_mod_cast Nat.log2_self_le hd
  have hdhi : (d : ℚ) < 2 ^ (Nat.log2 d + 1) := by exact_mod_cast Nat.lt_log2_self
  constructor
  · rw [zpow_sub_one₀ two_ne_zero, zpow_sub₀ two_ne_zero, zpow_natCast, zpow_natCast,
      ← div_eq_mul_inv, div_div, div_le_div_iff₀ (by positivity) hden, ← pow_succ]
    exact mul_le_mul hnlo (le_of_lt hdhi) (le_of_lt hden) (by positivity)
  · rw [zpow_add_one₀ two_ne_zero, zpow_sub₀ two_ne_zero, zpow_natCast, zpow_natCast,
      div_mul_eq_mul_div, div_lt_div_iff₀ hden (by positivity), ← pow_succ]
    exact mul_lt_mul hnhi hdlo (by positivity) (by positivity)

/-- A positive number lies between the powers of two of its binade. -/
theorem binade_spec {q : ℚ} (h : 0 < q) :
    (2 : ℚ) ^ binade q ≤ q ∧ q < (2 : ℚ) ^ (binade q + 1) := by
  have hnum : 0 < q.num := Rat.num_pos.2 h
  have hq : (q.num.toNat : ℚ) / q.den = q := by
    rw [← Int.cast_natCast, Int.toNat_of_nonneg (le_of_lt hnum), Rat.num_div_den]
  obtain ⟨hlow, hhigh⟩ := div_bounds (n := q.num.toNat) (by omega) q.den_ne_zero
  rw [hq] at hlow hhigh
  unfold binade
  dsimp only
  rw [twoPow_eq]
  split
  · rename_i hle
    exact ⟨hle, hhigh⟩
  · rename_i hlt
    rw [sub_add_cancel]
    exact ⟨hlow, not_le.1 hlt⟩

theorem binade_mono {p q : ℚ} (hp : 0 < p) (h : p ≤ q) : binade p ≤ binade q := by
  have h1 := (binade_spec hp).1
  have h2 := (binade_spec (lt_of_lt_of_le hp h)).2
  have hlt : (2 : ℚ) ^ binade p < 2 ^ (binade q + 1) := lt_of_le_of_lt (le_trans h1 h) h2
  have := (zpow_lt_zpow_iff_right₀ one_lt_two).1 hlt
  omega

/-- The nearest number with 53 significant bits, at most 1074 of them after the point. -/
def magnitude (q : ℚ) : ℚ := roundHalfEven (q / 2 ^ ulpExp q) * 2 ^ ulpExp q

theorem magnitude_mono {p q : ℚ} (hp : 0 < p) (h : p ≤ q) : magnitude p ≤ magnitude q := by
  have hq : 0 < q := lt_of_lt_of_le hp h
  have hbinade := binade_mono hp h
  have hunit : ulpExp p ≤ ulpExp q := by
    rw [ulpExp_eq, ulpExp_eq]
    omega
  unfold magnitude
  rcases eq_or_lt_of_le hunit with heq | hlt
  · rw [heq]
    have hscaled : p / 2 ^ ulpExp q ≤ q / 2 ^ ulpExp q :=
      div_le_div_of_nonneg_right h (by positivity)
    exact mul_le_mul_of_nonneg_right (by exact_mod_cast roundHalfEven_mono hscaled) (by positivity)
  · -- the power of two above the smaller unit separates the two
    have hpos : (0 : ℚ) < 2 ^ ulpExp p := by positivity
    have hbelow : roundHalfEven (p / 2 ^ ulpExp p) ≤ 2 ^ 53 := by
      apply roundHalfEven_le
      rw [div_le_iff₀ hpos]
      refine le_trans (le_of_lt (binade_spec hp).2) ?_
      rw [natCast_twoPow, ← zpow_add₀ two_ne_zero]
      refine zpow_le_zpow_right₀ one_le_two ?_
      rw [ulpExp_eq]
      omega
    have habove : 2 ^ 52 ≤ roundHalfEven (q / 2 ^ ulpExp q) := by
      apply le_roundHalfEven
      rw [le_div_iff₀ (by positivity)]
      refine le_trans ?_ (binade_spec hq).1
      rw [natCast_twoPow, ← zpow_add₀ two_ne_zero]
      refine zpow_le_zpow_right₀ one_le_two ?_
      rw [ulpExp_eq, ulpExp_eq] at hlt
      rw [ulpExp_eq]
      omega
    calc (roundHalfEven (p / 2 ^ ulpExp p) : ℚ) * 2 ^ ulpExp p
        ≤ 2 ^ 53 * 2 ^ ulpExp p :=
          mul_le_mul_of_nonneg_right (by exact_mod_cast hbelow) (by positivity)
      _ = 2 ^ 52 * 2 ^ (ulpExp p + 1) := by
          rw [zpow_add_one₀ two_ne_zero]
          ring
      _ ≤ 2 ^ 52 * 2 ^ ulpExp q :=
          mul_le_mul_of_nonneg_left (zpow_le_zpow_right₀ one_le_two (by omega)) (by positivity)
      _ ≤ roundHalfEven (q / 2 ^ ulpExp q) * 2 ^ ulpExp q :=
          mul_le_mul_of_nonneg_right (by exact_mod_cast habove) (by positivity)

theorem magnitude_zero : magnitude 0 = 0 := by
  have h : roundHalfEven (0 / 2 ^ ulpExp 0) = 0 := by
    rw [zero_div]
    exact roundHalfEven_natCast 0
  rw [magnitude, h, Nat.cast_zero, zero_mul]

theorem magnitude_nonneg (q : ℚ) : 0 ≤ magnitude q := by
  unfold magnitude
  positivity

/-- A number with 53 significant bits is kept. -/
theorem magnitude_of_bits {k : Nat} (h0 : 0 < k) (hk : k < 2 ^ 53) {u : Int} (hu : -1074 ≤ u) :
    magnitude (k * 2 ^ u) = (k : ℚ) * 2 ^ u := by
  have hq : (0 : ℚ) < k * 2 ^ u := by positivity
  have hunit : ulpExp (k * 2 ^ u) ≤ u := by
    have hlt : (2 : ℚ) ^ binade (k * 2 ^ u) < 2 ^ (53 + u) := by
      refine lt_of_le_of_lt (binade_spec hq).1 ?_
      rw [zpow_add₀ two_ne_zero]
      exact mul_lt_mul_of_pos_right (by exact_mod_cast hk) (by positivity)
    have := (zpow_lt_zpow_iff_right₀ one_lt_two).1 hlt
    rw [ulpExp_eq]
    omega
  obtain ⟨d, hd⟩ := Int.eq_ofNat_of_zero_le (sub_nonneg.2 hunit)
  have hscaled : (k : ℚ) * 2 ^ u / 2 ^ ulpExp (k * 2 ^ u) = ((k * 2 ^ d : Nat) : ℚ) := by
    rw [mul_div_assoc, ← zpow_sub₀ two_ne_zero, hd, Nat.cast_mul, natCast_twoPow]
  rw [magnitude, hscaled, roundHalfEven_natCast, ← hscaled, div_mul_cancel₀]
  positivity

theorem magnitude_magnitude {q : ℚ} (h : 0 < q) : magnitude (magnitude q) = magnitude q := by
  have hu : -1074 ≤ ulpExp q := le_max_right _ _
  have hle : roundHalfEven (q / 2 ^ ulpExp q) ≤ 2 ^ 53 := by
    apply roundHalfEven_le
    rw [div_le_iff₀ (by positivity), natCast_twoPow, ← zpow_add₀ two_ne_zero]
    refine le_trans (le_of_lt (binade_spec h).2) (zpow_le_zpow_right₀ one_le_two ?_)
    rw [ulpExp_eq]
    omega
  have hdef : magnitude q = roundHalfEven (q / 2 ^ ulpExp q) * 2 ^ ulpExp q := rfl
  rw [hdef]
  generalize roundHalfEven (q / 2 ^ ulpExp q) = k at hle
  rcases Nat.eq_zero_or_pos k with rfl | h0
  · rw [Nat.cast_zero, zero_mul, magnitude_zero]
  · rcases Nat.lt_or_eq_of_le hle with hlt | rfl
    · exact magnitude_of_bits h0 hlt hu
    · -- the next power of two has one significant bit
      have hpow : ((2 ^ 53 : Nat) : ℚ) * 2 ^ ulpExp q = (1 : Nat) * 2 ^ (53 + ulpExp q) := by
        rw [natCast_twoPow, Nat.cast_one, one_mul, zpow_add₀ two_ne_zero]
        rfl
      rw [hpow]
      exact magnitude_of_bits one_pos (by norm_num) (by omega)

theorem magnitude_le_of_le_one {q : ℚ} (h0 : 0 ≤ q) (h1 : q ≤ 1) :
    magnitude q ≤ q + 2 ^ (-54 : Int) := by
  rcases eq_or_lt_of_le h0 with rfl | hpos
  · rw [magnitude_zero, zero_add]
    positivity
  · rcases eq_or_lt_of_le h1 with rfl | hlt
    · have hone := magnitude_of_bits one_pos (by norm_num) (show (-1074 : Int) ≤ 0 by norm_num)
      rw [Nat.cast_one, zpow_zero, one_mul] at hone
      rw [hone]
      exact le_add_of_nonneg_right (by positivity)
    · have hunit : ulpExp q ≤ -53 := by
        have hlow : (2 : ℚ) ^ binade q < 2 ^ (0 : Int) := by
          rw [zpow_zero]
          exact lt_of_le_of_lt (binade_spec hpos).1 hlt
        have := (zpow_lt_zpow_iff_right₀ one_lt_two).1 hlow
        rw [ulpExp_eq]
        omega
      have hu : (0 : ℚ) < 2 ^ ulpExp q := by positivity
      have hdist := (roundHalfEven_dist (div_nonneg h0 (le_of_lt hu))).2
      have hhalf : (1 / 2 : ℚ) * 2 ^ ulpExp q ≤ 2 ^ (-54 : Int) := by
        calc (1 / 2 : ℚ) * 2 ^ ulpExp q ≤ 1 / 2 * 2 ^ (-53 : Int) :=
              mul_le_mul_of_nonneg_left (zpow_le_zpow_right₀ one_le_two hunit) (by norm_num)
          _ = 2 ^ (-54 : Int) := by norm_num
      calc magnitude q ≤ (q / 2 ^ ulpExp q + 1 / 2) * 2 ^ ulpExp q :=
            mul_le_mul_of_nonneg_right hdist (le_of_lt hu)
        _ = q + 1 / 2 * 2 ^ ulpExp q := by rw [add_mul, div_mul_cancel₀ _ (ne_of_gt hu)]
        _ ≤ q + 2 ^ (-54 : Int) := by linarith

/-! ### Doubles -/

/-- The nearest double, as a rational; beyond the greatest double nothing is rounded. -/
def nearest (q : ℚ) : ℚ :=
  if 2 ^ 1024 ≤ magnitude |q| then q
  else if 0 ≤ q then magnitude |q| else -magnitude |q|

theorem nearest_of_nonneg {q : ℚ} (h : 0 ≤ q) :
    nearest q = if 2 ^ 1024 ≤ magnitude q then q else magnitude q := by
  unfold nearest
  rw [abs_of_nonneg h, if_pos h]

theorem nearest_neg (q : ℚ) : nearest (-q) = -nearest q := by
  unfold nearest
  rw [abs_neg]
  split
  · rfl
  · rcases lt_trichotomy q 0 with hq | rfl | hq
    · rw [if_pos (by linarith), if_neg (by linarith), neg_neg]
    · simp [magnitude_zero]
    · rw [if_neg (by linarith), if_pos (le_of_lt hq)]

theorem nearest_nonneg {q : ℚ} (h : 0 ≤ q) : 0 ≤ nearest q := by
  rw [nearest_of_nonneg h]
  split
  · exact h
  · exact magnitude_nonneg q

/-- Where a magnitude overflows and a smaller one does not, the smaller one is below the number
that overflows. -/
theorem magnitude_le_of_overflow {p q : ℚ} (hp : 0 < p) (hsmall : magnitude p < 2 ^ 1024)
    (hlarge : 2 ^ 1024 ≤ magnitude q) (hq : 0 < q) : magnitude p ≤ q := by
  by_contra hlt
  have hle := magnitude_mono hq (le_of_lt (not_le.1 hlt))
  rw [magnitude_magnitude hp] at hle
  exact absurd hsmall (not_lt.2 (le_trans hlarge hle))

theorem nearest_mono_of_pos {p q : ℚ} (hp : 0 < p) (h : p ≤ q) : nearest p ≤ nearest q := by
  have hq := lt_of_lt_of_le hp h
  have hmag := magnitude_mono hp h
  rw [nearest_of_nonneg (le_of_lt hp), nearest_of_nonneg (le_of_lt hq)]
  by_cases hlp : 2 ^ 1024 ≤ magnitude p
  · rw [if_pos hlp, if_pos (le_trans hlp hmag)]
    exact h
  · rw [if_neg hlp]
    split
    · rename_i hlq
      exact magnitude_le_of_overflow hp (not_le.1 hlp) hlq hq
    · exact hmag

theorem nearest_mono : Monotone nearest := by
  have hnonneg : ∀ {p q : ℚ}, 0 ≤ p → p ≤ q → nearest p ≤ nearest q := by
    intro p q hp h
    rcases eq_or_lt_of_le hp with rfl | hpos
    · refine le_of_eq_of_le ?_ (nearest_nonneg h)
      rw [nearest_of_nonneg le_rfl, magnitude_zero, ite_self]
    · exact nearest_mono_of_pos hpos h
  intro p q h
  by_cases hp : 0 ≤ p
  · exact hnonneg hp h
  · have hp' : 0 ≤ -p := by linarith
    by_cases hq : 0 ≤ q
    · have h1 := nearest_nonneg hp'
      have h2 := nearest_nonneg hq
      rw [nearest_neg] at h1
      linarith
    · have hle := hnonneg (show 0 ≤ -q by linarith) (neg_le_neg h)
      rw [nearest_neg, nearest_neg] at hle
      linarith

/-- A double is its own nearest double. -/
theorem nearest_nearest (q : ℚ) : nearest (nearest q) = nearest q := by
  have hnonneg : ∀ {q : ℚ}, 0 ≤ q → nearest (nearest q) = nearest q := by
    intro q h
    rw [nearest_of_nonneg h]
    split
    · rename_i hlarge
      rw [nearest_of_nonneg h, if_pos hlarge]
    · rename_i hsmall
      rcases eq_or_lt_of_le h with rfl | hpos
      · rw [magnitude_zero, nearest_of_nonneg le_rfl, magnitude_zero, ite_self]
      · rw [nearest_of_nonneg (magnitude_nonneg q), magnitude_magnitude hpos, if_neg hsmall]
  by_cases h : 0 ≤ q
  · exact hnonneg h
  · have hneg := hnonneg (show 0 ≤ -q by linarith)
    rw [nearest_neg, nearest_neg] at hneg
    exact neg_inj.1 hneg

/-- A dyadic number with few bits is a double. -/
theorem nearest_dyadic {k n : Nat} (hk : k < 2 ^ 53) (hn : n ≤ 1074) :
    nearest (k / 2 ^ n) = (k / 2 ^ n : ℚ) := by
  have hform : (k : ℚ) / 2 ^ n = k * 2 ^ (-(n : Int)) := by
    rw [zpow_neg, zpow_natCast, div_eq_mul_inv]
  have hmag : magnitude ((k : ℚ) / 2 ^ n) = k / 2 ^ n := by
    rcases Nat.eq_zero_or_pos k with rfl | h0
    · simp [magnitude_zero]
    · rw [hform]
      exact magnitude_of_bits h0 hk (by omega)
  rw [nearest_of_nonneg (by positivity), hmag, ite_self]

/-- A number and its complement to 1 add up to at most 1. -/
theorem nearest_compl {x : ℚ} (h0 : 0 ≤ x) (h1 : x ≤ 1) : nearest (x + nearest (1 - x)) ≤ 1 := by
  have hcompl : nearest (1 - x) ≤ 1 - x + 2 ^ (-54 : Int) := by
    rw [nearest_of_nonneg (by linarith)]
    split
    · exact le_add_of_nonneg_right (by positivity)
    · exact magnitude_le_of_le_one (by linarith) (by linarith)
  -- a quarter of a unit above 1 is rounded to 1
  have hnear : nearest (1 + 2 ^ (-54 : Int)) = 1 := by decide +kernel
  refine le_of_le_of_eq (nearest_mono ?_) hnear
  linarith

end PyFloat
