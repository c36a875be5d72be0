import ComputeIntelligence.HreMethods
import ComputeIntelligence.Rounding

/-! # Rounded arithmetics

A `RoundedArith` is an arithmetic of scores whose every operation is the exact one followed
by one monotone rounding.  Of the rounding little is asked: it keeps its own results and the
dyadic numbers with few bits, it is odd, and a number plus its rounded complement does not
exceed 1.  Exact arithmetic is one instance, the IEEE doubles are another, and what is proved
of bounds here holds of both.
-/
namespace ComputeIntelligence
open PyFloat

/-- Exact arithmetic. -/
instance : ScoreArith ℚ where
  lit q := q
  round := decimalRound

@[simp] theorem lit_exact (q : ℚ) : (ScoreArith.lit q : ℚ) = q := rfl

/-- An arithmetic of scores with one monotone rounding. -/
class RoundedArith (F : Type) extends ScoreArith F where
  val : F → ℚ
  rnd : ℚ → ℚ
  val_le_val : ∀ {a b : F}, val a ≤ val b ↔ a ≤ b
  rnd_mono : Monotone rnd
  rnd_val : ∀ a : F, rnd (val a) = val a
  rnd_neg : ∀ q, rnd (-q) = -rnd q
  rnd_dyadic : ∀ {k n : Nat}, k < 2 ^ 53 → n ≤ 1074 → rnd (k / 2 ^ n) = (k / 2 ^ n : ℚ)
  rnd_compl : ∀ {x : ℚ}, 0 ≤ x → x ≤ 1 → rnd (x + rnd (1 - x)) ≤ 1
  val_add : ∀ a b : F, val (a + b) = rnd (val a + val b)
  val_sub : ∀ a b : F, val (a - b) = rnd (val a - val b)
  val_mul : ∀ a b : F, val (a * b) = rnd (val a * val b)
  val_div : ∀ a b : F, val (a / b) = rnd (val a / val b)
  val_lit : ∀ q, val (lit q) = rnd q
  val_round : ∀ n a, val (round n a) = rnd (decimalRound n (val a))

instance : RoundedArith ℚ where
  val q := q
  rnd q := q
  val_le_val := Iff.rfl
  rnd_mono := monotone_id
  rnd_val _ := rfl
  rnd_neg _ := rfl
  rnd_dyadic _ _ := rfl
  rnd_compl {x} _ _ := by linarith
  val_add _ _ := rfl
  val_sub _ _ := rfl
  val_mul _ _ := rfl
  val_div _ _ := rfl
  val_lit _ := rfl
  val_round _ _ := rfl

/-! ### Doubles -/

/-- An IEEE double. -/
structure Binary64 where
  value : ℚ
  exact : nearest value = value

namespace Binary64

/-- The double nearest to a rational. -/
def ofRat (q : ℚ) : Binary64 := ⟨nearest q, nearest_nearest q⟩

instance : DecidableEq Binary64 := fun a b =>
  decidable_of_iff (a.value = b.value) ⟨fun h => by cases a; cases b; cases h; rfl, fun h => h ▸ rfl⟩

instance : LinearOrder Binary64 :=
  LinearOrder.lift' Binary64.value fun a b h => by cases a; cases b; cases h; rfl

instance : ScoreArith Binary64 where
  add a b := ofRat (a.value + b.value)
  sub a b := ofRat (a.value - b.value)
  mul a b := ofRat (a.value * b.value)
  div a b := ofRat (a.value / b.value)
  lit := ofRat
  round n a := ofRat (decimalRound n a.value)

instance : RoundedArith Binary64 where
  val := value
  rnd := nearest
  val_le_val := Iff.rfl
  rnd_mono := nearest_mono
  rnd_val := exact
  rnd_neg := nearest_neg
  rnd_dyadic := nearest_dyadic
  rnd_compl := nearest_compl
  val_add _ _ := rfl
  val_sub _ _ := rfl
  val_mul _ _ := rfl
  val_div _ _ := rfl
  val_lit _ := rfl
  val_round _ _ := rfl

/-- The nearest double is that of `Double`. -/
theorem ofRat_value (q : ℚ) : (ofRat q).value = (Double.nearest q).value := by
  have hmag : (roundHalfEven (|q| / twoPow (ulpExp |q|)) : ℚ) * twoPow (ulpExp |q|) =
      magnitude |q| := by rw [twoPow_eq, magnitude]
  have hbound : twoPow 1024 = (2 : ℚ) ^ 1024 := (twoPow_eq 1024).trans (zpow_ofNat 2 1024)
  show nearest q = _
  unfold Double.nearest PyFloat.ofRat
  by_cases h0 : q = 0
  · rw [if_pos h0, h0, nearest_of_nonneg le_rfl, magnitude_zero, ite_self]
  · rw [if_neg h0]
    dsimp only
    rw [hmag, hbound]
    unfold nearest
    by_cases hlarge : (2 : ℚ) ^ 1024 ≤ magnitude |q|
    · rw [if_pos hlarge, if_pos hlarge]
      by_cases hpos : 0 < q
      · rw [if_pos hpos]
      · rw [if_neg hpos]
    · rw [if_neg hlarge, if_neg hlarge]
      by_cases hpos : 0 < q
      · rw [if_pos (le_of_lt hpos), if_pos hpos]
      · rw [if_neg (fun h => hpos (lt_of_le_of_ne h (Ne.symm h0))), if_neg hpos]

end Binary64

/-! ### Rules -/

namespace RoundedArith
variable {F : Type} [RoundedArith F] {a b c : F}

theorem val_lt_val : val a < val b ↔ a < b := by
  rw [← not_le, ← not_le, val_le_val]

theorem val_inj : val a = val b ↔ a = b := by
  rw [le_antisymm_iff, le_antisymm_iff, val_le_val, val_le_val]

theorem val_max (a b : F) : val (max a b) = max (val a) (val b) := by
  rcases le_total a b with h | h
  · rw [max_eq_right h, max_eq_right (val_le_val.2 h)]
  · rw [max_eq_left h, max_eq_left (val_le_val.2 h)]

theorem val_min (a b : F) : val (min a b) = min (val a) (val b) := by
  rcases le_total a b with h | h
  · rw [min_eq_left h, min_eq_left (val_le_val.2 h)]
  · rw [min_eq_right h, min_eq_right (val_le_val.2 h)]

variable (F) in
theorem rnd_zero : rnd F 0 = 0 := by
  have h := rnd_dyadic (F := F) (k := 0) (n := 0) (by norm_num) (by norm_num)
  simpa using h

variable (F) in
theorem rnd_one : rnd F 1 = 1 := by
  have h := rnd_dyadic (F := F) (k := 1) (n := 0) (by norm_num) (by norm_num)
  simpa using h

@[simp] theorem val_zero : val (ScoreArith.lit 0 : F) = 0 := by rw [val_lit, rnd_zero]

@[simp] theorem val_one : val (ScoreArith.lit 1 : F) = 1 := by rw [val_lit, rnd_one]

theorem rnd_nonneg {q : ℚ} (h : 0 ≤ q) : 0 ≤ rnd F q :=
  le_of_eq_of_le (rnd_zero F).symm (rnd_mono h)

theorem rnd_le_one {q : ℚ} (h : q ≤ 1) : rnd F q ≤ 1 :=
  le_of_le_of_eq (rnd_mono h) (rnd_one F)

/-- Rounding keeps a number on its side of a number of the arithmetic. -/
theorem rnd_le_val {q : ℚ} (h : q ≤ val a) : rnd F q ≤ val a :=
  le_of_le_of_eq (rnd_mono h) (rnd_val a)

theorem val_le_rnd {q : ℚ} (h : val a ≤ q) : val a ≤ rnd F q :=
  le_of_eq_of_le (rnd_val a).symm (rnd_mono h)

end RoundedArith

end ComputeIntelligence
