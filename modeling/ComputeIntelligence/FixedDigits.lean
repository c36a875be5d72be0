import Mathlib.Data.Nat.Basic
import Mathlib.Tactic.IntervalCases
import Mathlib.Tactic.Ring

/-! # Numbers written with a fixed number of decimal digits

Texts that are made of fields of fixed width compare, character by character, as the
fields compare from left to right: an earlier field decides (`append_lt_of_lt`), and
equal fields leave the decision to what follows.  A field of digits compares as its
number does (`digits_lt`), and can be read back (`read_digits`).
-/
namespace FixedDigits

/-! ### Fields -/

/-- A field that is smaller decides, whatever follows. -/
theorem append_lt_of_lt {α : Type} [LT α] {a a' : List α} (b b' : List α)
    (hlen : a.length = a'.length) (h : a < a') : a ++ b < a' ++ b' := by
  induction a generalizing a' with
  | nil =>
    rw [List.length_eq_zero_iff.mp hlen.symm] at h
    exact absurd h (List.not_lt_nil _)
  | cons c cs ih =>
    cases a' with
    | nil => cases hlen
    | cons c' cs' =>
      rw [List.cons_append, List.cons_append, List.cons_lt_cons_iff]
      rcases List.cons_lt_cons_iff.mp h with hc | ⟨hc, hrest⟩
      · exact .inl hc
      · exact .inr ⟨hc, ih (Nat.succ.inj hlen) hrest⟩

/-! ### Digits -/

/-- The last `w` decimal digits, the highest one first. -/
def digits : Nat → Nat → List Char
  | 0, _ => []
  | w + 1, x => Nat.digitChar (x / 10 ^ w % 10) :: digits w (x % 10 ^ w)

theorem length_digits (w x : Nat) : (digits w x).length = w := by
  induction w generalizing x with
  | zero => rfl
  | succ w ih => rw [digits, List.length_cons, ih]

theorem digitChar_lt {a b : Nat} (hb : b < 10) (h : a < b) : Nat.digitChar a < Nat.digitChar b := by
  interval_cases b <;> interval_cases a <;> decide

/-- Digits compare as the numbers do. -/
theorem digits_lt {w x y : Nat} (hy : y < 10 ^ w) (h : x < y) : digits w x < digits w y := by
  induction w generalizing x y with
  | zero => omega
  | succ w ih =>
    have hpos : 0 < 10 ^ w := Nat.pow_pos (by decide)
    have hdiv : y / 10 ^ w < 10 := (Nat.div_lt_iff_lt_mul hpos).mpr (by rwa [pow_succ'] at hy)
    have hle : x / 10 ^ w ≤ y / 10 ^ w := Nat.div_le_div_right h.le
    rw [digits, digits, List.cons_lt_cons_iff, Nat.mod_eq_of_lt hdiv,
      Nat.mod_eq_of_lt (lt_of_le_of_lt hle hdiv)]
    rcases Nat.lt_or_eq_of_le hle with hlt | heq
    · exact .inl (digitChar_lt hdiv hlt)
    · refine .inr ⟨by rw [heq], ih (Nat.mod_lt _ hpos) ?_⟩
      have hx := Nat.div_add_mod x (10 ^ w)
      have hy := Nat.div_add_mod y (10 ^ w)
      rw [heq] at hx
      omega

/-- Read `w` digits. -/
def read : Nat → Nat → List Char → Option (Nat × List Char)
  | 0, acc, cs => some (acc, cs)
  | w + 1, acc, c :: cs => if c.isDigit then read w (acc * 10 + (c.toNat - 48)) cs else none
  | _ + 1, _, [] => none

theorem digitChar_value {d : Nat} (h : d < 10) :
    (Nat.digitChar d).isDigit = true ∧ (Nat.digitChar d).toNat - 48 = d := by
  interval_cases d <;> decide

/-- **Digits are read back.** -/
theorem read_digits {w x : Nat} (hx : x < 10 ^ w) (acc : Nat) (rest : List Char) :
    read w acc (digits w x ++ rest) = some (acc * 10 ^ w + x, rest) := by
  induction w generalizing x acc with
  | zero =>
    rw [pow_zero, Nat.lt_one_iff] at hx
    subst hx
    rw [digits, read, pow_zero, Nat.mul_one]
    rfl
  | succ w ih =>
    have hpos : 0 < 10 ^ w := Nat.pow_pos (by decide)
    have hdiv : x / 10 ^ w < 10 := (Nat.div_lt_iff_lt_mul hpos).mpr (by rwa [pow_succ'] at hx)
    obtain ⟨hdigit, hvalue⟩ := digitChar_value hdiv
    rw [digits, List.cons_append, read, Nat.mod_eq_of_lt hdiv, if_pos hdigit, hvalue,
      ih (Nat.mod_lt _ hpos)]
    have hsplit := Nat.div_add_mod x (10 ^ w)
    have hvalue : (acc * 10 + x / 10 ^ w) * 10 ^ w + x % 10 ^ w = acc * 10 ^ (w + 1) + x := by
      calc (acc * 10 + x / 10 ^ w) * 10 ^ w + x % 10 ^ w
          = acc * 10 ^ (w + 1) + (10 ^ w * (x / 10 ^ w) + x % 10 ^ w) := by ring
        _ = acc * 10 ^ (w + 1) + x := by rw [hsplit]
    rw [hvalue]

/-- The lowest digit last. -/
theorem digits_concat {w x : Nat} (hx : x < 10 ^ (w + 1)) :
    digits (w + 1) x = digits w (x / 10) ++ [Nat.digitChar (x % 10)] := by
  induction w generalizing x with
  | zero =>
    rw [digits, digits, digits, pow_zero, Nat.div_one]
    rfl
  | succ w ih =>
    have hpos : 0 < 10 ^ (w + 1) := Nat.pow_pos (by decide)
    rw [digits, ih (Nat.mod_lt _ hpos), digits, List.cons_append]
    have hhead : x / 10 / 10 ^ w = x / 10 ^ (w + 1) := by
      rw [Nat.div_div_eq_div_mul, pow_succ']
    have htail : x / 10 % 10 ^ w = x % 10 ^ (w + 1) / 10 := by
      rw [pow_succ', Nat.mod_mul_right_div_self]
    have hlast : x % 10 ^ (w + 1) % 10 = x % 10 :=
      Nat.mod_mod_of_dvd x (Dvd.intro_left _ (pow_succ 10 w).symm)
    rw [hhead, htail, hlast]

theorem digits_zero (w : Nat) : digits w 0 = List.replicate w '0' := by
  induction w with
  | zero => rfl
  | succ w ih =>
    rw [digits, Nat.zero_div, Nat.zero_mod, Nat.zero_mod, ih]
    rfl

/-- Padding the usual digits with zeros. -/
theorem replicate_toDigits {w x : Nat} (hx : x < 10 ^ (w + 1)) :
    List.replicate (w + 1 - (Nat.toDigits 10 x).length) '0' ++ Nat.toDigits 10 x =
      digits (w + 1) x := by
  induction w generalizing x with
  | zero =>
    rw [pow_one] at hx
    rw [Nat.toDigits_of_lt_base hx, digits_concat (by rwa [pow_one]), Nat.mod_eq_of_lt hx]
    rfl
  | succ w ih =>
    rw [digits_concat hx]
    by_cases hsmall : x < 10
    · rw [Nat.toDigits_of_lt_base hsmall, Nat.mod_eq_of_lt hsmall, Nat.div_eq_of_lt hsmall,
        digits_zero]
      rfl
    · have hdiv : x / 10 < 10 ^ (w + 1) := by
        rw [Nat.div_lt_iff_lt_mul (by decide), ← pow_succ]
        exact hx
      rw [Nat.toDigits_of_base_le (by decide) (not_lt.mp hsmall), ← ih hdiv, List.length_append,
        List.append_assoc, List.length_singleton, Nat.add_sub_add_right]

end FixedDigits
