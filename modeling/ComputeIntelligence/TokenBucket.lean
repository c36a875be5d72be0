import Mathlib.Algebra.Order.Field.Basic
import Mathlib.Tactic.Linarith

/-! # Token buckets

A bucket holds tokens and the time at which it was last looked at.  A draw at a time
`now` first refills it, at a rate and up to a capacity, for the time that has passed
since then, none if the clock went back, and then takes what is requested if there is
enough.

Whatever the clocks read, a draw takes at most what the refill added
(`draw_add_tokens`), and the refills of a sequence of readings add up to the rate times
its `climb`, the sum of its rises.  A sequence that never falls climbs once from its
least to its greatest reading (`climb_le_of_pairwise`); one that keeps falling climbs
again and again.
-/
namespace TokenBucket
variable {K : Type} [Field K] [LinearOrder K]

/-- A bucket. -/
structure Bucket (K : Type) where
  tokens : K
  updatedAt : K

/-- The tokens of a bucket at a time, before a draw. -/
def refill (capacity rate now : K) (b : Bucket K) : K :=
  min capacity (b.tokens + max 0 (now - b.updatedAt) * rate)

/-- Take what is requested if there is enough. -/
def draw (capacity rate now requested : K) (b : Bucket K) : Bool × Bucket K :=
  let tokens := refill capacity rate now b
  if requested ≤ tokens then (true, ⟨tokens - requested, now⟩) else (false, ⟨tokens, now⟩)

/-- The sum of the rises of a sequence of readings, newest first. -/
def climb : List K → K
  | b :: a :: l => max 0 (b - a) + climb (a :: l)
  | _ => 0

@[simp] theorem climb_nil : climb ([] : List K) = 0 := rfl

@[simp] theorem climb_singleton (a : K) : climb [a] = 0 := rfl

theorem climb_cons_cons (b a : K) (l : List K) :
    climb (b :: a :: l) = max 0 (b - a) + climb (a :: l) := rfl

variable (capacity rate now requested : K) (b : Bucket K)

theorem refill_le_capacity : refill capacity rate now b ≤ capacity := min_le_left _ _

theorem refill_le : refill capacity rate now b ≤ b.tokens + rate * max 0 (now - b.updatedAt) := by
  rw [mul_comm]
  exact min_le_right _ _

/-- What a draw takes and what it leaves are what the bucket held. -/
theorem draw_add_tokens : (if (draw capacity rate now requested b).1 then requested else 0) +
    (draw capacity rate now requested b).2.tokens = refill capacity rate now b := by
  unfold draw
  dsimp only
  split
  · exact add_sub_cancel requested _
  · exact zero_add _

variable [IsStrictOrderedRing K]

theorem refill_nonneg {capacity rate : K} {b : Bucket K} (hc : 0 ≤ capacity) (hr : 0 ≤ rate) (hb : 0 ≤ b.tokens) :
    0 ≤ refill capacity rate now b :=
  le_min hc (add_nonneg hb (mul_nonneg (le_max_left _ _) hr))

theorem draw_tokens_nonneg {capacity rate : K} {b : Bucket K} (hc : 0 ≤ capacity) (hr : 0 ≤ rate) (hb : 0 ≤ b.tokens) :
    0 ≤ (draw capacity rate now requested b).2.tokens := by
  unfold draw
  dsimp only
  split
  · exact sub_nonneg.2 (by assumption)
  · exact refill_nonneg now hc hr hb

/-- Readings that never fall climb at most once through their range. -/
theorem climb_le_of_pairwise {l : List K} {lo hi : K} (hne : l ≠ [])
    (hl : l.Pairwise (· ≥ ·)) (hlo : ∀ r ∈ l, lo ≤ r) (hhi : ∀ r ∈ l, r ≤ hi) :
    climb l ≤ hi - lo := by
  induction l generalizing hi with
  | nil => exact absurd rfl hne
  | cons b l ih =>
    have hb : lo ≤ b := hlo b List.mem_cons_self
    have hb' : b ≤ hi := hhi b List.mem_cons_self
    cases l with
    | nil =>
      rw [climb_singleton]
      exact sub_nonneg.2 (hb.trans hb')
    | cons a l =>
      obtain ⟨hbrest, hrest⟩ := List.pairwise_cons.1 hl
      have hab : a ≤ b := hbrest a List.mem_cons_self
      have hle : ∀ r ∈ a :: l, r ≤ a := by
        intro r hr
        rcases List.mem_cons.1 hr with rfl | hr
        · exact le_rfl
        · exact (List.pairwise_cons.1 hrest).1 r hr
      have hclimb := ih (List.cons_ne_nil _ _) hrest
        (fun r hr => hlo r (List.mem_cons_of_mem _ hr)) hle
      -- the climb from `a` to `b`, and below `a` the rest
      rw [climb_cons_cons, max_eq_right (sub_nonneg.2 hab)]
      linarith

end TokenBucket
