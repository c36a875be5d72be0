import Mathlib.Data.List.DropRight

/-! # The last items of a history

A queue with a capacity that drops its oldest item on overflow holds the last items of
everything ever appended to it (`List.rtake`).  The rules say how a window moves when
the history grows by one item, and how the windows of two capacities lie inside each
other.
-/
namespace Window
variable {α β : Type}

theorem rtake_suffix (xs : List α) (n : Nat) : xs.rtake n <:+ xs :=
  List.drop_suffix _ _

theorem length_rtake (xs : List α) (n : Nat) : (xs.rtake n).length = min n xs.length := by
  rw [List.rtake, List.length_drop]
  omega

/-- The whole history, while it fits. -/
theorem rtake_of_length_le {xs : List α} {n : Nat} (h : xs.length ≤ n) : xs.rtake n = xs := by
  rw [List.rtake, Nat.sub_eq_zero_of_le h, List.drop_zero]

theorem map_rtake (f : α → β) (xs : List α) (n : Nat) :
    (xs.rtake n).map f = (xs.map f).rtake n := by
  rw [List.rtake, List.rtake, List.map_drop, List.length_map]

/-- The window of a smaller capacity is the end of that of a larger one. -/
theorem rtake_suffix_rtake (xs : List α) {m n : Nat} (h : m ≤ n) : xs.rtake m <:+ xs.rtake n := by
  unfold List.rtake
  rw [show xs.length - m = xs.length - n + (xs.length - m - (xs.length - n)) by omega,
    ← List.drop_drop]
  exact List.drop_suffix _ _

/-- The last items of the last items. -/
theorem rtake_rtake (xs : List α) (m n : Nat) : (xs.rtake n).rtake m = xs.rtake (min m n) := by
  rw [List.rtake, List.rtake, List.rtake, List.drop_drop, List.length_drop]
  congr 1
  omega

/-- Appending to the window and appending to the history leave the same window. -/
theorem rtake_concat_rtake (xs : List α) (n : Nat) (a : α) :
    (xs.rtake n ++ [a]).rtake n = (xs ++ [a]).rtake n := by
  cases n with
  | zero => simp
  | succ n =>
    rw [List.rtake_concat_succ, List.rtake_concat_succ]
    congr 1
    rw [List.rtake, List.rtake, List.rtake, List.drop_drop, List.length_drop]
    congr 1
    omega

/-- The same for any number of items. -/
theorem rtake_append_rtake (xs ys : List α) (n : Nat) :
    (xs.rtake n ++ ys).rtake n = (xs ++ ys).rtake n := by
  induction ys using List.reverseRecOn with
  | nil =>
    rw [List.append_nil, List.append_nil]
    exact rtake_of_length_le (by rw [length_rtake]; omega)
  | append_singleton ys a ih =>
    rw [← List.append_assoc, ← List.append_assoc, ← rtake_concat_rtake, ih, rtake_concat_rtake]

/-- A full window loses its oldest item, a window with room loses none. -/
theorem rtake_concat_eq {xs : List α} {n : Nat} (h : xs.length ≤ n) (a : α) :
    (xs ++ [a]).rtake n = if n < (xs ++ [a]).length then (xs ++ [a]).tail else xs ++ [a] := by
  have hlen : (xs ++ [a]).length = xs.length + 1 := by simp
  split
  · rw [List.rtake, ← List.drop_one]
    congr 1
    omega
  · exact rtake_of_length_le (by omega)

end Window
