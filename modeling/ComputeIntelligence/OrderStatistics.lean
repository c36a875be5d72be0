import Mathlib.Data.List.Forall2
import Mathlib.Data.List.Sort

/-! # Order statistics

Sorting keeps an order between lists: if every element of one list is at most the element of
another at the same place, so it is after both are sorted (`forall₂_insertionSort`).  So every
order statistic, and whatever is a monotone function of them, is monotone in the list.
-/
namespace OrderStatistics
variable {α : Type} [LinearOrder α] {a b : α} {xs ys : List α}

theorem forall₂_orderedInsert (hx : xs.Pairwise (· ≤ ·)) (hy : ys.Pairwise (· ≤ ·))
    (h : List.Forall₂ (· ≤ ·) xs ys) (hab : a ≤ b) :
    List.Forall₂ (· ≤ ·) (xs.orderedInsert (· ≤ ·) a) (ys.orderedInsert (· ≤ ·) b) := by
  induction h generalizing a b with
  | nil => exact .cons hab .nil
  | @cons x y xs ys hxy hrest ih =>
    obtain ⟨hxhead, hxtail⟩ := List.pairwise_cons.1 hx
    obtain ⟨hyhead, hytail⟩ := List.pairwise_cons.1 hy
    -- a sorted list is its head inserted into its tail
    have hxs : xs.orderedInsert (· ≤ ·) x = x :: xs := by
      cases xs with
      | nil => rfl
      | cons x' xs => exact List.orderedInsert_cons_of_le _ xs (hxhead x' List.mem_cons_self)
    have hys : ys.orderedInsert (· ≤ ·) y = y :: ys := by
      cases ys with
      | nil => rfl
      | cons y' ys => exact List.orderedInsert_cons_of_le _ ys (hyhead y' List.mem_cons_self)
    rw [List.orderedInsert_cons, List.orderedInsert_cons]
    by_cases hax : a ≤ x
    · rw [if_pos hax]
      by_cases hby : b ≤ y
      · rw [if_pos hby]
        exact .cons hab (.cons hxy hrest)
      · rw [if_neg hby]
        refine .cons (le_trans hax hxy) ?_
        rw [← hxs]
        exact ih hxtail hytail (le_trans hxy (le_of_not_ge hby))
    · rw [if_neg hax]
      by_cases hby : b ≤ y
      · rw [if_pos hby]
        refine .cons (le_trans (le_of_not_ge hax) hab) ?_
        rw [← hys]
        exact ih hxtail hytail (le_trans hab hby)
      · rw [if_neg hby]
        exact .cons hxy (ih hxtail hytail hab)

/-- Sorted lists are ordered as the lists are. -/
theorem forall₂_insertionSort (h : List.Forall₂ (· ≤ ·) xs ys) :
    List.Forall₂ (· ≤ ·) (xs.insertionSort (· ≤ ·)) (ys.insertionSort (· ≤ ·)) := by
  induction h with
  | nil => exact .nil
  | cons hxy _ ih =>
    exact forall₂_orderedInsert (List.pairwise_insertionSort _ _) (List.pairwise_insertionSort _ _)
      ih hxy

/-- The order statistics of a list, with a default behind its end. -/
theorem getD_insertionSort_le (h : List.Forall₂ (· ≤ ·) xs ys) (n : Nat) (d : α) :
    (xs.insertionSort (· ≤ ·)).getD n d ≤ (ys.insertionSort (· ≤ ·)).getD n d := by
  have hsorted := forall₂_insertionSort h
  generalize xs.insertionSort (· ≤ ·) = s at hsorted ⊢
  generalize ys.insertionSort (· ≤ ·) = t at hsorted ⊢
  induction hsorted generalizing n with
  | nil => exact le_rfl
  | cons hst _ ih =>
    cases n with
    | zero => exact hst
    | succ n => exact ih n

end OrderStatistics
