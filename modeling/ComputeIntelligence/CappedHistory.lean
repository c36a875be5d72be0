import ComputeIntelligence.BoundedWindow
import Mathlib.Logic.Function.Basic

/-! # A capped history, and readers that take no lock

A history that keeps the last items of all that was appended to it, as a list that is grown in
place and, when it exceeds the capacity, replaced by a new list of its last items.  The writers
exclude one another, so a history is settled or has one append that is not cut yet.  A reader may
come at any time: it gets hold of the list that the history is just then, and measures it later,
when that list may have grown or been replaced.

`Kept.length_lists` says what such a reader measures: as many items as had been appended, up to the
capacity, or one more than the capacity, where the list it measures is overfull.
-/

/-- A history: the lists it has been, in order, and which of them it is; whether an append has not
been cut yet; and all that was ever appended, which no reader sees. -/
structure CappedHistory (α : Type) where
  lists : Nat → List α := fun _ => []
  current : Nat := 0
  pending : Bool := false
  recorded : List α := []

namespace CappedHistory
variable {α : Type} {cap : Nat} {h : CappedHistory α}

/-- The list that the history is. -/
def items (h : CappedHistory α) : List α := h.lists h.current

/-- Grow the list in place. -/
def append (h : CappedHistory α) (a : α) : CappedHistory α :=
  { h with
    lists := Function.update h.lists h.current (h.items ++ [a])
    pending := true
    recorded := h.recorded ++ [a] }

/-- Put a new list of the last items in the place of a list that exceeds the capacity. -/
def cut (cap : Nat) (h : CappedHistory α) : CappedHistory α :=
  if cap < h.items.length then
    { h with
      lists := Function.update h.lists (h.current + 1) (h.items.rtake cap)
      current := h.current + 1
      pending := false }
  else { h with pending := false }

/-! ### What is kept -/

/-- A settled history is the last items ever appended; a pending one is that and the item that
came last; and every list that was replaced is overfull by one. -/
structure Kept (cap : Nat) (h : CappedHistory α) : Prop where
  settled : h.pending = false → h.items = h.recorded.rtake cap
  pending : h.pending = true →
    ∃ before a, h.recorded = before ++ [a] ∧ h.items = before.rtake cap ++ [a]
  replaced : ∀ r < h.current, (h.lists r).length = cap + 1

theorem kept_empty : Kept cap ({} : CappedHistory α) where
  settled _ := (List.drop_nil).symm
  pending hp := by cases hp
  replaced _ hr := absurd hr (Nat.not_lt_zero _)

@[simp] theorem recorded_append (a : α) : (h.append a).recorded = h.recorded ++ [a] := rfl

theorem items_append (a : α) : (h.append a).items = h.items ++ [a] :=
  Function.update_self ..

@[simp] theorem recorded_cut : (h.cut cap).recorded = h.recorded := by
  rw [cut]
  split <;> rfl

@[simp] theorem pending_cut : (h.cut cap).pending = false := by
  rw [cut]
  split <;> rfl

theorem current_le_cut : h.current ≤ (h.cut cap).current := by
  rw [cut]
  split
  · exact Nat.le_succ _
  · exact le_rfl

/-- A cut leaves the last items, of however many there are. -/
theorem items_cut : (h.cut cap).items = h.items.rtake cap := by
  rw [cut]
  split
  · exact Function.update_self ..
  · rename_i hfits
    exact (Window.rtake_of_length_le (not_lt.1 hfits)).symm

theorem Kept.append (hk : Kept cap h) (hp : h.pending = false) (a : α) : Kept cap (h.append a) where
  settled hf := by cases hf
  pending _ := ⟨h.recorded, a, rfl, by rw [items_append, hk.settled hp]⟩
  replaced r hr := by
    have hne : r ≠ h.current := Nat.ne_of_lt hr
    show (Function.update h.lists h.current _ r).length = cap + 1
    rw [Function.update_of_ne hne]
    exact hk.replaced r hr

/-- A pending history is overfull by one item at most. -/
theorem Kept.length_le (hk : Kept cap h) (hp : h.pending = true) : h.items.length ≤ cap + 1 := by
  obtain ⟨before, a, -, hitems⟩ := hk.pending hp
  rw [hitems, List.length_append, Window.length_rtake, List.length_singleton]
  omega

theorem Kept.cut (hk : Kept cap h) (hp : h.pending = true) : Kept cap (h.cut cap) where
  settled _ := by
    obtain ⟨before, a, hrecorded, hitems⟩ := hk.pending hp
    rw [items_cut, recorded_cut, hitems, hrecorded, Window.rtake_concat_rtake]
  pending hf := by
    rw [pending_cut] at hf
    cases hf
  replaced r hr := by
    have hle := hk.length_le hp
    rw [CappedHistory.cut] at hr ⊢
    split at hr
    · rename_i hover
      rw [if_pos hover]
      have hne : r ≠ h.current + 1 := Nat.ne_of_lt hr
      show (Function.update h.lists (h.current + 1) _ r).length = cap + 1
      rw [Function.update_of_ne hne]
      -- the list that was just replaced, or one that was replaced before
      rcases Nat.lt_succ_iff_lt_or_eq.1 hr with hold | rfl
      · exact hk.replaced r hold
      · exact le_antisymm hle hover
    · rename_i hfits
      rw [if_neg hfits]
      exact hk.replaced r hr

/-! ### What a reader measures -/

/-- The length of a list of the history, from how much was appended when it was measured and
whether it is overfull. -/
def measure (cap recorded : Nat) (overfull : Bool) : Nat :=
  if overfull then cap + 1 else min recorded cap

/-- **What a reader measures**, of a list that it got hold of at any time before. -/
theorem Kept.length_lists (hk : Kept cap h) {r : Nat} (hr : r ≤ h.current) :
    (h.lists r).length = measure cap h.recorded.length (decide (cap < (h.lists r).length)) := by
  rcases Nat.lt_or_eq_of_le hr with hold | rfl
  · rw [hk.replaced r hold, decide_eq_true (Nat.lt_succ_self cap)]
    rfl
  · show h.items.length = measure cap h.recorded.length (decide (cap < h.items.length))
    cases hp : h.pending with
    | false =>
      have hlength : h.items.length = min cap h.recorded.length := by
        rw [hk.settled hp, Window.length_rtake]
      rw [decide_eq_false (by omega), hlength, min_comm]
      rfl
    | true =>
      obtain ⟨before, a, hrecorded, hitems⟩ := hk.pending hp
      have hlength : h.items.length = min cap before.length + 1 := by
        rw [hitems, List.length_append, Window.length_rtake, List.length_singleton]
      have hcount : h.recorded.length = before.length + 1 := by
        rw [hrecorded, List.length_append, List.length_singleton]
      by_cases hover : cap < h.items.length
      · rw [decide_eq_true hover]
        show h.items.length = cap + 1
        omega
      · rw [decide_eq_false hover]
        show h.items.length = min h.recorded.length cap
        omega

/-- Two readers measure different lengths when one list is overfull and the other is not, or when
the history was still growing towards its capacity between them. -/
theorem measure_ne_iff {m n : Nat} {o p : Bool} :
    measure cap m o ≠ measure cap n p ↔
      o ≠ p ∨ (o = false ∧ p = false ∧ m ≠ n ∧ min m n < cap) := by
  have hover : ∀ k, measure cap k true = cap + 1 := fun _ => rfl
  have hfits : ∀ k, measure cap k false = min k cap := fun _ => rfl
  cases o with
  | false =>
    cases p with
    | false =>
      rw [hfits, hfits]
      constructor
      · intro hne
        exact .inr ⟨rfl, rfl, by omega, by omega⟩
      · rintro (h | ⟨-, -, hne, hlt⟩)
        · exact absurd rfl h
        · omega
    | true =>
      rw [hfits, hover]
      exact iff_of_true (by omega) (.inl Bool.false_ne_true)
  | true =>
    cases p with
    | false =>
      rw [hfits, hover]
      exact iff_of_true (by omega) (.inl Bool.false_ne_true.symm)
    | true =>
      rw [hover, hover]
      refine iff_of_false (fun h => h rfl) ?_
      rintro (h | ⟨h, -⟩)
      · exact h rfl
      · cases h

end CappedHistory
