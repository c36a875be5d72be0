import Mathlib.Data.List.Induction

/-! # The first element of every key

What a stream of keyed elements leaves behind when an element is dropped if its key has
been seen before.  An element that is appended counts if its key is new; appending
elements of another kind changes no count.
-/
namespace FirstByKey
variable {α κ : Type} [DecidableEq κ] (key : α → κ)

/-- Keep an element if its key is new. -/
def keep (kept : List α) (a : α) : List α := if key a ∈ kept.map key then kept else kept ++ [a]

/-- The elements whose key did not occur before them. -/
def firsts (l : List α) : List α := l.foldl (keep key) []

theorem firsts_concat (l : List α) (a : α) : firsts key (l ++ [a]) = keep key (firsts key l) a := by
  unfold firsts
  rw [List.foldl_append]
  rfl

variable {key}

theorem mem_keys_keep {kept : List α} {a : α} {k : κ} :
    k ∈ (keep key kept a).map key ↔ k ∈ kept.map key ∨ k = key a := by
  unfold keep
  split
  · rename_i hseen
    refine ⟨.inl, ?_⟩
    rintro (hk | rfl)
    · exact hk
    · exact hseen
  · rw [List.map_append, List.mem_append]
    exact or_congr Iff.rfl List.mem_singleton

/-- No key is lost. -/
theorem mem_keys_firsts {l : List α} {k : κ} : k ∈ (firsts key l).map key ↔ k ∈ l.map key := by
  induction l using List.reverseRecOn with
  | nil => exact Iff.rfl
  | append_singleton l a ih =>
    rw [firsts_concat, mem_keys_keep, ih, List.map_append, List.mem_append]
    exact or_congr Iff.rfl List.mem_singleton.symm

/-- An element that is appended counts if its key is new. -/
theorem countP_firsts_concat (p : α → Bool) (l : List α) (a : α) :
    (firsts key (l ++ [a])).countP p =
      (firsts key l).countP p + if p a = true ∧ key a ∉ l.map key then 1 else 0 := by
  rw [firsts_concat]
  unfold keep
  by_cases hseen : key a ∈ (firsts key l).map key
  · rw [if_pos hseen, if_neg fun h => h.2 (mem_keys_firsts.mp hseen)]
    rfl
  · have hnew : key a ∉ l.map key := fun h => hseen (mem_keys_firsts.mpr h)
    rw [if_neg hseen, List.countP_append, List.countP_singleton]
    by_cases hp : p a = true
    · rw [if_pos hp, if_pos ⟨hp, hnew⟩]
    · rw [if_neg hp, if_neg fun h => hp h.1]

/-- At most one element is appended. -/
theorem countP_firsts_toList (p : α → Bool) (l : List α) (o : Option α) :
    (firsts key (l ++ o.toList)).countP p = (firsts key l).countP p +
      if o.any fun a => p a && decide (key a ∉ l.map key) then 1 else 0 := by
  cases o with
  | none => rw [Option.toList_none, List.append_nil]; rfl
  | some a =>
    rw [Option.toList_some, countP_firsts_concat, Option.any_some]
    simp only [Bool.and_eq_true, decide_eq_true_eq]

/-- Elements of another kind do not count. -/
theorem countP_firsts_append {p : α → Bool} {l more : List α} (h : ∀ a ∈ more, p a = false) :
    (firsts key (l ++ more)).countP p = (firsts key l).countP p := by
  induction more using List.reverseRecOn with
  | nil => rw [List.append_nil]
  | append_singleton more a ih =>
    have ha : ¬ (p a = true ∧ key a ∉ (l ++ more).map key) := by
      rintro ⟨hp, -⟩
      rw [h a (List.mem_append_right _ (List.mem_singleton_self a))] at hp
      cases hp
    rw [← List.append_assoc, countP_firsts_concat, if_neg ha, Nat.add_zero]
    exact ih fun b hb => h b (List.mem_append_left _ hb)

end FirstByKey
