import Mathlib.Data.List.Basic
import Mathlib.Logic.Function.Basic

/-! # Locks by key

A list of the keys that are taken, beside the tasks that hold them.  `Guards` says that the two
agree and that no key has two holders.  Taking a free key keeps it, and so does giving back the
key that is held.
-/
namespace KeyedLock
variable {ι κ : Type} [DecidableEq ι] [DecidableEq κ]

/-- The taken keys are those that a task holds, and each has one holder. -/
structure Guards (taken : List κ) (holds : ι → Option κ) : Prop where
  taken_iff : ∀ k, k ∈ taken ↔ ∃ i, holds i = some k
  unique : ∀ i j k, holds i = some k → holds j = some k → i = j

variable {taken : List κ} {holds : ι → Option κ} {i : ι} {k : κ}

omit [DecidableEq ι] [DecidableEq κ] in
theorem guards_none : Guards ([] : List κ) fun _ : ι => none :=
  ⟨fun _ => iff_of_false List.not_mem_nil (fun ⟨_, h⟩ => by cases h), fun _ _ _ h => by cases h⟩

omit [DecidableEq κ] in
/-- Taking a free key. -/
theorem Guards.acquire (h : Guards taken holds) (hfree : k ∉ taken) (hi : holds i = none) :
    Guards (k :: taken) (Function.update holds i (some k)) := by
  constructor
  · intro k'
    rw [List.mem_cons, h.taken_iff]
    constructor
    · rintro (rfl | ⟨j, hj⟩)
      · exact ⟨i, Function.update_self ..⟩
      · have hne : j ≠ i := by
          rintro rfl
          rw [hi] at hj
          cases hj
        exact ⟨j, by rw [Function.update_of_ne hne, hj]⟩
    · rintro ⟨j, hj⟩
      by_cases hji : j = i
      · rw [hji, Function.update_self] at hj
        exact .inl (Option.some.inj hj).symm
      · rw [Function.update_of_ne hji] at hj
        exact .inr ⟨j, hj⟩
  · intro j j' k' hj hj'
    -- the new holder shares its key with nobody, since it was free
    by_cases hji : j = i
    · by_cases hj'i : j' = i
      · rw [hji, hj'i]
      · rw [hji, Function.update_self] at hj
        rw [Function.update_of_ne hj'i] at hj'
        obtain rfl := Option.some.inj hj
        exact absurd ((h.taken_iff _).2 ⟨j', hj'⟩) hfree
    · rw [Function.update_of_ne hji] at hj
      by_cases hj'i : j' = i
      · rw [hj'i, Function.update_self] at hj'
        obtain rfl := Option.some.inj hj'
        exact absurd ((h.taken_iff _).2 ⟨j, hj⟩) hfree
      · rw [Function.update_of_ne hj'i] at hj'
        exact h.unique j j' k' hj hj'

/-- Giving back the key that is held. -/
theorem Guards.release (h : Guards taken holds) (hi : holds i = some k) :
    Guards (taken.filter (· ≠ k)) (Function.update holds i none) := by
  constructor
  · intro k'
    rw [List.mem_filter, decide_eq_true_eq, h.taken_iff]
    constructor
    · rintro ⟨⟨j, hj⟩, hne⟩
      have hji : j ≠ i := by
        rintro rfl
        exact hne (Option.some.inj (hj.symm.trans hi))
      exact ⟨j, by rw [Function.update_of_ne hji, hj]⟩
    · rintro ⟨j, hj⟩
      by_cases hji : j = i
      · rw [hji, Function.update_self] at hj
        cases hj
      · rw [Function.update_of_ne hji] at hj
        refine ⟨⟨j, hj⟩, ?_⟩
        rintro rfl
        exact hji (h.unique j i k' hj hi)
  · intro j j' k' hj hj'
    have hkept : ∀ {j}, Function.update holds i none j = some k' → holds j = some k' := by
      intro j hj
      by_cases hji : j = i
      · rw [hji, Function.update_self] at hj
        cases hj
      · rwa [Function.update_of_ne hji] at hj
    exact h.unique j j' k' (hkept hj) (hkept hj')

omit [DecidableEq ι] [DecidableEq κ] in
/-- Where nobody holds a key, none is taken. -/
theorem Guards.eq_nil (h : Guards taken holds) (hidle : ∀ i, holds i = none) : taken = [] := by
  rw [List.eq_nil_iff_forall_not_mem]
  intro k hk
  obtain ⟨i, hi⟩ := (h.taken_iff k).1 hk
  rw [hidle i] at hi
  cases hi

end KeyedLock
