import ComputeIntelligence.PyDict
import Mathlib.Data.List.Induction

/-! # Grouping by a key

A loop that puts every element of a list into the list of its key, in a dictionary.  The groups
partition the elements: there is one group for each key that occurs, and it holds exactly the
elements with the key, in their order.
-/
namespace Grouping
variable {α κ : Type} [DecidableEq κ] (key : α → κ)

/-- One element more. -/
def put (groups : PyDict κ (List α)) (x : α) : PyDict κ (List α) :=
  groups.set (key x) (groups.getD (key x) [] ++ [x])

/-- All elements, from the first on. -/
def groupBy (xs : List α) : PyDict κ (List α) := xs.foldl (put key) PyDict.empty

/-- The elements with a key. -/
def members (xs : List α) (k : κ) : List α := xs.filter fun x => key x = k

variable {key} {xs : List α}

theorem groupBy_append (xs : List α) (x : α) :
    groupBy key (xs ++ [x]) = put key (groupBy key xs) x := by
  rw [groupBy, List.foldl_append]
  rfl

theorem members_append (xs : List α) (x : α) (k : κ) :
    members key (xs ++ [x]) k =
      if key x = k then members key xs k ++ [x] else members key xs k := by
  rw [members, List.filter_append]
  by_cases hk : key x = k
  · rw [if_pos hk, List.filter_cons_of_pos (by simpa using hk), List.filter_nil]
    rfl
  · rw [if_neg hk, List.filter_cons_of_neg (by simpa using hk), List.filter_nil,
      List.append_nil]
    rfl

/-- The group of a key that occurs is the elements with the key; no other key has a group. -/
theorem get?_groupBy (xs : List α) (k : κ) :
    (groupBy key xs).get? k = if members key xs k = [] then none else some (members key xs k) := by
  induction xs using List.reverseRecOn with
  | nil => rfl
  | append_singleton xs x ih =>
    rw [groupBy_append, put, PyDict.get?_set, members_append]
    by_cases hk : key x = k
    · have hgroup : (groupBy key xs).getD k [] = members key xs k := by
        rw [PyDict.getD, ih]
        split
        · rename_i hnil
          rw [hnil]
          rfl
        · rfl
      rw [if_pos hk.symm, if_pos hk, if_neg (by simp), hk, hgroup]
    · rw [if_neg (Ne.symm hk), if_neg hk, ih]

/-- The groups are named by the keys that occur. -/
theorem mem_keys_groupBy {k : κ} : k ∈ (groupBy key xs).keys ↔ ∃ x ∈ xs, key x = k := by
  rw [PyDict.mem_keys_iff, get?_groupBy]
  by_cases hnil : members key xs k = []
  · rw [if_pos hnil]
    refine iff_of_false (by simp) ?_
    rintro ⟨x, hx, hk⟩
    exact List.ne_nil_of_mem (List.mem_filter.2 ⟨hx, decide_eq_true hk⟩) hnil
  · rw [if_neg hnil]
    obtain ⟨x, hx⟩ := List.exists_mem_of_ne_nil _ hnil
    obtain ⟨hx, hk⟩ := List.mem_filter.1 hx
    exact iff_of_true rfl ⟨x, hx, of_decide_eq_true hk⟩

/-- A group holds exactly the elements with its key. -/
theorem eq_members_of_mem {k : κ} {group : List α} (h : (k, group) ∈ (groupBy key xs).items) :
    group = members key xs k := by
  have hget := PyDict.get?_of_mem h
  rw [get?_groupBy] at hget
  split at hget
  · cases hget
  · exact (Option.some.inj hget).symm

/-- The groups are the keys that occur, each with the elements that have it. -/
theorem mem_items_groupBy {k : κ} {group : List α} :
    (k, group) ∈ (groupBy key xs).items ↔
      k ∈ (groupBy key xs).keys ∧ group = members key xs k := by
  constructor
  · intro h
    exact ⟨List.mem_map_of_mem h, eq_members_of_mem h⟩
  · rintro ⟨hk, rfl⟩
    obtain ⟨⟨k', group⟩, hmem, rfl⟩ := List.mem_map.1 hk
    rwa [← eq_members_of_mem hmem]

end Grouping
