import Mathlib.Data.List.Sort
import Mathlib.Data.Prod.Lex

/-! # Stable sorting by a key

`Arranges key ys xs` says that `ys` is `xs` in the order of a key, elements with the same key in
the order they had.  Sorting does this, and sorting again after each new element comes to the same
thing (`Arranges.insert`).  What the arrangement is depends on the order of `xs` only through the
elements that share a key: their keys are always arranged alike (`Arranges.map_key_eq`), and where
no two elements share one, so are they (`Arranges.eq_of_perm`).
-/
namespace StableSort
variable {α K : Type} [LinearOrder K] {key : α → K} {x : α} {xs xs' ys ys' : List α}

/-- Sorting by a key; elements with the same key stay in order. -/
def sortBy (key : α → K) (xs : List α) : List α := xs.insertionSort fun a b => key a ≤ key b

/-- The elements in the order of their keys, those with the same key in the order they had. -/
structure Arranges (key : α → K) (ys xs : List α) : Prop where
  perm : ys.Perm xs
  sorted : ys.Pairwise fun a b => key a ≤ key b
  stable : ∀ k, ys.filter (fun a => key a = k) = xs.filter (fun a => key a = k)

/-- Sorting arranges. -/
theorem arranges_sortBy (key : α → K) (xs : List α) : Arranges key (sortBy key xs) xs := by
  let r : α → α → Prop := fun a b => key a ≤ key b
  have htotal : Std.Total r := ⟨fun a b => le_total (key a) (key b)⟩
  have htrans : IsTrans α r := ⟨fun _ _ _ hab hbc => le_trans hab hbc⟩
  have hperm : (sortBy key xs).Perm xs := List.perm_insertionSort _ xs
  refine ⟨hperm, List.pairwise_insertionSort r xs, fun k => ?_⟩
  have hkey : ∀ a ∈ xs.filter (fun a => key a = k), key a = k :=
    fun a ha => of_decide_eq_true (List.mem_filter.1 ha).2
  -- elements with one key are in order already, so sorting keeps them as a sublist
  have hpairwise : (xs.filter fun a => key a = k).Pairwise r :=
    List.pairwise_of_forall_mem_list fun a ha b hb => le_of_eq ((hkey a ha).trans (hkey b hb).symm)
  have hsublist : (xs.filter fun a => key a = k).Sublist (sortBy key xs) :=
    List.sublist_insertionSort hpairwise List.filter_sublist
  have hfilter := hsublist.filter fun a => decide (key a = k)
  rw [List.filter_eq_self.2 fun a ha => (List.mem_filter.1 ha).2] at hfilter
  exact (hfilter.eq_of_length (hperm.symm.filter _).length_eq).symm

/-- Sorting again after a new element. -/
theorem Arranges.insert (h : Arranges key ys xs) (x : α) :
    Arranges key (sortBy key (ys ++ [x])) (xs ++ [x]) := by
  have hsorted := arranges_sortBy key (ys ++ [x])
  refine ⟨hsorted.perm.trans (h.perm.append_right [x]), hsorted.sorted, fun k => ?_⟩
  rw [hsorted.stable, List.filter_append, List.filter_append, h.stable]

/-- The keys are arranged alike in every order of the list. -/
theorem Arranges.map_key_eq (h : Arranges key ys xs) (h' : Arranges key ys' xs')
    (hp : xs.Perm xs') : ys.map key = ys'.map key := by
  have hperm : (ys.map key).Perm (ys'.map key) := ((h.perm.trans hp).trans h'.perm.symm).map key
  refine hperm.eq_of_pairwise' (r := (· ≤ ·)) ?_ ?_
  · exact List.pairwise_map.2 h.sorted
  · exact List.pairwise_map.2 h'.sorted

/-- Where no two elements share a key, the elements are arranged alike in every order. -/
theorem Arranges.eq_of_perm (h : Arranges key ys xs) (h' : Arranges key ys' xs')
    (hp : xs.Perm xs') (hkey : ∀ a ∈ xs, ∀ b ∈ xs, key a = key b → a = b) : ys = ys' := by
  refine ((h.perm.trans hp).trans h'.perm.symm).eq_of_pairwise ?_ h.sorted h'.sorted
  intro a b ha hb hab hba
  have hb : b ∈ xs := hp.mem_iff.2 (h'.perm.mem_iff.1 hb)
  exact hkey a (h.perm.mem_iff.1 ha) b hb (le_antisymm hab hba)

/-- The elements with a key begin with the first that has it. -/
theorem Arranges.head_filter (h : Arranges key ys (x :: xs)) :
    (ys.filter fun a => key a = key x).head? = some x := by
  rw [h.stable, List.filter_cons_of_pos (by simp), List.head?_cons]

/-- Lists whose elements have the same keys and the same images: so have the elements that begin
the part with one key. -/
theorem head_filter_eq {β : Type} {f : α → β} (hkeys : ys.map key = ys'.map key)
    (hf : ys.map f = ys'.map f) (k : K) :
    (ys.filter fun a => key a = k).head?.map f = (ys'.filter fun a => key a = k).head?.map f := by
  have hpairs : ys.map (fun a => (key a, f a)) = ys'.map fun a => (key a, f a) := by
    rw [← List.zip_map', ← List.zip_map', hkeys, hf]
  have hfilter : ∀ zs : List α, ((zs.map fun a => (key a, f a)).filter fun p => p.1 = k) =
      (zs.filter fun a => key a = k).map fun a => (key a, f a) := fun zs => List.filter_map
  have hheads :=
    congrArg (fun ps => (ps.filter fun p => decide (p.1 = k)).head?.map Prod.snd) hpairs
  simpa only [hfilter, List.head?_map, Option.map_map, Function.comp_def] using hheads

/-- There is one arrangement. -/
theorem Arranges.unique (h : Arranges key ys xs) (h' : Arranges key ys' xs) : ys = ys' := by
  have hkeys := h.map_key_eq h' (List.Perm.refl xs)
  have hfilter : ∀ k, ys.filter (fun a => key a = k) = ys'.filter (fun a => key a = k) :=
    fun k => (h.stable k).trans (h'.stable k).symm
  clear h h'
  induction ys generalizing ys' with
  | nil => exact (List.map_eq_nil_iff.1 hkeys.symm).symm
  | cons y ys ih =>
    cases ys' with
    | nil => cases hkeys
    | cons y' ys' =>
      obtain ⟨hkey, htail⟩ := List.cons.inj hkeys
      -- the first elements have one key, and begin the part of the lists that has it
      have hhead : y = y' := by
        have hpart := hfilter (key y)
        rw [List.filter_cons_of_pos (by simp), List.filter_cons_of_pos (by simp [hkey])] at hpart
        exact (List.cons.inj hpart).1
      subst hhead
      refine congrArg _ (ih htail fun k => ?_)
      have hpart := hfilter k
      by_cases hk : key y = k
      · rw [List.filter_cons_of_pos (by simp [hk]), List.filter_cons_of_pos (by simp [hk])] at hpart
        exact (List.cons.inj hpart).2
      · rwa [List.filter_cons_of_neg (by simp [hk]),
          List.filter_cons_of_neg (by simp [hk])] at hpart

/-- What is kept of an arrangement is arranged. -/
theorem Arranges.filter (h : Arranges key ys xs) (p : α → Bool) :
    Arranges key (ys.filter p) (xs.filter p) := by
  refine ⟨h.perm.filter p, h.sorted.filter p, fun k => ?_⟩
  rw [List.filter_comm, h.stable, List.filter_comm]

/-- Sorting what is kept, or keeping it of what is sorted. -/
theorem sortBy_filter (key : α → K) (p : α → Bool) (xs : List α) :
    sortBy key (xs.filter p) = (sortBy key xs).filter p :=
  (arranges_sortBy key (xs.filter p)).unique ((arranges_sortBy key xs).filter p)

/-- Sorting by a key that the images of the elements have. -/
theorem sortBy_map {β : Type} (key : β → K) (f : α → β) (xs : List α) :
    sortBy key (xs.map f) = (sortBy (fun a => key (f a)) xs).map f :=
  (List.map_insertionSort _ _ f xs fun _ _ _ _ => Iff.rfl).symm

end StableSort
