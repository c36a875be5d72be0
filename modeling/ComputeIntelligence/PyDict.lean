import Mathlib.Algebra.GroupWithZero.Nat
import Mathlib.Data.List.Nodup
import Mathlib.Data.List.Basic

/-! # Insertion-ordered dictionaries

A `PyDict` is an association list in insertion order whose keys are distinct, so
that looking a key up, replacing a value in place, moving a key to the end and
popping the oldest key mean what they mean for a Python `dict` or `OrderedDict`.
The distinctness of the keys is a field: every operation below rebuilds it, and
the lookup equations need no side condition.
-/

/-- An insertion-ordered dictionary, oldest key first. -/
structure PyDict (κ ν : Type) where
  items : List (κ × ν)
  nodup : (items.map Prod.fst).Nodup

namespace PyDict
variable {κ ν : Type} [DecidableEq κ]

omit [DecidableEq κ] in
theorem ext_items {d e : PyDict κ ν} (h : d.items = e.items) : d = e := by
  cases d; cases e; cases h; rfl

instance [DecidableEq ν] : DecidableEq (PyDict κ ν) := fun d e =>
  decidable_of_iff (d.items = e.items) ⟨ext_items, fun h => h ▸ rfl⟩

/-! ### Operations on the underlying list -/

/-- The value at `k`, scanning from the oldest key. -/
def find (k : κ) : List (κ × ν) → Option ν
  | [] => none
  | (k', v) :: xs => if k' = k then some v else find k xs

/-- Every key but `k`. -/
def without (k : κ) (xs : List (κ × ν)) : List (κ × ν) := xs.filter (fun x => x.1 ≠ k)

/-- Replace the value at `k` where it stands, or append the key at the end. -/
def put (k : κ) (v : ν) : List (κ × ν) → List (κ × ν)
  | [] => [(k, v)]
  | (k', v') :: xs => if k' = k then (k, v) :: xs else (k', v') :: put k v xs

theorem find_append (k : κ) (xs ys : List (κ × ν)) :
    find k (xs ++ ys) = (find k xs).or (find k ys) := by
  induction xs with
  | nil => rfl
  | cons x xs ih =>
    obtain ⟨k', v⟩ := x
    by_cases h : k' = k
    · simp [find, h]
    · simp [find, h, ih]

theorem find_without (k k' : κ) (xs : List (κ × ν)) :
    find k' (without k xs) = if k' = k then none else find k' xs := by
  unfold without
  induction xs with
  | nil => simp [find]
  | cons x xs ih =>
    obtain ⟨a, v⟩ := x
    by_cases ha : a = k
    · subst ha
      rw [List.filter_cons_of_neg (by simp), ih]
      by_cases hk : k' = a
      · simp [hk]
      · simp [find, hk, Ne.symm hk]
    · rw [List.filter_cons_of_pos (by simp [ha])]
      by_cases hk : a = k'
      · subst hk; simp [find, ha]
      · rw [find, if_neg hk, find, if_neg hk]
        exact ih

theorem find_map_snd {ν' : Type} (f : ν → ν') (k : κ) (xs : List (κ × ν)) :
    find k (xs.map fun x => (x.1, f x.2)) = (find k xs).map f := by
  induction xs with
  | nil => rfl
  | cons x xs ih =>
    rw [List.map_cons, find, find]
    split
    · rfl
    · exact ih

theorem put_map_snd {ν' : Type} (f : ν → ν') (k : κ) (v : ν) (xs : List (κ × ν)) :
    put k (f v) (xs.map fun x => (x.1, f x.2)) = (put k v xs).map fun x => (x.1, f x.2) := by
  induction xs with
  | nil => rfl
  | cons x xs ih =>
    rw [List.map_cons, put, put]
    split
    · rfl
    · rw [ih]
      rfl

theorem find_put (k k' : κ) (v : ν) (xs : List (κ × ν)) :
    find k' (put k v xs) = if k' = k then some v else find k' xs := by
  induction xs with
  | nil =>
    by_cases h : k' = k
    · simp [put, find, h]
    · simp [put, find, h, Ne.symm h]
  | cons x xs ih =>
    obtain ⟨a, w⟩ := x
    by_cases ha : a = k
    · subst ha
      by_cases hk : k' = a
      · simp [put, find, hk]
      · simp [put, find, hk, Ne.symm hk]
    · by_cases hk : a = k'
      · subst hk; simp [put, find, ha]
      · simp [put, find, ha, hk, ih]

theorem find_eq_none_iff {k : κ} {xs : List (κ × ν)} :
    find k xs = none ↔ k ∉ xs.map Prod.fst := by
  induction xs with
  | nil => simp [find]
  | cons x xs ih =>
    obtain ⟨a, v⟩ := x
    by_cases h : a = k
    · simp [find, h]
    · simp [find, h, Ne.symm h, ih]

omit [DecidableEq κ] in
theorem mem_keys_of_mem {x : κ × ν} {xs : List (κ × ν)} (h : x ∈ xs) :
    x.1 ∈ xs.map Prod.fst :=
  List.mem_map.mpr ⟨x, h, rfl⟩

/-- Distinct keys: the pair found at a key is the only one with that key. -/
theorem find_of_mem {xs : List (κ × ν)} (hn : (xs.map Prod.fst).Nodup) {k : κ} {v : ν}
    (h : (k, v) ∈ xs) : find k xs = some v := by
  induction xs with
  | nil => cases h
  | cons x xs ih =>
    obtain ⟨a, w⟩ := x
    simp only [List.map_cons, List.nodup_cons] at hn
    rcases List.mem_cons.mp h with he | hmem
    · obtain ⟨rfl, rfl⟩ := Prod.mk.inj he
      simp [find]
    · have hne : a ≠ k := fun he => hn.1 (he ▸ mem_keys_of_mem hmem)
      simp [find, hne, ih hn.2 hmem]

theorem put_keys (k : κ) (v : ν) (xs : List (κ × ν)) :
    (put k v xs).map Prod.fst =
      if k ∈ xs.map Prod.fst then xs.map Prod.fst else xs.map Prod.fst ++ [k] := by
  induction xs with
  | nil => simp [put]
  | cons x xs ih =>
    obtain ⟨a, w⟩ := x
    by_cases ha : a = k
    · subst ha; simp [put]
    · simp only [put, ha, if_false, List.map_cons, ih, List.mem_cons, Ne.symm ha, false_or]
      split <;> simp

theorem put_nodup (k : κ) (v : ν) {xs : List (κ × ν)} (hn : (xs.map Prod.fst).Nodup) :
    ((put k v xs).map Prod.fst).Nodup := by
  rw [put_keys]
  split
  · exact hn
  · rename_i h
    exact List.nodup_append.mpr ⟨hn, List.nodup_singleton k, by
      intro a ha b hb hab
      rw [List.mem_singleton] at hb
      exact h (hb ▸ hab ▸ ha)⟩

omit [DecidableEq κ] in
theorem sublist_nodup {xs ys : List (κ × ν)} (hs : xs.Sublist ys)
    (hn : (ys.map Prod.fst).Nodup) : (xs.map Prod.fst).Nodup :=
  List.Nodup.sublist (hs.map Prod.fst) hn

/-! ### The dictionary -/

/-- The empty dictionary. -/
def empty : PyDict κ ν := ⟨[], List.nodup_nil⟩

instance : Inhabited (PyDict κ ν) := ⟨empty⟩

/-- `d.get(k)`. -/
def get? (d : PyDict κ ν) (k : κ) : Option ν := find k d.items

/-- `d.get(k, default)`. -/
def getD (d : PyDict κ ν) (k : κ) (default : ν) : ν := (d.get? k).getD default

/-- `k in d`. -/
def contains (d : PyDict κ ν) (k : κ) : Bool := (d.get? k).isSome

/-- `d[k] = v`: in place for a key that is there, at the end for a new one. -/
def set (d : PyDict κ ν) (k : κ) (v : ν) : PyDict κ ν := ⟨put k v d.items, put_nodup k v d.nodup⟩

/-- `d.pop(k, None)`. -/
def erase (d : PyDict κ ν) (k : κ) : PyDict κ ν :=
  ⟨without k d.items, sublist_nodup List.filter_sublist d.nodup⟩

/-- `d[k] = v` followed by `d.move_to_end(k)`: `k` becomes the most recent key. -/
def setLast (d : PyDict κ ν) (k : κ) (v : ν) : PyDict κ ν :=
  ⟨without k d.items ++ [(k, v)], by
    rw [List.map_append]
    refine List.nodup_append.mpr
      ⟨sublist_nodup List.filter_sublist d.nodup, List.nodup_singleton k, ?_⟩
    intro a ha b hb hab
    obtain ⟨x, hx, rfl⟩ := List.mem_map.mp ha
    have hne := of_decide_eq_true (List.mem_filter.mp hx).2
    exact hne (hab.trans (List.mem_singleton.mp hb))⟩

/-- `d.move_to_end(k)`, on a dictionary that has `k`; otherwise unchanged. -/
def moveToEnd (d : PyDict κ ν) (k : κ) : PyDict κ ν :=
  match d.get? k with
  | some v => d.setLast k v
  | none => d

/-- `d.popitem(last=False)`: the oldest key, and the dictionary without it. -/
def popFirst (d : PyDict κ ν) : Option ((κ × ν) × PyDict κ ν) :=
  match d with
  | ⟨[], _⟩ => none
  | ⟨x :: xs, h⟩ => some (x, ⟨xs, (List.nodup_cons.mp h).2⟩)

/-- `len(d)`. -/
def size (d : PyDict κ ν) : Nat := d.items.length

/-- The keys, oldest first. -/
def keys (d : PyDict κ ν) : List κ := d.items.map Prod.fst

/-- The dictionary built by assigning the pairs in order. -/
def ofList (xs : List (κ × ν)) : PyDict κ ν := xs.foldl (fun d x => d.set x.1 x.2) empty

@[simp] theorem get?_empty (k : κ) : (empty : PyDict κ ν).get? k = none := rfl

omit [DecidableEq κ] in
@[simp] theorem size_empty : (empty : PyDict κ ν).size = 0 := rfl

theorem get?_set (d : PyDict κ ν) (k k' : κ) (v : ν) :
    (d.set k v).get? k' = if k' = k then some v else d.get? k' :=
  find_put k k' v d.items

theorem get?_erase (d : PyDict κ ν) (k k' : κ) :
    (d.erase k).get? k' = if k' = k then none else d.get? k' :=
  find_without k k' d.items

theorem get?_setLast (d : PyDict κ ν) (k k' : κ) (v : ν) :
    (d.setLast k v).get? k' = if k' = k then some v else d.get? k' := by
  unfold get? setLast
  rw [find_append, find_without]
  by_cases h : k' = k
  · simp [h, find]
  · simp [h, find, Ne.symm h]

theorem get?_moveToEnd (d : PyDict κ ν) (k k' : κ) : (d.moveToEnd k).get? k' = d.get? k' := by
  unfold moveToEnd
  cases hk : d.get? k with
  | none => rfl
  | some v =>
    dsimp only
    rw [get?_setLast]
    split
    · rename_i h; rw [h, hk]
    · rfl

theorem get?_eq_none_iff {d : PyDict κ ν} {k : κ} : d.get? k = none ↔ k ∉ d.keys :=
  find_eq_none_iff

theorem get?_of_mem {d : PyDict κ ν} {k : κ} {v : ν} (h : (k, v) ∈ d.items) :
    d.get? k = some v :=
  find_of_mem d.nodup h

theorem mem_of_find {k : κ} {v : ν} {xs : List (κ × ν)} (h : find k xs = some v) : (k, v) ∈ xs := by
  induction xs with
  | nil => cases h
  | cons x xs ih =>
    obtain ⟨a, w⟩ := x
    by_cases ha : a = k
    · rw [find, if_pos ha] at h
      obtain rfl := Option.some.inj h
      rw [ha]
      exact List.mem_cons_self
    · rw [find, if_neg ha] at h
      exact List.mem_cons_of_mem _ (ih h)

theorem mem_keys_iff {d : PyDict κ ν} {k : κ} : k ∈ d.keys ↔ (d.get? k).isSome = true := by
  rw [← not_iff_not, ← get?_eq_none_iff, Option.not_isSome_iff_eq_none]

/-- The values are what the keys are mapped to. -/
theorem mem_values_iff {d : PyDict κ ν} {v : ν} :
    v ∈ d.items.map Prod.snd ↔ ∃ k, d.get? k = some v := by
  constructor
  · intro h
    obtain ⟨⟨k, w⟩, hmem, rfl⟩ := List.mem_map.mp h
    exact ⟨k, get?_of_mem hmem⟩
  · rintro ⟨k, hk⟩
    exact List.mem_map.mpr ⟨(k, v), mem_of_find hk, rfl⟩

/-- Values that are kept under keys of their own go on to be. -/
theorem keyed_set (key : ν → κ) {d : PyDict κ ν} (h : ∀ p ∈ d.items, key p.2 = p.1) (v : ν) :
    ∀ p ∈ (d.set (key v) v).items, key p.2 = p.1 := by
  intro p hp
  have hget := get?_of_mem (d := d.set (key v) v) (k := p.1) (v := p.2) hp
  rw [get?_set] at hget
  by_cases hk : p.1 = key v
  · rw [if_pos hk] at hget
    rw [← Option.some.inj hget, hk]
  · rw [if_neg hk] at hget
    exact h _ (mem_of_find hget)

theorem keyed_erase (key : ν → κ) {d : PyDict κ ν} (h : ∀ p ∈ d.items, key p.2 = p.1)
    (k : κ) : ∀ p ∈ (d.erase k).items, key p.2 = p.1 :=
  fun p hp => h p (List.mem_of_mem_filter hp)

theorem put_of_not_mem {k : κ} (v : ν) {xs : List (κ × ν)} (h : k ∉ xs.map Prod.fst) :
    put k v xs = xs ++ [(k, v)] := by
  induction xs with
  | nil => rfl
  | cons x xs ih =>
    obtain ⟨a, w⟩ := x
    rw [List.map_cons, List.mem_cons, not_or] at h
    obtain ⟨hne, hrest⟩ := h
    rw [put, if_neg (Ne.symm hne), ih hrest]
    rfl

/-- Assigning a key the value it has changes nothing. -/
theorem set_of_get? {d : PyDict κ ν} {k : κ} {v : ν} (h : d.get? k = some v) : d.set k v = d := by
  refine ext_items (?_ : put k v d.items = d.items)
  change find k d.items = some v at h
  generalize d.items = xs at h
  induction xs with
  | nil => cases h
  | cons x xs ih =>
    obtain ⟨a, w⟩ := x
    by_cases ha : a = k
    · rw [find, if_pos ha] at h
      cases h
      rw [put, if_pos ha, ha]
    · rw [find, if_neg ha] at h
      rw [put, if_neg ha, ih h]

/-- Moving a key that is there to the end adds no key. -/
theorem size_setLast_le {d : PyDict κ ν} {k : κ} (h : d.get? k ≠ none) (v : ν) :
    (d.setLast k v).size ≤ d.size := by
  have hkey : k ∈ d.keys := by
    by_contra hn
    exact h (get?_eq_none_iff.mpr hn)
  obtain ⟨x, hx, hxk⟩ := List.mem_map.mp hkey
  have hlt : (without k d.items).length < d.items.length :=
    List.length_filter_lt_length_iff_exists.mpr ⟨x, hx, by simp [hxk]⟩
  have hsize : (d.setLast k v).size = (without k d.items).length + 1 := by
    simp [size, setLast]
  rw [hsize]
  exact hlt

/-- Assigning the items of a dictionary in order builds it again. -/
theorem ofList_items (d : PyDict κ ν) : ofList d.items = d := by
  have hgo : ∀ (xs : List (κ × ν)) (e : PyDict κ ν), ((e.items ++ xs).map Prod.fst).Nodup →
      (xs.foldl (fun d x => d.set x.1 x.2) e).items = e.items ++ xs := by
    intro xs
    induction xs with
    | nil => simp
    | cons x xs ih =>
      intro e hn
      have hx : x.1 ∉ e.items.map Prod.fst := by
        rw [List.map_append, List.nodup_append] at hn
        exact fun hm => hn.2.2 _ hm _ (by simp) rfl
      have hset : (e.set x.1 x.2).items = e.items ++ [x] := put_of_not_mem x.2 hx
      rw [List.foldl_cons, ih _ (by rw [hset]; simpa using hn), hset, List.append_assoc]
      rfl
  exact ext_items (hgo d.items empty d.nodup)

/-- Pairs with distinct keys are the items of their dictionary. -/
theorem items_ofList {xs : List (κ × ν)} (h : (xs.map Prod.fst).Nodup) : (ofList xs).items = xs :=
  congrArg items (ofList_items ⟨xs, h⟩)

/-- Counting one more under `k` adds one to the sum of the counts. -/
theorem sum_put_succ (k : κ) (xs : List (κ × Nat)) :
    ((put k ((find k xs).getD 0 + 1) xs).map Prod.snd).sum = (xs.map Prod.snd).sum + 1 := by
  induction xs with
  | nil => rfl
  | cons x xs ih =>
    obtain ⟨k', v⟩ := x
    by_cases h : k' = k
    · simp only [put, find, if_pos h, Option.getD_some, List.map_cons, List.sum_cons]
      omega
    · simp only [put, find, if_neg h, List.map_cons, List.sum_cons, ih]
      omega

/-- Deleting several keys. -/
theorem get?_foldl_erase (ks : List κ) (d : PyDict κ ν) (k : κ) :
    (ks.foldl erase d).get? k = if k ∈ ks then none else d.get? k := by
  induction ks generalizing d with
  | nil => simp
  | cons a ks ih =>
    rw [List.foldl_cons, ih, get?_erase]
    by_cases hk : k ∈ ks
    · simp [hk]
    · by_cases ha : k = a
      · simp [ha]
      · simp [hk, ha]

/-- Popping the oldest key removes that key and changes no other. -/
theorem get?_popFirst {d d' : PyDict κ ν} {x : κ × ν} (h : d.popFirst = some (x, d')) (k : κ) :
    d'.get? k = if k = x.1 then none else d.get? k := by
  obtain ⟨items, hn⟩ := d
  cases items with
  | nil => cases h
  | cons y ys =>
    simp only [popFirst, Option.some.injEq, Prod.mk.injEq] at h
    obtain ⟨rfl, rfl⟩ := h
    obtain ⟨a, v⟩ := y
    simp only [get?, find]
    by_cases hk : k = a
    · subst hk
      simp only [if_true]
      exact find_eq_none_iff.mpr (List.nodup_cons.mp hn).1
    · simp [hk, Ne.symm hk]

omit [DecidableEq κ] in
theorem size_popFirst {d d' : PyDict κ ν} {x : κ × ν} (h : d.popFirst = some (x, d')) :
    d.size = d'.size + 1 := by
  obtain ⟨items, hn⟩ := d
  cases items with
  | nil => cases h
  | cons y ys =>
    simp only [popFirst, Option.some.injEq, Prod.mk.injEq] at h
    obtain ⟨rfl, rfl⟩ := h
    rfl

omit [DecidableEq κ] in
theorem popFirst_eq_none_iff {d : PyDict κ ν} : d.popFirst = none ↔ d.size = 0 := by
  obtain ⟨items, hn⟩ := d
  cases items <;> simp [popFirst, size]

omit [DecidableEq κ] in
theorem items_popFirst {d d' : PyDict κ ν} {x : κ × ν} (h : d.popFirst = some (x, d')) :
    d.items = x :: d'.items := by
  obtain ⟨items, hn⟩ := d
  cases items with
  | nil => cases h
  | cons y ys =>
    simp only [popFirst, Option.some.injEq, Prod.mk.injEq] at h
    obtain ⟨rfl, rfl⟩ := h
    rfl

theorem put_of_mem {k : κ} (v : ν) {xs : List (κ × ν)} (hn : (xs.map Prod.fst).Nodup)
    (h : k ∈ xs.map Prod.fst) : put k v xs = xs.map fun p => if p.1 = k then (k, v) else p := by
  induction xs with
  | nil => cases h
  | cons x xs ih =>
    obtain ⟨a, w⟩ := x
    obtain ⟨hnot, hrest⟩ := List.nodup_cons.1 hn
    by_cases ha : a = k
    · subst ha
      rw [put, if_pos rfl, List.map_cons, if_pos rfl]
      congr 1
      refine (List.map_id xs).symm.trans (List.map_congr_left fun p hp => ?_)
      exact (if_neg fun hpa => hnot (List.mem_map.2 ⟨p, hp, hpa⟩)).symm
    · have hmem : k ∈ xs.map Prod.fst := (List.mem_cons.1 h).resolve_left (Ne.symm ha)
      rw [put, if_neg ha, ih hrest hmem, List.map_cons, if_neg ha]

/-! ### The items around a key -/

/-- The items before `k`: all of them where `k` is not there. -/
def before (d : PyDict κ ν) (k : κ) : List (κ × ν) := d.items.takeWhile (·.1 ≠ k)

/-- The items after `k`: none where `k` is not there. -/
def after (d : PyDict κ ν) (k : κ) : List (κ × ν) := (d.items.dropWhile (·.1 ≠ k)).tail

theorem items_eq (d : PyDict κ ν) (k : κ) :
    d.items = d.before k ++ (d.get? k).toList.map (k, ·) ++ d.after k := by
  unfold before after get?
  generalize d.items = xs
  induction xs with
  | nil => rfl
  | cons x xs ih =>
    obtain ⟨a, w⟩ := x
    by_cases ha : a = k
    · simp [find, ha]
    · simpa [find, ha] using ih

theorem items_set (d : PyDict κ ν) (k : κ) (v : ν) :
    (d.set k v).items = d.before k ++ (k, v) :: d.after k := by
  show put k v d.items = _
  unfold before after
  generalize d.items = xs
  induction xs with
  | nil => rfl
  | cons x xs ih =>
    obtain ⟨a, w⟩ := x
    by_cases ha : a = k
    · simp [put, ha]
    · simpa [put, ha] using ih

theorem items_erase (d : PyDict κ ν) (k : κ) :
    (d.erase k).items = d.before k ++ d.after k := by
  obtain ⟨items, hn⟩ := d
  show without k items = _
  unfold before after
  dsimp only
  induction items with
  | nil => rfl
  | cons x xs ih =>
    obtain ⟨hnot, hrest⟩ := List.nodup_cons.1 hn
    obtain ⟨a, w⟩ := x
    by_cases ha : a = k
    · subst ha
      rw [without, List.filter_cons_of_neg (by simp), List.filter_eq_self.2 fun p hp => by
        simpa using fun he => hnot (List.mem_map.2 ⟨p, hp, he⟩)]
      simp
    · rw [without, List.filter_cons_of_pos (by simp [ha])]
      simpa [ha, without] using ih hrest

/-- Dictionaries with the same values have the same items, in some order. -/
theorem perm_of_get?_eq {d e : PyDict κ ν} (h : ∀ k, d.get? k = e.get? k) :
    d.items.Perm e.items := by
  refine (List.perm_ext_iff_of_nodup (d.nodup.of_map _) (e.nodup.of_map _)).2 fun p => ?_
  constructor
  · intro hp
    exact mem_of_find ((h p.1).symm.trans (get?_of_mem hp))
  · intro hp
    exact mem_of_find ((h p.1).trans (get?_of_mem hp))

end PyDict
