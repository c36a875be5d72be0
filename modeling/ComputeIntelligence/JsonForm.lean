import Mathlib.Data.List.Sort
import Mathlib.Data.String.Basic
import ComputeIntelligence.PyValue

/-! # What a sorted JSON text tells

`json.dumps(v, sort_keys=True, default=str)` forgets the order of the members of an
object and the difference between a text and a value that JSON has no notation for.
`v.jsonForm` is what is left: two values are written alike exactly when their forms are
equal.
-/
namespace PyVal

/-! ### Equality of values -/

mutual

/-- `v` and `w` are the same value. -/
def same : PyVal → PyVal → Bool
  | .none, .none => true
  | .bool b, .bool c => b = c
  | .int i, .int j => i = j
  | .float x, .float y => x = y
  | .str s, .str t => s = t
  | .datetime t, .datetime u => t = u
  | .list xs, .list ys => sameList xs ys
  | .dict kvs, .dict lws => sameItems kvs lws
  | .object o, .object p => o = p
  | _, _ => false

/-- The same values in the same order. -/
def sameList : List PyVal → List PyVal → Bool
  | [], [] => true
  | x :: xs, y :: ys => same x y && sameList xs ys
  | _, _ => false

/-- The same members in the same order. -/
def sameItems : List (String × PyVal) → List (String × PyVal) → Bool
  | [], [] => true
  | (k, v) :: kvs, (l, w) :: lws => decide (k = l) && same v w && sameItems kvs lws
  | _, _ => false

end

mutual

theorem same_iff (v w : PyVal) : same v w = true ↔ v = w := by
  cases v with
  | list xs =>
    cases w with
    | list ys => rw [same, sameList_iff, PyVal.list.injEq]
    | _ => simp [same]
  | dict kvs =>
    cases w with
    | dict lws => rw [same, sameItems_iff, PyVal.dict.injEq]
    | _ => simp [same]
  | _ => cases w <;> simp [same]

theorem sameList_iff (xs ys : List PyVal) : sameList xs ys = true ↔ xs = ys := by
  cases xs with
  | nil => cases ys <;> simp [sameList]
  | cons x xs =>
    cases ys with
    | nil => simp [sameList]
    | cons y ys => rw [sameList, Bool.and_eq_true, same_iff, sameList_iff, List.cons.injEq]

theorem sameItems_iff (kvs lws : List (String × PyVal)) : sameItems kvs lws = true ↔ kvs = lws := by
  cases kvs with
  | nil => cases lws <;> simp [sameItems]
  | cons kv kvs =>
    cases lws with
    | nil => simp [sameItems]
    | cons lw lws =>
      rw [sameItems, Bool.and_eq_true, Bool.and_eq_true, decide_eq_true_iff, same_iff,
        sameItems_iff, List.cons.injEq, Prod.ext_iff]

end

instance : DecidableEq PyVal := fun v w => decidable_of_iff _ (same_iff v w)

/-! ### The form -/

mutual

/-- What the JSON text of a value tells of it. -/
def jsonForm : PyVal → PyVal
  | .datetime t => .str t.str
  | .object o => match o.str with
      | some s => .str s
      | Option.none => .object o
  | .list xs => .list (jsonFormList xs)
  | .dict kvs => .dict ((jsonFormItems kvs).insertionSort fun a b => a.1 ≤ b.1)
  | v => v

/-- The forms of the elements. -/
def jsonFormList : List PyVal → List PyVal
  | [] => []
  | x :: xs => jsonForm x :: jsonFormList xs

/-- The forms of the members, where they stand. -/
def jsonFormItems : List (String × PyVal) → List (String × PyVal)
  | [] => []
  | (k, v) :: kvs => (k, jsonForm v) :: jsonFormItems kvs

end

@[simp] theorem jsonForm_str (s : String) : jsonForm (.str s) = .str s := rfl

@[simp] theorem jsonForm_bool (b : Bool) : jsonForm (.bool b) = .bool b := rfl

@[simp] theorem jsonForm_list (xs : List PyVal) :
    jsonForm (.list xs) = .list (xs.map jsonForm) := by
  have hlist : ∀ xs, jsonFormList xs = xs.map jsonForm := fun xs => by
    induction xs with
    | nil => rfl
    | cons x xs ih => rw [jsonFormList, ih, List.map_cons]
  rw [jsonForm, hlist]

/-- Arrays that begin with a text are written alike when the texts and the rests are. -/
theorem jsonForm_text_cons_iff {s t : String} {xs ys : List PyVal} :
    jsonForm (.list (.str s :: xs)) = jsonForm (.list (.str t :: ys)) ↔
      s = t ∧ jsonForm (.list xs) = jsonForm (.list ys) := by
  simp

theorem jsonForm_singleton_iff {v w : PyVal} :
    jsonForm (.list [v]) = jsonForm (.list [w]) ↔ v.jsonForm = w.jsonForm := by
  simp

theorem jsonForm_dict (kvs : List (String × PyVal)) : jsonForm (.dict kvs) =
    .dict ((kvs.map fun kv => (kv.1, jsonForm kv.2)).insertionSort fun a b => a.1 ≤ b.1) := by
  have hitems : ∀ kvs, jsonFormItems kvs = kvs.map fun kv => (kv.1, jsonForm kv.2) := fun kvs => by
    induction kvs with
    | nil => rfl
    | cons kv kvs ih => rw [jsonFormItems, ih, List.map_cons]
  rw [jsonForm, hitems]

/-- Lists with the same distinct keys that hold the same members hold them in the same
places. -/
theorem eq_of_perm_of_keys {α β : Type} {l m : List (α × β)} (h : l.Perm m)
    (hkeys : l.map Prod.fst = m.map Prod.fst) (hn : (l.map Prod.fst).Nodup) : l = m := by
  induction l generalizing m with
  | nil => exact (List.nil_perm.1 h).symm
  | cons x l ih =>
    cases m with
    | nil => exact List.perm_nil.1 h
    | cons y m =>
      obtain ⟨hxy, hrest⟩ := List.cons.inj hkeys
      have hx : x = y := by
        rcases List.mem_cons.1 (h.mem_iff.1 List.mem_cons_self) with hx | hx
        · exact hx
        · have hmem : x.1 ∈ m.map Prod.fst := List.mem_map_of_mem hx
          rw [← hrest] at hmem
          exact absurd hmem (List.nodup_cons.1 hn).1
      subst hx
      rw [ih h.cons_inv hrest (List.nodup_cons.1 hn).2]

/-- Objects with the same distinct keys in the same order have equal forms exactly when
their members do. -/
theorem jsonForm_dict_iff {kvs lws : List (String × PyVal)}
    (hkeys : kvs.map Prod.fst = lws.map Prod.fst) (hn : (kvs.map Prod.fst).Nodup) :
    jsonForm (.dict kvs) = jsonForm (.dict lws) ↔
      kvs.map (fun kv => jsonForm kv.2) = lws.map fun kv => jsonForm kv.2 := by
  have hfst : ∀ l : List (String × PyVal),
      (l.map fun kv => (kv.1, jsonForm kv.2)).map Prod.fst = l.map Prod.fst := fun l => by
    rw [List.map_map]
    rfl
  have hsnd : ∀ l : List (String × PyVal),
      (l.map fun kv => (kv.1, jsonForm kv.2)).map Prod.snd = l.map fun kv => jsonForm kv.2 :=
    fun l => by
      rw [List.map_map]
      rfl
  rw [jsonForm_dict, jsonForm_dict, PyVal.dict.injEq]
  constructor
  · intro h
    have hperm : (kvs.map fun kv => (kv.1, jsonForm kv.2)).Perm
        (lws.map fun kv => (kv.1, jsonForm kv.2)) :=
      (List.perm_insertionSort _ _).symm.trans (h.symm ▸ List.perm_insertionSort _ _)
    have heq := eq_of_perm_of_keys hperm (by rw [hfst, hfst, hkeys]) (by rw [hfst]; exact hn)
    rw [← hsnd kvs, ← hsnd lws, heq]
  · intro h
    have heq : (kvs.map fun kv => (kv.1, jsonForm kv.2)) =
        lws.map fun kv => (kv.1, jsonForm kv.2) := by
      rw [← List.zip_unzip (kvs.map _), ← List.zip_unzip (lws.map _), List.unzip_eq_map,
        List.unzip_eq_map, hfst, hfst, hsnd, hsnd, hkeys, h]
    rw [heq]

end PyVal
