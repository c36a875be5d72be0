import Mathlib.Data.List.Perm.Basic
import Mathlib.Order.Lattice

/-! # The first of the greatest

`firstMax score xs` is the first element of `xs` whose score is greatest: what Python's
`max(xs, key=score)` returns, and what a loop that keeps the best element so far, and
gives it up only for a strictly better one, ends with (`scan_eq`).

The greatest score does not depend on the order of the list; the element does, unless the
elements that share it agree on what is asked about them (`firstMax_bind_eq`).
-/
namespace FirstMax
variable {α β K : Type} [LinearOrder K] (score : α → K)

/-- The first element with the greatest score. -/
def firstMax : List α → Option α
  | [] => none
  | x :: xs => match firstMax xs with
    | none => some x
    | some y => if score x < score y then some y else some x

/-- One step of the loop that keeps the best so far. -/
def better (best : K × Option α) (x : α) : K × Option α :=
  if best.1 < score x then (score x, some x) else best

/-- The loop, from a score to beat. -/
def scan (lo : K) (xs : List α) : K × Option α := xs.foldl (better score) (lo, none)

/-- The elements whose score no other exceeds. -/
def Best (xs : List α) (x : α) : Prop := x ∈ xs ∧ ∀ y ∈ xs, score y ≤ score x

variable {score} {xs ys : List α} {x y : α}

theorem firstMax_eq_none : firstMax score xs = none ↔ xs = [] := by
  cases xs with
  | nil => exact ⟨fun _ => rfl, fun _ => rfl⟩
  | cons x xs =>
    refine ⟨fun h => ?_, fun h => nomatch h⟩
    unfold firstMax at h
    split at h
    · exact nomatch h
    · split at h
      · exact nomatch h
      · exact nomatch h

theorem firstMax_best (h : firstMax score xs = some x) : Best score xs x := by
  induction xs generalizing x with
  | nil => exact nomatch h
  | cons z xs ih =>
    unfold firstMax at h
    cases hrest : firstMax score xs with
    | none =>
      rw [hrest] at h
      obtain rfl := Option.some.inj h
      obtain rfl := firstMax_eq_none.1 hrest
      exact ⟨List.mem_singleton_self _, fun y hy => by rw [List.mem_singleton.1 hy]⟩
    | some w =>
      rw [hrest] at h
      obtain ⟨hmem, hmax⟩ := ih hrest
      dsimp only at h
      -- the head stays unless the best of the rest is better
      split at h
      · rename_i hlt
        obtain rfl := Option.some.inj h
        refine ⟨List.mem_cons_of_mem _ hmem, fun y hy => ?_⟩
        rcases List.mem_cons.1 hy with rfl | hy
        · exact le_of_lt hlt
        · exact hmax y hy
      · rename_i hlt
        obtain rfl := Option.some.inj h
        refine ⟨List.mem_cons_self, fun y hy => ?_⟩
        rcases List.mem_cons.1 hy with rfl | hy
        · exact le_rfl
        · exact le_trans (hmax y hy) (not_lt.1 hlt)

/-- A list that begins with a best element begins with the first of them. -/
theorem firstMax_cons_of_best (h : ∀ y ∈ xs, score y ≤ score x) :
    firstMax score (x :: xs) = some x := by
  unfold firstMax
  cases hrest : firstMax score xs with
  | none => rfl
  | some y => exact if_neg (not_lt.2 (h y (firstMax_best hrest).1))

/-- What comes first and is no better than something later does not matter. -/
theorem firstMax_append_of_lt {zs : List α} (hx : firstMax score ys = some x)
    (h : ∀ z ∈ zs, score z < score x) : firstMax score (zs ++ ys) = some x := by
  induction zs with
  | nil => exact hx
  | cons z zs ih =>
    have hrest := ih fun w hw => h w (List.mem_cons_of_mem _ hw)
    rw [List.cons_append]
    unfold firstMax
    rw [hrest]
    exact if_pos (h z List.mem_cons_self)

/-- What comes later and is no better does not matter. -/
theorem firstMax_append_of_le {zs : List α} (hx : firstMax score xs = some x)
    (h : ∀ z ∈ zs, score z ≤ score x) : firstMax score (xs ++ zs) = some x := by
  induction xs generalizing x with
  | nil => exact nomatch hx
  | cons w xs ih =>
    have hbest := firstMax_best hx
    unfold firstMax at hx
    rw [List.cons_append]
    cases hrest : firstMax score xs with
    | none =>
      rw [hrest] at hx
      obtain rfl := Option.some.inj hx
      obtain rfl := firstMax_eq_none.1 hrest
      exact firstMax_cons_of_best h
    | some v =>
      rw [hrest] at hx
      dsimp only at hx
      split at hx
      · rename_i hlt
        obtain rfl := Option.some.inj hx
        unfold firstMax
        rw [ih hrest h]
        exact if_pos hlt
      · -- the head is best, so it is best with what follows too
        obtain rfl := Option.some.inj hx
        refine firstMax_cons_of_best fun y hy => ?_
        rcases List.mem_append.1 hy with hy | hy
        · exact hbest.2 y (List.mem_cons_of_mem _ hy)
        · exact h y hy

/-- The first of the greatest beats what comes before it, and nothing after it beats it. -/
theorem firstMax_eq_some_iff :
    firstMax score xs = some x ↔ ∃ before after, xs = before ++ x :: after ∧
      (∀ y ∈ before, score y < score x) ∧ ∀ y ∈ after, score y ≤ score x := by
  constructor
  · intro h
    induction xs generalizing x with
    | nil => exact nomatch h
    | cons z xs ih =>
      unfold firstMax at h
      cases hrest : firstMax score xs with
      | none =>
        rw [hrest] at h
        obtain rfl := Option.some.inj h
        obtain rfl := firstMax_eq_none.1 hrest
        exact ⟨[], [], rfl, fun y hy => absurd hy List.not_mem_nil,
          fun y hy => absurd hy List.not_mem_nil⟩
      | some w =>
        rw [hrest] at h
        dsimp only at h
        split at h
        · rename_i hlt
          obtain rfl := Option.some.inj h
          obtain ⟨before, after, rfl, hbefore, hafter⟩ := ih hrest
          refine ⟨z :: before, after, rfl, fun y hy => ?_, hafter⟩
          rcases List.mem_cons.1 hy with rfl | hy
          · exact hlt
          · exact hbefore y hy
        · rename_i hlt
          obtain rfl := Option.some.inj h
          refine ⟨[], xs, rfl, fun y hy => absurd hy List.not_mem_nil, fun y hy => ?_⟩
          exact le_trans ((firstMax_best hrest).2 y hy) (not_lt.1 hlt)
  · rintro ⟨before, after, rfl, hbefore, hafter⟩
    exact firstMax_append_of_lt (firstMax_cons_of_best hafter) hbefore

/-! ### Lists in another order -/

theorem Best.perm (h : Best score xs x) (hp : xs.Perm ys) : Best score ys x :=
  ⟨hp.mem_iff.1 h.1, fun y hy => h.2 y (hp.mem_iff.2 hy)⟩

theorem Best.score_eq (hx : Best score xs x) (hy : Best score xs y) : score x = score y :=
  le_antisymm (hy.2 x hx.1) (hx.2 y hy.1)

/-- Two orders of a list: the first of the greatest are best in both. -/
theorem firstMax_perm (hp : xs.Perm ys) (hx : firstMax score xs = some x) :
    ∃ y, firstMax score ys = some y ∧ Best score xs y ∧ score y = score x := by
  cases hy : firstMax score ys with
  | none =>
    obtain rfl := firstMax_eq_none.1 hy
    rw [hp.eq_nil] at hx
    exact nomatch hx
  | some y =>
    have hbest := (firstMax_best hy).perm hp.symm
    exact ⟨y, rfl, hbest, hbest.score_eq (firstMax_best hx)⟩

/-- **Order does not matter** for what the best elements agree on. -/
theorem firstMax_bind_eq {f : α → Option β} (hp : xs.Perm ys)
    (h : ∀ x y, Best score xs x → Best score xs y → f x = f y) :
    (firstMax score xs).bind f = (firstMax score ys).bind f := by
  cases hx : firstMax score xs with
  | none =>
    obtain rfl := firstMax_eq_none.1 hx
    obtain rfl : ys = [] := hp.nil_eq.symm
    rfl
  | some x =>
    obtain ⟨y, hy, hbest, -⟩ := firstMax_perm hp hx
    rw [hy]
    exact h x y (firstMax_best hx) hbest

/-! ### The loop -/

theorem foldl_better (best : K × Option α) :
    xs.foldl (better score) best =
      match firstMax score xs with
      | none => best
      | some x => if best.1 < score x then (score x, some x) else best := by
  induction xs generalizing best with
  | nil => rfl
  | cons z xs ih =>
    rw [List.foldl_cons, ih, firstMax, better]
    cases hrest : firstMax score xs with
    | none => rfl
    | some y =>
      -- does the head beat the score to beat, and the rest the head?
      by_cases hz : best.1 < score z
      · rw [if_pos hz]
        by_cases hzy : score z < score y
        · simp [hzy, lt_trans hz hzy]
        · simp [hzy, hz]
      · rw [if_neg hz]
        by_cases hzy : score z < score y
        · simp [hzy]
        · have hy : ¬ best.1 < score y := fun h => hz (lt_of_lt_of_le h (not_lt.1 hzy))
          simp [hzy, hz, hy]

/-- **The loop finds the first of the greatest**, if it beats the score to beat. -/
theorem scan_eq (lo : K) :
    scan score lo xs = match firstMax score xs with
      | none => (lo, none)
      | some x => if lo < score x then (score x, some x) else (lo, none) :=
  foldl_better (lo, none)

end FirstMax
