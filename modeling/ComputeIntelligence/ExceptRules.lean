/-! # Partial correctness for `Except`

`x.Ensures Q` says that every result `x` returns satisfies `Q`; it says nothing about
an `x` that raises.  The rules follow the shape of a `do` block: what is ensured of
the last statement is ensured of the block, whatever the earlier ones return.  Where the
earlier results matter, `bind_eq_ok` takes a block apart.

`Agree R x y` is the same for two runs: whatever both return is related by `R`.
-/
namespace Except
variable {ε α β γ δ : Type} {Q : β → Prop} {R : β → γ → Prop}

/-- Every returned result satisfies `Q`. -/
def Ensures (x : Except ε β) (Q : β → Prop) : Prop := ∀ r, x = .ok r → Q r

/-- A block that returns: its first statement returned, and so did the rest. -/
theorem bind_eq_ok {x : Except ε α} {f : α → Except ε β} {b : β} (h : (x >>= f) = .ok b) :
    ∃ a, x = .ok a ∧ f a = .ok b := by
  cases x with
  | error e => cases h
  | ok a => exact ⟨a, rfl, h⟩

theorem ensures_bind {x : Except ε α} {f : α → Except ε β} (h : ∀ a, (f a).Ensures Q) :
    (x >>= f).Ensures Q := by
  intro r hr
  cases x with
  | error e => cases hr
  | ok a => exact h a r hr

/-- The rule that remembers what the first statement returned. -/
theorem ensures_bind_ok {x : Except ε α} {f : α → Except ε β}
    (h : ∀ a, x = .ok a → (f a).Ensures Q) : (x >>= f).Ensures Q := by
  intro r hr
  obtain ⟨a, ha, hr⟩ := bind_eq_ok hr
  exact h a ha r hr

theorem ensures_ok {b : β} (h : Q b) : (Except.ok b : Except ε β).Ensures Q := by
  intro r hr
  cases hr
  exact h

theorem ensures_error {e : ε} : (Except.error e : Except ε β).Ensures Q := by
  intro r hr
  cases hr

theorem ensures_ite {c : Prop} [Decidable c] {x y : Except ε β} (hx : x.Ensures Q)
    (hy : y.Ensures Q) : (if c then x else y).Ensures Q := by
  split
  · exact hx
  · exact hy

/-- The rule that remembers which branch is taken. -/
theorem ensures_if {c : Prop} [Decidable c] {x y : Except ε β} (hx : c → x.Ensures Q)
    (hy : ¬c → y.Ensures Q) : (if c then x else y).Ensures Q := by
  split
  · next h => exact hx h
  · next h => exact hy h

theorem Ensures.imp {P : β → Prop} {x : Except ε β} (h : x.Ensures P) (hPQ : ∀ b, P b → Q b) :
    x.Ensures Q :=
  fun r hr => hPQ r (h r hr)

theorem Ensures.map {x : Except ε α} {f : α → β} (h : x.Ensures fun a => Q (f a)) :
    (x.map f).Ensures Q := by
  intro r hr
  cases x with
  | error e => cases hr
  | ok a =>
    cases hr
    exact h a rfl

/-! ### Two runs -/

/-- Whatever both runs return is related by `R`. -/
def Agree (R : β → γ → Prop) (x : Except ε β) (y : Except ε γ) : Prop :=
  ∀ b c, x = .ok b → y = .ok c → R b c

theorem agree_bind {x : Except ε α} {y : Except ε δ} {f : α → Except ε β} {g : δ → Except ε γ}
    (h : ∀ a d, Agree R (f a) (g d)) : Agree R (x >>= f) (y >>= g) := by
  intro b c hb hc
  obtain ⟨a, -, hb⟩ := bind_eq_ok hb
  obtain ⟨d, -, hc⟩ := bind_eq_ok hc
  exact h a d b c hb hc

/-- Two blocks that begin with the same statement. -/
theorem agree_bind_same {x : Except ε α} {f : α → Except ε β} {g : α → Except ε γ}
    (h : ∀ a, Agree R (f a) (g a)) : Agree R (x >>= f) (x >>= g) := by
  intro b c hb hc
  cases x with
  | error e => cases hb
  | ok a => exact h a b c hb hc

theorem agree_ite {p : Prop} [Decidable p] {x x' : Except ε β} {y y' : Except ε γ}
    (h : Agree R x y) (h' : Agree R x' y') :
    Agree R (if p then x else x') (if p then y else y') := by
  split
  · exact h
  · exact h'

theorem agree_ok {b : β} {c : γ} (h : R b c) :
    Agree R (Except.ok b : Except ε β) (Except.ok c) := by
  intro b' c' hb hc
  cases hb
  cases hc
  exact h

theorem agree_error {e : ε} {y : Except ε γ} : Agree R (Except.error e : Except ε β) y := by
  intro b c hb
  cases hb

theorem Agree.map {x : Except ε α} {y : Except ε δ} {f : α → β} {g : δ → γ}
    (h : Agree (fun a d => R (f a) (g d)) x y) : Agree R (x.map f) (y.map g) := by
  intro b c hb hc
  cases x with
  | error e => cases hb
  | ok a =>
    cases y with
    | error e => cases hc
    | ok d =>
      cases hb
      cases hc
      exact h a d rfl rfl

/-! ### Loops -/

/-- Every result of a loop is that of one of its calls. -/
theorem mem_of_mapM {f : α → Except ε β} {xs : List α} {ys : List β} (h : xs.mapM f = .ok ys) :
    ∀ y ∈ ys, ∃ x ∈ xs, f x = .ok y := by
  induction xs generalizing ys with
  | nil =>
    obtain rfl := Except.ok.inj h
    exact fun y hy => absurd hy List.not_mem_nil
  | cons x xs ih =>
    rw [List.mapM_cons] at h
    obtain ⟨y, hy, h⟩ := bind_eq_ok h
    obtain ⟨rest, hrest, h⟩ := bind_eq_ok h
    obtain rfl := Except.ok.inj h
    intro z hz
    rcases List.mem_cons.1 hz with rfl | hz
    · exact ⟨x, List.mem_cons_self, hy⟩
    · obtain ⟨w, hw, hfw⟩ := ih hrest z hz
      exact ⟨w, List.mem_cons_of_mem x hw, hfw⟩

/-- Every call of a loop that returns has its result among the loop's. -/
theorem exists_of_mapM {f : α → Except ε β} {xs : List α} {ys : List β} (h : xs.mapM f = .ok ys) :
    ∀ x ∈ xs, ∃ y ∈ ys, f x = .ok y := by
  induction xs generalizing ys with
  | nil => exact fun x hx => absurd hx List.not_mem_nil
  | cons x xs ih =>
    rw [List.mapM_cons] at h
    obtain ⟨y, hy, h⟩ := bind_eq_ok h
    obtain ⟨rest, hrest, h⟩ := bind_eq_ok h
    obtain rfl := Except.ok.inj h
    intro x' hx'
    rcases List.mem_cons.1 hx' with rfl | htail
    · exact ⟨y, List.mem_cons_self, hy⟩
    · obtain ⟨y', hmem, hy'⟩ := ih hrest x' htail
      exact ⟨y', List.mem_cons_of_mem _ hmem, hy'⟩

/-- A loop whose every call returns, and what is seen of its results. -/
theorem mapM_returns {γ : Type} {f : α → Except ε β} {u : α → γ} {v : β → γ} {xs : List α}
    (h : ∀ x ∈ xs, ∃ y, f x = .ok y ∧ v y = u x) :
    ∃ ys, xs.mapM f = .ok ys ∧ ys.map v = xs.map u := by
  induction xs with
  | nil => exact ⟨[], rfl, rfl⟩
  | cons x xs ih =>
    obtain ⟨y, hy, hv⟩ := h x List.mem_cons_self
    obtain ⟨ys, hys, hvs⟩ := ih fun x hx => h x (List.mem_cons_of_mem _ hx)
    refine ⟨y :: ys, ?_, by rw [List.map_cons, List.map_cons, hv, hvs]⟩
    rw [List.mapM_cons, hy, hys]
    rfl

end Except
