import Mathlib.Data.List.Infix

/-! # Runs of a step function, and runs that meet a guard

A deterministic system is a step function `step : σ → α → σ`; a run is a list of
actions.  `Guarded step G s as` says that every action of `as` meets the guard `G`
in the state it is taken in, and `Always step P s as` that `P` holds in every state
the run passes through, the first one included.

The rules are the usual ones: an invariant is checked on one step and holds of
every run (`Guarded.invariant`, `Guarded.always`), and when one step keeps `P`
**exactly** when it meets the guard, the guarded runs are exactly the runs on which
`P` always holds (`always_iff_guarded`).
-/
namespace Run
variable {σ α : Type} (step : σ → α → σ)

/-- The state a run ends in. -/
def exec (s : σ) (as : List α) : σ := as.foldl step s

/-- Every action of the run meets the guard in the state it is taken in. -/
def Guarded (G : σ → α → Prop) : σ → List α → Prop
  | _, [] => True
  | s, a :: as => G s a ∧ Guarded G (step s a) as

/-- `P` holds in every state of the run. -/
def Always (P : σ → Prop) (s : σ) (as : List α) : Prop :=
  ∀ pre, pre <+: as → P (exec step s pre)

instance {G : σ → α → Prop} [∀ s a, Decidable (G s a)] :
    ∀ (s : σ) (as : List α), Decidable (Guarded step G s as)
  | _, [] => isTrue trivial
  | s, a :: as =>
      have := instDecidableGuarded (G := G) (step s a) as
      inferInstanceAs (Decidable (G s a ∧ Guarded step G (step s a) as))

variable {step}

@[simp] theorem exec_nil (s : σ) : exec step s [] = s := rfl

@[simp] theorem exec_cons (s : σ) (a : α) (as : List α) :
    exec step s (a :: as) = exec step (step s a) as := rfl

theorem exec_append (s : σ) (as bs : List α) :
    exec step s (as ++ bs) = exec step (exec step s as) bs :=
  List.foldl_append

theorem exec_concat (s : σ) (as : List α) (a : α) :
    exec step s (as ++ [a]) = step (exec step s as) a := by
  rw [exec_append]; rfl

theorem guarded_append {G : σ → α → Prop} {s : σ} {as bs : List α} :
    Guarded step G s (as ++ bs) ↔ Guarded step G s as ∧ Guarded step G (exec step s as) bs := by
  induction as generalizing s with
  | nil => simp [Guarded]
  | cons a as ih => simp [Guarded, ih, and_assoc]

/-- A prefix of a guarded run is guarded. -/
theorem Guarded.of_prefix {G : σ → α → Prop} {s : σ} {as pre : List α}
    (h : Guarded step G s as) (hp : pre <+: as) : Guarded step G s pre := by
  obtain ⟨rest, rfl⟩ := hp
  exact (guarded_append.mp h).1

/-- A guard that only looks at the action. -/
theorem guarded_of_forall {V : α → Prop} {s : σ} {as : List α} (h : ∀ a ∈ as, V a) :
    Guarded step (fun _ a => V a) s as := by
  induction as generalizing s with
  | nil => trivial
  | cons a as ih => exact ⟨h a List.mem_cons_self, ih fun b hb => h b (List.mem_cons_of_mem _ hb)⟩

theorem Guarded.mono {G H : σ → α → Prop} (hGH : ∀ s a, G s a → H s a) {s : σ} {as : List α}
    (h : Guarded step G s as) : Guarded step H s as := by
  induction as generalizing s with
  | nil => trivial
  | cons a as ih => exact ⟨hGH s a h.1, ih h.2⟩

theorem guarded_and {G H : σ → α → Prop} {s : σ} {as : List α} :
    Guarded step (fun s a => G s a ∧ H s a) s as ↔ Guarded step G s as ∧ Guarded step H s as := by
  induction as generalizing s with
  | nil => simp [Guarded]
  | cons a as ih =>
    simp only [Guarded, ih]
    exact and_and_and_comm

/-- **The invariant rule**: what every guarded step keeps, every guarded run keeps. -/
theorem Guarded.invariant {G : σ → α → Prop} {I : σ → Prop}
    (hstep : ∀ s a, I s → G s a → I (step s a)) {s : σ} {as : List α}
    (hs : I s) (h : Guarded step G s as) : I (exec step s as) := by
  induction as generalizing s with
  | nil => exact hs
  | cons a as ih => exact ih (hstep s a hs h.1) h.2

/-- What every step keeps, every run keeps. -/
theorem exec_invariant {I : σ → Prop} (hstep : ∀ s a, I s → I (step s a)) {s : σ}
    (hs : I s) (as : List α) : I (exec step s as) := by
  induction as generalizing s with
  | nil => exact hs
  | cons a as ih => exact ih (hstep s a hs)

/-- The invariant rule, for every state the run passes through. -/
theorem Guarded.always {G : σ → α → Prop} {I P : σ → Prop}
    (hstep : ∀ s a, I s → G s a → I (step s a)) (hP : ∀ s, I s → P s) {s : σ} {as : List α}
    (hs : I s) (h : Guarded step G s as) : Always step P s as :=
  fun _ hp => hP _ ((h.of_prefix hp).invariant hstep hs)

theorem Always.tail {P : σ → Prop} {s : σ} {a : α} {as : List α}
    (h : Always step P s (a :: as)) : Always step P (step s a) as :=
  fun pre hp => h (a :: pre) (List.cons_prefix_cons.mpr ⟨rfl, hp⟩)

/-- **Exact guards.**  If, from states that satisfy the standing invariant `J`, a
step keeps `P` exactly when it meets the guard, then `P` holds throughout a run
exactly when the run is guarded. -/
theorem always_iff_guarded {G : σ → α → Prop} {J P : σ → Prop}
    (hJ : ∀ s a, J s → P s → G s a → J (step s a))
    (hstep : ∀ s a, J s → P s → (P (step s a) ↔ G s a)) {s : σ} {as : List α}
    (hs : J s) (hp : P s) : Always step P s as ↔ Guarded step G s as := by
  induction as generalizing s with
  | nil =>
    refine ⟨fun _ => trivial, fun _ pre hpre => ?_⟩
    rw [List.prefix_nil.mp hpre]
    exact hp
  | cons a as ih =>
    constructor
    · intro h
      have hnext : P (step s a) := h [a] ⟨as, rfl⟩
      have hg := (hstep s a hs hp).mp hnext
      exact ⟨hg, (ih (hJ s a hs hp hg) hnext).mp h.tail⟩
    · rintro ⟨hg, hrest⟩ pre hpre
      have hnext := (hstep s a hs hp).mpr hg
      cases pre with
      | nil => exact hp
      | cons b pre =>
        obtain ⟨rfl, hpre'⟩ := List.cons_prefix_cons.mp hpre
        exact (ih (hJ s b hs hp hg) hnext).mpr hrest pre hpre'

/-- If a valid step ends in `P` exactly when it starts in `P` and meets the guard, a valid run
ends in `P` exactly when it starts in `P` and is guarded. -/
theorem exec_iff_guarded_of_valid {V G : σ → α → Prop} {I P : σ → Prop}
    (hI : ∀ s a, I s → V s a → I (step s a))
    (hstep : ∀ s a, I s → V s a → (P (step s a) ↔ P s ∧ G s a)) {s : σ} {as : List α} (hs : I s)
    (hv : Guarded step V s as) : P (exec step s as) ↔ P s ∧ Guarded step G s as := by
  induction as generalizing s with
  | nil => exact ⟨fun h => ⟨h, trivial⟩, And.left⟩
  | cons a as ih =>
    rw [exec_cons, ih (hI s a hs hv.1) hv.2, hstep s a hs hv.1]
    exact and_assoc

/-- If a step ends in `P` exactly when it starts in `P` and meets the guard, a run ends in
`P` exactly when it starts in `P` and is guarded. -/
theorem exec_iff_guarded {G : σ → α → Prop} {I P : σ → Prop}
    (hI : ∀ s a, I s → I (step s a)) (hstep : ∀ s a, I s → (P (step s a) ↔ P s ∧ G s a)) {s : σ}
    {as : List α} (hs : I s) : P (exec step s as) ↔ P s ∧ Guarded step G s as :=
  exec_iff_guarded_of_valid (V := fun _ _ => True) (fun s a h _ => hI s a h)
    (fun s a h _ => hstep s a h) hs (guarded_of_forall fun _ _ => trivial)

/-- Two guards that agree wherever the invariant holds and the run is valid let the same
valid runs through, if the invariant survives the steps they let through. -/
theorem guarded_iff_guarded {V G H : σ → α → Prop} {I : σ → Prop}
    (hstep : ∀ s a, I s → V s a → H s a → I (step s a))
    (hiff : ∀ s a, I s → V s a → (G s a ↔ H s a)) {s : σ} {as : List α}
    (hs : I s) (hv : Guarded step V s as) : Guarded step G s as ↔ Guarded step H s as := by
  induction as generalizing s with
  | nil => exact Iff.rfl
  | cons a as ih =>
    have hhead := hiff s a hs hv.1
    constructor
    · rintro ⟨hg, hrest⟩
      have hh := hhead.mp hg
      exact ⟨hh, (ih (hstep s a hs hv.1 hh) hv.2).mp hrest⟩
    · rintro ⟨hh, hrest⟩
      exact ⟨hhead.mpr hh, (ih (hstep s a hs hv.1 hh) hv.2).mpr hrest⟩

end Run
