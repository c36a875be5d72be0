import Mathlib.Init

/-! # Computations with state and exceptions

An `Eff ε σ α` reads and writes a state `σ` and returns an `α` or raises an `ε`.  The
state survives an exception, as an object survives the method that raised.

`Spec P x Q R` is a triple with two postconditions: from a state with `P`, a return
satisfies `Q` and a raise satisfies `R`.  The rules follow the constructors, so that
the proof of a triple follows the text of the program; `Frames` says that a
computation leaves a part of the state alone, however it ends.
-/

/-- A computation over a state `σ` that may raise an `ε`. -/
def Eff (ε σ α : Type) : Type := σ → Except ε α × σ

namespace Eff
variable {ε σ τ γ α β : Type}

instance : Monad (Eff ε σ) where
  pure a := fun s => (.ok a, s)
  bind x f := fun s => match x s with
    | (.ok a, s') => f a s'
    | (.error e, s') => (.error e, s')

/-- Return or raise without touching the state. -/
def lift (x : Except ε α) : Eff ε σ α := fun s => (x, s)

theorem lift_ok_bind (a : α) (f : α → Eff ε σ β) : lift (.ok a) >>= f = f a := rfl

theorem bind_of_ok {x : Eff ε σ α} {s s' : σ} {a : α} (h : x s = (.ok a, s'))
    (f : α → Eff ε σ β) : (x >>= f) s = f a s' := by
  show (match x s with
    | (.ok a, s') => f a s'
    | (.error e, s') => (.error e, s')) = f a s'
  rw [h]

theorem bind_of_error {x : Eff ε σ α} {s s' : σ} {e : ε} (h : x s = (.error e, s'))
    (f : α → Eff ε σ β) : (x >>= f) s = (.error e, s') := by
  show (match x s with
    | (.ok a, s') => f a s'
    | (.error e, s') => (.error e, s')) = (.error e, s')
  rw [h]

/-- Change the state. -/
def modify (f : σ → σ) : Eff ε σ Unit := fun s => (.ok (), f s)

/-- Run `x`, and `handler` on the exception it raises. -/
def catching (x : Eff ε σ α) (handler : ε → Eff ε σ α) : Eff ε σ α := fun s => match x s with
  | (.ok a, s') => (.ok a, s')
  | (.error e, s') => handler e s'

/-- Run `x` on a part of the state. -/
def zoom (get : σ → τ) (set : σ → τ → σ) (x : Eff ε τ α) : Eff ε σ α := fun s =>
  let r := x (get s)
  (r.1, set s r.2)

/-! ### Two postconditions -/

/-- A return with `Q`, or a raise with `R`. -/
def Ends (Q : α → σ → Prop) (R : ε → σ → Prop) : Except ε α × σ → Prop
  | (.ok a, s) => Q a s
  | (.error e, s) => R e s

@[simp] theorem ends_ok {Q : α → σ → Prop} {R : ε → σ → Prop} {a : α} {s : σ} :
    Ends Q R (.ok a, s) ↔ Q a s := Iff.rfl

@[simp] theorem ends_error {Q : α → σ → Prop} {R : ε → σ → Prop} {e : ε} {s : σ} :
    Ends Q R (.error e, s) ↔ R e s := Iff.rfl

/-- From a state with `P`, a return satisfies `Q` and a raise satisfies `R`. -/
def Spec (P : σ → Prop) (x : Eff ε σ α) (Q : α → σ → Prop) (R : ε → σ → Prop) : Prop :=
  ∀ s, P s → Ends Q R (x s)

variable {P P' : σ → Prop} {Q : α → σ → Prop} {Q' : β → σ → Prop} {R R' : ε → σ → Prop}
  {x : Eff ε σ α} {f : α → Eff ε σ β}

theorem spec_true : Spec P x (fun _ _ => True) (fun _ _ => True) := by
  intro s _
  match x s with
  | (.ok _, _) => trivial
  | (.error _, _) => trivial

theorem spec_pure {a : α} (h : ∀ s, P s → Q a s) : Spec P (pure a : Eff ε σ α) Q R :=
  fun s hs => h s hs

theorem spec_lift {x : Except ε α} (hok : ∀ a, x = .ok a → ∀ s, P s → Q a s)
    (herr : ∀ e, x = .error e → ∀ s, P s → R e s) : Spec P (lift x) Q R := by
  intro s hs
  cases x with
  | ok a => exact hok a rfl s hs
  | error e => exact herr e rfl s hs

theorem spec_modify {g : σ → σ} {Q : Unit → σ → Prop} (h : ∀ s, P s → Q () (g s)) :
    Spec P (modify g : Eff ε σ Unit) Q R :=
  fun s hs => h s hs

/-- **Sequencing**: the second part starts where the first returned; a raise of either
is a raise of the whole. -/
theorem Spec.bind (hx : Spec P x Q R) (hf : ∀ a, Spec (Q a) (f a) Q' R) :
    Spec P (x >>= f) Q' R := by
  intro s hs
  have hxs := hx s hs
  change Ends Q' R (match x s with
    | (.ok a, s') => f a s'
    | (.error e, s') => (.error e, s'))
  match h : x s with
  | (.ok a, s') =>
    rw [h] at hxs
    exact hf a s' hxs
  | (.error e, s') =>
    rw [h] at hxs
    exact hxs

/-- A lifted value is known to the rest of the computation. -/
theorem spec_lift_bind {x : Except ε α} (hf : ∀ a, x = .ok a → Spec P (f a) Q' R)
    (herr : ∀ e, x = .error e → ∀ s, P s → R e s) : Spec P (lift x >>= f) Q' R := by
  intro s hs
  cases x with
  | ok a => exact hf a rfl s hs
  | error e => exact herr e rfl s hs

theorem spec_ite {c : Prop} [Decidable c] {x y : Eff ε σ α} (hx : c → Spec P x Q R)
    (hy : ¬ c → Spec P y Q R) : Spec P (if c then x else y) Q R := by
  split
  · exact hx (by assumption)
  · exact hy (by assumption)

/-- **Handling**: the handler starts where the exception left the state. -/
theorem Spec.catching {handler : ε → Eff ε σ α} (hx : Spec P x Q R)
    (hh : ∀ e, Spec (R e) (handler e) Q R') : Spec P (x.catching handler) Q R' := by
  intro s hs
  have hxs := hx s hs
  unfold Eff.catching
  match h : x s with
  | (.ok a, s') =>
    rw [h] at hxs
    exact hxs
  | (.error e, s') =>
    rw [h] at hxs
    exact hh e s' hxs

theorem Spec.weaken {Q₁ : α → σ → Prop} {R₁ : ε → σ → Prop} (h : Spec P x Q R)
    (hP : ∀ s, P' s → P s) (hQ : ∀ a s, Q a s → Q₁ a s) (hR : ∀ e s, R e s → R₁ e s) :
    Spec P' x Q₁ R₁ := by
  intro s hs
  have hxs := h s (hP s hs)
  match hx : x s with
  | (.ok a, s') =>
    rw [hx] at hxs
    exact hQ a s' hxs
  | (.error e, s') =>
    rw [hx] at hxs
    exact hR e s' hxs

/-- Two triples of one computation hold together. -/
theorem Spec.conj {Q₁ : α → σ → Prop} {R₁ : ε → σ → Prop} (h : Spec P x Q R)
    (h₁ : Spec P x Q₁ R₁) :
    Spec P x (fun a s => Q a s ∧ Q₁ a s) (fun e s => R e s ∧ R₁ e s) := by
  intro s hs
  have hxs := h s hs
  have hxs₁ := h₁ s hs
  match hx : x s with
  | (.ok a, s') =>
    rw [hx] at hxs hxs₁
    exact ⟨hxs, hxs₁⟩
  | (.error e, s') =>
    rw [hx] at hxs hxs₁
    exact ⟨hxs, hxs₁⟩

/-! ### Frames -/

/-- However `x` ends, it leaves `part` of the state as it was. -/
def Frames (part : σ → γ) (x : Eff ε σ α) : Prop := ∀ s, part (x s).2 = part s

variable {part : σ → γ}

theorem frames_pure (a : α) : Frames part (pure a : Eff ε σ α) := fun _ => rfl

theorem frames_lift (x : Except ε α) : Frames part (lift x : Eff ε σ α) := fun _ => rfl

theorem frames_modify {g : σ → σ} (h : ∀ s, part (g s) = part s) :
    Frames part (modify g : Eff ε σ Unit) := h

theorem Frames.bind (hx : Frames part x) (hf : ∀ a, Frames part (f a)) :
    Frames part (x >>= f) := by
  intro s
  have hxs := hx s
  change part (match x s with
    | (.ok a, s') => f a s'
    | (.error e, s') => (.error e, s')).2 = part s
  match h : x s with
  | (.ok a, s') =>
    rw [h] at hxs
    exact (hf a s').trans hxs
  | (.error e, s') =>
    rw [h] at hxs
    exact hxs

theorem frames_ite {c : Prop} [Decidable c] {x y : Eff ε σ α} (hx : Frames part x)
    (hy : Frames part y) : Frames part (if c then x else y) := by
  split
  · exact hx
  · exact hy

/-- What depends only on the framed part is kept. -/
theorem Frames.spec {I : γ → Prop} (h : Frames part x) :
    Spec (fun s => I (part s)) x (fun _ s => I (part s)) (fun _ s => I (part s)) := by
  intro s hs
  have hxs := h s
  match hx : x s with
  | (.ok a, s') =>
    rw [hx] at hxs
    change I (part s')
    rwa [show part s' = part s from hxs]
  | (.error e, s') =>
    rw [hx] at hxs
    change I (part s')
    rwa [show part s' = part s from hxs]

/-! ### Computations that never raise -/

/-- From every state, `x` returns. -/
def Returns (x : Eff ε σ α) : Prop := ∀ s, ∃ a s', x s = (.ok a, s')

theorem returns_pure (a : α) : Returns (pure a : Eff ε σ α) := fun s => ⟨a, s, rfl⟩

theorem returns_lift {x : Except ε α} {a : α} (h : x = .ok a) : Returns (lift x : Eff ε σ α) :=
  fun s => ⟨a, s, by rw [h]; rfl⟩

theorem returns_modify (g : σ → σ) : Returns (modify g : Eff ε σ Unit) := fun s => ⟨(), g s, rfl⟩

theorem Returns.bind (hx : Returns x) (hf : ∀ a, Returns (f a)) : Returns (x >>= f) := by
  intro s
  obtain ⟨a, s', hxs⟩ := hx s
  obtain ⟨b, s'', hfs⟩ := hf a s'
  refine ⟨b, s'', ?_⟩
  change (match x s with
    | (.ok a, s') => f a s'
    | (.error e, s') => (.error e, s')) = _
  rw [hxs]
  exact hfs

theorem returns_ite {c : Prop} [Decidable c] {x y : Eff ε σ α} (hx : Returns x)
    (hy : Returns y) : Returns (if c then x else y) := by
  split
  · exact hx
  · exact hy

/-- A computation that returns and frames a part keeps what depends on the part. -/
theorem Returns.spec {I : γ → Prop} (hr : Returns x) (hf : Frames part x) :
    Spec (fun s => I (part s)) x (fun _ s => I (part s)) R := by
  intro s hs
  obtain ⟨a, s', hxs⟩ := hr s
  have hfs := hf s
  rw [hxs] at hfs ⊢
  change I (part s')
  rwa [show part s' = part s from hfs]

/-- A computation that returns keeps what does not depend on the state. -/
theorem Returns.spec_const {p : Prop} (hr : Returns x) :
    Spec (fun _ => p) x (fun _ _ => p) R := by
  intro s hs
  obtain ⟨a, s', hxs⟩ := hr s
  rw [hxs]
  exact hs

/-- A triple of the part, run inside the whole. -/
theorem Spec.zoom {get : σ → τ} {set : σ → τ → σ} (hset : ∀ s t, get (set s t) = t)
    {x : Eff ε τ α} {P : τ → Prop} {Q : α → τ → Prop} {R : ε → τ → Prop} (h : Spec P x Q R) :
    Spec (fun s => P (get s)) (x.zoom get set) (fun a s => Q a (get s)) (fun e s => R e (get s)) := by
  intro s hs
  have hxs := h (get s) hs
  unfold Eff.zoom
  match hx : x (get s) with
  | (.ok a, t) =>
    rw [hx] at hxs
    change Q a (get (set s t))
    rw [hset]
    exact hxs
  | (.error e, t) =>
    rw [hx] at hxs
    change R e (get (set s t))
    rw [hset]
    exact hxs

/-! ### Computations that end as plain ones do -/

variable {δ : Type} {f : α → δ} {k : β → Eff ε σ α} {w : Eff ε σ β} {y : Except ε δ}

/-- From every state, `x` ends as the plain `y` does; of what it returns, only `f` counts. -/
def EndsAs (f : α → δ) (x : Eff ε σ α) (y : Except ε δ) : Prop := ∀ s, (x s).1.map f = y

theorem endsAs_pure (f : α → δ) (a : α) : EndsAs f (pure a : Eff ε σ α) (.ok (f a)) := fun _ => rfl

theorem Returns.endsAs {x : Eff ε σ α} (h : Returns x) (b : δ) : EndsAs (fun _ => b) x (.ok b) := by
  intro s
  obtain ⟨a, s', hrun⟩ := h s
  rw [hrun]
  rfl

theorem endsAs_lift_bind {x : Except ε β} {k' : β → Except ε δ}
    (h : ∀ b, x = .ok b → EndsAs f (k b) (k' b)) : EndsAs f (lift x >>= k) (x >>= k') := by
  intro s
  cases x with
  | ok b => exact h b rfl s
  | error e => rfl

/-- Computations in sequence end as plain ones in sequence. -/
theorem EndsAs.bind {g : β → γ} {x : Except ε γ} {k' : γ → Except ε δ} (hw : EndsAs g w x)
    (h : ∀ b, EndsAs f (k b) (k' (g b))) : EndsAs f (w >>= k) (x >>= k') := by
  intro s
  have hws := hw s
  match hrun : w s with
  | (.ok b, s') =>
    rw [hrun] at hws
    rw [bind_of_ok hrun, ← hws]
    exact h b s'
  | (.error e, s') =>
    rw [hrun] at hws
    rw [bind_of_error hrun, ← hws]
    rfl

/-- What returns and then is forgotten does not count. -/
theorem Returns.endsAs_bind (hw : Returns w) (h : ∀ b, EndsAs f (k b) y) :
    EndsAs f (w >>= k) y := by
  intro s
  obtain ⟨b, s', hrun⟩ := hw s
  rw [bind_of_ok hrun]
  exact h b s'

/-- What runs after the result is known does not count, if it returns. -/
theorem EndsAs.afterwards {x : Eff ε σ α} (hx : EndsAs f x y) (hw : Returns w) :
    EndsAs f (x >>= fun a => w >>= fun _ => pure a) y := by
  intro s
  have hxs := hx s
  match hrun : x s with
  | (.ok a, s') =>
    rw [hrun] at hxs
    obtain ⟨b, s'', hrun'⟩ := hw s'
    rw [bind_of_ok hrun, bind_of_ok hrun', ← hxs]
    rfl
  | (.error e, s') =>
    rw [hrun] at hxs
    rw [bind_of_error hrun, ← hxs]

theorem endsAs_ite {c : Prop} [Decidable c] {x x' : Eff ε σ α} {y' : Except ε δ}
    (hx : c → EndsAs f x y) (hx' : ¬ c → EndsAs f x' y') :
    EndsAs f (if c then x else x') (if c then y else y') := by
  split
  · exact hx (by assumption)
  · exact hx' (by assumption)

theorem EndsAs.catching {handler : ε → Eff ε σ α} {x : Eff ε σ α} {z : Except ε δ}
    (hx : EndsAs f x y) (hh : ∀ e, EndsAs f (handler e) z) :
    EndsAs f (x.catching handler) (y.tryCatch fun _ => z) := by
  intro s
  have hxs := hx s
  unfold Eff.catching
  match hrun : x s with
  | (.ok a, s') =>
    rw [hrun] at hxs
    rw [← hxs]
    rfl
  | (.error e, s') =>
    rw [hrun] at hxs
    rw [← hxs]
    exact hh e s'

/-- A computation that ends as a plain one returns what that one returns. -/
theorem EndsAs.returned {x : Eff ε σ α} (h : EndsAs f x y) {s s' : σ} {a : α}
    (hx : x s = (.ok a, s')) : y = .ok (f a) := by
  rw [← h s, hx]
  rfl

/-- A computation that ends as a plain one that returns, returns. -/
theorem EndsAs.returns {x : Eff ε σ α} {b : δ} (h : EndsAs f x (.ok b)) : Returns x := by
  intro s
  have hs := h s
  match hrun : x s with
  | (.ok a, s') => exact ⟨a, s', rfl⟩
  | (.error e, s') =>
    rw [hrun] at hs
    cases hs

/-- What a computation that ends as a plain one says of it, and what it frames. -/
theorem EndsAs.spec {x : Eff ε σ α} {I : γ → Prop} (h : EndsAs f x y) (hf : Frames part x) :
    Spec (fun s => I (part s)) x (fun a s => y = .ok (f a) ∧ I (part s))
      (fun _ s => (∀ b, y ≠ .ok b) ∧ I (part s)) := by
  intro s hs
  have hys := h s
  have hfs : part (x s).2 = part s := hf s
  match hrun : x s with
  | (.ok a, s') =>
    rw [hrun] at hys hfs
    rw [← hys]
    change _ ∧ I (part s')
    rw [show part s' = part s from hfs]
    exact ⟨rfl, hs⟩
  | (.error e, s') =>
    rw [hrun] at hys hfs
    rw [← hys]
    change _ ∧ I (part s')
    rw [show part s' = part s from hfs]
    exact ⟨nofun, hs⟩

end Eff
