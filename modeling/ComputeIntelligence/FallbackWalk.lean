/-! # Walks with a fallback

A walk over a list in which each element either decides the answer, by returning or by
raising, or goes on, perhaps leaving a fallback behind.  The first element that decides
ends the walk; when none does, the answer is the last fallback.

The main result says exactly when one element of a walk can be exchanged for another
without the answer changing, if neither of the two decides with a value of its own.
-/
namespace FallbackWalk
variable {ε β : Type}

/-- What one element of a walk does. -/
inductive Verdict (ε β : Type) where
  /-- Go on, with a new fallback or with the old one. -/
  | next (fallback : Option β)
  /-- End the walk. -/
  | stop (answer : Except ε β)

/-- The walk, from the fallback in force at its start. -/
def walk : List (Verdict ε β) → β → Except ε β
  | [], held => .ok held
  | .next fallback :: rest, held => walk rest (fallback.getD held)
  | .stop answer :: _, _ => answer

/-- The answer of the first element that decides. -/
def decision : List (Verdict ε β) → Option (Except ε β)
  | [] => none
  | .next _ :: rest => decision rest
  | .stop answer :: _ => some answer

/-- The last fallback of a walk, ignoring the elements that decide. -/
def lastFallback : List (Verdict ε β) → Option β
  | [] => none
  | .next fallback :: rest => (lastFallback rest).or fallback
  | .stop _ :: rest => lastFallback rest

theorem walk_of_decision {vs : List (Verdict ε β)} {answer : Except ε β}
    (h : decision vs = some answer) (held : β) : walk vs held = answer := by
  induction vs generalizing held with
  | nil => cases h
  | cons v vs ih =>
    cases v with
    | next fallback => exact ih h _
    | stop r => exact Option.some.inj h

theorem walk_of_no_decision {vs : List (Verdict ε β)} (h : decision vs = none) (held : β) :
    walk vs held = .ok ((lastFallback vs).getD held) := by
  induction vs generalizing held with
  | nil => rfl
  | cons v vs ih =>
    cases v with
    | next fallback =>
      rw [walk, ih h, lastFallback]
      cases lastFallback vs <;> rfl
    | stop r => cases h

theorem walk_append_of_decision {us : List (Verdict ε β)} {answer : Except ε β}
    (h : decision us = some answer) (vs : List (Verdict ε β)) (held : β) :
    walk (us ++ vs) held = answer := by
  induction us generalizing held with
  | nil => cases h
  | cons u us ih =>
    cases u with
    | next fallback => exact ih h _
    | stop r => exact Option.some.inj h

theorem walk_append_of_no_decision {us : List (Verdict ε β)} (h : decision us = none)
    (vs : List (Verdict ε β)) (held : β) :
    walk (us ++ vs) held = walk vs ((lastFallback us).getD held) := by
  induction us generalizing held with
  | nil => rfl
  | cons u us ih =>
    cases u with
    | next fallback =>
      rw [List.cons_append, walk, ih h, lastFallback]
      cases lastFallback us <;> rfl
    | stop r => cases h

/-- What an element shows that never decides with a value: nothing, a fallback, or the
error it raises. -/
def shown : Except ε (Option β) → Verdict ε β
  | .ok fallback => .next fallback
  | .error e => .stop (.error e)

/-- Neither of two elements is noticed after the fallback `held` and before `rest`: they
leave the same fallback, or a later element decides or replaces it; an error is noticed
unless the same error is raised without it. -/
def Masked (held : β) (rest : List (Verdict ε β)) :
    Except ε (Option β) → Except ε (Option β) → Prop
  | .ok a, .ok b =>
      a.getD held = b.getD held ∨ decision rest ≠ none ∨ lastFallback rest ≠ none
  | .ok _, .error e => decision rest = some (.error e)
  | .error e, .ok _ => decision rest = some (.error e)
  | .error e, .error e' => e = e'

theorem walk_eq_error_iff {vs : List (Verdict ε β)} {held : β} {e : ε} :
    walk vs held = .error e ↔ decision vs = some (.error e) := by
  constructor
  · intro h
    rcases hd : decision vs with _ | answer
    · rw [walk_of_no_decision hd] at h
      cases h
    · rw [← h, walk_of_decision hd]
  · intro h
    exact walk_of_decision h held

/-- The start of a walk matters only where nothing in it decides or leaves a fallback. -/
theorem walk_eq_iff {vs : List (Verdict ε β)} {a b : β} :
    (walk vs a = walk vs b) ↔ a = b ∨ decision vs ≠ none ∨ lastFallback vs ≠ none := by
  rcases hd : decision vs with _ | answer
  · rw [walk_of_no_decision hd, walk_of_no_decision hd, Except.ok.injEq]
    cases lastFallback vs <;> simp
  · rw [walk_of_decision hd, walk_of_decision hd]
    simp

theorem masked_iff {held : β} {rest : List (Verdict ε β)} {u v : Except ε (Option β)} :
    walk (shown u :: rest) held = walk (shown v :: rest) held ↔ Masked held rest u v := by
  cases u with
  | ok a =>
    cases v with
    | ok b =>
      show walk rest (a.getD held) = walk rest (b.getD held) ↔ _
      exact walk_eq_iff
    | error e => exact walk_eq_error_iff
  | error e =>
    cases v with
    | ok b => exact eq_comm.trans walk_eq_error_iff
    | error e' =>
      show (Except.error e : Except ε β) = .error e' ↔ e = e'
      rw [Except.error.injEq]

/-- Exchanging an element is not noticed if and only if an earlier one decides, or the
exchange is masked. -/
theorem walk_exchange_iff {us vs : List (Verdict ε β)} {u v : Except ε (Option β)} {held : β} :
    walk (us ++ shown u :: vs) held = walk (us ++ shown v :: vs) held ↔
      decision us ≠ none ∨ Masked ((lastFallback us).getD held) vs u v := by
  rcases hd : decision us with _ | answer
  · rw [walk_append_of_no_decision hd, walk_append_of_no_decision hd, masked_iff]
    simp
  · rw [walk_append_of_decision hd, walk_append_of_decision hd]
    simp

/-- An element that is not there shows nothing. -/
theorem walk_absent (us vs : List (Verdict ε β)) (held : β) :
    walk (us ++ shown (.ok none) :: vs) held = walk (us ++ vs) held := by
  rcases hd : decision us with _ | answer
  · rw [walk_append_of_no_decision hd, walk_append_of_no_decision hd]
    rfl
  · rw [walk_append_of_decision hd, walk_append_of_decision hd]

end FallbackWalk
