import Mathlib.Data.List.TakeDrop
import Mathlib.Logic.Basic

/-! # Programs that talk with their surroundings

A `Dialogue ι ο ε` is a program that asks for inputs, says outputs, and in the end returns or
raises: a coroutine that is handed a `receive` and a `send`.  An input that is asked for may come
as an exception instead, which the program may handle; so a request has two continuations.

`run` plays a program against a list of answers and keeps the turns it took.  A program that asks
when the answers are used up is left `waiting`.

Two combinators stand for what wraps such a program.  `monitored` looks at each input with a state
of its own and may raise in place of handing it over; `catching` is `try … except` around the
whole.  What each does to a run is one equation: a monitored program runs as the bare one does on
the screened answers, and a caught exception goes on with its handler.
-/

/-- A program that talks with its surroundings. -/
inductive Dialogue (ι ο ε : Type) where
  | done
  | raise (e : ε)
  | say (message : ο) (next : Dialogue ι ο ε)
  | ask (next : ι → Dialogue ι ο ε) (caught : ε → Dialogue ι ο ε)

namespace Dialogue
variable {ι ο ε σ : Type}

/-- One turn of a run: an answer heard, or an output said. -/
inductive Turn (ο : Type) where
  | heard
  | said (message : ο)
deriving DecidableEq

/-- How a run ends. -/
inductive Ending (ε : Type) where
  | returned
  | raised (e : ε)
  | waiting
deriving DecidableEq

/-- A run: its turns, and how it ends. -/
structure Talk (ο ε : Type) where
  turns : List (Turn ο)
  ending : Ending ε
deriving DecidableEq

namespace Talk

/-- The outputs of a run. -/
def outputs (talk : Talk ο ε) : List ο :=
  talk.turns.filterMap fun turn => match turn with
    | .heard => none
    | .said message => some message

/-- How many answers a run has heard. -/
def heard (talk : Talk ο ε) : Nat :=
  (talk.turns.filter fun turn => match turn with
    | .heard => true
    | .said _ => false).length

/-- The run that takes these turns first. -/
def after (turns : List (Turn ο)) (talk : Talk ο ε) : Talk ο ε :=
  ⟨turns ++ talk.turns, talk.ending⟩

@[simp] theorem ending_after (turns : List (Turn ο)) (talk : Talk ο ε) :
    (talk.after turns).ending = talk.ending := rfl

@[simp] theorem turns_after (turns : List (Turn ο)) (talk : Talk ο ε) :
    (talk.after turns).turns = turns ++ talk.turns := rfl

@[simp] theorem heard_after_heard (talk : Talk ο ε) :
    (talk.after [.heard]).heard = talk.heard + 1 := by
  simp [heard]

@[simp] theorem heard_after_said (message : ο) (talk : Talk ο ε) :
    (talk.after [.said message]).heard = talk.heard := by
  simp [heard]

theorem after_after (first second : List (Turn ο)) (talk : Talk ο ε) :
    (talk.after second).after first = talk.after (first ++ second) := by
  simp [after]

end Talk

/-- Play the program against these answers. -/
def run : Dialogue ι ο ε → List (Except ε ι) → Talk ο ε
  | done, _ => ⟨[], .returned⟩
  | raise e, _ => ⟨[], .raised e⟩
  | say message next, answers => (next.run answers).after [.said message]
  | ask _ _, [] => ⟨[], .waiting⟩
  | ask next _, .ok input :: answers => ((next input).run answers).after [.heard]
  | ask _ caught, .error e :: answers => ((caught e).run answers).after [.heard]

/-- Only the answers heard count. -/
theorem run_congr {p : Dialogue ι ο ε} {answers others : List (Except ε ι)}
    (hlength : answers.length = others.length)
    (h : answers.take (p.run answers).heard = others.take (p.run answers).heard) :
    p.run others = p.run answers := by
  induction p generalizing answers others with
  | done => rfl
  | raise e => rfl
  | say message next ih =>
    rw [run, run, ih hlength (by simpa [run] using h)]
  | ask next caught ihnext ihcaught =>
    match answers, others, hlength with
    | [], [], _ => rfl
    | a :: answers, b :: others, hlength =>
      -- the first answer is heard, so it is the same one
      cases a with
      | ok input =>
        simp only [run, Talk.heard_after_heard, List.take_succ_cons, List.cons.injEq] at h
        rw [← h.1, run, run, ihnext input (by simpa using hlength) h.2]
      | error e =>
        simp only [run, Talk.heard_after_heard, List.take_succ_cons, List.cons.injEq] at h
        rw [← h.1, run, run, ihcaught e (by simpa using hlength) h.2]

/-- **The answers run out.**  A program plays against more answers as it did against the first of
them, and goes on only if it was left waiting. -/
theorem run_append_of_settled {p : Dialogue ι ο ε} {answers : List (Except ε ι)}
    (h : (p.run answers).ending ≠ .waiting) (more : List (Except ε ι)) :
    p.run (answers ++ more) = p.run answers := by
  induction p generalizing answers with
  | done => rfl
  | raise e => rfl
  | say message next ih => rw [run, run, ih h]
  | ask next caught ihnext ihcaught =>
    cases answers with
    | nil => exact absurd rfl h
    | cons answer answers =>
      cases answer with
      | ok input => rw [List.cons_append, run, run, ihnext input h]
      | error e => rw [List.cons_append, run, run, ihcaught e h]

/-! ### A monitor on the inputs -/

section
variable (monitor : σ → ι → σ × Option ε)

/-- The program behind a monitor that may raise in place of an input. -/
def monitored : σ → Dialogue ι ο ε → Dialogue ι ο ε
  | _, done => done
  | _, raise e => raise e
  | s, say message next => say message (monitored s next)
  | s, ask next caught => ask
      (fun input => match (monitor s input).2 with
        | none => monitored (monitor s input).1 (next input)
        | some e => monitored (monitor s input).1 (caught e))
      (fun e => monitored s (caught e))

/-- The answers as the program behind the monitor gets them. -/
def screened : σ → List (Except ε ι) → List (Except ε ι)
  | _, [] => []
  | s, .ok input :: answers =>
      (match (monitor s input).2 with
        | none => .ok input
        | some e => .error e) :: screened (monitor s input).1 answers
  | s, .error e :: answers => .error e :: screened s answers

variable {monitor}

@[simp] theorem length_screened (s : σ) (answers : List (Except ε ι)) :
    (screened monitor s answers).length = answers.length := by
  induction answers generalizing s with
  | nil => rfl
  | cons answer answers ih =>
    cases answer with
    | ok input => simp [screened, ih]
    | error e => simp [screened, ih]

/-- **A monitor is a screen on the answers.** -/
theorem run_monitored (p : Dialogue ι ο ε) (s : σ) (answers : List (Except ε ι)) :
    (p.monitored monitor s).run answers = p.run (screened monitor s answers) := by
  induction p generalizing s answers with
  | done => rfl
  | raise e => rfl
  | say message next ih => rw [monitored, run, run, ih]
  | ask next caught ihnext ihcaught =>
    match answers with
    | [] => rw [monitored, run, screened, run]
    | .error e :: answers => rw [monitored, run, screened, run, ihcaught]
    | .ok input :: answers =>
      rw [monitored, run, screened]
      -- what the monitor says of the input decides which continuation goes on
      cases (monitor s input).2 with
      | none => rw [run, ihnext]
      | some e => rw [run, ihcaught]

end

/-! ### Handlers -/

section
variable (handler : ε → Option (Dialogue ι ο ε))

/-- The program inside a `try`, with the handler of each exception that has one. -/
def catching : Dialogue ι ο ε → Dialogue ι ο ε
  | done => done
  | raise e => (handler e).getD (raise e)
  | say message next => say message next.catching
  | ask next caught => ask (fun input => (next input).catching) (fun e => (caught e).catching)

/-- What the handlers make of a run of the program inside. -/
def handled (answers : List (Except ε ι)) (talk : Talk ο ε) : Talk ο ε :=
  match talk.ending with
  | .raised e => match handler e with
    | none => talk
    | some q => (q.run (answers.drop talk.heard)).after talk.turns
  | _ => talk

variable {handler}

theorem handled_after_said (answers : List (Except ε ι)) (message : ο) (talk : Talk ο ε) :
    handled handler answers (talk.after [.said message]) =
      (handled handler answers talk).after [.said message] := by
  obtain ⟨turns, ending⟩ := talk
  cases ending with
  | returned => rfl
  | waiting => rfl
  | raised e =>
    simp only [handled, Talk.ending_after, Talk.heard_after_said]
    cases handler e with
    | none => rfl
    | some q => exact (Talk.after_after _ _ _).symm

theorem handled_after_heard (answer : Except ε ι) (answers : List (Except ε ι))
    (talk : Talk ο ε) :
    handled handler (answer :: answers) (talk.after [.heard]) =
      (handled handler answers talk).after [.heard] := by
  obtain ⟨turns, ending⟩ := talk
  cases ending with
  | returned => rfl
  | waiting => rfl
  | raised e =>
    simp only [handled, Talk.ending_after, Talk.heard_after_heard, List.drop_succ_cons]
    cases handler e with
    | none => rfl
    | some q => exact (Talk.after_after _ _ _).symm

/-- **A handler goes on** where the exception ended the run, with the answers not yet heard. -/
theorem run_catching (p : Dialogue ι ο ε) (answers : List (Except ε ι)) :
    (p.catching handler).run answers = handled handler answers (p.run answers) := by
  induction p generalizing answers with
  | done => rfl
  | raise e =>
    rw [catching]
    simp only [run, handled]
    cases handler e with
    | none => rfl
    | some q => simp [Talk.heard, Talk.after]
  | say message next ih => rw [catching, run, run, ih, handled_after_said]
  | ask next caught ihnext ihcaught =>
    match answers with
    | [] => rw [catching, run, run]; rfl
    | .ok input :: answers => rw [catching, run, run, ihnext, handled_after_heard]
    | .error e :: answers => rw [catching, run, run, ihcaught, handled_after_heard]

end

/-! ### Exceptions a program does not make or does not handle -/

/-- The program raises `e` only if it was handed `e` before. -/
def Borrows (e : ε) : Dialogue ι ο ε → Prop
  | done => True
  | raise e' => e' ≠ e
  | say _ next => next.Borrows e
  | ask next caught =>
      (∀ input, (next input).Borrows e) ∧ ∀ e', e' ≠ e → (caught e').Borrows e

/-- The program has no handler for `e`: handed it, it raises it. -/
def LetsOut (e : ε) : Dialogue ι ο ε → Prop
  | done => True
  | raise _ => True
  | say _ next => next.LetsOut e
  | ask next caught =>
      (∀ input, (next input).LetsOut e) ∧ caught e = raise e ∧ ∀ e', (caught e').LetsOut e

/-- A program that is never handed `e` does not end with it. -/
theorem Borrows.ending_ne {e : ε} {p : Dialogue ι ο ε} (hp : p.Borrows e)
    {answers : List (Except ε ι)} (h : .error e ∉ answers.take (p.run answers).heard) :
    (p.run answers).ending ≠ .raised e := by
  induction p generalizing answers with
  | done => exact nofun
  | raise e' =>
    intro hend
    exact hp (Ending.raised.inj hend)
  | say message next ih => exact ih hp (by simpa [run] using h)
  | ask next caught ihnext ihcaught =>
    match answers with
    | [] => exact nofun
    | .ok input :: answers =>
      simp only [run, Talk.heard_after_heard, List.take_succ_cons, List.mem_cons, not_or] at h
      exact ihnext input (hp.1 input) h.2
    | .error e' :: answers =>
      simp only [run, Talk.heard_after_heard, List.take_succ_cons, List.mem_cons, not_or] at h
      have hne : e' ≠ e := fun heq => h.1 (by rw [heq])
      exact ihcaught e' (hp.2 e' hne) h.2

/-- A program without a handler for `e` ends with it as soon as it is handed it. -/
theorem LetsOut.run_append {e : ε} {p : Dialogue ι ο ε} (hp : p.LetsOut e)
    {answers : List (Except ε ι)} (h : (p.run answers).ending = .waiting)
    (more : List (Except ε ι)) :
    p.run (answers ++ .error e :: more) = ⟨(p.run answers).turns ++ [.heard], .raised e⟩ := by
  induction p generalizing answers with
  | done => cases h
  | raise e' => cases h
  | say message next ih =>
    rw [run, run, ih hp h]
    rfl
  | ask next caught ihnext ihcaught =>
    match answers with
    | [] =>
      rw [List.nil_append, run, run, hp.2.1]
      rfl
    | .ok input :: answers =>
      rw [List.cons_append, run, run, ihnext input (hp.1 input) h]
      rfl
    | .error e' :: answers =>
      rw [List.cons_append, run, run, ihcaught e' (hp.2.2 e') h]
      rfl

end Dialogue
