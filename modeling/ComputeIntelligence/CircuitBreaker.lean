import Mathlib.Data.Rat.Lemmas
import Mathlib.Tactic.Linarith

/-! # The circuit breaker

`interceptor/circuit_breaker.py`.  Every operation of a `CircuitBreaker` is one atomic
mutation of the shared state, here a function from state to state that takes the clock
readings the mutation makes.  `record_failure` reads the clock twice: once to see
whether the reset timeout has elapsed, once to stamp the failure.

Counters are unbounded integers and times exact rationals, in seconds.
-/
namespace ComputeIntelligence

/-- `CircuitState`. -/
inductive CircuitState where
  | closed | opened | halfOpen
deriving DecidableEq

/-- The value of a `CircuitState`. -/
def CircuitState.value : CircuitState → String
  | .closed => "closed"
  | .opened => "open"
  | .halfOpen => "half_open"

/-- `CircuitBreakerState`. -/
structure CircuitBreakerState where
  state : CircuitState := .closed
  failureCount : Int := 0
  lastFailureTime : ℚ := 0
  halfOpenSuccessCount : Int := 0
  halfOpenProbeCount : Int := 0
  totalOpens : Int := 0
  totalFailOpens : Int := 0
deriving DecidableEq

/-- The settings of a `CircuitBreaker`. -/
structure BreakerConfig where
  failureThreshold : Int := 5
  resetTimeoutS : ℚ := 30
  halfOpenMaxProbes : Int := 3

namespace CircuitBreakerState

/-- `_transition_if_reset_timeout_elapsed`. -/
def transition (cfg : BreakerConfig) (now : ℚ) (s : CircuitBreakerState) : CircuitBreakerState :=
  if s.state = .opened ∧ cfg.resetTimeoutS ≤ now - s.lastFailureTime then
    { s with state := .halfOpen, halfOpenSuccessCount := 0, halfOpenProbeCount := 0 }
  else s

/-- `is_open`, and the state it leaves. -/
def isOpen (cfg : BreakerConfig) (now : ℚ) (s : CircuitBreakerState) :
    Bool × CircuitBreakerState :=
  let s := s.transition cfg now
  match s.state with
  | .opened => (true, { s with totalFailOpens := s.totalFailOpens + 1 })
  | .halfOpen =>
      if s.halfOpenProbeCount < cfg.halfOpenMaxProbes then
        (false, { s with halfOpenProbeCount := s.halfOpenProbeCount + 1 })
      else (true, { s with totalFailOpens := s.totalFailOpens + 1 })
  | .closed => (false, s)

/-- `record_success`. -/
def recordSuccess (cfg : BreakerConfig) (now : ℚ) (s : CircuitBreakerState) :
    CircuitBreakerState :=
  let s := s.transition cfg now
  match s.state with
  | .halfOpen =>
      let successes := s.halfOpenSuccessCount + 1
      if cfg.halfOpenMaxProbes ≤ successes then
        { s with state := .closed, failureCount := 0, halfOpenSuccessCount := 0,
                 halfOpenProbeCount := 0 }
      else { s with halfOpenSuccessCount := successes }
  | _ => { s with failureCount := 0, state := .closed }

/-- `record_failure`, stamped at `stamp`. -/
def recordFailure (cfg : BreakerConfig) (now stamp : ℚ) (s : CircuitBreakerState) :
    CircuitBreakerState :=
  let s := s.transition cfg now
  match s.state with
  | .halfOpen =>
      { s with state := .opened, halfOpenSuccessCount := 0, halfOpenProbeCount := 0,
               failureCount := cfg.failureThreshold, lastFailureTime := stamp,
               totalOpens := s.totalOpens + 1 }
  | _ =>
      let s := { s with failureCount := s.failureCount + 1, lastFailureTime := stamp }
      if cfg.failureThreshold ≤ s.failureCount then
        { s with state := .opened, halfOpenSuccessCount := 0, halfOpenProbeCount := 0,
                 totalOpens := s.totalOpens + 1 }
      else s

/-- `force_open`. -/
def forceOpen (stamp : ℚ) (s : CircuitBreakerState) : CircuitBreakerState :=
  { s with state := .opened, lastFailureTime := stamp, halfOpenSuccessCount := 0,
           halfOpenProbeCount := 0, totalOpens := s.totalOpens + 1 }

/-- `force_close`. -/
def forceClose (s : CircuitBreakerState) : CircuitBreakerState :=
  { s with state := .closed, failureCount := 0, halfOpenSuccessCount := 0,
           halfOpenProbeCount := 0 }

/-! ### What each operation can do

One lemma per operation, by the state after the transition. -/

variable {cfg : BreakerConfig} {now stamp : ℚ} {s : CircuitBreakerState}

theorem transition_cases (cfg : BreakerConfig) (now : ℚ) (s : CircuitBreakerState) :
    (s.transition cfg now = s ∧ ¬ (s.state = .opened ∧ cfg.resetTimeoutS ≤ now - s.lastFailureTime)) ∨
    (s.state = .opened ∧ cfg.resetTimeoutS ≤ now - s.lastFailureTime ∧
      s.transition cfg now =
        { s with state := .halfOpen, halfOpenSuccessCount := 0, halfOpenProbeCount := 0 }) := by
  unfold transition
  split
  · rename_i h
    exact .inr ⟨h.1, h.2, rfl⟩
  · rename_i h
    exact .inl ⟨rfl, h⟩

/-- A circuit is still OPEN after the transition iff its reset timeout runs. -/
theorem transition_opened_iff : (s.transition cfg now).state = .opened ↔
    s.state = .opened ∧ now - s.lastFailureTime < cfg.resetTimeoutS := by
  rcases transition_cases cfg now s with ⟨heq, hn⟩ | ⟨ho, hel, heq⟩
  · rw [heq]
    refine ⟨fun ho => ⟨ho, ?_⟩, And.left⟩
    exact lt_of_not_ge fun hel => hn ⟨ho, hel⟩
  · rw [heq]
    exact ⟨nofun, fun h => absurd hel (not_le.mpr h.2)⟩

/-- The transition stamps nothing. -/
@[simp] theorem transition_lastFailureTime :
    (s.transition cfg now).lastFailureTime = s.lastFailureTime := by
  unfold transition
  split <;> rfl

/-- A state that is not open is left alone. -/
theorem transition_of_ne (h : s.state ≠ .opened) : s.transition cfg now = s := by
  unfold transition
  rw [if_neg fun hc => h hc.1]

theorem isOpen_of_opened (h : (s.transition cfg now).state = .opened) :
    s.isOpen cfg now = (true, { s.transition cfg now with
      totalFailOpens := (s.transition cfg now).totalFailOpens + 1 }) := by
  unfold isOpen
  simp only [h]

theorem isOpen_of_closed (h : (s.transition cfg now).state = .closed) :
    s.isOpen cfg now = (false, s.transition cfg now) := by
  unfold isOpen
  simp only [h]

theorem isOpen_of_halfOpen (h : (s.transition cfg now).state = .halfOpen) :
    s.isOpen cfg now =
      if (s.transition cfg now).halfOpenProbeCount < cfg.halfOpenMaxProbes then
        (false, { s.transition cfg now with
          halfOpenProbeCount := (s.transition cfg now).halfOpenProbeCount + 1 })
      else (true, { s.transition cfg now with
        totalFailOpens := (s.transition cfg now).totalFailOpens + 1 }) := by
  unfold isOpen
  simp only [h]

/-- Who is let through: everyone while the circuit is closed, a probe while it is
half-open and has a free slot. -/
theorem isOpen_eq_false (h : (s.isOpen cfg now).1 = false) :
    ((s.transition cfg now).state = .closed ∧ (s.isOpen cfg now).2 = s.transition cfg now) ∨
    ((s.transition cfg now).state = .halfOpen ∧
      (s.transition cfg now).halfOpenProbeCount < cfg.halfOpenMaxProbes ∧
      (s.isOpen cfg now).2 = { s.transition cfg now with
        halfOpenProbeCount := (s.transition cfg now).halfOpenProbeCount + 1 }) := by
  cases hs : (s.transition cfg now).state with
  | opened =>
    rw [isOpen_of_opened hs] at h
    cases h
  | closed => exact .inl ⟨rfl, by rw [isOpen_of_closed hs]⟩
  | halfOpen =>
    rw [isOpen_of_halfOpen hs] at h ⊢
    split at h
    · rename_i hslot
      rw [if_pos hslot]
      exact .inr ⟨rfl, hslot, rfl⟩
    · cases h

/-- Who is refused: everyone while the circuit is open, and while it is half-open
without a free slot. -/
theorem isOpen_eq_true (h : (s.isOpen cfg now).1 = true) :
    ((s.transition cfg now).state = .opened ∨ (s.transition cfg now).state = .halfOpen ∧
      cfg.halfOpenMaxProbes ≤ (s.transition cfg now).halfOpenProbeCount) ∧
    (s.isOpen cfg now).2 = { s.transition cfg now with
      totalFailOpens := (s.transition cfg now).totalFailOpens + 1 } := by
  cases hs : (s.transition cfg now).state with
  | opened => exact ⟨.inl rfl, by rw [isOpen_of_opened hs]⟩
  | closed =>
    rw [isOpen_of_closed hs] at h
    cases h
  | halfOpen =>
    rw [isOpen_of_halfOpen hs] at h ⊢
    split at h
    · cases h
    · rename_i hslot
      rw [if_neg hslot]
      exact ⟨.inr ⟨rfl, not_lt.mp hslot⟩, rfl⟩

/-- `is_open` changes no more of the state than the transition and the counters. -/
theorem isOpen_state : (s.isOpen cfg now).2.state = (s.transition cfg now).state := by
  cases h : (s.transition cfg now).state with
  | opened => rw [isOpen_of_opened h, h]
  | closed => rw [isOpen_of_closed h, h]
  | halfOpen =>
    rw [isOpen_of_halfOpen h]
    split <;> exact h

theorem isOpen_lastFailureTime : (s.isOpen cfg now).2.lastFailureTime = s.lastFailureTime := by
  have ht : (s.transition cfg now).lastFailureTime = s.lastFailureTime :=
    transition_lastFailureTime
  cases h : (s.transition cfg now).state with
  | opened => rw [isOpen_of_opened h, ← ht]
  | closed => rw [isOpen_of_closed h, ← ht]
  | halfOpen =>
    rw [isOpen_of_halfOpen h, ← ht]
    split <;> rfl

theorem isOpen_halfOpenSuccessCount :
    (s.isOpen cfg now).2.halfOpenSuccessCount = (s.transition cfg now).halfOpenSuccessCount := by
  cases h : (s.transition cfg now).state with
  | opened => rw [isOpen_of_opened h]
  | closed => rw [isOpen_of_closed h]
  | halfOpen =>
    rw [isOpen_of_halfOpen h]
    split <;> rfl

theorem recordSuccess_of_halfOpen (h : (s.transition cfg now).state = .halfOpen) :
    s.recordSuccess cfg now =
      if cfg.halfOpenMaxProbes ≤ (s.transition cfg now).halfOpenSuccessCount + 1 then
        { s.transition cfg now with
          state := .closed, failureCount := 0, halfOpenSuccessCount := 0, halfOpenProbeCount := 0 }
      else { s.transition cfg now with
        halfOpenSuccessCount := (s.transition cfg now).halfOpenSuccessCount + 1 } := by
  unfold recordSuccess
  simp only [h]

theorem recordSuccess_of_ne (h : (s.transition cfg now).state ≠ .halfOpen) :
    s.recordSuccess cfg now = { s.transition cfg now with failureCount := 0, state := .closed } := by
  unfold recordSuccess
  cases hs : (s.transition cfg now).state with
  | halfOpen => exact absurd hs h
  | opened => simp only
  | closed => simp only

/-- A success of a request that was let through closes the circuit, or leaves it
half-open with one probe and one success more. -/
theorem isOpen_recordSuccess (h : (s.isOpen cfg now).1 = false) (report : ℚ) :
    ((s.isOpen cfg now).2.recordSuccess cfg report).state = .closed ∨
    ((s.transition cfg now).state = .halfOpen ∧
      (s.transition cfg now).halfOpenSuccessCount + 1 < cfg.halfOpenMaxProbes ∧
      (s.isOpen cfg now).2.recordSuccess cfg report = { s.transition cfg now with
        halfOpenProbeCount := (s.transition cfg now).halfOpenProbeCount + 1
        halfOpenSuccessCount := (s.transition cfg now).halfOpenSuccessCount + 1 }) := by
  rcases isOpen_eq_false h with ⟨hclosed, heq⟩ | ⟨hhalf, -, heq⟩
  · have hsame : (s.transition cfg now).transition cfg report = s.transition cfg now :=
      transition_of_ne (by rw [hclosed]; decide)
    rw [heq, recordSuccess_of_ne (by rw [hsame, hclosed]; decide)]
    exact .inl rfl
  · rw [heq]
    generalize s.transition cfg now = b at *
    have hsame : transition cfg report { b with halfOpenProbeCount := b.halfOpenProbeCount + 1 } =
        { b with halfOpenProbeCount := b.halfOpenProbeCount + 1 } :=
      transition_of_ne (show b.state ≠ .opened by rw [hhalf]; decide)
    rw [recordSuccess_of_halfOpen (by rw [hsame]; exact hhalf), hsame]
    split
    · exact .inl rfl
    · rename_i hmore
      exact .inr ⟨hhalf, not_le.mp hmore, rfl⟩

theorem recordFailure_of_halfOpen (h : (s.transition cfg now).state = .halfOpen) :
    s.recordFailure cfg now stamp = { s.transition cfg now with
      state := .opened, halfOpenSuccessCount := 0, halfOpenProbeCount := 0,
      failureCount := cfg.failureThreshold, lastFailureTime := stamp,
      totalOpens := (s.transition cfg now).totalOpens + 1 } := by
  unfold recordFailure
  simp only [h]

theorem recordFailure_of_ne (h : (s.transition cfg now).state ≠ .halfOpen) :
    s.recordFailure cfg now stamp =
      if cfg.failureThreshold ≤ (s.transition cfg now).failureCount + 1 then
        { s.transition cfg now with
          failureCount := (s.transition cfg now).failureCount + 1, lastFailureTime := stamp,
          state := .opened, halfOpenSuccessCount := 0, halfOpenProbeCount := 0,
          totalOpens := (s.transition cfg now).totalOpens + 1 }
      else { s.transition cfg now with
        failureCount := (s.transition cfg now).failureCount + 1, lastFailureTime := stamp } := by
  unfold recordFailure
  cases hs : (s.transition cfg now).state with
  | halfOpen => exact absurd hs h
  | opened => simp only
  | closed => simp only

/-- A failure always stamps. -/
theorem recordFailure_lastFailureTime : (s.recordFailure cfg now stamp).lastFailureTime = stamp := by
  by_cases h : (s.transition cfg now).state = .halfOpen
  · rw [recordFailure_of_halfOpen h]
  · rw [recordFailure_of_ne h]
    split <;> rfl

/-- A failure leaves the circuit OPEN, or CLOSED if that is how it found it. -/
theorem recordFailure_state : (s.recordFailure cfg now stamp).state = .opened ∨
    (s.recordFailure cfg now stamp).state = .closed ∧ (s.transition cfg now).state = .closed := by
  by_cases hhalf : (s.transition cfg now).state = .halfOpen
  · exact .inl (by rw [recordFailure_of_halfOpen hhalf])
  · rw [recordFailure_of_ne hhalf]
    split
    · exact .inl rfl
    · cases hs : (s.transition cfg now).state with
      | opened => exact .inl rfl
      | closed => exact .inr ⟨rfl, rfl⟩
      | halfOpen => exact absurd hs hhalf

end CircuitBreakerState
end ComputeIntelligence
