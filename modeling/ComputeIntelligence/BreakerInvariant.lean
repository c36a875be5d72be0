import ComputeIntelligence.CircuitBreaker
import ComputeIntelligence.GuardedRuns
import ComputeIntelligence.PyValue

/-! # The representation invariant of the circuit breaker

Seven public operations, each one mutation of a `LocalCircuitStateStore`, share five
counters across three states.  A run is any list of calls, with any clock readings: the
clock may go back, and the reset timeout may be anything.

What the counters mean is said over the run, not over the state: the failure count of a
closed circuit is the number of failures since the latest call that cleared it
(`failuresSince`), and the probe count of a half-open one is the number of requests let
through since it became half-open (`admissions`).
-/
namespace ComputeIntelligence

/-- A call of a public method or property, with the clock readings it makes. -/
inductive BreakerCall where
  | isOpen (now : ℚ)
  | state (now : ℚ)
  | getMetrics (now : ℚ)
  | recordSuccess (now : ℚ)
  | recordFailure (now stamp : ℚ)
  | forceOpen (stamp : ℚ)
  | forceClose
deriving DecidableEq

namespace CircuitBreakerState

/-- `get_metrics` over a local store, and the state it leaves. -/
def getMetrics (cfg : BreakerConfig) (now : ℚ) (s : CircuitBreakerState) :
    List (String × PyVal) × CircuitBreakerState :=
  let s := s.transition cfg now
  ([("state", .str s.state.value), ("failure_count", .int s.failureCount),
    ("failure_threshold", .int cfg.failureThreshold),
    ("half_open_probe_count", .int s.halfOpenProbeCount), ("total_opens", .int s.totalOpens),
    ("total_fail_opens", .int s.totalFailOpens), ("backend", .str "LocalCircuitStateStore")], s)

end CircuitBreakerState

namespace BreakerRun
open CircuitBreakerState

/-- The state after a call. -/
def step (cfg : BreakerConfig) (s : CircuitBreakerState) : BreakerCall → CircuitBreakerState
  | .isOpen now => (s.isOpen cfg now).2
  | .state now => s.transition cfg now
  | .getMetrics now => (s.getMetrics cfg now).2
  | .recordSuccess now => s.recordSuccess cfg now
  | .recordFailure now stamp => s.recordFailure cfg now stamp
  | .forceOpen stamp => s.forceOpen stamp
  | .forceClose => s.forceClose

/-- The call is an `is_open` that answers False. -/
def admits (cfg : BreakerConfig) (s : CircuitBreakerState) : BreakerCall → Bool
  | .isOpen now => !(s.isOpen cfg now).1
  | _ => false

/-- The call is a `record_failure`. -/
def isFailure : BreakerCall → Bool
  | .recordFailure _ _ => true
  | _ => false

/-- The call is a `record_success` or a `force_close`, or enters CLOSED. -/
def clears (cfg : BreakerConfig) (s : CircuitBreakerState) : BreakerCall → Bool
  | .recordSuccess _ => true
  | .forceClose => true
  | c => decide (s.state ≠ .closed ∧ (step cfg s c).state = .closed)

/-- The calls of a run, each with the state it finds. -/
def trace (cfg : BreakerConfig) : CircuitBreakerState → List BreakerCall →
    List (CircuitBreakerState × BreakerCall)
  | _, [] => []
  | s, c :: calls => (s, c) :: trace cfg (step cfg s c) calls

/-- The failures recorded since the latest call that clears, or since the start. -/
def failuresSince (cfg : BreakerConfig) (s : CircuitBreakerState) (calls : List BreakerCall) : Nat :=
  (((trace cfg s calls).reverse.takeWhile fun p => !clears cfg p.1 p.2).countP
    fun p => isFailure p.2)

/-- The requests a run lets through. -/
def admissions (cfg : BreakerConfig) (s : CircuitBreakerState) (calls : List BreakerCall) : Nat :=
  (trace cfg s calls).countP fun p => admits cfg p.1 p.2

/-- The run enters HALF_OPEN with its first call, and does not leave it. -/
def HalfOpenSpell (cfg : BreakerConfig) (s : CircuitBreakerState) (calls : List BreakerCall) :
    Prop :=
  s.state ≠ .halfOpen ∧
    ∀ pre, pre <+: calls → pre ≠ [] → (Run.exec (step cfg) s pre).state = .halfOpen

/-- The representation invariant, of the run so far. -/
structure Represents (cfg : BreakerConfig) (calls : List BreakerCall) : Prop where
  closed : (Run.exec (step cfg) {} calls).state = .closed →
    (Run.exec (step cfg) {} calls).failureCount < cfg.failureThreshold ∧
    (Run.exec (step cfg) {} calls).failureCount = failuresSince cfg {} calls
  notHalfOpen : (Run.exec (step cfg) {} calls).state ≠ .halfOpen →
    (Run.exec (step cfg) {} calls).halfOpenSuccessCount = 0 ∧
    (Run.exec (step cfg) {} calls).halfOpenProbeCount = 0
  halfOpen : (Run.exec (step cfg) {} calls).state = .halfOpen →
    (Run.exec (step cfg) {} calls).halfOpenSuccessCount < cfg.halfOpenMaxProbes ∧
    (Run.exec (step cfg) {} calls).halfOpenProbeCount ≤ cfg.halfOpenMaxProbes
  spells : ∀ before spell, calls = before ++ spell →
    HalfOpenSpell cfg (Run.exec (step cfg) {} before) spell →
    (admissions cfg (Run.exec (step cfg) {} before) spell : Int) ≤ cfg.halfOpenMaxProbes

/-! ### The state alone -/

/-- What the counters may be, state by state. -/
structure Shaped (cfg : BreakerConfig) (s : CircuitBreakerState) : Prop where
  closed : s.state = .closed → s.failureCount < cfg.failureThreshold
  notHalfOpen : s.state ≠ .halfOpen → s.halfOpenSuccessCount = 0 ∧ s.halfOpenProbeCount = 0
  halfOpen : s.state = .halfOpen →
    s.halfOpenSuccessCount < cfg.halfOpenMaxProbes ∧ s.halfOpenProbeCount ≤ cfg.halfOpenMaxProbes

variable {cfg : BreakerConfig} {s : CircuitBreakerState}

theorem initial_shaped (hthreshold : 1 ≤ cfg.failureThreshold) : Shaped cfg {} where
  closed _ := Int.lt_of_lt_of_le Int.zero_lt_one hthreshold
  notHalfOpen _ := ⟨rfl, rfl⟩
  halfOpen h := by cases h

theorem Shaped.transition (hprobes : 1 ≤ cfg.halfOpenMaxProbes) (h : Shaped cfg s) (now : ℚ) :
    Shaped cfg (s.transition cfg now) := by
  rcases transition_cases cfg now s with ⟨heq, -⟩ | ⟨-, -, heq⟩
  · rw [heq]
    exact h
  · rw [heq]
    have hsome : (0 : Int) < cfg.halfOpenMaxProbes := by omega
    exact ⟨nofun, fun hne => absurd rfl hne, fun _ => ⟨hsome, Int.le_of_lt hsome⟩⟩

theorem Shaped.isOpen (hprobes : 1 ≤ cfg.halfOpenMaxProbes) (h : Shaped cfg s) (now : ℚ) :
    Shaped cfg (s.isOpen cfg now).2 := by
  have ht := h.transition hprobes now
  cases hans : (s.isOpen cfg now).1 with
  | true =>
    rw [(isOpen_eq_true hans).2]
    exact ⟨ht.closed, ht.notHalfOpen, ht.halfOpen⟩
  | false =>
    rcases isOpen_eq_false hans with ⟨-, heq⟩ | ⟨hhalf, hslot, heq⟩
    · rw [heq]
      exact ht
    · rw [heq]
      have hsuccess := (ht.halfOpen hhalf).1
      refine ⟨fun hc => ?_, fun hne => absurd hhalf hne, fun _ => ⟨hsuccess, ?_⟩⟩
      · exact absurd (hhalf.symm.trans hc) (by decide)
      · exact hslot

theorem Shaped.recordSuccess (hthreshold : 1 ≤ cfg.failureThreshold)
    (hprobes : 1 ≤ cfg.halfOpenMaxProbes) (h : Shaped cfg s) (now : ℚ) :
    Shaped cfg (s.recordSuccess cfg now) := by
  have ht := h.transition hprobes now
  have hsome : (0 : Int) < cfg.failureThreshold := by omega
  by_cases hhalf : (s.transition cfg now).state = .halfOpen
  · rw [recordSuccess_of_halfOpen hhalf]
    have hbound := ht.halfOpen hhalf
    split
    · exact ⟨fun _ => hsome, fun _ => ⟨rfl, rfl⟩, nofun⟩
    · refine ⟨fun hc => absurd (hhalf.symm.trans hc) (by decide), fun hne => absurd hhalf hne,
        fun _ => ⟨?_, hbound.2⟩⟩
      change (s.transition cfg now).halfOpenSuccessCount + 1 < cfg.halfOpenMaxProbes
      omega
  · rw [recordSuccess_of_ne hhalf]
    exact ⟨fun _ => hsome, fun _ => ht.notHalfOpen hhalf, nofun⟩

theorem Shaped.recordFailure (hprobes : 1 ≤ cfg.halfOpenMaxProbes) (h : Shaped cfg s)
    (now stamp : ℚ) : Shaped cfg (s.recordFailure cfg now stamp) := by
  have ht := h.transition hprobes now
  by_cases hhalf : (s.transition cfg now).state = .halfOpen
  · rw [recordFailure_of_halfOpen hhalf]
    exact ⟨nofun, fun _ => ⟨rfl, rfl⟩, nofun⟩
  · rw [recordFailure_of_ne hhalf]
    split
    · exact ⟨nofun, fun _ => ⟨rfl, rfl⟩, nofun⟩
    · refine ⟨fun _ => ?_, fun _ => ht.notHalfOpen hhalf, fun hc => absurd hc hhalf⟩
      change (s.transition cfg now).failureCount + 1 < cfg.failureThreshold
      omega

/-- Every call keeps the shape. -/
theorem Shaped.step (hthreshold : 1 ≤ cfg.failureThreshold) (hprobes : 1 ≤ cfg.halfOpenMaxProbes)
    (h : Shaped cfg s) (c : BreakerCall) : Shaped cfg (step cfg s c) := by
  cases c with
  | isOpen now => exact h.isOpen hprobes now
  | state now => exact h.transition hprobes now
  | getMetrics now => exact h.transition hprobes now
  | recordSuccess now => exact h.recordSuccess hthreshold hprobes now
  | recordFailure now stamp => exact h.recordFailure hprobes now stamp
  | forceOpen stamp => exact ⟨nofun, fun _ => ⟨rfl, rfl⟩, nofun⟩
  | forceClose =>
    refine ⟨fun _ => ?_, fun _ => ⟨rfl, rfl⟩, nofun⟩
    change (0 : Int) < cfg.failureThreshold
    omega

theorem exec_shaped (hthreshold : 1 ≤ cfg.failureThreshold)
    (hprobes : 1 ≤ cfg.halfOpenMaxProbes) (calls : List BreakerCall) :
    Shaped cfg (Run.exec (BreakerRun.step cfg) {} calls) :=
  Run.exec_invariant (fun _ c h => h.step hthreshold hprobes c) (initial_shaped hthreshold) calls

/-! ### What one call does to the counters -/

theorem transition_closed {now : ℚ} (h : (s.transition cfg now).state = .closed) :
    s.transition cfg now = s := by
  rcases transition_cases cfg now s with ⟨heq, -⟩ | ⟨-, -, heq⟩
  · exact heq
  · rw [heq] at h
    cases h

/-- A call that does not clear leaves a circuit CLOSED only if it found it so. -/
theorem closed_of_not_clears {c : BreakerCall} (h : clears cfg s c = false)
    (hstep : (step cfg s c).state = .closed) : s.state = .closed := by
  by_contra hne
  cases c <;> simp_all [clears]

/-- A call of which only the transition can change the failure count and the state
keeps the failure count of a circuit it leaves CLOSED. -/
theorem failureCount_of_transition {s' : CircuitBreakerState} {now : ℚ}
    (hstate : s'.state = (s.transition cfg now).state)
    (hcount : s'.failureCount = (s.transition cfg now).failureCount) (h : s'.state = .closed) :
    s.state = .closed ∧ s'.failureCount = s.failureCount := by
  rw [hstate] at h
  have hsame := transition_closed h
  rw [hsame] at h hcount
  exact ⟨h, hcount⟩

theorem isOpen_failureCount {now : ℚ} :
    (s.isOpen cfg now).2.failureCount = (s.transition cfg now).failureCount := by
  cases h : (s.transition cfg now).state with
  | opened => rw [isOpen_of_opened h]
  | closed => rw [isOpen_of_closed h]
  | halfOpen =>
    rw [isOpen_of_halfOpen h]
    split <;> rfl

/-- The failure count of a circuit that a call leaves CLOSED. -/
theorem failureCount_step {c : BreakerCall} (hclosed : (step cfg s c).state = .closed) :
    (step cfg s c).failureCount =
      if clears cfg s c then 0 else s.failureCount + if isFailure c then 1 else 0 := by
  cases c with
  | isOpen now =>
    obtain ⟨hs, hcount⟩ := failureCount_of_transition isOpen_state isOpen_failureCount hclosed
    simpa [clears, isFailure, hs, step, getMetrics] using hcount
  | state now =>
    obtain ⟨hs, hcount⟩ := failureCount_of_transition rfl rfl hclosed
    simpa [clears, isFailure, hs, step, getMetrics] using hcount
  | getMetrics now =>
    obtain ⟨hs, hcount⟩ := failureCount_of_transition rfl rfl hclosed
    simpa [clears, isFailure, hs, step, getMetrics] using hcount
  | recordSuccess now =>
    change (s.recordSuccess cfg now).state = .closed at hclosed
    change (s.recordSuccess cfg now).failureCount = 0
    by_cases hhalf : (s.transition cfg now).state = .halfOpen
    · rw [recordSuccess_of_halfOpen hhalf] at hclosed ⊢
      split at hclosed
      · rw [if_pos (by assumption)]
      · exact absurd (hhalf.symm.trans hclosed) (by decide)
    · rw [recordSuccess_of_ne hhalf]
  | recordFailure now stamp =>
    change (s.recordFailure cfg now stamp).state = .closed at hclosed
    have hs : (s.transition cfg now).state = .closed := by
      rcases recordFailure_state (s := s) with ho | ⟨-, hs⟩
      · exact absurd (ho.symm.trans hclosed) (by decide)
      · exact hs
    have hsame := transition_closed hs
    rw [hsame] at hs
    have hne : (s.transition cfg now).state ≠ .halfOpen := by rw [hsame, hs]; decide
    have hcount : (s.recordFailure cfg now stamp).failureCount = s.failureCount + 1 := by
      rw [recordFailure_of_ne hne, hsame]
      split <;> rfl
    simpa [clears, isFailure, hs, step] using hcount
  | forceOpen stamp => cases hclosed
  | forceClose => rfl

/-- The probe count of a circuit that a call leaves HALF_OPEN. -/
theorem probeCount_step {c : BreakerCall} (hhalf : (step cfg s c).state = .halfOpen) :
    (step cfg s c).halfOpenProbeCount =
      (if s.state = .halfOpen then s.halfOpenProbeCount else 0) + if admits cfg s c then 1 else 0 := by
  -- The transition resets the count of a circuit it makes half-open.
  have htrans : ∀ now, (s.transition cfg now).state = .halfOpen →
      (s.transition cfg now).halfOpenProbeCount =
        if s.state = .halfOpen then s.halfOpenProbeCount else 0 := by
    intro now h
    rcases transition_cases cfg now s with ⟨heq, -⟩ | ⟨ho, -, heq⟩
    · rw [heq] at h ⊢
      rw [if_pos h]
    · rw [heq, if_neg (by rw [ho]; decide)]
  cases c with
  | isOpen now =>
    have h : (s.transition cfg now).state = .halfOpen := isOpen_state.symm.trans hhalf
    change (s.isOpen cfg now).2.halfOpenProbeCount = _ + if (!(s.isOpen cfg now).1) = true then 1 else 0
    rw [isOpen_of_halfOpen h, ← htrans now h]
    split <;> simp
  | state now => simpa [step, admits] using htrans now hhalf
  | getMetrics now => simpa [step, admits, getMetrics] using htrans now hhalf
  | recordSuccess now =>
    change (s.recordSuccess cfg now).state = .halfOpen at hhalf
    by_cases h : (s.transition cfg now).state = .halfOpen
    · rw [recordSuccess_of_halfOpen h] at hhalf
      split at hhalf
      · cases hhalf
      · rename_i hmore
        simp only [step, admits, recordSuccess_of_halfOpen h, if_neg hmore, ← htrans now h]
        simp
    · rw [recordSuccess_of_ne h] at hhalf
      cases hhalf
  | recordFailure now stamp =>
    change (s.recordFailure cfg now stamp).state = .halfOpen at hhalf
    rcases recordFailure_state (s := s) with ho | ⟨hc, -⟩
    · exact absurd (ho.symm.trans hhalf) (by decide)
    · exact absurd (hc.symm.trans hhalf) (by decide)
  | forceOpen stamp => cases hhalf
  | forceClose => cases hhalf

/-! ### Runs -/

theorem trace_concat (calls : List BreakerCall) (c : BreakerCall) :
    trace cfg s (calls ++ [c]) = trace cfg s calls ++ [(Run.exec (step cfg) s calls, c)] := by
  induction calls generalizing s with
  | nil => rfl
  | cons d calls ih => simp only [List.cons_append, trace, ih, Run.exec_cons]

theorem failuresSince_concat (calls : List BreakerCall) (c : BreakerCall) :
    failuresSince cfg s (calls ++ [c]) =
      if clears cfg (Run.exec (step cfg) s calls) c then 0
      else failuresSince cfg s calls + if isFailure c then 1 else 0 := by
  unfold failuresSince
  rw [trace_concat, List.reverse_append, List.reverse_singleton, List.singleton_append,
    List.takeWhile_cons]
  cases clears cfg (Run.exec (step cfg) s calls) c with
  | true => simp
  | false => simp [List.countP_cons]

theorem admissions_concat (calls : List BreakerCall) (c : BreakerCall) :
    admissions cfg s (calls ++ [c]) = admissions cfg s calls +
      if admits cfg (Run.exec (step cfg) s calls) c then 1 else 0 := by
  unfold admissions
  rw [trace_concat, List.countP_append, List.countP_singleton]

/-- The failure count of a closed circuit counts. -/
theorem failureCount_eq (calls : List BreakerCall)
    (hclosed : (Run.exec (step cfg) {} calls).state = .closed) :
    (Run.exec (step cfg) {} calls).failureCount = failuresSince cfg {} calls := by
  induction calls using List.reverseRecOn with
  | nil => rfl
  | append_singleton calls c ih =>
    rw [Run.exec_concat] at hclosed ⊢
    rw [failureCount_step hclosed, failuresSince_concat]
    cases hc : clears cfg (Run.exec (step cfg) {} calls) c with
    | true => rfl
    | false =>
      have hcount := ih (closed_of_not_clears hc hclosed)
      rw [hcount]
      cases isFailure c <;> simp

/-- In a spell, the probe count is the number of requests let through. -/
theorem probeCount_eq {calls : List BreakerCall} (h : HalfOpenSpell cfg s calls) (hne : calls ≠ []) :
    (Run.exec (step cfg) s calls).halfOpenProbeCount = admissions cfg s calls := by
  induction calls using List.reverseRecOn with
  | nil => exact absurd rfl hne
  | append_singleton calls c ih =>
    have hhalf := h.2 _ List.prefix_rfl hne
    rw [Run.exec_concat] at hhalf ⊢
    rw [probeCount_step hhalf, admissions_concat]
    -- The first call of a spell finds the circuit outside HALF_OPEN.
    by_cases hfirst : calls = []
    · subst hfirst
      rw [if_neg (show ¬ (Run.exec (step cfg) s []).state = .halfOpen from h.1)]
      cases admits cfg (Run.exec (step cfg) s []) c <;> rfl
    · have hspell : HalfOpenSpell cfg s calls :=
        ⟨h.1, fun pre hp => h.2 pre (hp.trans (List.prefix_append calls [c]))⟩
      rw [if_pos (hspell.2 _ List.prefix_rfl hfirst), ih hspell hfirst]
      cases admits cfg (Run.exec (step cfg) s calls) c <;> simp

/-- **The representation invariant** holds after every run. -/
theorem represents (cfg : BreakerConfig) (hthreshold : 1 ≤ cfg.failureThreshold)
    (hprobes : 1 ≤ cfg.halfOpenMaxProbes) (calls : List BreakerCall) : Represents cfg calls := by
  have hshape := exec_shaped hthreshold hprobes calls
  refine ⟨fun hc => ⟨hshape.closed hc, failureCount_eq calls hc⟩, hshape.notHalfOpen,
    hshape.halfOpen, ?_⟩
  rintro before spell rfl hspell
  by_cases hne : spell = []
  · subst hne
    change (0 : Int) ≤ cfg.halfOpenMaxProbes
    omega
  · rw [← probeCount_eq hspell hne]
    have hhalf := hspell.2 spell List.prefix_rfl hne
    rw [← Run.exec_append] at hhalf ⊢
    exact (hshape.halfOpen hhalf).2

/-- A run through all three states: two failures open the circuit, the timeout makes it
half-open, and of three requests two are let through. -/
theorem represents_probes :
    Represents { failureThreshold := 2, halfOpenMaxProbes := 2 }
      [.recordFailure 0 0, .recordFailure 1 1, .isOpen 31, .isOpen 32, .isOpen 33] :=
  represents _ (by decide) (by decide) _

end BreakerRun
end ComputeIntelligence
