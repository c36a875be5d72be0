import ComputeIntelligence.CircuitBreaker
import ComputeIntelligence.GuardedRuns
import Mathlib.Logic.Function.Basic

/-! # Replicas sharing one circuit

Any number of replicas `ρ` share one circuit state and interleave their calls; each
call is one atomic mutation.  A replica reports an outcome only for a request its own
`is_open` let through, one report per request, and the clock never goes back
(`CircuitReplicas.Valid`).

The system carries two histories the breaker itself does not keep: the times at which
the circuit became OPEN, and the number of successes recorded since it last became
HALF_OPEN.  In these terms an open circuit should not be CLOSED before its reset
timeout has passed since any opening, and should close only from HALF_OPEN, on enough
recorded successes (`CircuitReplicas.StaysOpen`).

`record_success` closes the circuit in every state but HALF_OPEN, OPEN included.  A
request admitted before the circuit opened may report after: such a report closes an
open circuit at once.  **These late reports are the only way the law can fail**
(`CircuitReplicas.staysOpen_iff_notLate`).
-/
namespace ComputeIntelligence
open CircuitBreakerState

/-- One shared circuit and what its replicas have outstanding. -/
structure CircuitReplicas (ρ : Type) where
  circuit : CircuitBreakerState := {}
  /-- Requests let through by the replica's `is_open` and not reported yet. -/
  admitted : ρ → Nat := fun _ => 0
  clock : ℚ := 0
  /-- The times at which the circuit became OPEN. -/
  openings : List ℚ := []
  /-- Successes recorded in HALF_OPEN since the circuit last became HALF_OPEN. -/
  probesPassed : Int := 0

/-- A call on the shared breaker. -/
inductive CircuitCall where
  | isOpen | state | recordSuccess
  | recordFailure (stamp : ℚ)
deriving DecidableEq

/-- A call, the replica that makes it and the time at which it looks at the clock. -/
structure ReplicaCall (ρ : Type) where
  replica : ρ
  now : ℚ
  call : CircuitCall

namespace CircuitReplicas
variable {ρ : Type}

/-- The state a call acts on: the reset timeout is looked at first. -/
def effective (cfg : BreakerConfig) (s : CircuitReplicas ρ) (now : ℚ) : CircuitBreakerState :=
  s.circuit.transition cfg now

/-- The time passes to `now`, and the circuit half-opens if its timeout has elapsed. -/
def advance (cfg : BreakerConfig) (s : CircuitReplicas ρ) (now : ℚ) : CircuitReplicas ρ :=
  { s with
    circuit := s.effective cfg now
    clock := now
    probesPassed :=
      if s.circuit.state = .opened ∧ (s.effective cfg now).state = .halfOpen then 0
      else s.probesPassed }

/-- One call. -/
def step [DecidableEq ρ] (cfg : BreakerConfig) (s : CircuitReplicas ρ) (a : ReplicaCall ρ) : CircuitReplicas ρ :=
  let was := s.effective cfg a.now
  let later := s.advance cfg a.now
  match a.call with
  | .isOpen =>
      let (refused, circuit) := s.circuit.isOpen cfg a.now
      { later with
        circuit := circuit
        admitted := if refused then s.admitted
          else Function.update s.admitted a.replica (s.admitted a.replica + 1) }
  | .state => later
  | .recordSuccess =>
      { later with
        circuit := s.circuit.recordSuccess cfg a.now
        admitted := Function.update s.admitted a.replica (s.admitted a.replica - 1)
        probesPassed :=
          if was.state = .halfOpen then later.probesPassed + 1 else later.probesPassed }
  | .recordFailure stamp =>
      let circuit := s.circuit.recordFailure cfg a.now stamp
      { later with
        circuit := circuit
        admitted := Function.update s.admitted a.replica (s.admitted a.replica - 1)
        clock := stamp
        openings :=
          if was.state ≠ .opened ∧ circuit.state = .opened then stamp :: s.openings
          else s.openings }

/-- The discipline of the callers: the clock does not go back, and an outcome is
reported once, after the replica's own `is_open` returned `False`. -/
def Valid (s : CircuitReplicas ρ) (a : ReplicaCall ρ) : Prop :=
  s.clock ≤ a.now ∧
    match a.call with
    | .recordSuccess => 0 < s.admitted a.replica
    | .recordFailure stamp => 0 < s.admitted a.replica ∧ a.now ≤ stamp
    | .isOpen => True
    | .state => True

instance (s : CircuitReplicas ρ) (a : ReplicaCall ρ) : Decidable (s.Valid a) :=
  match s, a with
  | s, ⟨r, now, .recordSuccess⟩ =>
      inferInstanceAs (Decidable (s.clock ≤ now ∧ 0 < s.admitted r))
  | s, ⟨r, now, .recordFailure stamp⟩ =>
      inferInstanceAs (Decidable (s.clock ≤ now ∧ 0 < s.admitted r ∧ now ≤ stamp))
  | s, ⟨_, now, .isOpen⟩ => inferInstanceAs (Decidable (s.clock ≤ now ∧ True))
  | s, ⟨_, now, .state⟩ => inferInstanceAs (Decidable (s.clock ≤ now ∧ True))

/-- Within the reset timeout of an opening, the circuit is not CLOSED. -/
def NotClosedEarly (cfg : BreakerConfig) (s : CircuitReplicas ρ) : Prop :=
  ∀ t ∈ s.openings, s.clock < t + cfg.resetTimeoutS → s.circuit.state ≠ .closed

/-! ### The invariant -/

/-- While the circuit is OPEN its last failure is no older than any opening; otherwise
every opening is at least the reset timeout ago.  In HALF_OPEN the breaker's counter
is the number of successes of this phase. -/
structure Timed (cfg : BreakerConfig) (s : CircuitReplicas ρ) : Prop where
  stamped : s.circuit.state = .opened → ∀ t ∈ s.openings, t ≤ s.circuit.lastFailureTime
  waited : s.circuit.state ≠ .opened → ∀ t ∈ s.openings, t + cfg.resetTimeoutS ≤ s.clock
  past : ∀ t ∈ s.openings, t ≤ s.clock
  counted : s.circuit.state = .halfOpen → s.circuit.halfOpenSuccessCount = s.probesPassed

variable {cfg : BreakerConfig} {s : CircuitReplicas ρ}

theorem Timed.notClosedEarly (h : s.Timed cfg) : s.NotClosedEarly cfg := by
  intro t ht hearly hclosed
  have := h.waited (by rw [hclosed]; decide) t ht
  linarith

/-- The passing of time keeps the invariant. -/
theorem Timed.advance (h : s.Timed cfg) {now : ℚ} (hnow : s.clock ≤ now) :
    (s.advance cfg now).Timed cfg := by
  have hpast : ∀ t ∈ s.openings, t ≤ now := fun t ht => (h.past t ht).trans hnow
  rcases transition_cases cfg now s.circuit with ⟨heq, -⟩ | ⟨ho, hel, heq⟩
  · have hprobes : (s.advance cfg now).probesPassed = s.probesPassed := by
      refine if_neg fun hc => ?_
      have hhalf : s.circuit.state = .halfOpen := by simpa only [effective, heq] using hc.2
      rw [hc.1] at hhalf
      cases hhalf
    refine ⟨?_, ?_, hpast, ?_⟩
    · simpa only [CircuitReplicas.advance, effective, heq] using h.stamped
    · simp only [CircuitReplicas.advance, effective, heq]
      exact fun hn t ht => (h.waited hn t ht).trans hnow
    · rw [hprobes]
      simpa only [CircuitReplicas.advance, effective, heq] using h.counted
  · simp only [CircuitReplicas.advance, effective, heq, ho]
    refine ⟨nofun, fun _ t ht => ?_, hpast, fun _ => rfl⟩
    have := h.stamped ho t ht
    simp only at ht ⊢
    linarith

/-- The invariant depends on the circuit only through its state, its last failure and,
in HALF_OPEN, its counter of successes. -/
theorem Timed.congr {s' : CircuitReplicas ρ} (h : s.Timed cfg)
    (hstate : s'.circuit.state = s.circuit.state)
    (hlast : s'.circuit.lastFailureTime = s.circuit.lastFailureTime)
    (hcount : s'.circuit.halfOpenSuccessCount = s.circuit.halfOpenSuccessCount)
    (hopen : s'.openings = s.openings) (hclock : s'.clock = s.clock)
    (hprobes : s'.probesPassed = s.probesPassed) : s'.Timed cfg := by
  refine ⟨?_, ?_, ?_, ?_⟩
  · rw [hstate, hlast, hopen]; exact h.stamped
  · rw [hstate, hopen, hclock]; exact h.waited
  · rw [hopen, hclock]; exact h.past
  · rw [hstate, hcount, hprobes]; exact h.counted

/-- The circuit as a fresh breaker has it, at any time. -/
def initial (ρ : Type) (clock : ℚ) : CircuitReplicas ρ := { clock := clock }

theorem initial_timed (clock : ℚ) : (initial ρ clock).Timed cfg :=
  ⟨nofun, fun _ _ => nofun, nofun, nofun⟩

/-! ### The law, and what one call keeps -/

variable [DecidableEq ρ]

/-- If the call closes the circuit, it found it HALF_OPEN and its success is the one
that completes the probes. -/
def ClosesByProbes (cfg : BreakerConfig) (s : CircuitReplicas ρ) (a : ReplicaCall ρ) : Prop :=
  s.circuit.state ≠ .closed → (s.step cfg a).circuit.state = .closed →
    (s.effective cfg a.now).state = .halfOpen ∧ a.call = .recordSuccess ∧
      cfg.halfOpenMaxProbes ≤ (s.step cfg a).probesPassed

/-- **An open circuit stays open for its reset timeout**, and closes only by probes. -/
def StaysOpen (cfg : BreakerConfig) (s : CircuitReplicas ρ) (run : List (ReplicaCall ρ)) : Prop :=
  Run.Always (step cfg) (NotClosedEarly cfg) s run ∧
    Run.Guarded (step cfg) (ClosesByProbes cfg) s run

/-- The call is no success reported while the circuit is OPEN and its timeout runs. -/
def NotLate (cfg : BreakerConfig) (s : CircuitReplicas ρ) (a : ReplicaCall ρ) : Prop :=
  a.call = .recordSuccess →
    ¬ (s.circuit.state = .opened ∧ a.now - s.circuit.lastFailureTime < cfg.resetTimeoutS)

instance (cfg : BreakerConfig) (s : CircuitReplicas ρ) (a : ReplicaCall ρ) :
    Decidable (s.NotLate cfg a) :=
  inferInstanceAs (Decidable (_ → ¬ (_ ∧ _)))

variable {a : ReplicaCall ρ}

theorem Timed.isOpen (h : (s.advance cfg a.now).Timed cfg) (hc : a.call = .isOpen) :
    (s.step cfg a).Timed cfg := by
  unfold step
  rw [hc]
  exact h.congr isOpen_state
    (isOpen_lastFailureTime.trans transition_lastFailureTime.symm)
    isOpen_halfOpenSuccessCount rfl rfl rfl

/-- A success keeps the invariant unless it finds the circuit OPEN. -/
theorem Timed.recordSuccess (h : (s.advance cfg a.now).Timed cfg) (hc : a.call = .recordSuccess)
    (hopen : (s.effective cfg a.now).state ≠ .opened) : (s.step cfg a).Timed cfg := by
  have hwaited : ∀ t ∈ s.openings, t + cfg.resetTimeoutS ≤ a.now := h.waited hopen
  unfold step
  rw [hc]
  by_cases hhalf : (s.effective cfg a.now).state = .halfOpen
  · have hcount := h.counted hhalf
    refine ⟨fun ho => ?_, fun _ => hwaited, h.past, fun hh => ?_⟩
    · simp only [recordSuccess_of_halfOpen hhalf] at ho
      split at ho
      · cases ho
      · exact absurd ho hopen
    · simp only [if_pos hhalf]
      simp only [recordSuccess_of_halfOpen hhalf] at hh ⊢
      split at hh
      · cases hh
      · rw [if_neg (by assumption)]
        exact congrArg (· + 1) hcount
  · refine ⟨fun ho => ?_, fun _ => hwaited, h.past, fun hh => ?_⟩
    · simp only [recordSuccess_of_ne hhalf] at ho
      cases ho
    · simp only [recordSuccess_of_ne hhalf] at hh
      cases hh

theorem Timed.recordFailure {stamp : ℚ} (h : (s.advance cfg a.now).Timed cfg)
    (hc : a.call = .recordFailure stamp) (hstamp : a.now ≤ stamp) : (s.step cfg a).Timed cfg := by
  have hpast : ∀ t ∈ (s.step cfg a).openings, t ≤ stamp := by
    unfold step
    rw [hc]
    intro t ht
    have hold : ∀ t ∈ s.openings, t ≤ stamp := fun t ht => (h.past t ht).trans hstamp
    simp only at ht
    split at ht
    · rcases List.mem_cons.mp ht with rfl | ht
      · exact le_rfl
      · exact hold t ht
    · exact hold t ht
  have hclock : (s.step cfg a).clock = stamp := by unfold step; rw [hc]
  have hcirc : (s.step cfg a).circuit = s.circuit.recordFailure cfg a.now stamp := by
    unfold step; rw [hc]
  refine ⟨fun _ => ?_, fun hn t ht => ?_, ?_, fun hh => ?_⟩
  · rw [hcirc, recordFailure_lastFailureTime]
    exact hpast
  · rw [hcirc] at hn
    rcases recordFailure_state (s := s.circuit) with ho | ⟨hcl, hwas⟩
    · exact absurd ho hn
    · have hsame : (s.step cfg a).openings = s.openings := by
        unfold step
        rw [hc]
        exact if_neg fun hc => hn hc.2
      rw [hsame] at ht
      rw [hclock]
      exact (h.waited (by rw [show (s.advance cfg a.now).circuit.state = .closed from hwas]; decide) t ht).trans hstamp
  · rw [hclock]
    exact hpast
  · rw [hcirc] at hh
    rcases recordFailure_state (s := s.circuit) with ho | ⟨hcl, -⟩
    · rw [ho] at hh
      cases hh
    · rw [hcl] at hh
      cases hh

/-- A valid call that is not late keeps the invariant. -/
theorem Timed.step (h : s.Timed cfg) (hv : s.Valid a) (hl : s.NotLate cfg a) :
    (s.step cfg a).Timed cfg := by
  have hadv := h.advance hv.1
  cases hc : a.call with
  | isOpen => exact hadv.isOpen hc
  | state =>
    unfold CircuitReplicas.step
    rw [hc]
    exact hadv
  | recordSuccess => exact hadv.recordSuccess hc fun ho => hl hc (transition_opened_iff.mp ho)
  | recordFailure stamp =>
    have hv := hv.2
    rw [hc] at hv
    exact hadv.recordFailure hc hv.2

/-- A call that is no success does not close the circuit. -/
theorem closes_only_on_success (hopen : s.circuit.state ≠ .closed)
    (hclosed : (s.step cfg a).circuit.state = .closed) : a.call = .recordSuccess := by
  have heff : (s.effective cfg a.now).state ≠ .closed := by
    unfold effective
    rcases transition_cases cfg a.now s.circuit with ⟨heq, -⟩ | ⟨-, -, heq⟩
    · rwa [heq]
    · rw [heq]
      nofun
  unfold step at hclosed
  cases hc : a.call with
  | recordSuccess => rfl
  | isOpen =>
    simp only [hc] at hclosed
    exact absurd (isOpen_state.symm.trans hclosed) heff
  | state =>
    simp only [hc] at hclosed
    exact absurd hclosed heff
  | recordFailure stamp =>
    simp only [hc] at hclosed
    rcases recordFailure_state (s := s.circuit) with ho | ⟨-, hwas⟩
    · rw [ho] at hclosed
      cases hclosed
    · exact absurd hwas heff

/-- Under the invariant, a call closes the circuit by probes exactly when it is not a
late success. -/
theorem Timed.closesByProbes_iff (h : s.Timed cfg) (hv : s.Valid a) :
    s.ClosesByProbes cfg a ↔ s.NotLate cfg a := by
  constructor
  · intro hcl hc hopen
    have heff := transition_opened_iff.mpr hopen
    have hclosed : (s.step cfg a).circuit.state = .closed := by
      unfold CircuitReplicas.step
      rw [hc]
      simp only [recordSuccess_of_ne (show (s.circuit.transition cfg a.now).state ≠ .halfOpen by
        rw [heff]; decide)]
    have hhalf := (hcl (by rw [hopen.1]; decide) hclosed).1
    rw [effective, heff] at hhalf
    cases hhalf
  · intro hl hne hclosed
    have hc := closes_only_on_success hne hclosed
    have hhalf : (s.effective cfg a.now).state = .halfOpen := by
      cases heff : (s.effective cfg a.now).state with
      | halfOpen => rfl
      | opened => exact absurd (transition_opened_iff.mp heff) (hl hc)
      | closed =>
        rcases transition_cases cfg a.now s.circuit with ⟨heq, -⟩ | ⟨-, -, heq⟩
        · rw [effective, heq] at heff
          exact absurd heff hne
        · rw [effective, heq] at heff
          cases heff
    refine ⟨hhalf, hc, ?_⟩
    have hcount := (h.advance hv.1).counted hhalf
    unfold CircuitReplicas.step at hclosed ⊢
    simp only [hc, recordSuccess_of_halfOpen hhalf] at hclosed
    simp only [hc, if_pos hhalf]
    split at hclosed
    · rw [← hcount]
      assumption
    · rw [show (s.circuit.transition cfg a.now).state = .halfOpen from hhalf] at hclosed
      cases hclosed

/-! ### Every interleaving -/

/-- On a disciplined run from a state with the invariant, the law holds exactly when
no call is late. -/
theorem Timed.staysOpen_iff (h : s.Timed cfg) {run : List (ReplicaCall ρ)}
    (hv : Run.Guarded (CircuitReplicas.step cfg) Valid s run) :
    StaysOpen cfg s run ↔ Run.Guarded (CircuitReplicas.step cfg) (NotLate cfg) s run := by
  have hiff := Run.guarded_iff_guarded
    (fun s a hs hv hl => Timed.step hs hv hl)
    (fun s a hs hv => hs.closesByProbes_iff hv) h hv
  refine ⟨fun hst => hiff.mp hst.2, fun hl => ⟨?_, hiff.mpr hl⟩⟩
  exact (Run.guarded_and.mpr ⟨hv, hl⟩).always (fun s a hs hva => hs.step hva.1 hva.2)
    (fun s hs => hs.notClosedEarly) h

/-- **The law fails on late reports only.**  Whatever the number of replicas and
however their calls interleave, an open circuit stays open for its reset timeout and
closes only by probes exactly when no success is reported while the circuit is OPEN
and its timeout has not elapsed. -/
theorem staysOpen_iff_notLate (cfg : BreakerConfig) (clock : ℚ) (run : List (ReplicaCall ρ))
    (hv : Run.Guarded (step cfg) Valid (initial ρ clock) run) :
    StaysOpen cfg (initial ρ clock) run ↔
      Run.Guarded (step cfg) (NotLate cfg) (initial ρ clock) run :=
  (initial_timed clock).staysOpen_iff hv

/-- One failure opens the circuit, and two probes close it. -/
def strict : BreakerConfig := { failureThreshold := 1, halfOpenMaxProbes := 2 }

/-- A failure at 1, and two probes after the timeout, by two replicas. -/
def probed : List (ReplicaCall Bool) :=
  [⟨true, 0, .isOpen⟩, ⟨true, 1, .recordFailure 1⟩, ⟨false, 40, .isOpen⟩, ⟨true, 41, .isOpen⟩,
   ⟨true, 42, .recordSuccess⟩, ⟨false, 43, .recordSuccess⟩]

theorem probed_staysOpen : StaysOpen strict (initial Bool 0) probed :=
  (staysOpen_iff_notLate strict 0 probed (by decide +kernel)).mpr (by decide +kernel)

/-- Two replicas let a request through; the second's fails and opens the circuit, the
first's succeeds a second later. -/
def overtaken : List (ReplicaCall Bool) :=
  [⟨false, 0, .isOpen⟩, ⟨true, 0, .isOpen⟩, ⟨true, 1, .recordFailure 1⟩,
   ⟨false, 2, .recordSuccess⟩]

/-- The late report closes the circuit 29 seconds before its reset timeout. -/
theorem late_success_closes :
    Run.Guarded (step strict) Valid (initial Bool 0) overtaken ∧
      ¬ StaysOpen strict (initial Bool 0) overtaken := by
  refine ⟨by decide +kernel, fun h => ?_⟩
  exact h.1 overtaken List.prefix_rfl 1 (by decide +kernel) (by decide +kernel) (by decide +kernel)

end CircuitReplicas
end ComputeIntelligence
