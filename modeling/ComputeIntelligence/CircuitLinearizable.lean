import ComputeIntelligence.CircuitStore
import ComputeIntelligence.ExceptRules
import ComputeIntelligence.Optimistic

/-! # The shared circuit is one circuit

Replicas run `RedisCircuitStateStore.mutate` on one key: WATCH, GET, the mutator, MULTI
and SET, EXEC, and again from WATCH when EXEC raises `WatchError`.  The mutators are
closures: each attempt runs them anew, with new clock readings, and they assign variables
of the method that made them, from which `is_open` and `state` answer.

The store is an instance of optimistic transactions (`protocol`).  Every mutator assigns
its variable on every path, so a lost attempt leaves no trace in the answer (`outcome_eq`),
and every interleaving of any number of calls is a serial run of the circuit
(`mutations_linearizable`).  What the key holds at first is arbitrary; if it cannot be
parsed every mutation raises and nothing is ever written.

The variables that only end up in log lines are left out.
-/
namespace ComputeIntelligence

namespace RawState

/-- `force_open`. -/
def forceOpen : Mutator Unit := fun r st => do
  let opens ← st.totalOpens.addOne
  .ok ((), { st with state := .str "open", lastFailureTimeEpochS := .float (.finite r.stamp),
                     halfOpenSuccessCount := .int 0, halfOpenProbeCount := .int 0,
                     totalOpens := opens })

/-- `force_close`. -/
def forceClose : Mutator Unit := fun _ st =>
  .ok ((), { st with state := .str "closed", failureCount := .int 0,
                     halfOpenSuccessCount := .int 0, halfOpenProbeCount := .int 0 })

/-- The dictionary that `get_metrics` makes of the state it is given. -/
def metrics (cfg : BreakerConfig) (st : RawState) : PyVal :=
  .dict [("state", st.state), ("failure_count", st.failureCount),
    ("failure_threshold", .int cfg.failureThreshold),
    ("half_open_probe_count", st.halfOpenProbeCount), ("total_opens", st.totalOpens),
    ("total_fail_opens", st.totalFailOpens), ("backend", .str "RedisCircuitStateStore")]

end RawState

/-- The operations of a `CircuitBreaker`. -/
inductive CircuitOp where
  | isOpen | state | recordSuccess | recordFailure | forceOpen | forceClose | getMetrics
deriving DecidableEq

/-- What outlives an attempt: the variables the closures of `is_open` and `state` assign,
and the state that `mutate` returns. -/
structure Captured where
  shouldFailOpen : Bool := false
  currentState : PyVal := .str "closed"
  result : RawState := {}

namespace CircuitOp
variable (cfg : BreakerConfig)

/-- The closure of an operation: the variables and the state it leaves. -/
def closure (r : Reading) (st : RawState) (captured : Captured) :
    CircuitOp → Except PyExn (Captured × RawState)
  | .isOpen => do
      let (shouldFailOpen, st) ← RawState.isOpen cfg r st
      .ok ({ captured with shouldFailOpen }, st)
  | .state => do
      let (currentState, st) ← RawState.readState cfg r st
      .ok ({ captured with currentState }, st)
  | .recordSuccess => do
      let ((), st) ← RawState.recordSuccess cfg r st
      .ok (captured, st)
  | .recordFailure => do
      let ((), st) ← RawState.recordFailure cfg r st
      .ok (captured, st)
  | .forceOpen => do
      let ((), st) ← RawState.forceOpen r st
      .ok (captured, st)
  | .forceClose => do
      let ((), st) ← RawState.forceClose r st
      .ok (captured, st)
  | .getMetrics => do
      let st ← st.transition cfg r.now
      .ok (captured, st)

/-- What the method returns once `mutate` has. -/
def answer (captured : Captured) : CircuitOp → PyVal
  | .isOpen => .bool captured.shouldFailOpen
  | .state => captured.currentState
  | .getMetrics => captured.result.metrics cfg
  | _ => .none

/-- The operation on a circuit nobody else uses: its answer, and the state after it. -/
def alone (r : Reading) (st : RawState) : CircuitOp → Except PyExn (PyVal × RawState)
  | .isOpen => (RawState.isOpen cfg r st).map fun x => (.bool x.1, x.2)
  | .state => RawState.readState cfg r st
  | .recordSuccess => (RawState.recordSuccess cfg r st).map fun x => (.none, x.2)
  | .recordFailure => (RawState.recordFailure cfg r st).map fun x => (.none, x.2)
  | .forceOpen => (RawState.forceOpen r st).map fun x => (.none, x.2)
  | .forceClose => (RawState.forceClose r st).map fun x => (.none, x.2)
  | .getMetrics => (st.transition cfg r.now).map fun st => (st.metrics cfg, st)

end CircuitOp

namespace RedisCircuitStateStore

/-- `mutate`, one attempt up to EXEC. -/
def protocol (cfg : BreakerConfig) :
    Optimistic.Protocol CircuitOp Reading KeyContent Captured PyExn PyVal where
  initial _ := {}
  body op r content captured := do
    let st ← content.parseState
    let (captured, st) ← op.closure cfg r st captured
    let written ← st.dumps
    .ok ({ captured with result := st }, written)
  answer op captured := op.answer cfg captured

/-- The replicas' calls and the key. -/
abbrev Replicas := Optimistic.System CircuitOp Reading KeyContent Captured PyExn PyVal

/-- A commit: whose call it was, its readings, and what it answered. -/
abbrev CircuitCommit := Optimistic.Commit CircuitOp Reading PyVal

/-- A serial run of a circuit: one operation after the other. -/
inductive SerialRun (cfg : BreakerConfig) (initial : RawState) :
    List CircuitCommit → RawState → Prop where
  | nil : SerialRun cfg initial [] initial
  | commit {cs : List CircuitCommit} {st st' : RawState} {i : Nat} {op : CircuitOp} {r : Reading}
      {a : PyVal} (before : SerialRun cfg initial cs st)
      (alone : op.alone cfg r st = .ok (a, st')) :
      SerialRun cfg initial (cs ++ [⟨i, op, r, a⟩]) st'

variable {cfg : BreakerConfig}

/-- Every closure assigns what its method answers, on every path. -/
theorem closure_answer (op : CircuitOp) (r : Reading) (st : RawState) (captured : Captured) :
    (op.closure cfg r st captured).map
        (fun x => (op.answer cfg { x.1 with result := x.2 }, x.2)) = op.alone cfg r st := by
  cases op with
  | isOpen =>
    unfold CircuitOp.closure CircuitOp.alone
    cases RawState.isOpen cfg r st <;> rfl
  | state =>
    unfold CircuitOp.closure CircuitOp.alone
    cases RawState.readState cfg r st <;> rfl
  | recordSuccess =>
    unfold CircuitOp.closure CircuitOp.alone
    cases RawState.recordSuccess cfg r st <;> rfl
  | recordFailure =>
    unfold CircuitOp.closure CircuitOp.alone
    cases RawState.recordFailure cfg r st <;> rfl
  | forceOpen =>
    unfold CircuitOp.closure CircuitOp.alone
    cases RawState.forceOpen r st <;> rfl
  | forceClose => rfl
  | getMetrics =>
    unfold CircuitOp.closure CircuitOp.alone
    cases st.transition cfg r.now <;> rfl

/-- Whatever the captured variables hold, an attempt answers and writes what the
operation gives on the state it parsed. -/
theorem outcome_eq (op : CircuitOp) (r : Reading) (content : KeyContent) (captured : Captured) :
    (protocol cfg).outcome op r content captured = (do
      let st ← content.parseState
      let (a, st) ← op.alone cfg r st
      let written ← st.dumps
      .ok (a, written)) := by
  unfold Optimistic.Protocol.outcome protocol
  dsimp only
  cases content.parseState with
  | error e => rfl
  | ok st =>
    change Except.map _ (op.closure cfg r st captured >>= _) = (op.alone cfg r st >>= _)
    rw [← closure_answer op r st captured]
    cases op.closure cfg r st captured with
    | error e => rfl
    | ok x =>
      change Except.map _ (x.2.dumps >>= _) = (x.2.dumps >>= _)
      cases x.2.dumps <;> rfl

theorem protocol_fresh (cfg : BreakerConfig) : (protocol cfg).Fresh := by
  intro op r content captured
  unfold Optimistic.Protocol.once
  rw [outcome_eq, outcome_eq]

/-- A committed attempt is an operation on the parsed state. -/
theorem once_eq_ok {op : CircuitOp} {r : Reading} {content written : KeyContent} {a : PyVal}
    (h : (protocol cfg).once op r content = .ok (a, written)) :
    ∃ st st', content.parseState = .ok st ∧ op.alone cfg r st = .ok (a, st') ∧
      written.parseState = .ok st' := by
  unfold Optimistic.Protocol.once at h
  rw [outcome_eq] at h
  obtain ⟨st, hparse, h⟩ := Except.bind_eq_ok h
  obtain ⟨⟨a', st'⟩, halone, h⟩ := Except.bind_eq_ok h
  obtain ⟨c', hdump, h⟩ := Except.bind_eq_ok h
  cases h
  exact ⟨st, st', hparse, halone, RawState.parseState_dumps hdump⟩

/-- A serial run over the key is one over the state it holds. -/
theorem serialRun_of_serial {initial content : KeyContent} {st₀ : RawState}
    (hinitial : initial.parseState = .ok st₀) {commits : List CircuitCommit}
    (h : Optimistic.Serial (protocol cfg) initial commits content) :
    ∃ st, SerialRun cfg st₀ commits st ∧ content.parseState = .ok st := by
  induction h with
  | nil => exact ⟨st₀, .nil, hinitial⟩
  | commit _ honce ih =>
    obtain ⟨st, hrun, hparse⟩ := ih
    obtain ⟨st₁, st', hparse₁, halone, hwritten⟩ := once_eq_ok honce
    have hsame : st₁ = st := Except.ok.inj (hparse₁.symm.trans hparse)
    subst hsame
    exact ⟨st', .commit hrun halone, hwritten⟩

/-- A key that cannot be parsed is never written. -/
theorem serial_of_unparsable {initial content : KeyContent} {e : PyExn}
    (hinitial : initial.parseState = .error e) {commits : List CircuitCommit}
    (h : Optimistic.Serial (protocol cfg) initial commits content) :
    commits = [] ∧ content = initial := by
  induction h with
  | nil => exact ⟨rfl, rfl⟩
  | commit _ honce ih =>
    obtain ⟨-, rfl⟩ := ih
    obtain ⟨st, _, hparse, -⟩ := once_eq_ok honce
    rw [hinitial] at hparse
    cases hparse

/-- What linearizability says of the replicas' calls so far. -/
structure Linearized (cfg : BreakerConfig) (initial : KeyContent) (s : Replicas) : Prop where
  /-- The stored state is the initial one after the committed operations, in the order of
  their EXECs; their answers are those of the serial run. -/
  serial : ∀ st₀, initial.parseState = .ok st₀ →
    ∃ st, SerialRun cfg st₀ s.commits st ∧ s.content.parseState = .ok st
  unparsable : ∀ e, initial.parseState = .error e → s.commits = [] ∧ s.content = initial
  /-- No call commits twice. -/
  once : (s.commits.map Optimistic.Commit.client).Nodup
  /-- The calls that have returned are those that committed, with the answer of their
  commit. -/
  returned : ∀ (i : Nat) (c : Optimistic.Client CircuitOp Reading KeyContent Captured PyExn PyVal)
    (a : PyVal), s.clients[i]? = some c →
      (c.phase = .returned a ↔ ∃ r, ⟨i, c.op, r, a⟩ ∈ s.commits)

/-- **The shared circuit is linearizable**: after any interleaving of the replicas' steps,
from whatever the key held at first. -/
theorem mutations_linearizable (cfg : BreakerConfig) (initial : KeyContent)
    (steps : List (Optimistic.Step CircuitOp Reading)) :
    Linearized cfg initial
      (Run.exec (Optimistic.System.step (protocol cfg)) { content := initial } steps) := by
  have h := Optimistic.linearizable (protocol_fresh cfg) initial steps
  refine ⟨fun st₀ hst => serialRun_of_serial hst h.serial,
    fun e he => serial_of_unparsable he h.serial, h.nodup, fun i c a hi => ⟨?_, ?_⟩⟩
  · exact h.returned i c a hi
  · rintro ⟨r, hmem⟩
    obtain ⟨d, hd, -, hret⟩ := h.committed _ hmem
    rw [hi, Option.some.injEq] at hd
    rw [hd]
    exact hret

end RedisCircuitStateStore
end ComputeIntelligence
