import ComputeIntelligence.Gateway
import ComputeIntelligence.HalfOpen

/-! # The shared circuit state, as JSON leaves it

`RedisCircuitStateStore` keeps the circuit as a JSON text under one key, and
`_parse_state` turns whatever is there into a `CircuitBreakerState`: it checks the
names of the fields and nothing else.  The record of this module has Python values for
fields, and the mutators of `CircuitBreaker` compute on them and raise as Python does.

`_safe_mutate` catches `RedisError` and nothing else: it then applies the mutator to
the state the process saw last.  What one mutation meets (writes of other clients, lost
races, an unreachable server, an EXEC that fails) is an input (`MutateEnv`).

On records whose fields have the declared types the mutators are those of
`CircuitBreaker` (`RawState.isOpen_ofState` and its siblings).
-/
namespace ComputeIntelligence

/-- A `CircuitBreakerState` built from a parsed JSON object. -/
structure RawState where
  state : PyVal := .str "closed"
  failureCount : PyVal := .int 0
  lastFailureTimeEpochS : PyVal := .float (.finite 0)
  halfOpenSuccessCount : PyVal := .int 0
  halfOpenProbeCount : PyVal := .int 0
  totalOpens : PyVal := .int 0
  totalFailOpens : PyVal := .int 0

/-- What is stored under the key: nothing (or the empty text), a text that is no JSON,
or the text of a JSON value. -/
inductive KeyContent where
  | absent
  | malformed
  | json (v : PyVal)

/-- The fields of the dataclass. -/
def circuitStateFields : List String :=
  ["state", "failure_count", "last_failure_time_epoch_s", "half_open_success_count",
    "half_open_probe_count", "total_opens", "total_fail_opens"]

namespace RawState

/-- `asdict`. -/
def toItems (st : RawState) : List (String × PyVal) :=
  [("state", st.state), ("failure_count", st.failureCount),
   ("last_failure_time_epoch_s", st.lastFailureTimeEpochS),
   ("half_open_success_count", st.halfOpenSuccessCount),
   ("half_open_probe_count", st.halfOpenProbeCount), ("total_opens", st.totalOpens),
   ("total_fail_opens", st.totalFailOpens)]

/-- `CircuitBreakerState(**parsed)`: an unknown name is a `TypeError`. -/
def ofItems (kvs : List (String × PyVal)) : Except PyExn RawState :=
  if kvs.all fun kv => circuitStateFields.contains kv.1 then
    .ok { state := (kvs.lookup "state").getD (.str "closed")
          failureCount := (kvs.lookup "failure_count").getD (.int 0)
          lastFailureTimeEpochS :=
            (kvs.lookup "last_failure_time_epoch_s").getD (.float (.finite 0))
          halfOpenSuccessCount := (kvs.lookup "half_open_success_count").getD (.int 0)
          halfOpenProbeCount := (kvs.lookup "half_open_probe_count").getD (.int 0)
          totalOpens := (kvs.lookup "total_opens").getD (.int 0)
          totalFailOpens := (kvs.lookup "total_fail_opens").getD (.int 0) }
  else .error .typeError

/-- `json.dumps(asdict(state))`. -/
def dumps (st : RawState) : Except PyExn KeyContent :=
  if PyVal.isJsonItems st.toItems then .ok (.json (.dict st.toItems)) else .error .valueError

end RawState

/-- `_parse_state`. -/
def KeyContent.parseState : KeyContent → Except PyExn RawState
  | .absent => .ok {}
  | .malformed => .error .valueError
  | .json v =>
      if v.isJson then
        match v with
        | .dict kvs => RawState.ofItems kvs
        | _ => .error .typeError
      else .error .valueError

/-- The readings of `time.time()` a mutator makes. -/
structure Reading where
  now : ℚ
  stamp : ℚ

/-- A mutator, with the value its closure returns. -/
abbrev Mutator (α : Type) := Reading → RawState → Except PyExn (α × RawState)

namespace RawState
variable (cfg : BreakerConfig)

/-- `_transition_if_reset_timeout_elapsed`. -/
def transition (now : ℚ) (st : RawState) : Except PyExn RawState :=
  if st.state.isText "open" then do
    let elapsed ← st.lastFailureTimeEpochS.subFrom now
    .ok (if elapsed.ge cfg.resetTimeoutS then
      { st with state := .str "half_open", halfOpenSuccessCount := .int 0,
                halfOpenProbeCount := .int 0 }
    else st)
  else .ok st

/-- `state`. -/
def readState : Mutator PyVal := fun r st => do
  let st ← st.transition cfg r.now
  .ok (st.state, st)

/-- The refusal that both closed doors of `is_open` share. -/
def refuse (st : RawState) : Except PyExn (Bool × RawState) := do
  let total ← st.totalFailOpens.addOne
  .ok (true, { st with totalFailOpens := total })

/-- `is_open`. -/
def isOpen : Mutator Bool := fun r st => do
  let st ← st.transition cfg r.now
  if st.state.isText "open" then st.refuse
  else if st.state.isText "half_open" then do
    if (← st.halfOpenProbeCount.ltInt cfg.halfOpenMaxProbes) then do
      let probes ← st.halfOpenProbeCount.addOne
      .ok (false, { st with halfOpenProbeCount := probes })
    else st.refuse
  else .ok (false, st)

/-- `record_success`. -/
def recordSuccess : Mutator Unit := fun r st => do
  let st ← st.transition cfg r.now
  if st.state.isText "half_open" then do
    let successes ← st.halfOpenSuccessCount.addOne
    if (← successes.geInt cfg.halfOpenMaxProbes) then
      .ok ((), { st with state := .str "closed", failureCount := .int 0,
                         halfOpenSuccessCount := .int 0, halfOpenProbeCount := .int 0 })
    else .ok ((), { st with halfOpenSuccessCount := successes })
  else .ok ((), { st with failureCount := .int 0, state := .str "closed" })

/-- `record_failure` in HALF_OPEN: the circuit reopens. -/
def reopen (stamp : ℚ) (st : RawState) : Except PyExn (Unit × RawState) := do
  let opens ← st.totalOpens.addOne
  .ok ((), { st with state := .str "open", halfOpenSuccessCount := .int 0,
                     halfOpenProbeCount := .int 0, failureCount := .int cfg.failureThreshold,
                     lastFailureTimeEpochS := .float (.finite stamp), totalOpens := opens })

/-- `record_failure` otherwise: the failure is counted, and the circuit opens at the
threshold. -/
def countFailure (stamp : ℚ) (st : RawState) : Except PyExn (Unit × RawState) := do
  let failures ← st.failureCount.addOne
  let st := { st with failureCount := failures, lastFailureTimeEpochS := .float (.finite stamp) }
  if (← failures.geInt cfg.failureThreshold) then do
    let opens ← st.totalOpens.addOne
    .ok ((), { st with state := .str "open", halfOpenSuccessCount := .int 0,
                       halfOpenProbeCount := .int 0, totalOpens := opens })
  else .ok ((), st)

/-- `record_failure`. -/
def recordFailure : Mutator Unit := fun r st => do
  let st ← st.transition cfg r.now
  if st.state.isText "half_open" then st.reopen cfg r.stamp else st.countFailure cfg r.stamp

end RawState

/-! ### Mutating the key -/

/-- How the attempt that ends `mutate` goes: it commits; a `RedisError` is raised before
the key is read; or EXEC raises one, and nothing is written. -/
inductive StoreFault where
  | commits | unreachable | execFails

/-- What one mutation meets. -/
structure MutateEnv where
  /-- Another client wrote the key since the previous mutation. -/
  before : Option KeyContent := none
  /-- Attempts lost to a `WatchError`, each with what the other client wrote. -/
  races : List (Reading × KeyContent) := []
  reading : Reading
  fault : StoreFault := .commits
  /-- The readings of the mutator on the fallback state. -/
  degraded : Reading

/-- What other clients write during the mutation. -/
def MutateEnv.writes (e : MutateEnv) : List KeyContent := e.before.toList ++ e.races.map Prod.snd

/-- The shared key and the process's copy of the state it saw last. -/
structure RedisCircuit where
  content : KeyContent
  fallback : RawState

variable {α : Type}

/-- One round of `mutate` up to EXEC: parse, mutate, dump. -/
def attempt (m : Mutator α) (r : Reading) (c : KeyContent) :
    Except PyExn (α × RawState × KeyContent) := do
  let st ← c.parseState
  let (a, st') ← m r st
  let c' ← st'.dumps
  .ok (a, st', c')

/-- The rounds lost to a `WatchError`, and what is stored after them. -/
def lostRounds (m : Mutator α) : List (Reading × KeyContent) → KeyContent →
    Except PyExn Unit × KeyContent
  | [], c => (.ok (), c)
  | (r, written) :: rest, c => match attempt m r c with
      | .ok _ => lostRounds m rest written
      | .error x => (.error x, c)

/-- The mutator on the fallback state. -/
def degrade (m : Mutator α) (r : Reading) (content : KeyContent) (fallback : RawState) :
    Except PyExn α × RedisCircuit :=
  match m r fallback with
  | .ok (a, st) => (.ok a, ⟨content, st⟩)
  | .error x => (.error x, ⟨content, fallback⟩)

/-- `_safe_mutate` over `RedisCircuitStateStore.mutate`. -/
def safeMutate (e : MutateEnv) (m : Mutator α) : Eff PyExn RedisCircuit α := fun s =>
  match lostRounds m e.races (e.before.getD s.content) with
  | (.error x, c) => (.error x, ⟨c, s.fallback⟩)
  | (.ok (), c) =>
      match e.fault with
      | .unreachable => degrade m e.degraded c s.fallback
      | .commits => match attempt m e.reading c with
          | .ok (a, st, c') => (.ok a, ⟨c', st⟩)
          | .error x => (.error x, ⟨c, s.fallback⟩)
      | .execFails => match attempt m e.reading c with
          | .ok _ => degrade m e.degraded c s.fallback
          | .error x => (.error x, ⟨c, s.fallback⟩)

/-- What the four circuit calls of one `intercept` meet. -/
structure StoreEnv where
  gate : MutateEnv
  report : MutateEnv
  failure : MutateEnv
  metrics : MetricsPass → MutateEnv

/-- What other clients write during the call. -/
def StoreEnv.writes (e : StoreEnv) : List KeyContent :=
  e.gate.writes ++ e.report.writes ++ e.failure.writes ++ (e.metrics .answered).writes ++
    (e.metrics .failed).writes

/-- The circuit breaker over the shared key. -/
def redisOps (cfg : BreakerConfig) (e : StoreEnv) : CircuitOps RedisCircuit where
  isOpen := safeMutate e.gate (RawState.isOpen cfg)
  recordSuccess := safeMutate e.report (RawState.recordSuccess cfg)
  recordFailure := safeMutate e.failure (RawState.recordFailure cfg)
  state := fun pass => safeMutate (e.metrics pass) (RawState.readState cfg)

/-! ### Records of the declared types -/

namespace RawState
variable {cfg : BreakerConfig} {s : CircuitBreakerState} {r : Reading}

/-- The record of a typed state. -/
def ofState (s : CircuitBreakerState) : RawState where
  state := .str s.state.value
  failureCount := .int s.failureCount
  lastFailureTimeEpochS := .float (.finite s.lastFailureTime)
  halfOpenSuccessCount := .int s.halfOpenSuccessCount
  halfOpenProbeCount := .int s.halfOpenProbeCount
  totalOpens := .int s.totalOpens
  totalFailOpens := .int s.totalFailOpens

theorem isText_open : (ofState s).state.isText "open" = decide (s.state = .opened) := by
  cases h : s.state <;> simp [ofState, PyVal.isText, h, CircuitState.value]

theorem isText_halfOpen : (ofState s).state.isText "half_open" = decide (s.state = .halfOpen) := by
  cases h : s.state <;> simp [ofState, PyVal.isText, h, CircuitState.value]

theorem transition_ofState :
    (ofState s).transition cfg r.now = .ok (ofState (s.transition cfg r.now)) := by
  unfold transition CircuitBreakerState.transition
  rw [isText_open]
  by_cases ho : s.state = .opened
  · simp only [ho, decide_true, if_true, true_and]
    change Except.ok (if decide (cfg.resetTimeoutS ≤ r.now - s.lastFailureTime) = true then _
      else _) = _
    by_cases hel : cfg.resetTimeoutS ≤ r.now - s.lastFailureTime
    · rw [if_pos hel, if_pos (decide_eq_true hel)]
      rfl
    · rw [if_neg hel, if_neg (by simpa using hel)]
  · simp only [ho, decide_false, Bool.false_eq_true, if_false, false_and]

theorem readState_ofState : readState cfg r (ofState s) =
    .ok (.str (s.transition cfg r.now).state.value, ofState (s.transition cfg r.now)) := by
  unfold readState
  rw [transition_ofState]
  rfl

/-- A transition of a typed record, and what follows it. -/
theorem transition_bind_ofState {β : Type} (f : RawState → Except PyExn β) :
    ((ofState s).transition cfg r.now >>= f) = f (ofState (s.transition cfg r.now)) := by
  rw [transition_ofState]
  rfl

theorem isOpen_ofState : isOpen cfg r (ofState s) =
    .ok ((s.isOpen cfg r.now).1, ofState (s.isOpen cfg r.now).2) := by
  unfold isOpen
  rw [transition_bind_ofState, isText_open, isText_halfOpen]
  cases hs : (s.transition cfg r.now).state with
  | opened =>
    rw [CircuitBreakerState.isOpen_of_opened hs]
    rfl
  | closed =>
    rw [CircuitBreakerState.isOpen_of_closed hs]
    rfl
  | halfOpen =>
    rw [CircuitBreakerState.isOpen_of_halfOpen hs]
    change (if decide ((s.transition cfg r.now).halfOpenProbeCount < cfg.halfOpenMaxProbes) = true
      then _ else _) = _
    by_cases hslot : (s.transition cfg r.now).halfOpenProbeCount < cfg.halfOpenMaxProbes
    · rw [if_pos hslot, if_pos (decide_eq_true hslot)]
      rfl
    · rw [if_neg hslot, if_neg (by simpa using hslot)]
      rfl

theorem recordSuccess_ofState : recordSuccess cfg r (ofState s) =
    .ok ((), ofState (s.recordSuccess cfg r.now)) := by
  unfold recordSuccess
  rw [transition_bind_ofState, isText_halfOpen]
  by_cases hs : (s.transition cfg r.now).state = .halfOpen
  · rw [CircuitBreakerState.recordSuccess_of_halfOpen hs, if_pos (decide_eq_true hs)]
    change (if decide (cfg.halfOpenMaxProbes ≤ (s.transition cfg r.now).halfOpenSuccessCount + 1) =
      true then _ else _) = _
    by_cases hmax : cfg.halfOpenMaxProbes ≤ (s.transition cfg r.now).halfOpenSuccessCount + 1
    · rw [if_pos hmax, if_pos (decide_eq_true hmax)]
      rfl
    · rw [if_neg hmax, if_neg (by simpa using hmax)]
      rfl
  · rw [CircuitBreakerState.recordSuccess_of_ne hs, if_neg (by simpa using hs)]
    rfl

theorem recordFailure_ofState : recordFailure cfg r (ofState s) =
    .ok ((), ofState (s.recordFailure cfg r.now r.stamp)) := by
  unfold recordFailure
  rw [transition_bind_ofState, isText_halfOpen]
  by_cases hs : (s.transition cfg r.now).state = .halfOpen
  · rw [CircuitBreakerState.recordFailure_of_halfOpen hs, if_pos (decide_eq_true hs)]
    rfl
  · rw [CircuitBreakerState.recordFailure_of_ne hs, if_neg (by simpa using hs)]
    change (if decide (cfg.failureThreshold ≤ (s.transition cfg r.now).failureCount + 1) =
      true then _ else _) = _
    by_cases htrip : cfg.failureThreshold ≤ (s.transition cfg r.now).failureCount + 1
    · rw [if_pos htrip, if_pos (decide_eq_true htrip)]
      rfl
    · rw [if_neg htrip, if_neg (by simpa using htrip)]
      rfl

/-! ### Parsing what was dumped -/

theorem parseState_dumps {st : RawState} {c : KeyContent} (h : st.dumps = .ok c) :
    c.parseState = .ok st := by
  unfold dumps at h
  split at h
  · rename_i hjson
    cases h
    change (if (PyVal.dict st.toItems).isJson = true then ofItems st.toItems else _) = _
    rw [if_pos (by simpa [PyVal.isJson] using hjson)]
    rfl
  · cases h

end RawState
end ComputeIntelligence
