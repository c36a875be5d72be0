import ComputeIntelligence.GuardedRuns
import ComputeIntelligence.KeyedLock
import ComputeIntelligence.ShadowWarming

/-! # Refreshes in the background

`trigger_refresh` (`interceptor/shadow_warming.py`) in any number of tasks at once.  The warmer's
lock is held for a check or an update and given back before `refresh_fn` is awaited, so a call is
a sequence of steps: it claims its workload or leaves, runs `refresh_fn`, which returns, raises or
is cancelled, records a success, and gives the workload up.  A run is any list of such steps of
any calls, with the checks of the cache misses in between; a step that is not the next one of its
call changes nothing.

`in_progress` guards the workloads: it holds those that a call has claimed and not given up, and
no two calls have claimed one.  On an event loop, where a call runs from one `await` to the next
without interruption, these are the workloads whose `refresh_fn` is running.
-/
namespace ComputeIntelligence

/-! ### The warmer -/

namespace ShadowWarmer

/-- The claim of a workload that is not in progress. -/
def claim (w : ShadowWarmer) (workloadId : String) : ShadowWarmer :=
  { w with inProgress := workloadId :: w.inProgress }

/-- `self._state.in_progress.discard(workload_id)`. -/
def discard (w : ShadowWarmer) (workloadId : String) : ShadowWarmer :=
  { w with inProgress := w.inProgress.filter (· ≠ workloadId) }

/-- The loop of `_record_refresh_locked`, from the oldest refresh on. -/
def dropOldest (maxEntries : Int) : Nat → PyDict String ℚ → PyDict String ℚ
  | 0, lastRefresh => lastRefresh
  | fuel + 1, lastRefresh =>
      if maxEntries < lastRefresh.size then
        match lastRefresh.popFirst with
        | none => lastRefresh
        | some (_, rest) => dropOldest maxEntries fuel rest
      else lastRefresh

/-- `_record_refresh_locked`, and the count of the refresh. -/
def recordRefresh (w : ShadowWarmer) (config : InterceptorConfig) (workloadId : String)
    (refreshedAt : ℚ) : ShadowWarmer :=
  let lastRefresh := w.lastRefresh.setLast workloadId refreshedAt
  { w with
    lastRefresh := dropOldest config.shadowWarmMaxTrackedWorkloads lastRefresh.size lastRefresh
    refreshCount := w.refreshCount + 1 }

/-- The loop ends with as many entries as are allowed. -/
theorem size_dropOldest {maxEntries : Int} (hmax : 0 ≤ maxEntries) {fuel : Nat}
    {lastRefresh : PyDict String ℚ} (h : lastRefresh.size ≤ fuel) :
    ((dropOldest maxEntries fuel lastRefresh).size : Int) ≤ maxEntries := by
  induction fuel generalizing lastRefresh with
  | zero =>
    have hzero : (dropOldest maxEntries 0 lastRefresh).size = 0 := Nat.le_zero.1 h
    rw [hzero]
    exact hmax
  | succ fuel ih =>
    unfold dropOldest
    split
    · split
      · rename_i hpop
        rw [PyDict.popFirst_eq_none_iff] at hpop
        rw [hpop]
        exact hmax
      · rename_i x rest hpop
        have hsize := PyDict.size_popFirst hpop
        exact ih (by omega)
    · rename_i hfits
      exact not_lt.1 hfits

/-- The loop drops nothing where all entries fit. -/
theorem dropOldest_of_size_le {maxEntries : Int} {lastRefresh : PyDict String ℚ}
    (h : (lastRefresh.size : Int) ≤ maxEntries) (fuel : Nat) :
    dropOldest maxEntries fuel lastRefresh = lastRefresh := by
  cases fuel with
  | zero => rfl
  | succ fuel => exact if_neg (not_lt.2 h)

end ShadowWarmer

/-! ### Calls -/

/-- How `refresh_fn` ends. -/
inductive RefreshEnd where
  | success | exception | cancelled
deriving DecidableEq

/-- Where a `trigger_refresh` call is. -/
inductive RefreshPhase where
  | pending | claimed | running | ended (how : RefreshEnd) | recorded | returned
deriving DecidableEq

/-- The call has claimed its workload and not given it up. -/
def RefreshPhase.holds : RefreshPhase → Bool
  | .pending | .returned => false
  | _ => true

/-- The call goes on to its `finally`. -/
def RefreshPhase.finishes : RefreshPhase → Bool
  | .ended .exception | .ended .cancelled | .recorded => true
  | _ => false

theorem RefreshPhase.holds_of_finishes {p : RefreshPhase} (h : p.finishes = true) :
    p.holds = true := by
  cases p with
  | pending | returned => exact h
  | _ => rfl

/-- A `trigger_refresh` call.  A call that a miss has scheduled remembers when the miss was
checked, and how many refreshes had succeeded by then. -/
structure RefreshCall where
  workloadId : String
  phase : RefreshPhase := .pending
  checkedAt : ℚ := 0
  seen : Nat := 0

/-- A warmer and the calls on it, with the successful refreshes and the starts so far, oldest
first; a start remembers how many refreshes had succeeded before it. -/
structure WarmingSystem where
  warmer : ShadowWarmer := {}
  calls : Nat → Option RefreshCall := fun _ => none
  succeeded : List (String × ℚ) := []
  started : List (String × ℚ × Nat) := []
  clock : ℚ := 0

/-- A step: a new call, a cache miss, which may schedule one, or the next step of a call. -/
inductive WarmingAction where
  | call (i : Nat) (workloadId : String)
  | miss (i : Nat) (workloadId : String) (draw : ℚ)
  | claim (i : Nat)
  | start (i : Nat)
  | finish (i : Nat) (how : RefreshEnd)
  | record (i : Nat)
  | release (i : Nat)
  | cancel (i : Nat)

/-- The call that a step is of. -/
def WarmingAction.of : WarmingAction → Nat
  | .call i _ | .miss i _ _ | .claim i | .start i | .finish i _ | .record i | .release i
  | .cancel i => i

namespace WarmingSystem

/-- A warmer that nothing has called. -/
def fresh (minRefreshIntervalS clock : ℚ) : WarmingSystem :=
  { warmer := { minRefreshIntervalS }, clock }

/-- Register a call under a new number. -/
def schedule (s : WarmingSystem) (i : Nat) (c : RefreshCall) : WarmingSystem :=
  { s with calls := Function.update s.calls i (some c) }

/-- Go on with a call that is in one of the phases. -/
def goOn (s : WarmingSystem) (i : Nat) (inPhase : RefreshPhase → Bool)
    (next : RefreshCall → WarmingSystem) : WarmingSystem :=
  match s.calls i with
  | some c => if inPhase c.phase then next c else s
  | none => s

theorem calls_schedule_self (s : WarmingSystem) (i : Nat) (c : RefreshCall) :
    (s.schedule i c).calls i = some c :=
  Function.update_self ..

theorem calls_schedule_of_ne (s : WarmingSystem) {i j : Nat} (hne : j ≠ i) (c : RefreshCall) :
    (s.schedule i c).calls j = s.calls j :=
  Function.update_of_ne hne ..

/-- The call is in another phase. -/
def moved (s : WarmingSystem) (i : Nat) (c : RefreshCall) (phase : RefreshPhase) : WarmingSystem :=
  s.schedule i { c with phase := phase }

/-- One step, at a reading of the monotonic clock. -/
def act (config : InterceptorConfig) (s : WarmingSystem) (now : ℚ) : WarmingAction → WarmingSystem
  | .call i workloadId =>
      match s.calls i with
      | some _ => s
      | none => s.schedule i { workloadId }
  | .miss i workloadId draw =>
      match s.calls i with
      | some _ => s
      | none =>
          let (trigger, warmer) := s.warmer.shouldTriggerRefresh config workloadId now draw
          let s := { s with warmer }
          if trigger then
            s.schedule i { workloadId, checkedAt := now, seen := s.succeeded.length }
          else s
  | .claim i => s.goOn i (· = .pending) fun c =>
      if c.workloadId ∈ s.warmer.inProgress then s.moved i c .returned
      else { s.moved i c .claimed with warmer := s.warmer.claim c.workloadId }
  | .start i => s.goOn i (· = .claimed) fun c =>
      { s.moved i c .running with
        started := s.started ++ [(c.workloadId, now, s.succeeded.length)] }
  | .finish i how => s.goOn i (· = .running) fun c =>
      { s.moved i c (.ended how) with
        succeeded := if how = .success then s.succeeded ++ [(c.workloadId, now)] else s.succeeded }
  | .record i => s.goOn i (· = .ended .success) fun c =>
      { s.moved i c .recorded with warmer := s.warmer.recordRefresh config c.workloadId now }
  | .release i => s.goOn i RefreshPhase.finishes fun c =>
      { s.moved i c .returned with warmer := s.warmer.discard c.workloadId }
  | .cancel i => s.goOn i (· = .pending) fun c => s.moved i c .returned

/-- The clock goes on. -/
def ticked (s : WarmingSystem) (now : ℚ) : WarmingSystem := { s with clock := now }

/-- One step of a run. -/
def step (config : InterceptorConfig) (s : WarmingSystem) (a : ℚ × WarmingAction) :
    WarmingSystem :=
  (s.ticked a.1).act config a.1 a.2

/-! ### What a step can do -/

/-- The workload that a call has claimed. -/
def holds (s : WarmingSystem) (i : Nat) : Option String :=
  (s.calls i).bind fun c => if c.phase.holds then some c.workloadId else none

variable {config : InterceptorConfig} {s s' : WarmingSystem} {i : Nat} {c : RefreshCall}
  {w : String}

/-- The call is where the step begins. -/
def Ready (s : WarmingSystem) : WarmingAction → Prop
  | .call i _ | .miss i _ _ => s.calls i = none
  | .claim i | .cancel i => ∃ c, s.calls i = some c ∧ c.phase = .pending
  | .start i => ∃ c, s.calls i = some c ∧ c.phase = .claimed
  | .finish i _ => ∃ c, s.calls i = some c ∧ c.phase = .running
  | .record i => ∃ c, s.calls i = some c ∧ c.phase = .ended .success
  | .release i => ∃ c, s.calls i = some c ∧ c.phase.finishes = true

/-- What a step can do, with what the call found. -/
inductive Took (s : WarmingSystem) (config : InterceptorConfig) (now : ℚ) :
    WarmingAction → WarmingSystem → Prop
  | nothing {a : WarmingAction} (hoff : ¬ Ready s a) : Took s config now a s
  | called {i : Nat} {w : String} (hnew : s.calls i = none) :
      Took s config now (.call i w) (s.schedule i { workloadId := w })
  | counted (i : Nat) (w : String) (draw : ℚ) (n : Nat) :
      Took s config now (.miss i w draw) { s with warmer := { s.warmer with suppressedCount := n } }
  | missed {i : Nat} {w : String} {draw : ℚ} (hnew : s.calls i = none)
      (hidle : w ∉ s.warmer.inProgress)
      (hdue : s.warmer.minRefreshIntervalS ≤ now - s.warmer.lastRefresh.getD w 0) :
      Took s config now (.miss i w draw)
        (s.schedule i { workloadId := w, checkedAt := now, seen := s.succeeded.length })
  | suppressed {i : Nat} {c : RefreshCall} (hc : s.calls i = some c) (hphase : c.phase = .pending) :
      Took s config now (.claim i) (s.moved i c .returned)
  | claimed {i : Nat} {c : RefreshCall} (hc : s.calls i = some c) (hphase : c.phase = .pending)
      (hidle : c.workloadId ∉ s.warmer.inProgress) :
      Took s config now (.claim i)
        { s.moved i c .claimed with warmer := s.warmer.claim c.workloadId }
  | started {i : Nat} {c : RefreshCall} (hc : s.calls i = some c) (hphase : c.phase = .claimed) :
      Took s config now (.start i)
        { s.moved i c .running with
          started := s.started ++ [(c.workloadId, now, s.succeeded.length)] }
  | finished {i : Nat} {c : RefreshCall} (how : RefreshEnd) (hc : s.calls i = some c)
      (hphase : c.phase = .running) :
      Took s config now (.finish i how)
        { s.moved i c (.ended how) with
          succeeded :=
            if how = .success then s.succeeded ++ [(c.workloadId, now)] else s.succeeded }
  | recorded {i : Nat} {c : RefreshCall} (hc : s.calls i = some c)
      (hphase : c.phase = .ended .success) :
      Took s config now (.record i)
        { s.moved i c .recorded with warmer := s.warmer.recordRefresh config c.workloadId now }
  | released {i : Nat} {c : RefreshCall} (hc : s.calls i = some c)
      (hphase : c.phase.finishes = true) :
      Took s config now (.release i)
        { s.moved i c .returned with warmer := s.warmer.discard c.workloadId }
  | cancelled {i : Nat} {c : RefreshCall} (hc : s.calls i = some c) (hphase : c.phase = .pending) :
      Took s config now (.cancel i) (s.moved i c .returned)

/-- A step leaves the other calls where they are. -/
theorem Took.calls_of_ne {now : ℚ} {a : WarmingAction}
    (h : Took s config now a s') {j : Nat} (hne : j ≠ a.of) : s'.calls j = s.calls j := by
  cases h with
  | nothing | counted => rfl
  | _ => exact calls_schedule_of_ne s hne _

theorem Took.goOn {now : ℚ} {a : WarmingAction} {inPhase : RefreshPhase → Bool}
    {next : RefreshCall → WarmingSystem}
    (hready : Ready s a → ∃ c, s.calls i = some c ∧ inPhase c.phase = true)
    (h : ∀ c, s.calls i = some c → inPhase c.phase = true → Took s config now a (next c)) :
    Took s config now a (s.goOn i inPhase next) := by
  unfold WarmingSystem.goOn
  split
  · rename_i c hc
    split
    · rename_i hphase
      exact h c hc hphase
    · rename_i hphase
      apply Took.nothing
      intro ha
      obtain ⟨d, hd, hdphase⟩ := hready ha
      obtain rfl : c = d := Option.some.inj (hc.symm.trans hd)
      exact hphase hdphase
  · rename_i hnone
    apply Took.nothing
    intro ha
    obtain ⟨d, hd, -⟩ := hready ha
    rw [hnone] at hd
    cases hd

/-- A miss triggers a refresh of a workload that is not in progress and whose last refresh is
old enough; otherwise it counts at most. -/
theorem took_miss (s : WarmingSystem) (config : InterceptorConfig) (now : ℚ) (i : Nat) (w : String)
    (draw : ℚ) : Took s config now (.miss i w draw) (s.act config now (.miss i w draw)) := by
  cases hcalls : s.calls i with
  | some c =>
    have heq : s.act config now (.miss i w draw) = s := by
      simp only [WarmingSystem.act, hcalls]
    rw [heq]
    exact .nothing fun hnew => by cases hcalls.symm.trans hnew
  | none =>
    simp only [WarmingSystem.act, hcalls]
    unfold ShadowWarmer.shouldTriggerRefresh
    dsimp only
    split
    · exact .counted i w draw _
    · rename_i hidle
      split
      · exact .counted i w draw _
      · rename_i hdue
        split
        · exact .missed hcalls hidle (not_lt.1 hdue)
        · exact .counted i w draw s.warmer.suppressedCount

/-- Every step is one of these. -/
theorem took_act (s : WarmingSystem) (config : InterceptorConfig) (now : ℚ) (a : WarmingAction) :
    Took s config now a (s.act config now a) := by
  cases a with
  | call i w =>
    cases hcalls : s.calls i with
    | some c =>
      have heq : s.act config now (.call i w) = s := by
        simp only [WarmingSystem.act, hcalls]
      rw [heq]
      exact .nothing fun hnew => by cases hcalls.symm.trans hnew
    | none =>
      simp only [WarmingSystem.act, hcalls]
      exact .called hcalls
  | miss i w draw => exact took_miss s config now i w draw
  | claim i =>
    simp only [WarmingSystem.act]
    refine Took.goOn (fun ⟨c, hc, hphase⟩ => ⟨c, hc, decide_eq_true hphase⟩) fun c hc hphase => ?_
    have hphase := of_decide_eq_true hphase
    split
    · exact .suppressed hc hphase
    · rename_i hidle
      exact .claimed hc hphase hidle
  | start i =>
    simp only [WarmingSystem.act]
    exact Took.goOn (fun ⟨c, hc, hphase⟩ => ⟨c, hc, decide_eq_true hphase⟩)
      fun c hc hphase => .started hc (of_decide_eq_true hphase)
  | finish i how =>
    simp only [WarmingSystem.act]
    exact Took.goOn (fun ⟨c, hc, hphase⟩ => ⟨c, hc, decide_eq_true hphase⟩)
      fun c hc hphase => .finished how hc (of_decide_eq_true hphase)
  | record i =>
    simp only [WarmingSystem.act]
    exact Took.goOn (fun ⟨c, hc, hphase⟩ => ⟨c, hc, decide_eq_true hphase⟩)
      fun c hc hphase => .recorded hc (of_decide_eq_true hphase)
  | release i =>
    simp only [WarmingSystem.act]
    exact Took.goOn id fun c hc hphase => .released hc hphase
  | cancel i =>
    simp only [WarmingSystem.act]
    exact Took.goOn (fun ⟨c, hc, hphase⟩ => ⟨c, hc, decide_eq_true hphase⟩)
      fun c hc hphase => .cancelled hc (of_decide_eq_true hphase)

theorem holds_of_calls (hc : s.calls i = some c) :
    s.holds i = if c.phase.holds then some c.workloadId else none := by
  rw [holds, hc, Option.bind_some]

theorem holds_of_none (hc : s.calls i = none) : s.holds i = none := by
  rw [holds, hc, Option.bind_none]

/-- A new phase changes the claim of its call only. -/
theorem holds_schedule (s : WarmingSystem) (i : Nat) (c : RefreshCall) :
    (s.schedule i c).holds =
      Function.update s.holds i (if c.phase.holds then some c.workloadId else none) := by
  funext j
  by_cases hji : j = i
  · rw [hji, Function.update_self]
    exact holds_of_calls (calls_schedule_self s i c)
  · rw [Function.update_of_ne hji]
    exact congrArg (Option.bind · _) (calls_schedule_of_ne s hji c)

/-- A call that claims as much as before. -/
theorem holds_schedule_of_eq
    (h : (if c.phase.holds then some c.workloadId else none) = s.holds i) :
    (s.schedule i c).holds = s.holds := by
  rw [holds_schedule, h, Function.update_eq_self]

/-! ### Exclusion -/

/-- The workloads in progress are those that a call has claimed, one call each, and no more
refreshes are remembered than allowed. -/
structure Excludes (config : InterceptorConfig) (s : WarmingSystem) : Prop where
  guards : KeyedLock.Guards s.warmer.inProgress s.holds
  bounded : (s.warmer.lastRefresh.size : Int) ≤ config.shadowWarmMaxTrackedWorkloads

theorem excludes_fresh (config : InterceptorConfig) (interval clock : ℚ) :
    Excludes config (fresh interval clock) :=
  ⟨KeyedLock.guards_none, config.tracked_pos.le⟩

/-- A call that claims as much as before leaves the warmer's locks right. -/
theorem Excludes.schedule (h : Excludes config s)
    (hkept : (if c.phase.holds then some c.workloadId else none) = s.holds i) :
    Excludes config (s.schedule i c) := by
  constructor
  · rw [holds_schedule_of_eq hkept]
    exact h.guards
  · exact h.bounded

/-- A call that goes on without claiming or giving up. -/
theorem Excludes.moved (h : Excludes config s) (hc : s.calls i = some c) (phase : RefreshPhase)
    (hkept : phase.holds = c.phase.holds) : Excludes config (s.moved i c phase) := by
  apply h.schedule
  rw [holds_of_calls hc, ← hkept]

/-- Every step of every call keeps the exclusion. -/
theorem Excludes.took (h : Excludes config s) {now : ℚ} {a : WarmingAction}
    (hstep : Took s config now a s') : Excludes config s' := by
  cases hstep with
  | nothing => exact h
  | called hnew => exact h.schedule (holds_of_none hnew).symm
  | counted => exact ⟨h.guards, h.bounded⟩
  | missed hnew => exact h.schedule (holds_of_none hnew).symm
  | suppressed hc hphase => exact h.moved hc _ (by rw [hphase]; rfl)
  | @claimed i c hc hphase hidle =>
    -- the workload is free, so the call becomes its only holder
    have hfree : s.holds i = none := by
      rw [holds_of_calls hc, hphase]
      rfl
    refine ⟨?_, h.bounded⟩
    exact holds_schedule s i { c with phase := .claimed } ▸ h.guards.acquire hidle hfree
  | started hc hphase =>
    have hmoved := h.moved hc .running (by rw [hphase]; rfl)
    exact ⟨hmoved.guards, hmoved.bounded⟩
  | finished how hc hphase =>
    have hmoved := h.moved hc (.ended how) (by rw [hphase]; rfl)
    exact ⟨hmoved.guards, hmoved.bounded⟩
  | recorded hc hphase =>
    have hmoved := h.moved hc .recorded (by rw [hphase]; rfl)
    exact ⟨hmoved.guards, ShadowWarmer.size_dropOldest config.tracked_pos.le le_rfl⟩
  | @released i c hc hphase =>
    -- a call that gives its workload up was the one that held it
    have hheld : s.holds i = some c.workloadId := by
      rw [holds_of_calls hc, if_pos (RefreshPhase.holds_of_finishes hphase)]
    refine ⟨?_, h.bounded⟩
    exact holds_schedule s i { c with phase := .returned } ▸ h.guards.release hheld
  | cancelled hc hphase => exact h.moved hc _ (by rw [hphase]; rfl)

/-- The exclusion holds at the end of every run, and so at every moment of one. -/
theorem Excludes.exec (h : Excludes config s) (run : List (ℚ × WarmingAction)) :
    Excludes config (Run.exec (WarmingSystem.step config) s run) := by
  apply Run.exec_invariant (I := Excludes config) _ h
  intro s a h
  have hticked : Excludes config (s.ticked a.1) := ⟨h.guards, h.bounded⟩
  exact hticked.took (took_act (s.ticked a.1) config a.1 a.2)

/-- The call runs `refresh_fn` for the workload. -/
def Runs (s : WarmingSystem) (i : Nat) (w : String) : Prop :=
  ∃ c, s.calls i = some c ∧ c.workloadId = w ∧ c.phase = .running

theorem Runs.holds (h : s.Runs i w) : s.holds i = some w := by
  obtain ⟨c, hc, rfl, hphase⟩ := h
  rw [holds_of_calls hc, hphase]
  rfl

/-! ### On an event loop -/

/-- What a call does from one `await` to the next: it claims its workload and starts, or it ends,
records and gives the workload up. -/
inductive LoopStep where
  | call (i : Nat) (workloadId : String)
  | miss (i : Nat) (workloadId : String) (draw : ℚ)
  | begin (i : Nat)
  | complete (i : Nat) (how : RefreshEnd) (recordedAt : ℚ)
  | cancel (i : Nat)

def LoopStep.steps (now : ℚ) : LoopStep → List (ℚ × WarmingAction)
  | .call i workloadId => [(now, .call i workloadId)]
  | .miss i workloadId draw => [(now, .miss i workloadId draw)]
  | .begin i => [(now, .claim i), (now, .start i)]
  | .complete i how recordedAt =>
      [(now, .finish i how), (recordedAt, .record i), (recordedAt, .release i)]
  | .cancel i => [(now, .cancel i)]

/-- The event loop makes the steps of a segment one after another. -/
def loopStep (config : InterceptorConfig) (s : WarmingSystem) (a : ℚ × LoopStep) : WarmingSystem :=
  Run.exec (WarmingSystem.step config) s (a.2.steps a.1)

/-- The call has not begun, runs `refresh_fn`, or has returned. -/
def AtAwait (s : WarmingSystem) (i : Nat) : Prop :=
  ∀ c, s.calls i = some c → c.phase = .pending ∨ c.phase = .running ∨ c.phase = .returned

theorem atAwait_schedule (s : WarmingSystem)
    (hphase : c.phase = .pending ∨ c.phase = .running ∨ c.phase = .returned) :
    AtAwait (s.schedule i c) i := by
  intro d hd
  obtain rfl : c = d := Option.some.inj ((calls_schedule_self s i c).symm.trans hd)
  exact hphase

/-- A step leaves the other calls where they are. -/
theorem AtAwait.took {j : Nat} (h : AtAwait s j) {now : ℚ} {a : WarmingAction}
    (hstep : Took (s.ticked now) config now a s') (hne : j ≠ a.of) : AtAwait s' j := by
  intro c hc
  exact h c (hstep.calls_of_ne hne ▸ hc)

/-- A call that begins comes to its `await`, or returns at once. -/
theorem AtAwait.begin (h : AtAwait s i) {now : ℚ} {s₁ s₂ : WarmingSystem}
    (hclaim : Took (s.ticked now) config now (.claim i) s₁)
    (hstart : Took (s₁.ticked now) config now (.start i) s₂) : AtAwait s₂ i := by
  cases hstart with
  | started => exact atAwait_schedule _ (.inr (.inl rfl))
  | nothing hoff =>
    cases hclaim with
    | nothing => exact h
    | suppressed => exact atAwait_schedule _ (.inr (.inr rfl))
    | claimed => exact absurd ⟨_, calls_schedule_self .., rfl⟩ hoff

/-- A call whose `refresh_fn` ends, however it ends, runs on until it returns. -/
theorem AtAwait.complete (h : AtAwait s i) {how : RefreshEnd} {now recordedAt : ℚ}
    {s₁ s₂ s₃ : WarmingSystem} (hfinish : Took (s.ticked now) config now (.finish i how) s₁)
    (hrecord : Took (s₁.ticked recordedAt) config recordedAt (.record i) s₂)
    (hrelease : Took (s₂.ticked recordedAt) config recordedAt (.release i) s₃) :
    AtAwait s₃ i := by
  cases hrelease with
  | released => exact atAwait_schedule _ (.inr (.inr rfl))
  | nothing hoff =>
    cases hrecord with
    | recorded => exact absurd ⟨_, calls_schedule_self .., rfl⟩ hoff
    | nothing hunrecorded =>
      cases hfinish with
      | nothing => exact h
      | finished =>
        cases how with
        | success => exact absurd ⟨_, calls_schedule_self .., rfl⟩ hunrecorded
        | exception | cancelled => exact absurd ⟨_, calls_schedule_self .., rfl⟩ hoff

theorem AtAwait.call (h : AtAwait s i) {now : ℚ}
    (hcall : Took (s.ticked now) config now (.call i w) s') : AtAwait s' i := by
  cases hcall with
  | nothing => exact h
  | called => exact atAwait_schedule _ (.inl rfl)

theorem AtAwait.miss (h : AtAwait s i) {now draw : ℚ}
    (hmiss : Took (s.ticked now) config now (.miss i w draw) s') : AtAwait s' i := by
  cases hmiss with
  | nothing | counted => exact h
  | missed => exact atAwait_schedule _ (.inl rfl)

theorem AtAwait.cancel (h : AtAwait s i) {now : ℚ}
    (hcancel : Took (s.ticked now) config now (.cancel i) s') : AtAwait s' i := by
  cases hcancel with
  | nothing => exact h
  | cancelled => exact atAwait_schedule _ (.inr (.inr rfl))

/-- Every segment leaves every call at an `await`. -/
theorem atAwait_loopStep (h : ∀ i, AtAwait s i) (a : ℚ × LoopStep) (j : Nat) :
    AtAwait (loopStep config s a) j := by
  obtain ⟨now, a⟩ := a
  cases a with
  | call i w =>
    have hcall := took_act (s.ticked now) config now (.call i w)
    by_cases hji : j = i
    · exact hji ▸ (h i).call hcall
    · exact (h j).took hcall hji
  | miss i w draw =>
    have hmiss := took_act (s.ticked now) config now (.miss i w draw)
    by_cases hji : j = i
    · exact hji ▸ (h i).miss hmiss
    · exact (h j).took hmiss hji
  | begin i =>
    have hclaim := took_act (s.ticked now) config now (.claim i)
    have hstart := took_act ((s.step config (now, .claim i)).ticked now) config now (.start i)
    by_cases hji : j = i
    · exact hji ▸ (h i).begin hclaim hstart
    · exact ((h j).took hclaim hji).took hstart hji
  | complete i how recordedAt =>
    have hfinish := took_act (s.ticked now) config now (.finish i how)
    have hrecord := took_act ((s.step config (now, .finish i how)).ticked recordedAt) config
      recordedAt (.record i)
    have hrelease := took_act (((s.step config (now, .finish i how)).step config
      (recordedAt, .record i)).ticked recordedAt) config recordedAt (.release i)
    by_cases hji : j = i
    · exact hji ▸ (h i).complete hfinish hrecord hrelease
    · exact (((h j).took hfinish hji).took hrecord hji).took hrelease hji
  | cancel i =>
    have hcancel := took_act (s.ticked now) config now (.cancel i)
    by_cases hji : j = i
    · exact hji ▸ (h i).cancel hcancel
    · exact (h j).took hcancel hji

/-- At its `await` a call has claimed a workload exactly when it runs `refresh_fn` for it. -/
theorem AtAwait.holds_iff (h : AtAwait s i) : s.holds i = some w ↔ s.Runs i w := by
  refine ⟨fun hheld => ?_, Runs.holds⟩
  cases hc : s.calls i with
  | none =>
    rw [holds_of_none hc] at hheld
    cases hheld
  | some c =>
    rw [holds_of_calls hc] at hheld
    obtain hphase | hphase | hphase := h c hc <;> rw [hphase] at hheld
    · cases hheld
    · exact ⟨c, hc, Option.some.inj hheld, hphase⟩
    · cases hheld

/-! ### The guarantee -/

/-- One refresh at a time for a workload; those in progress are the claimed ones, none when all
calls have returned, and no more refreshes are remembered than allowed. -/
structure Exclusive (config : InterceptorConfig) (s : WarmingSystem) : Prop where
  alone : ∀ i j w, s.Runs i w → s.Runs j w → i = j
  inProgress_iff : ∀ w, w ∈ s.warmer.inProgress ↔ ∃ i, s.holds i = some w
  idle : (∀ i c, s.calls i = some c → c.phase = .returned) → s.warmer.inProgress = []
  bounded : (s.warmer.lastRefresh.size : Int) ≤ config.shadowWarmMaxTrackedWorkloads

theorem Excludes.exclusive (h : Excludes config s) : Exclusive config s where
  alone i j w hi hj := h.guards.unique i j w hi.holds hj.holds
  inProgress_iff := h.guards.taken_iff
  bounded := h.bounded
  idle hreturned := by
    apply h.guards.eq_nil
    intro i
    cases hc : s.calls i with
    | none => exact holds_of_none hc
    | some c =>
      rw [holds_of_calls hc, hreturned i c hc]
      rfl

/-- **Exclusion of the refreshes**: whatever the calls do and however their steps interleave, at
every moment no two of them run `refresh_fn` for one workload, and `in_progress` is the set of the
workloads that a call has claimed; between two steps of the event loop, it is the set of the
workloads whose `refresh_fn` is running. -/
theorem refreshes_exclude (config : InterceptorConfig) (interval clock : ℚ)
    (run : List (ℚ × WarmingAction)) (loop : List (ℚ × LoopStep)) :
    Exclusive config (Run.exec (WarmingSystem.step config) (fresh interval clock) run) ∧
      ∀ w, w ∈ (Run.exec (loopStep config) (fresh interval clock) loop).warmer.inProgress ↔
        ∃ i, (Run.exec (loopStep config) (fresh interval clock) loop).Runs i w := by
  refine ⟨((excludes_fresh config interval clock).exec run).exclusive, fun w => ?_⟩
  have hexcludes : Excludes config (Run.exec (loopStep config) (fresh interval clock) loop) :=
    Run.exec_invariant (fun s a h => h.exec (a.2.steps a.1)) (excludes_fresh ..) loop
  have hawait : ∀ i, AtAwait (Run.exec (loopStep config) (fresh interval clock) loop) i :=
    Run.exec_invariant (I := fun s => ∀ i, AtAwait s i) (fun s a h => atAwait_loopStep h a)
      (fun i c hc => by cases hc) loop
  rw [hexcludes.guards.taken_iff]
  exact exists_congr fun i => (hawait i).holds_iff

end WarmingSystem
end ComputeIntelligence
