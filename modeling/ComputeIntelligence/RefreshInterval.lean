import ComputeIntelligence.RefreshExclusion

/-! # The interval between refreshes

`should_trigger_refresh` keeps a minimum interval between two refreshes of a workload, and
`trigger_refresh` runs later, in a task of its own (`interceptor/gateway.py`).  In a run of cache
misses whose workloads all fit in `last_refresh`, a refresh starts the interval after every
refresh of the workload that had succeeded when its miss was checked: each of them is either
remembered, no earlier than it ended, or its call still has the workload in progress.  What
succeeds between the check and the start is not looked at again.
-/
namespace ComputeIntelligence
namespace WarmingSystem
variable {config : InterceptorConfig} {interval now : ℚ} {tracked : List String}
  {s s' : WarmingSystem} {i : Nat} {c : RefreshCall} {w : String} {a : WarmingAction}

/-- The workload's refreshes among these ended at least the interval ago. -/
def Spaced (interval now : ℚ) (w : String) (ended : List (String × ℚ)) : Prop :=
  ∀ x ∈ ended, x.1 = w → interval ≤ now - x.2

instance (interval now : ℚ) (w : String) (ended : List (String × ℚ)) :
    Decidable (Spaced interval now w ended) :=
  inferInstanceAs (Decidable (∀ x ∈ ended, x.1 = w → interval ≤ now - x.2))

theorem spaced_append {xs ys : List (String × ℚ)} :
    Spaced interval now w (xs ++ ys) ↔ Spaced interval now w xs ∧ Spaced interval now w ys :=
  List.forall_mem_append

theorem Spaced.mono {later : ℚ} {xs : List (String × ℚ)} (h : Spaced interval now w xs)
    (hle : now ≤ later) : Spaced interval later w xs := by
  intro x hx hw
  have hspaced := h x hx hw
  linarith

/-- Every refresh has started at least the interval after the workload's successful refreshes
before it. -/
def Respects (interval : ℚ) (s : WarmingSystem) : Prop :=
  ∀ x ∈ s.started, Spaced interval x.2.1 x.1 (s.succeeded.take x.2.2)

instance (interval : ℚ) (s : WarmingSystem) : Decidable (Respects interval s) :=
  inferInstanceAs (Decidable (∀ x ∈ s.started, Spaced interval x.2.1 x.1 (s.succeeded.take x.2.2)))

/-- The step is a cache miss of a tracked workload, or belongs to the task of one. -/
def OfMiss (tracked : List String) : WarmingAction → Prop
  | .call _ _ => False
  | .miss _ w _ => w ∈ tracked
  | _ => True

instance (tracked : List String) : (a : WarmingAction) → Decidable (OfMiss tracked a)
  | .call _ _ => isFalse id
  | .miss _ w _ => inferInstanceAs (Decidable (w ∈ tracked))
  | .claim _ | .start _ | .finish _ _ | .record _ | .release _ | .cancel _ => isTrue trivial

/-- The clock does not go back, and nothing but cache misses calls the warmer. -/
def FromMisses (tracked : List String) (s : WarmingSystem) (a : ℚ × WarmingAction) : Prop :=
  s.clock ≤ a.1 ∧ OfMiss tracked a.2

instance (tracked : List String) (s : WarmingSystem) (a : ℚ × WarmingAction) :
    Decidable (FromMisses tracked s a) :=
  inferInstanceAs (Decidable (s.clock ≤ a.1 ∧ OfMiss tracked a.2))

/-- A call that starts does so at least the interval after the workload's refreshes that have
succeeded since its miss was checked. -/
def Unraced (interval : ℚ) (s : WarmingSystem) (a : ℚ × WarmingAction) : Prop :=
  ∀ i c, a.2 = .start i → s.calls i = some c → c.phase = .claimed →
    Spaced interval a.1 c.workloadId (s.succeeded.drop c.seen)

/-! ### What the warmer knows of the past -/

/-- When the call's miss was checked, the workload's refreshes that had succeeded were old
enough. -/
structure Checked (interval : ℚ) (tracked : List String) (succeeded : List (String × ℚ))
    (clock : ℚ) (c : RefreshCall) : Prop where
  tracked : c.workloadId ∈ tracked
  past : c.checkedAt ≤ clock
  seen : c.seen ≤ succeeded.length
  spaced : Spaced interval c.checkedAt c.workloadId (succeeded.take c.seen)

/-- Every successful refresh is remembered no earlier than it ended, or is about to be; every call
was checked. -/
structure Traced (interval : ℚ) (tracked : List String) (s : WarmingSystem) : Prop where
  interval_eq : s.warmer.minRefreshIntervalS = interval
  keys : ∀ w ∈ s.warmer.lastRefresh.keys, w ∈ tracked
  past : ∀ x ∈ s.succeeded, x.2 ≤ s.clock
  remembered : ∀ x ∈ s.succeeded, (∃ r, s.warmer.lastRefresh.get? x.1 = some r ∧ x.2 ≤ r) ∨
    ∃ i c, s.calls i = some c ∧ c.workloadId = x.1 ∧ c.phase = .ended .success
  checked : ∀ i c, s.calls i = some c → Checked interval tracked s.succeeded s.clock c
  starts : ∀ x ∈ s.started, x.2.2 ≤ s.succeeded.length

theorem traced_fresh (interval clock : ℚ) (tracked : List String) :
    Traced interval tracked (fresh interval clock) where
  interval_eq := rfl
  keys _ h := by cases h
  past _ h := by cases h
  remembered _ h := by cases h
  checked _ _ h := by cases h
  starts _ h := by cases h

/-- The clock goes on. -/
theorem Traced.ticked (h : Traced interval tracked s) (hle : s.clock ≤ now) :
    Traced interval tracked (s.ticked now) where
  interval_eq := h.interval_eq
  keys := h.keys
  past x hx := (h.past x hx).trans hle
  remembered := h.remembered
  checked i c hc :=
    have hchecked := h.checked i c hc
    ⟨hchecked.tracked, hchecked.past.trans hle, hchecked.seen, hchecked.spaced⟩
  starts := h.starts

/-- The refreshes of a workload that may be refreshed are old enough: each is remembered, since
its call would have the workload in progress otherwise. -/
theorem Traced.spaced (h : Traced interval tracked s) (hexcludes : Excludes config s)
    (hidle : w ∉ s.warmer.inProgress)
    (hdue : s.warmer.minRefreshIntervalS ≤ now - s.warmer.lastRefresh.getD w 0) :
    Spaced interval now w s.succeeded := by
  rintro x hx rfl
  obtain ⟨r, hr, hle⟩ | ⟨i, c, hc, hw, hphase⟩ := h.remembered x hx
  · rw [h.interval_eq, PyDict.getD, hr, Option.getD_some] at hdue
    linarith
  · have hheld : s.holds i = some x.1 := by
      rw [holds_of_calls hc, hphase, ← hw]
      rfl
    exact absurd ((hexcludes.guards.taken_iff x.1).2 ⟨i, hheld⟩) hidle

/-- The call that a number is given to was checked, and so were the others. -/
theorem Traced.checked_schedule (h : Traced interval tracked s)
    (hchecked : Checked interval tracked s.succeeded s.clock c) (j : Nat) (d : RefreshCall)
    (hd : (s.schedule i c).calls j = some d) : Checked interval tracked s.succeeded s.clock d := by
  by_cases hji : j = i
  · rw [hji, calls_schedule_self] at hd
    rwa [← Option.some.inj hd]
  · exact h.checked j d ((calls_schedule_of_ne s hji c).symm.trans hd)

/-- A call that has nothing to record is replaced by one that was checked. -/
theorem Traced.schedule (h : Traced interval tracked s)
    (hchecked : Checked interval tracked s.succeeded s.clock c)
    (hfrom : ∀ d, s.calls i = some d → d.phase ≠ .ended .success) :
    Traced interval tracked (s.schedule i c) where
  interval_eq := h.interval_eq
  keys := h.keys
  past := h.past
  starts := h.starts
  checked := h.checked_schedule hchecked
  remembered x hx := by
    obtain hr | ⟨j, d, hd, hw, hphase⟩ := h.remembered x hx
    · exact .inl hr
    · have hji : j ≠ i := by
        rintro rfl
        exact hfrom d hd hphase
      exact .inr ⟨j, d, (calls_schedule_of_ne s hji _).trans hd, hw, hphase⟩

/-- A call keeps what it was checked with. -/
theorem Traced.checked_moved (h : Traced interval tracked s) (hc : s.calls i = some c)
    (phase : RefreshPhase) :
    Checked interval tracked s.succeeded s.clock { c with phase := phase } :=
  have hchecked := h.checked i c hc
  ⟨hchecked.tracked, hchecked.past, hchecked.seen, hchecked.spaced⟩

theorem Traced.moved (h : Traced interval tracked s) (hc : s.calls i = some c)
    (hphase : c.phase ≠ .ended .success) (phase : RefreshPhase) :
    Traced interval tracked (s.moved i c phase) := by
  refine h.schedule (h.checked_moved hc phase) fun d hd => ?_
  rwa [← Option.some.inj (hc.symm.trans hd)]

/-- A refresh ends in success; its call is about to record it. -/
theorem Traced.succeed (h : Traced interval tracked s) (hc : s.calls i = some c)
    (hw : c.workloadId = w) (hphase : c.phase = .ended .success) :
    Traced interval tracked { s with succeeded := s.succeeded ++ [(w, s.clock)] } where
  interval_eq := h.interval_eq
  keys := h.keys
  past x hx := by
    obtain hx | hx := List.mem_append.1 hx
    · exact h.past x hx
    · rw [List.mem_singleton.1 hx]
  remembered x hx := by
    obtain hx | hx := List.mem_append.1 hx
    · exact h.remembered x hx
    · exact .inr ⟨i, c, hc, List.mem_singleton.1 hx ▸ hw, hphase⟩
  checked j d hd := by
    have hchecked := h.checked j d hd
    refine ⟨hchecked.tracked, hchecked.past, ?_, ?_⟩
    · exact hchecked.seen.trans (List.length_append ▸ Nat.le_add_right ..)
    · rw [List.take_append_of_le_length hchecked.seen]
      exact hchecked.spaced
  starts x hx := (h.starts x hx).trans (List.length_append ▸ Nat.le_add_right ..)

/-- The record of a refresh, where all workloads fit, forgets none. -/
theorem Traced.lastRefresh_recordRefresh (h : Traced interval tracked s)
    (htracked : (tracked.length : Int) ≤ config.shadowWarmMaxTrackedWorkloads) (hw : w ∈ tracked)
    (now : ℚ) :
    (s.warmer.lastRefresh.setLast w now).keys ⊆ tracked ∧
      (s.warmer.recordRefresh config w now).lastRefresh =
        s.warmer.lastRefresh.setLast w now := by
  have hkeys : (s.warmer.lastRefresh.setLast w now).keys ⊆ tracked := by
    intro v hv
    rw [PyDict.mem_keys_iff, PyDict.get?_setLast] at hv
    split at hv
    · rename_i hvw
      exact hvw ▸ hw
    · exact h.keys v (PyDict.mem_keys_iff.2 hv)
  have hnodup := (s.warmer.lastRefresh.setLast w now).nodup
  have hlength := (List.subperm_of_subset hnodup hkeys).length_le
  rw [List.length_map] at hlength
  exact ⟨hkeys, ShadowWarmer.dropOldest_of_size_le ((Int.ofNat_le.2 hlength).trans htracked) _⟩

/-- A refresh is recorded: its call has nothing to record any more, and its workload's refreshes
all ended by now. -/
theorem Traced.record (h : Traced interval tracked s) (hc : s.calls i = some c)
    (htracked : (tracked.length : Int) ≤ config.shadowWarmMaxTrackedWorkloads) :
    Traced interval tracked { s.moved i c .recorded with
      warmer := s.warmer.recordRefresh config c.workloadId s.clock } := by
  obtain ⟨hkeys, hlast⟩ :=
    h.lastRefresh_recordRefresh htracked (h.checked i c hc).tracked s.clock
  constructor
  · exact h.interval_eq
  · rw [hlast]
    exact hkeys
  · exact h.past
  · intro x hx
    rw [hlast, PyDict.get?_setLast]
    by_cases hw : x.1 = c.workloadId
    · exact .inl ⟨s.clock, if_pos hw, h.past x hx⟩
    · rw [if_neg hw]
      obtain hr | ⟨j, d, hd, hdw, hphase⟩ := h.remembered x hx
      · exact .inl hr
      · -- the call that is about to record it is another one, of another workload
        have hji : j ≠ i := by
          rintro rfl
          rw [← Option.some.inj (hc.symm.trans hd)] at hdw
          exact hw hdw.symm
        exact .inr ⟨j, d, (calls_schedule_of_ne s hji _).trans hd, hdw, hphase⟩
  · exact h.checked_schedule (h.checked_moved hc .recorded)
  · exact h.starts

/-- Every step of the tasks of misses keeps the trace. -/
theorem Traced.took (h : Traced interval tracked s) (hexcludes : Excludes config s)
    (htracked : (tracked.length : Int) ≤ config.shadowWarmMaxTrackedWorkloads)
    (hmiss : OfMiss tracked a) (hstep : Took s config s.clock a s') :
    Traced interval tracked s' := by
  cases hstep with
  | nothing => exact h
  | called => exact hmiss.elim
  | counted => exact ⟨h.interval_eq, h.keys, h.past, h.remembered, h.checked, h.starts⟩
  | @missed i w draw hnew hidle hdue =>
    refine h.schedule ⟨hmiss, le_rfl, le_rfl, ?_⟩ fun d hd => by cases hnew.symm.trans hd
    rw [List.take_length]
    exact h.spaced hexcludes hidle hdue
  | suppressed hc hphase => exact h.moved hc (by simp [hphase]) .returned
  | claimed hc hphase =>
    have hmoved := h.moved hc (by simp [hphase]) .claimed
    exact ⟨h.interval_eq, h.keys, h.past, hmoved.remembered, hmoved.checked, h.starts⟩
  | @started i c hc hphase =>
    have hmoved := h.moved hc (by simp [hphase]) .running
    refine ⟨h.interval_eq, h.keys, h.past, hmoved.remembered, hmoved.checked, fun x hx => ?_⟩
    obtain hx | hx := List.mem_append.1 hx
    · exact h.starts x hx
    · exact (congrArg (·.2.2) (List.mem_singleton.1 hx)).le
  | @finished i c how hc hphase =>
    have hmoved := h.moved hc (by simp [hphase]) (.ended how)
    cases how with
    | success =>
      exact hmoved.succeed (calls_schedule_self s i { c with phase := .ended .success }) rfl rfl
    | exception | cancelled => exact hmoved
  | recorded hc => exact h.record hc htracked
  | @released i c hc hphase =>
    have hnot : c.phase ≠ .ended .success := by
      intro heq
      rw [heq] at hphase
      cases hphase
    have hmoved := h.moved hc hnot .returned
    exact ⟨h.interval_eq, h.keys, h.past, hmoved.remembered, hmoved.checked, h.starts⟩
  | cancelled hc hphase => exact h.moved hc (by simp [hphase]) .returned

/-! ### Starts -/

/-- Successes that come later are not looked at. -/
theorem respects_succeed (h : Traced interval tracked s) (xs : List (String × ℚ)) :
    Respects interval { s with succeeded := s.succeeded ++ xs } ↔ Respects interval s := by
  refine forall₂_congr fun x hx => ?_
  have htake : (s.succeeded ++ xs).take x.2.2 = s.succeeded.take x.2.2 :=
    List.take_append_of_le_length (h.starts x hx)
  rw [htake]

/-- A start respects the interval when it does so for the successes since the check. -/
theorem respects_start (h : Traced interval tracked s) (hc : s.calls i = some c) :
    Respects interval
        { s with started := s.started ++ [(c.workloadId, s.clock, s.succeeded.length)] } ↔
      Respects interval s ∧
        Spaced interval s.clock c.workloadId (s.succeeded.drop c.seen) := by
  have hchecked := h.checked i c hc
  have hbefore := hchecked.spaced.mono hchecked.past
  unfold Respects
  rw [List.forall_mem_append, List.forall_mem_singleton, List.take_length]
  refine and_congr_right fun _ => ?_
  conv_lhs => rw [← List.take_append_drop c.seen s.succeeded]
  rw [spaced_append]
  exact and_iff_right hbefore

/-- One step keeps the interval respected exactly when it is no raced start. -/
theorem respects_took (h : Traced interval tracked s) (hstep : Took s config s.clock a s') :
    Respects interval s' ↔ Respects interval s ∧ Unraced interval s (s.clock, a) := by
  have hother : (∀ i, a ≠ .start i) → Unraced interval s (s.clock, a) :=
    fun hne i _ ha => absurd ha (hne i)
  cases hstep with
  | @started i c hc hphase =>
    refine (respects_start h hc).trans (and_congr_right fun _ => ⟨?_, ?_⟩)
    · rintro hspaced j d hj hd -
      cases hj
      rwa [← Option.some.inj (hc.symm.trans hd)]
    · exact fun hunraced => hunraced i c rfl hc hphase
  | nothing hoff =>
    refine (and_iff_left ?_).symm
    rintro i c rfl hc hphase
    exact absurd ⟨c, hc, hphase⟩ hoff
  | finished how hc hphase =>
    rw [and_iff_left (hother fun _ => by simp)]
    split
    · exact respects_succeed h _
    · exact Iff.rfl
  | _ => exact (and_iff_left (hother fun _ => by simp)).symm

/-- **The interval between refreshes**: in a run of cache misses, a refresh starts at least the
interval after every successful refresh of its workload exactly when no call starts within the
interval of a refresh that has succeeded since its miss was checked. -/
theorem respects_iff_unraced (config : InterceptorConfig) (interval clock : ℚ)
    (tracked : List String) (run : List (ℚ × WarmingAction))
    (htracked : (tracked.length : Int) ≤ config.shadowWarmMaxTrackedWorkloads)
    (hrun : Run.Guarded (WarmingSystem.step config) (FromMisses tracked) (fresh interval clock)
      run) :
    Respects interval (Run.exec (WarmingSystem.step config) (fresh interval clock) run) ↔
      Run.Guarded (WarmingSystem.step config) (Unraced interval) (fresh interval clock) run := by
  have hinvariant : ∀ s a, (Excludes config s ∧ Traced interval tracked s) →
      FromMisses tracked s a →
      Excludes config (s.step config a) ∧ Traced interval tracked (s.step config a) := by
    rintro s ⟨now, a⟩ ⟨hexcludes, htraced⟩ ⟨hle, hmiss⟩
    have htook := took_act (s.ticked now) config now a
    have hticked : Excludes config (s.ticked now) := ⟨hexcludes.guards, hexcludes.bounded⟩
    exact ⟨hticked.took htook, (htraced.ticked hle).took hticked htracked hmiss htook⟩
  have hstep : ∀ s a, (Excludes config s ∧ Traced interval tracked s) → FromMisses tracked s a →
      (Respects interval (s.step config a) ↔ Respects interval s ∧ Unraced interval s a) := by
    rintro s ⟨now, a⟩ ⟨-, htraced⟩ ⟨hle, -⟩
    exact respects_took (htraced.ticked hle) (took_act (s.ticked now) config now a)
  have hfresh : Respects interval (fresh interval clock) := fun x hx => by cases hx
  rw [Run.exec_iff_guarded_of_valid hinvariant hstep
    ⟨excludes_fresh config interval clock, traced_fresh interval clock tracked⟩ hrun]
  exact and_iff_right hfresh

/-- Two misses far enough apart. -/
def pacedMisses : List (ℚ × WarmingAction) :=
  [(10, LoopStep.miss 0 "team-a" 0), (10, .begin 0), (11, .complete 0 .success 11),
    (20, .miss 1 "team-a" 0), (20, .begin 1)].flatMap fun a => a.2.steps a.1

theorem pacedMisses_unraced :
    Run.Guarded (WarmingSystem.step .default) (Unraced 5) (fresh 5 0) pacedMisses :=
  (respects_iff_unraced .default 5 0 ["team-a"] pacedMisses (by decide) (by decide +kernel)).1
    (by decide +kernel)

/-- Two misses at once: both pass the check, and the second refresh starts when the first one has
succeeded. -/
def racedMisses : List (ℚ × WarmingAction) :=
  [(10, LoopStep.miss 0 "team-a" 0), (10, .miss 1 "team-a" 0), (10, .begin 0),
    (11, .complete 0 .success 11), (11, .begin 1)].flatMap fun a => a.2.steps a.1

theorem racedMisses_too_close :
    Run.Guarded (WarmingSystem.step .default) (FromMisses ["team-a"]) (fresh 5 0) racedMisses ∧
      (["team-a"].length : Int) ≤ InterceptorConfig.default.shadowWarmMaxTrackedWorkloads ∧
      ¬ Respects 5 (Run.exec (WarmingSystem.step .default) (fresh 5 0) racedMisses) :=
  ⟨by decide +kernel, by decide, by decide +kernel⟩

end WarmingSystem
end ComputeIntelligence
