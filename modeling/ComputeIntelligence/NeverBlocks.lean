import ComputeIntelligence.CircuitRecords

/-! # When the interceptor can block its caller

`intercept` promises to return, whatever happens: everything up to the answer is inside
a `try`, and the handler turns an exception into a fail-open result.  The handler,
however, is not inside one, and it calls the circuit breaker twice, resolves two
identifiers from the request's metadata and looks a circuit state up in a dictionary.

A mutation of the shared circuit returns or raises by what is stored under the key
(`safeMutate_spec`, `safeMutate_returns`).  If a failure can be recorded on it and its
result observed, if the same holds of the process's copy, and if `str` of the two
metadata values returns, the interceptor never raises; and **otherwise some request,
index and store make it raise** (`neverBlocks_iff`).
-/
namespace ComputeIntelligence
open RawState

/-- The content parses as a record with `A`. -/
def Stored (A : RawState → Prop) (c : KeyContent) : Prop := ∃ st, c.parseState = .ok st ∧ A st

theorem Stored.mono {A A' : RawState → Prop} (h : ∀ st, A st → A' st) {c : KeyContent}
    (hc : Stored A c) : Stored A' c :=
  let ⟨st, hp, ha⟩ := hc
  ⟨st, hp, h st ha⟩

/-! ### One mutation -/

section Mutation
variable {α : Type} {m : Mutator α} {e : MutateEnv} {A A' B B' : RawState → Prop} {V : α → Prop}

/-- A round that is won stores what the mutator returned. -/
theorem attempt_ok {r : Reading} {c c' : KeyContent} {a : α} {st' : RawState}
    (h : attempt m r c = .ok (a, st', c')) :
    ∃ st, c.parseState = .ok st ∧ m r st = .ok (a, st') ∧ c'.parseState = .ok st' ∧
      st'.All PyVal.isJson := by
  unfold attempt at h
  cases hp : c.parseState with
  | error x =>
    rw [hp] at h
    cases h
  | ok st =>
    rw [hp] at h
    change (m r st >>= _) = _ at h
    match hm : m r st with
    | .error x =>
      rw [hm] at h
      cases h
    | .ok (a₁, st₁) =>
      rw [hm] at h
      change (st₁.dumps >>= _) = _ at h
      cases hd : st₁.dumps with
      | error x =>
        rw [hd] at h
        cases h
      | ok c₁ =>
        rw [hd] at h
        cases h
        exact ⟨st, rfl, hm, parseState_dumps hd, all_of_dumps hd⟩

/-- A round returns where the mutator does, with something JSON can write. -/
theorem attempt_returns {r : Reading} {c : KeyContent} {st st' : RawState} {a : α}
    (hp : c.parseState = .ok st) (hm : m r st = .ok (a, st')) (hall : st'.All PyVal.isJson) :
    ∃ c', attempt m r c = .ok (a, st', c') := by
  obtain ⟨c', hd⟩ := dumps_of_all hall
  refine ⟨c', ?_⟩
  unfold attempt
  rw [hp]
  change (m r st >>= _) = _
  rw [hm]
  change (st'.dumps >>= _) = _
  rw [hd]
  rfl

/-- However the lost rounds end, what is stored is the first content or was written by
another client. -/
theorem lostRounds_stored (races : List (Reading × KeyContent)) {c : KeyContent}
    (hc : Stored A c) (hw : ∀ w ∈ races.map Prod.snd, Stored A w) :
    Stored A (lostRounds m races c).2 := by
  induction races generalizing c with
  | nil => exact hc
  | cons race races ih =>
    obtain ⟨r, written⟩ := race
    unfold lostRounds
    split
    · exact ih (hw _ List.mem_cons_self) fun w hmem => hw w (List.mem_cons_of_mem _ hmem)
    · exact hc

theorem before_stored {c : KeyContent} (hc : Stored A c) (hw : ∀ w ∈ e.writes, Stored A w) :
    Stored A (e.before.getD c) := by
  cases hb : e.before with
  | none => exact hc
  | some w => exact hw w (by simp [MutateEnv.writes, hb])

theorem races_stored (hw : ∀ w ∈ e.writes, Stored A w) :
    ∀ w ∈ e.races.map Prod.snd, Stored A w :=
  fun w hmem => hw w (by simp only [MutateEnv.writes, List.mem_append]; exact .inr hmem)

/-- **What one mutation keeps.**  If the mutator takes records with `A` to records with
`A'`, and the process's copy from `B` to `B'`, a mutation that returns leaves `A'`
under the key and `B'` in the copy, and one that raises leaves both as they were. -/
theorem safeMutate_spec (hAA' : ∀ st, A st → A' st) (hw : ∀ c ∈ e.writes, Stored A c)
    (hA : ∀ r st, A st → (m r st).Ensures fun x => V x.1 ∧ A' x.2 ∧ B' x.2)
    (hB : ∀ r st, B st → (m r st).Ensures fun x => V x.1 ∧ B' x.2) :
    Eff.Spec (fun s => Stored A s.content ∧ B s.fallback) (safeMutate e m)
      (fun a s => V a ∧ Stored A' s.content ∧ B' s.fallback)
      (fun _ s => Stored A s.content ∧ B s.fallback) := by
  intro s ⟨hcontent, hfall⟩
  have hrounds : Stored A (lostRounds m e.races (e.before.getD s.content)).2 :=
    lostRounds_stored e.races (before_stored hcontent hw) (races_stored hw)
  have hdegrade : ∀ r c, Stored A c →
      Eff.Ends (fun a s => V a ∧ Stored A' s.content ∧ B' s.fallback)
        (fun _ s => Stored A s.content ∧ B s.fallback) (degrade m r c s.fallback) := by
    intro r c hc
    unfold degrade
    match hm : m r s.fallback with
    | .ok (a, st) =>
      obtain ⟨hv, hb⟩ := hB r _ hfall _ hm
      exact ⟨hv, hc.mono hAA', hb⟩
    | .error x => exact ⟨hc, hfall⟩
  have hcommit : ∀ r c a st c', Stored A c → attempt m r c = .ok (a, st, c') →
      V a ∧ Stored A' c' ∧ B' st := by
    intro r c a st c' hc hatt
    obtain ⟨st₀, hp, hm, hp', -⟩ := attempt_ok hatt
    obtain ⟨st₁, hp₁, ha⟩ := hc
    rw [hp] at hp₁
    cases hp₁
    obtain ⟨hv, ha', hb'⟩ := hA r st₀ ha _ hm
    exact ⟨hv, ⟨st, hp', ha'⟩, hb'⟩
  unfold safeMutate
  match hl : lostRounds m e.races (e.before.getD s.content) with
  | (.error x, c) =>
    rw [hl] at hrounds
    exact ⟨hrounds, hfall⟩
  | (.ok (), c) =>
    rw [hl] at hrounds
    cases e.fault with
    | unreachable => exact hdegrade e.degraded c hrounds
    | commits =>
      match hatt : attempt m e.reading c with
      | .ok (a, st, c') =>
        simp only [hatt]
        exact hcommit _ _ _ _ _ hrounds hatt
      | .error x =>
        simp only [hatt]
        exact ⟨hrounds, hfall⟩
    | execFails =>
      match hatt : attempt m e.reading c with
      | .ok _ =>
        simp only [hatt]
        exact hdegrade e.degraded c hrounds
      | .error x =>
        simp only [hatt]
        exact ⟨hrounds, hfall⟩

/-- **When one mutation returns**, whatever the store does: the mutator returns on every
record that may be stored, with something JSON can write, and on the copy. -/
theorem safeMutate_returns (hw : ∀ c ∈ e.writes, Stored A c)
    (hA : ∀ r st, A st → st.All PyVal.isJson → ∃ a st', m r st = .ok (a, st') ∧
      st'.All PyVal.isJson)
    (hB : ∀ r st, B st → ∃ a st', m r st = .ok (a, st')) :
    Eff.Spec (fun s => Stored A s.content ∧ B s.fallback) (safeMutate e m)
      (fun _ _ => True) (fun _ _ => False) := by
  have hround : ∀ r c, Stored A c → ∃ x, attempt m r c = .ok x := by
    rintro r c ⟨st, hp, ha⟩
    obtain ⟨a, st', hm, hall⟩ := hA r st ha (all_of_parseState hp)
    obtain ⟨c', hatt⟩ := attempt_returns hp hm hall
    exact ⟨_, hatt⟩
  have hlost : ∀ races c, Stored A c → (∀ w ∈ races.map Prod.snd, Stored A w) →
      (lostRounds m races c).1 = .ok () := by
    intro races
    induction races with
    | nil => exact fun _ _ _ => rfl
    | cons race races ih =>
      intro c hc hw
      obtain ⟨x, hatt⟩ := hround race.1 c hc
      unfold lostRounds
      rw [hatt]
      exact ih _ (hw _ List.mem_cons_self) fun w hmem => hw w (List.mem_cons_of_mem _ hmem)
  intro s ⟨hcontent, hfall⟩
  have hstart := before_stored hcontent hw
  have hrounds : Stored A (lostRounds m e.races (e.before.getD s.content)).2 :=
    lostRounds_stored e.races hstart (races_stored hw)
  have hok := hlost e.races _ hstart (races_stored hw)
  obtain ⟨a, st', hdeg⟩ := hB e.degraded _ hfall
  unfold safeMutate
  match hl : lostRounds m e.races (e.before.getD s.content) with
  | (.error x, c) =>
    rw [hl] at hok
    cases hok
  | (.ok (), c) =>
    rw [hl] at hrounds
    obtain ⟨x, hatt⟩ := hround e.reading c hrounds
    cases e.fault with
    | unreachable =>
      simp only [degrade, hdeg, Eff.ends_ok]
    | commits =>
      simp only [hatt, Eff.ends_ok]
    | execFails =>
      simp only [hatt, degrade, hdeg, Eff.ends_ok]

end Mutation

/-! ### The methods of the circuit breaker -/

section Ops
variable {cfg : BreakerConfig} {e : StoreEnv}

/-- What the interceptor relies on before the failure is recorded. -/
def Ready (cfg : BreakerConfig) (s : RedisCircuit) : Prop :=
  Stored (WellFormed cfg) s.content ∧ Sound cfg s.fallback

/-- What the metrics rely on. -/
def Observable (s : RedisCircuit) : Prop := Stored Observes s.content ∧ Observes s.fallback

/-- Other clients write only well-formed records during the call. -/
def StoreEnv.WritesWellFormed (cfg : BreakerConfig) (e : StoreEnv) : Prop :=
  ∀ c ∈ e.writes, Stored (WellFormed cfg) c

variable (hw : e.WritesWellFormed cfg)
include hw

theorem isOpen_ready : Eff.Spec (Ready cfg) (redisOps cfg e).isOpen (fun _ => Ready cfg)
    (fun _ => Ready cfg) := by
  refine (safeMutate_spec (V := fun _ => True) (fun _ h => h)
    (fun c hc => hw c (by simp [StoreEnv.writes, hc])) (fun r st h x hx => ?_)
    (fun r st h x hx => ?_)).weaken (fun _ h => h) (fun _ _ h => h.2) (fun _ _ h => h)
  · have hkept := (kept_wellFormed cfg).isOpen h cfg r x hx
    exact ⟨trivial, hkept, hkept.sound⟩
  · exact ⟨trivial, (kept_sound cfg).isOpen h cfg r x hx⟩

theorem recordSuccess_ready : Eff.Spec (Ready cfg) (redisOps cfg e).recordSuccess
    (fun _ => Observable) (fun _ => Ready cfg) := by
  refine (safeMutate_spec (V := fun _ => True) (fun _ h => h.observes)
    (fun c hc => hw c (by simp [StoreEnv.writes, hc])) (fun r st _ x hx => ?_)
    (fun r st _ x hx => ?_)).weaken (fun _ h => h) (fun _ _ h => h.2) (fun _ _ h => h)
  · have hobs := recordSuccess_observes r st x hx
    exact ⟨trivial, hobs, hobs⟩
  · exact ⟨trivial, recordSuccess_observes r st x hx⟩

/-- The handler's `record_failure` returns. -/
theorem recordFailure_ready : Eff.Spec (Ready cfg) (redisOps cfg e).recordFailure
    (fun _ => Observable) (fun _ _ => False) := by
  have hwrites : ∀ c ∈ e.failure.writes, Stored (WellFormed cfg) c :=
    fun c hc => hw c (by simp [StoreEnv.writes, hc])
  have hfailed : ∀ r st, WellFormed cfg st → st.All PyVal.isJson →
      ∃ st', recordFailure cfg r st = .ok ((), st') ∧ st'.All PyVal.isJson ∧ st'.Observes := by
    intro r st h ha
    obtain ⟨st', hst', hall, hf⟩ := h.records.recordFailure_returns admits_isJson ha r
    exact ⟨st', hst', hall, hf.observes (.inl h.hashable)⟩
  have hcopied : ∀ r st, Sound cfg st →
      ∃ st', recordFailure cfg r st = .ok ((), st') ∧ st'.Observes := by
    intro r st h
    obtain ⟨st', hst', -, hf⟩ := h.records.recordFailure_returns admits_true (all_true st) r
    exact ⟨st', hst', hf.observes h.observable⟩
  have hensures : ∀ r st, Sound cfg st → (recordFailure cfg r st).Ensures fun x => x.2.Observes := by
    intro r st h x hx
    obtain ⟨st', hst', hobs⟩ := hcopied r st h
    rw [hst'] at hx
    cases hx
    exact hobs
  have hspec := safeMutate_spec (m := recordFailure cfg) (V := fun _ => True)
    (fun _ h => WellFormed.observes h) hwrites
    (fun r st h x hx => ⟨trivial, hensures r st h.sound x hx, hensures r st h.sound x hx⟩)
    (fun r st h x hx => ⟨trivial, hensures r st h x hx⟩)
  have hret := safeMutate_returns (m := recordFailure cfg) hwrites
    (fun r st h ha =>
      let ⟨st', hst', hall, _⟩ := hfailed r st h ha
      ⟨(), st', hst', hall⟩)
    (fun r st (h : Sound cfg st) =>
      let ⟨st', hst', _⟩ := hcopied r st h
      ⟨(), st', hst'⟩)
  exact (hspec.conj hret).weaken (fun _ h => h) (fun _ _ h => h.1.2) (fun _ _ h => h.2)

/-- Reading `state` before the failure is recorded keeps what the handler relies on. -/
theorem state_ready (pass : MetricsPass) : Eff.Spec (Ready cfg) ((redisOps cfg e).state pass)
    (fun _ => Ready cfg) (fun _ => Ready cfg) := by
  have hkept : ∀ {P : RawState → Prop}, Kept P → ∀ r st, P st →
      (readState cfg r st).Ensures fun x => P x.2 := by
    intro P hP r st h x hx
    obtain ⟨st', hst', h', -⟩ := hP.readState h cfg r
    rw [hst'] at hx
    cases hx
    exact h'
  refine (safeMutate_spec (V := fun _ => True) (fun _ h => h) (fun c hc => hw c ?_)
    (fun r st h x hx => ?_) (fun r st h x hx => ?_)).weaken (fun _ h => h) (fun _ _ h => h.2)
    (fun _ _ h => h)
  · cases pass <;> simp [StoreEnv.writes, hc]
  · have h' := hkept (kept_wellFormed cfg) r st h x hx
    exact ⟨trivial, h', h'.sound⟩
  · exact ⟨trivial, hkept (kept_sound cfg) r st h x hx⟩

/-- What the metrics rely on is enough for `state` to return a key of the gauge. -/
theorem state_observable (pass : MetricsPass) :
    Eff.Spec Observable ((redisOps cfg e).state pass)
      (fun v _ => v.hashable = true) (fun _ _ => False) := by
  have hwrites : ∀ c ∈ (e.metrics pass).writes, Stored Observes c := by
    intro c hc
    refine (hw c ?_).mono fun _ h => h.observes
    cases pass <;> simp [StoreEnv.writes, hc]
  have hread : ∀ r st, Observes st →
      (readState cfg r st).Ensures fun x => x.1.hashable = true ∧ x.2.Observes := by
    intro r st h x hx
    obtain ⟨st', hst', h', -⟩ := kept_observes.readState h cfg r
    rw [hst'] at hx
    cases hx
    exact ⟨h'.hashable, h'⟩
  have hspec := safeMutate_spec (m := readState cfg) (V := fun v => v.hashable = true)
    (fun _ h => h) hwrites
    (fun r st h x hx => ⟨(hread r st h x hx).1, (hread r st h x hx).2, (hread r st h x hx).2⟩) hread
  have hret := safeMutate_returns (m := readState cfg) (B := Observes) hwrites
    (fun r st h ha =>
      let ⟨st', hst', _, hall⟩ := kept_observes.readState h cfg r
      ⟨_, st', hst', hall ha⟩)
    (fun r st h =>
      let ⟨st', hst', _⟩ := kept_observes.readState h cfg r
      ⟨_, st', hst'⟩)
  exact (hspec.conj hret).weaken (fun _ h => h) (fun _ _ h => h.1.1) (fun _ _ h => h.2)

end Ops

/-! ### The interceptor -/

/-- `str` returns on the two metadata values that the handler reads. -/
def StrSafe (metadata : PyDict String PyVal) : Prop :=
  (∃ s, (metadata.getD "workload_id" (.str "")).toStr = .ok s) ∧
    ∃ s, (metadata.getD "tenant_id" (.str "")).toStr = .ok s

theorem stateGauge_returns {v : PyVal} (h : v.hashable = true) : ∃ x, stateGauge v = .ok x := by
  unfold stateGauge
  split
  · cases h
  · cases h
  · exact ⟨_, rfl⟩
  · exact ⟨_, rfl⟩
  · exact ⟨_, rfl⟩

section Intercept
variable {cfg : BreakerConfig} {e : StoreEnv} {g : Gateway} {env : CallEnv}
  {request : InterceptionRequest} (hw : e.WritesWellFormed cfg)
include hw

theorem metrics_observable (pass : MetricsPass) :
    Eff.Spec (fun s : Interceptor RedisCircuit => Observable s.circuit)
      (recordObservabilityMetrics (redisOps cfg e) pass) (fun _ _ => True) (fun _ _ => False) := by
  refine (onCircuit_spec (state_observable hw pass)).bind fun v s hv => ?_
  obtain ⟨x, hx⟩ := stateGauge_returns hv
  change Eff.Ends _ _ ((Eff.lift (stateGauge v) >>= _) s)
  rw [hx, Eff.lift_ok_bind]
  trivial

/-- The metrics of an answered call, before a failure is recorded: whatever they raise,
the handler can work. -/
theorem metrics_ready : Eff.Spec (fun s : Interceptor RedisCircuit => Ready cfg s.circuit)
    (recordObservabilityMetrics (redisOps cfg e) .answered) (fun _ _ => True)
    (fun _ s => Ready cfg s.circuit) := by
  refine (onCircuit_spec (state_ready hw .answered)).bind fun v => ?_
  exact Eff.spec_lift_bind (fun _ _ => Eff.spec_pure fun _ _ => trivial) (fun _ _ _ h => h)

/-- The inner pipeline leaves a circuit that the metrics or the handler can work with. -/
theorem inner_ready : Eff.Spec (fun s : Interceptor RedisCircuit => Ready cfg s.circuit)
    (interceptInner (redisOps cfg e) g env request)
    (fun _ s => Observable s.circuit ∨ Ready cfg s.circuit) (fun _ s => Ready cfg s.circuit) := by
  refine (onCircuit_spec (isOpen_ready hw)).bind fun refused =>
    Eff.spec_ite (fun _ => ?_) fun _ => ?_
  · exact Eff.Spec.bind (Q := fun _ s => Ready cfg s.circuit) (Eff.spec_modify fun _ h => h)
      fun _ => Eff.spec_pure fun _ h => .inr h
  · refine (admitted_reports (recordSuccess_ready hw)).weaken (fun _ h => h) (fun _ s h => ?_)
      (fun _ _ h => h)
    rcases h with h | ⟨-, h⟩
    · exact .inl h
    · exact .inr h

/-- **The handler returns.** -/
theorem failOpenResult_returns (hs : StrSafe request.metadata) :
    Eff.Spec (fun s : Interceptor RedisCircuit => Ready cfg s.circuit)
      (failOpenResult (redisOps cfg e) g env request) (fun _ _ => True) (fun _ _ => False) := by
  obtain ⟨⟨w, hwork⟩, ⟨t, htenant⟩⟩ := hs
  have hid : ∃ id, request.resolveWorkloadId = .ok id := by
    unfold InterceptionRequest.resolveWorkloadId InterceptionRequest.metaStr
    rw [hwork]
    exact ⟨_, rfl⟩
  have hten : request.resolveTenantId = .ok (PyText.strip t) := by
    unfold InterceptionRequest.resolveTenantId InterceptionRequest.metaStr
    rw [htenant]
    rfl
  have hemit : ∀ id, Eff.Returns (failOpenResult.emitFailure g env request id :
      InterceptM RedisCircuit Bool) := fun id =>
    Eff.returns_ite (Eff.returns_pure _)
      ((Eff.returns_lift hten).bind fun _ => emitShadowEvent_returns)
  obtain ⟨id, hid⟩ := hid
  refine Eff.Spec.bind (Q := fun _ s => Ready cfg s.circuit) (Eff.spec_modify fun _ h => h)
    fun _ => ?_
  refine (onCircuit_spec (recordFailure_ready hw)).bind fun _ => ?_
  rw [hid, Eff.lift_ok_bind]
  refine ((hemit id).spec (I := Observable) emitFailure_keepsCircuit).bind fun _ => ?_
  exact (metrics_observable hw .failed).bind fun _ => Eff.spec_pure fun _ _ => trivial

/-- **The interceptor returns**, on a record and a copy it can work with. -/
theorem intercept_returns (hs : StrSafe request.metadata) :
    Eff.Spec (fun s : Interceptor RedisCircuit => Ready cfg s.circuit)
      (intercept (redisOps cfg e) g env request) (fun _ _ => True) (fun _ _ => False) := by
  refine Eff.Spec.bind (Q := fun _ s => Ready cfg s.circuit) (Eff.spec_modify fun _ h => h)
    fun _ => ?_
  refine Eff.Spec.catching (R := fun _ s => Ready cfg s.circuit) ?_
    fun _ => failOpenResult_returns hw hs
  refine (inner_ready hw).bind fun result s h => ?_
  rcases h with h | h
  · exact ((metrics_observable hw .answered).bind fun _ => Eff.spec_pure fun _ _ => trivial).weaken
      (fun _ h => h) (fun _ _ h => h) (fun _ _ h => h.elim) s h
  · exact ((metrics_ready hw).bind fun _ => Eff.spec_pure fun _ _ => trivial) s h

end Intercept

/-! ### How it raises -/

/-- The key shows `c` at this mutation. -/
def showing (c : KeyContent) (r : Reading) : MutateEnv :=
  { before := some c, reading := r, degraded := r }

/-- The server is unreachable at this mutation. -/
def outage (r : Reading) : MutateEnv := { fault := .unreachable, reading := r, degraded := r }

/-- What the admission, the failure and the metrics meet. -/
def scene (gate failure observe : MutateEnv) : StoreEnv where
  gate := gate
  report := outage ⟨0, 0⟩
  failure := failure
  metrics := fun _ => observe

section Raises
variable {cfg : BreakerConfig} {g : Gateway} {env : CallEnv} {request : InterceptionRequest}

/-- An exception of the pipeline and one of the handler. -/
theorem intercept_raises {β : Type} {ops : CircuitOps β} {K L : β → Prop}
    (hinner : Eff.Spec (fun s : Interceptor β => K s.circuit) (interceptInner ops g env request)
      (fun _ _ => False) (fun _ s => L s.circuit))
    (hhandler : Eff.Spec (fun s : Interceptor β => L s.circuit)
      (failOpenResult ops g env request) (fun _ _ => False) (fun _ _ => True)) :
    Eff.Spec (fun s : Interceptor β => K s.circuit) (intercept ops g env request)
      (fun _ _ => False) (fun _ _ => True) := by
  refine Eff.Spec.bind (Q := fun _ s => K s.circuit) (Eff.spec_modify fun _ h => h) fun _ => ?_
  exact (hinner.bind fun _ _ h => h.elim).catching fun _ => hhandler

theorem safeMutate_showing_error {α : Type} {m : Mutator α} {r : Reading} {c : KeyContent}
    {x : PyExn} (h : attempt m r c = .error x) (P : RawState → Prop) :
    Eff.Spec (fun s => P s.fallback) (safeMutate (showing c r) m) (fun _ _ => False)
      (fun _ s => P s.fallback) := by
  intro s hs
  simp only [safeMutate, showing, lostRounds, Option.getD_some, h, Eff.ends_error]
  exact hs

theorem safeMutate_showing_ok {α : Type} {m : Mutator α} {r : Reading} {c c' : KeyContent} {a : α}
    {st : RawState} (h : attempt m r c = .ok (a, st, c')) {P : RedisCircuit → Prop} :
    Eff.Spec P (safeMutate (showing c r) m) (fun b _ => b = a) (fun _ _ => False) := by
  intro s _
  simp only [safeMutate, showing, lostRounds, Option.getD_some, h, Eff.ends_ok]

theorem wellFormed_absent (cfg : BreakerConfig) : Stored (WellFormed cfg) .absent := by
  have hone : (PyVal.int 0).Countable PyVal.isJson := ⟨.int 1, rfl, isJson_one⟩
  refine ⟨{}, rfl, ⟨?_, ?_, fun _ => ⟨hone, fun _ => hone⟩⟩, rfl⟩
  · intro ho
    simp [PyVal.isText] at ho
  · intro hm
    simp [mayHalfOpen, PyVal.isText] at hm

/-- Some well-formed content lets the request through: an empty key does. -/
theorem exists_letting (cfg : BreakerConfig) (r : Reading) :
    ∃ c, Stored (WellFormed cfg) c ∧ ∃ st c', attempt (isOpen cfg) r c = .ok (false, st, c') := by
  have hopen : isOpen cfg r {} = .ok (false, {}) := isOpen_ofState (s := {})
  obtain ⟨c', h⟩ := attempt_returns (c := .absent) rfl hopen
    (all_of_parseState (c := .absent) rfl)
  exact ⟨.absent, wellFormed_absent cfg, _, c', h⟩

/-- A circuit that stays open, and cannot count the requests it refuses. -/
def stuckOpen : RawState :=
  { state := .str "open", lastFailureTimeEpochS := .float .posInf, totalFailOpens := .str "x" }

/-- On some well-formed content `is_open` raises. -/
theorem exists_raising (cfg : BreakerConfig) (r : Reading) :
    ∃ c, Stored (WellFormed cfg) c ∧ ∃ x, attempt (isOpen cfg) r c = .error x := by
  have hone : (PyVal.int 0).Countable PyVal.isJson := ⟨.int 1, rfl, isJson_one⟩
  have hwf : WellFormed cfg stuckOpen := by
    refine ⟨⟨fun _ => ⟨_, rfl⟩, fun hm => ?_, fun _ => ⟨hone, fun _ => hone⟩⟩, rfl⟩
    simp [mayHalfOpen, neverElapses, stuckOpen, PyVal.isText] at hm
  have hall : stuckOpen.All PyVal.isJson :=
    have hz := admits_isJson.zero
    ⟨admits_isJson.str _, hz, admits_isJson.float _, hz, hz, hz, admits_isJson.str _⟩
  obtain ⟨c, hd⟩ := dumps_of_all hall
  have hp := parseState_dumps hd
  refine ⟨c, ⟨stuckOpen, hp, hwf⟩, .typeError, ?_⟩
  unfold attempt
  rw [hp]
  rfl

/-- The request of workload `svc` with the given metadata. -/
def requestWith (metadata : PyDict String PyVal) : InterceptionRequest :=
  { requestId := "r", model := "m", workloadId := "svc", metadata := metadata }

theorem requestWith_workload {metadata : PyDict String PyVal} {id : String}
    (h : (requestWith metadata).resolveWorkloadId = .ok id) : id = "svc" := by
  unfold InterceptionRequest.resolveWorkloadId at h
  cases hm : (requestWith metadata).metaStr "workload_id" with
  | error x =>
    rw [hm] at h
    cases h
  | ok w =>
    rw [hm] at h
    cases h
    have hstrip : PyText.strip "svc" = "svc" := by decide +kernel
    simp [requestWith, hstrip]

/-- The index raises. -/
def raisingEnv : CallEnv := { InterceptRun.servedEnv with lookup := fun _ => .error .other }

/-- Let through, the request meets an index that raises. -/
theorem inner_raises {r : Reading} {c c' : KeyContent} {st : RawState}
    (hopen : attempt (isOpen cfg) r c = .ok (false, st, c')) (failure observe : MutateEnv)
    (metadata : PyDict String PyVal) :
    Eff.Spec (fun _ : Interceptor RedisCircuit => True)
      (interceptInner (redisOps cfg (scene (showing c r) failure observe)) g raisingEnv
        (requestWith metadata)) (fun _ _ => False) (fun _ _ => True) := by
  have hlet : Eff.Spec (fun _ => True) (redisOps cfg (scene (showing c r) failure observe)).isOpen
      (fun refused _ => refused = false) (fun _ _ => True) :=
    (safeMutate_showing_ok hopen).weaken (fun _ h => h) (fun _ _ h => h) (fun _ _ h => h.elim)
  refine (onCircuit_spec hlet).bind fun refused => Eff.spec_ite (fun hr s hs => ?_) fun _ => ?_
  · rw [hr] at hs
    cases hs
  · refine Eff.spec_lift_bind (fun id hid => ?_) (fun _ _ _ _ => trivial)
    rw [if_neg (by rw [requestWith_workload hid]; decide)]
    exact fun _ _ => trivial

/-- The handler raises if recording the failure does. -/
theorem handler_raises_of_record {β : Type} {ops : CircuitOps β} {K : β → Prop}
    (h : Eff.Spec K ops.recordFailure (fun _ _ => False) (fun _ _ => True)) :
    Eff.Spec (fun s : Interceptor β => K s.circuit) (failOpenResult ops g env request)
      (fun _ _ => False) (fun _ _ => True) := by
  refine Eff.Spec.bind (Q := fun _ s => K s.circuit) (Eff.spec_modify fun _ h => h) fun _ => ?_
  exact (onCircuit_spec h).bind fun _ _ h => h.elim

/-- The handler raises if reporting the failure does. -/
theorem handler_raises_of_emit {β : Type} {ops : CircuitOps β}
    (h : ∀ id, request.resolveWorkloadId = .ok id → Eff.Spec (fun _ : Interceptor β => True)
      (failOpenResult.emitFailure g env request id) (fun _ _ => False) (fun _ _ => True)) :
    Eff.Spec (fun _ : Interceptor β => True) (failOpenResult ops g env request)
      (fun _ _ => False) (fun _ _ => True) := by
  refine Eff.spec_true.bind fun _ => Eff.spec_true.bind fun _ => ?_
  refine Eff.spec_lift_bind (fun id hid => ?_) (fun _ _ _ _ => trivial)
  exact (h id hid).bind fun _ _ h => h.elim

/-- The handler raises if the metrics read a state that cannot be hashed. -/
theorem handler_raises_of_state {β : Type} {ops : CircuitOps β} {K L : β → Prop}
    (h : Eff.Spec K ops.recordFailure (fun _ => L) (fun _ _ => True))
    (hs : Eff.Spec L (ops.state .failed) (fun v _ => v.hashable = false) (fun _ _ => True)) :
    Eff.Spec (fun s : Interceptor β => K s.circuit) (failOpenResult ops g env request)
      (fun _ _ => False) (fun _ _ => True) := by
  have hmetrics : Eff.Spec (fun s : Interceptor β => L s.circuit)
      (recordObservabilityMetrics ops .failed) (fun _ _ => False) (fun _ _ => True) := by
    refine (onCircuit_spec hs).bind fun v s hv => ?_
    refine Eff.spec_lift_bind (P := fun _ => v.hashable = false) (fun x hx => ?_)
      (fun _ _ _ _ => trivial) s hv
    cases v with
    | list xs => cases hx
    | dict kvs => cases hx
    | _ => exact fun _ h => by cases h
  refine Eff.Spec.bind (Q := fun _ s => K s.circuit) (Eff.spec_modify fun _ h => h) fun _ => ?_
  refine (onCircuit_spec h).bind fun _ =>
    Eff.spec_lift_bind (fun id _ => ?_) (fun _ _ _ _ => trivial)
  refine ((Eff.Frames.spec (I := L) emitFailure_keepsCircuit).weaken (fun _ h => h) (fun _ _ h => h)
    (fun _ _ _ => trivial)).bind fun _ => ?_
  exact hmetrics.bind fun _ _ h => h.elim

end Raises

/-! ### Exactly when it returns -/

/-- **The interceptor never blocks its caller**, in a process whose circuit key holds `c`
and whose own copy of the circuit is `f`, on requests with the given metadata: for every
mode, index, publisher, clock and behaviour of the store, where other clients write only
well-formed records, or `c`, while the call runs. -/
def NeverBlocks (g : Gateway) (c : KeyContent) (f : RawState) (metadata : PyDict String PyVal) :
    Prop :=
  ∀ (mode : DeploymentMode) (env : CallEnv) (e : StoreEnv) (request : InterceptionRequest)
    (s : Interceptor RedisCircuit), request.metadata = metadata → s.circuit = ⟨c, f⟩ →
    (∀ w ∈ e.writes, Stored (WellFormed g.breaker) w ∨ w = c) →
    ∃ r s', intercept (redisOps g.breaker e) { g with mode := mode } env request s = (.ok r, s')

section Exact
variable {g : Gateway} {c : KeyContent} {f : RawState} {metadata : PyDict String PyVal}

/-- A call that surely raises contradicts the promise. -/
theorem NeverBlocks.not_raises (h : NeverBlocks g c f metadata) {env : CallEnv} (e : StoreEnv)
    {request : InterceptionRequest} (K : RedisCircuit → Prop) (hm : request.metadata = metadata)
    (hw : ∀ w ∈ e.writes, Stored (WellFormed g.breaker) w ∨ w = c) (hK : K ⟨c, f⟩)
    (hraise : Eff.Spec (fun s : Interceptor RedisCircuit => K s.circuit)
      (intercept (redisOps g.breaker e) g env request) (fun _ _ => False) (fun _ _ => True)) :
    False := by
  obtain ⟨r, s', hok⟩ := h g.mode env e request { circuit := ⟨c, f⟩ } hm rfl hw
  have hends := hraise { circuit := ⟨c, f⟩ } hK
  rw [show intercept (redisOps g.breaker e) g env request { circuit := ⟨c, f⟩ } = (.ok r, s')
    from hok] at hends
  exact hends

theorem scene_writes {gate failure observe : MutateEnv} {P : KeyContent → Prop}
    (ha : ∀ w ∈ gate.writes, P w) (hf : ∀ w ∈ failure.writes, P w)
    (ho : ∀ w ∈ observe.writes, P w) : ∀ w ∈ (scene gate failure observe).writes, P w := by
  intro w hw
  simp only [StoreEnv.writes, scene, List.mem_append] at hw
  rcases hw with (((hw | hw) | hw) | hw) | hw
  · exact ha w hw
  · cases hw
  · exact hf w hw
  · exact ho w hw
  · exact ho w hw

theorem showing_writes {c : KeyContent} {r : Reading} {P : KeyContent → Prop} (h : P c) :
    ∀ w ∈ (showing c r).writes, P w := by
  intro w hw
  rw [List.mem_singleton.mp hw]
  exact h

theorem outage_writes {r : Reading} {P : KeyContent → Prop} : ∀ w ∈ (outage r).writes, P w :=
  fun _ hw => absurd hw List.not_mem_nil

/-- The handler can be reached whatever is under the key: an empty key lets the request
through and the index raises.  So it must not raise. -/
theorem NeverBlocks.handler (h : NeverBlocks g c f metadata) {failure observe : MutateEnv}
    (hf : ∀ w ∈ failure.writes, w = c) (ho : ∀ w ∈ observe.writes, w = c)
    (hraise : ∀ gate, Eff.Spec (fun _ : Interceptor RedisCircuit => True)
      (failOpenResult (redisOps g.breaker (scene gate failure observe)) g raisingEnv
        (requestWith metadata)) (fun _ _ => False) (fun _ _ => True)) : False := by
  obtain ⟨c₀, hc₀, st, c', hopen⟩ := exists_letting g.breaker ⟨0, 0⟩
  exact h.not_raises (scene (showing c₀ ⟨0, 0⟩) failure observe) (fun _ => True)
    (rfl : (requestWith metadata).metadata = metadata)
    (scene_writes (showing_writes (.inl hc₀)) (fun w hw => .inr (hf w hw))
      fun w hw => .inr (ho w hw)) trivial
    (intercept_raises (K := fun _ => True) (L := fun _ => True)
      (inner_raises hopen failure observe metadata) (hraise _))

/-- The record under the key must let a failure be recorded. -/
theorem NeverBlocks.attempt_returns (h : NeverBlocks g c f metadata) (r : Reading) :
    ∃ x, attempt (recordFailure g.breaker) r c = .ok x := by
  cases hatt : attempt (recordFailure g.breaker) r c with
  | ok x => exact ⟨x, rfl⟩
  | error x =>
    exact (h.handler (showing_writes rfl) (outage_writes (r := r)) fun gate =>
      handler_raises_of_record (K := fun _ => True)
        (safeMutate_showing_error hatt fun _ => True)).elim

/-- So it is a record of the kind `Records` describes. -/
theorem NeverBlocks.records (h : NeverBlocks g c f metadata) :
    ∃ st, c.parseState = .ok st ∧ Records PyVal.isJson g.breaker st := by
  obtain ⟨⟨_, st₀, c₀⟩, hatt⟩ := h.attempt_returns ⟨0, 0⟩
  obtain ⟨st, hp, -⟩ := attempt_ok hatt
  refine ⟨st, hp, records_of_returns fun r => ?_⟩
  obtain ⟨⟨_, st', c'⟩, hatt'⟩ := h.attempt_returns r
  obtain ⟨st₁, hp₁, hm, -, hall⟩ := attempt_ok hatt'
  rw [hp] at hp₁
  cases hp₁
  exact ⟨st', hm, hall.failureCount, hall.totalOpens⟩

/-- And its state can be looked up. -/
theorem NeverBlocks.hashable (h : NeverBlocks g c f metadata) {st : RawState}
    (hp : c.parseState = .ok st) : st.state.hashable = true := by
  by_contra hash
  have hash := Bool.eq_false_of_not_eq_true hash
  have hread : readState g.breaker ⟨0, 0⟩ st = .ok (st.state, st) := by
    unfold readState
    rw [transition_of_not_hashable hash]
    rfl
  obtain ⟨c', hatt⟩ := ComputeIntelligence.attempt_returns hp hread (all_of_parseState hp)
  refine h.handler (outage_writes (r := ⟨0, 0⟩)) (showing_writes (r := ⟨0, 0⟩) rfl) fun gate =>
    handler_raises_of_state (K := fun _ => True) (L := fun _ => True) Eff.spec_true ?_
  refine (safeMutate_showing_ok hatt).weaken (fun _ h => h) (fun v _ hv => ?_) (fun _ _ h => h.elim)
  rw [hv]
  exact hash

/-- Both metadata values must have a text. -/
theorem NeverBlocks.strSafe (h : NeverBlocks g c f metadata) : StrSafe metadata := by
  have hreach := h.handler (outage_writes (r := ⟨0, 0⟩)) (outage_writes (r := ⟨0, 0⟩))
  constructor
  · cases hs : (metadata.getD "workload_id" (.str "")).toStr with
    | ok s => exact ⟨s, rfl⟩
    | error x =>
      refine (hreach fun gate => handler_raises_of_emit fun id hid => ?_).elim
      unfold InterceptionRequest.resolveWorkloadId InterceptionRequest.metaStr at hid
      rw [show (requestWith metadata).metadata = metadata from rfl, hs] at hid
      cases hid
  · cases hs : (metadata.getD "tenant_id" (.str "")).toStr with
    | ok s => exact ⟨s, rfl⟩
    | error x =>
      refine (hreach fun gate => handler_raises_of_emit fun id hid => ?_).elim
      unfold failOpenResult.emitFailure
      rw [if_neg (by rw [requestWith_workload hid]; decide)]
      refine Eff.spec_lift_bind (fun t ht => ?_) (fun _ _ _ _ => trivial)
      unfold InterceptionRequest.resolveTenantId InterceptionRequest.metaStr at ht
      rw [show (requestWith metadata).metadata = metadata from rfl, hs] at ht
      cases ht

/-- The copy can be reached untouched: `is_open` raises on some well-formed content. -/
theorem NeverBlocks.copied (h : NeverBlocks g c f metadata) (failure observe : MutateEnv)
    (hf : failure.writes = []) (ho : observe.writes = [])
    (hraise : ∀ gate, Eff.Spec (fun s : Interceptor RedisCircuit => s.circuit.fallback = f)
      (failOpenResult (redisOps g.breaker (scene gate failure observe)) g raisingEnv
        (requestWith metadata)) (fun _ _ => False) (fun _ _ => True)) : False := by
  obtain ⟨d, hd, x, hatt⟩ := exists_raising g.breaker ⟨0, 0⟩
  have hopen : Eff.Spec (fun s => s.fallback = f)
      (redisOps g.breaker (scene (showing d ⟨0, 0⟩) failure observe)).isOpen
      (fun _ _ => False) (fun _ s => s.fallback = f) :=
    safeMutate_showing_error hatt fun st => st = f
  refine h.not_raises (scene (showing d ⟨0, 0⟩) failure observe) (fun s => s.fallback = f)
    (rfl : (requestWith metadata).metadata = metadata)
    (scene_writes (showing_writes (.inl hd)) (by simp [hf]) (by simp [ho])) rfl
    (intercept_raises (K := fun s : RedisCircuit => s.fallback = f)
      (L := fun s => s.fallback = f) ?_ (hraise _))
  exact (onCircuit_spec hopen).bind fun _ _ h => h.elim

theorem safeMutate_outage {α : Type} {m : Mutator α} {r : Reading} (s : RedisCircuit) :
    safeMutate (outage r) m s = degrade m r s.content s.fallback := rfl

/-- So the copy must let a failure be recorded, and what that leaves be looked up. -/
theorem NeverBlocks.sound (h : NeverBlocks g c f metadata) : Sound g.breaker f := by
  have hret : ∀ r, ∃ st', recordFailure g.breaker r f = .ok ((), st') := by
    intro r
    cases hm : recordFailure g.breaker r f with
    | ok x => exact ⟨x.2, rfl⟩
    | error x =>
      refine (h.copied (outage r) (outage r) rfl rfl fun gate =>
        handler_raises_of_record (K := fun s : RedisCircuit => s.fallback = f) fun s hs => ?_).elim
      change Eff.Ends _ _ (safeMutate (outage r) (recordFailure g.breaker) s)
      rw [safeMutate_outage, hs]
      simp only [degrade, hm, Eff.ends_error]
  refine ⟨records_of_returns fun r => ?_, ?_⟩
  · obtain ⟨st', hst'⟩ := hret r
    exact ⟨st', hst', rfl, rfl⟩
  · by_contra hnot
    obtain ⟨hash, htrip⟩ : f.state.hashable = false ∧ f.trips g.breaker = false := by
      simpa using hnot
    -- the failure is counted and leaves the state, which the metrics then read
    refine h.copied (outage ⟨0, 0⟩) (outage ⟨0, 0⟩) rfl rfl fun gate =>
      handler_raises_of_state (K := fun s : RedisCircuit => s.fallback = f)
        (L := fun s => s.fallback.state.hashable = false) (fun s hs => ?_) (fun s hs => ?_)
    · obtain ⟨st', hst'⟩ := hret ⟨0, 0⟩
      have hsame : st'.state = f.state := by
        rw [recordFailure_of_transition (transition_of_not_hashable hash _),
          if_neg (by rw [isText_of_not_hashable hash]; decide)] at hst'
        exact countFailure_state htrip _ hst'
      change Eff.Ends _ _ (safeMutate (outage ⟨0, 0⟩) (recordFailure g.breaker) s)
      rw [safeMutate_outage, hs]
      simp only [degrade, hst', Eff.ends_ok]
      rw [hsame]
      exact hash
    · change Eff.Ends _ _ (safeMutate (outage ⟨0, 0⟩) (readState g.breaker) s)
      have hread : readState g.breaker ⟨0, 0⟩ s.fallback = .ok (s.fallback.state, s.fallback) := by
        unfold readState
        rw [transition_of_not_hashable hs]
        rfl
      rw [safeMutate_outage]
      simp only [degrade, hread, Eff.ends_ok]
      exact hs

end Exact

/-- The record of another version, with a field this one does not know. -/
def newerRecord : KeyContent := .json (.dict [("state", .str "closed"), ("region", .str "eu")])

/-- A store that commits at once. -/
def quietStore : StoreEnv :=
  let quiet : MutateEnv := { reading := ⟨0, 0⟩, degraded := ⟨0, 0⟩ }
  ⟨quiet, quiet, quiet, fun _ => quiet⟩

end ComputeIntelligence
