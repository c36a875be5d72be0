import ComputeIntelligence.CircuitStore
import ComputeIntelligence.ExceptRules

/-! # Which records the circuit breaker can work with

Nothing checks the types of the record's fields, so a mutator may raise on it.  This
module says for which records `record_failure` returns, at every time (`Records`), and
for which the property `state` returns something the metrics can look up (`Observes`),
and what each mutator keeps of that.  The condition on `record_failure` is exact
(`RawState.records_of_returns`).

A mutation of the shared key adds to this that its result has to be written as JSON:
`keep` is what may be stored, everything for the process's own copy, JSON values for
the key.
-/
namespace PyVal

/-- `v += 1` returns something that may be stored. -/
def Countable (keep : PyVal → Bool) (v : PyVal) : Prop :=
  ∃ w, v.addOne = .ok w ∧ keep w = true

/-- `t - v` returns. -/
def Subtractable (v : PyVal) : Prop := ∃ x, v.subFrom 0 = .ok x

/-- Whether a subtraction returns does not depend on the time. -/
theorem subFrom_returns {v : PyVal} {t : ℚ} {x : PyFloat} (h : v.subFrom t = .ok x) (u : ℚ) :
    ∃ y, v.subFrom u = .ok y := by
  cases v with
  | bool b => exact ⟨_, rfl⟩
  | float x => exact ⟨_, rfl⟩
  | int i => exact ⟨_, by rw [subFrom_int, if_pos (fitsFloat_of_subFrom h)]⟩
  | _ => cases h

theorem Subtractable.subFrom {v : PyVal} (h : v.Subtractable) (t : ℚ) :
    ∃ x, v.subFrom t = .ok x :=
  let ⟨_, hx⟩ := h
  subFrom_returns hx t

/-- What `v += 1` returns can be compared. -/
theorem geInt_addOne {v w : PyVal} (h : v.addOne = .ok w) (n : Int) :
    ∃ b, w.geInt n = .ok b := by
  cases v with
  | bool b => cases h; exact ⟨_, rfl⟩
  | int i => cases h; exact ⟨_, rfl⟩
  | float x => cases h; exact ⟨_, rfl⟩
  | _ => cases h

end PyVal

namespace ComputeIntelligence
namespace RawState

/-- The last failure lies at no finite distance ahead: the timeout never elapses. -/
def neverElapses (st : RawState) : Bool :=
  match st.lastFailureTimeEpochS with
  | .float .posInf | .float .nan => true
  | _ => false

/-- The timeout has elapsed at every time. -/
def alwaysElapsed (st : RawState) : Bool :=
  match st.lastFailureTimeEpochS with
  | .float .negInf => true
  | _ => false

/-- At some time the record is treated as half-open. -/
def mayHalfOpen (st : RawState) : Bool :=
  st.state.isText "half_open" || (st.state.isText "open" && !st.neverElapses)

/-- At some time a failure is counted. -/
def mayCount (st : RawState) : Bool :=
  !st.state.isText "half_open" && !(st.state.isText "open" && st.alwaysElapsed)

/-- One more failure reaches the threshold. -/
def trips (cfg : BreakerConfig) (st : RawState) : Bool :=
  match st.failureCount.addOne with
  | .ok n => match n.geInt cfg.failureThreshold with
      | .ok b => b
      | .error _ => false
  | .error _ => false

/-- `record_failure` returns at every time, with something that may be stored. -/
structure Records (keep : PyVal → Bool) (cfg : BreakerConfig) (st : RawState) : Prop where
  subtractable : st.state.isText "open" = true → st.lastFailureTimeEpochS.Subtractable
  probes : st.mayHalfOpen = true →
    st.totalOpens.Countable keep ∧ keep (.int cfg.failureThreshold) = true
  counts : st.mayCount = true → st.failureCount.Countable keep ∧
    (st.trips cfg = true → st.totalOpens.Countable keep)

/-- The property `state` returns at every time, and returns a key for the gauge. -/
structure Observes (st : RawState) : Prop where
  hashable : st.state.hashable = true
  subtractable : st.state.isText "open" = true → st.lastFailureTimeEpochS.Subtractable

/-- The record of a circuit that half-opens. -/
def halfOpened (st : RawState) : RawState :=
  { st with state := .str "half_open", halfOpenSuccessCount := .int 0, halfOpenProbeCount := .int 0 }

variable {keep : PyVal → Bool} {cfg : BreakerConfig} {st : RawState} {r : Reading}

theorem isText_iff {v : PyVal} {s : String} : v.isText s = true ↔ v = .str s := by
  cases v <;> simp [PyVal.isText]

theorem isText_false_of {v : PyVal} {s t : String} (h : v.isText s = true) (hne : s ≠ t) :
    v.isText t = false := by
  rw [isText_iff.mp h]
  simpa [PyVal.isText] using hne

/-! ### The transition -/

/-- The transition of a record whose last failure can be subtracted: it leaves the
record alone, or half-opens it. -/
theorem transition_returns (cfg : BreakerConfig) (now : ℚ)
    (h : st.state.isText "open" = true → st.lastFailureTimeEpochS.Subtractable) :
    (st.transition cfg now = .ok st ∧ (st.state.isText "open" = true → st.alwaysElapsed = false)) ∨
    (st.transition cfg now = .ok st.halfOpened ∧ st.state.isText "open" = true ∧
      st.neverElapses = false) := by
  unfold transition
  by_cases ho : st.state.isText "open" = true
  · obtain ⟨x, hx⟩ := (h ho).subFrom now
    rw [if_pos ho, hx]
    change (Except.ok (if x.ge cfg.resetTimeoutS = true then st.halfOpened else st) = _ ∧ _) ∨
      (Except.ok (if x.ge cfg.resetTimeoutS = true then st.halfOpened else st) = _ ∧ _)
    by_cases hge : x.ge cfg.resetTimeoutS = true
    · rw [if_pos hge]
      refine .inr ⟨rfl, ho, ?_⟩
      unfold neverElapses
      split
      · rename_i hl
        rw [hl] at hx
        cases hx
        cases hge
      · rename_i hl
        rw [hl] at hx
        cases hx
        cases hge
      · rfl
    · rw [if_neg hge]
      refine .inl ⟨rfl, fun _ => ?_⟩
      unfold alwaysElapsed
      split
      · rename_i hl
        rw [hl] at hx
        cases hx
        exact absurd rfl hge
      · rfl
  · rw [if_neg ho]
    exact .inl ⟨rfl, fun hc => absurd hc ho⟩

/-- A record whose transition returns can be subtracted from, if it is open. -/
theorem subtractable_of_transition {now : ℚ} {st' : RawState} (h : st.transition cfg now = .ok st')
    (ho : st.state.isText "open" = true) : st.lastFailureTimeEpochS.Subtractable := by
  unfold transition at h
  rw [if_pos ho] at h
  cases hx : st.lastFailureTimeEpochS.subFrom now with
  | ok x => exact PyVal.subFrom_returns hx 0
  | error e =>
    rw [hx] at h
    cases h

/-- Unless the timeout never elapses, it has elapsed at some time. -/
theorem exists_elapsed (cfg : BreakerConfig) (ho : st.state.isText "open" = true)
    (hs : st.lastFailureTimeEpochS.Subtractable) (hn : st.neverElapses = false) :
    ∃ now, st.transition cfg now = .ok st.halfOpened := by
  have hge : ∃ now x, st.lastFailureTimeEpochS.subFrom now = .ok x ∧
      x.ge cfg.resetTimeoutS = true := by
    obtain ⟨x, hx⟩ := hs
    unfold neverElapses at hn
    cases hl : st.lastFailureTimeEpochS with
    | bool b =>
      refine ⟨cfg.resetTimeoutS + (if b then 1 else 0), _, rfl, decide_eq_true ?_⟩
      linarith
    | int i =>
      rw [hl] at hx
      refine ⟨cfg.resetTimeoutS + i, .finite (cfg.resetTimeoutS + i - i), ?_, decide_eq_true ?_⟩
      · rw [PyVal.subFrom_int, if_pos (PyVal.fitsFloat_of_subFrom hx)]
      · linarith
    | float y =>
      cases y with
      | finite q =>
        refine ⟨cfg.resetTimeoutS + q, _, rfl, decide_eq_true ?_⟩
        linarith
      | negInf => exact ⟨0, _, rfl, rfl⟩
      | posInf =>
        rw [hl] at hn
        cases hn
      | nan =>
        rw [hl] at hn
        cases hn
    | _ =>
      rw [hl] at hx
      cases hx
  obtain ⟨now, x, hx, hx'⟩ := hge
  refine ⟨now, ?_⟩
  unfold transition
  rw [if_pos ho, hx]
  exact congrArg Except.ok (if_pos hx')

/-- Unless the timeout has always elapsed, at some time it has not. -/
theorem exists_notElapsed (cfg : BreakerConfig)
    (hs : st.state.isText "open" = true → st.lastFailureTimeEpochS.Subtractable)
    (hn : st.state.isText "open" = true → st.alwaysElapsed = false) :
    ∃ now, st.transition cfg now = .ok st := by
  by_cases ho : st.state.isText "open" = true
  swap
  · exact ⟨0, by unfold transition; rw [if_neg ho]⟩
  have hlt : ∃ now x, st.lastFailureTimeEpochS.subFrom now = .ok x ∧
      ¬ x.ge cfg.resetTimeoutS = true := by
    obtain ⟨x, hx⟩ := hs ho
    have hn := hn ho
    unfold alwaysElapsed at hn
    cases hl : st.lastFailureTimeEpochS with
    | bool b =>
      refine ⟨cfg.resetTimeoutS + (if b then 1 else 0) - 1, _, rfl, fun hge => ?_⟩
      have := of_decide_eq_true hge
      linarith
    | int i =>
      rw [hl] at hx
      refine ⟨cfg.resetTimeoutS + i - 1, .finite (cfg.resetTimeoutS + i - 1 - i), ?_, fun hge => ?_⟩
      · rw [PyVal.subFrom_int, if_pos (PyVal.fitsFloat_of_subFrom hx)]
      · have := of_decide_eq_true hge
        linarith
    | float y =>
      cases y with
      | finite q =>
        refine ⟨cfg.resetTimeoutS + q - 1, _, rfl, fun hge => ?_⟩
        have := of_decide_eq_true hge
        linarith
      | posInf => exact ⟨0, _, rfl, nofun⟩
      | nan => exact ⟨0, _, rfl, nofun⟩
      | negInf =>
        rw [hl] at hn
        cases hn
    | _ =>
      rw [hl] at hx
      cases hx
  obtain ⟨now, x, hx, hx'⟩ := hlt
  refine ⟨now, ?_⟩
  unfold transition
  rw [if_pos ho, hx]
  exact congrArg Except.ok (if_neg hx')

/-! ### What may be stored -/

/-- Every field may be stored. -/
structure All (keep : PyVal → Bool) (st : RawState) : Prop where
  state : keep st.state = true
  failureCount : keep st.failureCount = true
  lastFailureTimeEpochS : keep st.lastFailureTimeEpochS = true
  halfOpenSuccessCount : keep st.halfOpenSuccessCount = true
  halfOpenProbeCount : keep st.halfOpenProbeCount = true
  totalOpens : keep st.totalOpens = true
  totalFailOpens : keep st.totalFailOpens = true

/-- What the mutators write besides counters may be stored. -/
structure Admits (keep : PyVal → Bool) : Prop where
  str : ∀ s, keep (.str s) = true
  zero : keep (.int 0) = true
  float : ∀ x, keep (.float x) = true

theorem admits_isJson : Admits PyVal.isJson where
  str := fun _ => by simp [PyVal.isJson]
  zero := by
    unfold PyVal.isJson
    exact decide_eq_true (Nat.pos_of_ne_zero (pow_ne_zero _ (by decide)))
  float := fun _ => by simp [PyVal.isJson]

theorem isJson_one : (PyVal.int 1).isJson = true := by
  have hpow : ∀ n : Nat, n ≠ 0 → (1 : Int).natAbs < 10 ^ n := fun n hn =>
    Nat.one_lt_pow hn (by decide)
  unfold PyVal.isJson
  exact decide_eq_true (hpow 4300 (by decide))

theorem admits_true : Admits fun _ => true := ⟨fun _ => rfl, rfl, fun _ => rfl⟩

theorem all_true (st : RawState) : st.All fun _ => true := ⟨rfl, rfl, rfl, rfl, rfl, rfl, rfl⟩

theorem isJsonItems_toItems : PyVal.isJsonItems st.toItems = true ↔ st.All PyVal.isJson := by
  simp only [toItems, PyVal.isJsonItems, Bool.and_eq_true]
  constructor
  · rintro ⟨h1, h2, h3, h4, h5, h6, h7, -⟩
    exact ⟨h1, h2, h3, h4, h5, h6, h7⟩
  · rintro ⟨h1, h2, h3, h4, h5, h6, h7⟩
    exact ⟨h1, h2, h3, h4, h5, h6, h7, trivial⟩

theorem dumps_of_all (h : st.All PyVal.isJson) : ∃ c, st.dumps = .ok c :=
  ⟨_, if_pos (isJsonItems_toItems.mpr h)⟩

theorem all_of_dumps {c : KeyContent} (h : st.dumps = .ok c) : st.All PyVal.isJson := by
  unfold dumps at h
  split at h
  · exact isJsonItems_toItems.mp (by assumption)
  · cases h

/-- What is parsed can be written again. -/
theorem all_of_parseState {c : KeyContent} (h : c.parseState = .ok st) : st.All PyVal.isJson := by
  have hdefault : ∀ {kvs : List (String × PyVal)} {k : String} {d : PyVal},
      PyVal.isJsonItems kvs = true → d.isJson = true → ((kvs.lookup k).getD d).isJson = true := by
    intro kvs k d hkvs hd
    cases hl : kvs.lookup k with
    | none => exact hd
    | some v => exact PyVal.isJsonItems_lookup hkvs hl
  have hzero := admits_isJson.zero
  cases c with
  | absent =>
    cases h
    exact ⟨admits_isJson.str _, hzero, admits_isJson.float _, hzero, hzero, hzero, hzero⟩
  | malformed => cases h
  | json v =>
    change (if v.isJson = true then _ else _) = _ at h
    split at h
    · rename_i hv
      split at h
      · rename_i kvs
        have hkvs : PyVal.isJsonItems kvs = true := by simpa [PyVal.isJson] using hv
        unfold ofItems at h
        split at h
        · cases h
          exact ⟨hdefault hkvs (admits_isJson.str _), hdefault hkvs hzero,
            hdefault hkvs (admits_isJson.float _), hdefault hkvs hzero, hdefault hkvs hzero,
            hdefault hkvs hzero, hdefault hkvs hzero⟩
        · cases h
      · cases h
    · cases h

theorem All.halfOpened (hk : Admits keep) (ha : st.All keep) : st.halfOpened.All keep :=
  ⟨hk.str _, ha.failureCount, ha.lastFailureTimeEpochS, hk.zero, hk.zero, ha.totalOpens,
    ha.totalFailOpens⟩

/-! ### `record_failure` -/

/-- What a returned failure leaves: a stamped record, open unless the count stays below
the threshold. -/
def Failed (cfg : BreakerConfig) (r : Reading) (st st' : RawState) : Prop :=
  st'.lastFailureTimeEpochS = .float (.finite r.stamp) ∧
    (st'.state = .str "open" ∨ st'.state = st.state ∧ st.trips cfg = false)

theorem reopen_returns (cfg : BreakerConfig) (hk : Admits keep) (ha : st.All keep)
    (h : st.totalOpens.Countable keep ∧ keep (.int cfg.failureThreshold) = true) (stamp : ℚ) :
    ∃ st', st.reopen cfg stamp = .ok ((), st') ∧ st'.All keep ∧ st'.state = .str "open" ∧
      st'.lastFailureTimeEpochS = .float (.finite stamp) := by
  obtain ⟨⟨w, hw, hkw⟩, hthr⟩ := h
  unfold reopen
  rw [hw]
  exact ⟨_, rfl, ⟨hk.str _, hthr, hk.float _, hk.zero, hk.zero, hkw, ha.totalFailOpens⟩, rfl, rfl⟩

theorem countFailure_returns (hk : Admits keep) (ha : st.All keep)
    (h : st.failureCount.Countable keep ∧ (st.trips cfg = true → st.totalOpens.Countable keep))
    (r : Reading) :
    ∃ st', st.countFailure cfg r.stamp = .ok ((), st') ∧ st'.All keep ∧ Failed cfg r st st' := by
  obtain ⟨⟨w, hw, hkw⟩, htrip⟩ := h
  obtain ⟨b, hb⟩ := PyVal.geInt_addOne hw cfg.failureThreshold
  have htrips : st.trips cfg = b := by
    unfold trips
    rw [hw]
    simp only [hb]
  unfold countFailure
  rw [hw]
  change ∃ st', (w.geInt cfg.failureThreshold >>= _) = .ok ((), st') ∧ _
  rw [hb]
  cases b with
  | false =>
    exact ⟨_, rfl, ⟨ha.state, hkw, hk.float _, ha.halfOpenSuccessCount, ha.halfOpenProbeCount,
      ha.totalOpens, ha.totalFailOpens⟩, rfl, .inr ⟨rfl, htrips⟩⟩
  | true =>
    obtain ⟨opens, hopens, hkopens⟩ := htrip htrips
    change ∃ st', (st.totalOpens.addOne >>= _) = .ok ((), st') ∧ _
    rw [hopens]
    exact ⟨_, rfl, ⟨hk.str _, hkw, hk.float _, hk.zero, hk.zero, hkopens, ha.totalFailOpens⟩, rfl,
      .inl rfl⟩

theorem recordFailure_of_transition {st₁ : RawState} (ht : st.transition cfg r.now = .ok st₁) :
    recordFailure cfg r st = if st₁.state.isText "half_open" = true then st₁.reopen cfg r.stamp
      else st₁.countFailure cfg r.stamp := by
  unfold recordFailure
  rw [ht]
  rfl

/-- **`record_failure` returns** on such a record, at every time. -/
theorem Records.recordFailure_returns (hk : Admits keep) (h : Records keep cfg st)
    (ha : st.All keep) (r : Reading) :
    ∃ st', recordFailure cfg r st = .ok ((), st') ∧ st'.All keep ∧ Failed cfg r st st' := by
  rcases transition_returns cfg r.now h.subtractable with ⟨ht, hal⟩ | ⟨ht, ho, hne⟩
  · rw [recordFailure_of_transition ht]
    by_cases hh : st.state.isText "half_open" = true
    · obtain ⟨st', hst', hall, hopen, hlast⟩ :=
        reopen_returns cfg hk ha (h.probes (by simp [mayHalfOpen, hh])) r.stamp
      rw [if_pos hh]
      exact ⟨st', hst', hall, hlast, .inl hopen⟩
    · have hcount : st.mayCount = true := by
        by_cases ho : st.state.isText "open" = true
        · simp [mayCount, hh, hal ho]
        · simp [mayCount, hh, ho]
      rw [if_neg hh]
      exact countFailure_returns hk ha (h.counts hcount) r
  · obtain ⟨st', hst', hall, hopen, hlast⟩ := reopen_returns cfg hk (ha.halfOpened hk)
      (h.probes (by simp [mayHalfOpen, ho, hne])) r.stamp
    rw [recordFailure_of_transition ht, if_pos (by simp [halfOpened, PyVal.isText])]
    exact ⟨st', hst', hall, hlast, .inl hopen⟩

theorem countable_of_reopen {stamp : ℚ} {st' : RawState} (h : st.reopen cfg stamp = .ok ((), st'))
    (hf : keep st'.failureCount = true) (ho : keep st'.totalOpens = true) :
    st.totalOpens.Countable keep ∧ keep (.int cfg.failureThreshold) = true := by
  unfold reopen at h
  cases hw : st.totalOpens.addOne with
  | error e =>
    rw [hw] at h
    cases h
  | ok w =>
    rw [hw] at h
    cases h
    exact ⟨⟨w, hw, ho⟩, hf⟩

theorem countable_of_countFailure {stamp : ℚ} {st' : RawState}
    (h : st.countFailure cfg stamp = .ok ((), st')) (hf : keep st'.failureCount = true)
    (ho : keep st'.totalOpens = true) :
    st.failureCount.Countable keep ∧ (st.trips cfg = true → st.totalOpens.Countable keep) := by
  unfold countFailure at h
  cases hw : st.failureCount.addOne with
  | error e =>
    rw [hw] at h
    cases h
  | ok w =>
    obtain ⟨b, hb⟩ := PyVal.geInt_addOne hw cfg.failureThreshold
    rw [hw] at h
    change (w.geInt cfg.failureThreshold >>= _) = _ at h
    rw [hb] at h
    cases b with
    | false =>
      cases h
      refine ⟨⟨w, hw, hf⟩, fun htrip => ?_⟩
      unfold trips at htrip
      simp only [hw, hb] at htrip
      cases htrip
    | true =>
      change (st.totalOpens.addOne >>= _) = _ at h
      cases hopens : st.totalOpens.addOne with
      | error e =>
        rw [hopens] at h
        cases h
      | ok opens =>
        rw [hopens] at h
        cases h
        exact ⟨⟨w, hw, hf⟩, fun _ => ⟨opens, hopens, ho⟩⟩

/-- **The condition is exact**: if `record_failure` returns at every time with counters
that may be stored, the record satisfies it. -/
theorem records_of_returns
    (h : ∀ r, ∃ st', recordFailure cfg r st = .ok ((), st') ∧ keep st'.failureCount = true ∧
      keep st'.totalOpens = true) : Records keep cfg st := by
  have hsub : st.state.isText "open" = true → st.lastFailureTimeEpochS.Subtractable := by
    intro ho
    obtain ⟨st', hst', -⟩ := h ⟨0, 0⟩
    cases ht : st.transition cfg 0 with
    | ok st₁ => exact subtractable_of_transition ht ho
    | error e =>
      unfold recordFailure at hst'
      rw [ht] at hst'
      cases hst'
  have hprobe : ∀ st₁ now, st.transition cfg now = .ok st₁ → st₁.state.isText "half_open" = true →
      st₁.totalOpens.Countable keep ∧ keep (.int cfg.failureThreshold) = true := by
    intro st₁ now ht hh
    obtain ⟨st', hst', hf, ho⟩ := h ⟨now, 0⟩
    rw [recordFailure_of_transition ht, if_pos hh] at hst'
    exact countable_of_reopen hst' hf ho
  refine ⟨hsub, fun hmay => ?_, fun hmay => ?_⟩
  · by_cases hh : st.state.isText "half_open" = true
    · have ht : st.transition cfg 0 = .ok st := by
        unfold transition
        rw [if_neg (by rw [isText_false_of hh (by decide)]; decide)]
      exact hprobe st 0 ht hh
    · obtain ⟨ho, hne⟩ : st.state.isText "open" = true ∧ st.neverElapses = false := by
        simpa [mayHalfOpen, hh] using hmay
      obtain ⟨now, ht⟩ := exists_elapsed cfg ho (hsub ho) hne
      exact hprobe st.halfOpened now ht (by simp [halfOpened, PyVal.isText])
  · obtain ⟨hh, hal⟩ : st.state.isText "half_open" = false ∧
        (st.state.isText "open" = true → st.alwaysElapsed = false) := by
      simpa [mayCount, ← Bool.not_eq_true, imp_iff_not_or] using hmay
    obtain ⟨now, ht⟩ := exists_notElapsed cfg hsub hal
    obtain ⟨st', hst', hf, ho⟩ := h ⟨now, 0⟩
    rw [recordFailure_of_transition ht, if_neg (by rw [hh]; decide)] at hst'
    exact countable_of_countFailure hst' hf ho

/-! ### What the mutators keep -/

/-- The two conditions on the process's own copy: a failure is recorded, and what it
leaves can be observed. -/
structure Sound (cfg : BreakerConfig) (st : RawState) : Prop where
  records : Records (fun _ => true) cfg st
  observable : st.state.hashable = true ∨ st.trips cfg = true

/-- The two conditions on the record under the key. -/
structure WellFormed (cfg : BreakerConfig) (st : RawState) : Prop where
  records : Records PyVal.isJson cfg st
  hashable : st.state.hashable = true

theorem Records.mono {keep' : PyVal → Bool} (h : Records keep cfg st)
    (hk : ∀ v, keep v = true → keep' v = true) : Records keep' cfg st where
  subtractable := h.subtractable
  probes hm :=
    let ⟨⟨w, hw, hkw⟩, hthr⟩ := h.probes hm
    ⟨⟨w, hw, hk w hkw⟩, hk _ hthr⟩
  counts hm :=
    let ⟨⟨w, hw, hkw⟩, htrip⟩ := h.counts hm
    ⟨⟨w, hw, hk w hkw⟩, fun ht =>
      let ⟨o, ho, hko⟩ := htrip ht
      ⟨o, ho, hk o hko⟩⟩

theorem WellFormed.sound (h : st.WellFormed cfg) : st.Sound cfg :=
  ⟨h.records.mono fun _ _ => rfl, .inl h.hashable⟩

theorem WellFormed.observes (h : st.WellFormed cfg) : st.Observes :=
  ⟨h.hashable, h.records.subtractable⟩

/-- The conditions depend on four fields. -/
def SameCircuit (st st' : RawState) : Prop :=
  st'.state = st.state ∧ st'.failureCount = st.failureCount ∧
    st'.lastFailureTimeEpochS = st.lastFailureTimeEpochS ∧ st'.totalOpens = st.totalOpens

theorem Records.congr {st' : RawState} (h : Records keep cfg st) (hs : st.SameCircuit st') :
    Records keep cfg st' := by
  obtain ⟨h1, h2, h3, h4⟩ := hs
  obtain ⟨ha, hb, hc⟩ := h
  unfold mayHalfOpen neverElapses at hb
  unfold mayCount alwaysElapsed trips at hc
  refine ⟨?_, ?_, ?_⟩
  · rw [h1, h3]
    exact ha
  · unfold mayHalfOpen neverElapses
    rw [h1, h3, h4]
    exact hb
  · unfold mayCount alwaysElapsed trips
    rw [h1, h2, h3, h4]
    exact hc

/-- A circuit that half-opens still records failures. -/
theorem Records.halfOpened (h : Records keep cfg st) (ho : st.state.isText "open" = true)
    (hne : st.neverElapses = false) : Records keep cfg st.halfOpened where
  subtractable hopen := by
    rw [isText_false_of (s := "half_open") (by simp [RawState.halfOpened, PyVal.isText])
      (by decide)] at hopen
    cases hopen
  probes _ := h.probes (by simp [mayHalfOpen, ho, hne])
  counts hm := by
    simp [mayCount, RawState.halfOpened, PyVal.isText] at hm

/-- What every transition keeps, and every change of the other fields, `is_open` and
`state` keep. -/
structure Kept (P : RawState → Prop) : Prop where
  sameCircuit : ∀ {st st'}, P st → st.SameCircuit st' → P st'
  subtractable : ∀ {st}, P st → st.state.isText "open" = true →
    st.lastFailureTimeEpochS.Subtractable
  halfOpened : ∀ {st}, P st → st.state.isText "open" = true → st.neverElapses = false →
    P st.halfOpened

theorem kept_wellFormed (cfg : BreakerConfig) : Kept (WellFormed cfg) where
  sameCircuit h hs := ⟨h.records.congr hs, by rw [hs.1]; exact h.hashable⟩
  subtractable h := h.records.subtractable
  halfOpened h ho hne := ⟨h.records.halfOpened ho hne, rfl⟩

theorem kept_sound (cfg : BreakerConfig) : Kept (Sound cfg) where
  sameCircuit {st st'} h hs := by
    refine ⟨h.records.congr hs, ?_⟩
    unfold trips
    rw [hs.1, hs.2.1]
    exact h.observable
  subtractable h := h.records.subtractable
  halfOpened h ho hne := ⟨h.records.halfOpened ho hne, .inl rfl⟩

theorem kept_observes : Kept Observes where
  sameCircuit h hs := ⟨by rw [hs.1]; exact h.hashable, by rw [hs.1, hs.2.2.1]; exact h.subtractable⟩
  subtractable h := h.subtractable
  halfOpened _ _ _ := ⟨rfl, fun ho => by simp [RawState.halfOpened, PyVal.isText] at ho⟩

section Kept
variable {P : RawState → Prop} (hP : Kept P) (h : P st)
include hP h

theorem Kept.transition (cfg : BreakerConfig) (now : ℚ) : ∃ st₁,
    st.transition cfg now = .ok st₁ ∧ P st₁ ∧ (st.All PyVal.isJson → st₁.All PyVal.isJson) := by
  rcases transition_returns cfg now (hP.subtractable h) with ⟨ht, -⟩ | ⟨ht, ho, hne⟩
  · exact ⟨st, ht, h, fun ha => ha⟩
  · exact ⟨_, ht, hP.halfOpened h ho hne, fun ha => ha.halfOpened admits_isJson⟩

/-- The property `state` returns, and keeps the condition. -/
theorem Kept.readState (cfg : BreakerConfig) (r : Reading) : ∃ st₁,
    readState cfg r st = .ok (st₁.state, st₁) ∧ P st₁ ∧
      (st.All PyVal.isJson → st₁.All PyVal.isJson) := by
  obtain ⟨st₁, ht, h₁⟩ := hP.transition h cfg r.now
  refine ⟨st₁, ?_, h₁⟩
  unfold RawState.readState
  rw [ht]
  rfl

/-- If `is_open` returns, it keeps the condition. -/
theorem Kept.isOpen (cfg : BreakerConfig) (r : Reading) : (isOpen cfg r st).Ensures fun x => P x.2 := by
  obtain ⟨st₁, ht, h₁, -⟩ := hP.transition h cfg r.now
  have hrefuse : st₁.refuse.Ensures fun x => P x.2 :=
    Except.ensures_bind fun _ => Except.ensures_ok (hP.sameCircuit h₁ ⟨rfl, rfl, rfl, rfl⟩)
  unfold RawState.isOpen
  rw [ht]
  refine Except.ensures_ite hrefuse (Except.ensures_ite ?_ (Except.ensures_ok h₁))
  refine Except.ensures_bind fun slot => Except.ensures_ite ?_ hrefuse
  exact Except.ensures_bind fun _ => Except.ensures_ok (hP.sameCircuit h₁ ⟨rfl, rfl, rfl, rfl⟩)

end Kept

/-- If `record_success` returns, its result can be observed. -/
theorem recordSuccess_observes (r : Reading) (st : RawState) :
    (recordSuccess cfg r st).Ensures fun x => x.2.Observes := by
  have hclosed : ∀ st : RawState, st.state = .str "closed" ∨ st.state = .str "half_open" →
      st.Observes := by
    rintro st (hs | hs)
    · exact ⟨by rw [hs]; rfl, fun ho => by rw [hs] at ho; simp [PyVal.isText] at ho⟩
    · exact ⟨by rw [hs]; rfl, fun ho => by rw [hs] at ho; simp [PyVal.isText] at ho⟩
  refine Except.ensures_bind fun st₁ => ?_
  by_cases hh : st₁.state.isText "half_open" = true
  · rw [if_pos hh]
    refine Except.ensures_bind fun _ => Except.ensures_bind fun _ => Except.ensures_ite ?_ ?_
    · exact Except.ensures_ok (hclosed _ (.inl rfl))
    · exact Except.ensures_ok (hclosed _ (.inr (isText_iff.mp hh)))
  · rw [if_neg hh]
    exact Except.ensures_ok (hclosed _ (.inl rfl))

/-- What a failure leaves can be observed, if the record could be or the failure opens
the circuit. -/
theorem Failed.observes {st' : RawState} (h : Failed cfg r st st')
    (ho : st.state.hashable = true ∨ st.trips cfg = true) : st'.Observes := by
  obtain ⟨hlast, hstate⟩ := h
  refine ⟨?_, fun _ => ?_⟩
  · rcases hstate with hopen | ⟨hsame, hnot⟩
    · rw [hopen]
      rfl
    · rw [hsame]
      rcases ho with hash | htrip
      · exact hash
      · rw [hnot] at htrip
        cases htrip
  · rw [hlast]
    exact ⟨_, rfl⟩

/-- A failure that is counted below the threshold leaves the state as it is. -/
theorem countFailure_state {stamp : ℚ} (h : st.trips cfg = false) :
    (st.countFailure cfg stamp).Ensures fun x => x.2.state = st.state := by
  intro x hx
  unfold countFailure at hx
  cases hw : st.failureCount.addOne with
  | error e =>
    rw [hw] at hx
    cases hx
  | ok w =>
    obtain ⟨b, hb⟩ := PyVal.geInt_addOne hw cfg.failureThreshold
    have hbf : b = false := by
      unfold trips at h
      simpa only [hw, hb] using h
    rw [hw] at hx
    change (w.geInt cfg.failureThreshold >>= _) = _ at hx
    rw [hb, hbf] at hx
    cases hx
    rfl

/-- A state that cannot be hashed is neither open nor half-open. -/
theorem isText_of_not_hashable {s : String} (h : st.state.hashable = false) :
    st.state.isText s = false := by
  cases hs : st.state with
  | str t =>
    rw [hs] at h
    cases h
  | _ => rfl

theorem transition_of_not_hashable (h : st.state.hashable = false) (now : ℚ) :
    st.transition cfg now = .ok st := by
  unfold transition
  rw [if_neg (by rw [isText_of_not_hashable h]; decide)]

end RawState
end ComputeIntelligence
