import ComputeIntelligence.FailOpenMarks

/-! # What the counters count

The interceptor keeps its counters by hand.  An exit that fails open is counted before its event
and its headers are made, and those read the tenant, the environment and the price snapshot off
the request's metadata.  Where one of them has no text the call raises after it was counted, and
the handler counts it again: once too often if the handler answers, and for no result at all if it
raises in its turn.

`CountsOnce` says of a call that this does not happen.  The counters are those of the results
exactly when every call of the run is such a call (`matches_iff_countsOnce`).
-/
namespace ComputeIntelligence

/-! ### What an answer counts for -/

/-- The headers blame the index. -/
def IndexUnavailable (headers : PyDict String String) : Prop :=
  headers.get? "X-ACI-Fail-Open-Reason" = some FailOpenReason.indexUnavailable.value

instance (headers : PyDict String String) : Decidable (IndexUnavailable headers) :=
  inferInstanceAs (Decidable (_ = _))

/-- The request goes on as it came, with an attribution. -/
def Answer.enriches (a : Answer) : Bool :=
  match a.outcome with
  | .enriched | .softStopped => true
  | .passthrough => a.attribution.isSome
  | _ => false

/-- The counters after one more answer. -/
def Answer.counted (a : Answer) (t : InterceptorTotals) : InterceptorTotals :=
  { t with
    enriched := t.enriched + if a.enriches then 1 else 0
    failOpen := t.failOpen + if a.outcome.failsOpen then 1 else 0
    redirected := t.redirected + if a.outcome = .redirected then 1 else 0
    cacheMisses := t.cacheMisses + if IndexUnavailable a.enrichmentHeaders then 1 else 0 }

/-- No counter is above the one of `u`. -/
structure InterceptorTotals.Below (t u : InterceptorTotals) : Prop where
  requests : t.requests ≤ u.requests
  enriched : t.enriched ≤ u.enriched
  failOpen : t.failOpen ≤ u.failOpen
  redirected : t.redirected ≤ u.redirected
  cacheMisses : t.cacheMisses ≤ u.cacheMisses

/-- No counter is above the one of `u`, and that of the failures is below it. -/
def InterceptorTotals.Short (t u : InterceptorTotals) : Prop := t.Below u ∧ t.failOpen < u.failOpen

/-- One more failure. -/
def InterceptorTotals.failed (t : InterceptorTotals) : InterceptorTotals :=
  { t with failOpen := t.failOpen + 1 }

section Headers
variable {config : InterceptorConfig} {headers clamped trimmed offered : PyDict String String}
  {request : InterceptionRequest} {entry : AttributionIndexEntry}
  {violations : List PolicyEvaluationResult} {reason : FailOpenReason}

/-- The loop keeps no header that was not there. -/
theorem get?_trimHeaders {limit : Int} {keys : List String} {k v : String}
    (h : (trimHeaders clamped limit keys trimmed).get? k = some v) :
    clamped.get? k = some v ∨ trimmed.get? k = some v := by
  induction keys generalizing trimmed with
  | nil => exact .inr h
  | cons key rest ih =>
    have hstep : ∀ added : PyDict String String,
        (added.get? k = some v → clamped.get? k = some v ∨ trimmed.get? k = some v) →
        (if limit < estimateHeaderBytes added then added.erase key
          else trimHeaders clamped limit rest added).get? k = some v →
        clamped.get? k = some v ∨ trimmed.get? k = some v := by
      intro added hadded hk
      split at hk
      · rw [PyDict.get?_erase] at hk
        split at hk
        · cases hk
        · exact hadded hk
      · exact (ih hk).elim .inl hadded
    rw [trimHeaders] at h
    cases hkey : clamped.get? key with
    | none =>
      rw [hkey] at h
      exact hstep trimmed .inr h
    | some value =>
      rw [hkey] at h
      refine hstep (trimmed.set key value) (fun hk => ?_) h
      rw [PyDict.get?_set] at hk
      split at hk
      · rename_i heq
        rw [heq, hkey]
        exact .inl hk
      · exact .inr hk

/-- Every header that is sent was built, and cut; the marker apart. -/
theorem mem_enforce {k v : String} (h : (enforceHeaderBudget config headers).get? k = some v)
    (hk : k ≠ budgetMarker) :
    ∃ built, (k, built) ∈ headers.items ∧ v = PyText.sliceTo config.maxHeaderValueLength built := by
  have hclamped : (k, v) ∈ (clampHeaders config headers).items := by
    by_cases hfits : (estimateHeaderBytes (clampHeaders config headers) : Int) ≤
        config.maxEnrichmentHeaderBytes
    · rw [enforce_of_fits hfits] at h
      exact PyDict.mem_of_find h
    · have htrimmed : enforceHeaderBudget config headers =
          (trimHeaders (clampHeaders config headers) config.maxEnrichmentHeaderBytes headerPriority
            PyDict.empty).set budgetMarker "1" := if_neg hfits
      rw [htrimmed, PyDict.get?_set, if_neg hk] at h
      rcases get?_trimHeaders h with hk | hk
      · exact PyDict.mem_of_find hk
      · cases hk
  rw [items_clampHeaders] at hclamped
  obtain ⟨x, hx, heq⟩ := List.mem_map.1 hclamped
  obtain ⟨rfl, rfl⟩ := Prod.mk.inj heq
  exact ⟨x.2, hx, rfl⟩

theorem length_sliceTo (limit : Int) (text : String) :
    (PyText.sliceTo limit text).length ≤ text.length := by
  unfold PyText.sliceTo PyText.take
  split
  · rw [String.length_ofList, List.length_take, String.length_toList]
    exact min_le_right _ _
  · rw [String.length_ofList, List.length_take, String.length_toList]
    exact min_le_right _ _

theorem not_indexUnavailable_empty : ¬ IndexUnavailable PyDict.empty := nofun

theorem indexUnavailable_failOpen_iff (reason : FailOpenReason) :
    IndexUnavailable (buildFailOpenHeaders reason) ↔ reason = .indexUnavailable := by
  cases reason <;> decide

/-- What serves a request does not blame the index. -/
theorem not_indexUnavailable_of_served
    (h : buildEnrichmentHeaders config request entry violations = .ok headers) :
    ¬ IndexUnavailable headers := by
  obtain ⟨offered, hoffered, rfl⟩ := buildEnrichmentHeaders_ok_iff.1 h
  intro hreason
  obtain ⟨built, hbuilt, -⟩ := mem_enforce hreason (by decide)
  have habsent : "X-ACI-Fail-Open-Reason" ∉ enrichmentKeys := by decide
  exact habsent (keys_enrichmentOffer hoffered _ (PyDict.mem_keys_of_mem hbuilt))

theorem not_indexUnavailable_of_redirect (h : ¬ IndexUnavailable headers) (altModel : String) :
    ¬ IndexUnavailable (addIntervention request altModel headers) := by
  unfold IndexUnavailable addIntervention
  rw [PyDict.get?_set, if_neg (by decide), PyDict.get?_set, if_neg (by decide), PyDict.get?_set,
    if_neg (by decide)]
  exact h

/-- A timeout does not blame the index, however short its values are cut. -/
theorem not_indexUnavailable_of_timeout (hreason : reason.value.length = 14)
    (h : buildBasicHeaders config request entry (some reason) = .ok headers) :
    ¬ IndexUnavailable headers := by
  rw [buildBasicHeaders_eq] at h
  cases htext : request.metaStr "price_snapshot_id" with
  | error e =>
    unfold basicOffer addPriceSnapshot at h
    rw [htext] at h
    cases h
  | ok text =>
    obtain ⟨offered, hoffered, hitems⟩ := basicOffer_items htext entry reason
    rw [hoffered] at h
    cases h
    intro hmark
    obtain ⟨built, hbuilt, hvalue⟩ := mem_enforce hmark (by decide)
    have hreason' : built = reason.value := by
      have hmem : ("X-ACI-Fail-Open-Reason", reason.value) ∈ offered.items := by
        rw [hitems, timeoutItems]
        simp
      exact Option.some.inj ((PyDict.get?_of_mem hbuilt).symm.trans (PyDict.get?_of_mem hmem))
    have hshort := length_sliceTo config.maxHeaderValueLength built
    rw [← hvalue, hreason', hreason] at hshort
    exact absurd hshort (by decide)

end Headers

/-! ### Which calls are counted once -/

/-- The call runs out of time, before or after the policies. -/
def Overruns (g : Gateway) (env : CallEnv) (request : InterceptionRequest)
    (entry : AttributionIndexEntry) : Prop :=
  env.lookupTimedOut g.config = true ∨
    env.lookupTimedOut g.config = false ∧ env.policyTimedOut g.config = true ∧
      ∃ violations, evaluatePolicies request entry = .ok violations

/-- Whatever the call goes on to read after it was counted has a text. -/
structure CountsOnce (refused : Bool) (g : Gateway) (env : CallEnv)
    (request : InterceptionRequest) : Prop where
  workload : refused = false → ∃ w, request.resolveWorkloadId = .ok w
  tenant : refused = false → ∀ w, request.resolveWorkloadId = .ok w → w ≠ "" →
    ∃ tenant, request.resolveTenantId = .ok tenant
  snapshot : ∀ entry, Hits refused env request entry → Overruns g env request entry →
    ∃ text, request.metaStr "price_snapshot_id" = .ok text
  environment : ∀ entry, Hits refused env request entry → Overruns g env request entry →
    env.lookupTimedOut g.config = false → ∃ text, request.metaStr "environment" = .ok text

/-- The call fails open by a miss or a timeout, which are counted before they are answered. -/
inductive CountedEarly (refused : Bool) (g : Gateway) (env : CallEnv)
    (request : InterceptionRequest) : Prop
  | miss (letThrough : refused = false) (w : String) (resolved : request.resolveWorkloadId = .ok w)
      (nonblank : w ≠ "") (absent : env.lookup w = .ok none)
  | timeout (entry : AttributionIndexEntry) (hits : Hits refused env request entry)
      (overruns : Overruns g env request entry)

section Answers
variable {refused : Bool} {g : Gateway} {env : CallEnv} {request : InterceptionRequest}
  {entry : AttributionIndexEntry} {a : Answer}

theorem eventContext_ok_iff : request.eventContext = .ok () ↔
    (∃ tenant, request.resolveTenantId = .ok tenant) ∧
      ∃ text, request.metaStr "environment" = .ok text := by
  unfold InterceptionRequest.eventContext
  constructor
  · intro h
    obtain ⟨tenant, htenant, h⟩ := Except.bind_eq_ok h
    obtain ⟨text, htext, -⟩ := Except.bind_eq_ok h
    exact ⟨⟨tenant, htenant⟩, text, htext⟩
  · rintro ⟨⟨tenant, htenant⟩, text, htext⟩
    rw [htenant, htext]
    rfl

theorem innerAnswer_of_miss {w : String} (hid : request.resolveWorkloadId = .ok w) (hne : w ≠ "")
    (hl : env.lookup w = .ok none) :
    innerAnswer false g env request = (do
      let _ ← request.resolveTenantId
      .ok (failOpenAnswer .failOpen .indexUnavailable)) := by
  show admittedAnswer g env request = _
  unfold admittedAnswer
  rw [hid]
  show (if w = "" then _ else _) = _
  rw [if_neg hne, hl]
  rfl

/-- A call with a workload that is answered has read its tenant. -/
theorem tenant_of_innerAnswer {w : String} (hid : request.resolveWorkloadId = .ok w) (hne : w ≠ "")
    (h : innerAnswer false g env request = .ok a) :
    ∃ tenant, request.resolveTenantId = .ok tenant := by
  cases hl : env.lookup w with
  | error e =>
    have herr : innerAnswer false g env request = .error e := by
      show admittedAnswer g env request = _
      unfold admittedAnswer
      rw [hid]
      show (if w = "" then _ else _) = _
      rw [if_neg hne, hl]
      rfl
    rw [herr] at h
    cases h
  | ok found =>
    cases found with
    | none =>
      rw [innerAnswer_of_miss hid hne hl] at h
      obtain ⟨tenant, htenant, -⟩ := Except.bind_eq_ok h
      exact ⟨tenant, htenant⟩
    | some entry =>
      have hits : Hits false env request entry := ⟨rfl, w, hid, hne, hl⟩
      rw [hits.innerAnswer_eq] at h
      rcases enrichAnswer_cases hits h with ⟨reason, -, hanswer⟩ | ⟨violations, hev, -⟩
      · exact ((timeoutAnswer_returns_iff g request entry reason).1 ⟨a, hanswer⟩).1
      · exact (eventContext_ok_iff.1 hev.context).1

/-- An overrun is answered where all it reads has a text. -/
theorem innerAnswer_of_overrun (hits : Hits refused env request entry)
    (hover : Overruns g env request entry) :
    (∃ a, innerAnswer refused g env request = .ok a) ↔
      (∃ tenant, request.resolveTenantId = .ok tenant) ∧
      (∃ text, request.metaStr "price_snapshot_id" = .ok text) ∧
      (env.lookupTimedOut g.config = false → ∃ text, request.metaStr "environment" = .ok text) := by
  rw [hits.innerAnswer_eq]
  rcases hover with hlate | ⟨hintime, hlate, violations, hviol⟩
  · rw [enrichAnswer, if_pos hlate, timeoutAnswer_returns_iff]
    refine and_congr_right fun _ => (and_iff_left fun hintime => ?_).symm
    rw [hlate] at hintime
    cases hintime
  · have hanswer : enrichAnswer g env request entry = (do
        let _ ← request.eventContext
        timeoutAnswer g request entry .policyTimeout) := by
      rw [enrichAnswer, if_neg (ne_true_of_eq_false hintime), hviol]
      show (if env.policyTimedOut g.config = true then _ else _) = _
      rw [if_pos hlate]
    rw [hanswer]
    constructor
    · rintro ⟨a, h⟩
      obtain ⟨_, hcontext, h⟩ := Except.bind_eq_ok h
      obtain ⟨htenant, hsnapshot⟩ := (timeoutAnswer_returns_iff g request entry _).1 ⟨a, h⟩
      exact ⟨htenant, hsnapshot, fun _ => (eventContext_ok_iff.1 hcontext).2⟩
    · rintro ⟨htenant, hsnapshot, henvironment⟩
      rw [eventContext_ok_iff.2 ⟨htenant, henvironment hintime⟩]
      exact (timeoutAnswer_returns_iff g request entry _).2 ⟨htenant, hsnapshot⟩

theorem handlerAnswer_of_workload {w : String} (hid : request.resolveWorkloadId = .ok w)
    (hne : w ≠ "") : handlerAnswer request = (do
      let _ ← request.resolveTenantId
      .ok (failOpenAnswer .failOpen .runtimeException)) := by
  unfold handlerAnswer
  rw [hid]
  show (if w = "" then _ else _) = _
  rw [if_neg hne]

/-- A call that is counted early and once answers. -/
theorem CountsOnce.innerAnswer_ok (h : CountsOnce refused g env request)
    (hearly : CountedEarly refused g env request) :
    ∃ a, innerAnswer refused g env request = .ok a := by
  cases hearly with
  | miss letThrough w resolved nonblank absent =>
    obtain ⟨tenant, htenant⟩ := h.tenant letThrough w resolved nonblank
    rw [letThrough, innerAnswer_of_miss resolved nonblank absent, htenant]
    exact ⟨_, rfl⟩
  | timeout entry hits overruns =>
    obtain ⟨w, hid, hne, -⟩ := hits.found
    exact (innerAnswer_of_overrun hits overruns).2 ⟨h.tenant hits.letThrough w hid hne,
      h.snapshot entry hits overruns, h.environment entry hits overruns⟩

/-- A call that is counted once is answered, if need be by the handler. -/
theorem CountsOnce.interceptAnswer_ok (h : CountsOnce refused g env request) :
    ∃ a, interceptAnswer refused g env request = .ok a := by
  cases hinner : innerAnswer refused g env request with
  | ok a => exact ⟨a, interceptAnswer_of_inner hinner⟩
  | error e =>
    cases refused with
    | true => cases hinner
    | false =>
      obtain ⟨w, hid⟩ := h.workload rfl
      unfold interceptAnswer
      rw [hinner]
      show ∃ a, handlerAnswer request = .ok a
      by_cases hblank : w = ""
      · rw [hblank] at hid
        rw [handlerAnswer, hid]
        exact ⟨_, rfl⟩
      · obtain ⟨tenant, htenant⟩ := h.tenant rfl w hid hblank
        rw [handlerAnswer_of_workload hid hblank, htenant]
        exact ⟨_, rfl⟩

/-- **What it takes to be counted once**: an answer, and one from before the handler for the calls
that are counted early. -/
theorem countsOnce_iff : CountsOnce refused g env request ↔
    (∃ a, interceptAnswer refused g env request = .ok a) ∧
      (CountedEarly refused g env request → ∃ a, innerAnswer refused g env request = .ok a) := by
  refine ⟨fun h => ⟨h.interceptAnswer_ok, h.innerAnswer_ok⟩, ?_⟩
  rintro ⟨⟨a, ha⟩, hearly⟩
  have hresolved : refused = false → ∃ w, request.resolveWorkloadId = .ok w := by
    rintro rfl
    cases hid : request.resolveWorkloadId with
    | ok w => exact ⟨w, rfl⟩
    | error e =>
      -- the handler resolves the workload again
      unfold interceptAnswer innerAnswer admittedAnswer handlerAnswer at ha
      rw [hid] at ha
      cases ha
  refine ⟨hresolved, ?_, ?_, ?_⟩
  · rintro rfl w hid hne
    cases hinner : innerAnswer false g env request with
    | ok b => exact tenant_of_innerAnswer hid hne hinner
    | error e =>
      unfold interceptAnswer at ha
      rw [hinner] at ha
      change handlerAnswer request = .ok a at ha
      rw [handlerAnswer_of_workload hid hne] at ha
      obtain ⟨tenant, htenant, -⟩ := Except.bind_eq_ok ha
      exact ⟨tenant, htenant⟩
  · intro entry hits hover
    exact ((innerAnswer_of_overrun hits hover).1 (hearly (.timeout entry hits hover))).2.1
  · intro entry hits hover
    exact ((innerAnswer_of_overrun hits hover).1 (hearly (.timeout entry hits hover))).2.2

end Answers

/-! ### What the kinds of answers count for -/

section Kinds
variable {a : Answer} {t u : InterceptorTotals}

theorem counted_of_enriches (h : a.enriches = true)
    (hmark : ¬ IndexUnavailable a.enrichmentHeaders) :
    a.counted t = { t with enriched := t.enriched + 1 } := by
  have hother : a.outcome.failsOpen = false ∧ a.outcome ≠ .redirected := by
    cases hout : a.outcome <;> simp_all [Answer.enriches, InterceptionOutcome.failsOpen]
  simp [Answer.counted, h, hmark, hother]

theorem counted_of_failsOpen (h : a.outcome.failsOpen = true)
    (hmark : ¬ IndexUnavailable a.enrichmentHeaders) : a.counted t = t.failed := by
  have hother : a.enriches = false ∧ a.outcome ≠ .redirected := by
    cases hout : a.outcome <;> simp_all [Answer.enriches, InterceptionOutcome.failsOpen]
  simp [Answer.counted, InterceptorTotals.failed, h, hmark, hother]

theorem counted_of_miss :
    (failOpenAnswer .failOpen .indexUnavailable).counted t =
      { t with cacheMisses := t.cacheMisses + 1, failOpen := t.failOpen + 1 } := by
  have hmark : IndexUnavailable (buildFailOpenHeaders .indexUnavailable) := rfl
  simp [Answer.counted, failOpenAnswer, Answer.enriches, InterceptionOutcome.failsOpen, hmark]

theorem counted_of_redirected (h : a.outcome = .redirected)
    (hmark : ¬ IndexUnavailable a.enrichmentHeaders) :
    a.counted t = { t with redirected := t.redirected + 1 } := by
  simp [Answer.counted, Answer.enriches, InterceptionOutcome.failsOpen, h, hmark]

/-- A stopped request, and one without a workload, count for nothing. -/
theorem counted_of_uncounted (h : a.outcome = .hardStopped ∨
      a.outcome = .passthrough ∧ a.attribution = none)
    (hmark : ¬ IndexUnavailable a.enrichmentHeaders) : a.counted t = t := by
  rcases h with h | ⟨h, hnone⟩
  · simp [Answer.counted, Answer.enriches, InterceptionOutcome.failsOpen, h, hmark]
  · simp [Answer.counted, Answer.enriches, InterceptionOutcome.failsOpen, h, hmark, hnone]

theorem InterceptorTotals.Below.refl (t : InterceptorTotals) : t.Below t :=
  ⟨le_rfl, le_rfl, le_rfl, le_rfl, le_rfl⟩

theorem InterceptorTotals.Below.short_failed (h : t.Below u) : t.Short u.failed :=
  ⟨⟨h.requests, h.enriched, h.failOpen.trans (Nat.le_succ _), h.redirected, h.cacheMisses⟩,
    Nat.lt_succ_of_le h.failOpen⟩

theorem InterceptorTotals.Short.failed (h : t.Short u) : t.failed.Short u.failed :=
  ⟨⟨h.1.requests, h.1.enriched, Nat.succ_le_succ h.1.failOpen, h.1.redirected, h.1.cacheMisses⟩,
    Nat.succ_lt_succ h.2⟩

theorem InterceptorTotals.Below.trans {t u v : InterceptorTotals} (h : t.Below u) (h' : u.Below v) :
    t.Below v :=
  ⟨h.requests.trans h'.requests, h.enriched.trans h'.enriched, h.failOpen.trans h'.failOpen,
    h.redirected.trans h'.redirected, h.cacheMisses.trans h'.cacheMisses⟩

theorem InterceptorTotals.Below.counted (h : t.Below u) (a : Answer) :
    (a.counted t).Below (a.counted u) :=
  ⟨h.requests, Nat.add_le_add_right h.enriched _, Nat.add_le_add_right h.failOpen _,
    Nat.add_le_add_right h.redirected _, Nat.add_le_add_right h.cacheMisses _⟩

theorem counted_inj (h : a.counted t = a.counted u) : t = u := by
  obtain ⟨requests, enriched, failOpen, redirected, cacheMisses⟩ := t
  simp only [Answer.counted, InterceptorTotals.mk.injEq, Nat.add_right_cancel_iff] at h
  obtain ⟨rfl, rfl, rfl, rfl, rfl⟩ := h
  rfl

/-- One more request. -/
def InterceptorTotals.requested (t : InterceptorTotals) : InterceptorTotals :=
  { t with requests := t.requests + 1 }

theorem InterceptorTotals.Below.requested (h : t.Below u) : t.requested.Below u.requested :=
  ⟨Nat.succ_le_succ h.requests, h.enriched, h.failOpen, h.redirected, h.cacheMisses⟩

theorem requested_inj (h : t.requested = u.requested) : t = u := by
  obtain ⟨requests, enriched, failOpen, redirected, cacheMisses⟩ := t
  simp only [InterceptorTotals.requested, InterceptorTotals.mk.injEq, Nat.add_right_cancel_iff] at h
  obtain ⟨rfl, rfl, rfl, rfl, rfl⟩ := h
  rfl

end Kinds

/-! ### What one call counts -/

section Counts
variable {β : Type} {ops : CircuitOps β} {g : Gateway} {env : CallEnv}
  {request : InterceptionRequest} {entry : AttributionIndexEntry}
  {violations : List PolicyEvaluationResult} {t : InterceptorTotals}

/-- The counters are at `t`. -/
def At (t : InterceptorTotals) (s : Interceptor β) : Prop := s.totals = t

/-- The result was counted for what it is, on top of `t`. -/
def Counted (t : InterceptorTotals) (r : InterceptionResult) (s : Interceptor β) : Prop :=
  s.totals = r.answer.counted t

/-- The counters of a call that raises: as before, unless the call was counted early. -/
def Lost (early : Prop) (t : InterceptorTotals) (_ : PyExn) (s : Interceptor β) : Prop :=
  (early ∧ t.Short s.totals) ∨ (¬ early ∧ s.totals = t)

theorem count_spec (f : InterceptorTotals → InterceptorTotals)
    {R : PyExn → Interceptor β → Prop} :
    Eff.Spec (At t) (count f : InterceptM β Unit) (fun _ => At (f t)) R :=
  Eff.spec_modify fun _ hs => congrArg f hs

/-- What leaves the counters alone leaves them at `t`. -/
theorem at_of_frames {α : Type} {x : InterceptM β α} (h : Eff.Frames Interceptor.totals x) :
    Eff.Spec (At t) x (fun _ => At t) (fun _ => At t) :=
  Eff.Frames.spec (I := fun u => u = t) h

theorem at_of_returns {α : Type} {x : InterceptM β α} (hr : Eff.Returns x)
    (h : Eff.Frames Interceptor.totals x) {R : PyExn → Interceptor β → Prop} :
    Eff.Spec (At t) x (fun _ => At t) R :=
  hr.spec (I := fun u => u = t) h

theorem onCircuit_totals {α : Type} (op : Eff PyExn β α) :
    Eff.Frames Interceptor.totals (onCircuit op) :=
  fun _ => rfl

theorem shadowRefresh_totals {workloadId : String} :
    Eff.Frames Interceptor.totals (shadowRefresh g env workloadId : InterceptM β Unit) :=
  Eff.frames_ite (Eff.frames_modify fun _ => rfl) (Eff.frames_pure _)

/-- An intervention event is made from texts that were read before. -/
theorem emitInterventionEvent_at (hcontext : request.interventionContext = .ok ())
    {actionType : String} {elapsedMs : ℚ} {newModel : Option String}
    {R : PyExn → Interceptor β → Prop} :
    Eff.Spec (At t) (emitInterventionEvent g env request actionType elapsedMs entry newModel)
      (fun _ => At t) R := by
  have hends : Eff.EndsAs (fun _ => ()) (emitInterventionEvent g env request actionType elapsedMs
      entry newModel : InterceptM β Bool) (.ok ()) := by
    rw [← hcontext]
    exact emitInterventionEvent_endsAs
  exact at_of_returns hends.returns (emitInterventionEvent_frames fun _ _ => rfl)

theorem advise_counts {report : InterceptM β Unit} (hreport : Eff.Returns report)
    (htotals : Eff.Frames Interceptor.totals report) :
    Eff.Spec (At t) (advise g env request entry violations report) (Counted t) (fun _ => At t) := by
  refine Eff.spec_lift_bind (fun headers hheaders => ?_) fun _ _ _ h => h
  refine (at_of_returns hreport htotals).bind fun _ => (count_spec _).bind fun _ => ?_
  refine Eff.spec_pure fun s hs => hs.trans (counted_of_enriches ?_ ?_).symm
  · show Answer.enriches (servedAnswer (advisoryOutcome violations) entry violations headers) = true
    rcases advisoryOutcome_cases violations with ho | ho
    · rw [ho]
      rfl
    · rw [ho]
      rfl
  · exact not_indexUnavailable_of_served hheaders

section Routing
variable (hcontext : request.interventionContext = .ok ())
include hcontext

theorem serveActive_counts {headers : PyDict String String}
    (hheaders : buildEnrichmentHeaders g.config request entry violations = .ok headers) :
    Eff.Spec (At t) (serveActive g env request entry violations headers : InterceptM β _)
      (Counted t) (fun _ => At t) := by
  have hcounted : ∀ s : Interceptor β, At { t with enriched := t.enriched + 1 } s →
      s.totals =
        (servedAnswer (advisoryOutcome violations) entry violations headers).counted t := by
    intro s hs
    refine hs.trans (counted_of_enriches ?_ (not_indexUnavailable_of_served hheaders)).symm
    rcases advisoryOutcome_cases violations with ho | ho
    · rw [ho]
      rfl
    · rw [ho]
      rfl
  refine (count_spec _).bind fun _ => Eff.spec_ite (fun _ => ?_) fun _ => ?_
  · exact (emitInterventionEvent_at hcontext).bind fun _ => Eff.spec_pure hcounted
  · exact Eff.spec_pure hcounted

theorem redirectTo_counts {headers : PyDict String String} {altModel : String}
    (hheaders : buildEnrichmentHeaders g.config request entry violations = .ok headers) :
    Eff.Spec (At t) (redirectTo g env request entry violations headers altModel : InterceptM β _)
      (Counted t) (fun _ => At t) := by
  refine (count_spec _).bind fun _ => (emitInterventionEvent_at hcontext).bind fun _ => ?_
  refine Eff.spec_pure fun s hs => hs.trans (counted_of_redirected rfl ?_).symm
  exact not_indexUnavailable_of_redirect (not_indexUnavailable_of_served hheaders) altModel

theorem activeRouting_counts :
    Eff.Spec (At t) (activeRouting g env request entry violations : InterceptM β _)
      (Counted t) (fun _ => At t) := by
  refine Eff.spec_lift_bind (fun headers hheaders => ?_) fun _ _ _ h => h
  refine Eff.spec_ite (fun _ => ?_) fun _ => ?_
  · refine (emitInterventionEvent_at hcontext).bind fun _ => Eff.spec_pure fun s hs => ?_
    exact hs.trans
      (counted_of_uncounted (.inl rfl) (not_indexUnavailable_of_served hheaders)).symm
  · split
    · exact Eff.spec_ite (fun _ => redirectTo_counts hcontext hheaders)
        fun _ => serveActive_counts hcontext hheaders
    · exact serveActive_counts hcontext hheaders

variable (hsucc : Eff.Returns (onCircuit ops.recordSuccess))
include hsucc

theorem route_counts :
    Eff.Spec (At t) (route ops g env request entry violations) (Counted t) (fun _ => At t) := by
  unfold route
  cases g.mode with
  | passive =>
    refine (at_of_returns hsucc (onCircuit_totals _)).bind fun _ => (count_spec _).bind fun _ => ?_
    exact Eff.spec_pure fun s hs =>
      hs.trans (counted_of_enriches rfl not_indexUnavailable_empty).symm
  | advisory => exact advise_counts hsucc (onCircuit_totals _)
  | active =>
    refine Eff.spec_lift_bind (fun down _ => Eff.spec_ite (fun _ => ?_) fun _ => ?_)
      fun _ _ _ h => h
    · exact advise_counts (Eff.returns_pure _) (Eff.frames_pure _)
    · refine (activeRouting_counts hcontext).bind fun r => ?_
      refine Eff.Spec.bind (hsucc.spec (I := fun u => u = r.answer.counted t)
        (onCircuit_totals ops.recordSuccess)) fun _ => ?_
      exact Eff.spec_pure fun s hs => hs

end Routing

theorem timedOut_counts {workloadId : String} {elapsedMs : ℚ} {reason : FailOpenReason}
    (hreason : reason.value.length = 14) :
    Eff.Spec (At t.failed) (timedOut g env request workloadId entry elapsedMs reason :
      InterceptM β InterceptionResult) (Counted t) (fun _ => At t.failed) := by
  refine Eff.spec_lift_bind (fun tenant _ => ?_) fun _ _ _ h => h
  refine (at_of_returns emitShadowEvent_returns (emitShadowEvent_frames fun _ _ => rfl)).bind
    fun _ => ?_
  refine Eff.spec_lift_bind (fun headers hheaders => ?_) fun _ _ _ h => h
  refine Eff.spec_pure fun s hs => hs.trans (counted_of_failsOpen rfl ?_).symm
  exact not_indexUnavailable_of_timeout hreason hheaders

theorem Lost.of_failed {early : Prop} {e : PyExn} {s : Interceptor β} (h : early)
    (hs : At t.failed s) : Lost early t e s := by
  refine .inl ⟨h, ?_⟩
  rw [show s.totals = t.failed from hs]
  exact (InterceptorTotals.Below.refl t).short_failed

theorem Lost.below {early : Prop} {e : PyExn} {s : Interceptor β} (h : Lost early t e s) :
    t.Below s.totals := by
  rcases h with ⟨-, hshort⟩ | ⟨-, hkept⟩
  · exact hshort.1
  · rw [hkept]
    exact .refl t

theorem Lost.congr {early early' : Prop} {e : PyExn} {s : Interceptor β} (h : early ↔ early')
    (hs : Lost early t e s) : Lost early' t e s := by
  unfold Lost at hs ⊢
  rwa [← h]

theorem enrich_counts {workloadId : String} (hid : request.resolveWorkloadId = .ok workloadId)
    (hsucc : Eff.Returns (onCircuit ops.recordSuccess)) :
    Eff.Spec (At t) (enrich ops g env request workloadId entry) (Counted t)
      (Lost (Overruns g env request entry) t) := by
  refine Eff.spec_ite (fun hlate => ?_) fun hintime => ?_
  · have hover : Overruns g env request entry := .inl hlate
    exact (count_spec _).bind fun _ => (timedOut_counts rfl).weaken (fun _ h => h)
      (fun _ _ h => h) fun _ _ => Lost.of_failed hover
  · refine Eff.spec_lift_bind (fun violations hviol => Eff.spec_ite (fun hlate => ?_)
      fun hpolicies => ?_) fun e herr s hs => .inr ⟨?_, hs⟩
    · have hover : Overruns g env request entry :=
        .inr ⟨eq_false_of_ne_true hintime, hlate, violations, hviol⟩
      refine (count_spec _).bind fun _ => ?_
      refine Eff.Spec.weaken ((at_of_frames (emitPolicyEvaluationEvent_frames fun _ _ => rfl)).bind
        fun _ => timedOut_counts rfl) (fun _ h => h) (fun _ _ h => h) ?_
      exact fun _ _ => Lost.of_failed hover
    · have hnot : ¬ Overruns g env request entry := by
        rintro (hlate | ⟨-, hlate, -⟩)
        · exact hintime hlate
        · exact hpolicies hlate
      have hlost : ∀ (e : PyExn) (s : Interceptor β), At t s →
          Lost (Overruns g env request entry) t e s := fun _ _ hs => .inr ⟨hnot, hs⟩
      -- the event has read the texts that the answer reads again
      refine Eff.Spec.bind ((emitPolicyEvaluationEvent_endsAs.spec (I := fun u => u = t)
        (emitPolicyEvaluationEvent_frames fun _ _ => rfl)).weaken (fun _ h => h) (fun _ _ h => h)
        fun e s h => hlost e s h.2) fun _ => ?_
      rintro s ⟨hcontext, hs⟩
      have hintervention : request.interventionContext = .ok () := by
        unfold InterceptionRequest.interventionContext
        rw [hid, hcontext]
        show (if workloadId = "" then Except.ok () else Except.ok ()) = _
        rw [ite_self]
      exact (route_counts hintervention hsucc).weaken (fun _ h => h) (fun _ _ h => h) hlost s hs
    · rintro (hlate | ⟨-, -, violations, hviol⟩)
      · exact hintime hlate
      · rw [herr] at hviol
        cases hviol

theorem missed_counts {workloadId : String} {early : Prop} (hearly : early) :
    Eff.Spec (At t) (missed g env request workloadId : InterceptM β InterceptionResult) (Counted t)
      (Lost early t) := by
  have hshort : t.Short { t with cacheMisses := t.cacheMisses + 1, failOpen := t.failOpen + 1 } :=
    ⟨⟨le_rfl, le_rfl, Nat.le_succ _, le_rfl, Nat.le_succ _⟩, Nat.lt_succ_self _⟩
  refine (count_spec _).bind fun _ => ?_
  refine (at_of_returns shadowRefresh_returns shadowRefresh_totals).bind fun _ => ?_
  refine Eff.spec_lift_bind (fun tenant _ => ?_) fun e _ s hs => .inl ⟨hearly, ?_⟩
  · refine (at_of_returns emitShadowEvent_returns (emitShadowEvent_frames fun _ _ => rfl)).bind
      fun _ => Eff.spec_pure fun s hs => ?_
    exact hs.trans counted_of_miss.symm
  · rw [show s.totals = _ from hs]
    exact hshort

theorem admitted_counts (hsucc : Eff.Returns (onCircuit ops.recordSuccess)) :
    Eff.Spec (At t) (admitted ops g env request) (Counted t)
      (Lost (CountedEarly false g env request) t) := by
  refine Eff.spec_lift_bind (fun w hid => Eff.spec_ite (fun _ => ?_) fun hne => ?_)
    fun e herr s hs => .inr ⟨?_, hs⟩
  · exact Eff.spec_pure fun s hs =>
      hs.trans (counted_of_uncounted (.inr ⟨rfl, rfl⟩) not_indexUnavailable_empty).symm
  · refine Eff.spec_lift_bind (fun found hl => ?_) fun e herr s hs => .inr ⟨?_, hs⟩
    · cases found with
      | none => exact missed_counts (.miss rfl w hid hne hl)
      | some entry =>
        have hits : Hits false env request entry := ⟨rfl, w, hid, hne, hl⟩
        have hiff : Overruns g env request entry ↔ CountedEarly false g env request := by
          refine ⟨.timeout entry hits, ?_⟩
          rintro (⟨-, w', hid', -, habsent⟩ | ⟨entry', ⟨-, w', hid', -, hl'⟩, hover⟩)
          · obtain rfl := Except.ok.inj (hid.symm.trans hid')
            cases hl.symm.trans habsent
          · obtain rfl := Except.ok.inj (hid.symm.trans hid')
            cases hl.symm.trans hl'
            exact hover
        exact (enrich_counts hid hsucc).weaken (fun _ h => h) (fun _ _ h => h)
          fun _ _ => Lost.congr hiff
    · rintro (⟨-, w', hid', -, hl⟩ | ⟨entry, ⟨-, w', hid', -, hl⟩, -⟩)
      · obtain rfl := Except.ok.inj (hid.symm.trans hid')
        cases herr.symm.trans hl
      · obtain rfl := Except.ok.inj (hid.symm.trans hid')
        cases herr.symm.trans hl
  · rintro (⟨-, w, hid, -, -⟩ | ⟨entry, ⟨-, w, hid, -⟩, -⟩)
    · cases herr.symm.trans hid
    · cases herr.symm.trans hid

theorem interceptInner_counts {refused : Bool} {s : Interceptor β}
    (hsucc : Eff.Returns (onCircuit ops.recordSuccess))
    (hread : ∃ s', onCircuit ops.isOpen s = (.ok refused, s')) (hs : At t s) :
    Eff.Ends (Counted t) (Lost (CountedEarly refused g env request) t)
      (interceptInner ops g env request s) := by
  obtain ⟨s', hopen⟩ := hread
  have hs' : At t s' := by
    have hframe := onCircuit_totals ops.isOpen s
    rw [hopen] at hframe
    exact hframe.trans hs
  unfold interceptInner
  dsimp only
  rw [Eff.bind_of_ok hopen]
  cases refused with
  | true =>
    refine (show s'.totals.failed = t.failed from congrArg _ hs').trans ?_
    exact (counted_of_failsOpen rfl (mt (indexUnavailable_failOpen_iff _).1 nofun)).symm
  | false => exact admitted_counts hsucc s' hs'

theorem emitFailure_totals {workloadId : String} :
    Eff.Frames Interceptor.totals (failOpenResult.emitFailure g env request workloadId :
      InterceptM β Bool) :=
  emitFailure_frames fun _ _ => rfl

/-- The handler counts one failure, whether it answers or raises. -/
theorem failOpenResult_counts :
    Eff.Spec (At t) (failOpenResult ops g env request)
      (fun r s => r.answer = failOpenAnswer .failOpen .runtimeException ∧ At t.failed s)
      (fun _ => At t.failed) := by
  refine (count_spec _).bind fun _ => (at_of_frames (onCircuit_totals _)).bind fun _ => ?_
  refine Eff.spec_lift_bind (fun w _ => ?_) fun _ _ _ h => h
  refine (at_of_frames emitFailure_totals).bind fun _ => ?_
  have hmetrics : Eff.Frames Interceptor.totals (recordObservabilityMetrics ops .failed) :=
    (onCircuit_totals _).bind fun _ => (Eff.frames_lift _).bind fun _ => Eff.frames_pure _
  exact (at_of_frames hmetrics).bind fun _ => Eff.spec_pure fun s hs => ⟨rfl, hs⟩

end Counts

/-- What a call did to the counters: an answer to a call that is counted once is counted for what
it is; otherwise there is a failure too many. -/
def Tallied (once : Prop) (t : InterceptorTotals) : Except PyExn InterceptionResult →
    InterceptorTotals → Prop
  | .ok r, u => (once ∧ u = r.answer.counted t) ∨ (¬ once ∧ (r.answer.counted t).Short u)
  | .error _, u => ¬ once ∧ t.Short u

/-- **What one call does to the counters.** -/
theorem intercept_tallied (g : Gateway) (calls : StoreCalls) (env : CallEnv)
    (request : InterceptionRequest) (s : Interceptor CircuitBreakerState) :
    Tallied (CountsOnce (calls.refuses g.breaker s) g env request) s.totals.requested
      (intercept (storeOps g.breaker calls) g env request s).1
      (intercept (storeOps g.breaker calls) g env request s).2.totals := by
  have hsucc : Eff.Returns (onCircuit (storeOps g.breaker calls).recordSuccess) :=
    calls.report.safeMutate_returns _
  have hmetrics := storeOps_metrics_returns g.breaker calls
  have hends := intercept_endsAs g calls env request s
  -- the state after the request is counted
  have hread := isOpen_counted g calls s
  generalize hs₁ : ({ s with totals := { s.totals with requests := s.totals.requests + 1 } } :
    Interceptor CircuitBreakerState) = s₁ at hread
  have hat : At s.totals.requested s₁ := by
    rw [← hs₁]
    rfl
  have hinner := @interceptInner_endsAs _ _ g env request hsucc _ _ hread
  have hcounts := @interceptInner_counts _ _ g env request _ _ _ hsucc hread hat
  have hrun : intercept (storeOps g.breaker calls) g env request s =
      Eff.catching (interceptInner (storeOps g.breaker calls) g env request >>= fun result =>
        recordObservabilityMetrics (storeOps g.breaker calls) .answered >>= fun _ => pure result)
        (fun _ => failOpenResult (storeOps g.breaker calls) g env request) s₁ := by
    rw [← hs₁]
    rfl
  rw [hrun] at hends ⊢
  clear hrun
  generalize calls.refuses g.breaker s = refused at *
  generalize s.totals.requested = t at *
  unfold Eff.catching at hends ⊢
  match hinnerRun : interceptInner (storeOps g.breaker calls) g env request s₁ with
  | (.ok r, s₂) =>
    rw [hinnerRun] at hinner hcounts
    obtain ⟨_, s₃, hrecord⟩ := hmetrics .answered s₂
    have hframe : s₃.totals = s₂.totals := by
      have hm : Eff.Frames Interceptor.totals
          (recordObservabilityMetrics (storeOps g.breaker calls) .answered) :=
        (onCircuit_totals _).bind fun _ => (Eff.frames_lift _).bind fun _ => Eff.frames_pure _
      have hm₂ := hm s₂
      rwa [hrecord] at hm₂
    rw [Eff.bind_of_ok hinnerRun, Eff.bind_of_ok hrecord]
    have hok : innerAnswer refused g env request = .ok r.answer := hinner.symm
    exact .inl ⟨countsOnce_iff.2 ⟨⟨_, interceptAnswer_of_inner hok⟩, fun _ => ⟨_, hok⟩⟩,
      hframe.trans hcounts⟩
  | (.error e, s₂) =>
    rw [hinnerRun] at hinner hcounts
    rw [Eff.bind_of_error hinnerRun] at hends ⊢
    dsimp only at hends ⊢
    have hraises : ∀ a, innerAnswer refused g env request ≠ .ok a := by
      intro a ha
      rw [ha] at hinner
      cases hinner
    have hhandler := @failOpenResult_counts _ (storeOps g.breaker calls) g env request _ s₂ rfl
    match hhandled : failOpenResult (storeOps g.breaker calls) g env request s₂ with
    | (.ok r, s₃) =>
      rw [hhandled] at hhandler hends
      obtain ⟨hanswer, hfailed⟩ := hhandler
      have hanswered : ∃ a, interceptAnswer refused g env request = .ok a := ⟨_, hends.symm⟩
      have hcounted : ∀ u, r.answer.counted u = u.failed := by
        intro u
        rw [hanswer]
        exact counted_of_failsOpen rfl (mt (indexUnavailable_failOpen_iff _).1 nofun)
      rcases hcounts with ⟨hearly, hshort⟩ | ⟨hnot, hkept⟩
      · refine .inr ⟨fun honce => ?_, ?_⟩
        · obtain ⟨a, ha⟩ := honce.innerAnswer_ok hearly
          exact hraises a ha
        · rw [hcounted, show s₃.totals = s₂.totals.failed from hfailed]
          exact hshort.failed
      · refine .inl ⟨countsOnce_iff.2 ⟨hanswered, fun hearly => absurd hearly hnot⟩, ?_⟩
        rw [hcounted, show s₃.totals = s₂.totals.failed from hfailed, hkept]
    | (.error e', s₃) =>
      rw [hhandled] at hhandler hends
      refine ⟨fun honce => ?_, ?_⟩
      · obtain ⟨a, ha⟩ := honce.interceptAnswer_ok
        rw [ha] at hends
        cases hends
      · rw [show s₃.totals = s₂.totals.failed from hhandler]
        exact (Lost.below (e := e) hcounts).short_failed

/-! ### Runs -/

/-- One `intercept` call. -/
structure CountedCall where
  mode : DeploymentMode
  calls : StoreCalls
  env : CallEnv
  request : InterceptionRequest

/-- An interceptor between two calls. -/
structure CountedRun where
  interceptor : Interceptor CircuitBreakerState
  /-- How many calls were made. -/
  calls : Nat := 0
  /-- What they returned, oldest first. -/
  results : List InterceptionResult := []

namespace CountedRun

/-- The gateway in the mode of the call. -/
def gateway (g : Gateway) (c : CountedCall) : Gateway := { g with mode := c.mode }

/-- The call, and the interceptor it leaves. -/
def answerTo (g : Gateway) (s : CountedRun) (c : CountedCall) :
    Except PyExn InterceptionResult × Interceptor CircuitBreakerState :=
  intercept (storeOps g.breaker c.calls) (gateway g c) c.env c.request s.interceptor

/-- One completed call. -/
def step (g : Gateway) (s : CountedRun) (c : CountedCall) : CountedRun where
  interceptor := (answerTo g s c).2
  calls := s.calls + 1
  results := s.results ++ (answerTo g s c).1.toOption.toList

/-- The call is counted once. -/
def Counts (g : Gateway) (s : CountedRun) (c : CountedCall) : Prop :=
  CountsOnce (c.calls.refuses g.breaker s.interceptor) (gateway g c) c.env c.request

/-- What the results count for. -/
def tally (s : CountedRun) : InterceptorTotals where
  requests := s.calls
  enriched := s.results.countP fun r => r.answer.enriches
  failOpen := s.results.countP fun r => r.outcome.failsOpen
  redirected := s.results.countP fun r => r.outcome = .redirected
  cacheMisses := s.results.countP fun r => IndexUnavailable r.enrichmentHeaders

/-- The results that count for nothing. -/
def uncounted (s : CountedRun) : Nat :=
  s.results.countP fun r =>
    r.outcome = .hardStopped ∨ r.outcome = .passthrough ∧ r.attribution = none

/-- The counters are those of the results, and part the requests. -/
structure Matches (s : CountedRun) : Prop where
  counters : s.interceptor.totals = s.tally
  parted : s.interceptor.totals.requests = s.interceptor.totals.failOpen +
    s.interceptor.totals.redirected + s.interceptor.totals.enriched + s.uncounted

variable {g : Gateway} {s : CountedRun} {c : CountedCall}

/-- Every result is in one class. -/
theorem length_results (results : List InterceptionResult) :
    results.length = results.countP (fun r => r.outcome.failsOpen) +
      results.countP (fun r => r.outcome = .redirected) +
      results.countP (fun r => r.answer.enriches) +
      results.countP fun r =>
        r.outcome = .hardStopped ∨ r.outcome = .passthrough ∧ r.attribution = none := by
  induction results with
  | nil => rfl
  | cons r results ih =>
    have hone : (if r.outcome.failsOpen = true then 1 else 0) +
        (if r.outcome = .redirected then 1 else 0) +
        (if r.answer.enriches = true then 1 else 0) +
        (if r.outcome = .hardStopped ∨ r.outcome = .passthrough ∧ r.attribution = none
          then 1 else 0) = 1 := by
      unfold Answer.enriches InterceptionResult.answer
      cases hout : r.outcome <;> cases r.attribution <;> simp [InterceptionOutcome.failsOpen]
    rw [List.length_cons, ih]
    simp only [List.countP_cons, decide_eq_true_eq]
    omega

/-- A result more. -/
theorem tally_step (g : Gateway) (s : CountedRun) (c : CountedCall) :
    (step g s c).tally = match (answerTo g s c).1 with
      | .ok r => r.answer.counted s.tally.requested
      | .error _ => s.tally.requested := by
  unfold step tally
  cases (answerTo g s c).1 with
  | error e => simp [Except.toOption, InterceptorTotals.requested]
  | ok r =>
    simp only [Except.toOption, Option.toList, List.countP_append, List.countP_singleton,
      decide_eq_true_eq, Answer.counted]
    rfl

theorem tallied (g : Gateway) (s : CountedRun) (c : CountedCall) :
    Tallied (Counts g s c) s.interceptor.totals.requested (answerTo g s c).1
      (step g s c).interceptor.totals :=
  intercept_tallied (gateway g c) c.calls c.env c.request s.interceptor

/-- No result is missing from the counters. -/
structure Covered (s : CountedRun) : Prop where
  below : s.tally.Below s.interceptor.totals
  length : s.results.length ≤ s.calls

/-- Every call has its result, and the counters are those of the results. -/
structure Exact (s : CountedRun) : Prop where
  counters : s.interceptor.totals = s.tally
  length : s.results.length = s.calls

theorem step_covered (h : s.Covered) (c : CountedCall) : (step g s c).Covered := by
  have htallied := tallied g s c
  have hbelow := h.below.requested
  have hlength : (step g s c).results.length ≤ s.calls + 1 := by
    show (s.results ++ (answerTo g s c).1.toOption.toList).length ≤ s.calls + 1
    rw [List.length_append]
    exact Nat.add_le_add h.length Option.length_toList_le
  refine ⟨?_, hlength⟩
  rw [tally_step]
  cases hanswer : (answerTo g s c).1 with
  | ok r =>
    rw [hanswer] at htallied
    rcases htallied with ⟨-, hcounted⟩ | ⟨-, hshort⟩
    · rw [hcounted]
      exact hbelow.counted r.answer
    · exact (hbelow.counted r.answer).trans hshort.1
  | error e =>
    rw [hanswer] at htallied
    exact hbelow.trans htallied.2.1

/-- **One call**: the counters stay exact exactly if it is counted once. -/
theorem step_exact_iff (h : s.Covered) (c : CountedCall) :
    (step g s c).Exact ↔ s.Exact ∧ Counts g s c := by
  have htallied := tallied g s c
  have hbelow := h.below.requested
  cases hanswer : (answerTo g s c).1 with
  | ok r =>
    have htally : (step g s c).tally = r.answer.counted s.tally.requested := by
      rw [tally_step, hanswer]
    have hresults : (step g s c).results.length = s.results.length + 1 := by
      show (s.results ++ (answerTo g s c).1.toOption.toList).length = _
      rw [hanswer, List.length_append]
      rfl
    rw [hanswer] at htallied
    rcases htallied with ⟨honce, hcounted⟩ | ⟨hnot, hshort⟩
    · constructor
      · intro hexact
        have heq := hexact.counters
        rw [hcounted, htally] at heq
        refine ⟨⟨requested_inj (counted_inj heq), ?_⟩, honce⟩
        exact Nat.succ_inj.1 (hresults.symm.trans hexact.length)
      · rintro ⟨hexact, -⟩
        refine ⟨?_, ?_⟩
        · rw [hcounted, htally, hexact.counters]
        · rw [hresults, hexact.length]
          rfl
    · -- the failure too many is never made up for
      refine iff_of_false (fun hexact => ?_) fun hboth => hnot hboth.2
      have hless := hshort.2
      rw [hexact.counters, htally] at hless
      exact absurd hless (not_lt.2 (hbelow.counted r.answer).failOpen)
  | error e =>
    have htally : (step g s c).tally = s.tally.requested := by
      rw [tally_step, hanswer]
    rw [hanswer] at htallied
    refine iff_of_false (fun hexact => ?_) fun hboth => htallied.1 hboth.2
    have hless := htallied.2.2
    rw [hexact.counters, htally] at hless
    exact absurd hless (not_lt.2 hbelow.failOpen)

/-- Where the counters are exact the requests fall into the classes, and only there. -/
theorem matches_iff_exact (s : CountedRun) : s.Matches ↔ s.Exact := by
  constructor
  · intro h
    refine ⟨h.counters, ?_⟩
    have hparted := h.parted
    rw [h.counters] at hparted
    exact (length_results s.results).trans hparted.symm
  · intro h
    refine ⟨h.counters, ?_⟩
    rw [h.counters]
    exact h.length.symm.trans (length_results s.results)

/-- A late request whose price snapshot has no text: an integer of 4301 digits. -/
def unreadableSnapshot : CountedCall where
  mode := .advisory
  calls := freshStore
  env := lateEnv
  request := { InterceptRun.servedRequest with
    metadata := PyDict.ofList [("price_snapshot_id", .int (10 ^ 4300))] }

end CountedRun

end ComputeIntelligence
