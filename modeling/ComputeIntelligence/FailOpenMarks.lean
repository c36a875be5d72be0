import ComputeIntelligence.HeaderBudget

/-! # Whether a fail-open is marked

The exits that find no entry send the fail-open pair alone.  A timeout sends it behind the cost,
the confidence and the price snapshot, and the trimming ranks it last: where the five headers do
not fit, the reason is what goes (`marked_enforce_iff`).  So the marks tell a fail-open exactly
when the headers of a timeout fit (`marksFailOpen_iff`).
-/
namespace ComputeIntelligence

/-- The members of `FailOpenReason`. -/
def failOpenReasonValues : List String :=
  ["INDEX_UNAVAILABLE", "POLICY_TIMEOUT", "LOOKUP_TIMEOUT", "DEPENDENCY_UNREACHABLE",
    "CONFIG_INVALID", "RUNTIME_EXCEPTION", "RESOURCE_EXHAUSTION"]

/-- The headers say that the call failed open, and why. -/
def MarkedFailOpen (headers : PyDict String String) : Prop :=
  headers.get? "X-ACI-Fail-Open" = some "true" ∧
    ∃ text ∈ failOpenReasonValues, headers.get? "X-ACI-Fail-Open-Reason" = some text

instance (headers : PyDict String String) : Decidable (MarkedFailOpen headers) :=
  inferInstanceAs (Decidable (_ ∧ ∃ text ∈ failOpenReasonValues, _))

variable {config : InterceptorConfig} {headers offered : PyDict String String}
  {request : InterceptionRequest} {entry : AttributionIndexEntry}
  {violations : List PolicyEvaluationResult} {reason : FailOpenReason} {refused : Bool}
  {g : Gateway} {env : CallEnv} {a : Answer}

theorem value_mem_values (reason : FailOpenReason) : reason.value ∈ failOpenReasonValues := by
  cases reason <;> decide

theorem marked_failOpenHeaders (reason : FailOpenReason) :
    MarkedFailOpen (buildFailOpenHeaders reason) :=
  ⟨rfl, reason.value, value_mem_values reason, rfl⟩

theorem not_marked_of_not_mem (h : "X-ACI-Fail-Open" ∉ headers.keys) :
    ¬ MarkedFailOpen headers := by
  rintro ⟨htrue, -⟩
  exact h (PyDict.mem_keys_of_mem (PyDict.mem_of_find htrue))

/-! ### What a timeout offers -/

/-- The headers of a timeout. -/
def timeoutItems (request : InterceptionRequest) (entry : AttributionIndexEntry)
    (snapshot : String) (reason : FailOpenReason) : List (String × String) :=
  [("X-ACI-Est-Cost-USD", request.estimatedCostUsd.format 6),
    ("X-ACI-Attribution-Confidence", PyFloat.formatFixed 2 entry.confidence.1)] ++
  (if snapshot = "" then [] else [("X-ACI-Price-Snapshot-Id", snapshot)]) ++
  [("X-ACI-Fail-Open", "true"), ("X-ACI-Fail-Open-Reason", reason.value)]

theorem basicOffer_items {text : String} (h : request.metaStr "price_snapshot_id" = .ok text)
    (entry : AttributionIndexEntry) (reason : FailOpenReason) :
    ∃ offered, basicOffer request entry (some reason) = .ok offered ∧
      offered.items = timeoutItems request entry (PyText.strip text) reason := by
  unfold basicOffer addPriceSnapshot timeoutItems
  rw [h]
  by_cases hempty : PyText.strip text = ""
  · refine ⟨_, rfl, ?_⟩
    rw [if_pos hempty, if_pos hempty]
    rfl
  · refine ⟨_, rfl, ?_⟩
    rw [if_neg hempty, if_neg hempty]
    rfl

/-- The size of the headers of a timeout, each value cut to the limit. -/
def timeoutBytes (config : InterceptorConfig) (request : InterceptionRequest)
    (entry : AttributionIndexEntry) (snapshot : String) : Nat :=
  let cut := fun text => (PyText.sliceTo config.maxHeaderValueLength text).length
  117 + cut (request.estimatedCostUsd.format 6) +
    cut (PyFloat.formatFixed 2 entry.confidence.1) +
    (if snapshot = "" then 0 else 27 + cut snapshot)

theorem sliceTo_of_length_le {limit : Int} {text : String} (h : (text.length : Int) ≤ limit) :
    PyText.sliceTo limit text = text := by
  have hnonneg : 0 ≤ limit := by omega
  have hlength : text.toList.length ≤ limit.toNat := by
    rw [String.length_toList]
    omega
  unfold PyText.sliceTo PyText.take
  rw [if_pos hnonneg, List.take_of_length_le hlength, String.ofList_toList]

theorem get?_clampHeaders {k v : String} (h : headers.get? k = some v) :
    (clampHeaders config headers).get? k =
      some (PyText.sliceTo config.maxHeaderValueLength v) := by
  apply PyDict.get?_of_mem
  rw [items_clampHeaders]
  exact List.mem_map_of_mem (PyDict.mem_of_find h)

/-- Cutting spares the marks. -/
theorem MarkedFailOpen.clampHeaders (h : MarkedFailOpen headers)
    (hlength : 32 ≤ config.maxHeaderValueLength) :
    MarkedFailOpen (clampHeaders config headers) := by
  obtain ⟨htrue, text, htext, hreason⟩ := h
  have hshort : "true".length ≤ 32 ∧ ∀ text ∈ failOpenReasonValues, text.length ≤ 32 := by decide
  have htextLength := hshort.2 text htext
  have hkeepTrue : PyText.sliceTo config.maxHeaderValueLength "true" = "true" :=
    sliceTo_of_length_le (by omega)
  have hkeepText : PyText.sliceTo config.maxHeaderValueLength text = text :=
    sliceTo_of_length_le (by omega)
  refine ⟨?_, text, htext, ?_⟩
  · rw [get?_clampHeaders htrue, hkeepTrue]
  · rw [get?_clampHeaders hreason, hkeepText]

theorem marked_of_items {snapshot : String}
    (h : offered.items = timeoutItems request entry snapshot reason) : MarkedFailOpen offered := by
  refine ⟨PyDict.get?_of_mem ?_, reason.value, value_mem_values reason, PyDict.get?_of_mem ?_⟩
  · rw [h, timeoutItems]
    simp
  · rw [h, timeoutItems]
    simp

/-- All that a timeout sends is important. -/
theorem keys_timeoutItems (request : InterceptionRequest) (entry : AttributionIndexEntry)
    (snapshot : String) (reason : FailOpenReason) :
    ∀ k ∈ (timeoutItems request entry snapshot reason).map Prod.fst, k ∈ headerPriority := by
  unfold timeoutItems
  split
  · simp [headerPriority]
  · simp [headerPriority]

theorem bytes_timeoutItems {snapshot : String} (hlength : 32 ≤ config.maxHeaderValueLength)
    (hreason : reason.value.length = 14)
    (h : offered.items = timeoutItems request entry snapshot reason) :
    estimateHeaderBytes (clampHeaders config offered) =
      timeoutBytes config request entry snapshot := by
  have htrue : PyText.sliceTo config.maxHeaderValueLength "true" = "true" := by
    have hlen : "true".length = 4 := by decide
    exact sliceTo_of_length_le (by omega)
  have hvalue : PyText.sliceTo config.maxHeaderValueLength reason.value = reason.value :=
    sliceTo_of_length_le (by omega)
  have hkeys : "X-ACI-Est-Cost-USD".length = 18 ∧ "X-ACI-Attribution-Confidence".length = 28 ∧
      "X-ACI-Price-Snapshot-Id".length = 23 ∧ "X-ACI-Fail-Open".length = 15 ∧
      "X-ACI-Fail-Open-Reason".length = 22 ∧ "true".length = 4 := by
    decide
  rw [estimateHeaderBytes_eq, items_clampHeaders, h]
  unfold timeoutItems timeoutBytes bytes
  generalize request.estimatedCostUsd.format 6 = cost
  generalize PyFloat.formatFixed 2 entry.confidence.1 = confidence
  split
  · simp only [List.append_nil, List.cons_append, List.nil_append, List.map_cons, List.map_nil,
      List.sum_cons, List.sum_nil, htrue, hvalue]
    omega
  · simp only [List.cons_append, List.nil_append, List.map_cons, List.map_nil,
      List.sum_cons, List.sum_nil, htrue, hvalue]
    omega

/-! ### What the trimming leaves of the marks -/

/-- Where all headers are important, the whole row has their size. -/
theorem bytes_picked_priority (h : ∀ k ∈ headers.keys, k ∈ headerPriority) :
    bytes (picked headers headerPriority) = bytes headers.items := by
  have hitems : headers.items.Nodup := List.Nodup.of_map Prod.fst headers.nodup
  have hpicked : (picked headers headerPriority).Nodup := by
    refine List.Nodup.filterMap ?_ (by decide)
    intro k k' x hx hx'
    obtain ⟨_, _, rfl⟩ := Option.map_eq_some_iff.1 (Option.mem_def.1 hx)
    obtain ⟨_, _, heq⟩ := Option.map_eq_some_iff.1 (Option.mem_def.1 hx')
    exact (congrArg Prod.fst heq).symm
  have hperm : (picked headers headerPriority).Perm headers.items := by
    rw [List.perm_ext_iff_of_nodup hpicked hitems]
    intro x
    rw [mem_picked]
    exact ⟨And.right, fun hx => ⟨h x.1 (PyDict.mem_keys_of_mem hx), hx⟩⟩
  exact (hperm.map _).sum_eq

/-- **Of headers that are all important, the trimming drops the reason of a fail-open.** -/
theorem marked_enforce_iff (hlimit : 0 ≤ config.maxEnrichmentHeaderBytes)
    (hlength : 32 ≤ config.maxHeaderValueLength)
    (hkeys : ∀ k ∈ headers.keys, k ∈ headerPriority) (hmarked : MarkedFailOpen headers) :
    MarkedFailOpen (enforceHeaderBudget config headers) ↔
      (estimateHeaderBytes (clampHeaders config headers) : Int) ≤
        config.maxEnrichmentHeaderBytes := by
  constructor
  · intro h
    by_contra hover
    obtain ⟨n, htrim⟩ := exists_trimmed hlimit hover
    have hclamped : ∀ k ∈ (clampHeaders config headers).keys, k ∈ headerPriority := by
      intro k hk
      rw [PyDict.keys, items_clampHeaders, List.map_map] at hk
      exact hkeys k hk
    -- the whole row does not fit, so its last header is not kept
    have hshort : n < headerPriority.length := by
      by_contra hlast
      have hfits := htrim.fits
      rw [List.take_of_length_le (not_lt.1 hlast), bytes_picked_priority hclamped,
        ← estimateHeaderBytes_eq] at hfits
      exact hover hfits
    obtain ⟨-, text, -, hreason⟩ := h
    have hmem : ("X-ACI-Fail-Open-Reason", text) ∈ (enforceHeaderBudget config headers).items :=
      PyDict.mem_of_find hreason
    rw [htrim.items, List.mem_append] at hmem
    rcases hmem with hmem | hmem
    · -- the reason is the last of the seventeen
      have hrow : "X-ACI-Fail-Open-Reason" ∈ headerPriority.take 16 :=
        List.take_subset_take_left headerPriority (Nat.le_of_lt_succ hshort) (mem_picked.1 hmem).1
      exact absurd hrow (by decide)
    · have hmarker : "X-ACI-Fail-Open-Reason" = budgetMarker :=
        congrArg Prod.fst (List.mem_singleton.1 hmem)
      exact absurd hmarker (by decide)
  · intro hfits
    rw [enforce_of_fits hfits]
    exact hmarked.clampHeaders hlength

/-! ### The exits -/

theorem TimesOut.value_length (h : TimesOut refused g env request entry reason) :
    reason.value.length = 14 := by
  cases h with
  | lookup => decide
  | policies => decide

/-- An answer of a timeout is marked exactly when its headers fit. -/
theorem marked_timeoutAnswer_iff (hlimit : 0 ≤ g.config.maxEnrichmentHeaderBytes)
    (hlength : 32 ≤ g.config.maxHeaderValueLength) {text : String}
    (hlate : TimesOut refused g env request entry reason)
    (hsnapshot : request.metaStr "price_snapshot_id" = .ok text)
    (h : timeoutAnswer g request entry reason = .ok a) :
    a.outcome = .timeout ∧ (MarkedFailOpen a.enrichmentHeaders ↔
      (timeoutBytes g.config request entry (PyText.strip text) : Int) ≤
        g.config.maxEnrichmentHeaderBytes) := by
  obtain ⟨offered, hoffered, hitems⟩ := basicOffer_items hsnapshot entry reason
  unfold timeoutAnswer at h
  obtain ⟨tenant, -, h⟩ := Except.bind_eq_ok h
  rw [buildBasicHeaders_eq, hoffered] at h
  cases h
  have hkeys : ∀ k ∈ offered.keys, k ∈ headerPriority := by
    rw [PyDict.keys, hitems]
    exact keys_timeoutItems request entry _ reason
  refine ⟨rfl, ?_⟩
  rw [← bytes_timeoutItems hlength hlate.value_length hitems]
  exact marked_enforce_iff hlimit hlength hkeys (marked_of_items hitems)

/-- A timeout answers where the tenant and the price snapshot are texts. -/
theorem timeoutAnswer_returns_iff (g : Gateway) (request : InterceptionRequest)
    (entry : AttributionIndexEntry) (reason : FailOpenReason) :
    (∃ a, timeoutAnswer g request entry reason = .ok a) ↔
      (∃ tenant, request.resolveTenantId = .ok tenant) ∧
        ∃ text, request.metaStr "price_snapshot_id" = .ok text := by
  unfold timeoutAnswer
  constructor
  · rintro ⟨a, h⟩
    obtain ⟨tenant, htenant, h⟩ := Except.bind_eq_ok h
    obtain ⟨headers, hheaders, -⟩ := Except.bind_eq_ok h
    unfold buildBasicHeaders addPriceSnapshot at hheaders
    obtain ⟨offered, hoffered, -⟩ := Except.bind_eq_ok hheaders
    obtain ⟨text, htext, -⟩ := Except.bind_eq_ok hoffered
    exact ⟨⟨tenant, htenant⟩, text, htext⟩
  · rintro ⟨⟨tenant, htenant⟩, text, htext⟩
    obtain ⟨offered, hoffered, -⟩ := basicOffer_items htext entry reason
    rw [htenant, buildBasicHeaders_eq, hoffered]
    exact ⟨_, rfl⟩

/-- Past the policies no call fails open, and none is marked. -/
theorem unmarked_of_routeAnswer (hlimit : 0 ≤ g.config.maxEnrichmentHeaderBytes)
    (h : routeAnswer g request entry violations = .ok a) :
    a.outcome.failsOpen = false ∧ ¬ MarkedFailOpen a.enrichmentHeaders := by
  have habsent : ∀ headers, buildEnrichmentHeaders g.config request entry violations = .ok headers →
      "X-ACI-Fail-Open" ∉ headers.keys := by
    intro headers hheaders
    obtain ⟨offered, hoffered, rfl⟩ := buildEnrichmentHeaders_ok_iff.1 hheaders
    exact not_mem_keys_enforce hlimit hoffered (by decide)
  rcases routeAnswer_cases h with ⟨-, rfl⟩ | ⟨headers, hheaders, hexit⟩
  · exact ⟨rfl, not_marked_of_not_mem List.not_mem_nil⟩
  · rcases hexit with ⟨outcome, -, hfails, rfl⟩ | ⟨altModel, -, -, rfl⟩
    · exact ⟨hfails, not_marked_of_not_mem (habsent headers hheaders)⟩
    · refine ⟨rfl, not_marked_of_not_mem fun hmem => habsent headers hheaders ?_⟩
      exact (mem_keys_addIntervention hmem).resolve_left (by decide)

/-- The index has the entry, but answers after a second. -/
def lateEnv : CallEnv :=
  { InterceptRun.servedEnv with monotonic := fun tick => if tick = .lookup then 1 else 0 }

/-- With the default settings the headers of the same timeout fit. -/
theorem timeoutBytes_late : ∀ entry reason tenant text,
    TimesOut false {} lateEnv InterceptRun.servedRequest entry reason →
    InterceptRun.servedRequest.resolveTenantId = .ok tenant →
    InterceptRun.servedRequest.metaStr "price_snapshot_id" = .ok text →
    (timeoutBytes .default InterceptRun.servedRequest entry (PyText.strip text) : Int) ≤ 4096 := by
  intro entry reason tenant text hlate _ htext
  have hsnapshot : InterceptRun.servedRequest.metaStr "price_snapshot_id" = .ok "" := by
    decide +kernel
  obtain rfl : "" = text := Except.ok.inj (hsnapshot.symm.trans htext)
  have hlookup : lateEnv.lookup "svc" = .ok (some entry) := by
    cases hlate with
    | lookup hits =>
      obtain ⟨w, -, -, hlookup⟩ := hits.found
      exact hlookup
    | policies hits =>
      obtain ⟨w, -, -, hlookup⟩ := hits.found
      exact hlookup
  obtain rfl : InterceptRun.servedEntry = entry := Option.some.inj (Except.ok.inj hlookup)
  decide +kernel

end ComputeIntelligence
