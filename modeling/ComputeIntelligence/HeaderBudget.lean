import ComputeIntelligence.RedirectTargets

/-! # The header budget

`_enforce_header_budget` clamps every value and, when the headers are too large together, keeps
the longest row of important headers that fits (`trimHeaders_items`) and adds a marker.  The
marker is not counted, and neither are the three headers of a redirect, which are added
afterwards.  So an answer is within the budget exactly when its headers `HaveRoom` for what is
added (`withinBudget_iff`).
-/
namespace ComputeIntelligence

/-! ### Sizes -/

/-- The size of headers in the order of a dictionary. -/
def bytes (items : List (String × String)) : Nat :=
  (items.map fun h => h.1.length + h.2.length + 4).sum

theorem estimateHeaderBytes_eq (headers : PyDict String String) :
    estimateHeaderBytes headers = bytes headers.items := rfl

@[simp] theorem bytes_append (xs ys : List (String × String)) :
    bytes (xs ++ ys) = bytes xs + bytes ys := by
  unfold bytes
  rw [List.map_append, List.sum_append]

theorem bytes_mono {xs ys : List (String × String)} (h : xs <+: ys) :
    bytes xs ≤ bytes ys := by
  obtain ⟨zs, rfl⟩ := h
  rw [bytes_append]
  exact Nat.le_add_right _ _

/-- The headers with their values cut. -/
def clampHeaders (config : InterceptorConfig) (headers : PyDict String String) :
    PyDict String String :=
  PyDict.ofList (headers.items.map fun h =>
    (h.1, PyText.sliceTo config.maxHeaderValueLength h.2))

/-- The headers that `keys` name, in their order. -/
def picked (headers : PyDict String String) (keys : List String) : List (String × String) :=
  keys.filterMap fun key => (headers.get? key).map (key, ·)

variable {config : InterceptorConfig} {headers acc : PyDict String String}
  {maxBytes : Int} {keys : List String}

theorem items_set_of_not_mem {κ ν : Type} [DecidableEq κ] {d : PyDict κ ν} {k : κ}
    (h : k ∉ d.keys) (v : ν) : (d.set k v).items = d.items ++ [(k, v)] :=
  PyDict.put_of_not_mem v h

theorem erase_set_of_not_mem {κ ν : Type} [DecidableEq κ] {d : PyDict κ ν} {k : κ}
    (h : k ∉ d.keys) (v : ν) : (d.set k v).erase k = d := by
  apply PyDict.ext_items
  show PyDict.without k (d.set k v).items = d.items
  rw [items_set_of_not_mem h]
  unfold PyDict.without
  rw [List.filter_append, List.filter_cons_of_neg (by simp), List.filter_nil, List.append_nil,
    List.filter_eq_self]
  intro x hx
  rw [decide_eq_true_eq]
  rintro rfl
  exact h (List.mem_map_of_mem hx)

theorem picked_cons_of_none {key : String} (h : headers.get? key = none) (keys : List String) :
    picked headers (key :: keys) = picked headers keys :=
  List.filterMap_cons_none (by rw [h]; rfl)

theorem picked_cons_of_some {key value : String} (h : headers.get? key = some value)
    (keys : List String) : picked headers (key :: keys) = (key, value) :: picked headers keys :=
  List.filterMap_cons_some (by rw [h]; rfl)

theorem picked_take_mono (headers : PyDict String String) (keys : List String) {n m : Nat}
    (h : n ≤ m) :
    picked headers (keys.take n) <+: picked headers (keys.take m) :=
  List.IsPrefix.filterMap _ (List.take_prefix_take_left h)

/-- **The loop keeps the longest row that fits.** -/
theorem trimHeaders_items (clamped : PyDict String String) (hkeys : keys.Nodup)
    (hacc : ∀ k ∈ keys, k ∉ acc.keys)
    (hfits : (bytes acc.items : Int) ≤ maxBytes) :
    ∃ n ≤ keys.length,
      (trimHeaders clamped maxBytes keys acc).items =
        acc.items ++ picked clamped (keys.take n) ∧
      (bytes (acc.items ++ picked clamped (keys.take n)) : Int) ≤ maxBytes ∧
      (n < keys.length →
        maxBytes < (bytes (acc.items ++ picked clamped (keys.take (n + 1))) : Int)) := by
  induction keys generalizing acc with
  | nil => exact ⟨0, le_rfl, by simp [trimHeaders, picked], by simpa [picked] using hfits, nofun⟩
  | cons key keys ih =>
    obtain ⟨hkey, hkeys⟩ := List.nodup_cons.1 hkeys
    have hfresh := hacc key List.mem_cons_self
    unfold trimHeaders
    cases hvalue : clamped.get? key with
    | none =>
      -- a header that is not there costs nothing
      obtain ⟨n, hn, hitems, hsize, hnext⟩ :=
        ih hkeys (fun k hk => hacc k (List.mem_cons_of_mem key hk)) hfits
      dsimp only
      rw [estimateHeaderBytes_eq, if_neg (not_lt.2 hfits)]
      refine ⟨n + 1, Nat.succ_le_succ hn, ?_, ?_, fun hlt => ?_⟩
      · rw [List.take_succ_cons, picked_cons_of_none hvalue]
        exact hitems
      · rw [List.take_succ_cons, picked_cons_of_none hvalue]
        exact hsize
      · rw [List.take_succ_cons, picked_cons_of_none hvalue]
        exact hnext (Nat.lt_of_succ_lt_succ hlt)
    | some value =>
      have hadded : (acc.set key value).items = acc.items ++ [(key, value)] :=
        items_set_of_not_mem hfresh value
      have hpick : ∀ n, acc.items ++ picked clamped ((key :: keys).take (n + 1)) =
          (acc.set key value).items ++ picked clamped (keys.take n) := by
        intro n
        rw [List.take_succ_cons, picked_cons_of_some hvalue, hadded, List.append_assoc]
        rfl
      dsimp only
      split
      · -- the first header that does not fit ends the row
        rename_i hover
        refine ⟨0, Nat.zero_le _, ?_, ?_, fun _ => ?_⟩
        · rw [erase_set_of_not_mem hfresh]
          exact (List.append_nil _).symm
        · rw [List.take_zero]
          simpa [picked] using hfits
        · rw [hpick 0, List.take_zero]
          simpa [picked, estimateHeaderBytes_eq] using hover
      · rename_i hroom
        have hacc' : ∀ k ∈ keys, k ∉ (acc.set key value).keys := by
          intro k hk hmem
          rw [PyDict.keys, hadded, List.map_append, List.mem_append] at hmem
          rcases hmem with hmem | hmem
          · exact hacc k (List.mem_cons_of_mem key hk) hmem
          · rw [List.mem_singleton.1 hmem] at hk
            exact hkey hk
        obtain ⟨n, hn, hitems, hsize, hnext⟩ := ih hkeys hacc' (not_lt.1 hroom)
        refine ⟨n + 1, Nat.succ_le_succ hn, ?_, ?_, fun hlt => ?_⟩
        · rw [hpick n]
          exact hitems
        · rw [hpick n]
          exact hsize
        · rw [hpick (n + 1)]
          exact hnext (Nat.lt_of_succ_lt_succ hlt)

/-! ### The enforcement -/

/-- The name of the marker. -/
def budgetMarker : String := "X-ACI-Header-Budget-Applied"

/-- Enforcing leaves room for `extra` more bytes: the clamped headers fit with them, or every row
of important headers that fits does so with them and the marker. -/
def HasRoom (config : InterceptorConfig) (headers : PyDict String String) (extra : Nat) : Prop :=
  let limit := config.maxEnrichmentHeaderBytes
  let clamped := clampHeaders config headers
  if (estimateHeaderBytes clamped : Int) ≤ limit then
    (estimateHeaderBytes clamped : Int) + extra ≤ limit
  else ∀ n, (bytes (picked clamped (headerPriority.take n)) : Int) ≤ limit →
    (bytes (picked clamped (headerPriority.take n)) : Int) + 32 + extra ≤ limit

theorem hasRoom_of_fits {extra : Nat}
    (h : (estimateHeaderBytes (clampHeaders config headers) : Int) + extra ≤
      config.maxEnrichmentHeaderBytes) : HasRoom config headers extra := by
  have hfits : (estimateHeaderBytes (clampHeaders config headers) : Int) ≤
      config.maxEnrichmentHeaderBytes := by
    omega
  unfold HasRoom
  dsimp only
  rw [if_pos hfits]
  exact h

/-- What is sent when the headers do not fit. -/
structure Trimmed (config : InterceptorConfig) (headers : PyDict String String) (n : Nat) :
    Prop where
  items : (enforceHeaderBudget config headers).items =
    picked (clampHeaders config headers) (headerPriority.take n) ++ [(budgetMarker, "1")]
  fits : (bytes (picked (clampHeaders config headers) (headerPriority.take n)) : Int) ≤
    config.maxEnrichmentHeaderBytes
  next : n < headerPriority.length → config.maxEnrichmentHeaderBytes <
    (bytes (picked (clampHeaders config headers) (headerPriority.take (n + 1))) : Int)
  atMost : n ≤ headerPriority.length

theorem mem_picked {x : String × String} :
    x ∈ picked headers keys ↔ x.1 ∈ keys ∧ x ∈ headers.items := by
  unfold picked
  rw [List.mem_filterMap]
  constructor
  · rintro ⟨key, hkey, hsome⟩
    obtain ⟨value, hvalue, rfl⟩ := Option.map_eq_some_iff.1 hsome
    exact ⟨hkey, PyDict.mem_of_find hvalue⟩
  · rintro ⟨hkey, hmem⟩
    refine ⟨x.1, hkey, ?_⟩
    rw [PyDict.get?_of_mem hmem]
    rfl

theorem mem_keys_picked {k : String} (h : k ∈ (picked headers keys).map Prod.fst) : k ∈ keys := by
  obtain ⟨x, hx, rfl⟩ := List.mem_map.1 h
  exact (mem_picked.1 hx).1

theorem enforce_of_fits
    (h : (estimateHeaderBytes (clampHeaders config headers) : Int) ≤
      config.maxEnrichmentHeaderBytes) :
    enforceHeaderBudget config headers = clampHeaders config headers :=
  if_pos h

theorem exists_trimmed (hlimit : 0 ≤ config.maxEnrichmentHeaderBytes)
    (h : ¬ (estimateHeaderBytes (clampHeaders config headers) : Int) ≤
      config.maxEnrichmentHeaderBytes) : ∃ n, Trimmed config headers n := by
  have hnodup : headerPriority.Nodup := by decide
  have habsent : ∀ k ∈ headerPriority, k ∉ (PyDict.empty : PyDict String String).keys :=
    fun _ _ => List.not_mem_nil
  obtain ⟨n, hn, hitems, hfits, hnext⟩ :=
    trimHeaders_items (clampHeaders config headers) hnodup habsent hlimit
  have henforce : enforceHeaderBudget config headers =
      (trimHeaders (clampHeaders config headers) config.maxEnrichmentHeaderBytes headerPriority
        PyDict.empty).set budgetMarker "1" := if_neg h
  have hfresh : budgetMarker ∉ (trimHeaders (clampHeaders config headers)
      config.maxEnrichmentHeaderBytes headerPriority PyDict.empty).keys := by
    intro hmem
    rw [PyDict.keys, hitems] at hmem
    have hmem' := List.mem_of_mem_take (mem_keys_picked hmem)
    exact absurd hmem' (by decide)
  refine ⟨n, ?_, hfits, hnext, hn⟩
  rw [henforce, items_set_of_not_mem hfresh, hitems]
  rfl

theorem Trimmed.bytes_eq {n : Nat} (h : Trimmed config headers n) :
    estimateHeaderBytes (enforceHeaderBudget config headers) =
      bytes (picked (clampHeaders config headers) (headerPriority.take n)) + 32 := by
  rw [estimateHeaderBytes_eq, h.items, bytes_append]
  rfl

/-- The size of what is sent, with `extra` bytes more. -/
theorem enforce_fits_iff (hlimit : 0 ≤ config.maxEnrichmentHeaderBytes) (extra : Nat) :
    (estimateHeaderBytes (enforceHeaderBudget config headers) : Int) + extra ≤
      config.maxEnrichmentHeaderBytes ↔ HasRoom config headers extra := by
  unfold HasRoom
  dsimp only
  split
  · rename_i hfits
    rw [enforce_of_fits hfits]
  · rename_i hover
    obtain ⟨n, htrim⟩ := exists_trimmed hlimit hover
    rw [htrim.bytes_eq]
    constructor
    · intro hroom m hm
      -- a row that fits is no longer than the row that is kept
      have hmn : bytes (picked (clampHeaders config headers) (headerPriority.take m)) ≤
          bytes (picked (clampHeaders config headers) (headerPriority.take n)) := by
        by_cases hle : m ≤ n
        · exact bytes_mono (picked_take_mono _ _ hle)
        · by_cases hlast : n < headerPriority.length
          · have hnext := htrim.next hlast
            have hsucc : n + 1 ≤ m := not_le.1 hle
            have hlonger := bytes_mono
              (picked_take_mono (clampHeaders config headers) headerPriority hsucc)
            omega
          · rw [List.take_of_length_le (not_lt.1 hlast),
              List.take_of_length_le ((not_lt.1 hlast).trans (not_le.1 hle).le)]
      omega
    · intro hroom
      have hn := hroom n htrim.fits
      omega

theorem length_sliceTo_le {limit : Int} (h : 0 ≤ limit) (s : String) :
    ((PyText.sliceTo limit s).length : Int) ≤ limit := by
  unfold PyText.sliceTo PyText.take
  rw [if_pos h, String.length_ofList, List.length_take]
  omega

theorem items_clampHeaders (config : InterceptorConfig) (headers : PyDict String String) :
    (clampHeaders config headers).items = headers.items.map fun h =>
      (h.1, PyText.sliceTo config.maxHeaderValueLength h.2) := by
  apply PyDict.items_ofList
  rw [List.map_map]
  exact headers.nodup

/-- Every value that is sent is cut. -/
theorem values_enforce (hlimit : 0 ≤ config.maxEnrichmentHeaderBytes)
    (hlength : 1 ≤ config.maxHeaderValueLength) :
    ∀ h ∈ (enforceHeaderBudget config headers).items,
      (h.2.length : Int) ≤ config.maxHeaderValueLength := by
  have hclamped : ∀ h ∈ (clampHeaders config headers).items,
      (h.2.length : Int) ≤ config.maxHeaderValueLength := by
    intro h hh
    rw [items_clampHeaders] at hh
    obtain ⟨x, -, rfl⟩ := List.mem_map.1 hh
    exact length_sliceTo_le (by omega) _
  by_cases hfits : (estimateHeaderBytes (clampHeaders config headers) : Int) ≤
      config.maxEnrichmentHeaderBytes
  · rw [enforce_of_fits hfits]
    exact hclamped
  · obtain ⟨n, htrim⟩ := exists_trimmed hlimit hfits
    intro h hh
    rw [htrim.items, List.mem_append] at hh
    rcases hh with hh | hh
    · exact hclamped h (mem_picked.1 hh).2
    · rw [List.mem_singleton.1 hh]
      exact hlength

/-- Every header that is sent is one of those that were built, or the marker. -/
theorem keys_enforce (hlimit : 0 ≤ config.maxEnrichmentHeaderBytes) {k : String}
    (hk : k ∈ (enforceHeaderBudget config headers).keys) : k ∈ headers.keys ∨ k = budgetMarker := by
  have hclamped : ∀ {k}, k ∈ (clampHeaders config headers).keys → k ∈ headers.keys := by
    intro k hk
    rw [PyDict.keys, items_clampHeaders, List.map_map] at hk
    exact hk
  by_cases hfits : (estimateHeaderBytes (clampHeaders config headers) : Int) ≤
      config.maxEnrichmentHeaderBytes
  · rw [enforce_of_fits hfits] at hk
    exact .inl (hclamped hk)
  · obtain ⟨n, htrim⟩ := exists_trimmed hlimit hfits
    rw [PyDict.keys, htrim.items, List.map_append, List.mem_append] at hk
    rcases hk with hk | hk
    · obtain ⟨x, hx, rfl⟩ := List.mem_map.1 hk
      exact .inl (hclamped (PyDict.mem_keys_of_mem (mem_picked.1 hx).2))
    · exact .inr (List.mem_singleton.1 hk)

/-! ### What is built -/

/-- The headers that `_build_basic_headers` hands to the enforcement. -/
def basicOffer (request : InterceptionRequest) (attribution : AttributionIndexEntry)
    (failOpenReason : Option FailOpenReason) : Except PyExn (PyDict String String) := do
  let headers ← addPriceSnapshot request (PyDict.ofList
    [("X-ACI-Est-Cost-USD", request.estimatedCostUsd.format 6),
     ("X-ACI-Attribution-Confidence", PyFloat.formatFixed 2 attribution.confidence.1)])
  .ok (match failOpenReason with
    | some reason => (buildFailOpenHeaders reason).items.foldl (fun d h => d.set h.1 h.2) headers
    | none => headers)

/-- The headers that every entry gets in `_build_enrichment_headers`. -/
def coreHeaders (request : InterceptionRequest) (attribution : AttributionIndexEntry)
    (advisoryCode : String) : List (String × String) :=
  let ownerId := ([attribution.teamId, attribution.personId].find? (· ≠ "")).getD
    attribution.teamName
  [("X-ACI-Est-Cost-USD", request.estimatedCostUsd.format 6),
   ("X-ACI-Attribution-Owner-Id", ownerId),
   ("X-ACI-Attribution-Confidence", PyFloat.formatFixed 2 attribution.confidence.1),
   ("X-ACI-Attribution-Reason", mapAttributionReason attribution.methodUsed),
   ("X-ACI-Model", request.model),
   ("X-ACI-Advisory", if advisoryCode ≠ "" then "true" else "false")]

/-- The headers that depend on the entry and on the violations. -/
def optionalHeaders (attribution : AttributionIndexEntry)
    (violations : List PolicyEvaluationResult) (advisory : String × String) :
    List (String × String) :=
  (if advisory.1 ≠ "" then
    [("X-ACI-Advisory-Code", advisory.1), ("X-ACI-Advisory-Detail", advisory.2)] else []) ++
  (if attribution.teamName ≠ "" then [("X-ACI-Team-Name", attribution.teamName)] else []) ++
  ((budgetRemainingPct attribution).map (("X-ACI-Budget-Remaining-Pct", ·))).toList ++
  (if attribution.approvedAlternatives ≠ [] then
    [("X-ACI-Alternative-Models", PyText.join "," attribution.approvedAlternatives)] else []) ++
  ((confidenceFlag attribution).map (("X-ACI-Confidence-Flag", ·))).toList ++
  (if violations ≠ [] then [("X-ACI-Policy-Violations", toString violations.length)] else [])

/-- The headers that `_build_enrichment_headers` hands to the enforcement. -/
def enrichmentOffer (request : InterceptionRequest) (attribution : AttributionIndexEntry)
    (violations : List PolicyEvaluationResult) : Except PyExn (PyDict String String) := do
  let advisory := buildAdvisory request attribution violations
  let headers ← addPriceSnapshot request
    (PyDict.ofList (coreHeaders request attribution advisory.1))
  .ok ((optionalHeaders attribution violations advisory).foldl (fun d h => d.set h.1 h.2) headers)

theorem buildBasicHeaders_eq (config : InterceptorConfig) (request : InterceptionRequest)
    (entry : AttributionIndexEntry) (failOpenReason : Option FailOpenReason) :
    buildBasicHeaders config request entry failOpenReason =
      (basicOffer request entry failOpenReason).map (enforceHeaderBudget config) := by
  unfold buildBasicHeaders basicOffer
  dsimp only
  cases addPriceSnapshot request _ with
  | error e => rfl
  | ok headers => rfl

theorem buildEnrichmentHeaders_eq (config : InterceptorConfig) (request : InterceptionRequest)
    (entry : AttributionIndexEntry) (violations : List PolicyEvaluationResult) :
    buildEnrichmentHeaders config request entry violations =
      (enrichmentOffer request entry violations).map (enforceHeaderBudget config) := by
  unfold buildEnrichmentHeaders enrichmentOffer coreHeaders
  dsimp only
  cases addPriceSnapshot request _ with
  | error e => rfl
  | ok headers => rfl

/-- The headers that are built are those that are offered, enforced. -/
theorem buildEnrichmentHeaders_ok_iff {config : InterceptorConfig} {request : InterceptionRequest}
    {entry : AttributionIndexEntry} {violations : List PolicyEvaluationResult}
    {headers : PyDict String String} :
    buildEnrichmentHeaders config request entry violations = .ok headers ↔
      ∃ offered, enrichmentOffer request entry violations = .ok offered ∧
        enforceHeaderBudget config offered = headers := by
  rw [buildEnrichmentHeaders_eq]
  cases enrichmentOffer request entry violations with
  | error e =>
    constructor
    · intro h
      cases h
    · rintro ⟨_, h, -⟩
      cases h
  | ok offered =>
    constructor
    · intro h
      exact ⟨offered, rfl, Except.ok.inj h⟩
    · rintro ⟨_, hoffered, rfl⟩
      rw [Except.ok.inj hoffered]
      rfl

theorem mem_keys_set {d : PyDict String String} {k k' v : String} (h : k' ∈ (d.set k v).keys) :
    k' = k ∨ k' ∈ d.keys := by
  rw [PyDict.mem_keys_iff, PyDict.get?_set] at h
  rw [PyDict.mem_keys_iff]
  split at h
  · rename_i heq
    exact .inl heq
  · exact .inr h

theorem mem_keys_foldl_set {xs : List (String × String)} {d : PyDict String String} {k : String}
    (h : k ∈ (xs.foldl (fun d h => d.set h.1 h.2) d).keys) :
    k ∈ d.keys ∨ k ∈ xs.map Prod.fst := by
  induction xs generalizing d with
  | nil => exact .inl h
  | cons x xs ih =>
    rcases ih h with hk | hk
    · rcases mem_keys_set hk with rfl | hk
      · exact .inr List.mem_cons_self
      · exact .inl hk
    · exact .inr (List.mem_cons_of_mem _ hk)

theorem mem_keys_addPriceSnapshot {request : InterceptionRequest}
    {headers headers' : PyDict String String} (h : addPriceSnapshot request headers = .ok headers')
    {k : String} (hk : k ∈ headers'.keys) : k = "X-ACI-Price-Snapshot-Id" ∨ k ∈ headers.keys := by
  unfold addPriceSnapshot at h
  obtain ⟨text, -, h⟩ := Except.bind_eq_ok h
  have hheaders := Except.ok.inj h
  split at hheaders
  · rw [← hheaders] at hk
    exact .inr hk
  · rw [← hheaders] at hk
    exact mem_keys_set hk

/-- The names of the enrichment headers. -/
def enrichmentKeys : List String :=
  ["X-ACI-Est-Cost-USD", "X-ACI-Attribution-Owner-Id", "X-ACI-Attribution-Confidence",
    "X-ACI-Attribution-Reason", "X-ACI-Model", "X-ACI-Advisory", "X-ACI-Price-Snapshot-Id",
    "X-ACI-Advisory-Code", "X-ACI-Advisory-Detail", "X-ACI-Team-Name",
    "X-ACI-Budget-Remaining-Pct", "X-ACI-Alternative-Models", "X-ACI-Confidence-Flag",
    "X-ACI-Policy-Violations"]

variable {request : InterceptionRequest} {entry : AttributionIndexEntry}
  {violations : List PolicyEvaluationResult} {offered : PyDict String String}

theorem keys_optionalHeaders (entry : AttributionIndexEntry)
    (violations : List PolicyEvaluationResult) (advisory : String × String) :
    ∀ k ∈ (optionalHeaders entry violations advisory).map Prod.fst, k ∈ enrichmentKeys := by
  have hnil : ∀ k ∈ ([] : List (String × String)).map Prod.fst, k ∈ enrichmentKeys := by simp
  unfold optionalHeaders
  simp only [List.map_append, List.forall_mem_append]
  refine ⟨⟨⟨⟨⟨?_, ?_⟩, ?_⟩, ?_⟩, ?_⟩, ?_⟩
  · split
    · simp [enrichmentKeys]
    · exact hnil
  · split
    · simp [enrichmentKeys]
    · exact hnil
  · cases budgetRemainingPct entry with
    | none => exact hnil
    | some pct => simp [enrichmentKeys]
  · split
    · simp [enrichmentKeys]
    · exact hnil
  · cases confidenceFlag entry with
    | none => exact hnil
    | some flag => simp [enrichmentKeys]
  · split
    · simp [enrichmentKeys]
    · exact hnil

theorem keys_enrichmentOffer (h : enrichmentOffer request entry violations = .ok offered) :
    ∀ k ∈ offered.keys, k ∈ enrichmentKeys := by
  intro k hk
  unfold enrichmentOffer at h
  obtain ⟨headers, hheaders, h⟩ := Except.bind_eq_ok h
  obtain rfl := Except.ok.inj h
  rcases mem_keys_foldl_set hk with hk | hk
  · rcases mem_keys_addPriceSnapshot hheaders hk with rfl | hk
    · decide
    · rcases mem_keys_foldl_set hk with hk | hk
      · exact (List.not_mem_nil hk).elim
      · have hcore : (coreHeaders request entry (buildAdvisory request entry violations).1).map
            Prod.fst ⊆ enrichmentKeys := by simp [coreHeaders, enrichmentKeys]
        exact hcore hk
  · exact keys_optionalHeaders _ _ _ k hk

/-! ### What a redirect adds -/

/-- The description of a redirect. -/
def interventionDelta (request : InterceptionRequest) (altModel : String) : String :=
  PyText.take 512 ("\x7bmodel:" ++ request.model ++ "->" ++ altModel ++ "\x7d")

/-- The names of the headers of a redirect. -/
def interventionKeys : List String :=
  ["X-ACI-Intervention-Applied", "X-ACI-Intervention-Type", "X-ACI-Intervention-Delta"]

/-- A redirect adds these names and no others. -/
theorem mem_keys_addIntervention {headers : PyDict String String} {altModel k : String}
    (hmem : k ∈ (addIntervention request altModel headers).keys) :
    k ∈ interventionKeys ∨ k ∈ headers.keys := by
  unfold addIntervention at hmem
  rcases mem_keys_set hmem with rfl | hmem
  · exact .inl (by decide)
  · rcases mem_keys_set hmem with rfl | hmem
    · exact .inl (by decide)
    · rcases mem_keys_set hmem with rfl | hmem
      · exact .inl (by decide)
      · exact .inr hmem

theorem items_addIntervention {headers : PyDict String String}
    (habsent : ∀ k ∈ interventionKeys, k ∉ headers.keys) (altModel : String) :
    (addIntervention request altModel headers).items = headers.items ++
      [("X-ACI-Intervention-Applied", "true"), ("X-ACI-Intervention-Type", "MODEL_ROUTE"),
        ("X-ACI-Intervention-Delta", interventionDelta request altModel)] := by
  have happlied := items_set_of_not_mem
    (habsent "X-ACI-Intervention-Applied" (by decide)) "true"
  have htype : "X-ACI-Intervention-Type" ∉
      (headers.set "X-ACI-Intervention-Applied" "true").keys := fun hmem =>
    (mem_keys_set hmem).elim (absurd · (by decide)) (habsent _ (by decide))
  have hdelta : "X-ACI-Intervention-Delta" ∉ ((headers.set "X-ACI-Intervention-Applied" "true").set
      "X-ACI-Intervention-Type" "MODEL_ROUTE").keys := by
    intro hmem
    rcases mem_keys_set hmem with heq | hmem
    · exact absurd heq (by decide)
    · rcases mem_keys_set hmem with heq | hmem
      · exact absurd heq (by decide)
      · exact habsent _ (by decide) hmem
  unfold addIntervention
  rw [items_set_of_not_mem hdelta, items_set_of_not_mem htype, happlied]
  simp only [List.append_assoc, List.cons_append, List.nil_append]
  rfl

theorem bytes_addIntervention {headers : PyDict String String}
    (habsent : ∀ k ∈ interventionKeys, k ∉ headers.keys) (altModel : String) :
    estimateHeaderBytes (addIntervention request altModel headers) =
      estimateHeaderBytes headers + (100 + (interventionDelta request altModel).length) := by
  rw [estimateHeaderBytes_eq, items_addIntervention habsent, bytes_append,
    estimateHeaderBytes_eq]
  generalize interventionDelta request altModel = delta
  unfold bytes
  rw [List.map_cons, List.map_cons, List.map_singleton, List.sum_cons, List.sum_cons,
    List.sum_singleton]
  have hkeys : "X-ACI-Intervention-Applied".length = 26 ∧ "true".length = 4 ∧
      "X-ACI-Intervention-Type".length = 23 ∧ "MODEL_ROUTE".length = 11 ∧
      "X-ACI-Intervention-Delta".length = 24 := by decide
  dsimp only
  omega

/-! ### The exits -/

/-- The headers respect both settings. -/
def WithinBudget (config : InterceptorConfig) (headers : PyDict String String) : Prop :=
  (estimateHeaderBytes headers : Int) ≤ config.maxEnrichmentHeaderBytes ∧
    ∀ h ∈ headers.items, (h.2.length : Int) ≤ config.maxHeaderValueLength

instance : Decidable (WithinBudget config headers) :=
  inferInstanceAs (Decidable (_ ∧ ∀ h ∈ headers.items, _))

/-- The mode-dependent step builds headers. -/
def Serves (g : Gateway) (request : InterceptionRequest) (entry : AttributionIndexEntry) : Prop :=
  g.mode = .advisory ∨ (g.mode = .active ∧ ∃ down, downgraded g request entry = .ok down)

/-- On every exit the call can take, the headers have room for what is added to them: the marker,
and the three headers of a redirect. -/
structure HaveRoom (refused : Bool) (g : Gateway) (env : CallEnv) (request : InterceptionRequest) :
    Prop where
  timedOut : ∀ entry reason tenant offered, TimesOut refused g env request entry reason →
    request.resolveTenantId = .ok tenant → basicOffer request entry (some reason) = .ok offered →
    HasRoom g.config offered 0
  served : ∀ entry violations offered, Evaluated refused g env request entry violations →
    Serves g request entry → ¬ Reroutes g request entry violations →
    enrichmentOffer request entry violations = .ok offered → HasRoom g.config offered 0
  redirected : ∀ entry violations offered altModel,
    Evaluated refused g env request entry violations → Reroutes g request entry violations →
    entry.approvedAlternatives.head? = some altModel →
    enrichmentOffer request entry violations = .ok offered →
    HasRoom g.config offered (100 + (interventionDelta request altModel).length) ∧
      ((interventionDelta request altModel).length : Int) ≤ g.config.maxHeaderValueLength

variable {refused : Bool} {g : Gateway} {env : CallEnv} {a : Answer} {reason : FailOpenReason}

theorem withinBudget_failOpen (hbytes : 128 ≤ config.maxEnrichmentHeaderBytes)
    (hlength : 32 ≤ config.maxHeaderValueLength) (reason : FailOpenReason) :
    WithinBudget config (buildFailOpenHeaders reason) := by
  have hsize : estimateHeaderBytes (buildFailOpenHeaders reason) ≤ 128 ∧
      ∀ h ∈ (buildFailOpenHeaders reason).items, h.2.length ≤ 32 := by
    cases reason <;> decide
  refine ⟨by omega, fun h hh => ?_⟩
  have hvalue := hsize.2 h hh
  omega

theorem withinBudget_empty (hbytes : 128 ≤ config.maxEnrichmentHeaderBytes) :
    WithinBudget config PyDict.empty := by
  refine ⟨?_, fun h hh => (List.not_mem_nil hh).elim⟩
  show (0 : Int) ≤ _
  omega

theorem withinBudget_enforce_iff (hbytes : 128 ≤ config.maxEnrichmentHeaderBytes)
    (hlength : 32 ≤ config.maxHeaderValueLength) :
    WithinBudget config (enforceHeaderBudget config headers) ↔ HasRoom config headers 0 := by
  have hlimit : 0 ≤ config.maxEnrichmentHeaderBytes := by omega
  rw [← enforce_fits_iff hlimit 0]
  constructor
  · intro h
    have hsize := h.1
    omega
  · intro h
    exact ⟨by omega, values_enforce hlimit (by omega)⟩

theorem not_mem_keys_enforce (hlimit : 0 ≤ config.maxEnrichmentHeaderBytes)
    (hoffered : enrichmentOffer request entry violations = .ok offered) {k : String}
    (hk : k ∉ enrichmentKeys ∧ k ≠ budgetMarker) :
    k ∉ (enforceHeaderBudget config offered).keys := by
  intro hmem
  rcases keys_enforce hlimit hmem with hkey | hmarker
  · exact hk.1 (keys_enrichmentOffer hoffered k hkey)
  · exact hk.2 hmarker

theorem withinBudget_redirect_iff (hbytes : 128 ≤ config.maxEnrichmentHeaderBytes)
    (hlength : 32 ≤ config.maxHeaderValueLength)
    (hoffered : enrichmentOffer request entry violations = .ok offered) (altModel : String) :
    WithinBudget config
        (addIntervention request altModel (enforceHeaderBudget config offered)) ↔
      HasRoom config offered (100 + (interventionDelta request altModel).length) ∧
        ((interventionDelta request altModel).length : Int) ≤ config.maxHeaderValueLength := by
  have hlimit : 0 ≤ config.maxEnrichmentHeaderBytes := by omega
  have hdisjoint : ∀ k ∈ interventionKeys, k ∉ enrichmentKeys ∧ k ≠ budgetMarker := by decide
  have habsent : ∀ k ∈ interventionKeys, k ∉ (enforceHeaderBudget config offered).keys :=
    fun k hk => not_mem_keys_enforce hlimit hoffered (hdisjoint k hk)
  rw [← enforce_fits_iff hlimit]
  unfold WithinBudget
  rw [bytes_addIntervention habsent, items_addIntervention habsent]
  generalize interventionDelta request altModel = delta
  constructor
  · rintro ⟨hsize, hvalues⟩
    refine ⟨by omega, hvalues ("X-ACI-Intervention-Delta", delta) ?_⟩
    simp
  · rintro ⟨hsize, hdelta⟩
    refine ⟨by omega, fun h hh => ?_⟩
    rcases List.mem_append.1 hh with hh | hh
    · exact values_enforce hlimit (by omega) h hh
    · simp only [List.mem_cons, List.not_mem_nil, or_false] at hh
      have hlengths : "true".length = 4 ∧ "MODEL_ROUTE".length = 11 := by decide
      rcases hh with rfl | rfl | rfl
      · dsimp only
        omega
      · dsimp only
        omega
      · exact hdelta

theorem serves_of_routeAnswer (h : routeAnswer g request entry violations = .ok a) :
    (g.mode = .passive ∧ a = servedAnswer .passthrough entry violations PyDict.empty) ∨
      Serves g request entry := by
  unfold routeAnswer at h
  cases hmode : g.mode with
  | passive =>
    rw [hmode] at h
    exact .inl ⟨rfl, (Except.ok.inj h).symm⟩
  | advisory => exact .inr (.inl hmode)
  | active =>
    rw [hmode] at h
    obtain ⟨down, hdown, -⟩ := Except.bind_eq_ok h
    exact .inr (.inr ⟨hmode, down, hdown⟩)

/-- Where the mode-dependent step builds headers and does not redirect, it sends them. -/
theorem Serves.routeAnswer_eq (h : Serves g request entry)
    (hcontext : request.interventionContext = .ok ()) (hnot : ¬ Reroutes g request entry violations)
    {headers : PyDict String String}
    (hheaders : buildEnrichmentHeaders g.config request entry violations = .ok headers) :
    ∃ outcome, routeAnswer g request entry violations =
      .ok (servedAnswer outcome entry violations headers) := by
  have hadvise : adviseAnswer g request entry violations =
      .ok (servedAnswer (advisoryOutcome violations) entry violations headers) := by
    unfold adviseAnswer
    rw [hheaders]
    rfl
  have hserve : serveActiveAnswer request entry violations headers =
      .ok (servedAnswer (advisoryOutcome violations) entry violations headers) := by
    unfold serveActiveAnswer
    rw [hcontext]
    split
    · rfl
    · rfl
  unfold routeAnswer
  rcases h with hmode | ⟨hmode, down, hdown⟩
  · rw [hmode]
    exact ⟨_, hadvise⟩
  · rw [hmode]
    show ∃ outcome, (downgraded g request entry >>= _) = _
    rw [hdown]
    cases down with
    | true => exact ⟨_, hadvise⟩
    | false =>
      show ∃ outcome, activeAnswer g request entry violations = _
      unfold activeAnswer
      rw [hheaders]
      show ∃ outcome, (if violations.any isHardStop = true ∧ _ then _ else _) = _
      by_cases hstop : violations.any isHardStop = true ∧
          g.config.activeLiteGateMinConfidence ≤ entry.confidence.1
      · rw [if_pos hstop, hcontext]
        exact ⟨_, rfl⟩
      · rw [if_neg hstop]
        cases halt : entry.approvedAlternatives with
        | nil => exact ⟨_, hserve⟩
        | cons altModel rest =>
          have hsome : entry.approvedAlternatives ≠ [] := by
            rw [halt]
            exact List.cons_ne_nil _ _
          dsimp only
          by_cases hforeign : request.model ∉ altModel :: rest
          · exact absurd ⟨hmode, hdown, hstop, hsome, halt ▸ hforeign⟩ hnot
          · rw [if_neg hforeign]
            exact ⟨_, hserve⟩

/-- Of an answer, the headers have room on the exit that was taken. -/
theorem HaveRoom.withinBudget (h : HaveRoom refused g env request)
    (hbytes : 128 ≤ g.config.maxEnrichmentHeaderBytes)
    (hlength : 32 ≤ g.config.maxHeaderValueLength)
    (ha : interceptAnswer refused g env request = .ok a) :
    WithinBudget g.config a.enrichmentHeaders := by
  rcases interceptAnswer_cases ha with hearly | ⟨entry, reason, hlate, ha⟩ |
    ⟨entry, violations, hev, ha⟩
  · rcases hearly with rfl | ⟨outcome, reason, -, rfl⟩
    · exact withinBudget_empty hbytes
    · exact withinBudget_failOpen hbytes hlength reason
  · unfold timeoutAnswer at ha
    obtain ⟨tenant, htenant, ha⟩ := Except.bind_eq_ok ha
    rw [buildBasicHeaders_eq] at ha
    cases hoffered : basicOffer request entry (some reason) with
    | error e =>
      rw [hoffered] at ha
      cases ha
    | ok offered =>
      rw [hoffered] at ha
      cases ha
      exact (withinBudget_enforce_iff hbytes hlength).2
        (h.timedOut entry reason tenant offered hlate htenant hoffered)
  · rcases serves_of_routeAnswer ha with ⟨-, rfl⟩ | hserves
    · exact withinBudget_empty hbytes
    · rcases routeAnswer_cases ha with ⟨-, rfl⟩ | ⟨headers, hheaders, hexit⟩
      · exact withinBudget_empty hbytes
      · -- a redirect adds its headers after the enforcement, the others add nothing
        obtain ⟨offered, hoffered, rfl⟩ := buildEnrichmentHeaders_ok_iff.1 hheaders
        rcases hexit with ⟨outcome, hne, -, rfl⟩ | ⟨altModel, hreroutes, halt, rfl⟩
        · have hnot : ¬ Reroutes g request entry violations := by
            intro hreroutes
            have halt := List.head?_eq_some_head hreroutes.approved
            rw [hreroutes.routeAnswer_eq hev.interventionContext hheaders halt] at ha
            exact hne (congrArg Answer.outcome (Except.ok.inj ha)).symm
          exact (withinBudget_enforce_iff hbytes hlength).2
            (h.served entry violations offered hev hserves hnot hoffered)
        · exact (withinBudget_redirect_iff hbytes hlength hoffered altModel).2
            (h.redirected entry violations offered altModel hev hreroutes halt hoffered)

/-- A budget that the marker exceeds. -/
def tightBudget : Gateway :=
  { config := { InterceptorConfig.default with maxEnrichmentHeaderBytes := 128 } }

/-- A limit that the description of a redirect exceeds. -/
def shortValues : Gateway :=
  { mode := .active,
    config := { InterceptorConfig.default with maxHeaderValueLength := 32 } }

/-- The index answers with an entry that approves a model with a long name. -/
def longAlternativeEnv : CallEnv :=
  let entry := { InterceptRun.servedEntry with
    approvedAlternatives := ["small-model-of-the-same-family"] }
  { InterceptRun.servedEnv with lookup := fun _ => .ok (some entry) }

/-- A redirect describes itself. -/
theorem delta_of_redirect {altModel : String} (h : interceptAnswer refused g env request = .ok a)
    (hout : a.outcome = .redirected) (hmodel : a.redirectModel = some altModel) :
    ("X-ACI-Intervention-Delta", interventionDelta request altModel) ∈
      a.enrichmentHeaders.items := by
  obtain ⟨entry, violations, hredirects, -, halt⟩ := redirects_of_answer h hout
  obtain ⟨headers, altModel', halt', hanswer⟩ := hredirects.answer_eq
  obtain rfl : altModel = altModel' :=
    Option.some.inj (hmodel.symm.trans (halt.trans halt'))
  obtain rfl : a = reroutedAnswer request entry violations headers altModel :=
    Except.ok.inj (h.symm.trans hanswer)
  apply PyDict.mem_of_find
  exact (PyDict.get?_set _ _ _ _).trans (if_pos rfl)

/-- With the default settings the headers of the served request have room. -/
theorem haveRoom_served : HaveRoom false {} InterceptRun.servedEnv InterceptRun.servedRequest := by
  refine ⟨?_, ?_, ?_⟩
  · intro entry reason _ _ hlate
    have hintime : InterceptRun.servedEnv.lookupTimedOut InterceptorConfig.default = false ∧
        InterceptRun.servedEnv.policyTimedOut InterceptorConfig.default = false := by
      decide +kernel
    cases hlate with
    | lookup _ late =>
      rw [hintime.1] at late
      cases late
    | policies _ _ _ late =>
      rw [hintime.2] at late
      cases late
  · intro entry violations offered hev _ _ hoffered
    obtain ⟨w, -, -, hlookup⟩ := hev.hits.found
    obtain rfl : InterceptRun.servedEntry = entry := Option.some.inj (Except.ok.inj hlookup)
    obtain rfl : [] = violations :=
      Except.ok.inj (InterceptRun.served_policies.symm.trans hev.evaluated)
    have hsmall : (enrichmentOffer InterceptRun.servedRequest InterceptRun.servedEntry
        []).toOption.all (fun offered =>
          estimateHeaderBytes (clampHeaders InterceptorConfig.default offered) ≤ 4096) = true := by
      decide +kernel
    rw [hoffered] at hsmall
    have hbytes : estimateHeaderBytes (clampHeaders InterceptorConfig.default offered) ≤ 4096 :=
      of_decide_eq_true hsmall
    have hfits : (estimateHeaderBytes (clampHeaders InterceptorConfig.default offered) : Int) + 0 ≤
        4096 := by
      omega
    exact hasRoom_of_fits hfits
  · rintro _ _ _ _ _ ⟨hactive, -⟩
    cases hactive

end ComputeIntelligence
