import ComputeIntelligence.EngineCache
import ComputeIntelligence.GuardedRuns
import ComputeIntelligence.Interception
import ComputeIntelligence.NamingMatches
import ComputeIntelligence.Redelivery

/-! # The key that is written, and the key that is looked up

`_handle_inference` writes an entry under the workload of a result, which it asks for under the
first identifier of the event that is not empty.  `_resolve_workload_id` looks an entry up under
the first identifier of the request that is not blank, without the blanks around it.

A result may come from the cache of the engine, whose keys join the tenant and the workload with
a text that either may contain: a result of another workload may be kept under the key of this one
(`workloadOf`).  The two keys agree exactly when the identifiers are written alike and no such
result is kept (`lookup_finds_written_iff`).
-/
namespace PyText

/-- What stripping cuts off is blank. -/
theorem toList_strip (s : String) : ∃ left right, s.toList = left ++ (strip s).toList ++ right ∧
    (∀ c ∈ left, isSpace c = true) ∧ ∀ c ∈ right, isSpace c = true := by
  refine ⟨s.toList.takeWhile isSpace,
    ((s.toList.dropWhile isSpace).reverse.takeWhile isSpace).reverse, ?_, ?_, ?_⟩
  · unfold strip
    rw [String.toList_ofList, List.append_assoc, ← List.reverse_append,
      List.takeWhile_append_dropWhile, List.reverse_reverse, List.takeWhile_append_dropWhile]
  · exact fun c hc => List.all_eq_true.1 List.all_takeWhile c hc
  · exact fun c hc => List.all_eq_true.1 List.all_takeWhile c (List.mem_reverse.1 hc)

/-- A stripped text does not end in a blank. -/
theorem isSpace_of_getLast_strip {s : String} {c : Char} (h : (strip s).toList.getLast? = some c) :
    isSpace c = false := by
  unfold strip at h
  rw [String.toList_ofList, List.getLast?_reverse] at h
  obtain ⟨rest, hrest⟩ := List.head?_eq_some_iff.1 h
  have hne : (s.toList.dropWhile isSpace).reverse.dropWhile isSpace ≠ [] := by
    rw [hrest]
    exact List.cons_ne_nil c rest
  have hhead := List.head_dropWhile_not isSpace hne
  simp only [hrest, List.head_cons] at hhead
  exact hhead

theorem strip_length_le (s : String) : (strip s).toList.length ≤ s.toList.length := by
  obtain ⟨left, right, h, -, -⟩ := toList_strip s
  rw [h, List.length_append, List.length_append]
  omega

theorem strip_empty : strip "" = "" := rfl

/-- A text that strips to nothing is made of blanks. -/
theorem isSpace_of_strip_eq_empty {s : String} (h : strip s = "") :
    ∀ c ∈ s.toList, isSpace c = true := by
  obtain ⟨left, right, hs, hleft, hright⟩ := toList_strip s
  rw [h] at hs
  intro c hc
  rw [hs] at hc
  rcases List.mem_append.1 hc with hc | hc
  · rcases List.mem_append.1 hc with hc | hc
    · exact hleft c hc
    · exact absurd hc List.not_mem_nil
  · exact hright c hc

theorem strip_eq_empty_of_strip {s : String} (h : strip (strip s) = "") : strip s = "" := by
  cases hlast : (strip s).toList.getLast? with
  | none => exact String.toList_inj.1 (List.getLast?_eq_none_iff.1 hlast)
  | some c =>
    have hblank := isSpace_of_strip_eq_empty h c (List.mem_of_getLast? hlast)
    rw [isSpace_of_getLast_strip hlast] at hblank
    cases hblank

end PyText

namespace ComputeIntelligence
open PyText

/-! ### Texts behind a separator -/

/-- Two texts behind one separator that ends in `c`: they are equal, or the longer one ends in
`c` and the shorter. -/
theorem suffix_of_separated {c : Char} {p q xs ys : List Char}
    (h : p ++ c :: xs = q ++ c :: ys) :
    xs = ys ∨ (∃ left, xs = left ++ c :: ys) ∨ ∃ left, ys = left ++ c :: xs := by
  rcases List.append_eq_append_iff.1 h with ⟨left, -, hys⟩ | ⟨left, -, hxs⟩
  · cases left with
    | nil => exact .inl (List.cons.inj hys).2
    | cons d left => exact .inr (.inl ⟨left, (List.cons.inj hys).2⟩)
  · cases left with
    | nil => exact .inl (List.cons.inj hxs).2.symm
    | cons d left => exact .inr (.inr ⟨left, (List.cons.inj hxs).2⟩)

/-- A text that ends in `c` and a stripped text is not what strips to it, if `c` is no blank. -/
theorem not_strip_of_suffix {c : Char} (hc : isSpace c = false) {a b : String} {left : List Char}
    (ha : a.toList = left ++ c :: b.toList) : strip a ≠ b := by
  intro hb
  obtain ⟨before, after, hsplit, hbefore, hafter⟩ := toList_strip a
  rw [hb] at hsplit
  rcases List.eq_nil_or_concat after with rfl | ⟨rest, d, rfl⟩
  · -- nothing was cut off behind, so `c` was cut off in front
    rw [List.append_nil, ha, List.append_cons] at hsplit
    have hcut := List.append_cancel_right hsplit
    have hmem : c ∈ before := by
      rw [← hcut]
      exact List.mem_append_right _ (List.mem_singleton_self c)
    rw [hbefore c hmem] at hc
    cases hc
  · have hblank : isSpace d = true :=
      hafter d (by rw [List.concat_eq_append]; exact List.mem_concat_self)
    have hlast : a.toList.getLast? = some d := by
      rw [hsplit, List.concat_eq_append, ← List.append_assoc, List.getLast?_concat]
    rw [ha, List.getLast?_append_cons] at hlast
    cases hempty : b.toList with
    | nil =>
      rw [hempty, List.getLast?_singleton] at hlast
      rw [Option.some.inj hlast, hblank] at hc
      cases hc
    | cons e es =>
      rw [hempty, List.getLast?_cons_cons, ← hempty, ← hb] at hlast
      rw [isSpace_of_getLast_strip hlast] at hblank
      cases hblank

/-- The key separates the workload from the tenant by a text that ends in `:`.  If two workloads
share a key, one is asked for by the other's stripped name only if they are the same. -/
theorem eq_of_shared_key {mark tenant tenant' a b x : String} {rest : List Char}
    (hmark : mark.toList = rest ++ [':'])
    (h : tenant ++ mark ++ a = tenant' ++ mark ++ b) (hb : strip x = b) (hne : a ≠ "")
    (ha : strip a = b ∨ strip a = "") : a = b := by
  have hcolon : isSpace ':' = false := by decide
  have hlist : (tenant.toList ++ rest) ++ ':' :: a.toList =
      (tenant'.toList ++ rest) ++ ':' :: b.toList := by
    have htexts := congrArg String.toList h
    simp only [String.toList_append, hmark] at htexts
    simpa only [List.append_assoc, List.singleton_append] using htexts
  rcases suffix_of_separated hlist with heq | ⟨left, hleft⟩ | ⟨left, hleft⟩
  · exact String.toList_inj.1 heq
  · -- the workload of the event ends in a colon and the other one
    rcases ha with ha | ha
    · exact absurd ha (not_strip_of_suffix hcolon hleft)
    · have hmem : ':' ∈ a.toList := by
        rw [hleft]
        exact List.mem_append_right _ List.mem_cons_self
      rw [isSpace_of_strip_eq_empty ha ':' hmem] at hcolon
      cases hcolon
  · -- the other one is longer
    rcases ha with ha | ha
    · have hlength := strip_length_le a
      rw [ha, hleft, List.length_append, List.length_cons] at hlength
      omega
    · exfalso
      cases hlast : a.toList.getLast? with
      | none => exact hne (String.toList_inj.1 (List.getLast?_eq_none_iff.1 hlast))
      | some d =>
        have hblank := isSpace_of_strip_eq_empty ha d (List.mem_of_getLast? hlast)
        have hlast' : (strip x).toList.getLast? = some d := by
          rw [hb, hleft, List.getLast?_append_of_ne_nil _ (List.cons_ne_nil _ _),
            List.getLast?_cons, hlast]
          rfl
        rw [isSpace_of_getLast_strip hlast'] at hblank
        cases hblank

/-! ### What the processor writes -/

/-- A reckoning whose results name the workload they were asked for, as those of the engine do. -/
structure NamingReckoning extends Reckoning where
  names : ∀ graph e clock,
    (reconcile graph e clock).workloadId = AttributionProcessor.workloadId e

namespace AttributionProcessor

/-- The workload of the result that is in effect for an event: a fresh one that is kept under its
cache key, or a new one. -/
def workloadOf (env : Reckoning) (s : ProcessorState) (e : DomainEvent) (clock : HandlerClock) :
    String :=
  ((s.cache.getCached env.execution (cacheKey e) (clock.monotonic 0)).1.map
    AttributionResult.workloadId).getD (workloadId e)

/-- The entry that `_handle_inference` hands to the store, if it materializes the event. -/
def writtenEntry (env : Reckoning) (s : ProcessorState) (e : DomainEvent) (clock : HandlerClock) :
    Option AttributionIndexEntry :=
  let result := (resolve env s e clock).1
  if result.combinedConfidence.gt 0 then
    let result := calibrated env s.groundTruth result
    match collectPolicyContext s.policyEngine result with
    | .error _ => none
    | .ok policies => (IndexMaterializer.materializeAttribution env.confidence result policies
        clock.wall s.index).1.toOption
  else none

/-- It is the entry that is written to the index. -/
theorem index_handleInference (env : Reckoning) (s : ProcessorState) (e : DomainEvent)
    (clock : HandlerClock) :
    (handleInference env s e clock).index = match writtenEntry env s e clock with
      | some entry => s.index.1.materialize s.index.2 entry (clock.wall 2)
      | none => s.index := by
  show materializeResult env s (resolve env s e clock).1 clock = _
  unfold materializeResult writtenEntry
  generalize (resolve env s e clock).1 = result
  dsimp only
  split
  · generalize collectPolicyContext s.policyEngine (calibrated env s.groundTruth result) = context
    cases context with
    | error _ => rfl
    | ok policies =>
      dsimp only
      unfold IndexMaterializer.materializeAttribution
      generalize IndexMaterializer.buildEntry env.confidence (calibrated env s.groundTruth result)
        clock.wall = built
      cases built with
      | error _ => rfl
      | ok entry => rfl
  · rfl

theorem workloadId_materialized {config : ConfidenceConfig} {result : AttributionResult}
    {policies : PolicyContext} {clock : Nat → Instant} {index : IndexState}
    {entry : AttributionIndexEntry}
    (h : (IndexMaterializer.materializeAttribution config result policies clock index).1.toOption =
      some entry) : entry.workloadId = result.workloadId := by
  unfold IndexMaterializer.materializeAttribution IndexMaterializer.buildEntry at h
  cases hcheck : UnitScore.check result.combinedConfidence with
  | error _ =>
    rw [hcheck] at h
    cases h
  | ok confidence =>
    rw [hcheck] at h
    obtain rfl := Option.some.inj h
    split
    · rfl
    · rfl

theorem workloadId_resolve (env : NamingReckoning) (s : ProcessorState) (e : DomainEvent)
    (clock : HandlerClock) :
    (resolve env.toReckoning s e clock).1.workloadId = workloadOf env.toReckoning s e clock := by
  unfold resolve workloadOf
  rcases s.cache.getCached env.execution (cacheKey e) (clock.monotonic 0) with ⟨- | cached, cache⟩
  · exact env.names s.graph e clock
  · rfl

/-- The entry is written under the workload of the result in effect. -/
theorem workloadId_writtenEntry {env : NamingReckoning} {s : ProcessorState} {e : DomainEvent}
    {clock : HandlerClock} {entry : AttributionIndexEntry}
    (h : writtenEntry env.toReckoning s e clock = some entry) :
    entry.workloadId = workloadOf env.toReckoning s e clock := by
  rw [← workloadId_resolve]
  unfold writtenEntry at h
  dsimp only at h
  split at h
  · split at h
    · cases h
    · have hid := workloadId_materialized h
      exact hid
  · cases h

/-! ### What the cache holds -/

/-- The text between the tenant and the workload in a cache key. -/
def keyMark : String := ":inference_endpoint:"

theorem keyMark_toList : keyMark.toList = ":inference_endpoint".toList ++ [':'] := by decide

/-- Every result is kept under a key of its workload. -/
def KeptByName (s : ProcessorState) : Prop :=
  ∀ key (storedAt : Instant) result, s.cache.get? key = some (storedAt, result) →
    ∃ tenant, key = tenant ++ keyMark ++ result.workloadId

theorem KeptByName.process {env : NamingReckoning} {s : ProcessorState} (h : KeptByName s)
    (e : AcceptedEvent) (clock : HandlerClock) : KeptByName (process env.toReckoning s e clock) := by
  unfold AttributionProcessor.process
  split
  · have hanswer := resolve_eq_answer env.toReckoning s e.1 clock
    let c : TtlCache.Call String AttributionResult PyExn :=
      ⟨cacheKey e.1, .ok (env.reconcile s.graph e.1 clock), clock.monotonic 0, clock.monotonic 1⟩
    have hfresh : ∀ result, c.fresh = .ok result →
        ∃ tenant, c.key = tenant ++ keyMark ++ result.workloadId := by
      intro result hresult
      obtain rfl := Except.ok.inj hresult
      rw [env.names]
      exact ⟨e.1.tenantId, rfl⟩
    have hentries := @TtlCache.answer_entries _ _ _ _ (limits env.execution) _ c _ h hfresh
    rw [hanswer] at hentries
    exact hentries
  · exact h
  · exact h

theorem keptByName_exec (env : NamingReckoning) (s : ProcessorState)
    (run : List (AcceptedEvent × HandlerClock)) :
    KeptByName (Run.exec (fun s c => process env.toReckoning s c.1 c.2)
      { s with cache := PyDict.empty } run) :=
  Run.exec_invariant (I := KeptByName) (fun _ c h => h.process c.1 c.2)
    (fun _ _ _ hget => by cases hget) run

/-- The workload of a kept result shares its key with that of the event. -/
theorem workloadOf_shares {env : Reckoning} {s : ProcessorState} (hs : KeptByName s)
    (e : DomainEvent) (clock : HandlerClock) :
    ∃ tenant, e.tenantId ++ keyMark ++ workloadId e =
      tenant ++ keyMark ++ workloadOf env s e clock := by
  unfold workloadOf
  cases hcached : (s.cache.getCached env.execution (cacheKey e) (clock.monotonic 0)).1 with
  | none => exact ⟨e.tenantId, rfl⟩
  | some result =>
    unfold ResolveCache.getCached at hcached
    split at hcached
    · cases hcached
    · rename_i storedAt cached hget
      split at hcached
      · cases hcached
      · obtain rfl := Option.some.inj hcached
        exact hs _ _ _ hget

end AttributionProcessor

/-! ### What the interceptor looks up -/

/-- The first name that is not blank, without the blanks around it. -/
def firstName (names : List String) : String := ((names.map strip).find? (· ≠ "")).getD ""

theorem strip_firstName (names : List String) : ∃ x, strip x = firstName names := by
  unfold firstName
  cases hfound : (names.map strip).find? (· ≠ "") with
  | none => exact ⟨"", rfl⟩
  | some name =>
    obtain ⟨x, -, hx⟩ := List.mem_map.1 (List.mem_of_find?_eq_some hfound)
    exact ⟨x, hx⟩

theorem firstName_of_nonblank {name : String} (h : strip name ≠ "") (names : List String) :
    firstName (name :: names) = strip name := by
  unfold firstName
  rw [List.map_cons, List.find?_cons_of_pos (p := fun n => decide (n ≠ "")) (decide_eq_true h)]
  rfl

theorem firstName_of_blank {name : String} (h : strip name = "") (names : List String) :
    firstName (name :: names) = firstName names := by
  unfold firstName
  rw [List.map_cons, List.find?_cons_of_neg (by simp [h])]

theorem resolveWorkloadId_ok_iff {request : InterceptionRequest} {key : String} :
    request.resolveWorkloadId = .ok key ↔ ∃ text, request.metaStr "workload_id" = .ok text ∧
      firstName [request.workloadId, request.serviceName, request.apiKeyId, text] = key := by
  unfold InterceptionRequest.resolveWorkloadId
  cases htext : request.metaStr "workload_id" with
  | error e => exact iff_of_false (fun h => by cases h) fun ⟨_, h, _⟩ => by cases h
  | ok text =>
    constructor
    · intro h
      exact ⟨text, rfl, Except.ok.inj h⟩
    · rintro ⟨_, h, rfl⟩
      obtain rfl := Except.ok.inj h
      rfl

/-! ### When they agree -/

/-- The service name and the resource of an inference event. -/
def eventService (e : DomainEvent) : String := e.text "service_name" ""

def eventResource (e : DomainEvent) : String := e.text "cloud_resource_arn" ""

/-- A request for the workload of an event: it names the service of the event and no workload, or,
where the event has no service, the resource of the event as its workload. -/
inductive AsksFor (e : DomainEvent) (request : InterceptionRequest) : Prop
  | service (nonblank : strip (eventService e) ≠ "") (noWorkload : request.workloadId = "")
      (named : request.serviceName = eventService e)
  | resource (blank : strip (eventService e) = "") (named : request.workloadId = eventResource e)

/-- The event is written alike on both sides, and under its own name: `written` is the workload of
the result in effect, `text` what the metadata of the request name. -/
inductive WrittenAlike (e : DomainEvent) (request : InterceptionRequest) (written text : String) :
    Prop
  | service (nonblank : strip (eventService e) ≠ "")
      (stripped : strip (eventService e) = eventService e) (own : written = eventService e)
  | resource (noService : eventService e = "") (nonempty : eventResource e ≠ "")
      (stripped : strip (eventResource e) = eventResource e) (own : written = eventResource e)
  | subject (noService : eventService e = "") (noResource : eventResource e = "")
      (named : firstName [request.serviceName, request.apiKeyId, text] = written)

section
variable {e : DomainEvent} {request : InterceptionRequest} {tenant tenant' written text : String}

theorem workloadId_of_service (h : eventService e ≠ "") :
    AttributionProcessor.workloadId e = eventService e := by
  show ([eventService e, eventResource e].find? (· ≠ "")).getD e.subjectId = _
  rw [List.find?_cons_of_pos (p := fun n => decide (n ≠ "")) (decide_eq_true h)]
  rfl

theorem workloadId_of_resource (h : eventService e = "") (hne : eventResource e ≠ "") :
    AttributionProcessor.workloadId e = eventResource e := by
  show ([eventService e, eventResource e].find? (· ≠ "")).getD e.subjectId = _
  rw [List.find?_cons_of_neg (p := fun n => decide (n ≠ "")) (by simp [h]),
    List.find?_cons_of_pos (p := fun n => decide (n ≠ "")) (decide_eq_true hne)]
  rfl

/-- A workload of blanks is never looked up. -/
theorem firstName_ne_of_blank (hne : AttributionProcessor.workloadId e ≠ "")
    (hblank : strip (AttributionProcessor.workloadId e) = "")
    (hshared : tenant ++ AttributionProcessor.keyMark ++ AttributionProcessor.workloadId e =
      tenant' ++ AttributionProcessor.keyMark ++ written) (names : List String) :
    firstName names ≠ written := by
  intro h
  obtain ⟨x, hx⟩ := strip_firstName names
  have heq := eq_of_shared_key AttributionProcessor.keyMark_toList hshared (hx.trans h) hne (.inr hblank)
  rw [heq, ← hx.trans h] at hblank
  rw [heq, ← hx.trans h] at hne
  exact hne (strip_eq_empty_of_strip hblank)

/-- A workload that is not blank is looked up stripped. -/
theorem strip_eq_written_iff (hne : strip (AttributionProcessor.workloadId e) ≠ "")
    (hshared : tenant ++ AttributionProcessor.keyMark ++ AttributionProcessor.workloadId e =
      tenant' ++ AttributionProcessor.keyMark ++ written) :
    strip (AttributionProcessor.workloadId e) = written ↔
      strip (AttributionProcessor.workloadId e) = AttributionProcessor.workloadId e ∧
        written = AttributionProcessor.workloadId e := by
  constructor
  · intro h
    have hnonempty : AttributionProcessor.workloadId e ≠ "" := by
      intro hempty
      rw [hempty] at hne
      exact hne rfl
    have heq := eq_of_shared_key AttributionProcessor.keyMark_toList hshared h hnonempty (.inl h)
    exact ⟨h.trans heq.symm, heq.symm⟩
  · rintro ⟨hstripped, hown⟩
    rw [hstripped, hown]

/-- **The keys agree exactly when the identifiers are written alike.** -/
theorem firstName_eq_iff (hasks : AsksFor e request)
    (hshared : tenant ++ AttributionProcessor.keyMark ++ AttributionProcessor.workloadId e =
      tenant' ++ AttributionProcessor.keyMark ++ written) :
    firstName [request.workloadId, request.serviceName, request.apiKeyId, text] = written ↔
      WrittenAlike e request written text := by
  rcases hasks with ⟨nonblank, noWorkload, named⟩ | ⟨blank, named⟩
  · have hservice : eventService e ≠ "" := by
      intro hempty
      rw [hempty] at nonblank
      exact nonblank rfl
    have hid := workloadId_of_service hservice
    have hnonblank : strip (AttributionProcessor.workloadId e) ≠ "" := by
      rw [hid]
      exact nonblank
    have hiff := strip_eq_written_iff hnonblank hshared
    rw [hid] at hiff
    rw [noWorkload, firstName_of_blank strip_empty, named, firstName_of_nonblank nonblank, hiff]
    constructor
    · rintro ⟨hstripped, hown⟩
      exact .service nonblank hstripped hown
    · rintro (⟨-, hstripped, hown⟩ | ⟨hnone, -, -, -⟩ | ⟨hnone, -, -⟩)
      · exact ⟨hstripped, hown⟩
      · exact absurd hnone hservice
      · exact absurd hnone hservice
  · by_cases hservice : eventService e = ""
    · by_cases hresource : eventResource e = ""
      · rw [named, hresource, firstName_of_blank strip_empty]
        constructor
        · exact .subject hservice hresource
        · rintro (⟨hnonblank, -, -⟩ | ⟨-, hnonempty, -, -⟩ | ⟨-, -, h⟩)
          · exact absurd blank hnonblank
          · exact absurd hresource hnonempty
          · exact h
      · have hid := workloadId_of_resource hservice hresource
        by_cases hblank : strip (eventResource e) = ""
        · rw [← hid] at hblank
          have hne : AttributionProcessor.workloadId e ≠ "" := by
            rw [hid]
            exact hresource
          refine iff_of_false (firstName_ne_of_blank hne hblank hshared _) ?_
          rintro (⟨hnonblank, -, -⟩ | ⟨-, -, hstripped, -⟩ | ⟨-, hnone, -⟩)
          · exact absurd blank hnonblank
          · rw [← hid, hblank] at hstripped
            exact hne hstripped.symm
          · exact absurd hnone hresource
        · rw [named, firstName_of_nonblank hblank]
          have hnonblank : strip (AttributionProcessor.workloadId e) ≠ "" := by
            rw [hid]
            exact hblank
          have hiff := strip_eq_written_iff hnonblank hshared
          rw [hid] at hiff
          rw [hiff]
          constructor
          · rintro ⟨hstripped, hown⟩
            exact .resource hservice hresource hstripped hown
          · rintro (⟨hnonblank, -, -⟩ | ⟨-, -, hstripped, hown⟩ | ⟨-, hnone, -⟩)
            · exact absurd blank hnonblank
            · exact ⟨hstripped, hown⟩
            · exact absurd hnone hresource
    · -- a service name of blanks is not empty to the processor
      have hid := workloadId_of_service hservice
      have hne : AttributionProcessor.workloadId e ≠ "" := by
        rw [hid]
        exact hservice
      have hblank : strip (AttributionProcessor.workloadId e) = "" := by
        rw [hid]
        exact blank
      refine iff_of_false (firstName_ne_of_blank hne hblank hshared _) ?_
      rintro (⟨hnonblank, -, -⟩ | ⟨hnone, -, -, -⟩ | ⟨hnone, -, -⟩)
      · exact absurd blank hnonblank
      · exact absurd hnone hservice
      · exact absurd hnone hservice

end

open AttributionProcessor

/-- The processor after some events, from an engine with an empty cache. -/
def processed (env : Reckoning) (s : ProcessorState) (run : List (AcceptedEvent × HandlerClock)) :
    ProcessorState :=
  Run.exec (fun s c => process env s c.1 c.2) { s with cache := PyDict.empty } run

/-- **The interceptor looks up the key that was written** exactly when the name in the request's
metadata has a text, and the event is written alike on both sides and under its own name. -/
theorem lookup_finds_written_iff (env : NamingReckoning) (s : ProcessorState)
    (run : List (AcceptedEvent × HandlerClock)) (e : AcceptedEvent) (clock : HandlerClock)
    (request : InterceptionRequest) {entry : AttributionIndexEntry}
    (hwritten : writtenEntry env.toReckoning (processed env.toReckoning s run) e.1 clock =
      some entry) (hasks : AsksFor e.1 request) :
    request.resolveWorkloadId = .ok entry.workloadId ↔
      ∃ text, request.metaStr "workload_id" = .ok text ∧ WrittenAlike e.1 request
        (workloadOf env.toReckoning (processed env.toReckoning s run) e.1 clock) text := by
  obtain ⟨tenant, hshared⟩ :=
    @workloadOf_shares env.toReckoning _ (keptByName_exec env s run) e.1 clock
  rw [resolveWorkloadId_ok_iff, workloadId_writtenEntry hwritten]
  exact exists_congr fun text => and_congr_right fun _ => firstName_eq_iff hasks hshared

/-- An engine that is certain of one team. -/
def certain : NamingReckoning where
  reconcile := fun _ e _ =>
    { workloadId := workloadId e, combinedConfidence := .finite 1,
      explanation := some ⟨"team:a", "R1"⟩ }
  calibrate := fun _ _ raw => raw
  names := fun _ _ _ => rfl

/-- An inference of a service. -/
def inferenceOf (attributes : PyDict String PyVal) (h : payloadFits attributes = true) :
    DomainEvent where
  eventId := "i"
  eventType := .inferenceRequest
  subjectId := "i"
  attributes := ⟨attributes, h⟩
  eventTime := AwareDateTime.utc 0
  ingestTime := AwareDateTime.utc 0
  source := "sdk"
  idempotencyKey := "i"
  tenantId := "acme"

/-- The service is written with a blank in front. -/
def paddedInference : AcceptedEvent :=
  ⟨inferenceOf (PyDict.ofList [("model", .str "m"), ("provider", .str "p"),
    ("service_name", .str " svc")]) (by decide +kernel), ⟨rfl, by decide +kernel⟩⟩

def plainInference : AcceptedEvent :=
  ⟨inferenceOf (PyDict.ofList [("model", .str "m"), ("provider", .str "p"),
    ("service_name", .str "svc")]) (by decide +kernel), ⟨rfl, by decide +kernel⟩⟩

/-- A request that names the service as the event does. -/
def requestFor (serviceName : String) : InterceptionRequest where
  requestId := "r"
  model := "m"
  serviceName := serviceName

/-- The entry of the padded service is not the one that is looked up. -/
theorem padded_service_not_found :
    ¬ ∀ (env : NamingReckoning) (s : ProcessorState) (run : List (AcceptedEvent × HandlerClock))
      (e : AcceptedEvent) (clock : HandlerClock) (request : InterceptionRequest)
      (entry : AttributionIndexEntry),
      writtenEntry env.toReckoning (processed env.toReckoning s run) e.1 clock = some entry →
      AsksFor e.1 request → request.resolveWorkloadId = .ok entry.workloadId := by
  intro h
  have hkey : (writtenEntry certain.toReckoning (processed certain.toReckoning {} [])
      paddedInference.1 (stoppedAt 0)).map AttributionIndexEntry.workloadId = some " svc" := by
    decide +kernel
  obtain ⟨entry, hwritten, hid⟩ := Option.map_eq_some_iff.1 hkey
  have hasks : AsksFor paddedInference.1 (requestFor " svc") :=
    .service (by decide +kernel) rfl (by decide +kernel)
  have hfound := h certain {} [] paddedInference (stoppedAt 0) (requestFor " svc") entry hwritten
    hasks
  have hlooked : (requestFor " svc").resolveWorkloadId = .ok "svc" := by decide +kernel
  rw [hid, hlooked] at hfound
  exact absurd (Except.ok.inj hfound) (by decide)

/-- That of the plain one is. -/
theorem plain_service_found : ∃ entry,
    writtenEntry certain.toReckoning (processed certain.toReckoning {} []) plainInference.1
      (stoppedAt 0) = some entry ∧
    (requestFor "svc").resolveWorkloadId = .ok entry.workloadId := by
  have hkey : (writtenEntry certain.toReckoning (processed certain.toReckoning {} [])
      plainInference.1 (stoppedAt 0)).map AttributionIndexEntry.workloadId = some "svc" := by
    decide +kernel
  obtain ⟨entry, hwritten, -⟩ := Option.map_eq_some_iff.1 hkey
  have hasks : AsksFor plainInference.1 (requestFor "svc") :=
    .service (by decide +kernel) rfl (by decide +kernel)
  have halike : WrittenAlike plainInference.1 (requestFor "svc")
      (workloadOf certain.toReckoning (processed certain.toReckoning {} []) plainInference.1
        (stoppedAt 0)) "" :=
    .service (by decide +kernel) (by decide +kernel) (by decide +kernel)
  have htext : (requestFor "svc").metaStr "workload_id" = .ok "" := by decide +kernel
  exact ⟨entry, hwritten, (lookup_finds_written_iff certain {} [] plainInference (stoppedAt 0)
    (requestFor "svc") hwritten hasks).2 ⟨"", htext, halike⟩⟩

end ComputeIntelligence
