import ComputeIntelligence.Backfill
import ComputeIntelligence.Processor

/-! # The whole processor

`AttributionProcessor` (`core/processor.py`) with everything its five handlers write:
the graph, the result cache of the reconciliation engine (`hre/engine.py`), the ground
truth of the calibration engine (`confidence/calibration.py`), and the attribution index.

What the handlers compute without writing anything is a parameter (`Reckoning`): the
part of `resolve` behind the cache, which reads the graph, the event and the clocks, and
`calibrate`, whose curves are refitted from the labels held.  The results about the
processor hold for every such function.
-/
namespace ComputeIntelligence

/-- A label for calibration (`models/confidence.py`). -/
structure GroundTruthLabel where
  attributionId : String
  trueTeamId : String
  trueCostCenterId : String
  source : String
  predictedTeamId : String
  predictedConfidence : PyFloat
  methodUsed : String
  wasCorrect : Bool
  createdAt : Instant
deriving DecidableEq

/-- The labels held, by method. -/
abbrev GroundTruth := PyDict String (List GroundTruthLabel)

/-- The cached results of the reconciliation engine, with the monotonic time of each. -/
abbrev ResolveCache := PyDict String (Instant × AttributionResult)

/-- The cache settings of `HREExecutionConfig`, the time to live in microseconds. -/
structure HREExecutionConfig where
  cacheTtl : Instant := 30000000
  cacheMaxEntries : Nat := 10000
deriving DecidableEq

/-- The clocks of one handler call, by the place of the reading. -/
structure HandlerClock where
  wall : Readings
  monotonic : Readings

/-- What the processor computes without writing anything, and its settings. -/
structure Reckoning where
  /-- `_build_context` and `resolve` behind the cache. -/
  reconcile : InMemoryGraphStore → DomainEvent → HandlerClock → AttributionResult
  /-- `calibrate`: the labels held, a method, a raw confidence. -/
  calibrate : GroundTruth → String → PyFloat → PyFloat
  execution : HREExecutionConfig := {}
  confidence : ConfidenceConfig := {}

/-- Everything the handlers read and write. -/
structure ProcessorState where
  graph : InMemoryGraphStore := {}
  cache : ResolveCache := PyDict.empty
  groundTruth : GroundTruth := PyDict.empty
  index : IndexState := ({}, PyDict.empty)
  policyEngine : PolicyEngine := {}

/-! ## The result cache -/

namespace ResolveCache

/-- `_get_cached`: a result that is still fresh; a stale one is dropped. -/
def getCached (config : HREExecutionConfig) (cache : ResolveCache) (key : String) (now : Instant) :
    Option AttributionResult × ResolveCache :=
  match cache.get? key with
  | none => (none, cache)
  | some (cachedAt, result) =>
      if config.cacheTtl < now - cachedAt then (none, cache.erase key)
      else (some result, cache.moveToEnd key)

/-- The loop of `_cache_result` that drops the oldest results. -/
def trim (maxEntries : Nat) : Nat → ResolveCache → ResolveCache
  | 0, cache => cache
  | fuel + 1, cache =>
      if maxEntries < cache.size then
        match cache.popFirst with
        | none => cache
        | some (_, rest) => trim maxEntries fuel rest
      else cache

/-- `_cache_result`. -/
def cacheResult (config : HREExecutionConfig) (cache : ResolveCache) (key : String)
    (result : AttributionResult) (now : Instant) : ResolveCache :=
  let cache := cache.setLast key (now, result)
  trim config.cacheMaxEntries cache.size cache

/-- The cached result of a key is the given one, if it has one at all. -/
def Remembers (cache : ResolveCache) (key : String) (result : AttributionResult) : Prop :=
  ∀ item, cache.get? key = some item → item.2 = result

theorem Remembers.trim {cache : ResolveCache} {key : String} {result : AttributionResult}
    (h : cache.Remembers key result) (maxEntries fuel : Nat) :
    (ResolveCache.trim maxEntries fuel cache).Remembers key result := by
  induction fuel generalizing cache with
  | zero => exact h
  | succ fuel ih =>
    unfold ResolveCache.trim
    split
    · split
      · exact h
      · rename_i _ x rest hpop
        refine ih fun item hitem => ?_
        rw [PyDict.get?_popFirst hpop] at hitem
        split at hitem
        · cases hitem
        · exact h item hitem
    · exact h

end ResolveCache

/-! ## The handlers -/

namespace AttributionProcessor

/-- The workload of an inference event. -/
def workloadId (e : DomainEvent) : String :=
  ([e.text "service_name" "", e.text "cloud_resource_arn" ""].find? (· ≠ "")).getD e.subjectId

/-- The cache key of an inference event. -/
def cacheKey (e : DomainEvent) : String := e.tenantId ++ ":inference_endpoint:" ++ workloadId e

/-- `resolve`: a fresh cached result, or a new one, which is cached. -/
def resolve (env : Reckoning) (s : ProcessorState) (e : DomainEvent) (clock : HandlerClock) :
    AttributionResult × ResolveCache :=
  match s.cache.getCached env.execution (cacheKey e) (clock.monotonic 0) with
  | (some cached, cache) => (cached, cache)
  | (none, cache) =>
      let result := env.reconcile s.graph e clock
      (result, cache.cacheResult env.execution (cacheKey e) result (clock.monotonic 1))

/-- The method whose curve calibrates a result: the first of a combination. -/
def primaryMethod (result : AttributionResult) : String :=
  let method := (result.explanation.map ExplanationArtifact.methodUsed).getD "unknown"
  String.ofList (method.toList.takeWhile (· ≠ '+'))

/-- The result with its calibrated confidence. -/
def calibrated (env : Reckoning) (labels : GroundTruth) (result : AttributionResult) :
    AttributionResult :=
  { result with
    combinedConfidence := env.calibrate labels (primaryMethod result) result.combinedConfidence }

/-- The part of `_handle_inference` behind `resolve`: calibrate, collect the policies,
materialize.  A step that raises ends the handler before the index is written. -/
def materializeResult (env : Reckoning) (s : ProcessorState) (result : AttributionResult)
    (clock : HandlerClock) : IndexState :=
  if result.combinedConfidence.gt 0 then
    let result := calibrated env s.groundTruth result
    match collectPolicyContext s.policyEngine result with
    | .error _ => s.index
    | .ok policies =>
        (IndexMaterializer.materializeAttribution env.confidence result policies clock.wall
          s.index).2
  else s.index

/-- `_handle_inference`. -/
def handleInference (env : Reckoning) (s : ProcessorState) (e : DomainEvent)
    (clock : HandlerClock) : ProcessorState :=
  let (result, cache) := resolve env s e clock
  { s with cache, index := materializeResult env s result clock }

/-- The label of a correction. -/
def correctionLabel (e : DomainEvent) (now : Instant) : GroundTruthLabel where
  attributionId := e.text "attribution_id" ""
  trueTeamId := e.text "true_team_id" ""
  trueCostCenterId := e.text "true_cost_center_id" ""
  source := "user_correction"
  predictedTeamId := e.text "predicted_team_id" ""
  predictedConfidence := match e.attrs.get? "predicted_confidence" with
    | some (.float x) => x
    | some (.int i) => PyFloat.ofRat i
    | _ => .finite 0
  methodUsed := e.text "method_used" ""
  wasCorrect := match e.attrs.get? "was_correct" with
    | some (.bool b) => b
    | _ => false
  createdAt := now

/-- `add_ground_truth`.  The refit it may trigger is part of `calibrate`. -/
def addGroundTruth (labels : GroundTruth) (label : GroundTruthLabel) : GroundTruth :=
  labels.set label.methodUsed (labels.getD label.methodUsed [] ++ [label])

/-- `_handle_correction`. -/
def handleCorrection (s : ProcessorState) (e : DomainEvent) (clock : HandlerClock) :
    ProcessorState :=
  { s with groundTruth := addGroundTruth s.groundTruth (correctionLabel e (clock.wall 0)) }

/-- The processor after the handler of the event's type, if it has one, has run. -/
def process (env : Reckoning) (s : ProcessorState) (e : AcceptedEvent) (clock : HandlerClock) :
    ProcessorState :=
  match e.1.eventType with
  | .inferenceRequest => handleInference env s e.1 clock
  | .attributionCorrection => handleCorrection s e.1 clock
  | _ => { s with graph := handle s.graph e clock.wall }

/-! ## What the handlers keep -/

/-- The indices of the graph describe its edges, and the attribution index is not
larger than it may be. -/
structure Valid (s : ProcessorState) : Prop where
  graph : s.graph.WellIndexed
  fits : s.index.1.index.size ≤ s.index.1.settings.maxEntries

/-- **`resolve` remembers its answer**, unless the cache is too small for it. -/
theorem resolve_remembers (env : Reckoning) (s : ProcessorState) (e : DomainEvent)
    (clock : HandlerClock) :
    (resolve env s e clock).2.Remembers (cacheKey e) (resolve env s e clock).1 := by
  have hstored : ∀ (cache : ResolveCache) result now,
      (cache.cacheResult env.execution (cacheKey e) result now).Remembers (cacheKey e) result := by
    intro cache result now
    refine ResolveCache.Remembers.trim (fun item hitem => ?_) _ _
    rw [PyDict.get?_setLast, if_pos rfl] at hitem
    cases hitem
    rfl
  unfold resolve ResolveCache.getCached
  cases hget : s.cache.get? (cacheKey e) with
  | none => exact hstored _ _ _
  | some item =>
    obtain ⟨cachedAt, result⟩ := item
    dsimp only
    split
    · rename_i hmatch
      split at hmatch
      · cases hmatch
      · cases hmatch
        intro item hitem
        rw [PyDict.get?_moveToEnd, hget] at hitem
        cases hitem
        rfl
    · exact hstored _ _ _

end AttributionProcessor
end ComputeIntelligence
