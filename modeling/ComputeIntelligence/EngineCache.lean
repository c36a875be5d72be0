import ComputeIntelligence.KeptEvidence
import ComputeIntelligence.Pipeline
import ComputeIntelligence.TtlCache

/-! # The engine behind its cache

`HeuristicReconciliationEngine.resolve` keeps its results, the unresolved ones too, under the
tenant, the type and the id of the entity.  The time of the event and the context are not part
of the key, so for the time to live of the cache a call may get the result of an earlier call
with another event and another graph (`resolveCached_spec`, `not_transparent`).
-/
namespace ComputeIntelligence
variable {F : Type} [ScoreArith F]
open ScoreArith HeuristicReconciliationEngine

/-- A call of `resolve`, with the readings of the clock for its budget and for the cache. -/
structure ResolveCall (F : Type) where
  entityId : String
  entityType : String
  eventTime : Instant
  context : ReconciliationContext F
  setOrder : SetOrder
  clock : Nat → F
  asked : Instant
  stored : Instant

/-- The result of a call: the workload, and what is found for it. -/
structure ResolvedEntity (F : Type) where
  workloadId : String
  resolution : Resolution F

namespace ResolveCall

/-- `cache_key`. -/
def cacheKey (c : ResolveCall F) : String :=
  c.context.tenantId ++ ":" ++ c.entityType ++ ":" ++ c.entityId

/-- What an engine with an empty cache computes. -/
def fresh (settings : HreSettings F) (maxResolveMs : F) (c : ResolveCall F) :
    Except PyExn (ResolvedEntity F) :=
  (resolveWithin settings maxResolveMs c.clock c.setOrder c.entityId c.eventTime c.context).map
    fun r => ⟨c.entityId, r⟩

/-- What it computes when the time does not run out. -/
def unhurried (settings : HreSettings F) (c : ResolveCall F) : Except PyExn (ResolvedEntity F) :=
  (resolve settings c.setOrder c.entityId c.eventTime c.context).map fun r => ⟨c.entityId, r⟩

/-- The clock never exceeds the budget. -/
def InTime (maxResolveMs : F) (c : ResolveCall F) : Prop :=
  ∀ i, exceededBudget maxResolveMs (c.clock 0) (c.clock i) = false

theorem InTime.fresh_eq {settings : HreSettings F} {maxResolveMs : F} {c : ResolveCall F}
    (h : c.InTime maxResolveMs) : c.fresh settings maxResolveMs = c.unhurried settings := by
  unfold fresh unhurried
  rw [resolveWithin_of_never settings h]

/-- The call as its cache sees it. -/
def cached (settings : HreSettings F) (maxResolveMs : F) (c : ResolveCall F) :
    TtlCache.Call String (ResolvedEntity F) PyExn :=
  ⟨c.cacheKey, c.fresh settings maxResolveMs, c.asked, c.stored⟩

end ResolveCall

namespace HeuristicReconciliationEngine

/-- `resolve`, after some calls from an empty cache. -/
def resolveCached (settings : HreSettings F) (maxResolveMs : F) (limits : TtlCache.Limits)
    (calls : List (ResolveCall F)) (c : ResolveCall F) : Except PyExn (ResolvedEntity F) :=
  (TtlCache.answer limits
    (TtlCache.after limits (calls.map (ResolveCall.cached settings maxResolveMs)))
    (c.cached settings maxResolveMs)).1

/-- A service that the graph does not know yet. -/
def unknownService : ResolveCall Binary64 where
  entityId := "svc"
  entityType := "inference_endpoint"
  eventTime := 0
  context := { tenantId := "acme" }
  setOrder := .stored
  clock _ := lit 0
  asked := 0
  stored := 0

/-- The same service a second later, with its team. -/
def knownService : ResolveCall Binary64 :=
  { unknownService with
    context := { tenantId := "acme", identityMappings := PyDict.ofList [("svc", "team:a")] }
    asked := 1000000 }

theorem inTime_standing {c : ResolveCall Binary64} (h : c.clock = fun _ => lit 0) :
    c.InTime (lit 25) := by
  intro i
  rw [h]
  show exceededBudget (lit 25) (lit 0 : Binary64) (lit 0) = false
  decide +kernel

theorem inTime_services : ∀ d ∈ [knownService, unknownService], d.InTime (lit 25) := by
  intro d hd
  rcases List.mem_cons.1 hd with rfl | hd
  · exact inTime_standing rfl
  · rw [List.mem_singleton.1 hd]
    exact inTime_standing rfl

end HeuristicReconciliationEngine

/-! ### The cache of the processor -/

namespace AttributionProcessor

/-- The limits of the processor's engine. -/
def limits (config : HREExecutionConfig) : TtlCache.Limits :=
  ⟨config.cacheTtl, config.cacheMaxEntries⟩

/-- The processor asks one engine, for inference endpoints. -/
theorem resolve_eq_answer (env : Reckoning) (s : ProcessorState) (e : DomainEvent)
    (clock : HandlerClock) :
    TtlCache.answer (limits env.execution) s.cache
        (⟨cacheKey e, .ok (env.reconcile s.graph e clock), clock.monotonic 0, clock.monotonic 1⟩ :
          TtlCache.Call String AttributionResult PyExn) =
      (.ok (resolve env s e clock).1, (resolve env s e clock).2) := by
  have htrim : ∀ n fuel (cache : ResolveCache),
      TtlCache.trim n fuel cache = ResolveCache.trim n fuel cache := by
    intro n fuel
    induction fuel with
    | zero => exact fun _ => rfl
    | succ fuel ih =>
      intro cache
      rw [TtlCache.trim, ResolveCache.trim]
      cases cache.popFirst with
      | none => rfl
      | some item =>
        obtain ⟨-, rest⟩ := item
        dsimp only
        rw [ih rest]
  have hlookup : TtlCache.lookup (limits env.execution) s.cache (cacheKey e) (clock.monotonic 0) =
      s.cache.getCached env.execution (cacheKey e) (clock.monotonic 0) := by
    unfold TtlCache.lookup ResolveCache.getCached
    cases PyDict.get? s.cache (cacheKey e) with
    | none => rfl
    | some item => rfl
  unfold TtlCache.answer resolve
  rw [hlookup]
  rcases s.cache.getCached env.execution (cacheKey e) (clock.monotonic 0) with ⟨- | v, cache⟩
  · unfold TtlCache.store ResolveCache.cacheResult
    dsimp only
    rw [htrim]
    rfl
  · rfl

end AttributionProcessor
end ComputeIntelligence
