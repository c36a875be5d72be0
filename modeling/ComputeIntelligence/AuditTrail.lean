import ComputeIntelligence.Gateway

/-! # Which events a call hands to the publisher

Events leave the interceptor in four places.  A computation that makes no event of some
type leaves the events of that type as they were, however it ends: one rule for
`_publish_async_event`, and one line for every computation above it.
-/
namespace ComputeIntelligence
variable {β : Type}

/-- The events of a type that were handed to the publisher, oldest first. -/
def Interceptor.handedOf (t : EventType) (s : Interceptor β) : List DomainEvent :=
  s.handed.filter fun e => e.eventType = t

/-- However it ends, the computation hands over no event of the type. -/
def Omits {α : Type} (t : EventType) (x : InterceptM β α) : Prop :=
  Eff.Frames (Interceptor.handedOf t) x

variable {t : EventType} {g : Gateway} {env : CallEnv} {request : InterceptionRequest}
  {workloadId : String} {attribution : AttributionIndexEntry}

theorem count_omits (f : InterceptorTotals → InterceptorTotals) :
    Omits t (count f : InterceptM β Unit) :=
  Eff.frames_modify fun _ => rfl

theorem onCircuit_omits {α : Type} (op : Eff PyExn β α) : Omits t (onCircuit op) := fun _ => rfl

/-- A made event has the type it was made with. -/
theorem makeEvent_eventType {place : Emission} {eventType : EventType} {subjectId : String}
    {attributes : PyDict String PyVal} {idempotencyKey tenantId : String} {event : DomainEvent}
    (h : makeEvent env place eventType subjectId attributes idempotencyKey tenantId = some event) :
    event.eventType = eventType := by
  unfold makeEvent at h
  split at h
  · cases h
    rfl
  · cases h

theorem publishAsyncEvent_omits {place : Emission} {eventType : EventType} (hne : eventType ≠ t)
    {subjectId idempotencyKey tenantId : String} {attributes : PyDict String PyVal} :
    Omits t (publishAsyncEvent g env place eventType subjectId attributes idempotencyKey tenantId :
      InterceptM β Bool) := by
  refine Eff.frames_ite ?_ (Eff.frames_pure _)
  split
  · rename_i event hmade
    refine Eff.Frames.bind (Eff.frames_modify fun s => ?_) fun _ => Eff.frames_pure _
    have hother : decide (event.eventType = t) = false := by
      rw [makeEvent_eventType hmade]
      exact decide_eq_false hne
    simp [Interceptor.handedOf, List.filter_append, hother]
  · exact Eff.frames_pure _

theorem emitShadowEvent_omits {place : Emission} {eventType : EventType} (hne : eventType ≠ t)
    {requestId tenantId : String} {elapsedMs : ℚ} :
    Omits t (emitShadowEvent g env place eventType workloadId requestId elapsedMs tenantId :
      InterceptM β Bool) :=
  Eff.frames_ite (publishAsyncEvent_omits hne) (Eff.frames_pure _)

theorem emitPolicyEvaluationEvent_omits (hne : EventType.policyEvaluated ≠ t)
    {violations : List PolicyEvaluationResult} {elapsedMs : ℚ} {failOpen : Bool} :
    Omits t (emitPolicyEvaluationEvent g env request workloadId violations elapsedMs failOpen :
      InterceptM β Bool) :=
  (Eff.frames_lift _).bind fun _ => (Eff.frames_lift _).bind fun _ => publishAsyncEvent_omits hne

theorem shadowRefresh_omits : Omits t (shadowRefresh g env workloadId : InterceptM β Unit) :=
  Eff.frames_ite (Eff.frames_modify fun _ => rfl) (Eff.frames_pure _)

theorem metrics_omits (ops : CircuitOps β) (pass : MetricsPass) :
    Omits t (recordObservabilityMetrics ops pass) :=
  (onCircuit_omits _).bind fun _ => (Eff.frames_lift _).bind fun _ => Eff.frames_pure _

theorem emitFailure_omits (hne : EventType.shadowInterceptTimeout ≠ t) :
    Omits t (failOpenResult.emitFailure g env request workloadId : InterceptM β Bool) :=
  Eff.frames_ite (Eff.frames_pure _)
    ((Eff.frames_lift _).bind fun _ => emitShadowEvent_omits hne)

end ComputeIntelligence
