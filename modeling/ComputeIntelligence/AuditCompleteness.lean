import ComputeIntelligence.AuditEvents
import ComputeIntelligence.BusInvariant
import ComputeIntelligence.FirstByKey

/-! # Every policy decision leaves its audit event, if its key is new

An interceptor whose publisher is an `InMemoryEventBus`: publishing hands back a
coroutine, which becomes a task of the event loop, and tasks run in the order in which
they were made.  A step of a run is an `intercept` call, in the mode then in force, or
the next of these tasks.

The bus accepts an event once per dedup key, and the keys of the audit events are made
from the request id, which the client chooses: `policy_eval:<id>:<mode>` and
`intervention:<id>:<action>`.  A client that repeats its id gets its second decision
made and not recorded.  So the audit trail is complete exactly when every call that
decides something is `Recordable`: the texts of its events can be made, the events are
small enough, and their keys are new.
-/
namespace ComputeIntelligence
open FirstByKey

variable {β : Type}

/-- One `intercept` call. -/
structure AuditedCall (β : Type) where
  mode : DeploymentMode
  ops : CircuitOps β
  env : CallEnv
  request : InterceptionRequest

namespace AuditedCall

/-- The gateway in the mode of the call, with its bus. -/
def gateway (g : Gateway) (c : AuditedCall β) : Gateway :=
  { g with mode := c.mode, hasEventBus := true }

/-- `InMemoryEventBus.publish` is a coroutine function. -/
def world (c : AuditedCall β) : CallEnv := { c.env with publish := fun _ => .awaitable }

/-- The request, as `_intercept_inner` goes on with it. -/
def sanitized (c : AuditedCall β) : InterceptionRequest :=
  { c.request with headers := sanitizeRequestHeaders c.request.headers }

/-- The call, and the interceptor it leaves. -/
def run (g : Gateway) (c : AuditedCall β) (s : Interceptor β) :
    Except PyExn InterceptionResult × Interceptor β :=
  intercept c.ops (c.gateway g) c.world c.request s

/-- The run of `_evaluate_policies` that the call completes. -/
def evaluated (g : Gateway) (c : AuditedCall β) (s : Interceptor β) : Option Evaluation :=
  match (c.ops.isOpen s.circuit).1 with
  | .ok false => evaluation (c.gateway g) c.world c.sanitized
  | _ => none

/-- What `_active_routing` returns in the call, if it is called and returns: it is called
in Active mode, after the policy event, unless the policies timed out or the request is
downgraded. -/
def routed (g : Gateway) (c : AuditedCall β) (s : Interceptor β) : Option InterceptionResult :=
  match c.evaluated g s, c.mode with
  | some ev, .active =>
      if c.world.policyTimedOut (c.gateway g).config then none
      else
        let emitted := emitPolicyEvaluationEvent (c.gateway g) c.world c.sanitized ev.workloadId
          ev.violations (c.world.elapsedMs .policyEvent) false s
        match emitted.1, downgraded (c.gateway g) c.sanitized ev.attribution with
        | .ok _, .ok false =>
            (activeRouting (c.gateway g) c.world c.sanitized ev.attribution ev.violations
              emitted.2).1.toOption
        | _, _ => none
  | _, _ => none

/-- Whether `_active_routing` returned a result that redirects or stops. -/
def intervened (g : Gateway) (c : AuditedCall β) (s : Interceptor β) : Bool :=
  (c.routed g s).any fun r => r.outcome.intervenes

/-- An event with these attributes is small enough, and its key is new. -/
def Fresh (handed : List DomainEvent) (attributes : PyDict String PyVal)
    (tenantId idempotencyKey : String) : Prop :=
  payloadFits attributes = true ∧
    interceptorKey tenantId idempotencyKey ∉ handed.map DomainEvent.dedupKey

/-- If the call evaluates the policies: the texts of tenant and environment can be made,
and so can the policy event, and the event of the action that follows, under new keys. -/
def Recordable (g : Gateway) (c : AuditedCall β) (s : Interceptor β) : Prop :=
  ∀ ev, c.evaluated g s = some ev → ∃ tenantId environment,
    c.sanitized.resolveTenantId = .ok tenantId ∧
    c.sanitized.metaStr "environment" = .ok environment ∧
    Fresh s.handed (policyAttributes (c.gateway g) c.sanitized ev.workloadId ev.violations
      (c.world.policyElapsedMs (c.gateway g).config) (c.world.policyTimedOut (c.gateway g).config) environment) tenantId
      (policyKey (c.gateway g) c.sanitized) ∧
    ∀ action, ev.routing (c.gateway g) c.world c.sanitized = some action →
      Fresh s.handed (interventionAttributes c.sanitized ev.workloadId action.actionType
        (c.world.elapsedMs .answer) ev.attribution action.newModel environment tenantId) tenantId
        (interventionKey c.sanitized action.actionType)

end AuditedCall

/-- An interceptor, its bus and its background tasks. -/
structure AuditSystem (β : Type) where
  interceptor : Interceptor β
  bus : InMemoryEventBus
  /-- How many of the tasks have run. -/
  drained : Nat := 0
  /-- The events whose `publish` returned `True`, oldest first. -/
  accepted : List DomainEvent := []
  /-- The calls that ran `_evaluate_policies` to completion. -/
  evaluations : Nat := 0
  /-- The results of `_active_routing` that redirect or stop. -/
  interventions : Nat := 0

/-- A step: a call, or the next background task. -/
inductive AuditStep (β : Type) where
  | call (c : AuditedCall β)
  | drain

namespace AuditSystem

/-- A fresh interceptor with the circuit and a bus of the size. -/
def init (circuit : β) (maxEvents : Nat) : AuditSystem β :=
  { interceptor := { circuit }, bus := InMemoryEventBus.init maxEvents }

/-- A call. -/
def call (g : Gateway) (s : AuditSystem β) (c : AuditedCall β) : AuditSystem β :=
  { s with
    interceptor := (c.run g s.interceptor).2
    evaluations := s.evaluations + if (c.evaluated g s.interceptor).isSome then 1 else 0
    interventions := s.interventions + if c.intervened g s.interceptor then 1 else 0 }

/-- The oldest task that has not run: it publishes its event. -/
def drain (s : AuditSystem β) : AuditSystem β :=
  match s.interceptor.handed[s.drained]? with
  | none => s
  | some event =>
      let answer := s.bus.publish event
      { s with
        bus := answer.2
        drained := s.drained + 1
        accepted := match answer.1 with
          | .ok true => s.accepted ++ [event]
          | _ => s.accepted }

def step (g : Gateway) (s : AuditSystem β) : AuditStep β → AuditSystem β
  | .call c => s.call g c
  | .drain => s.drain

/-- No task is left. -/
def Drained (s : AuditSystem β) : Prop := s.drained = s.interceptor.handed.length

/-- The bus has room for what it accepted: its log and its keys are complete. -/
def Roomy (s : AuditSystem β) : Prop := s.accepted.length ≤ s.bus.maxEvents

/-- How many events of a type were accepted. -/
def acceptedOf (s : AuditSystem β) (t : EventType) : Nat :=
  s.accepted.countP fun e => e.eventType = t

/-- **The audit trail is complete.** -/
def Complete (s : AuditSystem β) : Prop :=
  s.acceptedOf .policyEvaluated = s.evaluations ∧
    s.acceptedOf .interventionApplied = s.interventions

instance (s : AuditSystem β) : Decidable s.Drained := inferInstanceAs (Decidable (_ = _))

instance (s : AuditSystem β) : Decidable s.Roomy := inferInstanceAs (Decidable (_ ≤ _))

instance (s : AuditSystem β) : Decidable s.Complete := inferInstanceAs (Decidable (_ ∧ _))

end AuditSystem

/-! ### What is recorded of a list of events -/

/-- How many events of a type a bus that forgets nothing accepts of these. -/
def recordedOf (t : EventType) (events : List DomainEvent) : Nat :=
  (firsts DomainEvent.dedupKey events).countP fun e => e.eventType = t

/-- The key of the event, if there is one, is new. -/
def newKey (events : List DomainEvent) (event : Option DomainEvent) : Bool :=
  event.any fun e => decide (e.dedupKey ∉ events.map DomainEvent.dedupKey)

variable {h events : List DomainEvent} {t : EventType}

theorem recordedOf_toList {event : Option DomainEvent} (ht : ∀ e ∈ event, e.eventType = t) :
    recordedOf t (h ++ event.toList) = recordedOf t h + if newKey h event then 1 else 0 := by
  unfold recordedOf newKey
  rw [countP_firsts_toList]
  cases event with
  | none => rfl
  | some e => rw [Option.any_some, Option.any_some, decide_eq_true (ht e rfl), Bool.true_and]

theorem recordedOf_append {more : List DomainEvent} (ht : ∀ e ∈ more, e.eventType ≠ t) :
    recordedOf t (h ++ more) = recordedOf t h :=
  countP_firsts_append fun e he => decide_eq_false (ht e he)

/-- Shadow events change no count of audit events. -/
theorem recordedOf_trails (ht : Trails h events) :
    recordedOf .policyEvaluated events = recordedOf .policyEvaluated h ∧
      recordedOf .interventionApplied events = recordedOf .interventionApplied h := by
  obtain ⟨rest, rfl, hrest⟩ := ht
  have hne : ∀ e ∈ rest, e.eventType ≠ .policyEvaluated ∧ e.eventType ≠ .interventionApplied := by
    intro e he
    have haudit := (hrest e he).1
    unfold DomainEvent.isAudit at haudit
    rw [Bool.or_eq_false_iff, decide_eq_false_iff_not, decide_eq_false_iff_not] at haudit
    exact haudit
  exact ⟨recordedOf_append fun e he => (hne e he).1, recordedOf_append fun e he => (hne e he).2⟩

/-- A policy event, an intervention event and shadow events. -/
theorem recordedOf_call {policy action : Option DomainEvent}
    (hpolicy : ∀ e ∈ policy, e.eventType = .policyEvaluated)
    (haction : ∀ e ∈ action, e.eventType = .interventionApplied)
    (ht : Trails (h ++ (policy.toList ++ action.toList)) events) :
    recordedOf .policyEvaluated events =
        recordedOf .policyEvaluated h + (if newKey h policy then 1 else 0) ∧
      recordedOf .interventionApplied events = recordedOf .interventionApplied h +
        if newKey (h ++ policy.toList) action then 1 else 0 := by
  obtain ⟨hp, hi⟩ := recordedOf_trails ht
  rw [hp, hi, ← List.append_assoc]
  have hpolicyOnly : ∀ e ∈ action.toList, e.eventType ≠ .policyEvaluated := by
    intro e he
    rw [haction e (Option.mem_toList.mp he)]
    decide
  have hactionOnly : ∀ e ∈ policy.toList, e.eventType ≠ .interventionApplied := by
    intro e he
    rw [hpolicy e (Option.mem_toList.mp he)]
    decide
  constructor
  · rw [recordedOf_append hpolicyOnly, recordedOf_toList hpolicy]
  · rw [recordedOf_toList haction, recordedOf_append hactionOnly]

/-! ### What one call decides and records -/

theorem evaluation_workload {g : Gateway} {env : CallEnv} {request : InterceptionRequest}
    {ev : Evaluation} (h : evaluation g env request = some ev) :
    request.resolveWorkloadId = .ok ev.workloadId ∧ ev.workloadId ≠ "" := by
  unfold evaluation at h
  split at h
  · cases h
  · rename_i workloadId hid
    split at h
    · cases h
    · rename_i hworkload
      split at h
      · split at h
        · cases h
        · split at h
          · cases h
            exact ⟨hid, hworkload⟩
          · cases h
      · cases h

/-- The keys of the two audit events of one call differ. -/
theorem interventionKey_ne_policyKey (g : Gateway) (request : InterceptionRequest)
    (tenantId actionType : String) :
    interceptorKey tenantId (interventionKey request actionType) ≠
      interceptorKey tenantId (policyKey g request) := by
  intro h
  unfold interceptorKey at h
  have hkey := (String.append_right_inj _).mp h
  have hintervention : "intervention:".toList.head? = some 'i' := by decide +kernel
  have hpolicy : "policy_eval:".toList.head? = some 'p' := by decide +kernel
  have hhead : ("intervention:" ++ request.requestId ++ ":" ++ actionType).toList.head? =
      ("policy_eval:" ++ request.requestId ++ ":" ++ g.mode.value).toList.head? :=
    congrArg (fun k : String => k.toList.head?) hkey
  simp only [String.toList_append, List.head?_append, hintervention, hpolicy, Option.some_or]
    at hhead
  exact absurd hhead (by decide)

namespace AuditedCall
variable {g : Gateway} {c : AuditedCall β} {s : Interceptor β} {ev : Evaluation}

theorem evaluated_eq (h : c.evaluated g s = some ev) :
    (c.ops.isOpen s.circuit).1 = .ok false ∧
      evaluation (c.gateway g) c.world c.sanitized = some ev := by
  unfold evaluated at h
  split at h
  · rename_i hopen
    exact ⟨hopen, h⟩
  · cases h

theorem callEvents_of_none (h : c.evaluated g s = none) :
    callEvents c.ops (c.gateway g) c.world c.request s.circuit = [] := by
  by_cases hopen : (c.ops.isOpen s.circuit).1 = .ok false
  · have heval : evaluation (c.gateway g) c.world c.sanitized = none := by
      unfold evaluated at h
      rw [hopen] at h
      exact h
    unfold callEvents
    rw [hopen]
    exact auditEvents_of_none heval
  · unfold callEvents
    split
    · rename_i hadmitted
      exact absurd hadmitted hopen
    · rfl

theorem callEvents_of_some (h : c.evaluated g s = some ev) :
    callEvents c.ops (c.gateway g) c.world c.request s.circuit =
      (policyEvent (c.gateway g) c.world c.sanitized ev).toList ++
        actionEvents c.world c.sanitized ev (ev.routing (c.gateway g) c.world c.sanitized) := by
  obtain ⟨hopen, heval⟩ := evaluated_eq h
  unfold callEvents
  rw [hopen]
  change auditEvents (c.gateway g) c.world c.sanitized = _
  unfold auditEvents
  rw [heval]

theorem intervened_of_none (h : c.evaluated g s = none) : c.intervened g s = false := by
  unfold intervened routed
  rw [h]
  rfl

/-- Whether the policy event of an evaluation in time is emitted without raising. -/
theorem emitted_iff (hin : c.world.policyTimedOut (c.gateway g).config = false) (ev : Evaluation) :
    (∃ b s', emitPolicyEvaluationEvent (c.gateway g) c.world c.sanitized ev.workloadId ev.violations
      (c.world.elapsedMs .policyEvent) false s = (.ok b, s')) ↔ Named c.sanitized := by
  have hends := @emitPolicyEvaluationEvent_hands β (c.gateway g) c.world c.sanitized s.handed rfl
    ev s rfl
  have helapsed : c.world.policyElapsedMs (c.gateway g).config = c.world.elapsedMs .policyEvent := by
    unfold CallEnv.policyElapsedMs
    rw [if_neg (ne_true_of_eq_false hin)]
  rw [helapsed, hin] at hends
  generalize emitPolicyEvaluationEvent (c.gateway g) c.world c.sanitized ev.workloadId
    ev.violations (c.world.elapsedMs .policyEvent) false s = emitted at hends ⊢
  obtain ⟨_ | b, s'⟩ := emitted
  · refine ⟨fun h => ?_, fun h => absurd h hends.1⟩
    obtain ⟨_, _, h⟩ := h
    cases h
  · exact ⟨fun _ => hends.1, fun _ => ⟨b, s', rfl⟩⟩

/-- `_active_routing` acts exactly where the branches of the source say so. -/
theorem intervened_of_some (h : c.evaluated g s = some ev) :
    c.intervened g s = true ↔
      Named c.sanitized ∧ (ev.routing (c.gateway g) c.world c.sanitized).isSome = true := by
  obtain ⟨hid, hworkload⟩ := evaluation_workload (evaluated_eq h).2
  unfold intervened routed
  rw [h]
  by_cases hm : c.mode = .active
  · by_cases hlate : c.world.policyTimedOut (c.gateway g).config = true
    · rw [ev.routing_of_late hlate]
      simp [hm, hlate]
    · have hin := eq_false_of_ne_true hlate
      simp only [hm, hin, Bool.false_eq_true, if_false]
      have hemitted := emitted_iff (s := s) hin ev
      generalize emitPolicyEvaluationEvent (c.gateway g) c.world c.sanitized ev.workloadId
        ev.violations (c.world.elapsedMs .policyEvent) false s = emitted at hemitted ⊢
      by_cases hnamed : Named c.sanitized
      · obtain ⟨b, s', rfl⟩ := hemitted.mpr hnamed
        by_cases hd : downgraded (c.gateway g) c.sanitized ev.attribution = .ok false
        · have hacts := @activeRouting_hands β (c.gateway g) c.world c.sanitized s'.handed rfl
            hnamed ev hid hworkload s' rfl
          simp only [hd]
          generalize activeRouting (c.gateway g) c.world c.sanitized ev.attribution ev.violations
            s' = answer at hacts ⊢
          obtain ⟨_ | r, _⟩ := answer
          · rw [ev.routing_of_headers hacts.1]
            simp [Except.toOption]
          · obtain ⟨hh, -, hacted⟩ := hacts
            rw [ev.routing_of_active hm hin hd hh, ← hacted]
            simp [Except.toOption, hnamed]
        · rw [ev.routing_of_downgraded hd]
          split
          · rename_i hkept
            exact absurd hkept hd
          · simp
      · obtain ⟨_ | b, s'⟩ := emitted
        · simp [hnamed]
        · exact absurd (hemitted.mp ⟨b, s', rfl⟩) hnamed
  · rw [ev.routing_of_inactive hm]
    split
    · rename_i hactive
      exact absurd hactive hm
    · simp

/-- The policy event of the call. -/
def policyEvent? (g : Gateway) (c : AuditedCall β) (s : Interceptor β) : Option DomainEvent :=
  (c.evaluated g s).bind (policyEvent (c.gateway g) c.world c.sanitized)

/-- The intervention event of the call. -/
def actionEvent? (g : Gateway) (c : AuditedCall β) (s : Interceptor β) : Option DomainEvent :=
  (c.evaluated g s).bind fun ev => (ev.routing (c.gateway g) c.world c.sanitized).bind
    (interventionEvent c.world c.sanitized ev)

theorem policyEvent?_type : ∀ e ∈ c.policyEvent? g s, e.eventType = .policyEvaluated := by
  intro e he
  obtain ⟨ev, -, hmade⟩ := Option.bind_eq_some_iff.mp he
  unfold policyEvent at hmade
  split at hmade
  · exact makeEvent_eventType hmade
  · cases hmade

theorem actionEvent?_type : ∀ e ∈ c.actionEvent? g s, e.eventType = .interventionApplied := by
  intro e he
  obtain ⟨ev, -, hbind⟩ := Option.bind_eq_some_iff.mp he
  obtain ⟨action, -, hmade⟩ := Option.bind_eq_some_iff.mp hbind
  unfold interventionEvent at hmade
  split at hmade
  · exact makeEvent_eventType hmade
  · cases hmade

/-- What a call hands over. -/
theorem run_trails (g : Gateway) (c : AuditedCall β) (s : Interceptor β) :
    Trails (s.handed ++ ((c.policyEvent? g s).toList ++ (c.actionEvent? g s).toList))
      (c.run g s).2.handed := by
  have hhands := intercept_hands (g := c.gateway g) rfl c.ops c.world c.request s
  unfold policyEvent? actionEvent?
  cases h : c.evaluated g s with
  | none =>
    rw [callEvents_of_none h] at hhands
    exact hhands
  | some ev =>
    rw [callEvents_of_some h] at hhands
    exact hhands

/-- A made event has a new key iff it is fresh. -/
theorem newKey_makeEvent {env : CallEnv} {place : Emission} {eventType : EventType}
    {subjectId idempotencyKey tenantId : String} {attributes : PyDict String PyVal} :
    newKey h (makeEvent env place eventType subjectId attributes idempotencyKey tenantId) = true ↔
      Fresh h attributes tenantId idempotencyKey := by
  unfold Fresh
  have hfits : (makeEvent env place eventType subjectId attributes idempotencyKey tenantId).isSome =
      true ↔ payloadFits attributes = true := makeEvent_isSome
  rw [← hfits]
  cases hmade : makeEvent env place eventType subjectId attributes idempotencyKey tenantId with
  | none => simp [newKey]
  | some e =>
    rw [← makeEvent_dedupKey hmade]
    simp [newKey]

/-- An event of another key does not matter. -/
theorem fresh_append {attributes : PyDict String PyVal} {tenantId idempotencyKey : String}
    {event : Option DomainEvent}
    (hne : ∀ e ∈ event, interceptorKey tenantId idempotencyKey ≠ e.dedupKey) :
    Fresh (h ++ event.toList) attributes tenantId idempotencyKey ↔
      Fresh h attributes tenantId idempotencyKey := by
  unfold Fresh
  rw [List.map_append, List.mem_append, not_or]
  refine and_congr_right fun _ => and_iff_left fun hmem => ?_
  obtain ⟨e, he, hkey⟩ := List.mem_map.mp hmem
  exact hne e (Option.mem_toList.mp he) hkey.symm

/-- Without its texts an evaluation is not recorded. -/
theorem not_named_of_unrecorded (hev : c.evaluated g s = some ev) (hnamed : ¬ Named c.sanitized) :
    c.policyEvent? g s = none ∧ c.actionEvent? g s = none := by
  unfold policyEvent? actionEvent?
  rw [hev, Option.bind_some, Option.bind_some]
  refine ⟨policyEvent_unnamed hnamed ev, ?_⟩
  cases ev.routing (c.gateway g) c.world c.sanitized with
  | none => rfl
  | some action => exact interventionEvent_unnamed hnamed ev action

/-- The events of an evaluation that has its texts. -/
theorem events_of_named (hev : c.evaluated g s = some ev) {tenantId environment : String}
    (ht : c.sanitized.resolveTenantId = .ok tenantId)
    (he : c.sanitized.metaStr "environment" = .ok environment) :
    c.policyEvent? g s = makeEvent c.world .policyEvaluated .policyEvaluated ev.workloadId
        (policyAttributes (c.gateway g) c.sanitized ev.workloadId ev.violations
          (c.world.policyElapsedMs (c.gateway g).config)
          (c.world.policyTimedOut (c.gateway g).config) environment)
        (policyKey (c.gateway g) c.sanitized) tenantId ∧
      c.actionEvent? g s = (ev.routing (c.gateway g) c.world c.sanitized).bind fun action =>
        makeEvent c.world .intervention .interventionApplied ev.workloadId
          (interventionAttributes c.sanitized ev.workloadId action.actionType
            (c.world.elapsedMs .answer) ev.attribution action.newModel environment tenantId)
          (interventionKey c.sanitized action.actionType) tenantId := by
  unfold policyEvent? actionEvent?
  rw [hev, Option.bind_some, Option.bind_some]
  constructor
  · unfold policyEvent
    rw [ht, he]
  · refine congrArg (Option.bind _) (funext fun action => ?_)
    unfold interventionEvent
    rw [ht, he]

/-- The action is recorded iff its event is fresh: the policy event has another key. -/
theorem action_recorded_iff (hev : c.evaluated g s = some ev) {tenantId environment : String}
    (ht : c.sanitized.resolveTenantId = .ok tenantId)
    (he : c.sanitized.metaStr "environment" = .ok environment) :
    newKey (s.handed ++ (c.policyEvent? g s).toList) (c.actionEvent? g s) = c.intervened g s ↔
      ∀ action, ev.routing (c.gateway g) c.world c.sanitized = some action →
        Fresh s.handed (interventionAttributes c.sanitized ev.workloadId action.actionType
          (c.world.elapsedMs .answer) ev.attribution action.newModel environment tenantId)
          tenantId (interventionKey c.sanitized action.actionType) := by
  obtain ⟨hpolicy, haction⟩ := events_of_named hev ht he
  have hintervened := intervened_of_some hev
  cases hr : ev.routing (c.gateway g) c.world c.sanitized with
  | none =>
    rw [hr] at haction hintervened
    have hkept : c.intervened g s = false := by
      refine eq_false_of_ne_true fun h => ?_
      cases (hintervened.mp h).2
    rw [haction, hkept]
    refine ⟨fun _ action hnone => ?_, fun _ => rfl⟩
    cases hnone
  | some action =>
    rw [hr] at haction hintervened
    have hacted : c.intervened g s = true := hintervened.mpr ⟨⟨tenantId, environment, ht, he⟩, rfl⟩
    have hother : ∀ e ∈ c.policyEvent? g s,
        interceptorKey tenantId (interventionKey c.sanitized action.actionType) ≠ e.dedupKey := by
      intro e hmem
      rw [hpolicy] at hmem
      rw [makeEvent_dedupKey hmem]
      exact interventionKey_ne_policyKey _ _ _ _
    rw [haction, hacted, Option.bind_some, newKey_makeEvent, fresh_append hother]
    constructor
    · intro hfresh action' heq
      cases heq
      exact hfresh
    · intro hfresh
      exact hfresh action rfl

/-- **A call is recordable iff what it decides is recorded.** -/
theorem recordable_iff :
    c.Recordable g s ↔
      newKey s.handed (c.policyEvent? g s) = (c.evaluated g s).isSome ∧
        newKey (s.handed ++ (c.policyEvent? g s).toList) (c.actionEvent? g s) =
          c.intervened g s := by
  unfold Recordable
  cases hev : c.evaluated g s with
  | none =>
    rw [intervened_of_none hev]
    unfold policyEvent? actionEvent?
    rw [hev]
    refine ⟨fun _ => ⟨rfl, rfl⟩, fun _ ev hnone => ?_⟩
    cases hnone
  | some ev =>
    rw [Option.isSome_some]
    by_cases hnamed : Named c.sanitized
    · obtain ⟨tenantId, environment, ht, he⟩ := hnamed
      obtain ⟨hpolicy, -⟩ := events_of_named hev ht he
      rw [action_recorded_iff hev ht he, hpolicy, newKey_makeEvent]
      constructor
      · intro h
        obtain ⟨tenantId', environment', ht', he', hfresh⟩ := h ev rfl
        rw [ht] at ht'
        rw [he] at he'
        cases ht'
        cases he'
        exact hfresh
      · intro h ev' hev'
        cases hev'
        exact ⟨tenantId, environment, ht, he, h⟩
    · obtain ⟨hpolicy, -⟩ := not_named_of_unrecorded hev hnamed
      rw [hpolicy]
      refine ⟨fun h => ?_, fun h => Bool.noConfusion h.1⟩
      obtain ⟨tenantId, environment, ht, he, -⟩ := h ev rfl
      exact absurd ⟨tenantId, environment, ht, he⟩ hnamed

/-- What is recorded was decided. -/
theorem evaluated_of_recorded (hnew : newKey h (c.policyEvent? g s) = true) :
    (c.evaluated g s).isSome = true := by
  cases hev : c.evaluated g s with
  | none =>
    unfold policyEvent? at hnew
    rw [hev] at hnew
    cases hnew
  | some ev => rfl

theorem intervened_of_recorded (hnew : newKey h (c.actionEvent? g s) = true) :
    c.intervened g s = true := by
  cases hev : c.evaluated g s with
  | none =>
    unfold actionEvent? at hnew
    rw [hev] at hnew
    cases hnew
  | some ev =>
    have hnamed : Named c.sanitized := by
      by_contra hunnamed
      rw [(not_named_of_unrecorded hev hunnamed).2] at hnew
      cases hnew
    refine (intervened_of_some hev).mpr ⟨hnamed, ?_⟩
    unfold actionEvent? at hnew
    rw [hev, Option.bind_some] at hnew
    cases hr : ev.routing (c.gateway g) c.world c.sanitized with
    | none =>
      rw [hr] at hnew
      cases hnew
    | some action => rfl

/-- Every event that is handed over passes its schema. -/
theorem run_accepted (g : Gateway) (c : AuditedCall β) {s : Interceptor β}
    (hs : ∀ e ∈ s.handed, e.Accepted) : ∀ e ∈ (c.run g s).2.handed, e.Accepted := by
  obtain ⟨rest, hhanded, hrest⟩ := run_trails g c s
  intro e he
  rw [hhanded, List.mem_append, List.mem_append, List.mem_append] at he
  rcases he with (he | he | he) | he
  · exact hs e he
  · obtain ⟨ev, -, hmade⟩ := Option.bind_eq_some_iff.mp (Option.mem_toList.mp he)
    unfold policyEvent at hmade
    split at hmade
    · exact makeEvent_accepted hmade (policy_accepts _ _ _ _ _)
    · cases hmade
  · obtain ⟨ev, -, hbind⟩ := Option.bind_eq_some_iff.mp (Option.mem_toList.mp he)
    obtain ⟨action, -, hmade⟩ := Option.bind_eq_some_iff.mp hbind
    unfold interventionEvent at hmade
    split at hmade
    · exact makeEvent_accepted hmade (intervention_accepts _ _ _ _ _ _ _)
    · cases hmade
  · exact (hrest e he).2

end AuditedCall

/-! ### Runs -/

namespace AuditSystem
open AuditedCall

/-- What a step must meet. -/
def Recordable (g : Gateway) (s : AuditSystem β) : AuditStep β → Prop
  | .call c => c.Recordable g s.interceptor
  | .drain => True

/-- What is recorded of the events handed over so far is at most what was decided. -/
def Bounded (s : AuditSystem β) : Prop :=
  recordedOf .policyEvaluated s.interceptor.handed ≤ s.evaluations ∧
    recordedOf .interventionApplied s.interceptor.handed ≤ s.interventions

/-- What is recorded of the events handed over so far is what was decided. -/
def Recorded (s : AuditSystem β) : Prop :=
  recordedOf .policyEvaluated s.interceptor.handed = s.evaluations ∧
    recordedOf .interventionApplied s.interceptor.handed = s.interventions

variable {g : Gateway} {s : AuditSystem β}

theorem drain_interceptor (s : AuditSystem β) : s.drain.interceptor = s.interceptor := by
  unfold drain
  split <;> rfl

theorem drain_counters (s : AuditSystem β) :
    s.drain.evaluations = s.evaluations ∧ s.drain.interventions = s.interventions := by
  unfold drain
  split <;> exact ⟨rfl, rfl⟩

/-- What a call adds to what is recorded. -/
theorem call_recorded (g : Gateway) (s : AuditSystem β) (c : AuditedCall β) :
    recordedOf .policyEvaluated (s.call g c).interceptor.handed =
        recordedOf .policyEvaluated s.interceptor.handed +
          (if newKey s.interceptor.handed (c.policyEvent? g s.interceptor) then 1 else 0) ∧
      recordedOf .interventionApplied (s.call g c).interceptor.handed =
        recordedOf .interventionApplied s.interceptor.handed +
          if newKey (s.interceptor.handed ++ (c.policyEvent? g s.interceptor).toList)
            (c.actionEvent? g s.interceptor) then 1 else 0 :=
  recordedOf_call policyEvent?_type actionEvent?_type (run_trails g c s.interceptor)

/-- Two counters that go up together, the smaller one only with the larger one. -/
theorem tally {m n : Nat} {x y : Bool} (hmn : m ≤ n) (hxy : x = true → y = true) :
    (m + if x then 1 else 0) ≤ (n + if y then 1 else 0) ∧
      ((m + if x then 1 else 0) = (n + if y then 1 else 0) ↔ m = n ∧ x = y) := by
  cases y with
  | true =>
    cases x with
    | true => simp [hmn]
    | false =>
      simp only [Bool.false_eq_true, if_true, if_false, and_false, iff_false]
      omega
  | false =>
    cases x with
    | true => cases hxy rfl
    | false => simp [hmn]

/-- The two tallies of a call. -/
theorem call_tallies (hs : s.Bounded) (c : AuditedCall β) :
    (s.call g c).Bounded ∧ ((s.call g c).Recorded ↔ s.Recorded ∧ c.Recordable g s.interceptor) := by
  obtain ⟨hpolicy, haction⟩ := call_recorded g s c
  obtain ⟨hple, hpeq⟩ := tally hs.1 (evaluated_of_recorded (g := g) (c := c) (s := s.interceptor)
    (h := s.interceptor.handed))
  obtain ⟨hale, haeq⟩ := tally hs.2 (intervened_of_recorded (g := g) (c := c) (s := s.interceptor)
    (h := s.interceptor.handed ++ (c.policyEvent? g s.interceptor).toList))
  rw [← hpolicy] at hple hpeq
  rw [← haction] at hale haeq
  refine ⟨⟨hple, hale⟩, ?_⟩
  rw [recordable_iff]
  exact (and_congr hpeq haeq).trans and_and_and_comm

theorem step_bounded (hs : s.Bounded) (a : AuditStep β) : (s.step g a).Bounded := by
  cases a with
  | call c => exact (call_tallies hs c).1
  | drain =>
    change s.drain.Bounded
    unfold Bounded
    rw [drain_interceptor, (drain_counters s).1, (drain_counters s).2]
    exact hs

/-- A step keeps the record exactly when it is recordable. -/
theorem step_recorded_iff (hs : s.Bounded) (a : AuditStep β) :
    (s.step g a).Recorded ↔ s.Recorded ∧ s.Recordable g a := by
  cases a with
  | call c => exact (call_tallies hs c).2
  | drain =>
    change s.drain.Recorded ↔ s.Recorded ∧ True
    unfold Recorded
    rw [drain_interceptor, (drain_counters s).1, (drain_counters s).2, and_true]

/-! ### The tasks -/

/-- What the bus has accepted, in terms of the tasks that have run. -/
structure Draining (s : AuditSystem β) : Prop where
  consistent : s.bus.Consistent s.accepted
  valid : ∀ e ∈ s.interceptor.handed, e.Accepted
  pending : s.drained ≤ s.interceptor.handed.length
  accepted : s.Roomy →
    s.accepted = firsts DomainEvent.dedupKey (s.interceptor.handed.take s.drained)

theorem init_draining (circuit : β) (maxEvents : Nat) : (init circuit maxEvents).Draining where
  consistent := InMemoryEventBus.init_consistent maxEvents
  valid := List.forall_mem_nil _
  pending := Nat.zero_le _
  accepted _ := rfl

/-- A bus with room remembers every key. -/
theorem seen_iff (hs : s.Draining) (hroom : s.Roomy) (k : String) :
    k ∈ s.bus.seenKeys ↔ k ∈ s.accepted.map DomainEvent.dedupKey := by
  rw [hs.consistent.seen, hs.consistent.order, Window.rtake_of_length_le]
  unfold Roomy at hroom
  unfold InMemoryEventBus.maxIdempotencyKeys
  rw [List.length_map]
  omega

theorem call_draining (hs : s.Draining) (c : AuditedCall β) : (s.call g c).Draining := by
  obtain ⟨rest, hhanded, -⟩ := run_trails g c s.interceptor
  have hlater : (s.call g c).interceptor.handed = s.interceptor.handed ++ (_ ++ rest) :=
    hhanded.trans (List.append_assoc _ _ _)
  refine ⟨hs.consistent, run_accepted g c hs.valid, ?_, fun hroom => ?_⟩
  · have hpending := hs.pending
    change s.drained ≤ _
    rw [hlater, List.length_append]
    omega
  · change s.accepted = firsts _ ((s.call g c).interceptor.handed.take s.drained)
    rw [hlater, List.take_append_of_le_length hs.pending]
    exact hs.accepted hroom

/-- The next task, of an event that passes its schema. -/
theorem drain_eq {event : DomainEvent} (hnext : s.interceptor.handed[s.drained]? = some event)
    (hvalid : event.Accepted) :
    s.drain = { s with
      bus := (s.bus.underLock event).2
      drained := s.drained + 1
      accepted := if (s.bus.underLock event).1 then s.accepted ++ [event] else s.accepted } := by
  unfold drain
  simp only [hnext]
  rw [InMemoryEventBus.publish_eq, validateDomainEvent_ok_iff.mpr hvalid]
  dsimp only
  cases (s.bus.underLock event).1 <;> rfl

theorem drain_draining (hs : s.Draining) : s.drain.Draining := by
  cases hnext : s.interceptor.handed[s.drained]? with
  | none =>
    rw [show s.drain = s by unfold drain; rw [hnext]]
    exact hs
  | some event =>
    obtain ⟨hlt, hget⟩ := List.getElem?_eq_some_iff.mp hnext
    have hvalid : event.Accepted := hs.valid event (hget ▸ List.getElem_mem hlt)
    rw [drain_eq hnext hvalid]
    refine ⟨hs.consistent.underLock event, hs.valid, hlt, fun hroom => ?_⟩
    unfold Roomy at hroom
    dsimp only at hroom ⊢
    rw [InMemoryEventBus.underLock_maxEvents] at hroom
    have hbefore : s.Roomy := by
      unfold Roomy
      split at hroom
      · rw [List.length_append] at hroom
        omega
      · exact hroom
    have htake : s.interceptor.handed.take (s.drained + 1) =
        s.interceptor.handed.take s.drained ++ [event] := by
      rw [List.take_add_one, hnext]
      rfl
    rw [htake, firsts_concat, ← hs.accepted hbefore]
    unfold keep
    by_cases hseen : event.dedupKey ∈ s.bus.seenKeys
    · rw [if_neg fun h => InMemoryEventBus.underLock_fst.mp h hseen,
        if_pos ((seen_iff hs hbefore _).mp hseen)]
    · rw [if_pos (InMemoryEventBus.underLock_fst.mpr hseen),
        if_neg fun h => hseen ((seen_iff hs hbefore _).mpr h)]

theorem step_draining (hs : s.Draining) (a : AuditStep β) : (s.step g a).Draining := by
  cases a with
  | call c => exact call_draining hs c
  | drain => exact drain_draining hs

/-- With every task run, the trail is complete iff what was handed over records what was
decided. -/
theorem complete_iff_recorded (hs : s.Draining) (hdrained : s.Drained) (hroom : s.Roomy) :
    s.Complete ↔ s.Recorded := by
  have haccepted := hs.accepted hroom
  unfold Drained at hdrained
  rw [hdrained, List.take_length] at haccepted
  unfold Complete Recorded acceptedOf recordedOf
  rw [haccepted]

/-- **The audit trail is complete exactly when every call was recordable.** -/
theorem complete_iff_recordable (g : Gateway) (circuit : β) (maxEvents : Nat)
    (steps : List (AuditStep β))
    (hdrained : (Run.exec (step g) (init circuit maxEvents) steps).Drained)
    (hroom : (Run.exec (step g) (init circuit maxEvents) steps).Roomy) :
    (Run.exec (step g) (init circuit maxEvents) steps).Complete ↔
      Run.Guarded (step g) (Recordable g) (init circuit maxEvents) steps := by
  have hdraining : (Run.exec (step g) (init circuit maxEvents) steps).Draining :=
    Run.exec_invariant (I := Draining) (fun _ a h => step_draining h a)
      (init_draining circuit maxEvents) steps
  have hbounded : (init circuit maxEvents).Bounded := ⟨Nat.zero_le _, Nat.zero_le _⟩
  have hrecorded : (init circuit maxEvents).Recorded := ⟨rfl, rfl⟩
  rw [complete_iff_recorded hdraining hdrained hroom,
    Run.exec_iff_guarded (fun _ a h => step_bounded h a) (fun _ a h => step_recorded_iff h a)
      hbounded]
  exact and_iff_right hrecorded

/-- A request that is served, in Advisory mode. -/
def servedStep : AuditStep CircuitBreakerState :=
  .call ⟨.advisory, localOps {} (.const 0), InterceptRun.servedEnv, InterceptRun.servedRequest⟩

/-- A system whose bus has room for ten events. -/
def servedInit : AuditSystem CircuitBreakerState := init {} 10

theorem served_drained :
    (Run.exec (step {}) servedInit [servedStep, .drain]).Drained ∧
      (Run.exec (step {}) servedInit [servedStep, .drain]).Roomy ∧
      (Run.exec (step {}) servedInit [servedStep, .drain]).Complete ∧
      (Run.exec (step {}) servedInit [servedStep, .drain]).evaluations = 1 := by
  decide +kernel

theorem served_recordable :
    Run.Guarded (step {}) (Recordable {}) servedInit [servedStep, .drain] := by
  obtain ⟨hdrained, hroom, hcomplete, -⟩ := served_drained
  have hiff := complete_iff_recordable {} ({} : CircuitBreakerState) 10 [servedStep, .drain]
  exact (hiff hdrained hroom).mp hcomplete

/-- The same request twice: the policies are evaluated twice, and recorded once. -/
theorem repeated_request_unrecorded :
    ¬ ∀ (g : Gateway) (circuit : CircuitBreakerState) (maxEvents : Nat)
      (steps : List (AuditStep CircuitBreakerState)),
      (Run.exec (step g) (init circuit maxEvents) steps).Drained →
      (Run.exec (step g) (init circuit maxEvents) steps).Roomy →
      (Run.exec (step g) (init circuit maxEvents) steps).Complete := by
  intro h
  have hcomplete := h {} {} 10 [servedStep, servedStep, .drain, .drain] (by decide +kernel)
    (by decide +kernel)
  revert hcomplete
  decide +kernel

end AuditSystem

end ComputeIntelligence
