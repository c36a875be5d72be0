import ComputeIntelligence.BillingData
import ComputeIntelligence.LogReplay
import ComputeIntelligence.Rebuild

/-! # The platform is its log

An `AttributionProcessor` (`core/processor.py`) that is subscribed to an `InMemoryEventBus`
(`core/event_bus.py`).  `publish` appends an event to the log and makes a task for every handler of
its topic; the loop starts the tasks in the order they were made, and the handlers of the processor
do not suspend.  In between more events may be published.

So at any moment the processor is what handling the first of the accepted events makes of it, each
once and in the order of the log (`Follows`, `follows_exec`).  A platform that is fed the log of an
idle one handles the same events in the same order: its graph has the same nodes, its labels are the
same, and where no event adds an edge that is still open it answers every historical query alike
(`platform_is_log`).
-/
namespace ComputeIntelligence
open AttributionProcessor

/-- The handlers of the processor. -/
inductive ProcessorHandler where
  | inference | deployment | billing | correction | orgChange
deriving DecidableEq

namespace ProcessorHandler

/-- `subscribe`. -/
def subscribe {η : Type} (handlers : PyDict String (List η)) (topic : EventType) (handler : η) :
    PyDict String (List η) :=
  handlers.set topic.value (handlers.getD topic.value [] ++ [handler])

/-- What `AttributionProcessor.__init__` subscribes. -/
def subscriptions : List (EventType × ProcessorHandler) :=
  [(.inferenceRequest, .inference), (.deployment, .deployment), (.billingLineItem, .billing),
    (.attributionCorrection, .correction), (.orgChange, .orgChange)]

def subscribed : PyDict String (List ProcessorHandler) :=
  subscriptions.foldl (fun handlers s => subscribe handlers s.1 s.2) PyDict.empty

/-- A handler is called with an event. -/
def run (env : Reckoning) (s : ProcessorState) (e : DomainEvent) (clock : HandlerClock) :
    ProcessorHandler → ProcessorState
  | .inference => handleInference env s e clock
  | .deployment => { s with graph := handleDeployment s.graph e clock.wall }
  | .billing => { s with graph := handleBilling s.graph e clock.wall }
  | .correction => handleCorrection s e clock
  | .orgChange => { s with graph := handleOrgChange s.graph e clock.wall }

/-- The handler of an event type, if it has one. -/
def ofType (t : EventType) : Option ProcessorHandler := subscriptions.lookup t

theorem handlersOf_subscribed {s : DispatchingBus ProcessorHandler}
    (h : s.handlers = subscribed) (e : DomainEvent) :
    s.handlersOf e = (ofType e.eventType).toList := by
  rw [DispatchingBus.handlersOf, h]
  cases e.eventType <;> decide

/-- The handler of an event does what `process` says. -/
theorem run_eq_process (env : Reckoning) (s : ProcessorState) (e : AcceptedEvent)
    (clock : HandlerClock) {handler : ProcessorHandler} (h : ofType e.1.eventType = some handler) :
    handler.run env s e.1 clock = process env s e clock := by
  cases htype : e.1.eventType <;> rw [htype] at h <;> cases h <;>
    simp only [process, handle, htype, run]

end ProcessorHandler

/-- The bus, the tasks that it has made and that have not run, oldest first, and the processor.
`clocks` are those of the handlers that have run. -/
structure LivePlatform where
  bus : DispatchingBus ProcessorHandler
  queue : List (ProcessorHandler × DomainEvent) := []
  processor : ProcessorState := {}
  clocks : List HandlerClock := []

inductive LiveAction where
  | publish (event : DomainEvent)
  /-- The next task runs. -/
  | handle (clock : HandlerClock)

namespace LivePlatform
open ProcessorHandler DispatchingBus

def start (maxEvents : Nat) (processor : ProcessorState) : LivePlatform :=
  { bus := new maxEvents subscribed, processor }

variable (env : Reckoning)

def step (s : LivePlatform) : LiveAction → LivePlatform
  | .publish event =>
      let bus := s.bus.published event
      { s with bus, queue := s.queue ++ bus.dispatched.drop s.bus.dispatched.length }
  | .handle clock => match s.queue with
      | [] => s
      | (handler, event) :: queue =>
          { s with queue, processor := handler.run env s.processor event clock
                   clocks := s.clocks ++ [clock] }

/-- The accepted events that the processor handles. -/
def handledOf (accepted : List AcceptedEvent) : List AcceptedEvent :=
  accepted.filter fun e => (ofType e.1.eventType).isSome

/-- The call of a handler with an event that it is for. -/
def Calls (call : ProcessorHandler × DomainEvent) (e : AcceptedEvent) : Prop :=
  call.2 = e.1 ∧ ofType e.1.eventType = some call.1

/-- The processor, from `first`, after some events, with the clocks of their handlers. -/
def processed (first : ProcessorState) (done : List (AcceptedEvent × HandlerClock)) :
    ProcessorState :=
  Run.exec (handleNext env) first done

/-- The platform has accepted these events; of those with a handler it has handled the first, and
the others are in its queue. -/
structure Follows (first : ProcessorState) (s : LivePlatform) (accepted : List AcceptedEvent)
    (done : List (AcceptedEvent × HandlerClock)) (pending : List AcceptedEvent) : Prop where
  holds : Holds s.bus (accepted.map Subtype.val)
  handlers : s.bus.handlers = subscribed
  order : handledOf accepted = done.map Prod.fst ++ pending
  queue : List.Forall₂ Calls s.queue pending
  clocks : s.clocks = done.map Prod.snd
  processor : s.processor = processed env first done

theorem follows_start (maxEvents : Nat) (first : ProcessorState) :
    Follows env first (start maxEvents first) [] [] [] where
  holds := holds_new maxEvents subscribed
  handlers := rfl
  order := rfl
  queue := .nil
  clocks := rfl
  processor := rfl

variable {env} {first : ProcessorState} {s : LivePlatform} {accepted pending : List AcceptedEvent}
  {done : List (AcceptedEvent × HandlerClock)}

/-- A call of `publish` that accepts nothing. -/
theorem Follows.publish_same (h : Follows env first s accepted done pending) {event : DomainEvent}
    (hcommitted : Committed s.bus (accepted.map Subtype.val) [] (s.bus.published event)) :
    Follows env first (s.step env (.publish event)) accepted done pending := by
  have hdispatched := hcommitted.dispatched
  rw [List.flatMap_nil, List.append_nil] at hdispatched
  have hbus := hcommitted.bus
  rw [List.append_nil] at hbus
  refine ⟨⟨hbus, h.holds.valid⟩, hcommitted.handlers.trans h.handlers, h.order, ?_, h.clocks,
    h.processor⟩
  rw [step, hdispatched, List.drop_length, List.append_nil]
  exact h.queue

/-- A call that accepts its event. -/
theorem Follows.publish_new (h : Follows env first s accepted done pending) (e : AcceptedEvent)
    (hcommitted : Committed s.bus (accepted.map Subtype.val) [e.1] (s.bus.published e.1)) :
    Follows env first (s.step env (.publish e.1)) (accepted ++ [e]) done
      (pending ++ handledOf [e]) := by
  have hbus := hcommitted.bus
  rw [← List.map_singleton, ← List.map_append] at hbus
  refine ⟨⟨hbus, fun event hevent => ?_⟩, hcommitted.handlers.trans h.handlers, ?_, ?_, h.clocks,
    h.processor⟩
  · obtain ⟨e', -, rfl⟩ := List.mem_map.1 hevent
    exact e'.2
  · rw [handledOf, List.filter_append, ← handledOf, h.order, List.append_assoc]
    rfl
  · rw [step, hcommitted.dispatched, List.drop_left, List.flatMap_singleton,
      handlersOf_subscribed h.handlers]
    refine List.rel_append h.queue ?_
    cases htype : ofType e.1.eventType with
    | none =>
      rw [handledOf, List.filter_singleton, htype]
      exact .nil
    | some handler =>
      rw [handledOf, List.filter_singleton, htype]
      exact .cons ⟨rfl, htype⟩ .nil

theorem Follows.publish (h : Follows env first s accepted done pending) (event : DomainEvent) :
    ∃ accepted' pending',
      Follows env first (s.step env (.publish event)) accepted' done pending' := by
  by_cases hvalid : event.Accepted
  · by_cases hseen : event.dedupKey ∈ s.bus.bus.seenKeys
    · exact ⟨_, _, h.publish_same (publish_of_seen h.holds.consistent hvalid hseen).2⟩
    · exact ⟨_, _, h.publish_new ⟨event, hvalid⟩
        (publish_of_new h.holds.consistent hvalid hseen).2⟩
  · refine ⟨_, _, h.publish_same ?_⟩
    rw [published_of_invalid hvalid]
    exact Committed.refl h.holds.consistent

theorem Follows.handle (h : Follows env first s accepted done pending) (clock : HandlerClock) :
    ∃ done' pending', Follows env first (s.step env (.handle clock)) accepted done' pending' := by
  rw [step]
  match hqueue : s.queue, pending, h with
  | [], pending, h => exact ⟨_, _, h⟩
  | (handler, event) :: queue, pending, h =>
    have hcalls := h.queue
    rw [hqueue] at hcalls
    obtain ⟨e, pending', ⟨hevent, htype⟩, hrest, rfl⟩ := List.forall₂_cons_left_iff.1 hcalls
    obtain rfl : event = e.1 := hevent
    refine ⟨done ++ [(e, clock)], pending', h.holds, h.handlers, ?_, hrest, ?_, ?_⟩
    · rw [h.order, List.map_append, List.append_assoc]
      rfl
    · rw [h.clocks, List.map_append]
      rfl
    · rw [processed, Run.exec_concat]
      change handler.run env s.processor e.1 clock = process env (processed env first done) e clock
      rw [← h.processor]
      exact run_eq_process env s.processor e clock htype

/-- **In every run** the processor follows the log. -/
theorem follows_exec (env : Reckoning) (maxEvents : Nat) (first : ProcessorState)
    (as : List LiveAction) : ∃ accepted done pending,
      Follows env first (Run.exec (step env) (start maxEvents first) as) accepted done pending := by
  induction as using List.reverseRecOn with
  | nil => exact ⟨_, _, _, follows_start env maxEvents first⟩
  | append_singleton as a ih =>
    obtain ⟨accepted, done, pending, h⟩ := ih
    rw [Run.exec_concat]
    cases a with
    | publish event =>
      obtain ⟨accepted', pending', h'⟩ := h.publish event
      exact ⟨_, _, _, h'⟩
    | handle clock =>
      obtain ⟨done', pending', h'⟩ := h.handle clock
      exact ⟨_, _, _, h'⟩

/-! ### Replaying the log -/

/-- The events that a run publishes. -/
def publishedBy (as : List LiveAction) : List DomainEvent :=
  as.filterMap fun
    | .publish event => some event
    | .handle _ => none

theorem bus_exec (as : List LiveAction) :
    (Run.exec (step env) s as).bus = Run.exec published s.bus (publishedBy as) := by
  induction as generalizing s with
  | nil => rfl
  | cons a as ih =>
    rw [Run.exec_cons, ih]
    cases a with
    | publish event => rfl
    | handle clock =>
      rw [step]
      cases s.queue <;> rfl

/-- Valid events with keys of their own are all accepted. -/
theorem committed_exec {η : Type} {bus : DispatchingBus η} {history events : List DomainEvent}
    (hbus : InMemoryEventBus.Consistent bus.bus history)
    (hvalid : ∀ event ∈ events, event.Accepted)
    (hnodup : ((history ++ events).map DomainEvent.dedupKey).Nodup) :
    Committed bus history events (Run.exec published bus events) := by
  induction events generalizing bus history with
  | nil => exact Committed.refl hbus
  | cons event events ih =>
    obtain ⟨hevent, hrest⟩ := List.forall_mem_cons.1 hvalid
    have hnew : event.dedupKey ∉ bus.bus.seenKeys := by
      rw [mem_seenKeys_iff hbus]
      intro hmem
      rw [List.map_append, List.nodup_append] at hnodup
      exact hnodup.2.2 _ ((Window.rtake_suffix _ _).mem hmem) _ List.mem_cons_self rfl
    have hhead := (publish_of_new hbus hevent hnew).2
    have htail := ih hhead.bus hrest (by rwa [List.append_assoc])
    exact hhead.trans htail

/-- A log that has room for everything is everything. -/
theorem Follows.accepted_eq_log (h : Follows env first s accepted done pending)
    (hroom : accepted.length ≤ s.bus.bus.maxEvents) :
    accepted.map Subtype.val = s.bus.bus.log := by
  rw [h.holds.consistent.log, Window.rtake_of_length_le (by rwa [List.length_map])]

theorem Follows.length_eq (h : Follows env first s accepted done pending) :
    accepted.length = s.bus.bus.publishedCount := by
  rw [h.holds.consistent.published, List.length_map]

/-- Nothing is left to handle. -/
theorem Follows.done_of_idle (h : Follows env first s accepted done pending) (hidle : s.queue = []) :
    done.map Prod.fst = handledOf accepted := by
  have hqueue := h.queue
  rw [hidle] at hqueue
  rw [h.order, List.forall₂_nil_left_iff.1 hqueue, List.append_nil]

/-! ### The graph -/

/-- The wall clocks of the handlers. -/
def wallOf (done : List (AcceptedEvent × HandlerClock)) (i : Nat) : Readings :=
  (done[i]?.map fun x => x.2.wall).getD fun _ => 0

theorem graph_processed (env : Reckoning) (first : ProcessorState)
    (done : List (AcceptedEvent × HandlerClock)) : (processed env first done).graph =
      rebuildFrom first.graph (done.map Prod.fst) (wallOf done) := by
  induction done generalizing first with
  | nil => rfl
  | cons x done ih =>
    rw [processed, Run.exec_cons, ← processed, ih, handleNext, graph_process]
    rfl

theorem writesOf_handledOf (accepted : List AcceptedEvent) :
    writesOf (handledOf accepted) = writesOf accepted := by
  induction accepted with
  | nil => rfl
  | cons e accepted ih =>
    rw [handledOf, List.filter_cons, ← handledOf]
    split
    · exact congrArg (edgeWrites e.1 ++ ·) ih
    · next hnone =>
      have hwrites : edgeWrites e.1 = [] := by
        rw [edgeWrites]
        cases htype : e.1.eventType <;> rw [htype] at hnone <;>
          first | rfl | exact absurd rfl hnone
      rw [ih, writesOf, writesOf, List.flatMap_cons, hwrites, List.nil_append]

/-! ### The labels -/

/-- A label without the time it was made. -/
def undatedLabel (label : GroundTruthLabel) : GroundTruthLabel := { label with createdAt := 0 }

def undatedLabels (labels : GroundTruth) : List (String × List GroundTruthLabel) :=
  labels.items.map fun x => (x.1, x.2.map undatedLabel)

theorem undatedLabels_addGroundTruth (labels : GroundTruth) (label : GroundTruthLabel) :
    undatedLabels (addGroundTruth labels label) = PyDict.put label.methodUsed
      (((PyDict.find label.methodUsed (undatedLabels labels)).getD []) ++ [undatedLabel label])
      (undatedLabels labels) := by
  rw [undatedLabels, undatedLabels, PyDict.find_map_snd, addGroundTruth, PyDict.getD, PyDict.get?]
  have hput := PyDict.put_map_snd (List.map undatedLabel) label.methodUsed
    ((PyDict.find label.methodUsed labels.items).getD [] ++ [label]) labels.items
  rw [List.map_append, List.map_singleton] at hput
  refine Eq.trans hput.symm ?_
  cases PyDict.find label.methodUsed labels.items <;> rfl

theorem undatedLabels_process (env env' : Reckoning) {p p' : ProcessorState}
    (h : undatedLabels p.groundTruth = undatedLabels p'.groundTruth) (e : AcceptedEvent)
    (clock clock' : HandlerClock) : undatedLabels (process env p e clock).groundTruth =
      undatedLabels (process env' p' e clock').groundTruth := by
  rw [process, process]
  cases e.1.eventType with
  | attributionCorrection =>
    dsimp only
    rw [handleCorrection, handleCorrection, undatedLabels_addGroundTruth,
      undatedLabels_addGroundTruth, h]
    rfl
  | _ => exact h

theorem undatedLabels_processed (env env' : Reckoning) {p p' : ProcessorState}
    (h : undatedLabels p.groundTruth = undatedLabels p'.groundTruth)
    {done done' : List (AcceptedEvent × HandlerClock)}
    (hdone : done.map Prod.fst = done'.map Prod.fst) :
    undatedLabels (processed env p done).groundTruth =
      undatedLabels (processed env' p' done').groundTruth := by
  induction done generalizing p p' done' with
  | nil =>
    obtain rfl := List.map_eq_nil_iff.1 hdone.symm
    exact h
  | cons x done ih =>
    match done', hdone with
    | y :: done', hdone =>
      obtain ⟨hhead, htail⟩ := List.cons.inj hdone
      rw [processed, processed, Run.exec_cons, Run.exec_cons, handleNext, handleNext, hhead]
      exact ih (undatedLabels_process env env' h y.1 x.2 y.2) htail

/-! ### Two platforms -/

/-- A run of a new platform that the log of another one is fed to, which is idle and has dropped
nothing; the new one has room for it, and is idle in the end. -/
structure Replays (s : LivePlatform) (maxEvents : Nat) (as : List LiveAction) (s' : LivePlatform) :
    Prop where
  whole : s.bus.bus.publishedCount ≤ s.bus.bus.maxEvents
  fed : publishedBy as = s.bus.bus.log
  room : s.bus.bus.log.length ≤ maxEvents
  idle : s.queue = [] ∧ s'.queue = []

/-- What the two platforms have in common. -/
structure SameRecord (s s' : LivePlatform) : Prop where
  log : s'.bus.bus.log = s.bus.bus.log
  handled : s'.clocks.length = s.clocks.length
  nodes : SameNodes s.processor.graph s'.processor.graph
  labels : undatedLabels s.processor.groundTruth = undatedLabels s'.processor.groundTruth
  /-- Where no event adds an edge that is still open, every historical query is answered alike. -/
  answers : ∀ accepted : List AcceptedEvent, accepted.map Subtype.val = s.bus.bus.log →
    FreshEdges accepted → Agree s.processor.graph s'.processor.graph

theorem map_val_injective {events events' : List AcceptedEvent}
    (h : events.map Subtype.val = events'.map Subtype.val) : events = events' :=
  List.map_injective_iff.2 Subtype.val_injective h

/-- What is fed to a new platform with room for it is what this accepts. -/
theorem Follows.accepted_of_fed {maxEvents : Nat} {events : List DomainEvent} {as : List LiveAction}
    (h : Follows env first (Run.exec (step env) (start maxEvents first) as) accepted done pending)
    (hfed : publishedBy as = events) (hvalid : ∀ event ∈ events, event.Accepted)
    (hnodup : (events.map DomainEvent.dedupKey).Nodup) (hroom : events.length ≤ maxEvents) :
    accepted.map Subtype.val = events ∧
      (Run.exec (step env) (start maxEvents first) as).bus.bus.log = events := by
  have hbus := committed_exec (holds_new maxEvents subscribed).consistent hvalid
    (by rwa [List.nil_append])
  have hrun : (Run.exec (step env) (start maxEvents first) as).bus =
      Run.exec published (new maxEvents subscribed) events := by
    rw [bus_exec, hfed]
    rfl
  rw [← hrun] at hbus
  have hmax : (Run.exec (step env) (start maxEvents first) as).bus.bus.maxEvents = maxEvents :=
    hbus.maxEvents
  have hconsistent := hbus.bus
  rw [List.nil_append] at hconsistent
  have hlog : (Run.exec (step env) (start maxEvents first) as).bus.bus.log = events := by
    rw [hconsistent.log, hmax, Window.rtake_of_length_le hroom]
  refine ⟨?_, hlog⟩
  rw [h.accepted_eq_log, hlog]
  rw [h.length_eq, hconsistent.published, hmax]
  exact hroom

theorem sameRecord_of_replays {env env' : Reckoning} {first first' : ProcessorState}
    (hgraph : first.graph = {} ∧ first'.graph = {})
    (hlabels : undatedLabels first.groundTruth = undatedLabels first'.groundTruth)
    {maxEvents maxEvents' : Nat} {as as' : List LiveAction}
    (h : Replays (Run.exec (step env) (start maxEvents first) as) maxEvents' as'
      (Run.exec (step env') (start maxEvents' first') as')) :
    SameRecord (Run.exec (step env) (start maxEvents first) as)
      (Run.exec (step env') (start maxEvents' first') as') := by
  obtain ⟨accepted, done, pending, hf⟩ := follows_exec env maxEvents first as
  obtain ⟨accepted', done', pending', hf'⟩ := follows_exec env' maxEvents' first' as'
  generalize Run.exec (step env) (start maxEvents first) as = s at h hf ⊢
  have hlog : accepted.map Subtype.val = s.bus.bus.log :=
    hf.accepted_eq_log (by rw [hf.length_eq]; exact h.whole)
  obtain ⟨haccepted', hlog'⟩ := hf'.accepted_of_fed h.fed
    (fun event hevent => hf.holds.valid event (by rwa [hlog]))
    hf.holds.consistent.log_nodup h.room
  obtain rfl := map_val_injective (haccepted'.trans hlog.symm)
  generalize Run.exec (step env') (start maxEvents' first') as' = s' at h hf' hlog' ⊢
  have hdone : done.map Prod.fst = done'.map Prod.fst :=
    (hf.done_of_idle h.idle.1).trans (hf'.done_of_idle h.idle.2).symm
  have hrebuild : s.processor.graph = rebuild (done.map Prod.fst) (wallOf done) := by
    rw [hf.processor, graph_processed, hgraph.1, rebuild]
  have hrebuild' : s'.processor.graph = rebuild (done.map Prod.fst) (wallOf done') := by
    rw [hf'.processor, graph_processed, hgraph.2, rebuild, hdone]
  refine ⟨hlog', ?_, ?_, ?_, fun events hevents hfresh => ?_⟩
  · have hlength := congrArg List.length hdone
    rw [List.length_map, List.length_map] at hlength
    rw [hf.clocks, hf'.clocks, List.length_map, List.length_map, hlength]
  · rw [hrebuild, hrebuild']
    have hempty : MatchesHistory (fun _ => True) {} [] :=
      ⟨InMemoryGraphStore.wellIndexed_empty, .nil⟩
    exact sameNodes_rebuildFrom hempty hempty (fun _ => rfl) _ _ _
  · rw [hf.processor, hf'.processor]
    exact undatedLabels_processed env env' hlabels hdone
  · obtain rfl := map_val_injective (hevents.trans hlog.symm)
    rw [hrebuild, hrebuild']
    refine agree_of_fresh ?_ _ _
    rw [hf.done_of_idle h.idle.1, FreshEdges, writesOf_handledOf]
    exact hfresh

/-- **The platform is its log.**  Whatever the order in which events are published and handlers run,
the processor is that of the first of the accepted events; and a new platform that is fed the whole
log, in whatever order its own handlers run, has the same nodes and labels, and gives the same
historical answers where no event adds an edge that is still open. -/
theorem platform_is_log (env : Reckoning) (maxEvents : Nat) (first : ProcessorState)
    (as : List LiveAction) :
    (∃ accepted done pending,
      Follows env first (Run.exec (step env) (start maxEvents first) as) accepted done pending) ∧
    ∀ (env' : Reckoning) (maxEvents' : Nat) (first' : ProcessorState) (as' : List LiveAction),
      first.graph = {} ∧ first'.graph = {} →
      undatedLabels first.groundTruth = undatedLabels first'.groundTruth →
      Replays (Run.exec (step env) (start maxEvents first) as) maxEvents' as'
        (Run.exec (step env') (start maxEvents' first') as') →
      SameRecord (Run.exec (step env) (start maxEvents first) as)
        (Run.exec (step env') (start maxEvents' first') as') :=
  ⟨follows_exec env maxEvents first as, fun _ _ _ _ hgraph hlabels h =>
    sameRecord_of_replays hgraph hlabels h⟩

/-- A membership is published, and handled at this time. -/
def joinHandledAt (t : Instant) : List LiveAction :=
  [.publish (joinsTeam "e0" 0).1, .handle (stoppedAt t)]

theorem replays_joinHandledAt :
    Replays (Run.exec (step noEvidence) (start 10 {}) (joinHandledAt 5)) 1 (joinHandledAt 1000)
      (Run.exec (step noEvidence) (start 1 {}) (joinHandledAt 1000)) where
  whole := by
    rw [bus_exec]
    decide
  fed := rfl
  room := by
    rw [bus_exec]
    decide
  idle := ⟨rfl, rfl⟩

/-- Handled again a second later, the membership gives the same record. -/
theorem platform_is_log_joined :
    SameRecord (Run.exec (step noEvidence) (start 10 {}) (joinHandledAt 5))
      (Run.exec (step noEvidence) (start 1 {}) (joinHandledAt 1000)) :=
  (platform_is_log noEvidence 10 {} (joinHandledAt 5)).2 noEvidence 1 {} (joinHandledAt 1000)
    ⟨rfl, rfl⟩ rfl replays_joinHandledAt

end LivePlatform
end ComputeIntelligence
