import ComputeIntelligence.BatchIngestion
import ComputeIntelligence.KafkaPublish

/-! # Replaying the log

`replay` of the in-memory bus (`core/event_bus.py`) reads events back out of its log, to be published
again: to another bus, or to the same one.

Whatever was published before, a new bus takes every replayed event, in its order, and its log is
what was replayed; taken once more, all of them are deduplicated and nobody is given them
(`replay_rebuilds`).
-/
namespace ComputeIntelligence
namespace DispatchingBus
open InMemoryEventBus
variable {η ζ : Type}

/-- A call of `publish`, whatever it answers. -/
def published (s : DispatchingBus η) (event : DomainEvent) : DispatchingBus η :=
  (s.publish event).2

/-- A bus with its handlers that nothing was published to. -/
def new (maxEvents : Nat) (handlers : PyDict String (List η)) : DispatchingBus η :=
  { bus := InMemoryEventBus.init maxEvents, handlers }

/-- The bus accepted some events, all of them valid. -/
structure Holds (s : DispatchingBus η) (history : List DomainEvent) : Prop where
  consistent : Consistent s.bus history
  valid : ∀ event ∈ history, event.Accepted

variable {s : DispatchingBus η} {history events : List DomainEvent} {event : DomainEvent}

theorem holds_new (maxEvents : Nat) (handlers : PyDict String (List η)) :
    Holds (new maxEvents handlers) [] :=
  ⟨init_consistent maxEvents, fun _ h => absurd h List.not_mem_nil⟩

/-- An invalid event changes nothing. -/
theorem published_of_invalid (h : ¬ event.Accepted) : s.published event = s := by
  rw [published, publish, publish_eq]
  cases hvalid : validateDomainEvent event with
  | error e => rfl
  | ok u =>
    cases u
    exact absurd (validateDomainEvent_ok_iff.1 hvalid) h

theorem Holds.publish (h : Holds s history) (event : DomainEvent) :
    ∃ history', Holds (s.published event) history' ∧
      (s.published event).bus.maxEvents = s.bus.maxEvents := by
  by_cases hvalid : event.Accepted
  · by_cases hseen : event.dedupKey ∈ s.bus.seenKeys
    · obtain ⟨-, hcommitted⟩ := publish_of_seen h.consistent hvalid hseen
      have hbus := hcommitted.bus
      rw [List.append_nil] at hbus
      exact ⟨history, ⟨hbus, h.valid⟩, hcommitted.maxEvents⟩
    · obtain ⟨-, hcommitted⟩ := publish_of_new h.consistent hvalid hseen
      refine ⟨history ++ [event], ⟨hcommitted.bus, fun e he => ?_⟩, hcommitted.maxEvents⟩
      rcases List.mem_append.1 he with hold | hnew
      · exact h.valid e hold
      · rw [List.mem_singleton.1 hnew]
        exact hvalid
  · rw [published_of_invalid hvalid]
    exact ⟨history, h, rfl⟩

/-- A bus that events were published to holds some of them. -/
theorem holds_exec (maxEvents : Nat) (handlers : PyDict String (List η))
    (calls : List DomainEvent) :
    ∃ history, Holds (Run.exec published (new maxEvents handlers) calls) history ∧
      (Run.exec published (new maxEvents handlers) calls).bus.maxEvents = maxEvents := by
  induction calls using List.reverseRecOn with
  | nil => exact ⟨[], holds_new maxEvents handlers, rfl⟩
  | append_singleton calls event ih =>
    obtain ⟨history, h, hmax⟩ := ih
    rw [Run.exec_concat]
    obtain ⟨history', h', hmax'⟩ := h.publish event
    exact ⟨history', h', hmax'.trans hmax⟩

/-- Events with keys of their own are all new. -/
theorem newEvents_of_nodup {remembered : Nat}
    (h : ((history ++ events).map DomainEvent.dedupKey).Nodup) :
    newEvents remembered history events = events := by
  induction events generalizing history with
  | nil => rfl
  | cons event events ih =>
    have hfresh : event.dedupKey ∉ history.map DomainEvent.dedupKey := by
      rw [List.map_append, List.nodup_append] at h
      exact fun hmem => h.2.2 _ hmem _ List.mem_cons_self rfl
    have hwindow : event.dedupKey ∉ (history.map DomainEvent.dedupKey).rtake remembered :=
      fun hmem => hfresh ((Window.rtake_suffix _ _).mem hmem)
    rw [newEvents, if_neg hwindow, ih]
    rwa [List.append_assoc]

/-- Events whose keys are remembered are not new. -/
theorem newEvents_of_remembered {remembered : Nat}
    (h : ∀ event ∈ events, event.dedupKey ∈ (history.map DomainEvent.dedupKey).rtake remembered) :
    newEvents remembered history events = [] := by
  induction events with
  | nil => rfl
  | cons event events ih =>
    rw [newEvents, if_pos (h event List.mem_cons_self)]
    exact ih fun e he => h e (List.mem_cons_of_mem _ he)

/-- What was replayed, published to a new bus: all of it is taken, once. -/
structure Rebuilds (target : DispatchingBus ζ) (events : List DomainEvent) : Prop where
  taken : (target.publishBatch events).1 = .ok (events.length, 0)
  log : (target.publishBatch events).2.bus.log = events
  given : (target.publishBatch events).2.dispatched = events.flatMap fun event =>
    (target.handlersOf event).map (·, event)
  again : ((target.publishBatch events).2.publishBatch events).1 = .ok (0, events.length)
  quiet : ((target.publishBatch events).2.publishBatch events).2.dispatched =
    (target.publishBatch events).2.dispatched
  kept : ((target.publishBatch events).2.publishBatch events).2.bus.log = events

/-- Valid events with keys of their own, as many as the bus keeps. -/
theorem rebuilds_of_distinct {maxEvents : Nat} (handlers : PyDict String (List ζ))
    (hvalid : ∀ event ∈ events, event.Accepted) (hroom : events.length ≤ maxEvents)
    (hnodup : (events.map DomainEvent.dedupKey).Nodup) :
    Rebuilds (new maxEvents handlers) events := by
  have hfresh := (holds_new maxEvents handlers).consistent
  obtain ⟨dropped, hcount, hanswer, hcommitted⟩ := publishLoop_spec hfresh hvalid 0 0
  rw [newEvents_of_nodup (by rwa [List.nil_append])] at hcount hanswer hcommitted
  have hbus := hcommitted.bus
  rw [List.nil_append] at hbus
  have hlog : ((new maxEvents handlers).publishBatch events).2.bus.log = events := by
    rw [publishBatch, hcommitted.log]
    exact Window.rtake_of_length_le hroom
  obtain ⟨dropped', hcount', hanswer', hcommitted'⟩ := publishLoop_spec hbus hvalid 0 0
  -- the new bus remembers twice as many keys as it keeps events
  have hremembered : ∀ event ∈ events, event.dedupKey ∈ (events.map DomainEvent.dedupKey).rtake
      ((new maxEvents handlers).publishLoop 0 0 events).2.bus.maxIdempotencyKeys := by
    intro event hevent
    rw [Window.rtake_of_length_le]
    · exact List.mem_map_of_mem hevent
    · rw [maxIdempotencyKeys, hcommitted.maxEvents, List.length_map]
      change events.length ≤ maxEvents * 2
      omega
  rw [newEvents_of_remembered hremembered] at hcount' hanswer' hcommitted'
  have hdropped : dropped = 0 := by omega
  have hdropped' : dropped' = events.length := by
    rw [List.length_nil] at hcount'
    omega
  refine ⟨?_, hlog, ?_, ?_, ?_, ?_⟩
  · rw [publishBatch, hanswer, hdropped, Nat.zero_add]
  · rw [publishBatch, hcommitted.dispatched]
    exact List.nil_append _
  · rw [publishBatch, publishBatch, hanswer', hdropped', List.length_nil, Nat.zero_add,
      Nat.zero_add]
  · rw [publishBatch, publishBatch, hcommitted'.dispatched]
    exact List.append_nil _
  · rw [publishBatch, publishBatch, hcommitted'.log, List.append_nil, rtake_log hbus]
    exact hlog

theorem replay_all (bus : InMemoryEventBus) : bus.replay ⟨none, none, none⟩ = .ok bus.log := by
  rw [replay]
  induction bus.log with
  | nil => rfl
  | cons event events ih =>
    rw [replayLoop, ih]
    rfl

/-- **What was replayed rebuilds the log**: from a bus that any events were published to, whatever
part of its log is replayed, a new bus with the same room takes all of it, once; and with no bounds,
that is the whole log. -/
theorem replay_rebuilds (maxEvents : Nat) (handlers : PyDict String (List η))
    (handlers' : PyDict String (List ζ)) (calls : List DomainEvent) (f : ReplayFilter)
    (hreplay : (Run.exec published (new maxEvents handlers) calls).bus.replay f = .ok events) :
    Rebuilds (new maxEvents handlers') events ∧
      (Run.exec published (new maxEvents handlers) calls).bus.replay ⟨none, none, none⟩ =
        .ok (Run.exec published (new maxEvents handlers) calls).bus.log := by
  obtain ⟨history, h, hmax⟩ := holds_exec maxEvents handlers calls
  refine ⟨?_, replay_all _⟩
  have hsublist := replayLoop_sublist hreplay
  have hlog := h.consistent.log
  rw [hmax] at hlog
  refine rebuilds_of_distinct handlers' (fun event hevent => ?_) ?_ ?_
  · refine h.valid event ((Window.rtake_suffix history maxEvents).mem ?_)
    rw [← hlog]
    exact hsublist.mem hevent
  · refine hsublist.length_le.trans ?_
    rw [hlog, Window.length_rtake]
    omega
  · exact h.consistent.log_nodup.sublist (hsublist.map _)

/-- Three publications, the second a repeat: the two events that are replayed rebuild the log. -/
theorem replay_rebuilds_repeated :
    let first := KafkaEventBus.calibrationEvent "acme" "ci" "k"
    let second := KafkaEventBus.calibrationEvent "acme" "ci" "l"
    let source : DispatchingBus Unit :=
      Run.exec published (new 2 .empty) [first, first, second]
    Rebuilds (new 2 .empty : DispatchingBus Unit) [first, second] ∧
      source.bus.replay ⟨none, none, none⟩ = .ok source.bus.log := by
  intro first second source
  have hfirst : validateDomainEvent first = .ok () :=
    validateDomainEvent_ok_iff.2 ⟨rfl, by decide +kernel⟩
  have hsecond : validateDomainEvent second = .ok () :=
    validateDomainEvent_ok_iff.2 ⟨rfl, by decide +kernel⟩
  have hlog : source.bus.log = [first, second] := by
    simp only [source, Run.exec, List.foldl_cons, List.foldl_nil, published, publish, publish_eq,
      hfirst, hsecond]
    rfl
  have hreplay : source.bus.replay ⟨none, none, some ["system.calibration_updated"]⟩ =
      .ok [first, second] := by
    rw [replay, hlog]
    rfl
  exact replay_rebuilds 2 .empty .empty [first, first, second] _ hreplay

end DispatchingBus
end ComputeIntelligence
