import ComputeIntelligence.EventIngestion

/-! # Ingesting a batch

`ingest_events_batch` builds the events of a whole batch before it publishes the first one.  An
element that cannot become an event therefore stops the batch while the bus is as it was.
Publishing goes through the events one by one and validates each again, with the earlier ones
already in the log; since a built event is accepted (`domainEvent_accepted`), this second validation never stops it
halfway, and the batch goes in as a whole: the new events in their order, the others counted as
duplicates (`newEvents`).
-/
namespace ComputeIntelligence

/-! ### The first pass -/

/-- An element that cannot become an event. -/
inductive Rejected (body : EventIngestBody) : Prop where
  | unknownType (h : EventType.ofValue? body.eventType = none)
  | payload {req : EventIngestRequest} (hparse : body.parse? = some req)
      (h : ¬(eventPayloadSchemas req.eventType).Accepts req.attributes)
  | naive {req : EventIngestRequest} (hparse : body.parse? = some req)
      (h : req.eventTime.utcoffset = none)
  | oversized {req : EventIngestRequest} (hparse : body.parse? = some req)
      (h : payloadFits
        (PyDict.ofList ((eventPayloadSchemas req.eventType).dump req.attributes)) = false)

/-- The others are valid requests. -/
theorem not_rejected_iff {body : EventIngestBody} :
    ¬Rejected body ↔ ∃ req, body.parse? = some req ∧ req.Valid := by
  constructor
  · intro h
    cases htype : EventType.ofValue? body.eventType with
    | none => exact absurd (.unknownType htype) h
    | some eventType =>
      have hparse : body.parse? = some { body.toIngestFields with eventType } := by
        unfold EventIngestBody.parse?
        rw [htype]
        rfl
      refine ⟨_, hparse, ?_, ?_, ?_⟩
      · exact Classical.not_not.1 fun hpayload => h (.payload hparse hpayload)
      · rw [← Option.not_isNone, Bool.not_eq_true', Bool.eq_false_iff, Ne,
          Option.isNone_iff_eq_none]
        exact fun hnaive => h (.naive hparse hnaive)
      · by_contra hfits
        exact h (.oversized hparse (Bool.eq_false_iff.2 hfits))
  · rintro ⟨req, hparse, hvalid⟩ hrejected
    cases hrejected with
    | unknownType h =>
      unfold EventIngestBody.parse? at hparse
      rw [h] at hparse
      cases hparse
    | payload hparse' h =>
      obtain rfl := Option.some.inj (hparse.symm.trans hparse')
      exact h hvalid.payload
    | naive hparse' h =>
      obtain rfl := Option.some.inj (hparse.symm.trans hparse')
      have haware := hvalid.aware
      rw [h] at haware
      cases haware
    | oversized hparse' h =>
      obtain rfl := Option.some.inj (hparse.symm.trans hparse')
      have hfits := hvalid.fits
      rw [h] at hfits
      cases hfits

namespace IngestApp
variable {η : Type}

theorem parseAll?_eq_some_iff {batch : List (EventIngestBody × EventStamp)}
    {reqs : List (EventIngestRequest × EventStamp)} :
    parseAll? batch = some reqs ↔
      List.Forall₂ (fun p r => p.1.parse? = some r.1 ∧ r.2 = p.2) batch reqs := by
  induction batch generalizing reqs with
  | nil => simp [parseAll?, eq_comm]
  | cons p batch ih =>
    obtain ⟨body, stamp⟩ := p
    simp only [parseAll?, Option.bind_eq_bind, Option.bind_eq_some_iff, List.forall₂_cons_left_iff]
    constructor
    · rintro ⟨req, hreq, rest, hrest, heq⟩
      obtain rfl := Option.some.inj heq
      exact ⟨(req, stamp), rest, ⟨hreq, rfl⟩, ih.1 hrest, rfl⟩
    · rintro ⟨⟨req, stamp'⟩, rest, ⟨hreq, rfl⟩, hrest, rfl⟩
      exact ⟨req, hreq, rest, ih.2 hrest, rfl⟩

theorem buildEvents_ok_iff {tenantId : String} {reqs : List (EventIngestRequest × EventStamp)}
    {events : List DomainEvent} :
    buildEvents tenantId reqs = .ok events ↔
      List.Forall₂ (fun r event => r.1.domainEvent tenantId r.2 = .ok event) reqs events := by
  induction reqs generalizing events with
  | nil => simp [buildEvents, eq_comm]
  | cons r reqs ih =>
    obtain ⟨req, stamp⟩ := r
    rw [List.forall₂_cons_left_iff]
    unfold buildEvents
    cases hhead : req.domainEvent tenantId stamp with
    | error refusal =>
      refine iff_of_false (fun h => by cases h) ?_
      rintro ⟨event, rest, h, -⟩
      cases h
    | ok event =>
      cases hrest : buildEvents tenantId reqs with
      | error refusal =>
        refine iff_of_false (fun h => by cases h) ?_
        rintro ⟨event', rest, -, h, -⟩
        have hok := ih.2 h
        rw [hrest] at hok
        cases hok
      | ok rest =>
        constructor
        · intro h
          obtain rfl := Except.ok.inj h
          exact ⟨event, rest, rfl, ih.1 hrest, rfl⟩
        · rintro ⟨event', rest', hevent, h, rfl⟩
          have hok := ih.2 h
          rw [hrest] at hok
          obtain rfl := Except.ok.inj hok
          obtain rfl := Except.ok.inj hevent
          rfl

/-- The two passes over the elements go through exactly if none of them is rejected. -/
theorem exists_events_iff {tenantId : String} {batch : List (EventIngestBody × EventStamp)} :
    (∃ reqs events, parseAll? batch = some reqs ∧ buildEvents tenantId reqs = .ok events) ↔
      ∀ p ∈ batch, ¬Rejected p.1 := by
  simp only [parseAll?_eq_some_iff, buildEvents_ok_iff, not_rejected_iff]
  constructor
  · rintro ⟨reqs, events, hparse, hbuild⟩ p hp
    obtain ⟨r, hr, hreq, -⟩ := StrictSchema.exists_of_forall₂ hparse p hp
    obtain ⟨event, -, hevent⟩ := StrictSchema.exists_of_forall₂ hbuild r hr
    exact ⟨r.1, hreq, (domainEvent_ok_iff.1 hevent).1⟩
  · intro h
    induction batch with
    | nil => exact ⟨[], [], .nil, .nil⟩
    | cons p batch ih =>
      obtain ⟨⟨req, hparse, hvalid⟩, hrest⟩ := List.forall_mem_cons.1 h
      obtain ⟨reqs, events, hreqs, hevents⟩ := ih hrest
      exact ⟨(req, p.2) :: reqs, hvalid.event tenantId p.2 :: events,
        .cons ⟨hparse, rfl⟩ hreqs, .cons (hvalid.domainEvent tenantId p.2) hevents⟩

end IngestApp

/-! ### The second pass -/

/-- The events of a batch that are new to a bus which has accepted a history and remembers the keys
of its last events. -/
def newEvents (remembered : Nat) : List DomainEvent → List DomainEvent → List DomainEvent
  | _, [] => []
  | history, event :: events =>
      if event.dedupKey ∈ (history.map DomainEvent.dedupKey).rtake remembered then
        newEvents remembered history events
      else event :: newEvents remembered (history ++ [event]) events

/-- They are events of the batch, in their order. -/
theorem newEvents_sublist (remembered : Nat) (history events : List DomainEvent) :
    (newEvents remembered history events).Sublist events := by
  induction events generalizing history with
  | nil => exact .slnil
  | cons event events ih =>
    unfold newEvents
    split
    · exact (ih history).cons event
    · exact (ih (history ++ [event])).cons_cons event

namespace DispatchingBus
open InMemoryEventBus
variable {η : Type}

/-- Some events, and no others, have been accepted since: they are in the log and among the keys,
and have been given to their handlers, in their order. -/
structure Committed (s : DispatchingBus η) (history new : List DomainEvent)
    (s' : DispatchingBus η) : Prop where
  bus : Consistent s'.bus (history ++ new)
  log : s'.bus.log = (s.bus.log ++ new).rtake s.bus.maxEvents
  dispatched : s'.dispatched = s.dispatched ++ new.flatMap fun event =>
    (s.handlersOf event).map (·, event)
  handlers : s'.handlers = s.handlers
  maxEvents : s'.bus.maxEvents = s.bus.maxEvents

variable {s s' s'' : DispatchingBus η} {history new new' : List DomainEvent} {event : DomainEvent}

theorem Committed.trans (h : Committed s history new s')
    (h' : Committed s' (history ++ new) new' s'') : Committed s history (new ++ new') s'' where
  bus := by
    rw [← List.append_assoc]
    exact h'.bus
  log := by
    rw [h'.log, h.log, h.maxEvents, Window.rtake_append_rtake, List.append_assoc]
  dispatched := by
    have hsame : s'.handlersOf = s.handlersOf := by
      unfold handlersOf
      rw [h.handlers]
    rw [h'.dispatched, h.dispatched, hsame, List.flatMap_append, List.append_assoc]
  handlers := h'.handlers.trans h.handlers
  maxEvents := h'.maxEvents.trans h.maxEvents

/-- The log of a bus is never longer than it may be. -/
theorem rtake_log (hs : Consistent s.bus history) :
    s.bus.log.rtake s.bus.maxEvents = s.bus.log := by
  apply Window.rtake_of_length_le
  rw [hs.log, Window.length_rtake]
  omega

theorem Committed.refl (hs : Consistent s.bus history) : Committed s history [] s where
  bus := by rwa [List.append_nil]
  log := by rw [List.append_nil, rtake_log hs]
  dispatched := (List.append_nil _).symm
  handlers := rfl
  maxEvents := rfl

/-- The remembered keys are those of the last events. -/
theorem mem_seenKeys_iff (hs : Consistent s.bus history) : event.dedupKey ∈ s.bus.seenKeys ↔
    event.dedupKey ∈ (history.map DomainEvent.dedupKey).rtake s.bus.maxIdempotencyKeys := by
  rw [hs.seen, hs.order]

/-- A valid event with a remembered key is dropped. -/
theorem publish_of_seen (hs : Consistent s.bus history) (haccepted : event.Accepted)
    (hseen : event.dedupKey ∈ s.bus.seenKeys) :
    (s.publish event).1 = .ok false ∧ Committed s history [] (s.publish event).2 := by
  have hpublish : s.bus.publish event =
      (.ok false, { s.bus with deduplicatedCount := s.bus.deduplicatedCount + 1 }) := by
    rw [publish_eq, validateDomainEvent_ok_iff.2 haccepted]
    unfold underLock
    rw [if_pos hseen]
  unfold DispatchingBus.publish
  rw [hpublish]
  refine ⟨rfl, ?_⟩
  have hsame := Committed.refl (s := s) hs
  exact ⟨⟨hsame.bus.order, hsame.bus.nodup, hsame.bus.seen, hsame.bus.log, hsame.bus.published,
    hsame.bus.evictions, hsame.bus.topics⟩, hsame.log, hsame.dispatched, rfl, rfl⟩

/-- A valid event with a new key is appended, and its handlers get it. -/
theorem publish_of_new (hs : Consistent s.bus history) (haccepted : event.Accepted)
    (hnew : event.dedupKey ∉ s.bus.seenKeys) :
    (s.publish event).1 = .ok true ∧ Committed s history [event] (s.publish event).2 := by
  have hpublish : s.bus.publish event =
      (.ok true, (s.bus.remember event.dedupKey).append event) := by
    rw [publish_eq, validateDomainEvent_ok_iff.2 haccepted]
    unfold underLock
    rw [if_neg hnew]
  obtain ⟨hmax, hlog, -⟩ := remember_frame s.bus event.dedupKey
  unfold DispatchingBus.publish
  rw [hpublish]
  refine ⟨rfl, hs.accept hnew, ?_, ?_, rfl, hmax⟩
  · show ((s.bus.remember event.dedupKey).log ++ [event]).rtake
      (s.bus.remember event.dedupKey).maxEvents = _
    rw [hmax, hlog]
  · rw [List.flatMap_singleton]
    rfl

/-- The loop of `publish_batch` never raises for valid events, and commits the new ones. -/
theorem publishLoop_spec {events : List DomainEvent} (hs : Consistent s.bus history)
    (haccepted : ∀ event ∈ events, event.Accepted) (published deduplicated : Nat) :
    ∃ dropped, (newEvents s.bus.maxIdempotencyKeys history events).length + dropped =
        events.length ∧
      (s.publishLoop published deduplicated events).1 =
        .ok (published + (newEvents s.bus.maxIdempotencyKeys history events).length,
          deduplicated + dropped) ∧
      Committed s history (newEvents s.bus.maxIdempotencyKeys history events)
        (s.publishLoop published deduplicated events).2 := by
  induction events generalizing s history published deduplicated with
  | nil => exact ⟨0, rfl, rfl, Committed.refl hs⟩
  | cons event events ih =>
    obtain ⟨hevent, hrest⟩ := List.forall_mem_cons.1 haccepted
    unfold newEvents publishLoop
    by_cases hseen : event.dedupKey ∈ s.bus.seenKeys
    · obtain ⟨hanswer, hcommitted⟩ := publish_of_seen hs hevent hseen
      rw [if_pos ((mem_seenKeys_iff hs).1 hseen)]
      cases hpublish : s.publish event with
      | mk answer s' =>
        rw [hpublish] at hanswer hcommitted
        obtain rfl := hanswer
        have hbus := hcommitted.bus
        rw [List.append_nil] at hbus
        have hkeys : s'.bus.maxIdempotencyKeys = s.bus.maxIdempotencyKeys :=
          congrArg (· * 2) hcommitted.maxEvents
        obtain ⟨dropped, hcount, hloop, hrun⟩ := ih hbus hrest published (deduplicated + 1)
        rw [hkeys] at hcount hloop hrun
        refine ⟨dropped + 1, ?_, ?_, ?_⟩
        · rw [List.length_cons]
          omega
        · rw [Nat.add_comm dropped, ← Nat.add_assoc]
          exact hloop
        · exact hcommitted.trans (by rwa [List.append_nil])
    · obtain ⟨hanswer, hcommitted⟩ := publish_of_new hs hevent hseen
      rw [if_neg fun hmem => hseen ((mem_seenKeys_iff hs).2 hmem)]
      cases hpublish : s.publish event with
      | mk answer s' =>
        rw [hpublish] at hanswer hcommitted
        obtain rfl := hanswer
        have hkeys : s'.bus.maxIdempotencyKeys = s.bus.maxIdempotencyKeys :=
          congrArg (· * 2) hcommitted.maxEvents
        obtain ⟨dropped, hcount, hloop, hrun⟩ :=
          ih hcommitted.bus hrest (published + 1) deduplicated
        rw [hkeys] at hcount hloop hrun
        refine ⟨dropped, ?_, ?_, ?_⟩
        · rw [List.length_cons, List.length_cons]
          omega
        · rw [Nat.add_assoc, Nat.add_comm 1] at hloop
          exact hloop
        · exact hcommitted.trans hrun

end DispatchingBus

/-! ### The whole batch -/

namespace IngestApp
open DispatchingBus InMemoryEventBus
variable {η : Type}

/-- Who gets past the two checks at the start. -/
theorem letIn_ok_iff {app : IngestApp η} {key : String} {now : ℚ} :
    (app.letIn key now).1 = .ok () ↔
      app.acceptsIngestion = true ∧ (app.ingestRateLimiter.allow key now).1 = true := by
  unfold letIn
  cases app.acceptsIngestion with
  | false => simp
  | true =>
    cases hallow : app.ingestRateLimiter.allow key now with
    | mk allowed limiter => cases allowed <;> simp

/-- A batch that goes through. -/
structure Passes (app : IngestApp η) (key : String) (now : ℚ)
    (batch : List (EventIngestBody × EventStamp)) : Prop where
  admitted : app.acceptsIngestion = true ∧ (app.ingestRateLimiter.allow key now).1 = true
  size : (batch.length : Int) ≤ app.ingestMaxBatchSize
  elements : ∀ p ∈ batch, ¬Rejected p.1

/-- The event is the one that the first pass builds of the element. -/
def BuiltFrom (tenantId : String) (p : EventIngestBody × EventStamp) (event : DomainEvent) : Prop :=
  ∃ req, p.1.parse? = some req ∧ req.domainEvent tenantId p.2 = .ok event

theorem builtFrom_of {tenantId : String} {batch : List (EventIngestBody × EventStamp)}
    {reqs : List (EventIngestRequest × EventStamp)} {events : List DomainEvent}
    (hparse : parseAll? batch = some reqs) (hbuild : buildEvents tenantId reqs = .ok events) :
    List.Forall₂ (BuiltFrom tenantId) batch events := by
  have hreqs := parseAll?_eq_some_iff.1 hparse
  have hevents := buildEvents_ok_iff.1 hbuild
  clear hparse hbuild
  induction hreqs generalizing events with
  | nil =>
    cases hevents
    exact .nil
  | cons hreq _ ih =>
    cases hevents with
    | cons hevent hrest =>
      refine .cons ⟨_, hreq.1, ?_⟩ (ih hrest)
      rw [← hreq.2]
      exact hevent

/-- A batch that does not go through is refused before anything is published. -/
theorem ingestEventsBatch_of_not_passes {app : IngestApp η} {key : String} {now : ℚ}
    {batch : List (EventIngestBody × EventStamp)} (h : ¬app.Passes key now batch) :
    (∃ refusal, (app.ingestEventsBatch key now batch).1 = .error refusal) ∧
      (app.ingestEventsBatch key now batch).2.eventBus = app.eventBus := by
  obtain ⟨hbus, htenant, hmax⟩ := letIn_frame app key now
  have hgate := @letIn_ok_iff _ app key now
  unfold ingestEventsBatch
  cases hparse : parseAll? batch with
  | none => exact ⟨⟨_, rfl⟩, rfl⟩
  | some reqs =>
    dsimp only
    have hlength : batch.length = reqs.length := (parseAll?_eq_some_iff.1 hparse).length_eq
    cases hletIn : app.letIn key now with
    | mk answer app' =>
      rw [hletIn] at hbus htenant hmax hgate
      cases answer with
      | error refusal => exact ⟨⟨_, rfl⟩, hbus⟩
      | ok _ =>
        dsimp only
        by_cases hsize : app'.ingestMaxBatchSize < reqs.length
        · rw [if_pos hsize]
          exact ⟨⟨_, rfl⟩, hbus⟩
        · rw [if_neg hsize]
          cases hbuild : buildEvents app'.tenantId reqs with
          | error refusal => exact ⟨⟨_, rfl⟩, hbus⟩
          | ok events =>
            refine absurd ⟨hgate.1 rfl, ?_, exists_events_iff.1 ⟨reqs, events, hparse, hbuild⟩⟩ h
            rw [hlength, ← hmax]
            exact Int.not_lt.1 hsize

/-- What a batch that goes through has done. -/
structure Published (app : IngestApp η) (history : List DomainEvent)
    (batch : List (EventIngestBody × EventStamp)) (response : EventBatchIngestResponse)
    (after : IngestApp η) (events : List DomainEvent) : Prop where
  built : List.Forall₂ (BuiltFrom app.tenantId) batch events
  total : response.total = batch.length
  counted : response.accepted + response.deduplicated = response.total
  accepted : response.accepted =
    (newEvents app.eventBus.bus.maxIdempotencyKeys history events).length
  committed : Committed app.eventBus history
    (newEvents app.eventBus.bus.maxIdempotencyKeys history events) after.eventBus

/-- A batch that goes through is published, and `publish_batch` does not raise. -/
theorem ingestEventsBatch_of_passes {app : IngestApp η} {history : List DomainEvent} {key : String}
    {now : ℚ} {batch : List (EventIngestBody × EventStamp)}
    (hs : Consistent app.eventBus.bus history) (h : app.Passes key now batch) :
    ∃ response events, (app.ingestEventsBatch key now batch).1 = .ok response ∧
      app.Published history batch response (app.ingestEventsBatch key now batch).2 events := by
  obtain ⟨hbus, htenant, hmax⟩ := letIn_frame app key now
  have hadmitted := letIn_ok_iff.2 h.admitted
  obtain ⟨reqs, events, hparse, hbuild⟩ := (@exists_events_iff app.tenantId batch).2 h.elements
  have hbuilt := builtFrom_of hparse hbuild
  have hlength : batch.length = reqs.length := (parseAll?_eq_some_iff.1 hparse).length_eq
  have haccepted : ∀ event ∈ events, event.Accepted := by
    intro event hevent
    obtain ⟨p, -, req, -, hreq⟩ := StrictSchema.exists_of_forall₂ hbuilt.flip event hevent
    exact domainEvent_accepted hreq
  obtain ⟨dropped, hcount, hloop, hcommitted⟩ := publishLoop_spec hs haccepted 0 0
  unfold ingestEventsBatch
  rw [hparse]
  dsimp only
  cases hletIn : app.letIn key now with
  | mk answer app' =>
    rw [hletIn] at hbus htenant hmax hadmitted
    obtain rfl := hadmitted
    have hsize : ¬app'.ingestMaxBatchSize < reqs.length := by
      rw [hmax, ← hlength]
      exact Int.not_lt.2 h.size
    dsimp only
    rw [if_neg hsize, htenant, hbuild, hbus]
    dsimp only
    unfold publishBatch
    cases hrun : app.eventBus.publishLoop 0 0 events with
    | mk result eventBus =>
      rw [hrun] at hloop hcommitted
      obtain rfl := hloop
      refine ⟨_, events, rfl, hbuilt, hbuilt.length_eq.symm, ?_, Nat.zero_add _, hcommitted⟩
      rw [Nat.zero_add, Nat.zero_add]
      exact hcount

/-- A batch goes in as a whole or not at all. -/
structure AllOrNothing (app : IngestApp η) (history : List DomainEvent) (key : String) (now : ℚ)
    (batch : List (EventIngestBody × EventStamp)) : Prop where
  nothing : (∃ p ∈ batch, Rejected p.1) ∨ app.ingestMaxBatchSize < batch.length →
    (∃ refusal, (app.ingestEventsBatch key now batch).1 = .error refusal) ∧
      (app.ingestEventsBatch key now batch).2.eventBus = app.eventBus
  refused : ∀ refusal, (app.ingestEventsBatch key now batch).1 = .error refusal →
    (app.ingestEventsBatch key now batch).2.eventBus = app.eventBus
  all : (∀ p ∈ batch, ¬Rejected p.1) → (batch.length : Int) ≤ app.ingestMaxBatchSize →
    app.acceptsIngestion = true → (app.ingestRateLimiter.allow key now).1 = true →
    ∃ response events, (app.ingestEventsBatch key now batch).1 = .ok response ∧
      app.Published history batch response (app.ingestEventsBatch key now batch).2 events

/-- A batch that is posted to a bus in any state goes in as a whole or not at all. -/
theorem ingestEventsBatch_allOrNothing {app : IngestApp η} {history : List DomainEvent}
    (hs : Consistent app.eventBus.bus history) (key : String) (now : ℚ)
    (batch : List (EventIngestBody × EventStamp)) : app.AllOrNothing history key now batch where
  nothing hbad := by
    refine ingestEventsBatch_of_not_passes fun h => ?_
    rcases hbad with ⟨p, hp, hrejected⟩ | hsize
    · exact h.elements p hp hrejected
    · exact absurd h.size (Int.not_le.2 hsize)
  refused refusal hrefusal := by
    refine (ingestEventsBatch_of_not_passes fun h => ?_).2
    obtain ⟨response, events, hok, -⟩ := ingestEventsBatch_of_passes hs h
    rw [hok] at hrefusal
    cases hrefusal
  all helements hsize haccepts hallowed :=
    ingestEventsBatch_of_passes hs ⟨⟨haccepts, hallowed⟩, hsize, helements⟩

/-- A commit at a time that may be naive. -/
def commitBody (key : String) (eventTime : PyDateTime) : EventIngestBody :=
  { eventType := "scm.commit", subjectId := "app",
    attributes := PyDict.ofList [("repository", .str "acme/app")], eventTime, source := "github",
    idempotencyKey := key }

/-- An app with an empty bus and one handler for everything. -/
def smallApp : IngestApp String :=
  { ingestMaxBatchSize := 3, tenantId := "acme",
    ingestRateLimiter := SlidingWindowRateLimiter.fresh 10 60 256,
    eventBus := { bus := init 100, handlers := PyDict.ofList [("*", ["processor"])] } }

/-- Two commits, the first of them twice. -/
def commitBatch : List (EventIngestBody × EventStamp) :=
  [(commitBody "a" ⟨0, some 0⟩, ⟨"1", .utc 1⟩), (commitBody "a" ⟨0, some 0⟩, ⟨"2", .utc 1⟩),
    (commitBody "b" ⟨5, some 0⟩, ⟨"3", .utc 1⟩)]

/-- They are published, and the repetition is counted. -/
theorem commitBatch_allOrNothing :
    Consistent smallApp.eventBus.bus [] ∧ smallApp.AllOrNothing [] "caller" 0 commitBatch ∧
      (smallApp.ingestEventsBatch "caller" 0 commitBatch).1.toOption = some ⟨3, 2, 1⟩ :=
  ⟨init_consistent 100, ingestEventsBatch_allOrNothing (init_consistent 100) "caller" 0 commitBatch,
    by decide +kernel⟩

end IngestApp

end ComputeIntelligence
