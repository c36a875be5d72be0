import ComputeIntelligence.BusInvariant
import ComputeIntelligence.IngestLimiter
import ComputeIntelligence.KafkaCodec

/-! # The ingestion endpoints

`ingest_event` and `ingest_events_batch` (`api/app.py`).  Both validate the attributes of a request
against the schema of its event type and put the dump of the validated payload, with every default
filled in, into a `DomainEvent`, whose own validators look at the time and at the size of the
attributes.  Publishing validates the event once more; what a schema has dumped it accepts again,
so an event that has been built is never rejected there (`domainEvent_accepted`).

FastAPI resolves the event type of a request before the endpoint runs, and refuses the whole body
if it does not know one.
-/
namespace ComputeIntelligence

/-! ### Requests -/

/-- What a request says of its event, the event type apart. -/
structure IngestFields where
  subjectId : String
  attributes : PyDict String PyVal := PyDict.empty
  eventTime : PyDateTime
  source : String
  idempotencyKey : String

/-- A request as it was sent: the event type is a text. -/
structure EventIngestBody extends IngestFields where
  eventType : String

/-- `EventIngestRequest`. -/
structure EventIngestRequest extends IngestFields where
  eventType : EventType

/-- The request that was sent, if its event type is known. -/
def EventIngestBody.parse? (body : EventIngestBody) : Option EventIngestRequest :=
  (EventType.ofValue? body.eventType).map fun eventType => { body.toIngestFields with eventType }

/-- What the defaults of `DomainEvent` read: a new uuid, and the clock. -/
structure EventStamp where
  eventId : String
  ingestTime : AwareDateTime

/-- What the validators of `DomainEvent` raise: the attributes cannot be written in
`MAX_ATTRIBUTES_PAYLOAD_BYTES`, or a datetime is not timezone-aware. -/
inductive EventFieldError where
  | attributesPayload
  | naiveDatetime (field : String)
deriving DecidableEq

/-- Why a request is not answered: FastAPI cannot read it, the endpoint raises an
`HTTPException`, one with the text of a schema error, or an exception gets out of
`DomainEvent(...)` or of `publish`. -/
inductive IngestRefusal where
  | unreadable
  | httpException (statusCode : Nat) (detail : String)
  | invalidPayload (error : EventSchemaValidationError)
  | invalidEvent (errors : List EventFieldError)
  | publishRaised (error : EventSchemaValidationError)
deriving DecidableEq

/-- What the validators of `DomainEvent` find wrong, in the order of its fields. -/
def fieldErrors (attributes : PyDict String PyVal) (eventTime : PyDateTime) :
    List EventFieldError :=
  (if payloadFits attributes then [] else [.attributesPayload]) ++
    (if eventTime.utcoffset.isSome then [] else [.naiveDatetime "event_time"])

/-- `DomainEvent(...)`, as the endpoints call it. -/
def EventIngestRequest.toDomainEvent (req : EventIngestRequest) (attributes : PyDict String PyVal)
    (tenantId : String) (stamp : EventStamp) : Except (List EventFieldError) DomainEvent :=
  if h : payloadFits attributes ∧ req.eventTime.utcoffset.isSome then
    .ok { eventId := stamp.eventId, eventType := req.eventType, subjectId := req.subjectId,
          attributes := ⟨attributes, h.1⟩, eventTime := ⟨req.eventTime, h.2⟩,
          ingestTime := stamp.ingestTime, source := req.source,
          idempotencyKey := req.idempotencyKey, tenantId }
  else .error (fieldErrors attributes req.eventTime)

/-- The event of a request: its attributes are validated, and the dump of the validated payload is
what the event carries. -/
def EventIngestRequest.domainEvent (req : EventIngestRequest) (tenantId : String)
    (stamp : EventStamp) : Except IngestRefusal DomainEvent :=
  match validateEventAttributes req.eventType req.attributes with
  | .error error => .error (.invalidPayload error)
  | .ok attributes =>
      match req.toDomainEvent (PyDict.ofList attributes) tenantId stamp with
      | .error errors => .error (.invalidEvent errors)
      | .ok event => .ok event

/-! ### The bus -/

/-- An `InMemoryEventBus`, its handlers, and the calls that it has made to them. -/
structure DispatchingBus (η : Type) where
  bus : InMemoryEventBus
  handlers : PyDict String (List η) := PyDict.empty
  dispatched : List (η × DomainEvent) := []

namespace DispatchingBus
variable {η : Type}

/-- The handlers of an event. -/
def handlersOf (s : DispatchingBus η) (event : DomainEvent) : List η :=
  s.handlers.getD event.eventType.value [] ++ s.handlers.getD "*" []

/-- `_dispatch_handler` for every handler of an event; what a handler raises stays there. -/
def dispatch (s : DispatchingBus η) (event : DomainEvent) : DispatchingBus η :=
  { s with dispatched := s.dispatched ++ (s.handlersOf event).map (·, event) }

/-- `publish`. -/
def publish (s : DispatchingBus η) (event : DomainEvent) :
    Except EventSchemaValidationError Bool × DispatchingBus η :=
  match s.bus.publish event with
  | (.ok true, bus) => (.ok true, { s with bus }.dispatch event)
  | (result, bus) => (result, { s with bus })

/-- An accepted event goes to its handlers. -/
theorem dispatched_of_accepted {s s' : DispatchingBus η} {event : DomainEvent}
    (h : s.publish event = (.ok true, s')) :
    s'.dispatched = s.dispatched ++ (s.handlersOf event).map (·, event) := by
  unfold publish at h
  cases hpublish : s.bus.publish event with
  | mk answer bus =>
    rw [hpublish] at h
    match answer with
    | .ok true =>
      obtain rfl := (Prod.mk.inj h).2
      rfl
    | .ok false => cases (Prod.mk.inj h).1
    | .error error => cases (Prod.mk.inj h).1

/-- The loop of `publish_batch`. -/
def publishLoop (s : DispatchingBus η) (published deduplicated : Nat) :
    List DomainEvent → Except EventSchemaValidationError (Nat × Nat) × DispatchingBus η
  | [] => (.ok (published, deduplicated), s)
  | event :: events =>
      match s.publish event with
      | (.ok true, s) => s.publishLoop (published + 1) deduplicated events
      | (.ok false, s) => s.publishLoop published (deduplicated + 1) events
      | (.error error, s) => (.error error, s)

/-- `publish_batch`: how many were published and how many were deduplicated. -/
def publishBatch (s : DispatchingBus η) (events : List DomainEvent) :
    Except EventSchemaValidationError (Nat × Nat) × DispatchingBus η :=
  s.publishLoop 0 0 events

end DispatchingBus

/-! ### The endpoints -/

/-- The state of the app, as far as the endpoints go. -/
structure IngestApp (η : Type) where
  acceptsIngestion : Bool := true
  ingestMaxBatchSize : Int
  tenantId : String
  ingestRateLimiter : SlidingWindowRateLimiter
  eventBus : DispatchingBus η

namespace IngestApp
variable {η : Type}

/-- The two checks that come first, for a caller at a time. -/
def letIn (app : IngestApp η) (key : String) (now : ℚ) :
    Except IngestRefusal Unit × IngestApp η :=
  if app.acceptsIngestion then
    match app.ingestRateLimiter.allow key now with
    | (true, ingestRateLimiter) => (.ok (), { app with ingestRateLimiter })
    | (false, ingestRateLimiter) =>
        (.error (.httpException 429 "ingestion rate limit exceeded"),
          { app with ingestRateLimiter })
  else (.error (.httpException 503 "event ingestion disabled for this runtime role"), app)

/-- `EventIngestResponse`. -/
structure EventIngestResponse where
  accepted : Bool
  eventId : String
deriving DecidableEq

/-- `ingest_event`. -/
def ingestEvent (app : IngestApp η) (key : String) (now : ℚ) (body : EventIngestBody)
    (stamp : EventStamp) : Except IngestRefusal EventIngestResponse × IngestApp η :=
  match body.parse? with
  | none => (.error .unreadable, app)
  | some req =>
    match app.letIn key now with
    | (.error refusal, app) => (.error refusal, app)
    | (.ok (), app) =>
      match req.domainEvent app.tenantId stamp with
      | .error refusal => (.error refusal, app)
      | .ok event =>
        match app.eventBus.publish event with
        | (.error error, eventBus) => (.error (.publishRaised error), { app with eventBus })
        | (.ok accepted, eventBus) =>
            (.ok { accepted, eventId := event.eventId }, { app with eventBus })

/-- `EventBatchIngestResponse`. -/
structure EventBatchIngestResponse where
  total : Nat
  accepted : Nat
  deduplicated : Nat
deriving DecidableEq

/-- The first pass over a batch: the events of its requests, or the first refusal. -/
def buildEvents (tenantId : String) :
    List (EventIngestRequest × EventStamp) → Except IngestRefusal (List DomainEvent)
  | [] => .ok []
  | (req, stamp) :: rest => do
      let event ← req.domainEvent tenantId stamp
      let events ← buildEvents tenantId rest
      .ok (event :: events)

/-- The requests of a batch, if the event type of each is known. -/
def parseAll? : List (EventIngestBody × EventStamp) →
    Option (List (EventIngestRequest × EventStamp))
  | [] => some []
  | (body, stamp) :: rest => do
      let req ← body.parse?
      let reqs ← parseAll? rest
      some ((req, stamp) :: reqs)

/-- `ingest_events_batch`. -/
def ingestEventsBatch (app : IngestApp η) (key : String) (now : ℚ)
    (batch : List (EventIngestBody × EventStamp)) :
    Except IngestRefusal EventBatchIngestResponse × IngestApp η :=
  match parseAll? batch with
  | none => (.error .unreadable, app)
  | some reqs =>
    match app.letIn key now with
    | (.error refusal, app) => (.error refusal, app)
    | (.ok (), app) =>
      if app.ingestMaxBatchSize < reqs.length then
        (.error (.httpException 413 ("batch size " ++ toString reqs.length ++
          " exceeds configured max " ++ toString app.ingestMaxBatchSize)), app)
      else
        match buildEvents app.tenantId reqs with
        | .error refusal => (.error refusal, app)
        | .ok events =>
          match app.eventBus.publishBatch events with
          | (.error error, eventBus) => (.error (.publishRaised error), { app with eventBus })
          | (.ok (published, deduplicated), eventBus) =>
              (.ok { total := events.length, accepted := published, deduplicated },
                { app with eventBus })

end IngestApp

/-! ### The event of a request -/

section
variable {req : EventIngestRequest} {tenantId : String} {stamp : EventStamp}

/-- What the endpoints ask of a request whose event type is known. -/
structure EventIngestRequest.Valid (req : EventIngestRequest) : Prop where
  payload : (eventPayloadSchemas req.eventType).Accepts req.attributes
  aware : req.eventTime.utcoffset.isSome
  fits : payloadFits (PyDict.ofList ((eventPayloadSchemas req.eventType).dump req.attributes))

instance (req : EventIngestRequest) : Decidable req.Valid :=
  decidable_of_iff ((eventPayloadSchemas req.eventType).Accepts req.attributes ∧
      req.eventTime.utcoffset.isSome ∧
      payloadFits (PyDict.ofList ((eventPayloadSchemas req.eventType).dump req.attributes)))
    ⟨fun h => ⟨h.1, h.2.1, h.2.2⟩, fun h => ⟨h.payload, h.aware, h.fits⟩⟩

/-- The event of a valid request. -/
def EventIngestRequest.Valid.event (h : req.Valid) (tenantId : String) (stamp : EventStamp) :
    DomainEvent :=
  { eventId := stamp.eventId, eventType := req.eventType, subjectId := req.subjectId,
    attributes := ⟨PyDict.ofList ((eventPayloadSchemas req.eventType).dump req.attributes), h.fits⟩
    eventTime := ⟨req.eventTime, h.aware⟩, ingestTime := stamp.ingestTime, source := req.source,
    idempotencyKey := req.idempotencyKey, tenantId }

/-- The requests that become events are the valid ones. -/
theorem domainEvent_ok_iff {event : DomainEvent} :
    req.domainEvent tenantId stamp = .ok event ↔
      ∃ h : req.Valid, event = h.event tenantId stamp := by
  unfold EventIngestRequest.domainEvent
  cases hvalidate : validateEventAttributes req.eventType req.attributes with
  | error error =>
    refine iff_of_false (fun h => by cases h) ?_
    rintro ⟨hvalid, -⟩
    obtain ⟨dump, hdump⟩ := StrictSchema.validate_ok_iff.mpr hvalid.payload
    unfold validateEventAttributes at hvalidate
    rw [hdump] at hvalidate
    cases hvalidate
  | ok dump =>
    obtain ⟨hpayload, rfl⟩ := validateEventAttributes_ok hvalidate
    unfold EventIngestRequest.toDomainEvent
    by_cases hfits : payloadFits (PyDict.ofList
        ((eventPayloadSchemas req.eventType).dump req.attributes)) ∧ req.eventTime.utcoffset.isSome
    · simp only [dif_pos hfits]
      constructor
      · intro h
        exact ⟨⟨hpayload, hfits.2, hfits.1⟩, (Except.ok.inj h).symm⟩
      · rintro ⟨hvalid, rfl⟩
        rfl
    · simp only [dif_neg hfits]
      refine iff_of_false (fun h => by cases h) ?_
      rintro ⟨hvalid, -⟩
      exact hfits ⟨hvalid.fits, hvalid.aware⟩

theorem EventIngestRequest.Valid.domainEvent (h : req.Valid) (tenantId : String)
    (stamp : EventStamp) : req.domainEvent tenantId stamp = .ok (h.event tenantId stamp) :=
  domainEvent_ok_iff.2 ⟨h, rfl⟩

/-- **An event that has been built is not rejected when it is published.** -/
theorem domainEvent_accepted {event : DomainEvent}
    (h : req.domainEvent tenantId stamp = .ok event) : event.Accepted := by
  obtain ⟨hvalid, rfl⟩ := domainEvent_ok_iff.1 h
  exact ⟨rfl, StrictSchema.accepts_ofList_dump hvalid.payload (names_nodup req.eventType)
    (default_checks req.eventType)⟩

end

namespace IngestApp
variable {η : Type}

/-- What the two checks at the start leave alone. -/
theorem letIn_frame (app : IngestApp η) (key : String) (now : ℚ) :
    (app.letIn key now).2.eventBus = app.eventBus ∧
      (app.letIn key now).2.tenantId = app.tenantId ∧
      (app.letIn key now).2.ingestMaxBatchSize = app.ingestMaxBatchSize := by
  unfold letIn
  split
  · split <;> exact ⟨rfl, rfl, rfl⟩
  · exact ⟨rfl, rfl, rfl⟩

/-- A request that is answered has become an event, and the answer is that of its publication. -/
theorem ingestEvent_ok {app : IngestApp η} {key : String} {now : ℚ} {body : EventIngestBody}
    {stamp : EventStamp} {response : EventIngestResponse}
    (h : (app.ingestEvent key now body stamp).1 = .ok response) :
    ∃ req event, body.parse? = some req ∧ req.domainEvent app.tenantId stamp = .ok event ∧
      response.eventId = event.eventId ∧ app.eventBus.publish event =
        (.ok response.accepted, (app.ingestEvent key now body stamp).2.eventBus) := by
  obtain ⟨hbus, htenant, -⟩ := letIn_frame app key now
  unfold ingestEvent at h ⊢
  cases hparse : body.parse? with
  | none =>
    rw [hparse] at h
    cases h
  | some req =>
    rw [hparse] at h
    dsimp only at h ⊢
    cases hletIn : app.letIn key now with
    | mk checked app' =>
      rw [hletIn] at h hbus htenant
      dsimp only at hbus htenant
      cases checked with
      | error refusal => cases h
      | ok _ =>
        dsimp only at h ⊢
        rw [htenant, hbus] at h
        rw [htenant, hbus]
        cases hbuild : req.domainEvent app.tenantId stamp with
        | error refusal =>
          rw [hbuild] at h
          cases h
        | ok event =>
          rw [hbuild] at h
          dsimp only at h ⊢
          cases hpublish : app.eventBus.publish event with
          | mk answer eventBus =>
            rw [hpublish] at h
            cases answer with
            | error error => cases h
            | ok accepted =>
              obtain rfl := Except.ok.inj h
              exact ⟨req, event, rfl, hbuild, rfl, hpublish⟩

end IngestApp

end ComputeIntelligence
