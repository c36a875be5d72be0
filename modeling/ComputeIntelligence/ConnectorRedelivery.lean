import ComputeIntelligence.Connectors

/-! # Redelivered payloads

A source may deliver a payload again, at another time.  What a transform reads afresh at
each call, the clock and a random event id (`ClockReading`), goes into the times and the id of
the event; its type, subject and attributes are those of the first delivery:
`transform_agree`.  Whether its idempotency key is, too, is a matter of its own.
-/
namespace ComputeIntelligence

/-- What a transform reads afresh at each call. -/
structure ClockReading where
  now : AwareDateTime
  ingestTime : AwareDateTime
  eventId : String

/-- The surroundings at a reading. -/
def ConnectorEnv.atReading (env : ConnectorEnv) (r : ClockReading) : ConnectorEnv :=
  { env with now := r.now, ingestTime := r.ingestTime, eventId := r.eventId }

/-- Events of one record: they differ at most in their ids, times and keys. -/
structure SameRecord (e f : DomainEvent) : Prop where
  eventType : e.eventType = f.eventType
  subjectId : e.subjectId = f.subjectId
  attrs : e.attrs = f.attrs
  source : e.source = f.source
  tenantId : e.tenantId = f.tenantId

variable {env : ConnectorEnv} {tenantId : String} {r₁ r₂ : ClockReading}

theorem newEvent_agree {eventType : EventType} {subjectId : PyVal}
    {attributes : PyDict String PyVal} {t₁ t₂ : AwareDateTime} {source key₁ key₂ tenant : String} :
    Except.Agree SameRecord
      (newEvent (env.atReading r₁) eventType subjectId attributes t₁ source key₁ tenant)
      (newEvent (env.atReading r₂) eventType subjectId attributes t₂ source key₂ tenant) := by
  unfold newEvent
  refine Except.agree_bind_same fun subject => ?_
  split
  · exact Except.agree_ok ⟨rfl, rfl, rfl, rfl, rfl⟩
  · exact Except.agree_error

/-- Two deliveries that both come to nothing, or to events of one record. -/
def SameOutcome (x y : Option DomainEvent) : Prop := Option.Rel SameRecord x y

theorem sameOutcome_none : Except.Agree SameOutcome
    (Except.ok none : Except PyExn (Option DomainEvent)) (Except.ok none) :=
  Except.agree_ok .none

theorem agree_sameOutcome {x y : Except PyExn DomainEvent} (h : Except.Agree SameRecord x y) :
    Except.Agree SameOutcome (x.map some) (y.map some) :=
  Except.Agree.map fun e f he hf => .some (h e f he hf)

/-! ### One lemma per transform -/

theorem transformCurRecord_agree (record : Payload) : Except.Agree SameRecord
    (transformCurRecord (env.atReading r₁) tenantId record)
    (transformCurRecord (env.atReading r₂) tenantId record) := by
  unfold transformCurRecord
  refine Except.agree_bind_same fun accountId => Except.agree_bind_same fun service => ?_
  refine Except.agree_ite Except.agree_error ?_
  split
  · exact Except.agree_error
  · refine Except.agree_bind fun key₁ key₂ => Except.agree_bind_same fun billing => ?_
    exact newEvent_agree

theorem transformTrailEvent_agree (trailEvent : Payload) : Except.Agree SameOutcome
    (transformTrailEvent (env.atReading r₁) tenantId trailEvent)
    (transformTrailEvent (env.atReading r₂) tenantId trailEvent) := by
  unfold transformTrailEvent
  refine Except.agree_ite (agree_sameOutcome ?_)
    (Except.agree_ite (agree_sameOutcome ?_) sameOutcome_none)
  · unfold transformResourceEvent
    refine Except.agree_bind fun key₁ key₂ => Except.agree_bind_same fun subject => ?_
    refine Except.agree_bind_same fun arn => Except.agree_bind_same fun type => ?_
    exact Except.agree_bind fun t₁ t₂ => newEvent_agree
  · unfold transformIdentityEvent
    refine Except.agree_bind fun key₁ key₂ => Except.agree_bind_same fun subject => ?_
    refine Except.agree_bind_same fun principal => Except.agree_bind_same fun account => ?_
    refine Except.agree_bind_same fun user => ?_
    exact Except.agree_bind fun t₁ t₂ => newEvent_agree

theorem transformInvocation_agree (logEntry : Payload) : Except.Agree SameRecord
    (transformInvocation (env.atReading r₁) tenantId logEntry)
    (transformInvocation (env.atReading r₂) tenantId logEntry) := by
  have hinv : ∀ r, invocationEvent (env.atReading r) logEntry = invocationEvent env logEntry :=
    fun _ => rfl
  unfold transformInvocation
  rw [hinv, hinv]
  refine Except.agree_bind_same fun inference => ?_
  exact Except.agree_bind fun t₁ t₂ => newEvent_agree

theorem transformPush_agree (repo stableId₁ stableId₂ : String) (t₁ t₂ : AwareDateTime)
    (payload : Payload) : Except.Agree SameRecord
    (transformPush (env.atReading r₁) tenantId repo stableId₁ t₁ payload)
    (transformPush (env.atReading r₂) tenantId repo stableId₂ t₂ payload) := by
  unfold transformPush
  refine Except.agree_bind_same fun after => Except.agree_bind_same fun before => ?_
  refine Except.agree_bind_same fun branch => Except.agree_bind_same fun size => ?_
  refine Except.agree_bind_same fun count => Except.agree_bind_same fun pusher => ?_
  exact Except.agree_bind_same fun name => newEvent_agree

theorem transformMerge_agree (repo stableId₁ stableId₂ : String) (pr : PyVal) :
    Except.Agree SameRecord (transformMerge (env.atReading r₁) tenantId repo stableId₁ pr)
      (transformMerge (env.atReading r₂) tenantId repo stableId₂ pr) := by
  unfold transformMerge
  refine Except.agree_bind_same fun user => Except.agree_bind_same fun rawId => ?_
  refine Except.agree_bind_same fun id => Except.agree_bind_same fun rawNumber => ?_
  refine Except.agree_bind_same fun orZero => Except.agree_bind_same fun number => ?_
  refine Except.agree_bind_same fun rawSha => Except.agree_bind_same fun sha => ?_
  refine Except.agree_bind_same fun rawLogin => Except.agree_bind_same fun login => ?_
  refine Except.agree_bind_same fun base => Except.agree_bind_same fun ref => ?_
  refine Except.agree_bind_same fun branch => Except.agree_bind_same fun mergedAt => ?_
  exact Except.agree_bind fun t₁ t₂ => newEvent_agree

theorem transformWebhook_agree (eventName : String) (payload : Payload) (deliveryId : String) :
    Except.Agree SameOutcome
      (transformWebhook (env.atReading r₁) tenantId eventName payload deliveryId)
      (transformWebhook (env.atReading r₂) tenantId eventName payload deliveryId) := by
  unfold transformWebhook
  refine Except.agree_bind_same fun fullName => Except.agree_bind_same fun repo => ?_
  refine Except.agree_bind_same fun rawTime => Except.agree_bind fun t₁ t₂ => ?_
  refine Except.agree_bind fun id₁ id₂ => Except.agree_ite ?_ (Except.agree_ite ?_ ?_)
  · exact agree_sameOutcome (transformPush_agree _ _ _ _ _ _)
  · refine Except.agree_bind_same fun action => Except.agree_bind_same fun rawMerged => ?_
    refine Except.agree_bind_same fun merged => Except.agree_ite ?_ sameOutcome_none
    exact agree_sameOutcome (transformMerge_agree _ _ _ _)
  · exact sameOutcome_none

theorem transformWorkflowJob_agree (payload : Payload) (deliveryId : String) :
    Except.Agree SameOutcome
      (transformWorkflowJob (env.atReading r₁) tenantId payload deliveryId)
      (transformWorkflowJob (env.atReading r₂) tenantId payload deliveryId) := by
  unfold transformWorkflowJob
  refine Except.agree_bind_same fun action => Except.agree_ite sameOutcome_none ?_
  refine Except.agree_bind_same fun fullName => Except.agree_bind_same fun repo => ?_
  refine Except.agree_bind_same fun rawRun => Except.agree_bind_same fun runId => ?_
  refine Except.agree_ite sameOutcome_none ?_
  refine Except.agree_bind_same fun labels => Except.agree_bind_same fun normalized => ?_
  refine Except.agree_bind_same fun completedAt => Except.agree_bind fun t₁ t₂ => ?_
  refine Except.agree_bind fun id₁ id₂ => Except.agree_bind_same fun rawLogin => ?_
  refine Except.agree_bind_same fun login => Except.agree_bind_same fun rawName => ?_
  refine Except.agree_bind_same fun name => Except.agree_bind_same fun rawConclusion => ?_
  exact Except.agree_bind_same fun conclusion => agree_sameOutcome newEvent_agree

theorem transformLogin_agree (eventType key₁ key₂ : String) (t₁ t₂ : AwareDateTime)
    (actor : PyVal) (event : Payload) : Except.Agree SameOutcome
    (transformLogin (env.atReading r₁) tenantId eventType key₁ t₁ actor event)
    (transformLogin (env.atReading r₂) tenantId eventType key₂ t₂ actor event) := by
  unfold transformLogin
  refine Except.agree_bind_same fun subject => Except.agree_ite sameOutcome_none ?_
  refine Except.agree_bind_same fun rawId => Except.agree_bind_same fun id => ?_
  refine Except.agree_bind_same fun rawLogin => Except.agree_bind_same fun login => ?_
  refine Except.agree_bind_same fun rawName => Except.agree_bind_same fun name => ?_
  refine Except.agree_bind_same fun rawIp => Except.agree_bind_same fun ip => ?_
  exact agree_sameOutcome newEvent_agree

theorem transformGroupChange_agree (eventType key₁ key₂ : String) (t₁ t₂ : AwareDateTime)
    (actor target profile : PyVal) : Except.Agree SameOutcome
    (transformGroupChange (env.atReading r₁) tenantId eventType key₁ t₁ actor target profile)
    (transformGroupChange (env.atReading r₂) tenantId eventType key₂ t₂ actor target profile) := by
  unfold transformGroupChange
  refine Except.agree_bind_same fun user => Except.agree_bind_same fun rawGroup => ?_
  refine Except.agree_bind_same fun group => Except.agree_bind_same fun displayName => ?_
  refine Except.agree_bind_same fun groupName => Except.agree_bind_same fun either => ?_
  refine Except.agree_bind_same fun name => Except.agree_ite sameOutcome_none ?_
  exact agree_sameOutcome newEvent_agree

theorem transformSystemLogEvent_agree (event : Payload) : Except.Agree SameOutcome
    (transformSystemLogEvent (env.atReading r₁) tenantId event)
    (transformSystemLogEvent (env.atReading r₂) tenantId event) := by
  unfold transformSystemLogEvent
  refine Except.agree_bind_same fun eventType => Except.agree_bind_same fun detail => ?_
  refine Except.agree_bind fun t₁ t₂ => Except.agree_bind fun key₁ key₂ => ?_
  refine Except.agree_ite ?_ (Except.agree_ite ?_ sameOutcome_none)
  · exact transformLogin_agree _ _ _ _ _ _ _
  · exact transformGroupChange_agree _ _ _ _ _ _ _ _

theorem transformScimUser_agree (payload : Payload) : Except.Agree SameOutcome
    (transformScimUser (env.atReading r₁) tenantId payload)
    (transformScimUser (env.atReading r₂) tenantId payload) := by
  unfold transformScimUser
  refine Except.agree_bind_same fun userId => Except.agree_ite sameOutcome_none ?_
  refine Except.agree_bind_same fun groups => Except.agree_bind_same fun username => ?_
  refine Except.agree_bind_same fun active => Except.agree_bind fun hash₁ hash₂ => ?_
  exact agree_sameOutcome newEvent_agree

/-- A payload that is delivered again comes to the same record. -/
theorem transform_agree (p : SourcePayload) : Except.Agree SameOutcome
    (p.transform (env.atReading r₁) tenantId) (p.transform (env.atReading r₂) tenantId) := by
  cases p with
  | cur record => exact agree_sameOutcome (transformCurRecord_agree record)
  | cloudTrail trailEvent => exact transformTrailEvent_agree trailEvent
  | bedrock logEntry => exact agree_sameOutcome (transformInvocation_agree logEntry)
  | githubScm eventName payload deliveryId =>
    exact transformWebhook_agree eventName payload deliveryId
  | githubActions payload deliveryId => exact transformWorkflowJob_agree payload deliveryId
  | oktaSystemLog event => exact transformSystemLogEvent_agree event
  | oktaScim payload => exact transformScimUser_agree payload

/-- The events of two deliveries of a payload. -/
theorem sameRecord_of_transform {p : SourcePayload} {e f : DomainEvent}
    (he : p.transform (env.atReading r₁) tenantId = .ok (some e))
    (hf : p.transform (env.atReading r₂) tenantId = .ok (some f)) : SameRecord e f := by
  cases transform_agree p _ _ he hf with
  | some h => exact h

end ComputeIntelligence
