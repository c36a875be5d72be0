import ComputeIntelligence.Connectors

/-! # Connectors and the schemas of the bus

A connector is useful if what it returns can be published: the event passes
`validate_domain_event`.  Two of the seven build their attributes from the same models
as the schemas and always pass.  The other five put names of their own into the
attributes, which no schema declares, and never pass: `publishable_iff`.
-/
namespace ComputeIntelligence

variable {env : ConnectorEnv} {tenantId : String}

theorem newEvent_ensures (eventType : EventType) (subjectId : PyVal)
    (attributes : PyDict String PyVal) (eventTime : AwareDateTime) (source key tenant : String) :
    (newEvent env eventType subjectId attributes eventTime source key tenant).Ensures fun e =>
      e.eventType = eventType ∧ e.attrs = attributes ∧ e.schemaVersion = 1 ∧
        e.idempotencyKey = key := by
  unfold newEvent
  refine Except.ensures_bind fun subject => ?_
  split
  · exact Except.ensures_ok ⟨rfl, rfl, rfl, rfl⟩
  · exact Except.ensures_error

/-- An event built from attributes its schema accepts is accepted. -/
theorem newEvent_accepted {eventType : EventType} {attributes : PyDict String PyVal}
    (h : (eventPayloadSchemas eventType).Accepts attributes) (subjectId : PyVal)
    (eventTime : AwareDateTime) (source key tenant : String) :
    (newEvent env eventType subjectId attributes eventTime source key tenant).Ensures fun e =>
      e.Accepted ∧ e.idempotencyKey = key := by
  intro e he
  obtain ⟨htype, hattrs, hversion, hkey⟩ := newEvent_ensures _ _ _ _ _ _ _ e he
  exact ⟨⟨hversion, by rw [htype, hattrs]; exact h⟩, hkey⟩

/-- An event with a key that its schema does not declare is not accepted. -/
theorem newEvent_not_accepted {eventType : EventType} {attributes : PyDict String PyVal}
    {k : String} (hk : attributes.get? k ≠ none) (hn : k ∉ (eventPayloadSchemas eventType).names)
    (subjectId : PyVal) (eventTime : AwareDateTime) (source key tenant : String) :
    (newEvent env eventType subjectId attributes eventTime source key tenant).Ensures fun e =>
      ¬ e.Accepted ∧ e.eventType = eventType ∧ e.idempotencyKey = key := by
  intro e he
  obtain ⟨htype, hattrs, -, hkey⟩ := newEvent_ensures _ _ _ _ _ _ _ e he
  refine ⟨fun hacc => ?_, htype, hkey⟩
  have hpayload := hacc.payload
  rw [htype, hattrs] at hpayload
  exact StrictSchema.not_accepts_of_extra hk hn hpayload

/-- `Q` of the event, if there is one. -/
def IfAny (Q : DomainEvent → Prop) (o : Option DomainEvent) : Prop := ∀ e ∈ o, Q e

theorem ifAny_none {Q : DomainEvent → Prop} :
    (Except.ok none : Except PyExn _).Ensures (IfAny Q) :=
  Except.ensures_ok fun _ he => by cases he

theorem ensures_ifAny {Q : DomainEvent → Prop} {x : Except PyExn DomainEvent}
    (h : x.Ensures Q) : (x.map some).Ensures (IfAny Q) :=
  Except.Ensures.map fun e he => fun _ hmem => Option.some.inj hmem ▸ h e he

theorem IfAny.imp {P Q : DomainEvent → Prop} {x : Except PyExn (Option DomainEvent)}
    (h : x.Ensures (IfAny P)) (hPQ : ∀ e, P e → Q e) : x.Ensures (IfAny Q) :=
  Except.Ensures.imp h fun _ ho e he => hPQ e (ho e he)

/-! ### The two connectors that agree with their schema -/

theorem BillingLineItem.accepts (b : BillingLineItem) :
    (eventPayloadSchemas .billingLineItem).Accepts b.modelDump := by
  have htags : (b.tags.map fun t => (t.1, PyVal.str t.2)).all (·.2.isStr) = true := by
    simp [PyVal.isStr]
  apply StrictSchema.accepts_of_forall₂
  refine .cons ⟨rfl, rfl⟩ <| .cons ⟨rfl, rfl⟩ <| .cons ⟨rfl, rfl⟩ <| .cons ⟨rfl, rfl⟩ <|
    .cons ⟨rfl, rfl⟩ <| .cons ⟨rfl, rfl⟩ <| .cons ⟨rfl, rfl⟩ <| .cons ⟨rfl, rfl⟩ <|
    .cons ⟨rfl, ?_⟩ <| .cons ⟨rfl, rfl⟩ <| .cons ⟨rfl, rfl⟩ .nil
  rw [optTags, FieldType.check, if_pos htags]
  rfl

theorem InferenceEvent.accepts (i : InferenceEvent) :
    (eventPayloadSchemas .inferenceRequest).Accepts i.modelDump := by
  apply StrictSchema.accepts_of_forall₂
  exact .cons ⟨rfl, rfl⟩ <| .cons ⟨rfl, rfl⟩ <| .cons ⟨rfl, rfl⟩ <| .cons ⟨rfl, rfl⟩ <|
    .cons ⟨rfl, rfl⟩ <| .cons ⟨rfl, rfl⟩ <| .cons ⟨rfl, rfl⟩ <| .cons ⟨rfl, rfl⟩ <|
    .cons ⟨rfl, rfl⟩ <| .cons ⟨rfl, rfl⟩ <| .cons ⟨rfl, rfl⟩ .nil

theorem transformCurRecord_ensures (record : Payload) :
    (transformCurRecord env tenantId record).Ensures fun e =>
      e.Accepted ∧ curIdempotencyKey env record = .ok e.idempotencyKey := by
  unfold transformCurRecord
  refine Except.ensures_bind fun accountId => Except.ensures_bind fun service => ?_
  refine Except.ensures_ite Except.ensures_error ?_
  split
  · exact Except.ensures_error
  · refine Except.ensures_bind_ok fun key hkey => Except.ensures_bind fun billing => ?_
    exact (newEvent_accepted billing.accepts _ _ _ _ _).imp fun e he => ⟨he.1, he.2 ▸ hkey⟩

theorem transformInvocation_ensures (logEntry : Payload) :
    (transformInvocation env tenantId logEntry).Ensures DomainEvent.Accepted := by
  unfold transformInvocation
  refine Except.ensures_bind fun inference => Except.ensures_bind fun time => ?_
  exact (newEvent_accepted inference.accepts _ _ _ _ _).imp fun e he => he.1

/-! ### The five that do not -/

/-- Nothing, or an event the bus refuses. -/
def Unpublishable (result : Option DomainEvent) : Prop := ∀ e ∈ result, ¬ e.Accepted

theorem ensures_unpublishable {P : DomainEvent → Prop} {x : Except PyExn (Option DomainEvent)}
    (h : x.Ensures (IfAny fun e => ¬ e.Accepted ∧ P e)) : x.Ensures Unpublishable :=
  IfAny.imp h fun _ he => he.1

theorem transformResourceEvent_ensures (trailEvent : Payload) :
    (transformResourceEvent env tenantId trailEvent).Ensures fun e =>
      ¬ e.Accepted ∧ trailKey env trailEvent = .ok e.idempotencyKey := by
  unfold transformResourceEvent
  refine Except.ensures_bind_ok fun key hkey => Except.ensures_bind fun subject => ?_
  refine Except.ensures_bind fun arn => Except.ensures_bind fun type => ?_
  refine Except.ensures_bind fun time => ?_
  exact (newEvent_not_accepted (k := "event_name") (by simp [PyDict.get?, PyDict.find]) (by decide)
    _ _ _ _ _).imp fun e he => ⟨he.1, he.2.2 ▸ hkey⟩

theorem transformIdentityEvent_ensures (trailEvent : Payload) :
    (transformIdentityEvent env tenantId trailEvent).Ensures fun e =>
      ¬ e.Accepted ∧ trailKey env trailEvent = .ok e.idempotencyKey := by
  unfold transformIdentityEvent
  refine Except.ensures_bind_ok fun key hkey => Except.ensures_bind fun subject => ?_
  refine Except.ensures_bind fun principal => Except.ensures_bind fun account => ?_
  refine Except.ensures_bind fun user => Except.ensures_bind fun time => ?_
  exact (newEvent_not_accepted (k := "principal_id") (by simp [PyDict.get?, PyDict.find])
    (by decide) _ _ _ _ _).imp fun e he => ⟨he.1, he.2.2 ▸ hkey⟩

theorem transformTrailEvent_ensures (trailEvent : Payload) :
    (transformTrailEvent env tenantId trailEvent).Ensures
      (IfAny fun e => ¬ e.Accepted ∧ trailKey env trailEvent = .ok e.idempotencyKey) := by
  unfold transformTrailEvent
  refine Except.ensures_ite ?_ (Except.ensures_ite ?_ ifAny_none)
  · exact ensures_ifAny (transformResourceEvent_ensures trailEvent)
  · exact ensures_ifAny (transformIdentityEvent_ensures trailEvent)

theorem transformPush_ensures (repo stableId : String) (timestamp : AwareDateTime)
    (payload : Payload) :
    (transformPush env tenantId repo stableId timestamp payload).Ensures fun e =>
      ¬ e.Accepted ∧ e.eventType = .codeCommit ∧ e.idempotencyKey = "github-push:" ++ stableId := by
  unfold transformPush
  refine Except.ensures_bind fun after => Except.ensures_bind fun before => ?_
  refine Except.ensures_bind fun branch => Except.ensures_bind fun size => ?_
  refine Except.ensures_bind fun count => Except.ensures_bind fun pusher => ?_
  refine Except.ensures_bind fun name => ?_
  exact newEvent_not_accepted (k := "after_sha") (by simp [PyDict.get?, PyDict.find]) (by decide)
    _ _ _ _ _

theorem transformMerge_ensures (repo stableId : String) (pr : PyVal) :
    (transformMerge env tenantId repo stableId pr).Ensures fun e =>
      ¬ e.Accepted ∧ e.eventType = .prMerged ∧
        e.idempotencyKey = "github-pr-merge:" ++ stableId := by
  unfold transformMerge
  refine Except.ensures_bind fun user => Except.ensures_bind fun rawId => ?_
  refine Except.ensures_bind fun id => Except.ensures_bind fun rawNumber => ?_
  refine Except.ensures_bind fun orZero => Except.ensures_bind fun number => ?_
  refine Except.ensures_bind fun rawSha => Except.ensures_bind fun sha => ?_
  refine Except.ensures_bind fun rawLogin => Except.ensures_bind fun login => ?_
  refine Except.ensures_bind fun base => Except.ensures_bind fun ref => ?_
  refine Except.ensures_bind fun branch => Except.ensures_bind fun mergedAt => ?_
  refine Except.ensures_bind fun time => ?_
  exact newEvent_not_accepted (k := "merge_sha") (by simp [PyDict.get?, PyDict.find]) (by decide)
    _ _ _ _ _

theorem transformWebhook_ensures (eventName : String) (payload : Payload) (deliveryId : String) :
    (transformWebhook env tenantId eventName payload deliveryId).Ensures Unpublishable := by
  unfold transformWebhook
  refine Except.ensures_bind fun fullName => Except.ensures_bind fun repo => ?_
  refine Except.ensures_bind fun rawTime => Except.ensures_bind fun timestamp => ?_
  refine Except.ensures_bind fun stableId => Except.ensures_ite ?_ (Except.ensures_ite ?_ ?_)
  · exact ensures_unpublishable (ensures_ifAny (transformPush_ensures _ _ _ _))
  · refine Except.ensures_bind fun action => Except.ensures_bind fun rawMerged => ?_
    refine Except.ensures_bind fun merged => Except.ensures_ite ?_ ifAny_none
    exact ensures_unpublishable (ensures_ifAny (transformMerge_ensures _ _ _))
  · exact ifAny_none

theorem transformWorkflowJob_ensures (payload : Payload) (deliveryId : String) :
    (transformWorkflowJob env tenantId payload deliveryId).Ensures Unpublishable := by
  unfold transformWorkflowJob
  refine Except.ensures_bind fun action => Except.ensures_ite ifAny_none ?_
  refine Except.ensures_bind fun fullName => Except.ensures_bind fun repo => ?_
  refine Except.ensures_bind fun rawRun => Except.ensures_bind fun runId => ?_
  refine Except.ensures_ite ifAny_none ?_
  refine Except.ensures_bind fun labels => Except.ensures_bind fun normalized => ?_
  refine Except.ensures_bind fun completedAt => Except.ensures_bind fun time => ?_
  refine Except.ensures_bind fun stableId => Except.ensures_bind fun rawLogin => ?_
  refine Except.ensures_bind fun login => Except.ensures_bind fun rawName => ?_
  refine Except.ensures_bind fun name => Except.ensures_bind fun rawConclusion => ?_
  refine Except.ensures_bind fun conclusion => ?_
  exact ensures_unpublishable (ensures_ifAny (newEvent_not_accepted (k := "workflow_name")
    (by simp [PyDict.get?, PyDict.find]) (by decide) _ _ _ _ _))

theorem transformLogin_ensures (eventType key : String) (time : AwareDateTime) (actor : PyVal)
    (event : Payload) :
    (transformLogin env tenantId eventType key time actor event).Ensures
      (IfAny fun e => ¬ e.Accepted ∧ e.eventType = .identityLogin ∧ e.idempotencyKey = key) := by
  unfold transformLogin
  refine Except.ensures_bind fun subject => Except.ensures_ite ifAny_none ?_
  refine Except.ensures_bind fun rawId => Except.ensures_bind fun id => ?_
  refine Except.ensures_bind fun rawLogin => Except.ensures_bind fun login => ?_
  refine Except.ensures_bind fun rawName => Except.ensures_bind fun name => ?_
  refine Except.ensures_bind fun rawIp => Except.ensures_bind fun ip => ensures_ifAny ?_
  exact newEvent_not_accepted (k := "actor_id") (by simp [PyDict.get?, PyDict.find]) (by decide)
    _ _ _ _ _

theorem transformGroupChange_ensures (eventType key : String) (time : AwareDateTime)
    (actor target profile : PyVal) :
    (transformGroupChange env tenantId eventType key time actor target profile).Ensures
      (IfAny fun e =>
        ¬ e.Accepted ∧ e.eventType = .identityGroupChange ∧ e.idempotencyKey = key) := by
  unfold transformGroupChange
  refine Except.ensures_bind fun user => Except.ensures_bind fun rawGroup => ?_
  refine Except.ensures_bind fun group => Except.ensures_bind fun displayName => ?_
  refine Except.ensures_bind fun groupName => Except.ensures_bind fun either => ?_
  refine Except.ensures_bind fun name => Except.ensures_ite ifAny_none (ensures_ifAny ?_)
  exact newEvent_not_accepted (k := "group_name") (by simp [PyDict.get?, PyDict.find])
    (by decide) _ _ _ _ _

theorem transformSystemLogEvent_ensures (event : Payload) :
    (transformSystemLogEvent env tenantId event).Ensures Unpublishable := by
  unfold transformSystemLogEvent
  refine Except.ensures_bind fun eventType => Except.ensures_bind fun detail => ?_
  refine Except.ensures_bind fun time => Except.ensures_bind fun key => ?_
  refine Except.ensures_ite ?_ (Except.ensures_ite ?_ ifAny_none)
  · exact ensures_unpublishable (transformLogin_ensures _ _ _ _ _)
  · exact ensures_unpublishable (transformGroupChange_ensures _ _ _ _ _ _)

theorem transformScimUser_ensures (payload : Payload) :
    (transformScimUser env tenantId payload).Ensures Unpublishable := by
  unfold transformScimUser
  refine Except.ensures_bind fun userId => Except.ensures_ite ifAny_none ?_
  refine Except.ensures_bind fun groups => Except.ensures_bind fun username => ?_
  refine Except.ensures_bind fun active => Except.ensures_bind fun hash => ?_
  exact ensures_unpublishable (ensures_ifAny (newEvent_not_accepted (k := "username")
    (by simp [PyDict.get?, PyDict.find]) (by decide) _ _ _ _ _))

/-! ### Agreement -/

/-- The connectors that build their attributes from the models of the schemas. -/
def SourcePayload.UsesSchemaModel : SourcePayload → Prop
  | .cur _ | .bedrock _ => True
  | _ => False

/-- **What a connector returns can be published exactly when it is the cost-and-usage
or the Bedrock connector.** -/
theorem publishable_iff (env : ConnectorEnv) (tenantId : String) (source : SourcePayload)
    (event : DomainEvent) (h : source.transform env tenantId = .ok (some event)) :
    validateDomainEvent event = .ok () ↔ source.UsesSchemaModel := by
  rw [validateDomainEvent_ok_iff]
  have hacc : ∀ {x : Except PyExn DomainEvent}, x.Ensures DomainEvent.Accepted →
      x.map some = .ok (some event) → event.Accepted := by
    intro x hx hmap
    cases x with
    | error e => cases hmap
    | ok e =>
      cases hmap
      exact hx _ rfl
  cases source with
  | cur record =>
    have hcur : (transformCurRecord env tenantId record).Ensures DomainEvent.Accepted :=
      (transformCurRecord_ensures record).imp fun _ he => he.1
    exact iff_of_true (hacc hcur h) trivial
  | bedrock logEntry => exact iff_of_true (hacc (transformInvocation_ensures logEntry) h) trivial
  | cloudTrail trailEvent =>
    exact iff_of_false (transformTrailEvent_ensures trailEvent _ h event rfl).1 id
  | githubScm eventName payload deliveryId =>
    exact iff_of_false (transformWebhook_ensures eventName payload deliveryId _ h event rfl) id
  | githubActions payload deliveryId =>
    exact iff_of_false (transformWorkflowJob_ensures payload deliveryId _ h event rfl) id
  | oktaSystemLog log =>
    exact iff_of_false (transformSystemLogEvent_ensures log _ h event rfl) id
  | oktaScim payload => exact iff_of_false (transformScimUser_ensures payload _ h event rfl) id

/-- Whether a transform has returned an event. -/
def returnsEvent : Except PyExn (Option DomainEvent) → Bool
  | .ok (some _) => true
  | _ => false

theorem exists_of_returnsEvent {x : Except PyExn (Option DomainEvent)} (h : returnsEvent x) :
    ∃ e, x = .ok (some e) := by
  unfold returnsEvent at h
  split at h
  · exact ⟨_, rfl⟩
  · cases h

/-- Surroundings at the epoch; texts are no dates, and every fingerprint is alike. -/
def epochEnv : ConnectorEnv where
  now := AwareDateTime.utc 0
  ingestTime := AwareDateTime.utc 0
  eventId := "e"
  fromisoformat _ := none
  fingerprint _ := .ok "f"
  laxInt
    | .int i => .ok i
    | _ => .error .validationError
  laxFloat
    | .float x => .ok x
    | _ => .error .validationError

/-- A cost-and-usage record of no cost. -/
def freeRecord : SourcePayload :=
  .cur ⟨[("lineItem/UsageAccountId", .str "1"), ("lineItem/ProductCode", .str "S3"),
    ("lineItem/UnblendedCost", .float (.finite 0)), ("identity/LineItemId", .str "l")], by decide⟩

theorem publishable_freeRecord : ∃ event, freeRecord.transform epochEnv "acme" = .ok (some event) ∧
    validateDomainEvent event = .ok () := by
  obtain ⟨event, h⟩ := exists_of_returnsEvent
    (show returnsEvent (freeRecord.transform epochEnv "acme") = true by decide +kernel)
  exact ⟨event, h, (publishable_iff epochEnv "acme" freeRecord event h).mpr trivial⟩

/-- The creation of an endpoint, as CloudTrail reports it. -/
def createEndpoint : Payload :=
  ⟨[("eventName", .str "CreateEndpoint"), ("eventID", .str "t"),
    ("userIdentity", .dict [("arn", .str "arn:u"), ("type", .str "IAMUser")]),
    ("responseElements", .dict [("endpointArn", .str "arn:e")]),
    ("awsRegion", .str "eu-west-1")], by decide⟩

/-- The event of a created endpoint is refused by the bus. -/
theorem createEndpoint_unpublishable :
    ¬ ∀ (env : ConnectorEnv) (tenantId : String) (source : SourcePayload) (event : DomainEvent),
      source.transform env tenantId = .ok (some event) → validateDomainEvent event = .ok () := by
  intro hall
  obtain ⟨event, h⟩ := exists_of_returnsEvent
    (show returnsEvent (transformTrailEvent epochEnv "acme" createEndpoint) = true by
      decide +kernel)
  have hacc := validateDomainEvent_ok_iff.mp
    (hall epochEnv "acme" (.cloudTrail createEndpoint) event h)
  exact (transformTrailEvent_ensures createEndpoint _ h event rfl).1 hacc

end ComputeIntelligence
