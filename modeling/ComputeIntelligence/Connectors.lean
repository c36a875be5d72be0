import ComputeIntelligence.EventSchema
import ComputeIntelligence.ExceptRules

/-! # Ingestion connectors

The transforms of `ingestion/connectors/`: AWS cost and usage records, CloudTrail
events, Bedrock invocation logs, GitHub webhooks and workflow jobs, Okta system log
events and SCIM users, each into a domain event or, where the source has nothing to
say, into nothing.

A source payload is a dictionary of arbitrary values, so every `str(..)`, `.get(..)`
and `int(..)` may raise.  Taken as given, and free to behave in any way, are the clock,
the random event id, `datetime.fromisoformat`, the SHA-256 fingerprint of a JSON text
and pydantic's lenient conversions to `int` and `float` (`ConnectorEnv`).
-/
namespace ComputeIntelligence

/-- A source payload. -/
abbrev Payload := PyDict String PyVal

/-- What a transform uses of its surroundings. -/
structure ConnectorEnv where
  now : AwareDateTime
  ingestTime : AwareDateTime
  eventId : String
  fromisoformat : String → Option PyDateTime
  fingerprint : PyVal → Except PyExn String
  laxInt : PyVal → Except PyExn Int
  laxFloat : PyVal → Except PyExn PyFloat

/-- A `str` field of a model that is not strict: only a text is one. -/
def laxStr : PyVal → Except PyExn String
  | .str s => .ok s
  | _ => .error .validationError

/-- `str(v).strip()`. -/
def stripped (v : PyVal) : Except PyExn String := v.toStr.map PyText.strip

/-- `v if isinstance(v, dict) else {}`. -/
def dictOrEmpty (v : PyVal) : PyVal := if v.isDict then v else .dict []

/-- `DomainEvent(...)` with the default event id, ingest time and schema version. -/
def newEvent (env : ConnectorEnv) (eventType : EventType) (subjectId : PyVal)
    (attributes : PyDict String PyVal) (eventTime : AwareDateTime)
    (source idempotencyKey tenantId : String) : Except PyExn DomainEvent := do
  let subjectId ← laxStr subjectId
  if h : payloadFits attributes then
    .ok { eventId := env.eventId, eventType, subjectId, attributes := ⟨attributes, h⟩, eventTime,
          ingestTime := env.ingestTime, source, idempotencyKey, tenantId }
  else .error .validationError

/-- `_parse_event_time` and `_parse_timestamp`, alike in all connectors. -/
def parseEventTime (env : ConnectorEnv) (rawTime : PyVal) : Except PyExn AwareDateTime :=
  let toUtc (t : PyDateTime) : AwareDateTime := .utc (t.wall - t.utcoffset.getD 0)
  match rawTime with
  | .datetime t => .ok (toUtc t)
  | _ => do
    if !(← rawTime.truth) then .ok env.now
    else
      let value ← stripped rawTime
      let value := if PyText.endsWith "Z" value then
        PyText.take (value.length - 1) value ++ "+00:00" else value
      match env.fromisoformat value with
      | none => .ok env.now
      | some parsed => .ok (toUtc parsed)

/-! ### AWS cost and usage -/

/-- `BillingLineItem`, as its validation leaves it. -/
structure BillingLineItem where
  cloudProvider : String
  accountId : String
  service : String
  resourceArn : String
  region : String
  costUsd : PyFloat
  usageQuantity : PyFloat
  usageUnit : String
  tags : List (String × String)

/-- `model_dump()`. -/
def BillingLineItem.modelDump (b : BillingLineItem) : PyDict String PyVal :=
  ⟨[("cloud_provider", .str b.cloudProvider), ("account_id", .str b.accountId),
    ("service", .str b.service), ("resource_arn", .str b.resourceArn), ("region", .str b.region),
    ("cost_usd", .float b.costUsd), ("usage_quantity", .float b.usageQuantity),
    ("usage_unit", .str b.usageUnit), ("tags", .dict (b.tags.map fun t => (t.1, .str t.2))),
    ("billing_period_start", .none), ("billing_period_end", .none)], by simp⟩

/-- `s.replace(pat, "")`, scanning at most `fuel` characters. -/
def removeAll (pat : List Char) : Nat → List Char → List Char
  | 0, s => s
  | _, [] => []
  | n + 1, c :: s =>
      if pat.isPrefixOf (c :: s) then removeAll pat n ((c :: s).drop pat.length)
      else c :: removeAll pat n s

/-- `_extract_tags`. -/
def extractTags (record : Payload) : Except PyExn (PyDict String String) :=
  let userTag := "resourceTags/user:"
  record.items.foldlM (fun (tags : PyDict String String) (kv : String × PyVal) => do
    if PyText.startsWith userTag kv.1 then
      if (← kv.2.truth) then
        let name := String.ofList (removeAll userTag.toList kv.1.length kv.1.toList)
        .ok (tags.set name (← kv.2.toStr))
      else .ok tags
    else .ok tags) PyDict.empty

/-- A dictionary of texts, each the `str` of a payload value. -/
def strMaterial (fields : List (String × PyVal)) : Except PyExn (List (String × PyVal)) :=
  fields.mapM fun kv => do .ok (kv.1, PyVal.str (← kv.2.toStr))

/-- `AWSBillingConnector._stable_record_fingerprint`. -/
def stableRecordFingerprint (env : ConnectorEnv) (record : Payload) : Except PyExn String := do
  let material ← strMaterial
    [("usage_account_id", record.getD "lineItem/UsageAccountId" (.str "")),
      ("service", record.getD "lineItem/ProductCode" (.str "")),
      ("resource_id", record.getD "lineItem/ResourceId" (.str "")),
      ("usage_start", record.getD "lineItem/UsageStartDate" (.str "")),
      ("usage_end", record.getD "lineItem/UsageEndDate" (.str "")),
      ("cost", record.getD "lineItem/UnblendedCost" (.str ""))]
  env.fingerprint (.dict material)

/-- A `float` field with `ge=0.0`. -/
def nonnegative (x : PyFloat) : Except PyExn PyFloat :=
  if x.ge 0 then .ok x else .error .validationError

/-- The idempotency key of a record: its line item id, or a fingerprint. -/
def curIdempotencyKey (env : ConnectorEnv) (record : Payload) : Except PyExn String := do
  let lineItemId ← stripped (record.getD "identity/LineItemId" (.str ""))
  if lineItemId ≠ "" then .ok ("aws-cur:" ++ lineItemId)
  else .ok ("aws-cur-fallback:" ++ (← stableRecordFingerprint env record))

/-- The billing line item of a record. -/
def curLineItem (accountId service : String) (rawCost : PyVal) (record : Payload) :
    Except PyExn BillingLineItem := do
  let cost ← rawCost.toFloat
  let usage ← (record.getD "lineItem/UsageAmount" (.int 0)).toFloat
  let tags ← extractTags record
  .ok { cloudProvider := "aws", accountId, service
        resourceArn := ← laxStr (record.getD "lineItem/ResourceId" (.str ""))
        region := ← laxStr (record.getD "product/region" (.str ""))
        costUsd := ← nonnegative cost, usageQuantity := ← nonnegative usage
        usageUnit := ← laxStr (record.getD "pricing/unit" (.str ""))
        tags := tags.items }

/-- `AWSBillingConnector.transform_cur_record`. -/
def transformCurRecord (env : ConnectorEnv) (tenantId : String) (record : Payload) :
    Except PyExn DomainEvent := do
  let accountId ← stripped (record.getD "lineItem/UsageAccountId" (.str ""))
  let service ← stripped (record.getD "lineItem/ProductCode" (.str ""))
  if accountId = "" ∨ service = "" then .error .valueError
  else match record.getD "lineItem/UnblendedCost" .none with
  | .none => .error .valueError
  | rawCost => do
    let idempotencyKey ← curIdempotencyKey env record
    let billing ← curLineItem accountId service rawCost record
    newEvent env .billingLineItem
      (.str (if billing.resourceArn ≠ "" then billing.resourceArn else billing.accountId))
      billing.modelDump env.now "aws-cur" idempotencyKey tenantId

/-! ### CloudTrail -/

/-- `_stable_trail_fingerprint`. -/
def stableTrailFingerprint (env : ConnectorEnv) (trailEvent : Payload) : Except PyExn String := do
  let identity := trailEvent.getD "userIdentity" (.dict [])
  let material ← strMaterial
    [("event_name", trailEvent.getD "eventName" (.str "")),
      ("event_time", trailEvent.getD "eventTime" (.str "")),
      ("source_ip", trailEvent.getD "sourceIPAddress" (.str "")),
      ("identity_arn", ← identity.get "arn" (.str "")),
      ("identity_principal_id", ← identity.get "principalId" (.str ""))]
  env.fingerprint (.dict material)

/-- The idempotency key of both CloudTrail transforms. -/
def trailKey (env : ConnectorEnv) (trailEvent : Payload) : Except PyExn String := do
  let eventId ← stripped (trailEvent.getD "eventID" (.str ""))
  if eventId ≠ "" then .ok ("cloudtrail:" ++ eventId)
  else .ok ("cloudtrail-fallback:" ++ (← stableTrailFingerprint env trailEvent))

/-- `_transform_resource_event`. -/
def transformResourceEvent (env : ConnectorEnv) (tenantId : String) (trailEvent : Payload) :
    Except PyExn DomainEvent := do
  let identity := trailEvent.getD "userIdentity" (.dict [])
  let idempotencyKey ← trailKey env trailEvent
  let subjectId ← (trailEvent.getD "responseElements" (.dict [])).get "endpointArn" (.str "")
  let arn ← identity.get "arn" (.str "")
  let type ← identity.get "type" (.str "")
  let attributes : PyDict String PyVal :=
    ⟨[("event_name", trailEvent.getD "eventName" .none), ("identity_arn", arn),
      ("identity_type", type), ("source_ip", trailEvent.getD "sourceIPAddress" (.str "")),
      ("region", trailEvent.getD "awsRegion" (.str ""))], by simp⟩
  let eventTime ← parseEventTime env (trailEvent.getD "eventTime" .none)
  newEvent env .resourceCreated subjectId attributes eventTime "aws-cloudtrail" idempotencyKey
    tenantId

/-- `_build_safe_session_context`: the allowed keys whose values are plain.  The
source walks a set; the order of its keys is not specified. -/
def buildSafeSessionContext (trailEvent : Payload) : List (String × PyVal) :=
  match trailEvent.getD "requestParameters" .none with
  | .dict params =>
      let allowedKeys := ["roleArn", "roleSessionName", "externalId", "sourceIdentity",
        "durationSeconds", "serialNumber", "mfaAuthenticated"]
      allowedKeys.filterMap fun key => match params.lookup key with
        | some (.str s) => some (key, .str s)
        | some (.int i) => some (key, .int i)
        | some (.float x) => some (key, .float x)
        | some (.bool b) => some (key, .bool b)
        | _ => none
  | _ => []

/-- `_transform_identity_event`. -/
def transformIdentityEvent (env : ConnectorEnv) (tenantId : String) (trailEvent : Payload) :
    Except PyExn DomainEvent := do
  let identity := trailEvent.getD "userIdentity" (.dict [])
  let idempotencyKey ← trailKey env trailEvent
  let subjectId ← identity.get "arn" (.str "")
  let principalId ← identity.get "principalId" (.str "")
  let accountId ← identity.get "accountId" (.str "")
  let userName ← identity.get "userName" (.str "")
  let attributes : PyDict String PyVal :=
    ⟨[("principal_id", principalId), ("account_id", accountId), ("user_name", userName),
      ("session_context", .dict (buildSafeSessionContext trailEvent))], by simp⟩
  let eventTime ← parseEventTime env (trailEvent.getD "eventTime" .none)
  newEvent env .identityLogin subjectId attributes eventTime "aws-cloudtrail" idempotencyKey
    tenantId

/-- `event_name in names`. -/
def isOneOf (v : PyVal) (names : List String) : Bool :=
  match v with
  | .str s => names.contains s
  | _ => false

/-- `AWSCloudTrailConnector.transform_event`. -/
def transformTrailEvent (env : ConnectorEnv) (tenantId : String) (trailEvent : Payload) :
    Except PyExn (Option DomainEvent) :=
  let eventName := trailEvent.getD "eventName" (.str "")
  if isOneOf eventName ["CreateEndpoint", "UpdateEndpoint", "CreateFunction"] then
    (transformResourceEvent env tenantId trailEvent).map some
  else if isOneOf eventName ["AssumeRole", "ConsoleLogin"] then
    (transformIdentityEvent env tenantId trailEvent).map some
  else .ok none

/-! ### Bedrock -/

/-- `InferenceEvent`, as its validation leaves it. -/
structure InferenceEvent where
  model : String
  provider : String
  cloudResourceArn : String
  region : String
  inputTokens : Int
  outputTokens : Int
  latencyMs : PyFloat
  costUsd : PyFloat
  apiKeyId : String := ""
  serviceName : String := ""
  requestId : String

/-- `model_dump()`. -/
def InferenceEvent.modelDump (i : InferenceEvent) : PyDict String PyVal :=
  ⟨[("model", .str i.model), ("provider", .str i.provider),
    ("cloud_resource_arn", .str i.cloudResourceArn), ("region", .str i.region),
    ("input_tokens", .int i.inputTokens), ("output_tokens", .int i.outputTokens),
    ("latency_ms", .float i.latencyMs), ("cost_usd", .float i.costUsd),
    ("api_key_id", .str i.apiKeyId), ("service_name", .str i.serviceName),
    ("request_id", .str i.requestId)], by simp⟩

/-- The rates of `_estimate_cost`, per thousand tokens. -/
def bedrockRates : List (String × ℚ × ℚ) :=
  [("amazon.nova-pro-v1:0", 3 / 1000, 15 / 1000), ("amazon.nova-lite-v1:0", 1 / 4000, 1 / 800),
    ("amazon.titan-text-express", 2 / 10000, 6 / 10000)]

/-- `_estimate_cost`. -/
def estimateCost (logEntry : Payload) : Except PyExn PyFloat := do
  let inputTokens ← (logEntry.getD "inputTokenCount" (.int 0)).toFloat
  let outputTokens ← (logEntry.getD "outputTokenCount" (.int 0)).toFloat
  let modelId ← (logEntry.getD "modelId" (.str "")).toStr
  let (inputRate, outputRate) := (bedrockRates.lookup modelId).getD (1 / 1000, 2 / 1000)
  .ok (((inputTokens.scale inputRate).add (outputTokens.scale outputRate)).scale (1 / 1000))

/-- The inference event of a log entry. -/
def invocationEvent (env : ConnectorEnv) (logEntry : Payload) : Except PyExn InferenceEvent := do
  let cost ← estimateCost logEntry
  let latency ← env.laxFloat (logEntry.getD "invocationLatency" (.int 0))
  .ok { model := ← laxStr (logEntry.getD "modelId" (.str "")), provider := "aws-bedrock"
        cloudResourceArn := ← laxStr (logEntry.getD "modelArn" (.str ""))
        region := ← laxStr (logEntry.getD "region" (.str ""))
        inputTokens := ← env.laxInt (logEntry.getD "inputTokenCount" (.int 0))
        outputTokens := ← env.laxInt (logEntry.getD "outputTokenCount" (.int 0))
        latencyMs := ← nonnegative latency, costUsd := ← nonnegative cost
        requestId := ← laxStr (logEntry.getD "requestId" (.str "")) }

/-- `BedrockTelemetryConnector.transform_invocation`. -/
def transformInvocation (env : ConnectorEnv) (tenantId : String) (logEntry : Payload) :
    Except PyExn DomainEvent := do
  let inference ← invocationEvent env logEntry
  let eventTime ← parseEventTime env (logEntry.getD "timestamp" .none)
  newEvent env .inferenceRequest (.str inference.requestId) inference.modelDump eventTime
    "aws-bedrock" ("bedrock:" ++ inference.requestId) tenantId

/-! ### GitHub -/

/-- `delivery_id.strip() or self._stable_hash(*parts)`. -/
def stableDeliveryId (env : ConnectorEnv) (deliveryId : String) (parts : List PyVal) :
    Except PyExn String :=
  if PyText.strip deliveryId ≠ "" then .ok (PyText.strip deliveryId)
  else env.fingerprint (.list parts)

/-- The time a webhook gives for its event: that of the head commit, if there is one. -/
def webhookTime (payload : Payload) : Except PyExn PyVal :=
  let headCommit := payload.getD "head_commit" .none
  if headCommit.isDict then headCommit.get "timestamp" .none
  else .ok (payload.getD "merged_at" .none)

/-- The branch of `transform_webhook` for a push. -/
def transformPush (env : ConnectorEnv) (tenantId repoFullName stableId : String)
    (timestamp : AwareDateTime) (payload : Payload) : Except PyExn DomainEvent := do
  let afterSha ← stripped (payload.getD "after" (.str ""))
  let beforeSha ← stripped (payload.getD "before" (.str ""))
  let pusher := dictOrEmpty (payload.getD "pusher" .none)
  let branch ← (payload.getD "ref" (.str "")).toStr
  let commitCount ← (← (payload.getD "size" (.int 0)).orElse (.int 0)).toInt
  let pusherName ← (← pusher.get "name" (.str "")).toStr
  let attributes : PyDict String PyVal :=
    ⟨[("repository", .str repoFullName), ("branch", .str (PyText.dropStart "refs/heads/" branch)),
      ("after_sha", .str afterSha), ("before_sha", .str beforeSha),
      ("commit_count", .int commitCount), ("pusher", .str pusherName)], by simp⟩
  newEvent env .codeCommit (.str (if afterSha ≠ "" then afterSha else repoFullName)) attributes
    timestamp "github-webhook" ("github-push:" ++ stableId) tenantId

/-- The branch of `transform_webhook` for a merged pull request. -/
def transformMerge (env : ConnectorEnv) (tenantId repoFullName stableId : String) (pr : PyVal) :
    Except PyExn DomainEvent := do
  let author := dictOrEmpty (← pr.get "user" .none)
  let id ← stripped (← pr.get "id" (.str ""))
  let number ← (← (← pr.get "number" (.int 0)).orElse (.int 0)).toInt
  let mergeSha ← (← pr.get "merge_commit_sha" (.str "")).toStr
  let login ← (← author.get "login" (.str "")).toStr
  let base ← (← (← pr.get "base" (.dict [])).get "ref" (.str "")).toStr
  let attributes : PyDict String PyVal :=
    ⟨[("repository", .str repoFullName), ("pr_number", .int number), ("merge_sha", .str mergeSha),
      ("author", .str login), ("base_branch", .str base)], by simp⟩
  let eventTime ← parseEventTime env (← pr.get "merged_at" .none)
  newEvent env .prMerged (.str (if id ≠ "" then id else repoFullName)) attributes eventTime
    "github-webhook" ("github-pr-merge:" ++ stableId) tenantId

/-- `GitHubSCMConnector.transform_webhook`. -/
def transformWebhook (env : ConnectorEnv) (tenantId eventName : String) (payload : Payload)
    (deliveryId : String) : Except PyExn (Option DomainEvent) := do
  let normalizedEvent := PyText.lower (PyText.strip eventName)
  let repo := dictOrEmpty (payload.getD "repository" .none)
  let repoFullName ← stripped (← repo.get "full_name" (.str ""))
  let timestamp ← parseEventTime env (← webhookTime payload)
  let stableId ← stableDeliveryId env deliveryId
    [.str normalizedEvent, .str repoFullName, .dict payload.items]
  if normalizedEvent = "push" then
    (transformPush env tenantId repoFullName stableId timestamp payload).map some
  else if normalizedEvent = "pull_request" then do
    let action ← (stripped (payload.getD "action" (.str ""))).map PyText.lower
    let pr := dictOrEmpty (payload.getD "pull_request" .none)
    let merged ← (← pr.get "merged" (.bool false)).truth
    if action = "closed" ∧ merged then
      (transformMerge env tenantId repoFullName stableId pr).map some
    else .ok none
  else .ok none

/-- `_infer_environment`. -/
def inferEnvironment (labels : List String) : String :=
  let lowered := labels.map PyText.lower
  if lowered.any (PyText.contains "prod") then "production"
  else if lowered.any (PyText.contains "stage") then "staging"
  else if lowered.any (fun l => PyText.contains "dev" l || PyText.contains "test" l) then
    "development"
  else "unknown"

/-- `[str(label) for label in labels] if isinstance(labels, list) else []`. -/
def normalizeLabels (labels : PyVal) : Except PyExn (List String) :=
  match labels with
  | .list ls => ls.mapM PyVal.toStr
  | _ => .ok []

/-- `GitHubActionsConnector.transform_workflow_job`. -/
def transformWorkflowJob (env : ConnectorEnv) (tenantId : String) (payload : Payload)
    (deliveryId : String) : Except PyExn (Option DomainEvent) := do
  let action ← (stripped (payload.getD "action" (.str ""))).map PyText.lower
  if action ≠ "completed" then .ok none
  else
    let workflowJob := dictOrEmpty (payload.getD "workflow_job" .none)
    let repo := dictOrEmpty (payload.getD "repository" .none)
    let repoFullName ← stripped (← repo.get "full_name" (.str ""))
    let runId ← stripped (← workflowJob.get "run_id" (.str ""))
    if repoFullName = "" ∧ runId = "" then .ok none
    else
      let labels ← workflowJob.get "labels" (.list [])
      let normalizedLabels ← normalizeLabels labels
      let actor := dictOrEmpty (payload.getD "sender" .none)
      let eventTime ← parseEventTime env (← workflowJob.get "completed_at" .none)
      let stableId ← stableDeliveryId env deliveryId
        [.str "workflow_job", .str repoFullName, .str runId, workflowJob]
      let login ← (← actor.get "login" (.str "")).toStr
      let name ← (← workflowJob.get "name" (.str "")).toStr
      let conclusion ← (← workflowJob.get "conclusion" (.str "")).toStr
      let attributes : PyDict String PyVal :=
        ⟨[("service_name", .str (if repoFullName ≠ "" then PyText.lastPart '/' repoFullName
            else "github-actions")),
          ("repository", .str repoFullName), ("deploy_job_id", .str runId),
          ("deployer_identity", .str login),
          ("target_environment", .str (inferEnvironment normalizedLabels)),
          ("workflow_name", .str name), ("workflow_conclusion", .str conclusion)], by simp⟩
      (newEvent env .deployment (.str (if runId ≠ "" then runId else repoFullName)) attributes
        eventTime "github-actions" ("github-actions:" ++ stableId) tenantId).map some

/-! ### Okta -/

/-- `str(actor.get("id") or actor.get("alternateId") or "").strip()`. -/
def actorIdentity (actor : PyVal) : Except PyExn String := do
  let either ← (← actor.get "id" .none).orElse (← actor.get "alternateId" .none)
  stripped (← either.orElse (.str ""))

/-- The branch of `transform_system_log_event` for a login. -/
def transformLogin (env : ConnectorEnv) (tenantId eventType idempotencyKey : String)
    (eventTime : AwareDateTime) (actor : PyVal) (event : Payload) :
    Except PyExn (Option DomainEvent) := do
  let subjectId ← actorIdentity actor
  if subjectId = "" then .ok none
  else
    let actorId ← (← actor.get "id" (.str "")).toStr
    let login ← (← actor.get "alternateId" (.str "")).toStr
    let displayName ← (← actor.get "displayName" (.str "")).toStr
    let ip ← (← (event.getD "client" (.dict [])).get "ipAddress" (.str "")).toStr
    let attributes : PyDict String PyVal :=
      ⟨[("actor_id", .str actorId), ("actor_login", .str login),
        ("actor_display_name", .str displayName), ("ip_address", .str ip),
        ("event_type", .str eventType)], by simp⟩
    (newEvent env .identityLogin (.str subjectId) attributes eventTime "okta-system-log"
      idempotencyKey tenantId).map some

/-- The branch of `transform_system_log_event` for a change of group membership. -/
def transformGroupChange (env : ConnectorEnv) (tenantId eventType idempotencyKey : String)
    (eventTime : AwareDateTime) (actor target targetProfile : PyVal) :
    Except PyExn (Option DomainEvent) := do
  let userId ← actorIdentity actor
  let groupId ← stripped (← target.get "id" (.str ""))
  let groupName ← (← (← target.get "displayName" (.str "")).orElse
    (← targetProfile.get "groupName" (.str ""))).toStr
  if userId = "" ∨ groupId = "" then .ok none
  else
    let attributes : PyDict String PyVal :=
      ⟨[("group_id", .str groupId), ("group_name", .str groupName),
        ("operation", .str (if PyText.endsWith ".add" eventType then "add" else "remove")),
        ("event_type", .str eventType)], by simp⟩
    (newEvent env .identityGroupChange (.str userId) attributes eventTime "okta-system-log"
      idempotencyKey tenantId).map some

/-- The idempotency key of a system log event: its uuid, or a fingerprint. -/
def oktaIdempotencyKey (env : ConnectorEnv) (eventType : String) (eventTime : AwareDateTime)
    (event : Payload) : Except PyExn String := do
  let eventId ← stripped (event.getD "uuid" (.str ""))
  if eventId ≠ "" then .ok ("okta:" ++ eventId)
  else
    let material := [.str eventType, .str eventTime.1.isoformat, .dict event.items]
    .ok ("okta-fallback:" ++ (← env.fingerprint (.list material)))

/-- `OktaIdentityConnector.transform_system_log_event`. -/
def transformSystemLogEvent (env : ConnectorEnv) (tenantId : String) (event : Payload) :
    Except PyExn (Option DomainEvent) := do
  let eventType ← stripped (event.getD "eventType" (.str ""))
  let actor := dictOrEmpty (event.getD "actor" .none)
  let target := match event.getD "target" (.list []) with
    | .list (t :: _) => t
    | _ => .dict []
  let targetProfile := dictOrEmpty (← target.get "detailEntry" .none)
  let eventTime ← parseEventTime env (event.getD "published" .none)
  let idempotencyKey ← oktaIdempotencyKey env eventType eventTime event
  if eventType ∈ ["user.session.start", "user.authentication.sso"] then
    transformLogin env tenantId eventType idempotencyKey eventTime actor event
  else if eventType ∈ ["group.user_membership.add", "group.user_membership.remove"] then
    transformGroupChange env tenantId eventType idempotencyKey eventTime actor target targetProfile
  else .ok none

/-- One element of the groups of a SCIM user; anything but a dictionary is skipped. -/
def scimGroup (group : PyVal) : Except PyExn (Option PyVal) := do
  if group.isDict then
    let id ← (← group.get "value" (.str "")).toStr
    let name ← (← group.get "display" (.str "")).toStr
    .ok (some (.dict [("group_id", .str id), ("group_name", .str name)]))
  else .ok none

/-- The groups of a SCIM user. -/
def scimGroups (groups : PyVal) : Except PyExn (List PyVal) :=
  match groups with
  | .list gs => (gs.mapM scimGroup).map (List.filterMap id)
  | _ => .ok []

/-- `OktaIdentityConnector.transform_scim_user`. -/
def transformScimUser (env : ConnectorEnv) (tenantId : String) (payload : Payload) :
    Except PyExn (Option DomainEvent) := do
  let userId ← stripped (payload.getD "id" (.str ""))
  if userId = "" then .ok none
  else
    let normalizedGroups ← scimGroups (payload.getD "groups" (.list []))
    let username ← stripped (payload.getD "userName" (.str ""))
    let active ← (payload.getD "active" (.bool true)).truth
    let keyFingerprint ← env.fingerprint
      (.list [.str "okta-scim", .str userId, .list normalizedGroups, .str username, .bool active])
    let attributes : PyDict String PyVal :=
      ⟨[("username", .str username), ("active", .bool active), ("groups", .list normalizedGroups),
        ("operation", .str "sync")], by simp⟩
    (newEvent env .identityGroupChange (.str userId) attributes env.now "okta-scim"
      ("okta-scim:" ++ keyFingerprint) tenantId).map some

/-! ### All connectors -/

/-- A payload for one of the connectors. -/
inductive SourcePayload where
  | cur (record : Payload)
  | cloudTrail (trailEvent : Payload)
  | bedrock (logEntry : Payload)
  | githubScm (eventName : String) (payload : Payload) (deliveryId : String)
  | githubActions (payload : Payload) (deliveryId : String)
  | oktaSystemLog (event : Payload)
  | oktaScim (payload : Payload)

/-- The transform of the payload's connector. -/
def SourcePayload.transform (env : ConnectorEnv) (tenantId : String) :
    SourcePayload → Except PyExn (Option DomainEvent)
  | .cur record => (transformCurRecord env tenantId record).map some
  | .cloudTrail trailEvent => transformTrailEvent env tenantId trailEvent
  | .bedrock logEntry => (transformInvocation env tenantId logEntry).map some
  | .githubScm eventName payload deliveryId =>
      transformWebhook env tenantId eventName payload deliveryId
  | .githubActions payload deliveryId => transformWorkflowJob env tenantId payload deliveryId
  | .oktaSystemLog event => transformSystemLogEvent env tenantId event
  | .oktaScim payload => transformScimUser env tenantId payload

end ComputeIntelligence
