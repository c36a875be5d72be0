import ComputeIntelligence.Events

/-! # The payload schemas of the bus

`core/event_schema.py`: one strict, closed schema per event type, and the check every
event passes before it enters the bus.
-/
namespace ComputeIntelligence

/-! ### FieldSpec declarations -/

/-- A text field that must be given. -/
def strField (name : String) : FieldSpec := { name, type := .str }

/-- A text field that is empty by default. -/
def optStr (name : String) : FieldSpec := { name, type := .str, default := some (.str "") }

/-- A text field with a default of its own. -/
def strDefault (name default : String) : FieldSpec :=
  { name, type := .str, default := some (.str default) }

/-- An integer field with a default. -/
def intDefault (name : String) (default : Int) : FieldSpec :=
  { name, type := .int, default := some (.int default) }

/-- A float field that must be given. -/
def floatField (name : String) : FieldSpec := { name, type := .float }

/-- A float field, zero by default. -/
def optFloat (name : String) : FieldSpec :=
  { name, type := .float, default := some (.float (.finite 0)) }

/-- A boolean field with a default. -/
def boolDefault (name : String) (default : Bool) : FieldSpec :=
  { name, type := .bool, default := some (.bool default) }

/-- A datetime field that may be `None`, and is by default. -/
def optDateTime (name : String) : FieldSpec :=
  { name, type := .optDateTime, default := some .none }

/-- A `dict[str, str]` field, empty by default. -/
def optTags (name : String) : FieldSpec := { name, type := .dictStrStr, default := some (.dict []) }

/-- A `list[str]` field, empty by default. -/
def optStrList (name : String) : FieldSpec := { name, type := .listStr, default := some (.list []) }

/-! ### The schemas -/

/-- `_InferencePayload`. -/
def inferencePayload : StrictSchema :=
  [strField "model", strField "provider", optStr "cloud_resource_arn", optStr "region",
    intDefault "input_tokens" 0, intDefault "output_tokens" 0, optFloat "latency_ms",
    optFloat "cost_usd", optStr "api_key_id", optStr "service_name", optStr "request_id"]

/-- `_DeploymentPayload`. -/
def deploymentPayload : StrictSchema :=
  [strField "service_name", strField "repository", optStr "commit_sha",
    optStr "deployer_identity", optStr "deploy_tool", optStr "deploy_job_id",
    optStr "target_environment", optStr "target_resource_arn", optDateTime "timestamp"]

/-- `_ResourceLifecyclePayload`. -/
def resourceLifecyclePayload : StrictSchema :=
  [strField "resource_arn", optStr "cloud_provider", optStr "service", optStr "region",
    optTags "tags", optDateTime "timestamp"]

/-- `_ScmCommitPayload`. -/
def scmCommitPayload : StrictSchema :=
  [strField "repository", optStr "commit_sha", optStr "author_identity", optStr "branch",
    optStr "message", optDateTime "timestamp"]

/-- `_CodeownerChangePayload`. -/
def codeownerChangePayload : StrictSchema :=
  [strField "repository", optStr "changed_path", optStr "previous_owner", optStr "new_owner",
    optStr "actor_identity", optDateTime "timestamp"]

/-- `_PrMergedPayload`. -/
def prMergedPayload : StrictSchema :=
  [strField "repository", intDefault "pr_number" 0, optStr "merged_by",
    optStr "author_identity", optStr "branch", optDateTime "timestamp"]

/-- `_BillingLineItemPayload`. -/
def billingLineItemPayload : StrictSchema :=
  [strField "cloud_provider", strField "account_id", strField "service",
    optStr "resource_arn", optStr "region", floatField "cost_usd", optFloat "usage_quantity",
    optStr "usage_unit", optTags "tags", optDateTime "billing_period_start",
    optDateTime "billing_period_end"]

/-- `_OrgChangePayload`. -/
def orgChangePayload : StrictSchema :=
  [strField "person_id", optStr "previous_team", optStr "new_team", optStr "previous_manager",
    optStr "new_manager", optDateTime "effective_date", strDefault "source_system" "workday"]

/-- `_IdentityLoginPayload`. -/
def identityLoginPayload : StrictSchema :=
  [strField "person_id", optStr "auth_provider", optStr "ip_address",
    boolDefault "succeeded" true, optDateTime "timestamp"]

/-- `_IdentityGroupChangePayload`. -/
def identityGroupChangePayload : StrictSchema :=
  [strField "person_id", strField "group_id", strDefault "action" "added",
    optStr "source_system", optDateTime "timestamp"]

/-- `_TeamMembershipPayload`. -/
def teamMembershipPayload : StrictSchema :=
  [strField "person_id", strField "team_id", strDefault "action" "added",
    optStr "source_system", optDateTime "effective_date"]

/-- `_ShadowInterceptPayload`. -/
def shadowInterceptPayload : StrictSchema :=
  [strField "request_id", strField "workload_id", floatField "elapsed_ms",
    strField "interceptor_mode", optStr "tenant_id"]

/-- `_InterventionAppliedPayload`. -/
def interventionAppliedPayload : StrictSchema :=
  [strField "request_id", strField "workload_id", strField "action_type",
    strField "original_model", optStr "new_model", optFloat "attribution_confidence",
    optFloat "estimated_cost_usd", optStr "environment", optFloat "elapsed_ms",
    optStr "tenant_id"]

/-- `_PolicyEvaluatedPayload`. -/
def policyEvaluatedPayload : StrictSchema :=
  [strField "request_id", strField "workload_id", intDefault "violation_count" 0,
    optStrList "violated_policy_ids", strField "mode", boolDefault "fail_open" false,
    optFloat "elapsed_ms", optStr "environment"]

/-- `_AttributionCorrectionPayload`. -/
def attributionCorrectionPayload : StrictSchema :=
  [strField "attribution_id", strField "true_team_id", strField "true_cost_center_id",
    optStr "predicted_team_id", optFloat "predicted_confidence", optStr "method_used",
    boolDefault "was_correct" false]

/-- `_ChargebackDecisionPayload`. -/
def chargebackDecisionPayload : StrictSchema :=
  [strField "attribution_id", optStr "disposition", optStr "notes", optStr "decided_by",
    optDateTime "timestamp"]

/-- `_FinopsReviewPayload`. -/
def finopsReviewPayload : StrictSchema :=
  [strField "attribution_id", optStr "reviewer", optStr "decision", optStr "notes",
    optDateTime "timestamp"]

/-- `_AttributionComputedPayload`. -/
def attributionComputedPayload : StrictSchema :=
  [strField "workload_id", optStr "team_id", optFloat "confidence", optStr "method_used",
    optDateTime "timestamp"]

/-- `_IndexMaterializedPayload`. -/
def indexMaterializedPayload : StrictSchema :=
  [strField "workload_id", intDefault "index_version" 1, optStrList "source_event_ids",
    optDateTime "timestamp"]

/-- `_CalibrationUpdatedPayload`. -/
def calibrationUpdatedPayload : StrictSchema :=
  [strField "method", intDefault "sample_count" 0, optDateTime "timestamp"]

/-- `EVENT_PAYLOAD_SCHEMAS`. -/
def eventPayloadSchemas : EventType → StrictSchema
  | .inferenceRequest => inferencePayload
  | .inferenceResponse => inferencePayload
  | .resourceCreated => resourceLifecyclePayload
  | .resourceDeleted => resourceLifecyclePayload
  | .deployment => deploymentPayload
  | .billingLineItem => billingLineItemPayload
  | .codeCommit => scmCommitPayload
  | .codeownerChange => codeownerChangePayload
  | .prMerged => prMergedPayload
  | .identityLogin => identityLoginPayload
  | .identityGroupChange => identityGroupChangePayload
  | .orgChange => orgChangePayload
  | .teamMembership => teamMembershipPayload
  | .shadowInterceptMiss => shadowInterceptPayload
  | .shadowInterceptTimeout => shadowInterceptPayload
  | .policyEvaluated => policyEvaluatedPayload
  | .interventionApplied => interventionAppliedPayload
  | .attributionCorrection => attributionCorrectionPayload
  | .chargebackDecision => chargebackDecisionPayload
  | .finopsReview => finopsReviewPayload
  | .attributionComputed => attributionComputedPayload
  | .indexMaterialized => indexMaterializedPayload
  | .calibrationUpdated => calibrationUpdatedPayload

/-! ### Validation -/

/-- `EventSchemaValidationError`. -/
inductive EventSchemaValidationError where
  | unsupportedSchemaVersion (version : Int)
  | invalidPayload (eventType : EventType) (errors : List FieldError)
deriving DecidableEq

/-- `validate_event_attributes`.  Every event type has a schema. -/
def validateEventAttributes (eventType : EventType) (attributes : PyDict String PyVal) :
    Except EventSchemaValidationError (List (String × PyVal)) :=
  match (eventPayloadSchemas eventType).validate attributes with
  | .ok dump => .ok dump
  | .error errors => .error (.invalidPayload eventType errors)

/-- `validate_domain_event`. -/
def validateDomainEvent (event : DomainEvent) : Except EventSchemaValidationError Unit :=
  if event.schemaVersion ≠ 1 then .error (.unsupportedSchemaVersion event.schemaVersion)
  else (validateEventAttributes event.eventType event.attrs).map fun _ => ()

/-- Version 1, and a payload its schema accepts. -/
structure DomainEvent.Accepted (event : DomainEvent) : Prop where
  version : event.schemaVersion = 1
  payload : (eventPayloadSchemas event.eventType).Accepts event.attrs

/-- **`validate_domain_event` passes exactly the accepted events.** -/
theorem validateDomainEvent_ok_iff {event : DomainEvent} :
    validateDomainEvent event = .ok () ↔ event.Accepted := by
  unfold validateDomainEvent validateEventAttributes
  by_cases hv : event.schemaVersion = 1
  · rw [if_neg (not_not.mpr hv)]
    have hok := @StrictSchema.validate_ok_iff (eventPayloadSchemas event.eventType) event.attrs
    cases h : (eventPayloadSchemas event.eventType).validate event.attrs with
    | ok dump => exact ⟨fun _ => ⟨hv, hok.mp ⟨dump, h⟩⟩, fun _ => rfl⟩
    | error errors =>
      constructor
      · intro h
        cases h
      · intro hacc
        obtain ⟨dump, hd⟩ := hok.mpr hacc.payload
        rw [h] at hd
        cases hd
  · rw [if_pos hv]
    refine ⟨fun h => ?_, fun h => absurd h.version hv⟩
    cases h

instance (event : DomainEvent) : Decidable event.Accepted :=
  decidable_of_iff (event.schemaVersion = 1 ∧
      (eventPayloadSchemas event.eventType).Accepts event.attrs)
    ⟨fun h => ⟨h.1, h.2⟩, fun h => ⟨h.1, h.2⟩⟩

/-- Every default passes the check of its own field, so a validated payload can be
validated again. -/
theorem default_checks (eventType : EventType) :
    ∀ f ∈ eventPayloadSchemas eventType, ∀ d ∈ f.default, (f.type.check d).isSome := by
  cases eventType <;> decide

theorem names_nodup (eventType : EventType) : (eventPayloadSchemas eventType).names.Nodup := by
  cases eventType <;> decide

/-- What validation gives back is the dump of accepted attributes. -/
theorem validateEventAttributes_ok {eventType : EventType} {attributes : PyDict String PyVal}
    {dump : List (String × PyVal)} (h : validateEventAttributes eventType attributes = .ok dump) :
    (eventPayloadSchemas eventType).Accepts attributes ∧
      dump = (eventPayloadSchemas eventType).dump attributes := by
  unfold validateEventAttributes at h
  cases hv : (eventPayloadSchemas eventType).validate attributes with
  | error errors =>
    rw [hv] at h
    cases h
  | ok validated =>
    rw [hv] at h
    obtain rfl := Except.ok.inj h
    have haccepts := StrictSchema.validate_ok_iff.mp ⟨_, hv⟩
    refine ⟨haccepts, ?_⟩
    unfold StrictSchema.validate at hv
    rw [if_pos (StrictSchema.errors_eq_nil_iff.mpr haccepts)] at hv
    exact (Except.ok.inj hv).symm

end ComputeIntelligence
