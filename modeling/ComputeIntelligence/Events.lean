import ComputeIntelligence.StrictSchema

/-! # Domain events

`models/events.py`.  An event is immutable and carries what its validators have
checked: its two datetimes are aware, and its attributes are small enough when
written as JSON.
-/
namespace ComputeIntelligence

/-- `EventType`. -/
inductive EventType where
  | inferenceRequest | inferenceResponse | billingLineItem | resourceCreated | resourceDeleted
  | deployment | codeCommit | codeownerChange | prMerged
  | identityLogin | identityGroupChange | orgChange | teamMembership
  | attributionCorrection | chargebackDecision | finopsReview
  | attributionComputed | indexMaterialized | calibrationUpdated
  | shadowInterceptMiss | shadowInterceptTimeout | policyEvaluated | interventionApplied
deriving DecidableEq

/-- The value of an event type, which is its topic on the bus. -/
def EventType.value : EventType → String
  | .inferenceRequest => "inference.request"
  | .inferenceResponse => "inference.response"
  | .billingLineItem => "billing.line_item"
  | .resourceCreated => "resource.created"
  | .resourceDeleted => "resource.deleted"
  | .deployment => "cicd.deployment"
  | .codeCommit => "scm.commit"
  | .codeownerChange => "scm.codeowner_change"
  | .prMerged => "scm.pr_merged"
  | .identityLogin => "identity.login"
  | .identityGroupChange => "identity.group_change"
  | .orgChange => "org.hierarchy_change"
  | .teamMembership => "org.team_membership"
  | .attributionCorrection => "correction.attribution"
  | .chargebackDecision => "correction.chargeback"
  | .finopsReview => "correction.finops_review"
  | .attributionComputed => "system.attribution_computed"
  | .indexMaterialized => "system.index_materialized"
  | .calibrationUpdated => "system.calibration_updated"
  | .shadowInterceptMiss => "interceptor.shadow.miss"
  | .shadowInterceptTimeout => "interceptor.shadow.timeout"
  | .policyEvaluated => "interceptor.policy.evaluated"
  | .interventionApplied => "interceptor.intervention.applied"

/-! ### The size of a payload -/

/-- The bytes a character takes in an ASCII-only JSON text. -/
def jsonCharSize (c : Char) : Nat :=
  if c = '\\' ∨ c.toNat = 34 ∨ c = '\n' ∨ c = '\r' ∨ c = '\t' ∨ c.toNat = 8 ∨ c.toNat = 12 then 2
  else if 32 ≤ c.toNat ∧ c.toNat ≤ 126 then 1
  else if c.toNat < 0x10000 then 6 else 12

/-- The bytes of a JSON string. -/
def jsonStrSize (s : String) : Nat := 2 + (s.toList.map jsonCharSize).sum

/-- The bytes of a JSON number made from a float. -/
def jsonFloatSize : PyFloat → Nat
  | .finite q => (PyFloat.repr (.finite q)).length
  | .posInf => 8
  | .negInf => 9
  | .nan => 3

mutual

/-- `len(json.dumps(v, default=str, separators=(",", ":")).encode())`, if it can be
written. -/
def jsonSize : PyVal → Option Nat
  | .none => some 4
  | .bool b => some (if b then 4 else 5)
  | .int i => (PyVal.intStr i).toOption.map String.length
  | .float x => some (jsonFloatSize x)
  | .str s => some (jsonStrSize s)
  | .datetime t => some (jsonStrSize t.str)
  | .list xs => (jsonListSize xs).map (· + 2 + (xs.length - 1))
  | .dict kvs => (jsonItemsSize kvs).map (· + 2 + (kvs.length - 1))
  | .object o => o.str.map jsonStrSize

/-- The elements of an array, without its punctuation. -/
def jsonListSize : List PyVal → Option Nat
  | [] => some 0
  | x :: xs => do some ((← jsonSize x) + (← jsonListSize xs))

/-- The members of an object, without its punctuation. -/
def jsonItemsSize : List (String × PyVal) → Option Nat
  | [] => some 0
  | (k, v) :: kvs => do some (jsonStrSize k + 1 + (← jsonSize v) + (← jsonItemsSize kvs))

end

/-- `MAX_ATTRIBUTES_PAYLOAD_BYTES`. -/
def maxAttributesPayloadBytes : Nat := 512 * 1024

/-- What `_validate_attributes_payload_size` accepts. -/
def payloadFits (attributes : PyDict String PyVal) : Bool :=
  match jsonSize (.dict attributes.items) with
  | some n => n ≤ maxAttributesPayloadBytes
  | none => false

/-! ### The event -/

/-- A datetime that knows its UTC offset. -/
abbrev AwareDateTime := {t : PyDateTime // t.utcoffset.isSome}

/-- A wall clock reading in UTC. -/
def AwareDateTime.utc (wall : Int) : AwareDateTime := ⟨⟨wall, some 0⟩, rfl⟩

/-- The instant an aware datetime denotes. -/
def AwareDateTime.instant (t : AwareDateTime) : Instant := t.1.wall - (t.1.utcoffset.getD 0)

/-- `DomainEvent`, as its validators leave it. -/
structure DomainEvent where
  eventId : String
  eventType : EventType
  subjectId : String
  attributes : {d : PyDict String PyVal // payloadFits d}
  eventTime : AwareDateTime
  ingestTime : AwareDateTime
  source : String
  idempotencyKey : String
  tenantId : String
  schemaVersion : Int := 1

/-- The attributes as a dictionary. -/
def DomainEvent.attrs (e : DomainEvent) : PyDict String PyVal := e.attributes.1

end ComputeIntelligence
