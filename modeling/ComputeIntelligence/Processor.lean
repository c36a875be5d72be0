import ComputeIntelligence.EventSchema
import ComputeIntelligence.GraphStore

/-! # What the processor does to the graph

`AttributionProcessor` (`core/processor.py`): the handlers of deployments, billing
line items and organizational changes, over an `InMemoryGraphStore`.  The handlers
of inference events and corrections read the graph and never write it; every other
event type has no handler.

The bus only dispatches events that have passed validation, so the handlers take
accepted events: the attributes they use as texts are texts.  A handler reads the
clock several times; its readings are numbered by their place in the handler.
-/
namespace ComputeIntelligence

/-- An event the bus has validated. -/
abbrev AcceptedEvent := {e : DomainEvent // e.Accepted}

/-- The clock readings of one handler call, by their place in the handler. -/
abbrev Readings := Nat → Instant

/-- `attrs.get(name, default)` for an attribute whose schema type is `str`. -/
def DomainEvent.text (e : DomainEvent) (name default : String) : String :=
  match e.attrs.get? name with
  | some (.str s) => s
  | _ => default

/-- A deterministic edge, open from the time of its event. -/
def eventEdge (edgeType : EdgeType) (fromId toId source : String) (validFrom createdAt : Instant) :
    GraphEdge :=
  { edgeType, fromId, toId, confidence := fullScore, weight := fullScore, validFrom,
    provenance := { source, method := "R1", createdAt } }

namespace AttributionProcessor

/-- The node id of a deployment. -/
def deployId (e : DomainEvent) : String := "deploy:" ++ e.text "deploy_job_id" e.eventId

/-- `_handle_deployment`. -/
def handleDeployment (g : InMemoryGraphStore) (e : DomainEvent) (clock : Readings) :
    InMemoryGraphStore :=
  let serviceName := e.text "service_name" ""
  let deployer := e.text "deployer_identity" ""
  let targetArn := e.text "target_resource_arn" ""
  let g := g.upsertNode
    { nodeId := deployId e, nodeType := .deployment, label := serviceName,
      properties := e.attrs, createdAt := clock 0, updatedAt := clock 1 } (clock 2)
  let g :=
    if targetArn ≠ "" then
      let g := g.upsertNode
        { nodeId := "resource:" ++ targetArn, nodeType := .cloudResource,
          label := if PyText.contains "/" targetArn then PyText.lastPart '/' targetArn
            else targetArn
          createdAt := clock 3, updatedAt := clock 4 } (clock 5)
      g.addEdge (eventEdge .triggers (deployId e) ("resource:" ++ targetArn) "cicd"
        e.eventTime.instant (clock 6)) (clock 7)
    else g
  if deployer ≠ "" then
    g.addEdge (eventEdge .deployedBy ("person:" ++ deployer) (deployId e) "cicd"
      e.eventTime.instant (clock 8)) (clock 9)
  else g

/-- `_handle_billing`. -/
def handleBilling (g : InMemoryGraphStore) (e : DomainEvent) (clock : Readings) :
    InMemoryGraphStore :=
  let resourceArn := e.text "resource_arn" ""
  if resourceArn ≠ "" then
    match g.getNode ("resource:" ++ resourceArn) with
    | some node =>
        let cost := e.attrs.getD "cost_usd" (.float (.finite 0))
        let tags := e.attrs.getD "tags" (.dict [])
        g.upsertNode
          { node with properties :=
              (node.properties.set "last_billed_cost_usd" cost).set "billing_tags" tags } (clock 0)
    | none => g
  else g

/-- `_handle_org_change`. -/
def handleOrgChange (g : InMemoryGraphStore) (e : DomainEvent) (clock : Readings) :
    InMemoryGraphStore :=
  let personId := "person:" ++ e.text "person_id" ""
  let oldTeam := e.text "previous_team" ""
  let newTeam := e.text "new_team" ""
  if e.text "person_id" "" = "" then g
  else
    let g :=
      if oldTeam ≠ "" ∧ oldTeam ≠ newTeam then
        (g.closeEdge .memberOf personId ("team:" ++ oldTeam) (some e.eventTime.instant) (clock 0)).2
      else g
    if newTeam ≠ "" ∧ oldTeam ≠ newTeam then
      g.addEdge (eventEdge .memberOf personId ("team:" ++ newTeam) "hr"
        e.eventTime.instant (clock 1)) (clock 2)
    else g

/-- The graph after the handler of the event's type, if it has one, has run. -/
def handle (g : InMemoryGraphStore) (e : AcceptedEvent) (clock : Readings) : InMemoryGraphStore :=
  match e.1.eventType with
  | .deployment => handleDeployment g e.1 clock
  | .billingLineItem => handleBilling g e.1 clock
  | .orgChange => handleOrgChange g e.1 clock
  | _ => g

/-! ### The edge writes of an event

What a handler does to the edges does not depend on the graph it finds: it is a fixed
list of writes. -/

/-- One write to the edges, the clock readings left out. -/
inductive EdgeWrite where
  | add (edgeType : EdgeType) (fromId toId source : String) (validFrom : Instant)
  | close (key : EdgeKey) (validTo : Instant)
deriving DecidableEq

/-- The edge writes of `_handle_deployment`. -/
def deploymentWrites (e : DomainEvent) : List EdgeWrite :=
  let deployer := e.text "deployer_identity" ""
  let targetArn := e.text "target_resource_arn" ""
  (if targetArn ≠ "" then
    [.add .triggers (deployId e) ("resource:" ++ targetArn) "cicd" e.eventTime.instant]
  else []) ++
  (if deployer ≠ "" then
    [.add .deployedBy ("person:" ++ deployer) (deployId e) "cicd" e.eventTime.instant]
  else [])

/-- The edge writes of `_handle_org_change`. -/
def orgChangeWrites (e : DomainEvent) : List EdgeWrite :=
  let personId := "person:" ++ e.text "person_id" ""
  let oldTeam := e.text "previous_team" ""
  let newTeam := e.text "new_team" ""
  if e.text "person_id" "" = "" then []
  else
    (if oldTeam ≠ "" ∧ oldTeam ≠ newTeam then
      [.close (personId, "team:" ++ oldTeam, .memberOf) e.eventTime.instant]
    else []) ++
    (if newTeam ≠ "" ∧ oldTeam ≠ newTeam then
      [.add .memberOf personId ("team:" ++ newTeam) "hr" e.eventTime.instant]
    else [])

/-- The edge writes of an event, in the order its handler makes them. -/
def edgeWrites (e : DomainEvent) : List EdgeWrite :=
  match e.eventType with
  | .deployment => deploymentWrites e
  | .orgChange => orgChangeWrites e
  | _ => []

/-- Every edge an event writes is valid from the time of the event. -/
theorem validFrom_of_mem_edgeWrites {e : DomainEvent} {edgeType : EdgeType}
    {fromId toId source : String} {validFrom : Instant}
    (h : EdgeWrite.add edgeType fromId toId source validFrom ∈ edgeWrites e) :
    validFrom = e.eventTime.instant := by
  unfold edgeWrites at h
  split at h
  · unfold deploymentWrites at h
    grind
  · unfold orgChangeWrites at h
    grind
  · cases h

end AttributionProcessor
end ComputeIntelligence
