import ComputeIntelligence.BillingData
import ComputeIntelligence.EventIngestion

/-! # The nodes of deployments

`_handle_deployment` names the node of a deployment after the `deploy_job_id` of the event, and
falls back on the id of the event if the attribute is absent.  It never is: the endpoints put the
dump of the validated payload into the event, and the schema fills in an empty text.  So every
deployment that was sent without a job id has the one node `deploy:`, and the fallback keeps
nothing apart.  What handling a deployment writes is its own node, the node of its resource and
edges with its own id at one end, which leaves any other deployment node alone
(`untouched_handleDeployment`); the run keeps the deployments apart exactly when at most one of them
has no job id.
-/
namespace ComputeIntelligence
open AttributionProcessor

/-- A deployment that came in through an endpoint. -/
structure IngestedDeployment where
  request : EventIngestRequest
  tenantId : String
  stamp : EventStamp
  event : DomainEvent
  built : request.domainEvent tenantId stamp = .ok event
  deployment : request.eventType = .deployment

namespace IngestedDeployment

/-- The job id that the request carries, empty if there is none. -/
def jobId (d : IngestedDeployment) : String :=
  match d.request.attributes.get? "deploy_job_id" with
  | some (.str jobId) => jobId
  | _ => ""

/-- The event as the bus hands it on. -/
def accepted (d : IngestedDeployment) : AcceptedEvent := ⟨d.event, domainEvent_accepted d.built⟩

/-- Both carry the same job id, and not an empty one. -/
def SameJob (d d' : IngestedDeployment) : Prop := d.jobId ≠ "" ∧ d.jobId = d'.jobId

theorem eventType_eq (d : IngestedDeployment) : d.event.eventType = .deployment := by
  obtain ⟨hvalid, hevent⟩ := domainEvent_ok_iff.1 d.built
  rw [hevent]
  exact d.deployment

/-- The job id is there after validation, whether or not it was sent. -/
theorem attrs_jobId (d : IngestedDeployment) :
    d.event.attrs.get? "deploy_job_id" = some (.str d.jobId) := by
  obtain ⟨hvalid, hevent⟩ := domainEvent_ok_iff.1 d.built
  have hpayload := hvalid.payload
  have hattrs : d.event.attrs = PyDict.ofList (deploymentPayload.dump d.request.attributes) := by
    have hdump : d.event.attrs =
        PyDict.ofList ((eventPayloadSchemas d.request.eventType).dump d.request.attributes) :=
      congrArg DomainEvent.attrs hevent
    rw [hdump, d.deployment]
    rfl
  rw [d.deployment] at hpayload
  have hfield : optStr "deploy_job_id" ∈ deploymentPayload := by simp [deploymentPayload]
  rw [hattrs]
  refine StrictSchema.get?_ofList_dump hpayload (names_nodup .deployment)
    (default_checks .deployment) hfield ?_
  have hfits := hpayload.fields _ hfield
  unfold StrictSchema.FieldFits optStr at hfits
  unfold StrictSchema.validateField jobId optStr
  dsimp only at hfits ⊢
  cases hget : d.request.attributes.get? "deploy_job_id" with
  | none => rfl
  | some v =>
    rw [hget] at hfits
    cases v with
    | str s => rfl
    | _ => cases hfits

theorem deployId_eq (d : IngestedDeployment) : deployId d.event = "deploy:" ++ d.jobId := by
  unfold deployId DomainEvent.text
  rw [d.attrs_jobId]

theorem deployId_inj {d d' : IngestedDeployment} :
    deployId d.event = deployId d'.event ↔ d.jobId = d'.jobId := by
  rw [deployId_eq, deployId_eq, String.append_right_inj]

/-- What `ingest_event` has accepted of deployments, and given to the handlers. -/
theorem of_ingestEvent {η : Type} {app : IngestApp η} {key : String} {now : ℚ}
    {body : EventIngestBody} {stamp : EventStamp} {response : IngestApp.EventIngestResponse}
    (hanswer : (app.ingestEvent key now body stamp).1 = .ok response)
    (haccepted : response.accepted = true) (htype : body.eventType = "cicd.deployment") :
    ∃ d : IngestedDeployment, d.event.eventId = response.eventId ∧
      (app.ingestEvent key now body stamp).2.eventBus.dispatched =
        app.eventBus.dispatched ++ (app.eventBus.handlersOf d.event).map (·, d.event) := by
  obtain ⟨req, event, hparse, hbuilt, hid, hpublish⟩ := IngestApp.ingestEvent_ok hanswer
  have hdeployment : req.eventType = .deployment := by
    unfold EventIngestBody.parse? at hparse
    rw [htype] at hparse
    obtain ⟨eventType, hvalue, rfl⟩ := Option.map_eq_some_iff.1 hparse
    exact (Option.some.inj ((ofValue?_value .deployment).symm.trans hvalue)).symm
  refine ⟨⟨req, app.tenantId, stamp, event, hbuilt, hdeployment⟩, hid.symm, ?_⟩
  rw [haccepted] at hpublish
  exact DispatchingBus.dispatched_of_accepted hpublish

end IngestedDeployment

/-! ### One deployment -/

/-- The edges at a node. -/
def edgesAt (g : InMemoryGraphStore) (nodeId : String) : List GraphEdge :=
  g.edges.filter fun e => e.fromId = nodeId ∨ e.toId = nodeId

/-- A node and its edges are in both graphs what they are in the other. -/
structure Untouched (g g' : InMemoryGraphStore) (nodeId : String) : Prop where
  node : g'.getNode nodeId = g.getNode nodeId
  edges : edgesAt g' nodeId = edgesAt g nodeId

/-- An added edge does not change the edges at a node that it does not touch. -/
theorem filter_appendEdge {edges : List GraphEdge} {edge : GraphEdge} {nodeId : String}
    (hfrom : edge.fromId ≠ nodeId) (hto : edge.toId ≠ nodeId) (now : Instant) :
    (appendEdge edges edge now).filter (fun e => e.fromId = nodeId ∨ e.toId = nodeId) =
      edges.filter fun e => e.fromId = nodeId ∨ e.toId = nodeId := by
  unfold appendEdge
  rw [List.filter_append, List.filter_cons_of_neg (by simp [hfrom, hto]), List.filter_nil,
    List.append_nil]
  induction edges with
  | nil => rfl
  | cons e edges ih =>
    rw [List.map_cons]
    by_cases hat : e.fromId = nodeId ∨ e.toId = nodeId
    · -- an edge at the node has another key, so it is not ended
      have hkey : e.key ≠ edge.key := by
        intro h
        have hends := Prod.mk.inj h
        rcases hat with hat | hat
        · exact hfrom (hends.1.symm.trans hat)
        · exact hto ((congrArg Prod.fst hends.2).symm.trans hat)
      have hsame : GraphEdge.endKey edge.key now e = e := if_neg hkey
      rw [hsame, List.filter_cons_of_pos (by simpa using hat),
        List.filter_cons_of_pos (by simpa using hat), ih]
    · have hnot : ¬((GraphEdge.endKey edge.key now e).fromId = nodeId ∨
          (GraphEdge.endKey edge.key now e).toId = nodeId) := by
        rw [InMemoryGraphStore.endKey_fromId, InMemoryGraphStore.endKey_toId]
        exact hat
      rw [List.filter_cons_of_neg (by simpa using hnot),
        List.filter_cons_of_neg (by simpa using hat), ih]

/-- No person has the id of a deployment. -/
theorem personId_ne_deployId (person : String) (e : DomainEvent) :
    "person:" ++ person ≠ deployId e := by
  intro h
  have hlist := congrArg String.toList h
  unfold deployId at hlist
  rw [String.toList_append, String.toList_append] at hlist
  exact absurd (List.cons.inj hlist).1 (by decide)

theorem getNode_upsertNode_of_ne {g : InMemoryGraphStore} {node : GraphNode} {now : Instant}
    {nodeId : String} (hne : node.nodeId ≠ nodeId) :
    (g.upsertNode node now).getNode nodeId = g.getNode nodeId := by
  unfold InMemoryGraphStore.upsertNode InMemoryGraphStore.getNode
  cases g.nodes.get? node.nodeId with
  | none => exact (PyDict.get?_set _ _ _ _).trans (if_neg hne.symm)
  | some _ => exact (PyDict.get?_set _ _ _ _).trans (if_neg hne.symm)

/-- **Handling a deployment leaves the node of any other alone.** -/
theorem untouched_handleDeployment {g : InMemoryGraphStore} (hg : g.WellIndexed)
    {e e' : DomainEvent} (hne : deployId e ≠ deployId e') (clock : Readings) :
    Untouched g (handleDeployment g e clock) (deployId e') := by
  have hresource : ∀ arn, "resource:" ++ arn ≠ deployId e' := fun arn =>
    resourceId_ne_deployId arn e'
  constructor
  · have hadd : ∀ (g : InMemoryGraphStore) edge now, (g.addEdge edge now).getNode (deployId e') =
        g.getNode (deployId e') := fun _ _ _ => rfl
    unfold handleDeployment
    dsimp only
    split
    · split
      · rw [hadd, hadd, getNode_upsertNode_of_ne (hresource _), getNode_upsertNode_of_ne hne]
      · rw [hadd, getNode_upsertNode_of_ne hne]
    · split
      · rw [hadd, getNode_upsertNode_of_ne (hresource _), getNode_upsertNode_of_ne hne]
      · rw [getNode_upsertNode_of_ne hne]
  · unfold edgesAt
    rw [(handleDeployment_edges hg e clock).2]
    have htriggers := @filter_appendEdge g.edges (triggersEdge e (clock 6)) (deployId e') hne
      (hresource _) (clock 7)
    have hdeployed : ∀ edges, (appendEdge edges (deployedByEdge e (clock 8)) (clock 9)).filter
        (fun e => e.fromId = deployId e' ∨ e.toId = deployId e') =
          edges.filter fun e => e.fromId = deployId e' ∨ e.toId = deployId e' := fun edges =>
      filter_appendEdge (personId_ne_deployId _ e') hne _
    dsimp only
    split
    · rw [hdeployed]
      split
      · exact htriggers
      · rfl
    · split
      · exact htriggers
      · rfl

/-- A deployment that has been handled has a deployment node. -/
theorem nodeType_handleDeployment (g : InMemoryGraphStore) (e e' : DomainEvent) (clock : Readings)
    (h : deployId e = deployId e' ∨
      ∃ node, g.getNode (deployId e') = some node ∧ node.nodeType = .deployment) :
    ∃ node, (handleDeployment g e clock).getNode (deployId e') = some node ∧
      node.nodeType = .deployment := by
  have hnodes := handleDeployment_nodes g e clock (deployId e')
  rw [if_neg fun hr => resourceId_ne_deployId _ e' hr.2.symm] at hnodes
  have hundated : ∃ node, ((handleDeployment g e clock).getNode (deployId e')).map
      GraphNode.undated = some node ∧ node.nodeType = .deployment := by
    by_cases hsame : deployId e' = (deploymentNode e).nodeId
    · rw [if_pos hsame] at hnodes
      exact ⟨_, hnodes, rfl⟩
    · rw [if_neg hsame] at hnodes
      rcases h with h | ⟨node, hnode, htype⟩
      · exact absurd h.symm hsame
      · exact ⟨node.undated, by rw [hnodes, hnode]; rfl, htype⟩
  obtain ⟨undated, hnode, htype⟩ := hundated
  obtain ⟨node, hget, rfl⟩ := Option.map_eq_some_iff.1 hnode
  exact ⟨node, hget, htype⟩

/-! ### Runs -/

/-- A deployment as the processor gets it, with the clock readings of its handler. -/
def handled (c : IngestedDeployment × HandlerClock) : AcceptedEvent × HandlerClock :=
  (c.1.accepted, c.2)

/-- The state after some deployments. -/
def afterDeployments (env : Reckoning) (s : ProcessorState)
    (calls : List (IngestedDeployment × HandlerClock)) : ProcessorState :=
  Run.exec (handleNext env) s (calls.map handled)

/-- The deployments of a run are kept apart: each has a deployment node, two different ones that do
not have one job have two nodes, and then handling the one leaves the other alone. -/
structure KeepsApart (env : Reckoning) (s : ProcessorState)
    (calls : List (IngestedDeployment × HandlerClock)) : Prop where
  represented : ∀ c ∈ calls, ∃ node,
    (afterDeployments env s calls).graph.getNode (deployId c.1.event) = some node ∧
      node.nodeType = .deployment
  distinct : ∀ c ∈ calls, ∀ c' ∈ calls, c.1.event ≠ c'.1.event → ¬c.1.SameJob c'.1 →
    deployId c.1.event ≠ deployId c'.1.event
  undisturbed : ∀ before c after, calls = before ++ c :: after → ∀ c' ∈ calls,
    c.1.event ≠ c'.1.event → ¬c.1.SameJob c'.1 →
      Untouched (afterDeployments env s before).graph
        (afterDeployments env s (before ++ [c])).graph (deployId c'.1.event)

/-- At most one of the deployments was sent without a job id. -/
def OneWithoutJob (calls : List (IngestedDeployment × HandlerClock)) : Prop :=
  ∀ c ∈ calls, ∀ c' ∈ calls, c.1.jobId = "" → c'.1.jobId = "" → c.1.event = c'.1.event

section
variable {env : Reckoning} {s : ProcessorState} {calls : List (IngestedDeployment × HandlerClock)}
  {c : IngestedDeployment × HandlerClock}

theorem graph_handled (env : Reckoning) (s : ProcessorState)
    (c : IngestedDeployment × HandlerClock) :
    (handleNext env s (handled c)).graph = handleDeployment s.graph c.1.event c.2.wall := by
  have htype : (handled c).1.1.eventType = .deployment := c.1.eventType_eq
  unfold handleNext
  rw [graph_process]
  unfold handle
  rw [htype]
  rfl

theorem afterDeployments_concat : afterDeployments env s (calls ++ [c]) =
    handleNext env (afterDeployments env s calls) (handled c) := by
  unfold afterDeployments
  rw [List.map_append, Run.exec_append]
  rfl

theorem wellIndexed_afterDeployments (hs : s.graph.WellIndexed)
    (calls : List (IngestedDeployment × HandlerClock)) :
    (afterDeployments env s calls).graph.WellIndexed := by
  refine @Run.exec_invariant _ _ _ (fun s : ProcessorState => s.graph.WellIndexed) ?_ _ hs _
  intro s c hs
  show (process env s c.1 c.2).graph.WellIndexed
  rw [graph_process]
  exact wellIndexed_handle hs c.1 c.2.wall

theorem represented_afterDeployments (hc : c ∈ calls) : ∃ node,
    (afterDeployments env s calls).graph.getNode (deployId c.1.event) = some node ∧
      node.nodeType = .deployment := by
  induction calls using List.reverseRecOn with
  | nil => cases hc
  | append_singleton calls d ih =>
    rw [afterDeployments_concat, graph_handled]
    apply nodeType_handleDeployment
    rcases List.mem_append.1 hc with hc | hc
    · exact .inr (ih hc)
    · rw [List.mem_singleton.1 hc]
      exact .inl rfl

end

/-- Deployments that do not have one job have one node exactly if both have no job id. -/
theorem deployId_eq_iff_of_not_sameJob {d d' : IngestedDeployment} (h : ¬d.SameJob d') :
    deployId d.event = deployId d'.event ↔ d.jobId = "" ∧ d'.jobId = "" := by
  rw [IngestedDeployment.deployId_inj]
  constructor
  · intro heq
    by_cases hempty : d.jobId = ""
    · exact ⟨hempty, heq.symm.trans hempty⟩
    · exact absurd ⟨hempty, heq⟩ h
  · rintro ⟨h, h'⟩
    rw [h, h']

/-- A run keeps its deployments apart exactly if at most one of them was sent without a
job id. -/
theorem keepsApart_iff (env : Reckoning) {s : ProcessorState} (hs : s.graph.WellIndexed)
    (calls : List (IngestedDeployment × HandlerClock)) :
    KeepsApart env s calls ↔ OneWithoutJob calls := by
  constructor
  · intro h c hc c' hc' hempty hempty'
    by_contra hne
    have hjob : ¬c.1.SameJob c'.1 := fun hsame => hsame.1 hempty
    exact h.distinct c hc c' hc' hne hjob
      ((deployId_eq_iff_of_not_sameJob hjob).2 ⟨hempty, hempty'⟩)
  · intro hone
    have hdistinct : ∀ c ∈ calls, ∀ c' ∈ calls, c.1.event ≠ c'.1.event → ¬c.1.SameJob c'.1 →
        deployId c.1.event ≠ deployId c'.1.event := by
      intro c hc c' hc' hne hjob hid
      obtain ⟨hempty, hempty'⟩ := (deployId_eq_iff_of_not_sameJob hjob).1 hid
      exact hne (hone c hc c' hc' hempty hempty')
    refine ⟨fun c hc => represented_afterDeployments hc, hdistinct, ?_⟩
    intro before c after hsplit c' hc' hne hjob
    have hc : c ∈ calls := by
      rw [hsplit]
      exact List.mem_append_right _ List.mem_cons_self
    rw [afterDeployments_concat, graph_handled]
    exact untouched_handleDeployment (wellIndexed_afterDeployments hs before)
      (hdistinct c hc c' hc' hne hjob) c.2.wall

/-- A request that tells of the deployment of a service, with or without a job id. -/
def serviceRequest (service : String) (job : List (String × PyVal)) : EventIngestRequest :=
  { eventType := .deployment, subjectId := service,
    attributes := PyDict.ofList
      ([("service_name", .str service), ("repository", .str "acme/app")] ++ job)
    eventTime := ⟨0, some 0⟩, source := "github", idempotencyKey := service }

/-- The deployment of a valid request. -/
def serviceDeployment (service : String) (job : List (String × PyVal)) (eventId : String)
    (hvalid : (serviceRequest service job).Valid) : IngestedDeployment where
  request := serviceRequest service job
  tenantId := "acme"
  stamp := ⟨eventId, .utc 1⟩
  event := hvalid.event "acme" ⟨eventId, .utc 1⟩
  built := hvalid.domainEvent "acme" ⟨eventId, .utc 1⟩
  deployment := rfl

/-- A deployment without a job id. -/
def chatDeployment : IngestedDeployment := serviceDeployment "chat" [] "1" (by decide +kernel)

/-- Another one. -/
def searchDeployment : IngestedDeployment := serviceDeployment "search" [] "2" (by decide +kernel)

/-- A deployment with a job id. -/
def jobDeployment : IngestedDeployment :=
  serviceDeployment "search" [("deploy_job_id", .str "42")] "3" (by decide +kernel)

/-- One deployment without a job id and one with are kept apart. -/
theorem keepsApart_job :
    InMemoryGraphStore.WellIndexed {} ∧
      KeepsApart noEvidence {} [(chatDeployment, stoppedAt 0), (jobDeployment, stoppedAt 1)] := by
  refine ⟨wellKept_fresh.indexed, (keepsApart_iff noEvidence wellKept_fresh.indexed _).2 ?_⟩
  have hjob : jobDeployment.jobId ≠ "" := by decide +kernel
  intro c hc c' hc' hempty hempty'
  simp only [List.mem_cons, List.not_mem_nil, or_false] at hc hc'
  rcases hc with rfl | rfl
  · rcases hc' with rfl | rfl
    · rfl
    · exact absurd hempty' hjob
  · exact absurd hempty hjob

/-- Two deployments without a job id share a node. -/
theorem jobless_share_node :
    ¬KeepsApart noEvidence {} [(chatDeployment, stoppedAt 0), (searchDeployment, stoppedAt 1)] := by
  intro h
  refine h.distinct (chatDeployment, stoppedAt 0) List.mem_cons_self
    (searchDeployment, stoppedAt 1) (List.mem_cons_of_mem _ List.mem_cons_self) ?_ ?_ ?_
  · intro hevent
    exact absurd (congrArg DomainEvent.eventId hevent) (by decide)
  · rintro ⟨hjob, -⟩
    exact hjob (by decide +kernel)
  · decide +kernel

end ComputeIntelligence
