import ComputeIntelligence.Redelivery

/-! # What a resource was billed

A billing line item writes its cost and its tags into the properties of the node of its
resource, if there is one.  A deployment to the resource puts a node without properties in its
place.  Nothing else that the processor handles touches the properties of a resource, so the
node keeps the latest bill exactly as long as nothing is deployed to it again.
-/
namespace ComputeIntelligence.AttributionProcessor

/-- The id of a resource's node. -/
def resourceId (arn : String) : String := "resource:" ++ arn

theorem resourceId_inj {a b : String} : resourceId a = resourceId b ↔ a = b := by
  refine ⟨fun h => ?_, fun h => by rw [h]⟩
  have hlist := congrArg String.toList h
  unfold resourceId at hlist
  rw [String.toList_append, String.toList_append] at hlist
  exact String.toList_inj.1 (List.append_cancel_left hlist)

/-- No deployment has the id of a resource. -/
theorem resourceId_ne_deployId (arn : String) (e : DomainEvent) : resourceId arn ≠ deployId e := by
  intro h
  have hlist := congrArg String.toList h
  unfold resourceId deployId at hlist
  rw [String.toList_append, String.toList_append] at hlist
  exact absurd (List.cons.inj hlist).1 (by decide)

/-- The event is a bill of the resource. -/
def Bills (e : DomainEvent) (arn : String) : Prop :=
  e.eventType = .billingLineItem ∧ arn ≠ "" ∧ e.text "resource_arn" "" = arn

/-- The event is a deployment to the resource. -/
def DeploysTo (e : DomainEvent) (arn : String) : Prop :=
  e.eventType = .deployment ∧ arn ≠ "" ∧ e.text "target_resource_arn" "" = arn

instance (e : DomainEvent) (arn : String) : Decidable (Bills e arn) :=
  inferInstanceAs (Decidable (_ ∧ _ ∧ _))

instance (e : DomainEvent) (arn : String) : Decidable (DeploysTo e arn) :=
  inferInstanceAs (Decidable (_ ∧ _ ∧ _))

/-- The cost and the tags of some properties. -/
def billingOf (properties : PyDict String PyVal) : Option PyVal × Option PyVal :=
  (properties.get? "last_billed_cost_usd", properties.get? "billing_tags")

/-- The cost and the tags in the properties of a resource's node. -/
def billingData (g : InMemoryGraphStore) (arn : String) : Option (Option PyVal × Option PyVal) :=
  (g.getNode (resourceId arn)).map fun node => billingOf node.properties

/-- What a bill says. -/
def billOf (e : DomainEvent) : Option PyVal × Option PyVal :=
  (some (e.attrs.getD "cost_usd" (.float (.finite 0))), some (e.attrs.getD "tags" (.dict [])))

theorem billingOf_billed (e : DomainEvent) (properties : PyDict String PyVal) :
    billingOf (billed e properties) = billOf e := by
  unfold billingOf billOf billed
  rw [PyDict.get?_set, PyDict.get?_set, PyDict.get?_set, if_neg (by decide), if_pos rfl, if_pos rfl]

theorem billingData_eq (g : InMemoryGraphStore) (arn : String) :
    billingData g arn = ((g.getNode (resourceId arn)).map GraphNode.undated).map fun node =>
      billingOf node.properties := by
  rw [Option.map_map]
  rfl

/-! ### One event -/

theorem billingData_deployment (g : InMemoryGraphStore) (e : DomainEvent) (clock : Readings)
    (arn : String) : billingData (handleDeployment g e clock) arn =
      if arn ≠ "" ∧ e.text "target_resource_arn" "" = arn then some (none, none)
      else billingData g arn := by
  have hdeploy : resourceId arn ≠ (deploymentNode e).nodeId := resourceId_ne_deployId arn e
  rw [billingData_eq, handleDeployment_nodes, if_neg hdeploy, billingData_eq]
  by_cases htarget : arn ≠ "" ∧ e.text "target_resource_arn" "" = arn
  · have hid : e.text "target_resource_arn" "" ≠ "" ∧ resourceId arn = (resourceNode e).nodeId := by
      rw [htarget.2]
      refine ⟨htarget.1, ?_⟩
      show resourceId arn = resourceId (e.text "target_resource_arn" "")
      rw [htarget.2]
    rw [if_pos htarget, if_pos hid]
    rfl
  · have hid : ¬(e.text "target_resource_arn" "" ≠ "" ∧
        resourceId arn = (resourceNode e).nodeId) := by
      rintro ⟨hne, hid⟩
      have harn : arn = e.text "target_resource_arn" "" := resourceId_inj.1 hid
      exact htarget ⟨by rw [harn]; exact hne, harn.symm⟩
    rw [if_neg htarget, if_neg hid]

theorem billingData_billing {g : InMemoryGraphStore} (hg : g.WellTyped) (e : DomainEvent)
    (clock : Readings) (arn : String) : billingData (handleBilling g e clock) arn =
      if arn ≠ "" ∧ e.text "resource_arn" "" = arn then
        (billingData g arn).map fun _ => billOf e
      else billingData g arn := by
  by_cases hbilled : e.text "resource_arn" "" ≠ ""
  · cases hnode : g.getNode (resourceId (e.text "resource_arn" "")) with
    | none =>
      have hsame : handleBilling g e clock = g := by
        unfold handleBilling
        simp only [if_pos hbilled]
        unfold resourceId at hnode
        rw [hnode]
      rw [hsame]
      split
      · rename_i harn
        rw [harn.2] at hnode
        unfold billingData
        rw [hnode]
        rfl
      · rfl
    | some node =>
      have hwrite : handleBilling g e clock =
          g.upsertNode { node with properties := billed e node.properties } (clock 0) := by
        unfold handleBilling
        simp only [if_pos hbilled]
        unfold resourceId at hnode
        rw [hnode]
        rfl
      have hname : node.nodeId = resourceId (e.text "resource_arn" "") := hg.named hnode
      rw [hwrite, billingData_eq, getNode_upsertNode, billingData_eq]
      by_cases harn : arn = e.text "resource_arn" ""
      · subst harn
        rw [if_pos hname.symm, if_pos ⟨hbilled, rfl⟩, hnode]
        exact congrArg some (billingOf_billed e node.properties)
      · have hid : resourceId arn ≠ node.nodeId := by
          rw [hname]
          exact fun h => harn (resourceId_inj.1 h)
        rw [if_neg hid, if_neg fun h => harn h.2.symm]
  · have hsame : handleBilling g e clock = g := by
      unfold handleBilling
      exact if_neg hbilled
    rw [hsame, if_neg]
    rintro ⟨hne, harn⟩
    exact hbilled (by rw [harn]; exact hne)

/-- What an event does to the bill of a resource. -/
theorem billingData_handle {g : InMemoryGraphStore} (hindex : g.WellIndexed) (htype : g.WellTyped)
    (e : AcceptedEvent) (clock : Readings) (arn : String) :
    billingData (handle g e clock) arn =
      if DeploysTo e.1 arn then some (none, none)
      else if Bills e.1 arn then (billingData g arn).map fun _ => billOf e.1
      else billingData g arn := by
  unfold handle
  cases hevent : e.1.eventType with
  | deployment => simp [DeploysTo, Bills, hevent, billingData_deployment]
  | billingLineItem => simp [DeploysTo, Bills, hevent, billingData_billing htype]
  | orgChange =>
    have hnodes : billingData (handleOrgChange g e.1 clock) arn = billingData g arn := by
      unfold billingData
      rw [nodes_handleOrgChange hindex]
    simp [DeploysTo, Bills, hevent, hnodes]
  | _ => simp [DeploysTo, Bills, hevent]

/-! ### Runs -/

/-- The next event of a run. -/
def handleNext (env : Reckoning) (s : ProcessorState) (c : AcceptedEvent × HandlerClock) :
    ProcessorState :=
  process env s c.1 c.2

/-- The indices of the graph describe its edges and its nodes. -/
structure WellKept (s : ProcessorState) : Prop where
  indexed : s.graph.WellIndexed
  typed : s.graph.WellTyped

theorem graph_process (env : Reckoning) (s : ProcessorState) (e : AcceptedEvent)
    (clock : HandlerClock) : (process env s e clock).graph = handle s.graph e clock.wall := by
  unfold process handle
  cases e.1.eventType with
  | _ => rfl

theorem wellTyped_handle {g : InMemoryGraphStore} (hg : g.WellTyped) (e : AcceptedEvent)
    (clock : Readings) : (handle g e clock).WellTyped := by
  unfold handle
  split
  · unfold handleDeployment
    dsimp only
    split
    · split
      · exact (((hg.upsertNode _ _).upsertNode _ _).addEdge _ _).addEdge _ _
      · exact (hg.upsertNode _ _).addEdge _ _
    · split
      · exact ((hg.upsertNode _ _).upsertNode _ _).addEdge _ _
      · exact hg.upsertNode _ _
  · unfold handleBilling
    dsimp only
    split
    · split
      · exact hg.upsertNode _ _
      · exact hg
    · exact hg
  · unfold handleOrgChange
    dsimp only
    split
    · exact hg
    · split
      · split
        · exact (hg.closeEdge _ _ _ _ _).addEdge _ _
        · exact hg.addEdge _ _
      · split
        · exact hg.closeEdge _ _ _ _ _
        · exact hg
  · exact hg

theorem WellKept.handleNext {env : Reckoning} {s : ProcessorState} (hs : WellKept s)
    (c : AcceptedEvent × HandlerClock) : WellKept (handleNext env s c) := by
  constructor
  · show (process env s c.1 c.2).graph.WellIndexed
    rw [graph_process]
    exact wellIndexed_handle hs.indexed c.1 c.2.wall
  · show (process env s c.1 c.2).graph.WellTyped
    rw [graph_process]
    exact wellTyped_handle hs.typed c.1 c.2.wall

theorem billingData_handleNext {env : Reckoning} {s : ProcessorState} (hs : WellKept s)
    (c : AcceptedEvent × HandlerClock) (arn : String) :
    billingData (handleNext env s c).graph arn =
      if DeploysTo c.1.1 arn then some (none, none)
      else if Bills c.1.1 arn then (billingData s.graph arn).map fun _ => billOf c.1.1
      else billingData s.graph arn := by
  unfold AttributionProcessor.handleNext
  rw [graph_process]
  exact billingData_handle hs.indexed hs.typed c.1 c.2.wall arn

section
variable {env : Reckoning} {s : ProcessorState} {arn : String}
  {calls : List (AcceptedEvent × HandlerClock)}

/-- Events that neither bill the resource nor deploy to it leave its bill alone. -/
theorem billingData_of_untouched (hs : WellKept s) (hbills : ∀ c ∈ calls, ¬Bills c.1.1 arn)
    (hdeploys : ∀ c ∈ calls, ¬DeploysTo c.1.1 arn) :
    billingData (Run.exec (handleNext env) s calls).graph arn = billingData s.graph arn := by
  induction calls generalizing s with
  | nil => rfl
  | cons c calls ih =>
    rw [Run.exec_cons, ih (hs.handleNext c)
      (fun d hd => hbills d (List.mem_cons_of_mem c hd))
      (fun d hd => hdeploys d (List.mem_cons_of_mem c hd)), billingData_handleNext hs,
      if_neg (hdeploys c List.mem_cons_self), if_neg (hbills c List.mem_cons_self)]

/-- Where nothing bills the resource again, a deployment to it erases its bill. -/
theorem billingData_of_deployed (hs : WellKept s) (hbills : ∀ c ∈ calls, ¬Bills c.1.1 arn)
    (hdeploys : ∃ c ∈ calls, DeploysTo c.1.1 arn) :
    billingData (Run.exec (handleNext env) s calls).graph arn = some (none, none) := by
  induction calls generalizing s with
  | nil =>
    obtain ⟨c, hc, -⟩ := hdeploys
    exact absurd hc List.not_mem_nil
  | cons c calls ih =>
    have hrest : ∀ d ∈ calls, ¬Bills d.1.1 arn := fun d hd => hbills d (List.mem_cons_of_mem c hd)
    rw [Run.exec_cons]
    by_cases hlater : ∃ d ∈ calls, DeploysTo d.1.1 arn
    · exact ih (hs.handleNext c) hrest hlater
    · -- the last deployment to the resource is the head
      have hnone : ∀ d ∈ calls, ¬DeploysTo d.1.1 arn := fun d hd h => hlater ⟨d, hd, h⟩
      have hhead : DeploysTo c.1.1 arn := by
        obtain ⟨d, hd, hdeploy⟩ := hdeploys
        rcases List.mem_cons.1 hd with rfl | hd
        · exact hdeploy
        · exact absurd hdeploy (hnone d hd)
      rw [billingData_of_untouched (hs.handleNext c) hrest hnone, billingData_handleNext hs,
        if_pos hhead]

end

/-- The latest bill of a resource that had a node when it was billed. -/
structure LatestBill (env : Reckoning) (s : ProcessorState) (arn : String)
    (before : List (AcceptedEvent × HandlerClock)) (b : AcceptedEvent × HandlerClock)
    (after : List (AcceptedEvent × HandlerClock)) : Prop where
  bills : Bills b.1.1 arn
  known : ∃ node, (Run.exec (handleNext env) s before).graph.getNode (resourceId arn) = some node
  latest : ∀ c ∈ after, ¬Bills c.1.1 arn

/-- After the run every billed resource has the cost and the tags of its latest bill. -/
def KeepsBills (env : Reckoning) (s : ProcessorState)
    (calls : List (AcceptedEvent × HandlerClock)) : Prop :=
  ∀ arn before b after, calls = before ++ b :: after → LatestBill env s arn before b after →
    billingData (Run.exec (handleNext env) s calls).graph arn = some (billOf b.1.1)

/-- Nothing is deployed to a resource after its latest bill. -/
def NotRedeployed (env : Reckoning) (s : ProcessorState)
    (calls : List (AcceptedEvent × HandlerClock)) : Prop :=
  ∀ arn before b after, calls = before ++ b :: after → LatestBill env s arn before b after →
    ∀ c ∈ after, ¬DeploysTo c.1.1 arn

/-- A run keeps the bills exactly when no resource is deployed to after its latest bill. -/
theorem keepsBills_iff_notRedeployed (env : Reckoning) {s : ProcessorState} (hs : WellKept s)
    (calls : List (AcceptedEvent × HandlerClock)) :
    KeepsBills env s calls ↔ NotRedeployed env s calls := by
  refine forall₃_congr fun arn before b => forall₃_congr fun after hsplit hbill => ?_
  have hbefore : WellKept (Run.exec (handleNext env) s before) :=
    Run.exec_invariant (fun _ c h => h.handleNext c) hs before
  have hnot : ¬DeploysTo b.1.1 arn := by
    rintro ⟨hevent, -⟩
    rw [hbill.bills.1] at hevent
    cases hevent
  -- the bill itself is written, and what comes after it decides
  have hwritten : billingData (handleNext env (Run.exec (handleNext env) s before) b).graph arn =
      some (billOf b.1.1) := by
    obtain ⟨node, hnode⟩ := hbill.known
    rw [billingData_handleNext hbefore, if_neg hnot, if_pos hbill.bills]
    unfold billingData
    rw [hnode]
    rfl
  rw [hsplit, Run.exec_append, Run.exec_cons]
  by_cases hdeploys : ∃ c ∈ after, DeploysTo c.1.1 arn
  · rw [billingData_of_deployed (hbefore.handleNext b) hbill.latest hdeploys]
    obtain ⟨c, hc, hdeploy⟩ := hdeploys
    exact iff_of_false (fun h => nomatch h) fun h => h c hc hdeploy
  · have hnone : ∀ c ∈ after, ¬DeploysTo c.1.1 arn := fun c hc h => hdeploys ⟨c, hc, h⟩
    rw [billingData_of_untouched (hbefore.handleNext b) hbill.latest hnone, hwritten]
    exact iff_of_true rfl hnone

/-- A deployment to an endpoint. -/
def endpointDeployment : AcceptedEvent :=
  ⟨{ eventId := "d", eventType := .deployment, subjectId := "chat",
     attributes := ⟨⟨[("service_name", .str "chat"), ("repository", .str "acme/chat"),
       ("target_resource_arn", .str "arn:endpoint")], by decide⟩, by decide +kernel⟩
     eventTime := AwareDateTime.utc 0, ingestTime := AwareDateTime.utc 0,
     source := "github", idempotencyKey := "d", tenantId := "acme" }, ⟨rfl, by decide +kernel⟩⟩

/-- A bill of the endpoint. -/
def endpointBill : AcceptedEvent :=
  ⟨{ eventId := "b", eventType := .billingLineItem, subjectId := "arn:endpoint",
     attributes := ⟨⟨[("cloud_provider", .str "aws"), ("account_id", .str "1"),
       ("service", .str "sagemaker"), ("resource_arn", .str "arn:endpoint"),
       ("cost_usd", .float (.finite 12))], by decide⟩, by decide +kernel⟩
     eventTime := AwareDateTime.utc 1, ingestTime := AwareDateTime.utc 1,
     source := "aws", idempotencyKey := "b", tenantId := "acme" }, ⟨rfl, by decide +kernel⟩⟩

theorem wellKept_fresh : WellKept {} :=
  ⟨InMemoryGraphStore.wellIndexed_empty, InMemoryGraphStore.wellTyped_empty⟩

/-- A run that ends with its bill keeps it. -/
theorem keepsBills_endpoint :
    WellKept {} ∧
      (KeepsBills noEvidence {}
        [(endpointDeployment, stoppedAt 0), (endpointBill, stoppedAt 1)] ↔
          NotRedeployed noEvidence {}
            [(endpointDeployment, stoppedAt 0), (endpointBill, stoppedAt 1)]) :=
  ⟨wellKept_fresh, keepsBills_iff_notRedeployed noEvidence wellKept_fresh _⟩

/-- A second deployment erases what the endpoint was billed. -/
theorem redeployment_erases_bill :
    ¬KeepsBills noEvidence {} [(endpointDeployment, stoppedAt 0), (endpointBill, stoppedAt 1),
      (endpointDeployment, stoppedAt 2)] := by
  intro h
  have hkept := h "arn:endpoint" [(endpointDeployment, stoppedAt 0)] (endpointBill, stoppedAt 1)
    [(endpointDeployment, stoppedAt 2)] rfl ?_
  · have herased : billingData (Run.exec (handleNext noEvidence)
        (Run.exec (handleNext noEvidence) {}
          [(endpointDeployment, stoppedAt 0), (endpointBill, stoppedAt 1)])
        [(endpointDeployment, stoppedAt 2)]).graph "arn:endpoint" = some (none, none) := by
      apply billingData_of_deployed
      · exact Run.exec_invariant (fun _ c h => h.handleNext c) wellKept_fresh _
      · intro c hc
        obtain rfl := List.mem_singleton.1 hc
        decide +kernel
      · exact ⟨_, List.mem_singleton_self _, by decide +kernel⟩
    exact absurd (herased.symm.trans hkept) (fun h => nomatch h)
  · refine ⟨by decide +kernel, ?_, ?_⟩
    · rw [← Option.isSome_iff_exists]
      decide +kernel
    · intro c hc
      obtain rfl := List.mem_singleton.1 hc
      decide +kernel

end ComputeIntelligence.AttributionProcessor
