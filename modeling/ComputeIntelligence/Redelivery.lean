import ComputeIntelligence.Memberships
import ComputeIntelligence.Pipeline
import ComputeIntelligence.Rebuild

/-! # Is a second delivery of an event harmless?

Kafka delivers at least once: an event whose handler ran before the process died is
handled again.  This module compares the state after one delivery with the state after
two, for every state and every event.

A billing line item is idempotent.  A deployment or a move adds its edges again, and an
added edge ends the open version of its key at the clock reading: between the time of
the event and that reading both versions answer.  A correction is counted twice.  An
inference event finds its result in the cache while it is fresh, and is reconciled
afresh afterwards.  `redelivery_harmless_iff` puts the exact conditions together.
-/
namespace ComputeIntelligence
open AttributionProcessor

/-! ## Adding the same edges again -/

/-- A key without an open version: ending its versions changes nothing. -/
theorem map_endKey_of_not_open {edges : List GraphEdge} {k : EdgeKey} (h : ¬ OpenAt edges k)
    (t : Instant) : edges.map (GraphEdge.endKey k t) = edges := by
  refine List.map_congr_left (g := id) (fun e he => ?_) |>.trans (List.map_id _)
  unfold GraphEdge.endKey
  split
  · rename_i hk
    exact GraphEdge.endedAt_of_closed (fun hopen => h ⟨e, he, hk, hopen⟩) t
  · rfl

theorem not_openAt_endKey_self (edges : List GraphEdge) (k : EdgeKey) (t : Instant) :
    ¬ OpenAt (edges.map (GraphEdge.endKey k t)) k := by
  rw [openAt_endKey]
  exact fun h => h.1 rfl

/-- Ending a version leaves its window empty exactly when it ends by its start. -/
theorem endedAt_empty_iff {e : GraphEdge} (hopen : e.validTo = none) (t : Instant) :
    (∀ u, ¬ (e.endedAt t).span.Mem u) ↔ t ≤ e.validFrom := by
  have hspan : (e.endedAt t).span = ⟨e.validFrom, some t⟩ := by
    unfold GraphEdge.span GraphEdge.endedAt
    rw [hopen]
    rfl
  rw [hspan]
  constructor
  · intro h
    by_contra hlt
    refine h e.validFrom ⟨le_refl _, fun u hu => ?_⟩
    cases hu
    exact not_le.mp hlt
  · rintro h u ⟨hstart, hstop⟩
    exact absurd (hstop t rfl) (not_lt.mpr (h.trans hstart))

/-- **A store that got the edges `added` again.**  Each of the first versions ended at
the reading beside it.  The answers are the same exactly when each ended by its start. -/
theorem agree_readded_iff {g g' : InMemoryGraphStore} (hg : g.WellIndexed) (hg' : g'.WellIndexed)
    (hnodes : SameNodes g g') {before again : List GraphEdge}
    {added : List (GraphEdge × Instant)} (hedges : g.edges = before ++ added.map Prod.fst)
    (hedges' : g'.edges = before ++ added.map (fun x => x.1.endedAt x.2) ++ again)
    (hagain : again.map GraphEdge.undated = (added.map Prod.fst).map GraphEdge.undated)
    (hopen : ∀ x ∈ added, x.1.validTo = none) :
    Agree g g' ↔ ∀ x ∈ added, x.2 ≤ x.1.validFrom := by
  constructor
  · intro h x hx
    rw [← endedAt_empty_iff (hopen x hx)]
    intro t hmem
    -- the answers about the edge's source at `t`: the ended version is one too many
    have hfrom := congrArg List.length (h.edgesFrom x.1.fromId t t t)
    rw [getEdgesFrom_undated hg, getEdgesFrom_undated hg', hedges, hedges'] at hfrom
    simp only [List.map_append, List.filter_append, List.length_append, hagain] at hfrom
    have hnone : ((added.map fun x => x.1.endedAt x.2).map GraphEdge.undated).filter (fun e =>
        decide (e.fromId = x.1.fromId) && decide (e.span.Mem t)) = [] :=
      List.eq_nil_of_length_eq_zero (by omega)
    have hin := List.filter_eq_nil_iff.mp hnone (x.1.endedAt x.2).undated
      (List.mem_map.mpr ⟨_, List.mem_map.mpr ⟨x, hx, rfl⟩, rfl⟩)
    refine hin ?_
    rw [Bool.and_eq_true, decide_eq_true_eq, decide_eq_true_eq]
    exact ⟨rfl, hmem⟩
  · intro h
    have hskip : ∀ (p : GraphEdge → Bool) (t : Instant),
        ((added.map fun x => x.1.endedAt x.2).map GraphEdge.undated).filter (fun e =>
          p e && decide (e.span.Mem t)) = [] := by
      intro p t
      rw [List.filter_eq_nil_iff]
      intro e he
      obtain ⟨ended, hended, rfl⟩ := List.mem_map.mp he
      obtain ⟨x, hx, rfl⟩ := List.mem_map.mp hended
      have hempty := (endedAt_empty_iff (hopen x hx) x.2).mpr (h x hx) t
      rw [Bool.and_eq_true, decide_eq_true_eq]
      exact fun hp => hempty hp.2
    refine ⟨fun n t now now' => ?_, fun n t now now' => ?_, hnodes⟩
    · rw [getEdgesFrom_undated hg, getEdgesFrom_undated hg', hedges, hedges']
      simp only [List.map_append, List.filter_append, hagain]
      rw [hskip (fun e => decide (e.fromId = n)) t, List.append_nil]
    · rw [getEdgesTo_undated hg, getEdgesTo_undated hg', hedges, hedges']
      simp only [List.map_append, List.filter_append, hagain]
      rw [hskip (fun e => decide (e.toId = n)) t, List.append_nil]

/-- One more edge: the open version of its key ends at the reading. -/
def appendEdge (edges : List GraphEdge) (edge : GraphEdge) (now : Instant) : List GraphEdge :=
  edges.map (GraphEdge.endKey edge.key now) ++ [edge]

/-- Adding an edge of the same key once more. -/
theorem appendEdge_again (edges : List GraphEdge) {a b : GraphEdge} (hkey : b.key = a.key)
    (now now' : Instant) :
    appendEdge (appendEdge edges a now) b now' =
      edges.map (GraphEdge.endKey a.key now) ++ [a.endedAt now'] ++ [b] := by
  unfold appendEdge
  rw [List.map_append, hkey, map_endKey_of_not_open (not_openAt_endKey_self edges a.key now)]
  simp [GraphEdge.endKey]

/-- Adding two edges of different keys once more. -/
theorem appendEdge_pair_again (edges : List GraphEdge) {a a' b b' : GraphEdge}
    (hkey : b.key = a.key) (hkey' : b'.key = a'.key) (hne : a.key ≠ a'.key)
    (n m n' m' : Instant) :
    appendEdge (appendEdge edges a n) a' m =
        (edges.map (GraphEdge.endKey a.key n)).map (GraphEdge.endKey a'.key m) ++ [a, a'] ∧
      appendEdge (appendEdge (appendEdge (appendEdge edges a n) a' m) b n') b' m' =
        (edges.map (GraphEdge.endKey a.key n)).map (GraphEdge.endKey a'.key m) ++
          [a.endedAt n', a'.endedAt m'] ++ [b, b'] := by
  have hfirst : appendEdge (appendEdge edges a n) a' m =
      (edges.map (GraphEdge.endKey a.key n)).map (GraphEdge.endKey a'.key m) ++ [a, a'] := by
    unfold appendEdge
    rw [List.map_append]
    simp [GraphEdge.endKey, hne]
  refine ⟨hfirst, ?_⟩
  have hclosed : ¬ OpenAt ((edges.map (GraphEdge.endKey a.key n)).map
      (GraphEdge.endKey a'.key m)) a.key := by
    rw [openAt_endKey]
    exact fun h => not_openAt_endKey_self edges a.key n h.2
  have hclosed' := not_openAt_endKey_self (edges.map (GraphEdge.endKey a.key n)) a'.key m
  rw [hfirst]
  unfold appendEdge
  rw [List.map_append, List.map_append, List.map_append, hkey, hkey',
    map_endKey_of_not_open hclosed, map_endKey_of_not_open hclosed']
  simp [GraphEdge.endKey, hne, Ne.symm hne, hkey]

/-- `g'` has got again the edges that `g` got last; the versions `g` has of them ended at
readings that satisfy `P` exactly when none is after the start of its version. -/
def ReaddedUnder (g g' : InMemoryGraphStore) (P : Prop) : Prop :=
  ∃ (before again : List GraphEdge) (added : List (GraphEdge × Instant)),
    g.edges = before ++ added.map Prod.fst ∧
    g'.edges = before ++ added.map (fun x => x.1.endedAt x.2) ++ again ∧
    again.map GraphEdge.undated = (added.map Prod.fst).map GraphEdge.undated ∧
    (∀ x ∈ added, x.1.validTo = none) ∧ ((∀ x ∈ added, x.2 ≤ x.1.validFrom) ↔ P)

theorem ReaddedUnder.agree_iff {g g' : InMemoryGraphStore} {P : Prop} (h : ReaddedUnder g g' P)
    (hg : g.WellIndexed) (hg' : g'.WellIndexed) (hnodes : SameNodes g g') : Agree g g' ↔ P := by
  obtain ⟨before, again, added, hedges, hedges', hagain, hopen, hP⟩ := h
  rw [agree_readded_iff hg hg' hnodes hedges hedges' hagain hopen, hP]

/-- Nothing was added. -/
theorem readdedUnder_of_edges_eq {g g' : InMemoryGraphStore} (h : g'.edges = g.edges) :
    ReaddedUnder g g' True :=
  ⟨g.edges, [], [], by simp, by simp [h], rfl, by simp, by simp⟩

/-! ## The handlers that write edges -/

/-- The edge from a deployment to its resource. -/
def triggersEdge (e : DomainEvent) (createdAt : Instant) : GraphEdge :=
  eventEdge .triggers (deployId e) ("resource:" ++ e.text "target_resource_arn" "") "cicd"
    e.eventTime.instant createdAt

/-- The edge from a deployer to the deployment. -/
def deployedByEdge (e : DomainEvent) (createdAt : Instant) : GraphEdge :=
  eventEdge .deployedBy ("person:" ++ e.text "deployer_identity" "") (deployId e) "cicd"
    e.eventTime.instant createdAt

/-- The edge of a person to the team entered. -/
def memberEdge (e : DomainEvent) (createdAt : Instant) : GraphEdge :=
  eventEdge .memberOf ("person:" ++ e.text "person_id" "") ("team:" ++ e.text "new_team" "") "hr"
    e.eventTime.instant createdAt

theorem handleDeployment_edges {g : InMemoryGraphStore} (hg : g.WellIndexed) (e : DomainEvent)
    (clock : Readings) :
    (handleDeployment g e clock).WellIndexed ∧
    (handleDeployment g e clock).edges =
      let edges := if e.text "target_resource_arn" "" ≠ "" then
        appendEdge g.edges (triggersEdge e (clock 6)) (clock 7) else g.edges
      if e.text "deployer_identity" "" ≠ "" then
        appendEdge edges (deployedByEdge e (clock 8)) (clock 9) else edges := by
  unfold handleDeployment
  dsimp only
  by_cases ht : e.text "target_resource_arn" "" ≠ "" <;>
    by_cases hd : e.text "deployer_identity" "" ≠ ""
  · simp only [if_pos ht, if_pos hd]
    refine ⟨(((hg.upsertNode _ _).upsertNode _ _).addEdge _ _).addEdge _ _, ?_⟩
    rw [(((hg.upsertNode _ _).upsertNode _ _).addEdge _ _).addEdge_edges,
      ((hg.upsertNode _ _).upsertNode _ _).addEdge_edges]
    rfl
  · simp only [if_pos ht, if_neg hd]
    refine ⟨((hg.upsertNode _ _).upsertNode _ _).addEdge _ _, ?_⟩
    rw [((hg.upsertNode _ _).upsertNode _ _).addEdge_edges]
    rfl
  · simp only [if_neg ht, if_pos hd]
    refine ⟨(hg.upsertNode _ _).addEdge _ _, ?_⟩
    rw [(hg.upsertNode _ _).addEdge_edges]
    rfl
  · simp only [if_neg ht, if_neg hd]
    exact ⟨hg.upsertNode _ _, rfl⟩

/-- No reading at which a deployment is handled again is after the time of the event. -/
def DeploymentInTime (e : DomainEvent) (clock : Readings) : Prop :=
  (e.text "target_resource_arn" "" ≠ "" → clock 7 ≤ e.eventTime.instant) ∧
    (e.text "deployer_identity" "" ≠ "" → clock 9 ≤ e.eventTime.instant)

theorem deployment_readded {g : InMemoryGraphStore} (hg : g.WellIndexed) (e : DomainEvent)
    (clock clock' : Readings) :
    ReaddedUnder (handleDeployment g e clock)
      (handleDeployment (handleDeployment g e clock) e clock') (DeploymentInTime e clock') := by
  obtain ⟨hg₁, hedges₁⟩ := handleDeployment_edges hg e clock
  obtain ⟨-, hedges₂⟩ := handleDeployment_edges hg₁ e clock'
  unfold DeploymentInTime
  by_cases ht : e.text "target_resource_arn" "" ≠ "" <;>
    by_cases hd : e.text "deployer_identity" "" ≠ ""
  · simp only [if_pos ht, if_pos hd] at hedges₁ hedges₂
    obtain ⟨hfirst, hsecond⟩ := @appendEdge_pair_again g.edges (triggersEdge e (clock 6))
      (deployedByEdge e (clock 8)) (triggersEdge e (clock' 6)) (deployedByEdge e (clock' 8))
      rfl rfl (fun h => by cases congrArg (·.2.2) h)
      (clock 7) (clock 9) (clock' 7) (clock' 9)
    refine ⟨_, [triggersEdge e (clock' 6), deployedByEdge e (clock' 8)],
      [(triggersEdge e (clock 6), clock' 7), (deployedByEdge e (clock 8), clock' 9)],
      hedges₁.trans hfirst, ?_, rfl, ?_, ?_⟩
    · rw [hedges₂, hedges₁]
      exact hsecond
    · simp [triggersEdge, deployedByEdge, eventEdge]
    · simp [triggersEdge, deployedByEdge, eventEdge, ht, hd]
  · simp only [if_pos ht, if_neg hd] at hedges₁ hedges₂
    refine ⟨_, [triggersEdge e (clock' 6)], [(triggersEdge e (clock 6), clock' 7)], hedges₁, ?_,
      rfl, ?_, ?_⟩
    · rw [hedges₂, hedges₁]
      exact appendEdge_again g.edges (a := triggersEdge e (clock 6)) (b := triggersEdge e (clock' 6)) rfl _ _
    · simp [triggersEdge, eventEdge]
    · simp only [ne_eq, not_not] at hd
      simp [triggersEdge, eventEdge, ht, hd]
  · simp only [if_neg ht, if_pos hd] at hedges₁ hedges₂
    refine ⟨_, [deployedByEdge e (clock' 8)], [(deployedByEdge e (clock 8), clock' 9)], hedges₁, ?_,
      rfl, ?_, ?_⟩
    · rw [hedges₂, hedges₁]
      exact appendEdge_again g.edges (a := deployedByEdge e (clock 8))
        (b := deployedByEdge e (clock' 8)) rfl _ _
    · simp [deployedByEdge, eventEdge]
    · simp only [ne_eq, not_not] at ht
      simp [deployedByEdge, eventEdge, ht, hd]
  · simp only [if_neg ht, if_neg hd] at hedges₁ hedges₂
    have htrue : ((e.text "target_resource_arn" "" ≠ "" → clock' 7 ≤ e.eventTime.instant) ∧
        (e.text "deployer_identity" "" ≠ "" → clock' 9 ≤ e.eventTime.instant)) ↔ True :=
      iff_true_intro ⟨fun h => absurd h ht, fun h => absurd h hd⟩
    rw [htrue]
    exact readdedUnder_of_edges_eq hedges₂

/-- A move that enters a team. -/
def Enters (e : DomainEvent) : Prop :=
  e.text "person_id" "" ≠ "" ∧ e.text "new_team" "" ≠ "" ∧
    e.text "previous_team" "" ≠ e.text "new_team" ""

/-- A move that leaves a team. -/
def Leaves (e : DomainEvent) : Prop :=
  e.text "person_id" "" ≠ "" ∧ e.text "previous_team" "" ≠ "" ∧
    e.text "previous_team" "" ≠ e.text "new_team" ""

instance (e : DomainEvent) : Decidable (Enters e) := inferInstanceAs (Decidable (_ ∧ _))

instance (e : DomainEvent) : Decidable (Leaves e) := inferInstanceAs (Decidable (_ ∧ _))

/-- The edges once the membership that a move leaves is closed. -/
def leaveTeam (e : DomainEvent) (edges : List GraphEdge) : List GraphEdge :=
  if Leaves e then
    edges.map (GraphEdge.endKey (memberKey (e.text "person_id" "") (e.text "previous_team" ""))
      e.eventTime.instant)
  else edges

theorem handleOrgChange_edges {g : InMemoryGraphStore} (hg : g.WellIndexed) (e : DomainEvent)
    (clock : Readings) :
    (handleOrgChange g e clock).WellIndexed ∧
    (handleOrgChange g e clock).edges =
      if Enters e then appendEdge (leaveTeam e g.edges) (memberEdge e (clock 1)) (clock 2)
      else leaveTeam e g.edges := by
  by_cases hp : e.text "person_id" "" = ""
  · have hlost : handleOrgChange g e clock = g := if_pos hp
    have hnotEnters : ¬ Enters e := fun h => h.1 hp
    have hnotLeaves : ¬ Leaves e := fun h => h.1 hp
    rw [hlost, if_neg hnotEnters]
    unfold leaveTeam
    rw [if_neg hnotLeaves]
    exact ⟨hg, rfl⟩
  · have hclosed := hg.closeEdge .memberOf ("person:" ++ e.text "person_id" "")
      ("team:" ++ e.text "previous_team" "") (some e.eventTime.instant) (clock 0)
    have hleaves : Leaves e ↔ e.text "previous_team" "" ≠ "" ∧
        e.text "previous_team" "" ≠ e.text "new_team" "" := and_iff_right hp
    have henters : Enters e ↔ e.text "new_team" "" ≠ "" ∧
        e.text "previous_team" "" ≠ e.text "new_team" "" := and_iff_right hp
    unfold handleOrgChange leaveTeam
    simp only [if_neg hp]
    by_cases hl : Leaves e <;> by_cases he : Enters e
    · simp only [if_pos hl, if_pos he, if_pos (hleaves.mp hl), if_pos (henters.mp he)]
      refine ⟨hclosed.addEdge _ _, ?_⟩
      rw [hclosed.addEdge_edges, hg.closeEdge_edges]
      rfl
    · simp only [if_pos hl, if_neg he, if_pos (hleaves.mp hl), if_neg (mt henters.mpr he)]
      exact ⟨hclosed, hg.closeEdge_edges _ _ _ _ _⟩
    · simp only [if_neg hl, if_pos he, if_neg (mt hleaves.mpr hl), if_pos (henters.mp he)]
      exact ⟨hg.addEdge _ _, hg.addEdge_edges _ _⟩
    · simp only [if_neg hl, if_neg he, if_neg (mt hleaves.mpr hl), if_neg (mt henters.mpr he)]
      exact ⟨hg, trivial⟩

/-- A membership already left stays as it is. -/
theorem leaveTeam_of_not_open {e : DomainEvent} {edges : List GraphEdge}
    (h : Leaves e → ¬ OpenAt edges (memberKey (e.text "person_id" "") (e.text "previous_team" ""))) :
    leaveTeam e edges = edges := by
  unfold leaveTeam
  split
  · rename_i hleaves
    exact map_endKey_of_not_open (h hleaves) _
  · rfl

theorem orgChange_readded {g : InMemoryGraphStore} (hg : g.WellIndexed) (e : DomainEvent)
    (clock clock' : Readings) :
    ReaddedUnder (handleOrgChange g e clock) (handleOrgChange (handleOrgChange g e clock) e clock')
      (Enters e → clock' 2 ≤ e.eventTime.instant) := by
  obtain ⟨hg₁, hedges₁⟩ := handleOrgChange_edges hg e clock
  obtain ⟨-, hedges₂⟩ := handleOrgChange_edges hg₁ e clock'
  have hleft : Leaves e → ¬ OpenAt (leaveTeam e g.edges)
      (memberKey (e.text "person_id" "") (e.text "previous_team" "")) := by
    intro hleaves
    unfold leaveTeam
    rw [if_pos hleaves]
    exact not_openAt_endKey_self _ _ _
  by_cases henters : Enters e
  · simp only [if_pos henters] at hedges₁ hedges₂
    have hkey : (memberEdge e (clock 1)).key =
        memberKey (e.text "person_id" "") (e.text "new_team" "") := rfl
    have hsame : leaveTeam e (handleOrgChange g e clock).edges =
        (handleOrgChange g e clock).edges := by
      refine leaveTeam_of_not_open fun hleaves => ?_
      rw [hedges₁]
      unfold appendEdge
      rw [openAt_concat, openAt_endKey, hkey, memberKey_inj]
      rintro (⟨-, hopen⟩ | ⟨heq, -⟩)
      · exact hleft hleaves hopen
      · exact hleaves.2.2 heq.symm
    refine ⟨_, [memberEdge e (clock' 1)], [(memberEdge e (clock 1), clock' 2)], hedges₁, ?_, rfl,
      ?_, ?_⟩
    · rw [hedges₂, hsame, hedges₁]
      exact appendEdge_again (leaveTeam e g.edges) (a := memberEdge e (clock 1))
        (b := memberEdge e (clock' 1)) rfl _ _
    · simp [memberEdge, eventEdge]
    · simp [memberEdge, eventEdge, henters]
  · simp only [if_neg henters] at hedges₁ hedges₂
    have htrue : (Enters e → clock' 2 ≤ e.eventTime.instant) ↔ True :=
      iff_true_intro fun h => absurd h henters
    rw [htrue]
    refine readdedUnder_of_edges_eq ?_
    rw [hedges₂, hedges₁]
    exact leaveTeam_of_not_open hleft

/-! ## Nodes -/

/-- The node of a deployment, its times left out. -/
def deploymentNode (e : DomainEvent) : GraphNode :=
  { nodeId := deployId e, nodeType := .deployment, label := e.text "service_name" "",
    properties := e.attrs, createdAt := 0, updatedAt := 0 }

/-- The node of the resource deployed to, its times left out. -/
def resourceNode (e : DomainEvent) : GraphNode :=
  { nodeId := "resource:" ++ e.text "target_resource_arn" "", nodeType := .cloudResource,
    label := if PyText.contains "/" (e.text "target_resource_arn" "") then
      PyText.lastPart '/' (e.text "target_resource_arn" "") else e.text "target_resource_arn" ""
    createdAt := 0, updatedAt := 0 }

theorem handleDeployment_nodes (g : InMemoryGraphStore) (e : DomainEvent) (clock : Readings)
    (n : String) : ((handleDeployment g e clock).getNode n).map GraphNode.undated =
      if e.text "target_resource_arn" "" ≠ "" ∧ n = (resourceNode e).nodeId then
        some (resourceNode e)
      else if n = (deploymentNode e).nodeId then some (deploymentNode e)
      else (g.getNode n).map GraphNode.undated := by
  have hadd : ∀ (g : InMemoryGraphStore) edge now, (g.addEdge edge now).getNode n = g.getNode n :=
    fun _ _ _ => rfl
  unfold handleDeployment
  by_cases ht : e.text "target_resource_arn" "" ≠ "" <;>
    by_cases hd : e.text "deployer_identity" "" ≠ "" <;>
    simp only [ht, hd, hadd, getNode_upsertNode, if_true, if_false, ne_eq, not_false_eq_true,
      true_and, false_and] <;> rfl

/-- A deployment handled again writes the nodes it wrote before. -/
theorem sameNodes_deployment (g : InMemoryGraphStore) (e : DomainEvent) (clock clock' : Readings) :
    SameNodes (handleDeployment g e clock)
      (handleDeployment (handleDeployment g e clock) e clock') := by
  intro n
  rw [handleDeployment_nodes _ e clock', handleDeployment_nodes g e clock]
  split
  · rfl
  · split <;> rfl

/-- The properties of a resource after a billing line item. -/
def billed (e : DomainEvent) (properties : PyDict String PyVal) : PyDict String PyVal :=
  (properties.set "last_billed_cost_usd" (e.attrs.getD "cost_usd" (.float (.finite 0)))).set
    "billing_tags" (e.attrs.getD "tags" (.dict []))

/-- Billing twice is billing once. -/
theorem billed_billed (e : DomainEvent) (properties : PyDict String PyVal) :
    billed e (billed e properties) = billed e properties := by
  have hcost : (billed e properties).get? "last_billed_cost_usd" =
      some (e.attrs.getD "cost_usd" (.float (.finite 0))) := by
    unfold billed
    rw [PyDict.get?_set, if_neg (by decide), PyDict.get?_set, if_pos rfl]
  have htags : (billed e properties).get? "billing_tags" =
      some (e.attrs.getD "tags" (.dict [])) := by
    unfold billed
    rw [PyDict.get?_set, if_pos rfl]
  have hagain : billed e (billed e properties) = ((billed e properties).set "last_billed_cost_usd"
      (e.attrs.getD "cost_usd" (.float (.finite 0)))).set "billing_tags"
        (e.attrs.getD "tags" (.dict [])) := rfl
  rw [hagain, PyDict.set_of_get? hcost, PyDict.set_of_get? htags]

theorem handleBilling_edges {g : InMemoryGraphStore} (hg : g.WellIndexed) (e : DomainEvent)
    (clock : Readings) :
    (handleBilling g e clock).WellIndexed ∧ (handleBilling g e clock).edges = g.edges := by
  unfold handleBilling
  dsimp only
  split
  · split
    · exact ⟨hg.upsertNode _ _, rfl⟩
    · exact ⟨hg, rfl⟩
  · exact ⟨hg, rfl⟩

/-- A billing line item handled again writes the properties it wrote before. -/
theorem sameNodes_billing (g : InMemoryGraphStore) (e : DomainEvent) (clock clock' : Readings) :
    SameNodes (handleBilling g e clock) (handleBilling (handleBilling g e clock) e clock') := by
  by_cases harn : e.text "resource_arn" "" ≠ ""
  · cases hnode : g.getNode ("resource:" ++ e.text "resource_arn" "") with
    | none =>
      have hsame : ∀ clock, handleBilling g e clock = g := by
        intro clock
        unfold handleBilling
        simp only [if_pos harn, hnode]
      rw [hsame, hsame]
      exact fun n => rfl
    | some node =>
      let paid : GraphNode := { node with properties := billed e node.properties }
      have hfirst : handleBilling g e clock = g.upsertNode paid (clock 0) := by
        unfold handleBilling
        simp only [if_pos harn, hnode]
        rfl
      -- the node found the second time: the paid one, or the first one under another key
      have hfound : ∃ x, (g.upsertNode paid (clock 0)).getNode
          ("resource:" ++ e.text "resource_arn" "") = some x ∧
          ({ x with properties := billed e x.properties } : GraphNode).undated = paid.undated := by
        have hget := getNode_upsertNode g paid (clock 0) ("resource:" ++ e.text "resource_arn" "")
        by_cases hid : "resource:" ++ e.text "resource_arn" "" = paid.nodeId
        · rw [if_pos hid] at hget
          obtain ⟨x, hx, hundated⟩ := Option.map_eq_some_iff.mp hget
          refine ⟨x, hx, ?_⟩
          have hprops : x.properties = billed e node.properties :=
            congrArg GraphNode.properties hundated
          rw [hprops, billed_billed]
          exact undated_withProperties hundated (billed e node.properties)
        · rw [if_neg hid, hnode] at hget
          obtain ⟨x, hx, hundated⟩ := Option.map_eq_some_iff.mp hget
          refine ⟨x, hx, ?_⟩
          have hprops : x.undated.properties = node.undated.properties := by rw [hundated]
          change x.properties = node.properties at hprops
          rw [hprops]
          exact undated_withProperties hundated (billed e node.properties)
      obtain ⟨x, hx, hundated⟩ := hfound
      have hsecond : handleBilling (g.upsertNode paid (clock 0)) e clock' =
          (g.upsertNode paid (clock 0)).upsertNode
            { x with properties := billed e x.properties } (clock' 0) := by
        unfold handleBilling
        simp only [if_pos harn, hx]
        rfl
      intro n
      have hid : ({ x with properties := billed e x.properties } : GraphNode).undated.nodeId =
          paid.undated.nodeId := by rw [hundated]
      change x.nodeId = paid.nodeId at hid
      rw [hfirst, hsecond, getNode_upsertNode _ _ (clock' 0), getNode_upsertNode g, hundated]
      dsimp only
      rw [hid]
      split <;> rfl
  · have hsame : ∀ clock, handleBilling g e clock = g := by
      intro clock
      unfold handleBilling
      simp only [if_neg harn]
    rw [hsame, hsame]
    exact fun n => rfl

/-! ## The index -/

namespace AttributionIndexStore

theorem evictOverflow_size (fuel : Nat) {s : AttributionIndexStore} (h : s.index.size ≤ fuel) :
    (evictOverflow fuel s).index.size ≤ s.settings.maxEntries := by
  induction fuel generalizing s with
  | zero =>
    unfold evictOverflow
    omega
  | succ fuel ih =>
    unfold evictOverflow
    split
    · split
      · rename_i hpop
        have hzero := PyDict.popFirst_eq_none_iff.mp hpop
        omega
      · rename_i evicted old rest hpop
        have hsize := PyDict.size_popFirst hpop
        exact ih (s := _) (by rw [count_index]; dsimp only; omega)
    · omega

/-- What `materialize` does to the index: it holds the new entry, if it may hold any,
and stays within its bounds. -/
theorem materialize_index (s : AttributionIndexStore) (db : RedisDb)
    (entry : AttributionIndexEntry) (now : Instant) :
    (s.materialize db entry now).1.settings = s.settings ∧
      (s.materialize db entry now).1.index.size ≤ s.settings.maxEntries ∧
      (1 ≤ s.settings.maxEntries → (s.materialize db entry now).1.index.get? entry.workloadId =
        some (s.stamp entry now)) := by
  let inserted : AttributionIndexStore := { s with
    index := s.index.setLast entry.workloadId (s.stamp entry now)
    versions := s.versions.set entry.workloadId (s.stamp entry now).version }
  have hindex : (s.materialize db entry now).1.index =
      (evictOverflow inserted.index.size inserted).index := by
    unfold materialize writeDurableEntry
    dsimp only
    split <;> rfl
  have hsettings : (s.materialize db entry now).1.settings =
      (evictOverflow inserted.index.size inserted).settings := by
    unfold materialize writeDurableEntry
    dsimp only
    split <;> rfl
  rw [hindex, hsettings, evictOverflow_settings]
  refine ⟨rfl, evictOverflow_size _ (le_refl _), fun hmax => ?_⟩
  have hlast : inserted.index.items = PyDict.without entry.workloadId s.index.items ++
      [(entry.workloadId, s.stamp entry now)] := rfl
  exact evictOverflow_last (s := inserted) _ hmax hlast

end AttributionIndexStore

open IndexMaterializer AttributionIndexStore

/-- What a result would leave in the index, version and times left out: nothing without
a positive confidence, or where calibrating it or collecting its policies fails. -/
def wouldServe (env : Reckoning) (s : ProcessorState) (result : AttributionResult) :
    Option AttributionIndexEntry :=
  if result.combinedConfidence.gt 0 then
    servedWithPolicies env.confidence s.policyEngine (calibrated env s.groundTruth result)
  else none

/-- **What materializing a result does**: nothing, or it writes an entry of the content
the result would leave. -/
theorem materializeResult_spec (env : Reckoning) (s : ProcessorState) (result : AttributionResult)
    (clock : HandlerClock) :
    (wouldServe env s result = none ∧ materializeResult env s result clock = s.index) ∨
      ∃ entry now, wouldServe env s result = some entry.content ∧
        entry.workloadId = result.workloadId ∧
        materializeResult env s result clock = s.index.1.materialize s.index.2 entry now := by
  unfold wouldServe materializeResult
  by_cases hpos : result.combinedConfidence.gt 0 = true
  · simp only [if_pos hpos]
    unfold servedWithPolicies
    cases hctx : collectPolicyContext s.policyEngine (calibrated env s.groundTruth result) with
    | error err => exact .inl ⟨rfl, rfl⟩
    | ok policies =>
      simp only [Except.toOption, Option.bind_some]
      by_cases hscored : Scored (calibrated env s.groundTruth result)
      · obtain ⟨entry, hid, hserved, hrun⟩ :=
          hscored.materializeAttribution policies clock.wall s.index
        refine .inr ⟨entry, clock.wall 2, hserved, hid, ?_⟩
        rw [hrun]
      · exact .inl (materializeAttribution_of_not_scored hscored policies clock.wall s.index)
  · simp only [if_neg hpos]
    exact .inl ⟨trivial, trivial⟩

/-- The index stays within its bounds. -/
theorem materializeResult_fits {env : Reckoning} {s : ProcessorState} (hs : Valid s)
    (result : AttributionResult) (clock : HandlerClock) :
    (materializeResult env s result clock).1.settings = s.index.1.settings ∧
      (materializeResult env s result clock).1.index.size ≤ s.index.1.settings.maxEntries := by
  rcases materializeResult_spec env s result clock with ⟨-, hsame⟩ | ⟨entry, now, -, -, hrun⟩
  · rw [hsame]
    exact ⟨rfl, hs.fits⟩
  · rw [hrun]
    obtain ⟨hsettings, hsize, -⟩ := materialize_index s.index.1 s.index.2 entry now
    exact ⟨hsettings, hsize⟩

/-- The index holds what the result leaves, if it can hold anything. -/
theorem materializeResult_holds (env : Reckoning) (s : ProcessorState) (result : AttributionResult)
    (clock : HandlerClock) : ∀ content ∈ wouldServe env s result,
      held (materializeResult env s result clock) result.workloadId = some content ∨
        (materializeResult env s result clock).1.settings.maxEntries = 0 := by
  intro content hcontent
  rcases materializeResult_spec env s result clock with ⟨hnone, -⟩ | ⟨entry, now, hsome, hid, hrun⟩
  · rw [hnone] at hcontent
    cases hcontent
  · rw [hsome] at hcontent
    cases hcontent
    obtain ⟨hsettings, -, hnew⟩ := materialize_index s.index.1 s.index.2 entry now
    rw [hrun, hsettings, ← hid]
    by_cases hmax : 1 ≤ s.index.1.settings.maxEntries
    · left
      unfold held
      rw [hnew hmax]
      rfl
    · exact .inr (by omega)

/-- **The entries after materializing a result** are the ones before exactly when the
index already holds what the result would leave, or can hold nothing. -/
theorem materializeResult_keeps_iff {env : Reckoning} {s : ProcessorState} (hs : Valid s)
    (result : AttributionResult) (clock : HandlerClock) :
    (∀ w, held (materializeResult env s result clock) w = held s.index w) ↔
      ∀ content ∈ wouldServe env s result,
        held s.index result.workloadId = some content ∨ s.index.1.settings.maxEntries = 0 := by
  rcases materializeResult_spec env s result clock with ⟨hnone, hsame⟩ | ⟨entry, now, hsome, hid, hrun⟩
  · rw [hsame, hnone]
    simp
  · obtain ⟨hsettings, hsize, hnew⟩ := materialize_index s.index.1 s.index.2 entry now
    rw [hrun, hsome]
    constructor
    · rintro hkeeps content hcontent
      cases hcontent
      by_cases hmax : 1 ≤ s.index.1.settings.maxEntries
      · left
        rw [← hkeeps result.workloadId, ← hid]
        unfold held
        rw [hnew hmax]
        rfl
      · exact .inr (by omega)
    · intro hheld w
      rcases hheld _ rfl with hheld | hzero
      · -- the workload has an entry, so no other has to leave
        have hthere : s.index.1.index.get? entry.workloadId ≠ none := by
          intro hmissing
          rw [hid] at hmissing
          unfold held at hheld
          rw [hmissing] at hheld
          cases hheld
        have hfits := materialize_of_fits s.index.2 entry now
          (le_trans (PyDict.size_setLast_le hthere _) hs.fits)
        unfold held
        rw [hfits.1, PyDict.get?_setLast]
        split
        · rename_i hw
          rw [hw, hid]
          exact hheld.symm
        · rfl
      · have hempty : ∀ (d : PyDict String AttributionIndexEntry), d.size ≤ 0 → d.get? w = none := by
          intro d hd
          obtain ⟨items, hnodup⟩ := d
          have hnil : items = [] := List.eq_nil_of_length_eq_zero (Nat.le_zero.mp hd)
          subst hnil
          rfl
        unfold held
        rw [hempty _ (hzero ▸ hsize), hempty _ (hzero ▸ hs.fits)]

/-! ## A second delivery -/

/-- The result of an inference event is cached and still fresh. -/
def StillCached (env : Reckoning) (s : ProcessorState) (e : DomainEvent) (clock : HandlerClock) :
    Prop :=
  ∃ item, s.cache.get? (cacheKey e) = some item ∧
    clock.monotonic 0 - item.1 ≤ env.execution.cacheTtl

theorem resolve_of_cached {env : Reckoning} {s : ProcessorState} {e : DomainEvent}
    {clock : HandlerClock} {result : AttributionResult}
    (hremembers : s.cache.Remembers (cacheKey e) result) (h : StillCached env s e clock) :
    (resolve env s e clock).1 = result := by
  obtain ⟨⟨cachedAt, cached⟩, hget, hfresh⟩ := h
  have hsame : cached = result := hremembers _ hget
  unfold resolve ResolveCache.getCached
  rw [hget]
  dsimp only
  rw [if_neg (not_lt.mpr hfresh)]
  exact hsame

theorem resolve_of_not_cached {env : Reckoning} {s : ProcessorState} {e : DomainEvent}
    {clock : HandlerClock} (h : ¬ StillCached env s e clock) :
    (resolve env s e clock).1 = env.reconcile s.graph e clock := by
  unfold resolve ResolveCache.getCached
  cases hget : s.cache.get? (cacheKey e) with
  | none => rfl
  | some item =>
    obtain ⟨cachedAt, cached⟩ := item
    have hstale : env.execution.cacheTtl < clock.monotonic 0 - cachedAt :=
      not_le.mp fun hfresh => h ⟨_, hget, hfresh⟩
    dsimp only
    rw [if_pos hstale]

/-- The processor answers every query as before: about edges at an explicit time, about
nodes (their times apart), about the labels held and about the entries of the index
(version and times apart). -/
structure Unchanged (s s' : ProcessorState) : Prop where
  graph : Agree s.graph s'.graph
  labels : s'.groundTruth = s.groundTruth
  entries : ∀ w, held s'.index w = held s.index w

/-- When handling an event again, in a state that has just handled it, changes nothing. -/
def SafeToRedeliver (env : Reckoning) (s : ProcessorState) (e : AcceptedEvent)
    (clock : HandlerClock) : Prop :=
  match e.1.eventType with
  | .deployment => DeploymentInTime e.1 clock.wall
  | .orgChange => Enters e.1 → clock.wall 2 ≤ e.1.eventTime.instant
  | .attributionCorrection => False
  | .inferenceRequest =>
      StillCached env s e.1 clock ∨
        ∀ content ∈ wouldServe env s (env.reconcile s.graph e.1 clock),
          held s.index (env.reconcile s.graph e.1 clock).workloadId = some content ∨
            s.index.1.settings.maxEntries = 0
  | _ => True

theorem AttributionProcessor.wellIndexed_handle {g : InMemoryGraphStore} (hg : g.WellIndexed)
    (e : AcceptedEvent) (clock : Readings) :
    (AttributionProcessor.handle g e clock).WellIndexed := by
  unfold AttributionProcessor.handle
  split
  · exact (handleDeployment_edges hg e.1 clock).1
  · exact (handleBilling_edges hg e.1 clock).1
  · exact (handleOrgChange_edges hg e.1 clock).1
  · exact hg

/-- **The handlers keep a valid state valid.** -/
theorem AttributionProcessor.Valid.process {env : Reckoning} {s : ProcessorState} (hs : Valid s)
    (e : AcceptedEvent) (clock : HandlerClock) : Valid (process env s e clock) := by
  unfold AttributionProcessor.process
  split
  · obtain ⟨hsettings, hsize⟩ := @materializeResult_fits env s hs (resolve env s e.1 clock).1 clock
    refine ⟨hs.graph, ?_⟩
    show (materializeResult env s (resolve env s e.1 clock).1 clock).1.index.size ≤
      (materializeResult env s (resolve env s e.1 clock).1 clock).1.settings.maxEntries
    rw [hsettings]
    exact hsize
  · exact ⟨hs.graph, hs.fits⟩
  · exact ⟨wellIndexed_handle hs.graph e clock.wall, hs.fits⟩

/-- A correction handled again is one more label. -/
theorem handleCorrection_adds (s : ProcessorState) (e : DomainEvent) (clock : HandlerClock) :
    (handleCorrection s e clock).groundTruth ≠ s.groundTruth := by
  intro h
  have hlabels := congrArg (fun labels : GroundTruth =>
    (labels.getD (e.text "method_used" "") []).length) h
  have hmethod : (correctionLabel e (clock.wall 0)).methodUsed = e.text "method_used" "" := rfl
  simp only [handleCorrection, addGroundTruth, hmethod, PyDict.getD, PyDict.get?_set, if_true,
    Option.getD_some, List.length_append, List.length_singleton] at hlabels
  omega

/-- An inference event handled again finds its cached result while it is fresh. -/
theorem inference_redelivery_iff {env : Reckoning} {s : ProcessorState} {e : DomainEvent}
    {clock : HandlerClock} (hs : Valid (handleInference env s e clock)) (clock' : HandlerClock) :
    Unchanged (handleInference env s e clock)
        (handleInference env (handleInference env s e clock) e clock') ↔
      StillCached env (handleInference env s e clock) e clock' ∨
        ∀ content ∈ wouldServe env (handleInference env s e clock)
            (env.reconcile s.graph e clock'),
          held (handleInference env s e clock).index
              (env.reconcile s.graph e clock').workloadId = some content ∨
            (handleInference env s e clock).index.1.settings.maxEntries = 0 := by
  have hentries : Unchanged (handleInference env s e clock)
      (handleInference env (handleInference env s e clock) e clock') ↔
      ∀ w, held (materializeResult env (handleInference env s e clock)
        (resolve env (handleInference env s e clock) e clock').1 clock') w =
          held (handleInference env s e clock).index w :=
    ⟨fun h => h.entries,
      fun h => ⟨agree_of_edges hs.graph hs.graph rfl fun _ => rfl, rfl, h⟩⟩
  rw [hentries, materializeResult_keeps_iff hs]
  by_cases hcached : StillCached env (handleInference env s e clock) e clock'
  · -- the same result again: what it would leave is there already
    rw [resolve_of_cached (resolve_remembers env s e clock) hcached]
    exact iff_of_true (materializeResult_holds env s _ clock) (.inl hcached)
  · rw [resolve_of_not_cached hcached, or_iff_right hcached]
    rfl

/-- **Handling an event twice is handling it once exactly when it is safe to redeliver.** -/
theorem redelivery_harmless_iff (env : Reckoning) {s : ProcessorState} (hs : Valid s)
    (e : AcceptedEvent) (clock clock' : HandlerClock) :
    Unchanged (process env s e clock) (process env (process env s e clock) e clock') ↔
      SafeToRedeliver env (process env s e clock) e clock' := by
  have hs₁ : Valid (process env s e clock) := hs.process e clock
  have hs₂ : Valid (process env (process env s e clock) e clock') := hs₁.process e clock'
  -- a handler that writes the graph only
  have hgraphOnly : ∀ {P : Prop} (g g' : InMemoryGraphStore), (Agree g g' ↔ P) →
      (Unchanged { s with graph := g } { s with graph := g' } ↔ P) := by
    intro P g g' hagree
    rw [← hagree]
    exact ⟨fun h => h.graph, fun h => ⟨h, rfl, fun _ => rfl⟩⟩
  unfold SafeToRedeliver
  cases htype : e.1.eventType with
  | deployment =>
    simp only [process, handle, htype] at hs₁ hs₂ ⊢
    refine hgraphOnly _ _ ?_
    exact (deployment_readded hs.graph e.1 clock.wall clock'.wall).agree_iff hs₁.graph hs₂.graph
      (sameNodes_deployment _ _ _ _)
  | orgChange =>
    simp only [process, handle, htype] at hs₁ hs₂ ⊢
    refine hgraphOnly _ _ ?_
    refine (orgChange_readded hs.graph e.1 clock.wall clock'.wall).agree_iff hs₁.graph hs₂.graph ?_
    intro n
    rw [nodes_handleOrgChange hs₁.graph]
  | billingLineItem =>
    simp only [process, handle, htype] at hs₁ hs₂ ⊢
    refine hgraphOnly _ _ (iff_true_intro ?_)
    refine agree_of_edges hs₁.graph hs₂.graph ?_ (sameNodes_billing _ _ _ _)
    rw [(handleBilling_edges hs₁.graph e.1 clock'.wall).2]
  | attributionCorrection =>
    simp only [process, htype]
    exact iff_false_intro fun h => handleCorrection_adds _ _ _ h.labels
  | inferenceRequest =>
    simp only [process, htype] at hs₁ ⊢
    exact inference_redelivery_iff hs₁ clock'
  | _ =>
    simp only [process, handle, htype] at hs₁ hs₂ ⊢
    exact iff_true_intro ⟨agree_of_edges hs₁.graph hs₁.graph rfl fun _ => rfl, rfl, fun _ => rfl⟩

/-- An engine without evidence: nothing is ever resolved, and calibration is the identity. -/
def noEvidence : Reckoning where
  reconcile := fun _ e _ =>
    { workloadId := workloadId e, combinedConfidence := .finite 0,
      explanation := some ⟨"unresolved", "none"⟩ }
  calibrate := fun _ _ raw => raw

theorem valid_fresh : Valid {} := ⟨InMemoryGraphStore.wellIndexed_empty, Nat.zero_le _⟩

/-- Both clocks stopped. -/
def stoppedAt (t : Instant) : HandlerClock := ⟨fun _ => t, fun _ => t⟩

/-- A move redelivered before its own time changes nothing. -/
theorem early_move_redelivered :
    Unchanged (process noEvidence {} firstMove (stoppedAt 0))
      (process noEvidence (process noEvidence {} firstMove (stoppedAt 0)) firstMove
        (stoppedAt 1000000)) := by
  refine (redelivery_harmless_iff noEvidence valid_fresh firstMove _ _).mpr ?_
  show Enters firstMove.1 → (1000000 : Instant) ≤ firstMove.1.eventTime.instant
  exact fun _ => by decide +kernel

/-- A move redelivered two seconds after its time answers twice in between. -/
theorem redelivered_move_answers_twice :
    ¬ ∀ (env : Reckoning) (s : ProcessorState) (e : AcceptedEvent) (clock clock' : HandlerClock),
      Valid s → e.1.eventType ∈ [EventType.inferenceRequest, .deployment, .billingLineItem,
        .attributionCorrection, .orgChange] →
      Unchanged (process env s e clock) (process env (process env s e clock) e clock') := by
  intro h
  have hagree := (h noEvidence {} firstMove (stoppedAt 3000000) (stoppedAt 3000000) valid_fresh
    (by decide)).graph.edgesFrom "person:ada" 2000000 0 0
  have hlengths := congrArg List.length hagree
  revert hlengths
  decide +kernel

end ComputeIntelligence
