import ComputeIntelligence.ExceptRules
import ComputeIntelligence.GuardedRuns
import ComputeIntelligence.Neo4jStore
import Mathlib.Data.List.Dedup

/-! # Two backends of one graph store

`InMemoryGraphStore` and `Neo4jGraphStore` implement one protocol.  The same calls are
made on both, with the same clock readings.

The relationships in Neo4j are the edges in memory, one for one and in the same order,
with their times as texts (`Backends.Sim`): no key ever has two open versions, so every
`OPTIONAL MATCH` has one row.  Hence the backends agree on what is closed and on every
query for edges.  They do not agree on nodes: `add_edge` makes Neo4j create the endpoints
it does not find, with a type inferred from the id, and memory has no such nodes.
-/
namespace ComputeIntelligence
open PyDateTime

/-! ### Calls and answers -/

/-- A call, with the readings of the clock in it. -/
inductive GraphCall where
  | upsertNode (node : GraphNode) (now : Instant)
  | addEdge (edge : GraphEdge) (now created : Instant)
  | closeEdge (edgeType : EdgeType) (fromId toId : String) (validTo : Option Instant) (now : Instant)
  | clear

/-- Times that a UTC `datetime` can hold, and properties that can be written as JSON. -/
def GraphCall.Representable : GraphCall → Prop
  | .upsertNode node now =>
      InRange node.createdAt ∧ InRange now ∧ (jsonCopyDict node.properties).isSome = true
  | .addEdge edge now created =>
      InRange edge.validFrom ∧ (∀ t ∈ edge.validTo, InRange t) ∧ InRange now ∧ InRange created
  | .closeEdge _ _ _ validTo now => (∀ t ∈ validTo, InRange t) ∧ InRange now
  | .clear => True

instance : ∀ c : GraphCall, Decidable c.Representable
  | .upsertNode _ _ => inferInstanceAs (Decidable (_ ∧ _ ∧ _))
  | .addEdge _ _ _ => inferInstanceAs (Decidable (_ ∧ _ ∧ _ ∧ _))
  | .closeEdge _ _ _ _ _ => inferInstanceAs (Decidable (_ ∧ _))
  | .clear => isTrue trivial

/-- The call does not add an edge that has already ended. -/
def GraphCall.AddsOpen : GraphCall → Prop
  | .addEdge edge _ _ => edge.validTo = none
  | _ => True

instance : ∀ c : GraphCall, Decidable c.AddsOpen
  | .addEdge _ _ _ => inferInstanceAs (Decidable (_ = none))
  | .upsertNode _ _ | .closeEdge _ _ _ _ _ | .clear => isTrue trivial

/-- What `get_node` shows, but for the two timestamps. -/
structure NodeContent where
  nodeId : String
  nodeType : NodeType
  label : String
  properties : PyDict String PyVal
  tenantId : String

def GraphNode.content (node : GraphNode) : NodeContent :=
  ⟨node.nodeId, node.nodeType, node.label, node.properties, node.tenantId⟩

/-- The two stores, and what their calls of `close_edge` returned, oldest first. -/
structure Backends where
  memory : InMemoryGraphStore := {}
  neo4j : Neo4jGraphStore := {}
  memoryClosed : List Bool := []
  neo4jClosed : List Bool := []

namespace Backends

/-- The same call on both; a call that raises changes nothing. -/
def step (b : Backends) : GraphCall → Backends
  | .upsertNode node now =>
      { b with
        memory := b.memory.upsertNode node now
        neo4j := match b.neo4j.upsertNode node now with
          | .ok neo4j => neo4j
          | .error _ => b.neo4j }
  | .addEdge edge now created =>
      { b with memory := b.memory.addEdge edge now, neo4j := b.neo4j.addEdge edge now created }
  | .closeEdge edgeType fromId toId validTo now =>
      let inMemory := b.memory.closeEdge edgeType fromId toId validTo now
      let inNeo4j := b.neo4j.closeEdge edgeType fromId toId validTo now
      { memory := inMemory.2
        neo4j := inNeo4j.2
        memoryClosed := b.memoryClosed ++ [inMemory.1]
        neo4jClosed := b.neo4jClosed ++ [inNeo4j.1] }
  | .clear => { b with memory := b.memory.clear, neo4j := b.neo4j.clear }

/-- **Both backends give the same answers.** -/
structure Agree (b : Backends) : Prop where
  closed : b.neo4jClosed = b.memoryClosed
  node : ∀ nodeId now, (b.neo4j.getNode nodeId now).map (Option.map GraphNode.content) =
    .ok ((b.memory.getNode nodeId).map GraphNode.content)
  byType : ∀ nodeType now, ∃ nodes, b.neo4j.getNodesByType nodeType now = .ok nodes ∧
    ∀ c, c ∈ nodes.map GraphNode.content ↔
      c ∈ (b.memory.getNodesByType nodeType).map GraphNode.content
  edgesFrom : ∀ nodeId at_ now, InRange at_ → ∃ edges,
    b.neo4j.getEdgesFrom nodeId (some at_) now = .ok edges ∧
      edges.Perm (b.memory.getEdgesFrom nodeId (some at_) now)
  edgesTo : ∀ nodeId at_ now, InRange at_ → ∃ edges,
    b.neo4j.getEdgesTo nodeId (some at_) now = .ok edges ∧
      edges.Perm (b.memory.getEdgesTo nodeId (some at_) now)
  stats : b.neo4j.getStats = b.memory.getStats

end Backends

/-! ### What Neo4j shows of the memory -/

/-- A node as it is read back: an empty label is replaced by the id, and the properties
have been through JSON. -/
def GraphNode.stored (node : GraphNode) : NodeContent where
  nodeId := node.nodeId
  nodeType := node.nodeType
  label := if node.label = "" then node.nodeId else node.label
  properties := (jsonCopyDict node.properties).getD node.properties
  tenantId := node.tenantId

/-- The node of an endpoint that was never upserted. -/
def inferredContent (nodeId : String) : NodeContent where
  nodeId := nodeId
  nodeType := inferNodeType nodeId
  label := if defaultLabel nodeId = "" then nodeId else defaultLabel nodeId
  properties := PyDict.empty
  tenantId := ""

/-- An edge as it is read back: an empty reference is read as none. -/
def GraphEdge.readBack (e : GraphEdge) : GraphEdge :=
  { e with explanationRef := if e.explanationRef = some "" then none else e.explanationRef }

namespace InMemoryGraphStore

/-- The ids at the ends of the edges. -/
def endpoints (s : InMemoryGraphStore) : List String := s.edges.flatMap fun e => [e.fromId, e.toId]

/-- The endpoints that were never upserted, once each. -/
def strangers (s : InMemoryGraphStore) : List String :=
  s.endpoints.dedup.filter fun nodeId => (s.nodes.get? nodeId).isNone

/-- What Neo4j shows for an id. -/
def shown (s : InMemoryGraphStore) (nodeId : String) : Option NodeContent :=
  match s.nodes.get? nodeId with
  | some node => some node.stored
  | none => if nodeId ∈ s.endpoints then some (inferredContent nodeId) else none

end InMemoryGraphStore

/-! ### Times as texts -/

theorem toIso_ne_empty {t : Instant} (h : InRange t) : toIso t ≠ "" := by
  intro hempty
  have hchars := isoText_toList h
  change (toIso t).toList = _ at hchars
  rw [hempty] at hchars
  have hlength := congrArg List.length hchars
  unfold isoChars at hlength
  rw [List.length_append, FixedDigits.length_digits] at hlength
  simp at hlength

theorem toIso_le_iff {a b : Instant} (ha : InRange a) (hb : InRange b) :
    toIso a ≤ toIso b ↔ a ≤ b :=
  isoText_strictMonoOn.le_iff_le ha hb

theorem toIso_lt_iff {a b : Instant} (ha : InRange a) (hb : InRange b) :
    toIso a < toIso b ↔ a < b :=
  isoText_strictMonoOn.lt_iff_lt ha hb

theorem fromIso_toIso {t : Instant} (h : InRange t) : fromIso (toIso t) = .ok (some t) := by
  unfold fromIso
  rw [if_neg (toIso_ne_empty h)]
  unfold toIso
  rw [fromisoformat_isoText h]

/-! ### Relationships -/

namespace GraphEdge

/-- Both ends of the edge can be written as texts. -/
def InRange (e : GraphEdge) : Prop :=
  PyDateTime.InRange e.validFrom ∧ ∀ t ∈ e.validTo, PyDateTime.InRange t

theorem InRange.endKey {e : GraphEdge} (h : e.InRange) (k : EdgeKey) {t : Instant}
    (ht : PyDateTime.InRange t) : (GraphEdge.endKey k t e).InRange := by
  unfold GraphEdge.endKey
  split
  · refine ⟨h.1, fun u hu => ?_⟩
    cases Option.some.inj hu
    cases hv : e.validTo with
    | none => exact ht
    | some v => exact h.2 v hv
  · exact h

end GraphEdge

namespace Neo4jEdge

theorem ofEdge_key (e : GraphEdge) : (ofEdge e).key = e.key := rfl

/-- A relationship is open iff its edge is. -/
theorem ofEdge_isOpen {e : GraphEdge} (h : e.InRange) :
    (ofEdge e).isOpen = decide (e.validTo = none) := by
  unfold isOpen ofEdge
  cases hv : e.validTo with
  | none => rfl
  | some t =>
    have hne := toIso_ne_empty (h.2 t hv)
    simp [hne]

/-- Ending the open version of a key, in both stores. -/
theorem ofEdge_endKey {e : GraphEdge} (h : e.InRange) (k : EdgeKey) (t : Instant) :
    (ofEdge e).endKey k (toIso t) = ofEdge (e.endKey k t) := by
  unfold Neo4jEdge.endKey GraphEdge.endKey
  rw [ofEdge_key, ofEdge_isOpen h]
  by_cases hk : e.key = k
  · rw [if_pos hk]
    by_cases hopen : e.validTo = none
    · rw [if_pos ⟨hk, decide_eq_true hopen⟩, GraphEdge.endedAt_of_open hopen]
      rfl
    · rw [if_neg fun h => hopen (of_decide_eq_true h.2), GraphEdge.endedAt_of_closed hopen]
  · rw [if_neg fun h => hk h.1, if_neg hk]

theorem map_ofEdge_endKey {edges : List GraphEdge} (h : ∀ e ∈ edges, e.InRange) (k : EdgeKey)
    (t : Instant) :
    (edges.map ofEdge).map (Neo4jEdge.endKey k (toIso t)) =
      (edges.map (GraphEdge.endKey k t)).map ofEdge := by
  rw [List.map_map, List.map_map]
  exact List.map_congr_left fun e he => ofEdge_endKey (h e he) k t

/-- A relationship is valid at a time iff its edge is. -/
theorem ofEdge_valid {e : GraphEdge} (h : e.InRange) {at_ : Instant} (hat : PyDateTime.InRange at_) :
    (decide ((ofEdge e).validFromIso ≤ toIso at_) &&
      ((ofEdge e).isOpen || decide (toIso at_ < (ofEdge e).validToIso))) =
        decide (e.span.Mem at_) := by
  rw [Bool.eq_iff_iff, Bool.and_eq_true, Bool.or_eq_true, decide_eq_true_eq, decide_eq_true_eq,
    decide_eq_true_eq, ofEdge_isOpen h]
  unfold Span.Mem GraphEdge.span ofEdge
  dsimp only
  rw [toIso_le_iff h.1 hat, decide_eq_true_eq]
  refine and_congr_right fun _ => ?_
  cases hv : e.validTo with
  | none => simp
  | some t =>
    dsimp only
    rw [toIso_lt_iff hat (h.2 t hv)]
    simp

end Neo4jEdge

theorem deserializeEdge_ofEdge {e : GraphEdge} (h : e.InRange) (now : Instant) :
    Neo4jGraphStore.deserializeEdge (Neo4jEdge.ofEdge e) now = .ok e.readBack := by
  unfold Neo4jGraphStore.deserializeEdge
  have hfrom : fromIso (Neo4jEdge.ofEdge e).validFromIso = .ok (some e.validFrom) :=
    fromIso_toIso h.1
  have hto : fromIso (Neo4jEdge.ofEdge e).validToIso = .ok e.validTo := by
    unfold Neo4jEdge.ofEdge
    cases hv : e.validTo with
    | none => rfl
    | some t => exact fromIso_toIso (h.2 t hv)
  rw [hfrom, hto]
  have href : (if (Neo4jEdge.ofEdge e).explanationRef = "" then none
      else some (Neo4jEdge.ofEdge e).explanationRef) = e.readBack.explanationRef := by
    unfold Neo4jEdge.ofEdge GraphEdge.readBack
    cases hr : e.explanationRef with
    | none => rfl
    | some ref => by_cases hempty : ref = "" <;> simp [hempty]
  change Except.ok { e with
    explanationRef := if (Neo4jEdge.ofEdge e).explanationRef = "" then none
      else some (Neo4jEdge.ofEdge e).explanationRef } = _
  rw [href]
  rfl

/-- A query for relationships, from the edges: those that are valid, by the texts of their starts,
as they are read back. -/
theorem Neo4jGraphStore.edgesAt_sorted {s : Neo4jGraphStore} {edges : List GraphEdge}
    (hedges : s.edges = edges.map Neo4jEdge.ofEdge) (hrange : ∀ e ∈ edges, e.InRange)
    {endpoint : Neo4jEdge → String} {endpoint' : GraphEdge → String}
    (hend : ∀ e, endpoint (Neo4jEdge.ofEdge e) = endpoint' e) (nodeId : String) {at_ : Instant}
    (hat : InRange at_) (now : Instant) :
    s.edgesAt endpoint nodeId at_ now =
      .ok (((edges.filter fun e =>
        decide (endpoint' e = nodeId) && decide (e.span.Mem at_)).mergeSort
          fun a b => decide (toIso a.validFrom ≤ toIso b.validFrom)).map GraphEdge.readBack) := by
  unfold Neo4jGraphStore.edgesAt
  rw [hedges, List.filter_map]
  have hfilter : (edges.filter ((fun e => decide (endpoint e = nodeId) &&
      (decide (e.validFromIso ≤ toIso at_) &&
        (e.isOpen || decide (toIso at_ < e.validToIso)))) ∘ Neo4jEdge.ofEdge)) =
      edges.filter fun e => decide (endpoint' e = nodeId) && decide (e.span.Mem at_) := by
    refine List.filter_congr fun e he => ?_
    rw [Function.comp_apply, hend, Neo4jEdge.ofEdge_valid (hrange e he) hat]
  have hsort : ∀ found : List GraphEdge, (found.map Neo4jEdge.ofEdge).mergeSort
      (fun a b => decide (a.validFromIso ≤ b.validFromIso)) =
        (found.mergeSort fun a b => decide (toIso a.validFrom ≤ toIso b.validFrom)).map
          Neo4jEdge.ofEdge := by
    intro found
    symm
    apply List.map_mergeSort
    intro _ _ _ _
    rfl
  rw [hfilter, hsort, List.mapM_map]
  have hread : ∀ e ∈ (edges.filter fun e => decide (endpoint' e = nodeId) &&
      decide (e.span.Mem at_)).mergeSort
        (fun a b => decide (toIso a.validFrom ≤ toIso b.validFrom)),
      ∃ found, deserializeEdge (Neo4jEdge.ofEdge e) now = .ok found ∧ id found = e.readBack := by
    intro e he
    have hmem := (List.mergeSort_perm _ _).mem_iff.mp he
    exact ⟨_, deserializeEdge_ofEdge (hrange e (List.mem_of_mem_filter hmem)) now, rfl⟩
  obtain ⟨found, hfound, hmap⟩ := Except.mapM_returns hread
  rw [List.map_id] at hmap
  rw [← hmap]
  exact hfound

/-- **A query for relationships finds what the edges show**, in another order. -/
theorem Neo4jGraphStore.edgesAt_eq {s : Neo4jGraphStore} {edges : List GraphEdge}
    (hedges : s.edges = edges.map Neo4jEdge.ofEdge) (hrange : ∀ e ∈ edges, e.InRange)
    {endpoint : Neo4jEdge → String} {endpoint' : GraphEdge → String}
    (hend : ∀ e, endpoint (Neo4jEdge.ofEdge e) = endpoint' e) (nodeId : String) {at_ : Instant}
    (hat : InRange at_) (now : Instant) :
    ∃ found, s.edgesAt endpoint nodeId at_ now = .ok found ∧
      found.Perm ((edges.filter fun e =>
        decide (endpoint' e = nodeId) && decide (e.span.Mem at_)).map GraphEdge.readBack) :=
  ⟨_, edgesAt_sorted hedges hrange hend nodeId hat now, (List.mergeSort_perm _ _).map _⟩

/-! ### Nodes -/

/-- The two timestamps can be read. -/
def Neo4jNode.Readable (record : Neo4jNode) : Prop :=
  (∃ t, InRange t ∧ record.createdAtIso = toIso t) ∧ ∃ t, InRange t ∧ record.updatedAtIso = toIso t

/-- What `get_node` shows of a node, but for the two timestamps. -/
def Neo4jNode.content (record : Neo4jNode) : NodeContent where
  nodeId := record.nodeId
  nodeType := record.nodeType
  label := if record.label = "" then record.nodeId else record.label
  properties := record.properties
  tenantId := record.tenantId

theorem deserializeNode_content {record : Neo4jNode} (h : record.Readable) (now : Instant) :
    ∃ node, Neo4jGraphStore.deserializeNode record now = .ok node ∧
      node.content = record.content := by
  obtain ⟨⟨created, hcreated, hc⟩, updated, hupdated, hu⟩ := h
  unfold Neo4jGraphStore.deserializeNode
  rw [hc, hu, fromIso_toIso hcreated, fromIso_toIso hupdated]
  exact ⟨_, rfl, rfl⟩

namespace Neo4jGraphStore

theorem get?_mergeNode (nodes : PyDict String Neo4jNode) (nodeId : String) (now : Instant)
    (id : String) : (mergeNode nodes nodeId now).get? id =
      (nodes.get? id).or (if id = nodeId then some (inferredNode nodeId now) else none) := by
  unfold mergeNode
  cases h : nodes.get? nodeId with
  | some record =>
    by_cases hid : id = nodeId
    · rw [hid, h]
      rfl
    · rw [if_neg hid, Option.or_none]
  | none =>
    dsimp only
    rw [PyDict.get?_set]
    by_cases hid : id = nodeId
    · rw [if_pos hid, hid, h, if_pos rfl, Option.none_or]
    · rw [if_neg hid, if_neg hid, Option.or_none]

/-- The nodes after `add_edge`. -/
theorem get?_addEdge_nodes (s : Neo4jGraphStore) (edge : GraphEdge) (now created : Instant)
    (id : String) : (s.addEdge edge now created).nodes.get? id =
      (s.nodes.get? id).or
        (if id = edge.fromId ∨ id = edge.toId then some (inferredNode id created) else none) := by
  unfold addEdge
  rw [get?_mergeNode, get?_mergeNode, Option.or_assoc]
  congr 1
  by_cases hfrom : id = edge.fromId
  · rw [if_pos hfrom, if_pos (Or.inl hfrom), hfrom]
    rfl
  · rw [if_neg hfrom, Option.none_or]
    by_cases hto : id = edge.toId
    · rw [if_pos hto, if_pos (Or.inr hto), hto]
    · rw [if_neg hto, if_neg fun h => h.elim hfrom hto]

theorem inferredNode_content (nodeId : String) (now : Instant) :
    (inferredNode nodeId now).content = inferredContent nodeId := by
  unfold inferredNode Neo4jNode.content inferredContent
  dsimp only

theorem inferredNode_readable (nodeId : String) {now : Instant} (h : InRange now) :
    (inferredNode nodeId now).Readable := by
  unfold inferredNode Neo4jNode.Readable
  exact ⟨⟨now, h, rfl⟩, ⟨now, h, rfl⟩⟩

/-- Everything `upsert_node` does, when the properties can be written. -/
theorem upsertNode_spec (s : Neo4jGraphStore) {node : GraphNode} {now : Instant}
    (hnow : InRange now) (hcreated : InRange node.createdAt)
    (hjson : (jsonCopyDict node.properties).isSome = true)
    (hs : ∀ id record, s.nodes.get? id = some record → record.Readable) :
    ∃ record, s.upsertNode node now = .ok { s with nodes := s.nodes.set node.nodeId record } ∧
      record.content = node.stored ∧ record.Readable := by
  obtain ⟨properties, hproperties⟩ := Option.isSome_iff_exists.mp hjson
  unfold upsertNode
  simp only [hproperties]
  refine ⟨_, rfl, ?_, ?_, ⟨now, hnow, rfl⟩⟩
  · unfold Neo4jNode.content GraphNode.stored
    rw [hproperties]
    dsimp only [Option.getD_some]
  · cases hid : s.nodes.get? node.nodeId with
    | some existing => exact (hs node.nodeId existing hid).1
    | none => exact ⟨node.createdAt, hcreated, rfl⟩

/-- The open relationships of a key are the open edges of it. -/
theorem countP_open {memory : InMemoryGraphStore} (hrange : ∀ e ∈ memory.edges, e.InRange)
    (k : EdgeKey) :
    (memory.edges.map Neo4jEdge.ofEdge).countP (fun e => e.key = k && e.isOpen) =
      memory.openKeys.count k := by
  unfold InMemoryGraphStore.openKeys List.count
  rw [List.countP_map, List.countP_map, List.countP_filter]
  refine List.countP_congr fun e he => ?_
  rw [Function.comp_apply, Function.comp_apply, Neo4jEdge.ofEdge_key,
    Neo4jEdge.ofEdge_isOpen (hrange e he), Bool.and_eq_true, Bool.and_eq_true, beq_iff_eq,
    decide_eq_true_iff]

/-- What `add_edge` does to the relationships: one row, since no key has two open ones. -/
theorem addEdge_edges {s : Neo4jGraphStore} {memory : InMemoryGraphStore}
    (hindexed : memory.WellIndexed) (hrange : ∀ e ∈ memory.edges, e.InRange)
    (hedges : s.edges = memory.edges.map Neo4jEdge.ofEdge) (edge : GraphEdge)
    (now created : Instant) :
    (s.addEdge edge now created).edges =
      (memory.addEdge edge now).edges.map Neo4jEdge.ofEdge := by
  have hrows : openRows s.edges edge.key = 1 := by
    unfold openRows
    rw [hedges, countP_open hrange]
    exact max_eq_left (List.nodup_iff_count_le_one.mp hindexed.openKeys_nodup edge.key)
  unfold addEdge
  rw [hrows, hindexed.addEdge_edges, hedges, Neo4jEdge.map_ofEdge_endKey hrange, List.map_append]
  rfl

/-- What `close_edge` does to the relationships, and what it returns. -/
theorem closeEdge_spec {s : Neo4jGraphStore} {memory : InMemoryGraphStore}
    (hindexed : memory.WellIndexed) (hrange : ∀ e ∈ memory.edges, e.InRange)
    (hedges : s.edges = memory.edges.map Neo4jEdge.ofEdge) (edgeType : EdgeType)
    (fromId toId : String) (validTo : Option Instant) (now : Instant) :
    (s.closeEdge edgeType fromId toId validTo now).1 =
        (memory.closeEdge edgeType fromId toId validTo now).1 ∧
      (s.closeEdge edgeType fromId toId validTo now).2.edges =
        (memory.closeEdge edgeType fromId toId validTo now).2.edges.map Neo4jEdge.ofEdge := by
  unfold closeEdge
  dsimp only
  rw [hindexed.closeEdge_result, hindexed.closeEdge_edges, hedges, countP_open hrange,
    Neo4jEdge.map_ofEdge_endKey hrange]
  exact ⟨decide_eq_decide.mpr List.count_pos_iff, rfl⟩

end Neo4jGraphStore

/-! ### The simulation -/

namespace Backends
open InMemoryGraphStore

/-- Neo4j holds what the memory holds, and the endpoints that memory has no node for. -/
structure Sim (b : Backends) : Prop where
  indexed : b.memory.WellIndexed
  typed : b.memory.WellTyped
  inRange : ∀ e ∈ b.memory.edges, e.InRange
  edges : b.neo4j.edges = b.memory.edges.map Neo4jEdge.ofEdge
  nodes : ∀ id, (b.neo4j.nodes.get? id).map Neo4jNode.content = b.memory.shown id
  readable : ∀ id record, b.neo4j.nodes.get? id = some record → record.Readable
  closed : b.neo4jClosed = b.memoryClosed

theorem sim_empty : Sim {} where
  indexed := wellIndexed_empty
  typed := wellTyped_empty
  inRange := List.forall_mem_nil _
  edges := rfl
  nodes := fun _ => rfl
  readable := fun _ _ h => by cases h
  closed := rfl

variable {b : Backends}

theorem upserted_stored (s : InMemoryGraphStore) (node : GraphNode) (now : Instant) :
    (s.upserted node now).stored = node.stored := by
  unfold upserted
  split <;> rfl

theorem shown_upsertNode (s : InMemoryGraphStore) (node : GraphNode) (now : Instant) (id : String) :
    (s.upsertNode node now).shown id = if id = node.nodeId then some node.stored else s.shown id := by
  unfold shown
  rw [upsertNode_nodes, PyDict.get?_set]
  by_cases hid : id = node.nodeId
  · rw [if_pos hid, if_pos hid, ← upserted_stored s node now]
  · rw [if_neg hid, if_neg hid]
    rfl

/-- Ending versions moves no endpoint. -/
theorem endpoints_map_endKey (edges : List GraphEdge) (k : EdgeKey) (t : Instant) :
    (edges.map (GraphEdge.endKey k t)).flatMap (fun e => [e.fromId, e.toId]) =
      edges.flatMap fun e => [e.fromId, e.toId] := by
  rw [List.flatMap_map]
  refine List.flatMap_congr fun e _ => ?_
  rw [endKey_fromId, endKey_toId]

theorem shown_addEdge {s : InMemoryGraphStore} (hs : s.WellIndexed) (edge : GraphEdge)
    (now : Instant) (id : String) :
    (s.addEdge edge now).shown id = (s.shown id).or
      (if id = edge.fromId ∨ id = edge.toId then some (inferredContent id) else none) := by
  have hends : (s.addEdge edge now).endpoints = s.endpoints ++ [edge.fromId, edge.toId] := by
    unfold endpoints
    rw [hs.addEdge_edges, List.flatMap_append, endpoints_map_endKey]
    rfl
  unfold shown
  rw [hends]
  change (match s.nodes.get? id with | some node => _ | none => _) = _
  cases s.nodes.get? id with
  | some node => rfl
  | none =>
    dsimp only
    by_cases hmem : id ∈ s.endpoints
    · rw [if_pos (List.mem_append_left _ hmem), if_pos hmem]
      rfl
    · simp [hmem]

theorem shown_closeEdge {s : InMemoryGraphStore} (hs : s.WellIndexed) (edgeType : EdgeType)
    (fromId toId : String) (validTo : Option Instant) (now : Instant) (id : String) :
    (s.closeEdge edgeType fromId toId validTo now).2.shown id = s.shown id := by
  obtain ⟨hedges, hnodes, -⟩ :=
    hs.closeEdge_spec (rfl : (s.closeEdge edgeType fromId toId validTo now).2 = _)
  unfold shown endpoints
  rw [hedges, hnodes, endpoints_map_endKey]

theorem Sim.upsertNode (h : Sim b) {node : GraphNode} {now : Instant}
    (hcall : (GraphCall.upsertNode node now).Representable) :
    Sim (b.step (.upsertNode node now)) := by
  obtain ⟨hcreated, hnow, hjson⟩ := hcall
  obtain ⟨record, hok, hcontent, hreadable⟩ :=
    b.neo4j.upsertNode_spec hnow hcreated hjson h.readable
  have hneo4j : (b.step (.upsertNode node now)).neo4j =
      { b.neo4j with nodes := b.neo4j.nodes.set node.nodeId record } := by
    change (match b.neo4j.upsertNode node now with | .ok neo4j => neo4j | .error _ => b.neo4j) = _
    rw [hok]
  constructor
  case indexed => exact h.indexed.upsertNode node now
  case typed => exact h.typed.upsertNode node now
  case inRange => exact h.inRange
  case edges =>
    rw [hneo4j]
    exact h.edges
  case nodes =>
    intro id
    change _ = (b.memory.upsertNode node now).shown id
    rw [hneo4j, shown_upsertNode, PyDict.get?_set]
    by_cases hid : id = node.nodeId
    · rw [if_pos hid, if_pos hid, Option.map_some, hcontent]
    · rw [if_neg hid, if_neg hid]
      exact h.nodes id
  case readable =>
    intro id found hfound
    rw [hneo4j, PyDict.get?_set] at hfound
    split at hfound
    · obtain rfl := Option.some.inj hfound
      exact hreadable
    · exact h.readable id found hfound
  case closed => exact h.closed

theorem Sim.addEdge (h : Sim b) {edge : GraphEdge} {now created : Instant}
    (hcall : (GraphCall.addEdge edge now created).Representable) :
    Sim (b.step (.addEdge edge now created)) := by
  obtain ⟨hfrom, hto, hnow, hcreated⟩ := hcall
  constructor
  case indexed => exact h.indexed.addEdge edge now
  case typed => exact h.typed.addEdge edge now
  case inRange =>
    change ∀ e ∈ (b.memory.addEdge edge now).edges, e.InRange
    rw [h.indexed.addEdge_edges]
    intro e he
    rcases List.mem_append.mp he with hold | hnew
    · obtain ⟨e₀, he₀, rfl⟩ := List.mem_map.mp hold
      exact (h.inRange e₀ he₀).endKey edge.key hnow
    · rw [List.mem_singleton.mp hnew]
      exact ⟨hfrom, hto⟩
  case edges =>
    exact Neo4jGraphStore.addEdge_edges h.indexed h.inRange h.edges edge now created
  case nodes =>
    intro id
    change ((b.neo4j.addEdge edge now created).nodes.get? id).map _ =
      (b.memory.addEdge edge now).shown id
    rw [Neo4jGraphStore.get?_addEdge_nodes, shown_addEdge h.indexed, Option.map_or, h.nodes]
    congr 1
    split
    · rw [Option.map_some, Neo4jGraphStore.inferredNode_content]
    · rfl
  case readable =>
    intro id found hfound
    change (b.neo4j.addEdge edge now created).nodes.get? id = some found at hfound
    rw [Neo4jGraphStore.get?_addEdge_nodes, Option.or_eq_some_iff] at hfound
    rcases hfound with hold | ⟨-, hnew⟩
    · exact h.readable id found hold
    · split at hnew
      · obtain rfl := Option.some.inj hnew
        exact Neo4jGraphStore.inferredNode_readable id hcreated
      · cases hnew
  case closed => exact h.closed

theorem Sim.closeEdge (h : Sim b) {edgeType : EdgeType} {fromId toId : String}
    {validTo : Option Instant} {now : Instant}
    (hcall : (GraphCall.closeEdge edgeType fromId toId validTo now).Representable) :
    Sim (b.step (.closeEdge edgeType fromId toId validTo now)) := by
  obtain ⟨hto, hnow⟩ := hcall
  obtain ⟨hresult, hedges⟩ :=
    Neo4jGraphStore.closeEdge_spec h.indexed h.inRange h.edges edgeType fromId toId validTo now
  have hat : InRange (validTo.getD now) := by
    cases validTo with
    | none => exact hnow
    | some t => exact hto t rfl
  constructor
  case indexed => exact h.indexed.closeEdge edgeType fromId toId validTo now
  case typed => exact h.typed.closeEdge edgeType fromId toId validTo now
  case inRange =>
    change ∀ e ∈ (b.memory.closeEdge edgeType fromId toId validTo now).2.edges, e.InRange
    rw [h.indexed.closeEdge_edges]
    intro e he
    obtain ⟨e₀, he₀, rfl⟩ := List.mem_map.mp he
    exact (h.inRange e₀ he₀).endKey _ hat
  case edges => exact hedges
  case nodes =>
    intro id
    change _ = (b.memory.closeEdge edgeType fromId toId validTo now).2.shown id
    rw [shown_closeEdge h.indexed]
    exact h.nodes id
  case readable => exact h.readable
  case closed =>
    change b.neo4jClosed ++ [_] = b.memoryClosed ++ [_]
    rw [h.closed, hresult]

/-- **One call**: both stores stay in step. -/
theorem Sim.step (h : Sim b) {c : GraphCall} (hc : c.Representable) : Sim (b.step c) := by
  cases c with
  | upsertNode node now => exact h.upsertNode hc
  | addEdge edge now created => exact h.addEdge hc
  | closeEdge edgeType fromId toId validTo now => exact h.closeEdge hc
  | clear =>
    constructor
    case closed => exact h.closed
    case indexed => exact sim_empty.indexed
    case typed => exact sim_empty.typed
    case inRange => exact sim_empty.inRange
    case edges => exact sim_empty.edges
    case nodes => exact sim_empty.nodes
    case readable => exact sim_empty.readable

/-! ### What the simulation shows -/

/-- **Neo4j shows what the memory holds**, and the endpoints that were never upserted. -/
structure Mirrors (b : Backends) : Prop where
  closed : b.neo4jClosed = b.memoryClosed
  node : ∀ nodeId now,
    (b.neo4j.getNode nodeId now).map (Option.map GraphNode.content) = .ok (b.memory.shown nodeId)
  byType : ∀ nodeType now, ∃ nodes, b.neo4j.getNodesByType nodeType now = .ok nodes ∧
    ∀ c, c ∈ nodes.map GraphNode.content ↔
      c ∈ (b.memory.getNodesByType nodeType).map GraphNode.stored ∨
        ∃ nodeId ∈ b.memory.strangers, inferNodeType nodeId = nodeType ∧ inferredContent nodeId = c
  edgesFrom : ∀ nodeId at_ now, InRange at_ → ∃ edges,
    b.neo4j.getEdgesFrom nodeId (some at_) now = .ok edges ∧
      edges.Perm ((b.memory.getEdgesFrom nodeId (some at_) now).map GraphEdge.readBack)
  edgesTo : ∀ nodeId at_ now, InRange at_ → ∃ edges,
    b.neo4j.getEdgesTo nodeId (some at_) now = .ok edges ∧
      edges.Perm ((b.memory.getEdgesTo nodeId (some at_) now).map GraphEdge.readBack)
  totalNodes : b.neo4j.getStats.lookup "total_nodes" =
    (b.memory.getStats.lookup "total_nodes").map (· + (b.memory.strangers.length : Int))
  totalEdges : b.neo4j.getStats.lookup "total_edges" = b.memory.getStats.lookup "total_edges"

/-- The two counters of open and ended edges. -/
structure SameActive (b : Backends) : Prop where
  active : b.neo4j.getStats.lookup "active_edges" = b.memory.getStats.lookup "active_edges"
  historical :
    b.neo4j.getStats.lookup "historical_edges" = b.memory.getStats.lookup "historical_edges"

theorem Sim.getNode (h : Sim b) (nodeId : String) (now : Instant) :
    (b.neo4j.getNode nodeId now).map (Option.map GraphNode.content) =
      .ok (b.memory.shown nodeId) := by
  unfold Neo4jGraphStore.getNode
  rw [← h.nodes]
  cases hget : b.neo4j.nodes.get? nodeId with
  | none => rfl
  | some record =>
    obtain ⟨node, hnode, hcontent⟩ := deserializeNode_content (h.readable nodeId record hget) now
    dsimp only
    rw [hnode, Option.map_some, ← hcontent]
    rfl

/-- The contents that Neo4j has, by the id they are stored under. -/
theorem Sim.mem_records (h : Sim b) {c : NodeContent} :
    (∃ record ∈ b.neo4j.nodes.items.map Prod.snd, record.content = c) ↔
      ∃ id, b.memory.shown id = some c := by
  constructor
  · rintro ⟨record, hmem, rfl⟩
    obtain ⟨id, hid⟩ := PyDict.mem_values_iff.mp hmem
    exact ⟨id, by rw [← h.nodes, hid, Option.map_some]⟩
  · rintro ⟨id, hid⟩
    rw [← h.nodes, Option.map_eq_some_iff] at hid
    obtain ⟨record, hrecord, hcontent⟩ := hid
    exact ⟨record, PyDict.mem_values_iff.mpr ⟨id, hrecord⟩, hcontent⟩

theorem inferredContent_nodeType (nodeId : String) :
    (inferredContent nodeId).nodeType = inferNodeType nodeId := by
  unfold inferredContent
  dsimp only

theorem mem_strangers {s : InMemoryGraphStore} {id : String} :
    id ∈ s.strangers ↔ id ∈ s.endpoints ∧ s.nodes.get? id = none := by
  unfold strangers
  rw [List.mem_filter, List.mem_dedup, Option.isNone_iff_eq_none]

/-- What is shown is a stored node or a stranger. -/
theorem shown_eq_some_iff {s : InMemoryGraphStore} {id : String} {c : NodeContent} :
    s.shown id = some c ↔ (∃ node, s.nodes.get? id = some node ∧ node.stored = c) ∨
      (id ∈ s.strangers ∧ inferredContent id = c) := by
  unfold shown
  rw [mem_strangers]
  cases s.nodes.get? id with
  | some node => simp
  | none => simp

theorem Sim.getNodesByType (h : Sim b) (nodeType : NodeType) (now : Instant) :
    ∃ nodes, b.neo4j.getNodesByType nodeType now = .ok nodes ∧
      ∀ c, c ∈ nodes.map GraphNode.content ↔
        c ∈ (b.memory.getNodesByType nodeType).map GraphNode.stored ∨
          ∃ nodeId ∈ b.memory.strangers,
            inferNodeType nodeId = nodeType ∧ inferredContent nodeId = c := by
  unfold Neo4jGraphStore.getNodesByType
  have hperm := List.mergeSort_perm
    ((b.neo4j.nodes.items.map Prod.snd).filter fun n => n.nodeType = nodeType)
    fun a b => decide (a.nodeId ≤ b.nodeId)
  obtain ⟨nodes, hnodes, hmap⟩ := Except.mapM_returns fun record hrecord =>
    deserializeNode_content (by
      have hmem := (List.mem_filter.mp (hperm.mem_iff.mp hrecord)).1
      obtain ⟨id, hid⟩ := PyDict.mem_values_iff.mp hmem
      exact h.readable id record hid) now
  refine ⟨nodes, hnodes, fun c => ?_⟩
  rw [hmap, (hperm.map _).mem_iff]
  constructor
  · intro hc
    obtain ⟨record, hrecord, rfl⟩ := List.mem_map.mp hc
    obtain ⟨hmem, htype⟩ := List.mem_filter.mp hrecord
    obtain ⟨id, hid⟩ := h.mem_records.mp ⟨record, hmem, rfl⟩
    rcases shown_eq_some_iff.mp hid with ⟨node, hnode, hstored⟩ | ⟨hstranger, hinferred⟩
    · left
      have hnodeType : node.nodeType = record.nodeType := congrArg NodeContent.nodeType hstored
      refine List.mem_map.mpr ⟨node, h.typed.mem_getNodesByType.mpr ⟨?_, ?_⟩, hstored⟩
      · rw [h.typed.named hnode, hnode]
      · rw [hnodeType, of_decide_eq_true htype]
    · right
      have hnodeType := congrArg NodeContent.nodeType hinferred
      rw [inferredContent_nodeType] at hnodeType
      exact ⟨id, hstranger, hnodeType.trans (of_decide_eq_true htype), hinferred⟩
  · intro hc
    obtain ⟨⟨id, hid⟩, htype⟩ : (∃ id, b.memory.shown id = some c) ∧ c.nodeType = nodeType := by
      rcases hc with hstored | ⟨id, hstranger, htype, hinferred⟩
      · obtain ⟨node, hnode, rfl⟩ := List.mem_map.mp hstored
        obtain ⟨hget, htype⟩ := h.typed.mem_getNodesByType.mp hnode
        exact ⟨⟨node.nodeId, shown_eq_some_iff.mpr (.inl ⟨node, hget, rfl⟩)⟩, htype⟩
      · refine ⟨⟨id, shown_eq_some_iff.mpr (.inr ⟨hstranger, hinferred⟩)⟩, ?_⟩
        rw [← hinferred, inferredContent_nodeType, htype]
    obtain ⟨record, hmem, rfl⟩ := h.mem_records.mpr ⟨id, hid⟩
    exact List.mem_map.mpr ⟨record, List.mem_filter.mpr ⟨hmem, decide_eq_true htype⟩, rfl⟩

/-- Neo4j has a node for every id that memory has one for, and for every stranger. -/
theorem Sim.keys_perm (h : Sim b) :
    b.neo4j.nodes.keys.Perm (b.memory.nodes.keys ++ b.memory.strangers) := by
  have hstrangers : b.memory.strangers.Nodup := (List.nodup_dedup _).filter _
  have happ : (b.memory.nodes.keys ++ b.memory.strangers).Nodup := by
    refine List.nodup_append.mpr ⟨b.memory.nodes.nodup, hstrangers, ?_⟩
    rintro id hkey id' hstranger rfl
    rw [PyDict.mem_keys_iff, (mem_strangers.mp hstranger).2] at hkey
    cases hkey
  refine (List.perm_ext_iff_of_nodup b.neo4j.nodes.nodup happ).mpr fun id => ?_
  change id ∈ b.neo4j.nodes.keys ↔ _
  have hshown : (b.neo4j.nodes.get? id).isSome = (b.memory.shown id).isSome := by
    rw [← h.nodes, Option.isSome_map]
  rw [PyDict.mem_keys_iff, hshown, List.mem_append, PyDict.mem_keys_iff, mem_strangers]
  unfold shown
  cases b.memory.nodes.get? id with
  | some node => simp
  | none => by_cases hmem : id ∈ b.memory.endpoints <;> simp [hmem]

theorem Sim.totalNodes (h : Sim b) :
    b.neo4j.nodes.size = b.memory.nodes.size + b.memory.strangers.length := by
  have hlength := h.keys_perm.length_eq
  unfold PyDict.keys at hlength
  rwa [List.length_append, List.length_map, List.length_map] at hlength

theorem Sim.mirrors (h : Sim b) : Mirrors b where
  closed := h.closed
  node := h.getNode
  byType := h.getNodesByType
  edgesFrom := by
    intro nodeId at_ now hat
    rw [h.indexed.getEdgesFrom_eq]
    exact Neo4jGraphStore.edgesAt_eq h.edges h.inRange (fun _ => rfl) nodeId hat now
  edgesTo := by
    intro nodeId at_ now hat
    rw [h.indexed.getEdgesTo_eq]
    exact Neo4jGraphStore.edgesAt_eq h.edges h.inRange (fun _ => rfl) nodeId hat now
  totalNodes := by
    change some (b.neo4j.nodes.size : Int) = some ((b.memory.nodes.size : Int) + _)
    rw [h.totalNodes, Int.natCast_add]
  totalEdges := by
    change some (b.neo4j.edges.length : Int) = some (b.memory.edges.length : Int)
    rw [h.edges, List.length_map]

/-! ### Active edges

In memory, the active edges are the entries of an index, which an edge that is added with
an end enters too. -/

/-- Every entry of the index is of a key with an open version. -/
def Live (s : InMemoryGraphStore) : Prop :=
  ∀ k, (s.activeEdgeIndex.get? k).isSome = true → k ∈ s.openKeys

theorem mem_openKeys_endKey {edges : List GraphEdge} {k k' : EdgeKey} {t : Instant} (hne : k' ≠ k)
    (h : ∃ e ∈ edges, e.validTo = none ∧ e.key = k') :
    ∃ e ∈ edges.map (GraphEdge.endKey k t), e.validTo = none ∧ e.key = k' := by
  obtain ⟨e, he, hopen, hkey⟩ := h
  have hsame : GraphEdge.endKey k t e = e := if_neg fun heq => hne (hkey.symm.trans heq)
  exact ⟨e, List.mem_map.mpr ⟨e, he, hsame⟩, hopen, hkey⟩

theorem Live.addEdge {s : InMemoryGraphStore} (hs : s.WellIndexed) (h : Live s) {edge : GraphEdge}
    (hopen : edge.validTo = none) (now : Instant) : Live (s.addEdge edge now) := by
  intro k hk
  rw [mem_openKeys, hs.addEdge_edges]
  by_cases hkey : k = edge.key
  · exact ⟨edge, List.mem_append_right _ (List.mem_singleton_self _), hopen, hkey.symm⟩
  · change ((s.activeEdgeIndex.set edge.key _).get? k).isSome = true at hk
    rw [PyDict.get?_set, if_neg hkey] at hk
    obtain ⟨e, he, hrest⟩ := mem_openKeys_endKey hkey (mem_openKeys.mp (h k hk))
    exact ⟨e, List.mem_append_left _ he, hrest⟩

theorem Live.closeEdge {s : InMemoryGraphStore} (hs : s.WellIndexed) (h : Live s)
    (edgeType : EdgeType) (fromId toId : String) (validTo : Option Instant) (now : Instant) :
    Live (s.closeEdge edgeType fromId toId validTo now).2 := by
  obtain ⟨hedges, -, -, -, hactive⟩ :=
    hs.closeEdge_spec (rfl : (s.closeEdge edgeType fromId toId validTo now).2 = _)
  intro k hk
  rw [hactive] at hk
  split at hk
  · cases hk
  · rename_i hkey
    rw [mem_openKeys, hedges]
    exact mem_openKeys_endKey hkey (mem_openKeys.mp (h k hk))

theorem Live.step (h : Sim b) (hlive : Live b.memory) {c : GraphCall} (hc : c.AddsOpen) :
    Live (b.step c).memory := by
  cases c with
  | upsertNode node now => exact hlive
  | addEdge edge now created => exact hlive.addEdge h.indexed hc now
  | closeEdge edgeType fromId toId validTo now =>
    exact hlive.closeEdge h.indexed edgeType fromId toId validTo now
  | clear => exact fun k hk => by cases hk

theorem Live.size_eq {s : InMemoryGraphStore} (hs : s.WellIndexed) (h : Live s) :
    s.activeEdgeIndex.size = s.openKeys.length := by
  have hperm : s.activeEdgeIndex.keys.Perm s.openKeys := by
    refine (List.perm_ext_iff_of_nodup s.activeEdgeIndex.nodup hs.openKeys_nodup).mpr fun k => ?_
    change k ∈ s.activeEdgeIndex.keys ↔ _
    rw [PyDict.mem_keys_iff]
    refine ⟨h k, fun hk => ?_⟩
    obtain ⟨e, he, hopen, rfl⟩ := mem_openKeys.mp hk
    obtain ⟨i, hi⟩ := List.getElem?_of_mem he
    rw [hs.open_active i e hi hopen]
    rfl
  have hlength := hperm.length_eq
  unfold PyDict.keys at hlength
  rwa [List.length_map] at hlength

theorem Sim.countP_isOpen (h : Sim b) :
    b.neo4j.edges.countP Neo4jEdge.isOpen = b.memory.openKeys.length := by
  rw [h.edges, List.countP_map]
  unfold openKeys
  rw [List.length_map, ← List.countP_eq_length_filter]
  refine List.countP_congr fun e he => ?_
  rw [Function.comp_apply, Neo4jEdge.ofEdge_isOpen (h.inRange e he)]

theorem Sim.sameActive (h : Sim b) (hlive : Live b.memory) : SameActive b := by
  have hsize := hlive.size_eq h.indexed
  have hcount := h.countP_isOpen
  constructor
  · change some (b.neo4j.edges.countP Neo4jEdge.isOpen : Int) =
      some (b.memory.activeEdgeIndex.size : Int)
    rw [hcount, hsize]
  · change some ((b.neo4j.edges.length : Int) - b.neo4j.edges.countP Neo4jEdge.isOpen) =
      some ((b.memory.edges.length : Int) - b.memory.activeEdgeIndex.size)
    rw [hcount, hsize, h.edges, List.length_map]

/-! ### Whole runs -/

theorem sim_exec {calls : List GraphCall} (h : ∀ c ∈ calls, c.Representable) :
    Sim (Run.exec step {} calls) := by
  have hguarded : Run.Guarded step (fun _ c => c.Representable) {} calls :=
    Run.guarded_of_forall h
  exact hguarded.invariant (fun _ _ hs hc => hs.step hc) sim_empty

/-- **After every run of calls whose times and properties can be written**, Neo4j shows
what the memory holds, with the endpoints that were never upserted; and if no edge was
added with an end of its own, both count the same edges as active. -/
theorem mirrors_of_representable (calls : List GraphCall) (h : ∀ c ∈ calls, c.Representable) :
    Mirrors (Run.exec step {} calls) ∧
      ((∀ c ∈ calls, c.AddsOpen) → SameActive (Run.exec step {} calls)) := by
  refine ⟨(sim_exec h).mirrors, fun hopen => (sim_exec h).sameActive ?_⟩
  have hguarded : Run.Guarded step (fun _ c => c.Representable ∧ c.AddsOpen) {} calls :=
    Run.guarded_of_forall fun c hc => ⟨h c hc, hopen c hc⟩
  have hstep : ∀ b (c : GraphCall), Sim b ∧ Live b.memory → c.Representable ∧ c.AddsOpen →
      Sim (b.step c) ∧ Live (b.step c).memory :=
    fun _ _ hs hc => ⟨hs.1.step hc.1, hs.2.step hs.1 hc.2⟩
  have hstart : Sim {} ∧ Live (Backends.memory {}) := ⟨sim_empty, fun _ hk => by cases hk⟩
  exact (hguarded.invariant hstep hstart).2

/-- A person and a team, the first under a label of its own. -/
def person (label : String) (properties : PyDict String PyVal) : GraphNode :=
  { nodeId := "person:ada", nodeType := .person, label, properties, createdAt := 0, updatedAt := 0 }

def team : GraphNode :=
  { nodeId := "team:core", nodeType := .team, label := "core", createdAt := 0, updatedAt := 0 }

/-- The person is in the team from 0 on. -/
def belongs (validTo : Option Instant) (explanationRef : Option String) : GraphEdge :=
  { edgeType := .memberOf, fromId := "person:ada", toId := "team:core", confidence := fullScore,
    weight := fullScore, validFrom := 0, validTo,
    provenance := { source := "hr", method := "R1", createdAt := 0 }, explanationRef }

/-- Both nodes, two versions of the membership, and its end. -/
def joinsAndLeaves : List GraphCall :=
  [.upsertNode (person "Ada" PyDict.empty) 1, .upsertNode team 2, .addEdge (belongs none none) 3 3,
    .addEdge (belongs none (some "x")) 4 4, .closeEdge .memberOf "person:ada" "team:core" none 5]

theorem mirrors_joinsAndLeaves : (∀ c ∈ joinsAndLeaves, c.Representable) ∧
    Mirrors (Run.exec step {} joinsAndLeaves) ∧ SameActive (Run.exec step {} joinsAndLeaves) := by
  have hcalls : ∀ c ∈ joinsAndLeaves, c.Representable := by decide
  have h := mirrors_of_representable joinsAndLeaves hcalls
  exact ⟨hcalls, h.1, h.2 (by decide)⟩

/-! ### Where they do not agree -/

/-- Where both backends agree, the memory holds what Neo4j shows of it. -/
theorem Agree.shown_eq {b : Backends} (h : Agree b) (hs : Sim b) (nodeId : String) :
    b.memory.shown nodeId = (b.memory.getNode nodeId).map GraphNode.content := by
  have hnode := h.node nodeId 0
  rw [hs.getNode] at hnode
  exact Except.ok.inj hnode

/-- A node has its content shown. -/
theorem Agree.stored_eq {b : Backends} (h : Agree b) (hs : Sim b) {nodeId : String}
    {node : GraphNode} (hnode : b.memory.nodes.get? nodeId = some node) :
    node.stored = node.content := by
  have hshown := h.shown_eq hs nodeId
  unfold shown InMemoryGraphStore.getNode at hshown
  rw [hnode] at hshown
  exact Option.some.inj hshown

/-- The edges that are found are the ones that are shown. -/
theorem Agree.readBack_perm {b : Backends} (h : Agree b) (hs : Sim b) (nodeId : String)
    {at_ : Instant} (hat : InRange at_) :
    ((b.memory.getEdgesFrom nodeId (some at_) 0).map GraphEdge.readBack).Perm
      (b.memory.getEdgesFrom nodeId (some at_) 0) := by
  obtain ⟨found, hfound, hperm⟩ := h.edgesFrom nodeId at_ 0 hat
  obtain ⟨shown, hshown, hread⟩ := hs.mirrors.edgesFrom nodeId at_ 0 hat
  obtain rfl := Except.ok.inj (hfound.symm.trans hshown)
  exact hread.symm.trans hperm

/-- The active edges are the open ones. -/
theorem Agree.active_eq {b : Backends} (h : Agree b) (hs : Sim b) :
    b.memory.openKeys.length = b.memory.activeEdgeIndex.size := by
  have hactive := congrArg (List.lookup "active_edges") h.stats
  change some (b.neo4j.edges.countP Neo4jEdge.isOpen : Int) =
    some (b.memory.activeEdgeIndex.size : Int) at hactive
  rw [hs.countP_isOpen] at hactive
  exact Int.ofNat.inj (Option.some.inj hactive)

/-- A run of representable calls after which the backends do not agree. -/
def Disagreement (calls : List GraphCall) : Prop :=
  (∀ c ∈ calls, c.Representable) ∧ ¬ Agree (Run.exec step {} calls)

/-- **Five runs after which they do not agree**, each for a reason of its own: an endpoint
that was never upserted, an empty label, a property that JSON has no type for, an empty
reference, and an edge that has ended before it is added. -/
theorem not_agree :
    Disagreement [.addEdge (belongs none none) 3 3] ∧
    Disagreement [.upsertNode (person "" PyDict.empty) 1] ∧
    Disagreement
      [.upsertNode (person "Ada" (PyDict.empty.set "at" (.datetime ⟨0, some 0⟩))) 1] ∧
    Disagreement [.upsertNode (person "Ada" PyDict.empty) 1, .upsertNode team 2,
      .addEdge (belongs none (some "")) 3 3] ∧
    Disagreement [.upsertNode (person "Ada" PyDict.empty) 1, .upsertNode team 2,
      .addEdge (belongs (some 1) none) 3 3] := by
  refine ⟨⟨by decide, fun h => ?_⟩, ⟨by decide, fun h => ?_⟩, ⟨by decide, fun h => ?_⟩,
    ⟨by decide, fun h => ?_⟩, by decide, fun h => ?_⟩
  · have hshown := h.shown_eq (sim_exec (by decide)) "person:ada"
    have hsome := congrArg Option.isSome hshown
    revert hsome
    decide
  · have hstored := h.stored_eq (sim_exec (by decide)) (rfl :
      PyDict.get? _ "person:ada" = some (person "" PyDict.empty))
    have hlabel := congrArg NodeContent.label hstored
    revert hlabel
    decide
  · have hstored := h.stored_eq (sim_exec (by decide)) (rfl : PyDict.get? _ "person:ada" =
      some (person "Ada" (PyDict.empty.set "at" (.datetime ⟨0, some 0⟩))))
    have hproperty := congrArg (fun c => c.properties.get? "at") hstored
    cases Option.some.inj hproperty
  · have hperm := h.readBack_perm (sim_exec (by decide)) "person:ada" (show InRange 3 by decide)
    have hmem := hperm.mem_iff (a := belongs none (some ""))
    revert hmem
    decide
  · have hactive := h.active_eq (sim_exec (by decide))
    revert hactive
    decide

end Backends
end ComputeIntelligence
