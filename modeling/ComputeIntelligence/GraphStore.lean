import ComputeIntelligence.AttributionIndex
import ComputeIntelligence.TimeSpan
import Mathlib.Data.List.Induction

/-! # The in-memory graph store

`InMemoryGraphStore` (`graph/store.py`) with the nodes and edges of
`models/graph.py`.  Edges are kept in one list, oldest first; three dictionaries
point into it: the positions of the edges out of a node, those into a node, and for
each key `(from_id, to_id, edge_type)` the position of its current version.

Every operation that reads the clock takes the reading as an argument.  The indices
never point outside the list and never disagree with it (`WellIndexed`), so the two
updates and the two queries have a reading that does not mention them:

* `addEdge_edges`: adding an edge ends the open version of its key at the clock
  reading and appends the new one;
* `closeEdge_edges`: closing a key ends its open version, if it has one;
* `getEdgesFrom_eq`, `getEdgesTo_eq`: a query filters the list;
* `openKeys_nodup`, `closeEdge_result`: a key has at most one open version, and closing it
  succeeds when it has one.

The sets of node ids by type describe the nodes in the same way (`WellTyped`).
-/
namespace ComputeIntelligence

/-- `NodeType`. -/
inductive NodeType where
  | model | cloudResource | deployment | repository | person | team | costCenter
  | serviceAccount | apiKey | inferenceEndpoint | equivalenceClass | budget
deriving DecidableEq

/-- `EdgeType`. -/
inductive EdgeType where
  | invokes | deployedOn | deployedBy | ownsCode | memberOf | reportsTo | authenticates
  | resolvedTo | attributedTo | budgetedUnder | classifiedAs | triggers
deriving DecidableEq

/-- `GraphNode`. -/
structure GraphNode where
  nodeId : String
  nodeType : NodeType
  label : String
  properties : PyDict String PyVal := PyDict.empty
  tenantId : String := ""
  createdAt : Instant
  updatedAt : Instant

/-- `EdgeProvenance`. -/
structure EdgeProvenance where
  source : String
  method : String
  signals : List String := []
  createdAt : Instant
deriving DecidableEq

/-- `GraphEdge`: a weighted edge, valid from `validFrom` until `validTo`. -/
structure GraphEdge where
  edgeType : EdgeType
  fromId : String
  toId : String
  confidence : UnitScore
  weight : UnitScore
  validFrom : Instant
  validTo : Option Instant := none
  provenance : EdgeProvenance
  explanationRef : Option String := none
deriving DecidableEq

/-- What identifies the versions of one relationship. -/
abbrev EdgeKey := String × String × EdgeType

namespace GraphEdge

def key (e : GraphEdge) : EdgeKey := (e.fromId, e.toId, e.edgeType)

/-- The window in which the edge is valid. -/
def span (e : GraphEdge) : Span Instant := ⟨e.validFrom, e.validTo⟩

/-- `model_copy(update={"valid_to": t})`. -/
def closeAt (e : GraphEdge) (t : Instant) : GraphEdge := { e with validTo := some t }

/-- The edge, taken to end at `t` if it has no end of its own. -/
def endedAt (e : GraphEdge) (t : Instant) : GraphEdge := { e with validTo := some (e.validTo.getD t) }

/-- The edge after the open version of `k` has been closed at `t`. -/
def endKey (k : EdgeKey) (t : Instant) (e : GraphEdge) : GraphEdge :=
  if e.key = k then e.endedAt t else e

@[simp] theorem endedAt_key (e : GraphEdge) (t : Instant) : (e.endedAt t).key = e.key := rfl

@[simp] theorem endKey_key (k : EdgeKey) (t : Instant) (e : GraphEdge) :
    (endKey k t e).key = e.key := by
  unfold endKey
  split <;> rfl

theorem endedAt_of_open {e : GraphEdge} (h : e.validTo = none) (t : Instant) :
    e.endedAt t = e.closeAt t := by
  simp [endedAt, closeAt, h]

theorem endedAt_of_closed {e : GraphEdge} (h : e.validTo ≠ none) (t : Instant) :
    e.endedAt t = e := by
  obtain ⟨u, hu⟩ := Option.ne_none_iff_exists'.mp h
  cases e
  simp_all [endedAt]

end GraphEdge

/-- `InMemoryGraphStore`.  A set of node ids is a list without repetitions. -/
structure InMemoryGraphStore where
  nodes : PyDict String GraphNode := PyDict.empty
  nodesByType : PyDict NodeType (List String) := PyDict.empty
  edges : List GraphEdge := []
  fromIndex : PyDict String (List Nat) := PyDict.empty
  toIndex : PyDict String (List Nat) := PyDict.empty
  activeEdgeIndex : PyDict EdgeKey Nat := PyDict.empty

namespace InMemoryGraphStore

/-- `clear`. -/
def clear (_ : InMemoryGraphStore) : InMemoryGraphStore := {}

/-- `upsert_node`. -/
def upsertNode (s : InMemoryGraphStore) (node : GraphNode) (now : Instant) : InMemoryGraphStore :=
  let (byType, node) : PyDict NodeType (List String) × GraphNode :=
    match s.nodes.get? node.nodeId with
    | none => (s.nodesByType, node)
    | some existing =>
        (s.nodesByType.set existing.nodeType
            ((s.nodesByType.getD existing.nodeType []).filter (· ≠ existing.nodeId)),
          { node with updatedAt := now })
  let ids := byType.getD node.nodeType []
  { s with
    nodes := s.nodes.set node.nodeId node
    nodesByType := byType.set node.nodeType
      (if node.nodeId ∈ ids then ids else ids ++ [node.nodeId]) }

/-- The edges of `add_edge` once the version it supersedes is closed.  A position
outside the list, which would be an `IndexError`, is never stored. -/
def supersede (s : InMemoryGraphStore) (key : EdgeKey) (now : Instant) : List GraphEdge :=
  match s.activeEdgeIndex.get? key with
  | none => s.edges
  | some existingIdx =>
    match s.edges[existingIdx]? with
    | none => s.edges
    | some existing =>
      if existing.validTo = none then s.edges.set existingIdx (existing.closeAt now) else s.edges

/-- `add_edge`. -/
def addEdge (s : InMemoryGraphStore) (edge : GraphEdge) (now : Instant) : InMemoryGraphStore :=
  let edges := s.supersede edge.key now
  let newIdx := edges.length
  { s with
    edges := edges ++ [edge]
    fromIndex := s.fromIndex.set edge.fromId (s.fromIndex.getD edge.fromId [] ++ [newIdx])
    toIndex := s.toIndex.set edge.toId (s.toIndex.getD edge.toId [] ++ [newIdx])
    activeEdgeIndex := s.activeEdgeIndex.set edge.key newIdx }

/-- `close_edge`. -/
def closeEdge (s : InMemoryGraphStore) (edgeType : EdgeType) (fromId toId : String)
    (validTo : Option Instant) (now : Instant) : Bool × InMemoryGraphStore :=
  let key : EdgeKey := (fromId, toId, edgeType)
  match s.activeEdgeIndex.get? key with
  | none => (false, s)
  | some existingIdx =>
    match s.edges[existingIdx]? with
    | none => (false, s)
    | some existing =>
      if existing.validTo ≠ none then
        (false, { s with activeEdgeIndex := s.activeEdgeIndex.erase key })
      else
        (true, { s with
          edges := s.edges.set existingIdx (existing.closeAt (validTo.getD now))
          activeEdgeIndex := s.activeEdgeIndex.erase key })

/-- `get_node`. -/
def getNode (s : InMemoryGraphStore) (nodeId : String) : Option GraphNode := s.nodes.get? nodeId

/-- `get_nodes_by_type`. -/
def getNodesByType (s : InMemoryGraphStore) (nodeType : NodeType) : List GraphNode :=
  (s.nodesByType.getD nodeType []).filterMap s.nodes.get?

/-- The edges at the positions that `index` lists for a node, valid at an instant:
the loop of both queries. -/
def edgesAt (s : InMemoryGraphStore) (index : PyDict String (List Nat)) (nodeId : String)
    (at_ : Instant) : List GraphEdge :=
  (index.getD nodeId []).filterMap fun idx =>
    s.edges[idx]?.filter fun edge => decide (edge.span.Mem at_)

/-- `get_edges_from`. -/
def getEdgesFrom (s : InMemoryGraphStore) (nodeId : String) (atTime : Option Instant)
    (now : Instant) : List GraphEdge :=
  s.edgesAt s.fromIndex nodeId (atTime.getD now)

/-- `get_edges_to`. -/
def getEdgesTo (s : InMemoryGraphStore) (nodeId : String) (atTime : Option Instant)
    (now : Instant) : List GraphEdge :=
  s.edgesAt s.toIndex nodeId (atTime.getD now)

/-- `get_stats`. -/
def getStats (s : InMemoryGraphStore) : List (String × Int) :=
  [("total_nodes", s.nodes.size), ("total_edges", s.edges.length),
    ("active_edges", s.activeEdgeIndex.size),
    ("historical_edges", (s.edges.length : Int) - s.activeEdgeIndex.size)]

/-! ### The indices agree with the list -/

/-- The positions of the edges with endpoint `n`, ascending. -/
def positionsOf (endpoint : GraphEdge → String) (edges : List GraphEdge) (n : String) : List Nat :=
  (List.range edges.length).filter fun i => edges[i]?.map endpoint = some n

/-- The indices describe the list of edges. -/
structure WellIndexed (s : InMemoryGraphStore) : Prop where
  from_eq : ∀ n, s.fromIndex.getD n [] = positionsOf GraphEdge.fromId s.edges n
  to_eq : ∀ n, s.toIndex.getD n [] = positionsOf GraphEdge.toId s.edges n
  active_key : ∀ k i, s.activeEdgeIndex.get? k = some i → ∃ e, s.edges[i]? = some e ∧ e.key = k
  open_active : ∀ i e, s.edges[i]? = some e → e.validTo = none →
    s.activeEdgeIndex.get? e.key = some i

theorem wellIndexed_empty : WellIndexed {} := by
  constructor <;> simp [positionsOf, PyDict.getD]

variable {s : InMemoryGraphStore}

/-- Closing the active version of `k`, seen without the index. -/
theorem WellIndexed.set_active (hs : WellIndexed s) {k : EdgeKey} {i : Nat} {e : GraphEdge}
    (hi : s.activeEdgeIndex.get? k = some i) (he : s.edges[i]? = some e) (t : Instant) :
    s.edges.set i (e.endedAt t) = s.edges.map (GraphEdge.endKey k t) := by
  obtain ⟨e', he', hk⟩ := hs.active_key k i hi
  obtain rfl : e = e' := Option.some.inj (he.symm.trans he')
  refine List.ext_getElem? fun j => ?_
  rw [List.getElem?_map, List.getElem?_set]
  by_cases hij : i = j
  · subst hij
    have hlt : i < s.edges.length := (List.getElem?_eq_some_iff.mp he).1
    rw [if_pos rfl, if_pos hlt, he, Option.map_some, GraphEdge.endKey, if_pos hk]
  · rw [if_neg hij]
    cases hj : s.edges[j]? with
    | none => rfl
    | some e' =>
      -- another edge of the key is not the active one, so it has an end already
      by_cases hk' : e'.key = k
      · have hclosed : e'.validTo ≠ none := fun hopen =>
          hij (Option.some.inj (hi.symm.trans (hk' ▸ hs.open_active j e' hj hopen)))
        simp [GraphEdge.endKey, hk', GraphEdge.endedAt_of_closed hclosed]
      · simp [GraphEdge.endKey, hk']

/-- With no active position for `k`, no edge of `k` is open. -/
theorem WellIndexed.map_endKey_of_none (hs : WellIndexed s) {k : EdgeKey}
    (hk : s.activeEdgeIndex.get? k = none) (t : Instant) :
    s.edges.map (GraphEdge.endKey k t) = s.edges := by
  refine List.map_congr_left (g := id) (fun e he => ?_) |>.trans (List.map_id _)
  obtain ⟨i, hi⟩ := List.getElem?_of_mem he
  unfold GraphEdge.endKey
  split
  · rename_i hkey
    refine GraphEdge.endedAt_of_closed (fun hopen => ?_) t
    have := hs.open_active i e hi hopen
    rw [hkey, hk] at this
    cases this
  · rfl

theorem set_getElem?_self {l : List GraphEdge} {i : Nat} {e : GraphEdge} (h : l[i]? = some e) :
    l.set i e = l := by
  obtain ⟨hlt, rfl⟩ := List.getElem?_eq_some_iff.mp h
  exact List.set_getElem_self hlt

theorem WellIndexed.supersede_eq (hs : WellIndexed s) (k : EdgeKey) (now : Instant) :
    s.supersede k now = s.edges.map (GraphEdge.endKey k now) := by
  unfold supersede
  cases hi : s.activeEdgeIndex.get? k with
  | none => exact (hs.map_endKey_of_none hi now).symm
  | some i =>
    obtain ⟨e, he, -⟩ := hs.active_key k i hi
    rw [← hs.set_active hi he now]
    simp only [he]
    split
    · rename_i hopen
      rw [GraphEdge.endedAt_of_open hopen]
    · rename_i hclosed
      rw [GraphEdge.endedAt_of_closed hclosed, set_getElem?_self he]

/-- **Adding an edge** ends the open version of its key at the clock reading and
appends the new version. -/
theorem WellIndexed.addEdge_edges (hs : WellIndexed s) (edge : GraphEdge) (now : Instant) :
    (s.addEdge edge now).edges = s.edges.map (GraphEdge.endKey edge.key now) ++ [edge] := by
  rw [← hs.supersede_eq]
  rfl

/-- Everything `close_edge` does to the store. -/
theorem WellIndexed.closeEdge_spec (hs : WellIndexed s) {s' : InMemoryGraphStore}
    {edgeType : EdgeType} {fromId toId : String} {validTo : Option Instant} {now : Instant}
    (h : (s.closeEdge edgeType fromId toId validTo now).2 = s') :
    s'.edges = s.edges.map (GraphEdge.endKey (fromId, toId, edgeType) (validTo.getD now)) ∧
      s'.nodes = s.nodes ∧ s'.fromIndex = s.fromIndex ∧ s'.toIndex = s.toIndex ∧
      ∀ k, s'.activeEdgeIndex.get? k =
        if k = (fromId, toId, edgeType) then none else s.activeEdgeIndex.get? k := by
  subst h
  unfold InMemoryGraphStore.closeEdge
  cases hi : s.activeEdgeIndex.get? (fromId, toId, edgeType) with
  | none =>
    simp only [hi]
    refine ⟨(hs.map_endKey_of_none hi _).symm, trivial, trivial, trivial, fun k => ?_⟩
    split
    · rename_i hk
      rw [hk, hi]
    · rfl
  | some i =>
    obtain ⟨e, he, -⟩ := hs.active_key _ i hi
    rw [← hs.set_active hi he]
    simp only [hi, he]
    split
    · rename_i hclosed
      refine ⟨?_, rfl, rfl, rfl, fun k => PyDict.get?_erase _ _ k⟩
      rw [GraphEdge.endedAt_of_closed hclosed, set_getElem?_self he]
    · rename_i hopen
      refine ⟨?_, rfl, rfl, rfl, fun k => PyDict.get?_erase _ _ k⟩
      rw [GraphEdge.endedAt_of_open (not_not.mp hopen)]

/-- **Closing a key** ends its open version, if it has one. -/
theorem WellIndexed.closeEdge_edges (hs : WellIndexed s) (edgeType : EdgeType)
    (fromId toId : String) (validTo : Option Instant) (now : Instant) :
    (s.closeEdge edgeType fromId toId validTo now).2.edges =
      s.edges.map (GraphEdge.endKey (fromId, toId, edgeType) (validTo.getD now)) :=
  (hs.closeEdge_spec rfl).1

/-! ### Keeping the indices -/

theorem positionsOf_map {endpoint : GraphEdge → String} {f : GraphEdge → GraphEdge}
    (hf : ∀ e, endpoint (f e) = endpoint e) (edges : List GraphEdge) (n : String) :
    positionsOf endpoint (edges.map f) n = positionsOf endpoint edges n := by
  unfold positionsOf
  simp [Function.comp_def, hf]

theorem positionsOf_concat (endpoint : GraphEdge → String) (edges : List GraphEdge)
    (edge : GraphEdge) (n : String) :
    positionsOf endpoint (edges ++ [edge]) n =
      positionsOf endpoint edges n ++ if endpoint edge = n then [edges.length] else [] := by
  unfold positionsOf
  rw [List.length_append, List.length_singleton, List.range_succ, List.filter_append]
  congr 1
  · refine List.filter_congr fun i hi => ?_
    rw [List.getElem?_append_left (List.mem_range.mp hi)]
  · simp [List.filter_cons]

/-- Appending a position to the entry of the new edge's endpoint. -/
theorem getD_set_positions {index : PyDict String (List Nat)} {endpoint : GraphEdge → String}
    {edges : List GraphEdge} (h : ∀ n, index.getD n [] = positionsOf endpoint edges n)
    (edge : GraphEdge) (n : String) :
    (index.set (endpoint edge) (index.getD (endpoint edge) [] ++ [edges.length])).getD n [] =
      positionsOf endpoint (edges ++ [edge]) n := by
  rw [positionsOf_concat, PyDict.getD, PyDict.get?_set]
  by_cases hn : n = endpoint edge
  · subst hn
    simp [h]
  · rw [if_neg hn, if_neg (Ne.symm hn), List.append_nil]
    exact h n

theorem endKey_fromId (k : EdgeKey) (t : Instant) (e : GraphEdge) :
    (GraphEdge.endKey k t e).fromId = e.fromId :=
  congrArg (·.1) (GraphEdge.endKey_key k t e)

theorem endKey_toId (k : EdgeKey) (t : Instant) (e : GraphEdge) :
    (GraphEdge.endKey k t e).toId = e.toId :=
  congrArg (·.2.1) (GraphEdge.endKey_key k t e)

/-- After `endKey` an edge of the key has an end, and an open edge was open. -/
theorem endKey_open {k : EdgeKey} {t : Instant} {e : GraphEdge}
    (h : (GraphEdge.endKey k t e).validTo = none) : e.key ≠ k ∧ e.validTo = none := by
  unfold GraphEdge.endKey at h
  split at h
  · cases h
  · exact ⟨‹_›, h⟩

theorem WellIndexed.addEdge (hs : WellIndexed s) (edge : GraphEdge) (now : Instant) :
    WellIndexed (s.addEdge edge now) := by
  have hedges := hs.addEdge_edges edge now
  have hlen : (s.supersede edge.key now).length = (s.edges.map (GraphEdge.endKey edge.key now)).length :=
    congrArg List.length (hs.supersede_eq edge.key now)
  refine ⟨fun n => ?_, fun n => ?_, fun k i hi => ?_, fun i e he hopen => ?_⟩
  · rw [hedges]
    unfold InMemoryGraphStore.addEdge
    simp only [hlen]
    exact getD_set_positions (fun n => (hs.from_eq n).trans
      (positionsOf_map (endKey_fromId edge.key now) s.edges n).symm) edge n
  · rw [hedges]
    unfold InMemoryGraphStore.addEdge
    simp only [hlen]
    exact getD_set_positions (fun n => (hs.to_eq n).trans
      (positionsOf_map (endKey_toId edge.key now) s.edges n).symm) edge n
  · change (s.activeEdgeIndex.set edge.key _).get? k = some i at hi
    rw [PyDict.get?_set, hlen] at hi
    rw [hedges]
    split at hi
    · rename_i hk
      obtain rfl := Option.some.inj hi
      exact ⟨edge, by rw [List.getElem?_concat_length], hk.symm⟩
    · obtain ⟨e, he, hk⟩ := hs.active_key k i hi
      refine ⟨GraphEdge.endKey edge.key now e, ?_, by rw [GraphEdge.endKey_key, hk]⟩
      have hlt : i < s.edges.length := (List.getElem?_eq_some_iff.mp he).1
      rw [List.getElem?_append_left (by rwa [List.length_map]), List.getElem?_map, he]
      rfl
  · change (s.activeEdgeIndex.set edge.key _).get? e.key = some i
    rw [hedges] at he
    rw [PyDict.get?_set, hlen]
    by_cases hlt : i < (s.edges.map (GraphEdge.endKey edge.key now)).length
    · rw [List.getElem?_append_left hlt, List.getElem?_map] at he
      obtain ⟨e₀, he₀, rfl⟩ := Option.map_eq_some_iff.mp he
      obtain ⟨hne, hopen₀⟩ := endKey_open hopen
      rw [GraphEdge.endKey_key, if_neg hne]
      exact hs.open_active i e₀ he₀ hopen₀
    · rw [List.getElem?_append_right (not_lt.mp hlt), List.getElem?_singleton] at he
      split at he
      · obtain rfl := Option.some.inj he
        rw [if_pos rfl]
        congr 1
        omega
      · cases he

theorem WellIndexed.closeEdge (hs : WellIndexed s) (edgeType : EdgeType) (fromId toId : String)
    (validTo : Option Instant) (now : Instant) :
    WellIndexed (s.closeEdge edgeType fromId toId validTo now).2 := by
  obtain ⟨hedges, -, hfrom, hto, hactive⟩ :=
    hs.closeEdge_spec (rfl : (s.closeEdge edgeType fromId toId validTo now).2 = _)
  refine ⟨fun n => ?_, fun n => ?_, fun k i hi => ?_, fun i e he hopen => ?_⟩
  · rw [hfrom, hedges, positionsOf_map (endKey_fromId _ _)]
    exact hs.from_eq n
  · rw [hto, hedges, positionsOf_map (endKey_toId _ _)]
    exact hs.to_eq n
  · rw [hactive] at hi
    split at hi
    · cases hi
    · obtain ⟨e, he, hk⟩ := hs.active_key k i hi
      refine ⟨_, by rw [hedges, List.getElem?_map, he]; rfl, ?_⟩
      rw [GraphEdge.endKey_key, hk]
  · rw [hedges, List.getElem?_map] at he
    obtain ⟨e₀, he₀, rfl⟩ := Option.map_eq_some_iff.mp he
    obtain ⟨hne, hopen₀⟩ := endKey_open hopen
    rw [hactive, GraphEdge.endKey_key, if_neg hne]
    exact hs.open_active i e₀ he₀ hopen₀

theorem WellIndexed.upsertNode (hs : WellIndexed s) (node : GraphNode) (now : Instant) :
    WellIndexed (s.upsertNode node now) :=
  ⟨hs.from_eq, hs.to_eq, hs.active_key, hs.open_active⟩

/-! ### The queries -/

theorem filterMap_positionsOf (endpoint : GraphEdge → String) (p : GraphEdge → Bool)
    (edges : List GraphEdge) (n : String) :
    (positionsOf endpoint edges n).filterMap (fun i => edges[i]?.filter p) =
      edges.filter fun e => decide (endpoint e = n) && p e := by
  induction edges using List.reverseRecOn with
  | nil => rfl
  | append_singleton edges edge ih =>
    rw [positionsOf_concat, List.filterMap_append, List.filter_append, ← ih]
    congr 1
    · refine List.filterMap_congr fun i hi => ?_
      have hlt : i < edges.length := List.mem_range.mp (List.mem_filter.mp hi).1
      rw [List.getElem?_append_left hlt]
    · by_cases hn : endpoint edge = n
      · cases hp : p edge <;> simp [hn, hp, Option.filter]
      · simp [hn]

/-- **`get_edges_from` filters the edge list.** -/
theorem WellIndexed.getEdgesFrom_eq (hs : WellIndexed s) (n : String) (atTime : Option Instant)
    (now : Instant) :
    s.getEdgesFrom n atTime now = s.edges.filter fun e =>
      decide (e.fromId = n) && decide (e.span.Mem (atTime.getD now)) := by
  unfold getEdgesFrom edgesAt
  rw [hs.from_eq]
  exact filterMap_positionsOf GraphEdge.fromId (fun e => decide (e.span.Mem _)) s.edges n

/-- **`get_edges_to` filters the edge list.** -/
theorem WellIndexed.getEdgesTo_eq (hs : WellIndexed s) (n : String) (atTime : Option Instant)
    (now : Instant) :
    s.getEdgesTo n atTime now = s.edges.filter fun e =>
      decide (e.toId = n) && decide (e.span.Mem (atTime.getD now)) := by
  unfold getEdgesTo edgesAt
  rw [hs.to_eq]
  exact filterMap_positionsOf GraphEdge.toId (fun e => decide (e.span.Mem _)) s.edges n

/-! ### Open versions -/

/-- The keys of the open edges. -/
def openKeys (s : InMemoryGraphStore) : List EdgeKey :=
  (s.edges.filter fun e => decide (e.validTo = none)).map GraphEdge.key

theorem mem_openKeys {k : EdgeKey} :
    k ∈ s.openKeys ↔ ∃ e ∈ s.edges, e.validTo = none ∧ e.key = k := by
  unfold openKeys
  simp only [List.mem_map, List.mem_filter, decide_eq_true_eq, and_assoc]

/-- **No key has two open versions.** -/
theorem WellIndexed.openKeys_nodup (hs : WellIndexed s) : s.openKeys.Nodup := by
  unfold openKeys
  rw [List.Nodup, List.pairwise_map, List.pairwise_filter, List.pairwise_iff_getElem]
  intro i j hi hj hij hopeni hopenj hkey
  -- both would be the active version of the key
  have hi' := hs.open_active i _ (List.getElem?_eq_getElem hi) (of_decide_eq_true hopeni)
  have hj' := hs.open_active j _ (List.getElem?_eq_getElem hj) (of_decide_eq_true hopenj)
  rw [hkey, hj'] at hi'
  have : j = i := Option.some.inj hi'
  omega

/-- `close_edge` returns whether the key has an open version. -/
theorem WellIndexed.closeEdge_result (hs : WellIndexed s) (edgeType : EdgeType)
    (fromId toId : String) (validTo : Option Instant) (now : Instant) :
    (s.closeEdge edgeType fromId toId validTo now).1 =
      decide ((fromId, toId, edgeType) ∈ s.openKeys) := by
  rw [Bool.eq_iff_iff, decide_eq_true_eq, mem_openKeys]
  unfold InMemoryGraphStore.closeEdge
  have hactive : ∀ e ∈ s.edges, e.validTo = none → ∃ i, s.edges[i]? = some e ∧
      s.activeEdgeIndex.get? e.key = some i := by
    intro e he hopen
    obtain ⟨i, hi⟩ := List.getElem?_of_mem he
    exact ⟨i, hi, hs.open_active i e hi hopen⟩
  cases hi : s.activeEdgeIndex.get? (fromId, toId, edgeType) with
  | none =>
    simp only [hi, Bool.false_eq_true, false_iff]
    rintro ⟨e, he, hopen, hkey⟩
    obtain ⟨i, -, hi'⟩ := hactive e he hopen
    rw [hkey, hi] at hi'
    cases hi'
  | some i =>
    obtain ⟨e, he, hkey⟩ := hs.active_key _ i hi
    simp only [hi, he]
    split
    · rename_i hclosed
      simp only [Bool.false_eq_true, false_iff]
      rintro ⟨e', he', hopen, hkey'⟩
      obtain ⟨j, hj, hj'⟩ := hactive e' he' hopen
      rw [hkey', hi] at hj'
      obtain rfl := Option.some.inj hj'
      obtain rfl := Option.some.inj (he.symm.trans hj)
      exact hclosed hopen
    · rename_i hopen
      simp only [true_iff]
      exact ⟨e, List.mem_of_getElem? he, not_not.mp hopen, hkey⟩

/-! ### Nodes by type -/

/-- The node-type sets describe the nodes, and a node is stored under its id. -/
structure WellTyped (s : InMemoryGraphStore) : Prop where
  named : ∀ {nodeId node}, s.nodes.get? nodeId = some node → node.nodeId = nodeId
  byType : ∀ nodeType nodeId, nodeId ∈ s.nodesByType.getD nodeType [] ↔
    ∃ node, s.nodes.get? nodeId = some node ∧ node.nodeType = nodeType

theorem wellTyped_empty : WellTyped {} where
  named := fun h => by cases h
  byType := fun _ _ => by simp [PyDict.getD]

/-- The node that `upsert_node` stores. -/
def upserted (s : InMemoryGraphStore) (node : GraphNode) (now : Instant) : GraphNode :=
  if (s.nodes.get? node.nodeId).isSome then { node with updatedAt := now } else node

theorem upsertNode_nodes (s : InMemoryGraphStore) (node : GraphNode) (now : Instant) :
    (s.upsertNode node now).nodes = s.nodes.set node.nodeId (s.upserted node now) := by
  unfold upsertNode upserted
  cases h : s.nodes.get? node.nodeId with
  | none => rfl
  | some existing => rfl

theorem upserted_nodeId (s : InMemoryGraphStore) (node : GraphNode) (now : Instant) :
    (s.upserted node now).nodeId = node.nodeId := by
  unfold upserted
  split <;> rfl

theorem upserted_nodeType (s : InMemoryGraphStore) (node : GraphNode) (now : Instant) :
    (s.upserted node now).nodeType = node.nodeType := by
  unfold upserted
  split <;> rfl

/-- The sets once the old entry of the node is gone. -/
def discarded (s : InMemoryGraphStore) (node : GraphNode) : PyDict NodeType (List String) :=
  match s.nodes.get? node.nodeId with
  | none => s.nodesByType
  | some existing => s.nodesByType.set existing.nodeType
      ((s.nodesByType.getD existing.nodeType []).filter (· ≠ existing.nodeId))

theorem upsertNode_nodesByType (s : InMemoryGraphStore) (node : GraphNode) (now : Instant) :
    (s.upsertNode node now).nodesByType = (s.discarded node).set node.nodeType
      (if node.nodeId ∈ (s.discarded node).getD node.nodeType [] then
        (s.discarded node).getD node.nodeType []
      else (s.discarded node).getD node.nodeType [] ++ [node.nodeId]) := by
  unfold upsertNode discarded
  cases h : s.nodes.get? node.nodeId with
  | none => rfl
  | some existing => rfl

theorem WellTyped.mem_discarded (hs : WellTyped s) (node : GraphNode) (nodeType : NodeType)
    (nodeId : String) :
    nodeId ∈ (s.discarded node).getD nodeType [] ↔
      nodeId ≠ node.nodeId ∧ nodeId ∈ s.nodesByType.getD nodeType [] := by
  unfold discarded
  cases h : s.nodes.get? node.nodeId with
  | none =>
    dsimp only
    refine ⟨fun hmem => ⟨?_, hmem⟩, And.right⟩
    rintro rfl
    obtain ⟨found, hfound, -⟩ := (hs.byType nodeType node.nodeId).mp hmem
    rw [h] at hfound
    cases hfound
  | some existing =>
    have hname := hs.named h
    dsimp only
    unfold PyDict.getD
    rw [PyDict.get?_set]
    by_cases ht : nodeType = existing.nodeType
    · subst ht
      simp [hname, and_comm]
    · rw [if_neg ht]
      refine ⟨fun hmem => ⟨?_, hmem⟩, And.right⟩
      rintro rfl
      obtain ⟨found, hfound, htype⟩ := (hs.byType nodeType node.nodeId).mp hmem
      obtain rfl := Option.some.inj (h.symm.trans hfound)
      exact ht htype.symm

theorem WellTyped.upsertNode (hs : WellTyped s) (node : GraphNode) (now : Instant) :
    WellTyped (s.upsertNode node now) where
  named := by
    intro nodeId found hfound
    rw [upsertNode_nodes, PyDict.get?_set] at hfound
    split at hfound
    · rename_i hid
      obtain rfl := Option.some.inj hfound
      rw [upserted_nodeId, hid]
    · exact hs.named hfound
  byType := by
    intro nodeType nodeId
    rw [upsertNode_nodes, upsertNode_nodesByType]
    have hdisc := hs.mem_discarded node
    unfold PyDict.getD at hdisc ⊢
    rw [PyDict.get?_set, PyDict.get?_set]
    by_cases hid : nodeId = node.nodeId
    · subst hid
      simp only [if_true, Option.some.injEq, exists_eq_left', upserted_nodeType]
      by_cases ht : nodeType = node.nodeType
      · subst ht
        rw [if_pos rfl]
        simp only [Option.getD_some, iff_true]
        split
        · assumption
        · exact List.mem_append_right _ (List.mem_singleton_self _)
      · rw [if_neg ht, hdisc]
        simp [Ne.symm ht]
    · rw [if_neg hid]
      by_cases ht : nodeType = node.nodeType
      · subst ht
        rw [if_pos rfl, Option.getD_some, ← hs.byType]
        have hkept := hdisc node.nodeType nodeId
        split
        · rw [hkept]
          exact ⟨And.right, fun hmem => ⟨hid, hmem⟩⟩
        · rw [List.mem_append, List.mem_singleton, hkept]
          exact ⟨fun hmem => hmem.elim And.right fun heq => absurd heq hid,
            fun hmem => .inl ⟨hid, hmem⟩⟩
      · rw [if_neg ht, hdisc]
        simp only [ne_eq, hid, not_false_eq_true, true_and]
        exact hs.byType nodeType nodeId

theorem WellTyped.addEdge (hs : WellTyped s) (edge : GraphEdge) (now : Instant) :
    WellTyped (s.addEdge edge now) :=
  ⟨hs.named, hs.byType⟩

theorem WellTyped.closeEdge (hs : WellTyped s) (edgeType : EdgeType) (fromId toId : String)
    (validTo : Option Instant) (now : Instant) :
    WellTyped (s.closeEdge edgeType fromId toId validTo now).2 := by
  obtain ⟨hnodes, hsets⟩ : (s.closeEdge edgeType fromId toId validTo now).2.nodes = s.nodes ∧
      (s.closeEdge edgeType fromId toId validTo now).2.nodesByType = s.nodesByType := by
    unfold InMemoryGraphStore.closeEdge
    dsimp only
    split
    · exact ⟨rfl, rfl⟩
    · split
      · exact ⟨rfl, rfl⟩
      · split
        · exact ⟨rfl, rfl⟩
        · exact ⟨rfl, rfl⟩
  constructor
  · rw [hnodes]
    exact hs.named
  · rw [hnodes, hsets]
    exact hs.byType

/-- **`get_nodes_by_type` returns the nodes of the type.** -/
theorem WellTyped.mem_getNodesByType (hs : WellTyped s) {nodeType : NodeType} {node : GraphNode} :
    node ∈ s.getNodesByType nodeType ↔
      s.nodes.get? node.nodeId = some node ∧ node.nodeType = nodeType := by
  unfold getNodesByType
  rw [List.mem_filterMap]
  constructor
  · rintro ⟨nodeId, hmem, hget⟩
    obtain ⟨found, hfound, htype⟩ := (hs.byType nodeType nodeId).mp hmem
    obtain rfl := Option.some.inj (hget.symm.trans hfound)
    rw [hs.named hget]
    exact ⟨hget, htype⟩
  · rintro ⟨hget, htype⟩
    exact ⟨node.nodeId, (hs.byType nodeType node.nodeId).mpr ⟨node, hget, htype⟩, hget⟩

end InMemoryGraphStore
end ComputeIntelligence
