import ComputeIntelligence.GraphStore
import ComputeIntelligence.IsoTime

/-! # The Neo4j graph store

`Neo4jGraphStore` (`graph/store.py`).  Its methods are Cypher statements; a statement is
read as the table of rows it works on:

* `MERGE` finds the node of an id, which is unique, or creates it;
* `OPTIONAL MATCH` has a row for every relationship it finds, or a single row without
  one, and what follows it runs once per row: a `CREATE` after it makes as many
  relationships as there are rows;
* `SET` on a missing relationship does nothing.

Times are kept as ISO texts and compared as texts, with `''` for an edge that has no end.
A JSON text is modelled by the document in it.  The provenance of an edge is a record
that pydantic writes and reads back, and is kept as it is.
-/
namespace ComputeIntelligence
open PyDateTime

/-! ### Serialization -/

mutual

/-- `json.loads(json.dumps(v, default=str))`; `none` if `dumps` raises. -/
def jsonCopy : PyVal → Option PyVal
  | .none => some .none
  | .bool b => some (.bool b)
  | .int i => (PyVal.intStr i).toOption.map fun _ => .int i
  | .float x => some (.float x)
  | .str s => some (.str s)
  | .datetime t => some (.str t.str)
  | .list xs => (jsonCopyList xs).map .list
  | .dict kvs => (jsonCopyItems kvs).map .dict
  | .object o => o.str.map .str

def jsonCopyList : List PyVal → Option (List PyVal)
  | [] => some []
  | x :: xs => do some ((← jsonCopy x) :: (← jsonCopyList xs))

def jsonCopyItems : List (String × PyVal) → Option (List (String × PyVal))
  | [] => some []
  | (k, v) :: kvs => do some ((k, ← jsonCopy v) :: (← jsonCopyItems kvs))

end

/-- `_json_load(_json_dump(d))`. -/
def jsonCopyDict (d : PyDict String PyVal) : Option (PyDict String PyVal) :=
  (jsonCopyItems d.items).map PyDict.ofList

/-- `_to_iso`, of an aware time. -/
def toIso (t : Instant) : String := isoText t

/-- `_from_iso`. -/
def fromIso (text : String) : Except PyExn (Option Instant) :=
  if text = "" then .ok none
  else match fromisoformat text with
    | some t => .ok (some t)
    | none => .error .valueError

/-- The prefixes of `_infer_node_type`, in the order they are tried. -/
def nodeTypePrefixes : List (String × NodeType) :=
  [("model:", .model), ("resource:", .cloudResource), ("deploy:", .deployment),
    ("repo:", .repository), ("person:", .person), ("team:", .team), ("cc:", .costCenter),
    ("cost_center:", .costCenter), ("service_account:", .serviceAccount), ("api_key:", .apiKey),
    ("endpoint:", .inferenceEndpoint), ("budget:", .budget), ("equivalence:", .equivalenceClass)]

/-- `_infer_node_type`. -/
def inferNodeType (nodeId : String) : NodeType :=
  match nodeTypePrefixes.find? fun p => PyText.startsWith p.1 (PyText.lower nodeId) with
  | some p => p.2
  | none => .inferenceEndpoint

/-- `_default_label`: what follows the first colon. -/
def defaultLabel (nodeId : String) : String :=
  if ':' ∈ nodeId.toList then String.ofList ((nodeId.toList.dropWhile (· ≠ ':')).drop 1) else nodeId

/-! ### The store -/

/-- An `ACIEntity`. -/
structure Neo4jNode where
  nodeId : String
  nodeType : NodeType
  label : String
  properties : PyDict String PyVal
  tenantId : String
  createdAtIso : String
  updatedAtIso : String

/-- An `ACI_EDGE`, with the ids of its two nodes. -/
structure Neo4jEdge where
  src : String
  dst : String
  edgeType : EdgeType
  confidence : UnitScore
  weight : UnitScore
  validFromIso : String
  validToIso : String
  provenance : EdgeProvenance
  explanationRef : String

/-- `Neo4jGraphStore`: the nodes by their id, and the relationships. -/
structure Neo4jGraphStore where
  nodes : PyDict String Neo4jNode := PyDict.empty
  edges : List Neo4jEdge := []

/-- `rel.valid_to_iso IS NULL OR rel.valid_to_iso = ''`. -/
def Neo4jEdge.isOpen (e : Neo4jEdge) : Bool := e.validToIso = ""

/-- The key of the versions of one relationship. -/
def Neo4jEdge.key (e : Neo4jEdge) : EdgeKey := (e.src, e.dst, e.edgeType)

/-- `SET rel.valid_to_iso = text` on the open relationships of a key. -/
def Neo4jEdge.endKey (k : EdgeKey) (text : String) (e : Neo4jEdge) : Neo4jEdge :=
  if e.key = k ∧ e.isOpen = true then { e with validToIso := text } else e

/-- The relationship that `add_edge` creates. -/
def Neo4jEdge.ofEdge (edge : GraphEdge) : Neo4jEdge where
  src := edge.fromId
  dst := edge.toId
  edgeType := edge.edgeType
  confidence := edge.confidence
  weight := edge.weight
  validFromIso := toIso edge.validFrom
  validToIso := match edge.validTo with
    | some t => toIso t
    | none => ""
  provenance := edge.provenance
  explanationRef := edge.explanationRef.getD ""

namespace Neo4jGraphStore

/-- `clear`. -/
def clear (_ : Neo4jGraphStore) : Neo4jGraphStore := {}

/-- `upsert_node`: raises if the properties cannot be written. -/
def upsertNode (s : Neo4jGraphStore) (node : GraphNode) (now : Instant) :
    Except PyExn Neo4jGraphStore :=
  match jsonCopyDict node.properties with
  | none => .error .valueError
  | some properties =>
      let createdAtIso := match s.nodes.get? node.nodeId with
        | some existing => existing.createdAtIso
        | none => toIso node.createdAt
      let record : Neo4jNode :=
        { nodeId := node.nodeId, nodeType := node.nodeType, label := node.label, properties,
          tenantId := node.tenantId, createdAtIso, updatedAtIso := toIso now }
      .ok { s with nodes := s.nodes.set node.nodeId record }

/-- The node that `add_edge` creates for an endpoint it does not find. -/
def inferredNode (nodeId : String) (now : Instant) : Neo4jNode where
  nodeId := nodeId
  nodeType := inferNodeType nodeId
  label := defaultLabel nodeId
  properties := PyDict.empty
  tenantId := ""
  createdAtIso := toIso now
  updatedAtIso := toIso now

/-- `MERGE (n:ACIEntity {node_id: nodeId}) ON CREATE SET ...`. -/
def mergeNode (nodes : PyDict String Neo4jNode) (nodeId : String) (now : Instant) :
    PyDict String Neo4jNode :=
  match nodes.get? nodeId with
  | some _ => nodes
  | none => nodes.set nodeId (inferredNode nodeId now)

/-- The rows of `OPTIONAL MATCH` on the open relationships of a key. -/
def openRows (edges : List Neo4jEdge) (k : EdgeKey) : Nat :=
  max 1 (edges.countP fun e => e.key = k && e.isOpen)

/-- `add_edge`, with its two clock readings. -/
def addEdge (s : Neo4jGraphStore) (edge : GraphEdge) (now created : Instant) : Neo4jGraphStore where
  nodes := mergeNode (mergeNode s.nodes edge.fromId created) edge.toId created
  edges := s.edges.map (Neo4jEdge.endKey edge.key (toIso now)) ++
    List.replicate (openRows s.edges edge.key) (Neo4jEdge.ofEdge edge)

/-- `close_edge`. -/
def closeEdge (s : Neo4jGraphStore) (edgeType : EdgeType) (fromId toId : String)
    (validTo : Option Instant) (now : Instant) : Bool × Neo4jGraphStore :=
  let key : EdgeKey := (fromId, toId, edgeType)
  (decide (0 < s.edges.countP fun e => e.key = key && e.isOpen),
    { s with edges := s.edges.map (Neo4jEdge.endKey key (toIso (validTo.getD now))) })

/-- `_deserialize_node`. -/
def deserializeNode (record : Neo4jNode) (now : Instant) : Except PyExn GraphNode := do
  let createdAt ← fromIso record.createdAtIso
  let updatedAt ← fromIso record.updatedAtIso
  .ok { nodeId := record.nodeId
        nodeType := record.nodeType
        label := if record.label = "" then record.nodeId else record.label
        properties := record.properties
        tenantId := record.tenantId
        createdAt := createdAt.getD now
        updatedAt := updatedAt.getD now }

/-- `_deserialize_edge`. -/
def deserializeEdge (record : Neo4jEdge) (now : Instant) : Except PyExn GraphEdge := do
  let validFrom ← fromIso record.validFromIso
  let validTo ← fromIso record.validToIso
  .ok { edgeType := record.edgeType
        fromId := record.src
        toId := record.dst
        confidence := record.confidence
        weight := record.weight
        validFrom := validFrom.getD now
        validTo := validTo
        provenance := record.provenance
        explanationRef := if record.explanationRef = "" then none else some record.explanationRef }

/-- `get_node`. -/
def getNode (s : Neo4jGraphStore) (nodeId : String) (now : Instant) :
    Except PyExn (Option GraphNode) :=
  match s.nodes.get? nodeId with
  | none => .ok none
  | some record => (deserializeNode record now).map some

/-- `get_nodes_by_type`, ordered by the id. -/
def getNodesByType (s : Neo4jGraphStore) (nodeType : NodeType) (now : Instant) :
    Except PyExn (List GraphNode) :=
  (((s.nodes.items.map Prod.snd).filter fun n => n.nodeType = nodeType).mergeSort
    fun a b => decide (a.nodeId ≤ b.nodeId)).mapM (deserializeNode · now)

/-- The relationships with an endpoint, valid at a time, by their start. -/
def edgesAt (s : Neo4jGraphStore) (endpoint : Neo4jEdge → String) (nodeId : String)
    (at_ now : Instant) : Except PyExn (List GraphEdge) :=
  ((s.edges.filter fun e => decide (endpoint e = nodeId) && (decide (e.validFromIso ≤ toIso at_) &&
      (e.isOpen || decide (toIso at_ < e.validToIso)))).mergeSort
    fun a b => decide (a.validFromIso ≤ b.validFromIso)).mapM (deserializeEdge · now)

/-- `get_edges_from`. -/
def getEdgesFrom (s : Neo4jGraphStore) (nodeId : String) (atTime : Option Instant)
    (now : Instant) : Except PyExn (List GraphEdge) :=
  s.edgesAt Neo4jEdge.src nodeId (atTime.getD now) now

/-- `get_edges_to`. -/
def getEdgesTo (s : Neo4jGraphStore) (nodeId : String) (atTime : Option Instant)
    (now : Instant) : Except PyExn (List GraphEdge) :=
  s.edgesAt Neo4jEdge.dst nodeId (atTime.getD now) now

/-- `get_stats`. -/
def getStats (s : Neo4jGraphStore) : List (String × Int) :=
  [("total_nodes", s.nodes.size), ("total_edges", s.edges.length),
    ("active_edges", s.edges.countP Neo4jEdge.isOpen),
    ("historical_edges", (s.edges.length : Int) - s.edges.countP Neo4jEdge.isOpen)]

end Neo4jGraphStore
end ComputeIntelligence
