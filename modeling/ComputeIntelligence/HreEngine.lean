import ComputeIntelligence.GraphStore
import ComputeIntelligence.HreMethods

/-! # The reconciliation engine

`combine_evidence` (`hre/combination.py`), `HeuristicReconciliationEngine.resolve` behind
its cache and within its time budget (`hre/engine.py`), and `_build_context`
(`core/processor.py`), which reads the graph.
-/
namespace ComputeIntelligence
variable {F : Type} [ScoreArith F]
open FirstMax ScoreArith

/-! ### Combination -/

/-- `CombinationConfig`. -/
structure CombinationConfig (F : Type) where
  cap : F
  diminishingFactor : F
  correlatedPairs : PyDict (String × String) F

/-- `CombinationConfig()`. -/
def CombinationConfig.default : CombinationConfig F where
  cap := dec 95 2
  diminishingFactor := dec 5 1
  correlatedPairs := PyDict.ofList
    [(("R3", "R4"), dec 5 1), (("R2", "R5"), dec 4 1), (("R4", "R5"), dec 3 1)]

/-- `correlations.get(pair) or correlations.get(pair_rev)`. -/
def discountOf (correlations : PyDict (String × String) F) (a b : String) : Option F :=
  match correlations.get? (a, b) with
  | some x => if x = lit 0 then correlations.get? (b, a) else some x
  | none => correlations.get? (b, a)

/-- The pairs of a list, the first component earlier in it. -/
def pairsOf {α : Type} : List α → List (α × α)
  | [] => []
  | x :: xs => xs.map (fun y => (x, y)) ++ pairsOf xs

/-- The discount of one pair goes to the weaker signal. -/
def discountPair (correlations : PyDict (String × String) F) (weights : PyDict String F)
    (p : (String × F) × (String × F)) : PyDict String F :=
  match discountOf correlations p.1.1 p.2.1 with
  | none => weights
  | some discount =>
      let weaker := if p.1.2 ≤ p.2.2 then p.1.1 else p.2.1
      weights.set weaker (min (weights.getD weaker (lit 1)) discount)

/-- The multipliers of the sorted signals: from the third on, each is diminished again. -/
def diminishing (factor : F) : Nat → List F
  | 0 => []
  | n + 1 => (if n < 2 then [lit 1] else [((diminishing factor n).head?.getD (lit 1)) * factor]) ++
      diminishing factor n

/-- `combine_evidence`: the combined confidence. -/
def combineEvidence (config : CombinationConfig F) (signals : List (String × F)) : F :=
  match signals.map fun s => (s.1, max (lit 0) (min (lit 1) s.2)) with
  | [] => lit 0
  | [(_, conf)] => min config.cap conf
  | bounded =>
      let weights := (pairsOf bounded).foldl (discountPair config.correlatedPairs)
        (bounded.foldl (fun weights s => weights.set s.1 (lit 1)) PyDict.empty)
      let sorted := bounded.insertionSort fun a b => b.2 ≤ a.2
      let multipliers := (diminishing config.diminishingFactor sorted.length).reverse
      let product := (sorted.zip multipliers).foldl (fun product (s, d) =>
        product * (lit 1 - min (lit 1) (max (lit 0) (s.2 * weights.getD s.1 (lit 1) * d)))) (lit 1)
      round 4 (min config.cap (lit 1 - product))

/-! ### Resolution -/

/-- `ReconciliationContext`. -/
structure ReconciliationContext (F : Type) where
  tenantId : String := "default"
  identityMappings : PyDict String String := PyDict.empty
  temporalEvents : List (PyDateTime × String × String) := []
  namingPatterns : PyDict String (List String) := PyDict.empty
  historicalAttributions : List (String × F) := []
  deploymentOwners : List (String × PyDateTime) := []
  codeOwners : List String := []
  recentUsers : List (String × PyDateTime) := []
  proportionalUsers : PyDict String F := PyDict.empty

/-- The engine's settings, and Unicode's `str.lower`. -/
structure HreSettings (F : Type) where
  lower : String → String
  combination : CombinationConfig F
  maxClusterTargets : Int := 25
  maxHistoricalSignals : Int := 500

/-- The default settings. -/
def HreSettings.default : HreSettings F := { lower := PyText.lower, combination := .default }

/-- What `resolve` finds: the target entity, the combined confidence, the methods, and
the shares of R6. -/
structure Resolution (F : Type) where
  targetEntity : String
  combinedConfidence : F
  methodUsed : String
  fractional : List (Allocation F) := []

/-- The owner of a resolution. -/
def Resolution.owner (r : Resolution F) : String × F := (r.targetEntity, r.combinedConfidence)

/-- `xs[-n:]`. -/
def lastItems {α : Type} (n : Int) (xs : List α) : List α :=
  if 0 < n then xs.drop (xs.length - n.toNat) else xs.drop n.natAbs

/-- `xs[:n]`. -/
def firstItems {α : Type} (n : Int) (xs : List α) : List α :=
  if 0 ≤ n then xs.take n.toNat else xs.take (xs.length - n.natAbs)

/-- `_cluster_by_target`. -/
def clusterByTarget (signals : List (Signal F)) : PyDict String (List (Signal F)) :=
  signals.foldl (fun clusters signal =>
    clusters.set signal.targetEntity (clusters.getD signal.targetEntity [] ++ [signal]))
    PyDict.empty

/-- `max(signal.confidence for signal in cluster)`. -/
def bestSignal (cluster : List (Signal F)) : F :=
  ((firstMax Signal.confidence cluster).map Signal.confidence).getD (lit 0)

/-- The clusters that are combined. -/
def rankedClusters (limit : Int) (signals : List (Signal F)) : List (String × List (Signal F)) :=
  let clusters := (clusterByTarget signals).items
  if limit < clusters.length then
    firstItems limit (clusters.insertionSort fun a b => bestSignal b.2 ≤ bestSignal a.2)
  else clusters

/-- The confidence of a cluster. -/
def clusterConfidence (config : CombinationConfig F) (cluster : List (Signal F)) : F :=
  combineEvidence config (cluster.map fun s => (s.method, s.confidence))

/-- Step 3 of `resolve`: the best cluster. -/
def combineSignals (settings : HreSettings F) (signals : List (Signal F)) :
    Option (Resolution F) :=
  match scan (fun c => clusterConfidence settings.combination c.2) (lit 0)
      (rankedClusters settings.maxClusterTargets signals) with
  | (_, none) => none
  | (confidence, some (target, cluster)) =>
      some { targetEntity := target, combinedConfidence := confidence,
             methodUsed := PyText.join "+" (cluster.map Signal.method) }

/-- Without signals there is no best cluster. -/
theorem combineSignals_nil (settings : HreSettings F) : combineSignals settings [] = none := by
  have hranked : rankedClusters (F := F) settings.maxClusterTargets [] = [] := by
    unfold rankedClusters firstItems
    change (if settings.maxClusterTargets < 0 then _ else []) = []
    split
    · split
      · exact List.take_nil
      · exact List.take_nil
    · rfl
  unfold combineSignals
  rw [hranked]
  rfl

/-- Steps 4 and 5 of `resolve`. -/
def fallback (knownUsers : PyDict String F) : Resolution F :=
  let allocations := r6Resolve knownUsers
  match firstMax Allocation.confidence allocations with
  | some best =>
      { targetEntity := best.team, combinedConfidence := best.confidence,
        methodUsed := PyText.join "+" (allocations.map fun _ => "R6"), fractional := allocations }
  | none => { targetEntity := "unresolved", combinedConfidence := lit 0, methodUsed := "none" }

/-- `resolve`, from an empty cache and within the time budget.  R1 matches with a
confidence of at least 0.98 or not at all, so its match is always the answer. -/
def HeuristicReconciliationEngine.resolve (settings : HreSettings F) (setOrder : SetOrder)
    (entityId : String) (eventTime : Instant) (context : ReconciliationContext F) :
    Except PyExn (Resolution F) :=
  match r1Resolve settings.lower entityId context.identityMappings with
  | some s =>
      .ok { targetEntity := s.targetEntity, combinedConfidence := s.confidence, methodUsed := "R1" }
  | none => do
      let r2 := r2Resolve eventTime context.temporalEvents
      let r3 := r3Resolve entityId context.namingPatterns
      let r4 := r4Resolve (lastItems settings.maxHistoricalSignals context.historicalAttributions)
      let r5 ← r5Resolve setOrder context.deploymentOwners context.codeOwners context.recentUsers
        eventTime
      let signals := r2.toList ++ r3.toList ++ r4.toList ++ r5.toList
      return (combineSignals settings signals).getD (fallback context.proportionalUsers)

/-! ### The context of an event -/

/-- `_candidate_graph_node_ids`. -/
def candidateGraphNodeIds (workloadId : String) : List String :=
  if PyText.startsWith "resource:" workloadId || PyText.startsWith "endpoint:" workloadId then
    [workloadId]
  else [workloadId, "resource:" ++ workloadId, "endpoint:" ++ workloadId]

/-- The target of an edge, if it can own a workload. -/
def ownerTarget (graph : InMemoryGraphStore) (edge : GraphEdge) : Option String :=
  (graph.getNode edge.toId).bind fun target =>
    if target.nodeType = .team ∨ target.nodeType = .person then some target.nodeId else none

/-- The label of an edge's target, if that is a repository. -/
def repositoryLabel (graph : InMemoryGraphStore) (edge : GraphEdge) : Option String :=
  (graph.getNode edge.toId).bind fun target =>
    if target.nodeType = .repository then some target.label else none

/-- The owners that `_build_context` writes under the workload, in order. -/
def identityTargets (graph : InMemoryGraphStore) (workloadId : String) (eventTime now : Instant) :
    List String :=
  (candidateGraphNodeIds workloadId).flatMap fun lookupId =>
    (graph.getEdgesFrom lookupId (some eventTime) now).filterMap (ownerTarget graph)

/-- The naming patterns of a team. -/
def teamLabels (graph : InMemoryGraphStore) (teamId : String) (now : Instant) : List String :=
  (graph.getEdgesFrom teamId none now).filterMap (repositoryLabel graph)

/-- The loop of `_build_context` over the candidate ids. -/
def identityMappingsOf (graph : InMemoryGraphStore) (workloadId : String) (eventTime now : Instant) :
    PyDict String String :=
  (identityTargets graph workloadId eventTime now).foldl
    (fun mappings target => mappings.set workloadId target) PyDict.empty

/-- `ctx.naming_patterns[team.node_id] = patterns`, if there are any. -/
def addPatterns (graph : InMemoryGraphStore) (now : String → Instant)
    (patterns : PyDict String (List String)) (team : GraphNode) : PyDict String (List String) :=
  let labels := teamLabels graph team.nodeId (now team.nodeId)
  if labels = [] then patterns else patterns.set team.nodeId labels

/-- The loop of `_build_context` over the teams; `now` is the clock, by the team whose
edges are read. -/
def namingPatternsOf (setOrder : SetOrder) (graph : InMemoryGraphStore) (now : String → Instant) :
    PyDict String (List String) :=
  ((setOrder.order (graph.nodesByType.getD .team [])).filterMap graph.nodes.get?).foldl
    (addPatterns graph now) PyDict.empty

/-- `_build_context`. -/
def buildContext (setOrder : SetOrder) (graph : InMemoryGraphStore) (workloadId : String)
    (eventTime : Instant) (tenantId : String) (now : String → Instant) :
    ReconciliationContext F where
  tenantId := tenantId
  identityMappings := identityMappingsOf graph workloadId eventTime (now workloadId)
  namingPatterns := namingPatternsOf setOrder graph now

/-- A dictionary with one key. -/
def single (key : String) : Option String → PyDict String String
  | none => PyDict.empty
  | some value => PyDict.empty.set key value

/-- The last owner written under the workload stays. -/
theorem identityMappingsOf_eq (graph : InMemoryGraphStore) (workloadId : String)
    (eventTime now : Instant) :
    identityMappingsOf graph workloadId eventTime now =
      single workloadId (identityTargets graph workloadId eventTime now).getLast? := by
  unfold identityMappingsOf
  induction identityTargets graph workloadId eventTime now using List.reverseRecOn with
  | nil => rfl
  | append_singleton targets target ih =>
    rw [List.foldl_append, ih, List.getLast?_concat]
    cases targets.getLast? with
    | none => rfl
    | some t =>
      refine PyDict.ext_items ?_
      change PyDict.put workloadId target [(workloadId, t)] = [(workloadId, target)]
      rw [PyDict.put, if_pos rfl]

/-- R1 answers exactly when the graph knows an owner of the workload. -/
theorem r1Resolve_of_graph (lower : String → String) (graph : InMemoryGraphStore)
    (workloadId : String) (eventTime now : Instant) :
    r1Resolve (F := F) lower workloadId (identityMappingsOf graph workloadId eventTime now) =
      (identityTargets graph workloadId eventTime now).getLast?.map fun target =>
        ⟨"R1", target, lit 1⟩ := by
  rw [identityMappingsOf_eq]
  cases (identityTargets graph workloadId eventTime now).getLast? with
  | none => rfl
  | some target =>
    unfold r1Resolve single
    rw [PyDict.get?_set, if_pos rfl]
    rfl

end ComputeIntelligence
