import ComputeIntelligence.Processor
import ComputeIntelligence.GuardedRuns

/-! # Rebuilding the graph from the event log

The event log is the system of record and the graph is derived from it, so feeding
one list of events to two fresh processors should give graphs that answer every
historical query alike, whenever the two rebuilds are run.

A handler takes the times of its edges from the event, with one exception: an edge
that `add_edge` supersedes ends at the clock reading.  `Version` is the history of
an edge with that reading left open.  The graph of any run matches the history of
its events (`matches_rebuild`), and from this:

* if no event adds an edge whose key still has an open version, two runs agree
  (`agree_of_fresh`);
* if one does, two runs a tick apart disagree at the earlier clock reading
  (`not_agree_of_superseded`).

Together, `rebuild_deterministic_iff_fresh`.
-/
namespace ComputeIntelligence
open AttributionProcessor

/-! ### Runs -/

/-- Feed a list of events to the processor; `clock i` are the readings made while the
`i`-th event is handled. -/
def rebuildFrom (g : InMemoryGraphStore) : List AcceptedEvent → (Nat → Readings) → InMemoryGraphStore
  | [], _ => g
  | e :: es, clock => rebuildFrom (handle g e (clock 0)) es fun i => clock (i + 1)

/-- A rebuild over a fresh store. -/
def rebuild (events : List AcceptedEvent) (clock : Nat → Readings) : InMemoryGraphStore :=
  rebuildFrom {} events clock

/-- A wall clock of a run: nondecreasing, and no reading made while an event is
handled is before the time of the event. -/
structure RunClock (events : List AcceptedEvent) (clock : Nat → Readings) : Prop where
  mono : ∀ i j i' j', i < i' ∨ i = i' ∧ j ≤ j' → clock i j ≤ clock i' j'
  notBefore : ∀ i e, events[i]? = some e → ∀ j, e.1.eventTime.instant ≤ clock i j

/-- An edge without the time its provenance was recorded. -/
def GraphEdge.undated (e : GraphEdge) : GraphEdge :=
  { e with provenance := { e.provenance with createdAt := 0 } }

/-- A node without its two bookkeeping times. -/
def GraphNode.undated (n : GraphNode) : GraphNode := { n with createdAt := 0, updatedAt := 0 }

/-- Two graphs answer every query about an explicit time alike. -/
structure Agree (g g' : InMemoryGraphStore) : Prop where
  edgesFrom : ∀ n t now now', (g.getEdgesFrom n (some t) now).map GraphEdge.undated =
    (g'.getEdgesFrom n (some t) now').map GraphEdge.undated
  edgesTo : ∀ n t now now', (g.getEdgesTo n (some t) now).map GraphEdge.undated =
    (g'.getEdgesTo n (some t) now').map GraphEdge.undated
  nodes : ∀ n, (g.getNode n).map GraphNode.undated = (g'.getNode n).map GraphNode.undated

/-! ### Histories -/

/-- How a version of an edge ends. -/
inductive VersionEnd where
  | never | atTime (t : Instant) | superseded
deriving DecidableEq

/-- A version of an edge, as the events determine it. -/
structure Version where
  edgeType : EdgeType
  fromId : String
  toId : String
  source : String
  validFrom : Instant
  ending : VersionEnd
deriving DecidableEq

namespace Version

def key (v : Version) : EdgeKey := (v.fromId, v.toId, v.edgeType)

/-- The end of the version in a run that supersedes it at `c`. -/
def validTo (v : Version) (c : Instant) : Option Instant :=
  match v.ending with
  | .never => none
  | .atTime t => some t
  | .superseded => some c

/-- The stored edge, if the version is superseded at `c`. -/
def toEdge (v : Version) (c : Instant) : GraphEdge :=
  { eventEdge v.edgeType v.fromId v.toId v.source v.validFrom 0 with validTo := v.validTo c }

/-- The version after its key, if it is `k`, has ended in the given way. -/
def endKey (k : EdgeKey) (how : VersionEnd) (v : Version) : Version :=
  if v.key = k ∧ v.ending = .never then { v with ending := how } else v

@[simp] theorem endKey_key (k : EdgeKey) (how : VersionEnd) (v : Version) :
    (v.endKey k how).key = v.key := by
  unfold endKey
  split <;> rfl

@[simp] theorem endKey_validFrom (k : EdgeKey) (how : VersionEnd) (v : Version) :
    (v.endKey k how).validFrom = v.validFrom := by
  unfold endKey
  split <;> rfl

end Version

/-- One write to a history. -/
def writeHistory (h : List Version) : EdgeWrite → List Version
  | .add edgeType fromId toId source validFrom =>
      h.map (Version.endKey (fromId, toId, edgeType) .superseded) ++
        [⟨edgeType, fromId, toId, source, validFrom, .never⟩]
  | .close key validTo => h.map (Version.endKey key (.atTime validTo))

/-- The edge writes of a list of events. -/
def writesOf (events : List AcceptedEvent) : List EdgeWrite :=
  events.flatMap fun e => edgeWrites e.1

/-! ### The graph matches the history -/

/-- A stored edge is a version of the history, superseded, if it is, at a reading that
satisfies `R`. -/
def Matches (R : Instant → Prop) (e : GraphEdge) (v : Version) : Prop :=
  ∃ c, R c ∧ e.undated = v.toEdge c

/-- The graph is well indexed and its edges are those of the history. -/
structure MatchesHistory (R : Instant → Prop) (g : InMemoryGraphStore) (h : List Version) :
    Prop where
  indexed : g.WellIndexed
  edges : List.Forall₂ (Matches R) g.edges h

variable {R : Instant → Prop}

theorem Matches.key {e : GraphEdge} {v : Version} (h : Matches R e v) : e.key = v.key := by
  obtain ⟨c, -, hc⟩ := h
  exact congrArg GraphEdge.key hc

theorem Matches.validTo {e : GraphEdge} {v : Version} (h : Matches R e v) :
    ∃ c, R c ∧ e.validTo = v.validTo c := by
  obtain ⟨c, hR, hc⟩ := h
  exact ⟨c, hR, congrArg GraphEdge.validTo hc⟩

/-- Ending a key on both sides: in the graph at `t`, in the history in a way that reads
as `t`. -/
theorem Matches.endKey {e : GraphEdge} {v : Version} (h : Matches R e v) (k : EdgeKey)
    {t : Instant} {how : VersionEnd} (hhow : how = .atTime t ∨ how = .superseded ∧ R t) :
    Matches R (GraphEdge.endKey k t e) (v.endKey k how) := by
  have hkey := h.key
  obtain ⟨c, hR, hc⟩ := h
  have hto : e.validTo = v.validTo c := congrArg GraphEdge.validTo hc
  unfold GraphEdge.endKey Version.endKey
  by_cases hk : v.key = k
  · rw [if_pos (hkey.trans hk)]
    by_cases hopen : v.ending = .never
    · rw [if_pos ⟨hk, hopen⟩]
      have hnone : e.validTo = none := by rw [hto, Version.validTo, hopen]
      rw [GraphEdge.endedAt_of_open hnone]
      have hclosed : (e.closeAt t).undated = { v.toEdge c with validTo := some t } := by
        rw [← hc]
        rfl
      rcases hhow with rfl | ⟨rfl, hRt⟩
      · exact ⟨c, hR, hclosed⟩
      · exact ⟨t, hRt, hclosed⟩
    · rw [if_neg (fun h => hopen h.2), GraphEdge.endedAt_of_closed]
      · exact ⟨c, hR, hc⟩
      · rw [hto, Version.validTo]
        cases hend : v.ending with
        | never => exact absurd hend hopen
        | atTime u => simp
        | superseded => simp
  · rw [if_neg (fun h => hk (hkey.symm.trans h)), if_neg (fun h => hk h.1)]
    exact ⟨c, hR, hc⟩

theorem MatchesHistory.addEdge {g : InMemoryGraphStore} {h : List Version}
    (hm : MatchesHistory R g h) (edgeType : EdgeType) (fromId toId source : String)
    (validFrom createdAt : Instant) {now : Instant} (hR : R now) :
    MatchesHistory R (g.addEdge (eventEdge edgeType fromId toId source validFrom createdAt) now)
      (writeHistory h (.add edgeType fromId toId source validFrom)) := by
  refine ⟨hm.indexed.addEdge _ _, ?_⟩
  rw [hm.indexed.addEdge_edges]
  refine List.rel_append (List.forall₂_map_left_iff.mpr (List.forall₂_map_right_iff.mpr ?_)) ?_
  · exact hm.edges.imp fun e v hev => hev.endKey _ (.inr ⟨rfl, hR⟩)
  · exact .cons ⟨now, hR, rfl⟩ .nil

theorem MatchesHistory.closeEdge {g : InMemoryGraphStore} {h : List Version}
    (hm : MatchesHistory R g h) (edgeType : EdgeType) (fromId toId : String)
    (validTo now : Instant) :
    MatchesHistory R (g.closeEdge edgeType fromId toId (some validTo) now).2
      (writeHistory h (.close (fromId, toId, edgeType) validTo)) := by
  refine ⟨hm.indexed.closeEdge _ _ _ _ _, ?_⟩
  rw [hm.indexed.closeEdge_edges]
  refine List.forall₂_map_left_iff.mpr (List.forall₂_map_right_iff.mpr ?_)
  exact hm.edges.imp fun e v hev => hev.endKey _ (.inl rfl)

theorem MatchesHistory.upsertNode {g : InMemoryGraphStore} {h : List Version}
    (hm : MatchesHistory R g h) (node : GraphNode) (now : Instant) :
    MatchesHistory R (g.upsertNode node now) h :=
  ⟨hm.indexed.upsertNode node now, hm.edges⟩

theorem MatchesHistory.handleDeployment {g : InMemoryGraphStore} {h : List Version}
    (hm : MatchesHistory R g h) (e : DomainEvent) {clock : Readings} (hR : ∀ j, R (clock j)) :
    MatchesHistory R (handleDeployment g e clock) ((deploymentWrites e).foldl writeHistory h) := by
  unfold AttributionProcessor.handleDeployment deploymentWrites
  have hdeploy := hm.upsertNode
    { nodeId := deployId e, nodeType := .deployment, label := e.text "service_name" "",
      properties := e.attrs, createdAt := clock 0, updatedAt := clock 1 } (clock 2)
  by_cases ht : e.text "target_resource_arn" "" ≠ "" <;>
    by_cases hd : e.text "deployer_identity" "" ≠ ""
  · simp only [if_pos ht, if_pos hd]
    exact ((hdeploy.upsertNode _ _).addEdge _ _ _ _ _ _ (hR 7)).addEdge _ _ _ _ _ _ (hR 9)
  · simp only [if_pos ht, if_neg hd]
    exact (hdeploy.upsertNode _ _).addEdge _ _ _ _ _ _ (hR 7)
  · simp only [if_neg ht, if_pos hd]
    exact hdeploy.addEdge _ _ _ _ _ _ (hR 9)
  · simp only [if_neg ht, if_neg hd]
    exact hdeploy

theorem MatchesHistory.handleBilling {g : InMemoryGraphStore} {h : List Version}
    (hm : MatchesHistory R g h) (e : DomainEvent) (clock : Readings) :
    MatchesHistory R (handleBilling g e clock) h := by
  unfold AttributionProcessor.handleBilling
  dsimp only
  split
  · split
    · exact hm.upsertNode _ _
    · exact hm
  · exact hm

theorem MatchesHistory.handleOrgChange {g : InMemoryGraphStore} {h : List Version}
    (hm : MatchesHistory R g h) (e : DomainEvent) {clock : Readings} (hR : ∀ j, R (clock j)) :
    MatchesHistory R (handleOrgChange g e clock) ((orgChangeWrites e).foldl writeHistory h) := by
  unfold AttributionProcessor.handleOrgChange orgChangeWrites
  by_cases hp : e.text "person_id" "" = ""
  · simp only [if_pos hp]
    exact hm
  · simp only [if_neg hp]
    by_cases hc : e.text "previous_team" "" ≠ "" ∧
        e.text "previous_team" "" ≠ e.text "new_team" "" <;>
      by_cases ha : e.text "new_team" "" ≠ "" ∧ e.text "previous_team" "" ≠ e.text "new_team" ""
    · simp only [if_pos hc, if_pos ha]
      exact (hm.closeEdge _ _ _ _ _).addEdge _ _ _ _ _ _ (hR 2)
    · simp only [if_pos hc, if_neg ha]
      exact hm.closeEdge _ _ _ _ _
    · simp only [if_neg hc, if_pos ha]
      exact hm.addEdge _ _ _ _ _ _ (hR 2)
    · simp only [if_neg hc, if_neg ha]
      exact hm

/-- **One event**: its handler makes the writes of the event. -/
theorem MatchesHistory.handle {g : InMemoryGraphStore} {h : List Version}
    (hm : MatchesHistory R g h) (e : AcceptedEvent) {clock : Readings} (hR : ∀ j, R (clock j)) :
    MatchesHistory R (handle g e clock) ((edgeWrites e.1).foldl writeHistory h) := by
  unfold AttributionProcessor.handle edgeWrites
  cases e.1.eventType with
  | deployment => exact hm.handleDeployment e.1 hR
  | orgChange => exact hm.handleOrgChange e.1 hR
  | billingLineItem => exact hm.handleBilling e.1 clock
  | _ => exact hm

theorem matches_rebuildFrom {g : InMemoryGraphStore} {h : List Version}
    (hm : MatchesHistory R g h) (events : List AcceptedEvent) {clock : Nat → Readings}
    (hR : ∀ i j, R (clock i j)) :
    MatchesHistory R (rebuildFrom g events clock) ((writesOf events).foldl writeHistory h) := by
  induction events generalizing g h clock with
  | nil => exact hm
  | cons e es ih =>
    rw [writesOf, List.flatMap_cons, List.foldl_append]
    exact ih (hm.handle e (hR 0)) fun i => hR (i + 1)

/-- The history a list of events determines. -/
def historyOf (events : List AcceptedEvent) : List Version :=
  (writesOf events).foldl writeHistory []

/-- **The graph of a run matches the history of its events.** -/
theorem matches_rebuild (events : List AcceptedEvent) (clock : Nat → Readings)
    (hR : ∀ i j, R (clock i j)) :
    MatchesHistory R (rebuild events clock) (historyOf events) :=
  matches_rebuildFrom ⟨InMemoryGraphStore.wellIndexed_empty, .nil⟩ events hR

/-! ### Nodes do not depend on the clock -/

/-- Two graphs have the same nodes, up to their bookkeeping times. -/
def SameNodes (g g' : InMemoryGraphStore) : Prop :=
  ∀ n, (g.getNode n).map GraphNode.undated = (g'.getNode n).map GraphNode.undated

theorem getNode_upsertNode (g : InMemoryGraphStore) (node : GraphNode) (now : Instant) (n : String) :
    ((g.upsertNode node now).getNode n).map GraphNode.undated =
      if n = node.nodeId then some node.undated else (g.getNode n).map GraphNode.undated := by
  unfold InMemoryGraphStore.upsertNode InMemoryGraphStore.getNode
  cases g.nodes.get? node.nodeId <;>
  · simp only [PyDict.get?_set]
    by_cases hn : n = node.nodeId
    · simp [hn, GraphNode.undated]
    · simp [hn]

theorem SameNodes.upsertNode {g g' : InMemoryGraphStore} (h : SameNodes g g')
    {node node' : GraphNode} (hnode : node.undated = node'.undated) (now now' : Instant) :
    SameNodes (g.upsertNode node now) (g'.upsertNode node' now') := by
  intro n
  have hid : node.undated.nodeId = node'.undated.nodeId := congrArg GraphNode.nodeId hnode
  change node.nodeId = node'.nodeId at hid
  rw [getNode_upsertNode, getNode_upsertNode, hnode, hid, h n]

theorem SameNodes.addEdge {g g' : InMemoryGraphStore} (h : SameNodes g g')
    (edge edge' : GraphEdge) (now now' : Instant) :
    SameNodes (g.addEdge edge now) (g'.addEdge edge' now') :=
  fun n => h n

theorem SameNodes.handleDeployment {g g' : InMemoryGraphStore} (h : SameNodes g g')
    (e : DomainEvent) (clock clock' : Readings) :
    SameNodes (handleDeployment g e clock) (handleDeployment g' e clock') := by
  have hdeploy : SameNodes
      (g.upsertNode
        { nodeId := deployId e, nodeType := .deployment, label := e.text "service_name" "",
          properties := e.attrs, createdAt := clock 0, updatedAt := clock 1 } (clock 2))
      (g'.upsertNode
        { nodeId := deployId e, nodeType := .deployment, label := e.text "service_name" "",
          properties := e.attrs, createdAt := clock' 0, updatedAt := clock' 1 } (clock' 2)) := by
    apply h.upsertNode
    rfl
  unfold AttributionProcessor.handleDeployment
  by_cases ht : e.text "target_resource_arn" "" ≠ "" <;>
    by_cases hd : e.text "deployer_identity" "" ≠ ""
  · simp only [if_pos ht, if_pos hd]
    refine ((hdeploy.upsertNode ?_ _ _).addEdge _ _ _ _).addEdge _ _ _ _
    rfl
  · simp only [if_pos ht, if_neg hd]
    refine (hdeploy.upsertNode ?_ _ _).addEdge _ _ _ _
    rfl
  · simp only [if_neg ht, if_pos hd]
    exact hdeploy.addEdge _ _ _ _
  · simp only [if_neg ht, if_neg hd]
    exact hdeploy

theorem undated_withProperties {node node' : GraphNode} (h : node.undated = node'.undated)
    (p : PyDict String PyVal) :
    ({ node with properties := p } : GraphNode).undated =
      ({ node' with properties := p } : GraphNode).undated :=
  congrArg (fun n : GraphNode => { n with properties := p }) h

theorem SameNodes.handleBilling {g g' : InMemoryGraphStore} (h : SameNodes g g')
    (e : DomainEvent) (clock clock' : Readings) :
    SameNodes (handleBilling g e clock) (handleBilling g' e clock') := by
  unfold AttributionProcessor.handleBilling
  dsimp only
  split
  · have hn := h ("resource:" ++ e.text "resource_arn" "")
    cases hg : g.getNode ("resource:" ++ e.text "resource_arn" "") with
    | none =>
      rw [hg] at hn
      rw [Option.map_eq_none_iff.mp hn.symm]
      exact h
    | some node =>
      rw [hg] at hn
      obtain ⟨node', hg', hnode⟩ := Option.map_eq_some_iff.mp hn.symm
      rw [hg']
      refine h.upsertNode ?_ _ _
      have hprops : node'.undated.properties = node.undated.properties :=
        congrArg GraphNode.properties hnode
      change node'.properties = node.properties at hprops
      rw [hprops]
      exact undated_withProperties hnode.symm _
  · exact h

theorem nodes_handleOrgChange {g : InMemoryGraphStore} (hg : g.WellIndexed) (e : DomainEvent)
    (clock : Readings) (n : String) : (handleOrgChange g e clock).getNode n = g.getNode n := by
  have hclose : ∀ ty a b t now, (g.closeEdge ty a b t now).2.getNode n = g.getNode n := by
    intro ty a b t now
    unfold InMemoryGraphStore.getNode
    rw [(hg.closeEdge_spec rfl).2.1]
  unfold handleOrgChange
  dsimp only
  split
  · rfl
  · split <;> split
    · exact hclose _ _ _ _ _
    · rfl
    · exact hclose _ _ _ _ _
    · rfl

theorem SameNodes.handle {g g' : InMemoryGraphStore} (h : SameNodes g g')
    (hg : g.WellIndexed) (hg' : g'.WellIndexed) (e : AcceptedEvent) (clock clock' : Readings) :
    SameNodes (handle g e clock) (handle g' e clock') := by
  unfold AttributionProcessor.handle
  cases e.1.eventType with
  | deployment => exact h.handleDeployment e.1 clock clock'
  | billingLineItem => exact h.handleBilling e.1 clock clock'
  | orgChange =>
    intro n
    rw [nodes_handleOrgChange hg, nodes_handleOrgChange hg']
    exact h n
  | _ => exact h

theorem sameNodes_rebuildFrom {g g' : InMemoryGraphStore} {h h' : List Version}
    (hg : MatchesHistory (fun _ => True) g h) (hg' : MatchesHistory (fun _ => True) g' h')
    (hs : SameNodes g g') (events : List AcceptedEvent) (clock clock' : Nat → Readings) :
    SameNodes (rebuildFrom g events clock) (rebuildFrom g' events clock') := by
  induction events generalizing g g' h h' clock clock' with
  | nil => exact hs
  | cons e es ih =>
    exact ih (hg.handle e fun _ => trivial) (hg'.handle e fun _ => trivial)
      (hs.handle hg.indexed hg'.indexed e _ _) _ _

/-! ### Superseding -/

/-- The keys that have an open version, after one more write. -/
def openKeys (keys : List EdgeKey) : EdgeWrite → List EdgeKey
  | .add edgeType fromId toId _ _ => (fromId, toId, edgeType) :: keys
  | .close key _ => keys.filter (· ≠ key)

/-- The write does not add a version to a key that still has an open one. -/
def AddsFresh (keys : List EdgeKey) : EdgeWrite → Prop
  | .add edgeType fromId toId _ _ => (fromId, toId, edgeType) ∉ keys
  | .close _ _ => True

instance (keys : List EdgeKey) (w : EdgeWrite) : Decidable (AddsFresh keys w) :=
  match w with
  | .add _ _ _ _ _ => inferInstanceAs (Decidable (¬ _))
  | .close _ _ => inferInstanceAs (Decidable True)

/-- No version was superseded. -/
def NoneSuperseded (h : List Version) : Prop := ∀ v ∈ h, v.ending ≠ .superseded

instance (h : List Version) : Decidable (NoneSuperseded h) :=
  inferInstanceAs (Decidable (∀ v ∈ h, _))

/-- The listed keys are those with an open version. -/
def OpenIn (keys : List EdgeKey) (h : List Version) : Prop :=
  ∀ k, k ∈ keys ↔ ∃ v ∈ h, v.key = k ∧ v.ending = .never

/-- A superseded version stays superseded. -/
theorem superseded_endKey {v : Version} (h : v.ending = .superseded) (k : EdgeKey)
    (how : VersionEnd) : v.endKey k how = v := by
  unfold Version.endKey
  rw [if_neg fun hk => by rw [h] at hk; cases hk.2]

theorem noneSuperseded_of_write {h : List Version} {w : EdgeWrite}
    (hw : NoneSuperseded (writeHistory h w)) : NoneSuperseded h := by
  intro v hv hsup
  cases w with
  | add edgeType fromId toId source validFrom =>
    refine hw v (List.mem_append_left _ (List.mem_map.mpr ⟨v, hv, ?_⟩)) hsup
    exact superseded_endKey hsup _ _
  | close key validTo =>
    refine hw v (List.mem_map.mpr ⟨v, hv, ?_⟩) hsup
    exact superseded_endKey hsup _ _

theorem noneSuperseded_of_writes {h : List Version} {ws : List EdgeWrite}
    (hw : NoneSuperseded (ws.foldl writeHistory h)) : NoneSuperseded h := by
  induction ws generalizing h with
  | nil => exact hw
  | cons w ws ih => exact noneSuperseded_of_write (ih hw)

theorem ending_endKey_never {v : Version} {k : EdgeKey} {how : VersionEnd} (hhow : how ≠ .never) :
    (v.endKey k how).ending = .never ↔ v.key ≠ k ∧ v.ending = .never := by
  unfold Version.endKey
  by_cases hk : v.key = k <;> by_cases hv : v.ending = .never <;> simp [hk, hv, hhow]

/-- Both writes keep the list of open keys. -/
theorem OpenIn.write {keys : List EdgeKey} {h : List Version} (ho : OpenIn keys h)
    (w : EdgeWrite) : OpenIn (openKeys keys w) (writeHistory h w) := by
  intro k
  cases w with
  | add edgeType fromId toId source validFrom =>
    simp only [openKeys, writeHistory, List.mem_cons, List.mem_append, List.mem_map,
      List.not_mem_nil, or_false]
    constructor
    · rintro (rfl | hk)
      · exact ⟨_, .inr rfl, rfl, rfl⟩
      · obtain ⟨v, hv, rfl, hopen⟩ := (ho k).mp hk
        by_cases hkey : v.key = (fromId, toId, edgeType)
        · exact ⟨_, .inr rfl, hkey.symm, rfl⟩
        · refine ⟨_, .inl ⟨v, hv, rfl⟩, Version.endKey_key _ _ _, ?_⟩
          exact (ending_endKey_never (by simp)).mpr ⟨hkey, hopen⟩
    · rintro ⟨v, ⟨v₀, hv₀, rfl⟩ | rfl, rfl, hopen⟩
      · rw [Version.endKey_key]
        exact .inr ((ho _).mpr ⟨v₀, hv₀, rfl, ((ending_endKey_never (by simp)).mp hopen).2⟩)
      · exact .inl rfl
  | close key validTo =>
    simp only [openKeys, writeHistory, List.mem_filter, List.mem_map, decide_eq_true_eq]
    constructor
    · rintro ⟨hk, hne⟩
      obtain ⟨v, hv, rfl, hopen⟩ := (ho k).mp hk
      refine ⟨_, ⟨v, hv, rfl⟩, Version.endKey_key _ _ _, ?_⟩
      exact (ending_endKey_never (by simp)).mpr ⟨hne, hopen⟩
    · rintro ⟨v, ⟨v₀, hv₀, rfl⟩, rfl, hopen⟩
      obtain ⟨hne, hopen₀⟩ := (ending_endKey_never (by simp)).mp hopen
      rw [Version.endKey_key]
      exact ⟨(ho _).mpr ⟨v₀, hv₀, rfl, hopen₀⟩, hne⟩

/-- One write supersedes a version exactly when it is not fresh. -/
theorem noneSuperseded_write_iff {keys : List EdgeKey} {h : List Version} (ho : OpenIn keys h)
    (hn : NoneSuperseded h) (w : EdgeWrite) :
    NoneSuperseded (writeHistory h w) ↔ AddsFresh keys w := by
  cases w with
  | add edgeType fromId toId source validFrom =>
    constructor
    · intro hw hk
      obtain ⟨v, hv, hkey, hopen⟩ := (ho _).mp hk
      refine hw _ (List.mem_append_left _ (List.mem_map_of_mem hv)) ?_
      rw [Version.endKey, if_pos ⟨hkey, hopen⟩]
    · intro hf v hv
      rcases List.mem_append.mp hv with hv | hv
      · obtain ⟨v₀, hv₀, rfl⟩ := List.mem_map.mp hv
        have hnot : ¬ (v₀.key = (fromId, toId, edgeType) ∧ v₀.ending = .never) :=
          fun hc => hf ((ho _).mpr ⟨v₀, hv₀, hc.1, hc.2⟩)
        rw [Version.endKey, if_neg hnot]
        exact hn v₀ hv₀
      · rw [List.mem_singleton.mp hv]
        simp
  | close key validTo =>
    refine ⟨fun _ => trivial, fun _ v hv => ?_⟩
    obtain ⟨v₀, hv₀, rfl⟩ := List.mem_map.mp hv
    unfold Version.endKey
    split
    · simp
    · exact hn v₀ hv₀

/-- **No version of the history is superseded exactly when every write is fresh.** -/
theorem noneSuperseded_iff_fresh {keys : List EdgeKey} {h : List Version} (ho : OpenIn keys h)
    (hn : NoneSuperseded h) (ws : List EdgeWrite) :
    NoneSuperseded (ws.foldl writeHistory h) ↔ Run.Guarded openKeys AddsFresh keys ws := by
  induction ws generalizing keys h with
  | nil => exact ⟨fun _ => trivial, fun _ => hn⟩
  | cons w ws ih =>
    constructor
    · intro hw
      have hw₁ : NoneSuperseded (writeHistory h w) := noneSuperseded_of_writes hw
      exact ⟨(noneSuperseded_write_iff ho hn w).mp hw₁, (ih (ho.write w) hw₁).mp hw⟩
    · rintro ⟨hf, hrest⟩
      exact (ih (ho.write w) ((noneSuperseded_write_iff ho hn w).mpr hf)).mpr hrest

/-- No event of the list adds an edge whose key still has an open version. -/
def FreshEdges (events : List AcceptedEvent) : Prop :=
  Run.Guarded openKeys AddsFresh [] (writesOf events)

theorem noneSuperseded_historyOf_iff (events : List AcceptedEvent) :
    NoneSuperseded (historyOf events) ↔ FreshEdges events :=
  noneSuperseded_iff_fresh (fun k => by simp) (fun v hv => by cases hv) (writesOf events)

/-! ### Agreement -/

theorem getEdgesFrom_undated {g : InMemoryGraphStore} (hg : g.WellIndexed) (n : String)
    (t now : Instant) :
    (g.getEdgesFrom n (some t) now).map GraphEdge.undated =
      (g.edges.map GraphEdge.undated).filter fun e =>
        decide (e.fromId = n) && decide (e.span.Mem t) := by
  rw [hg.getEdgesFrom_eq, List.filter_map]
  rfl

theorem getEdgesTo_undated {g : InMemoryGraphStore} (hg : g.WellIndexed) (n : String)
    (t now : Instant) :
    (g.getEdgesTo n (some t) now).map GraphEdge.undated =
      (g.edges.map GraphEdge.undated).filter fun e =>
        decide (e.toId = n) && decide (e.span.Mem t) := by
  rw [hg.getEdgesTo_eq, List.filter_map]
  rfl

theorem agree_of_edges {g g' : InMemoryGraphStore} (hg : g.WellIndexed) (hg' : g'.WellIndexed)
    (hedges : g.edges.map GraphEdge.undated = g'.edges.map GraphEdge.undated)
    (hnodes : SameNodes g g') : Agree g g' := by
  refine ⟨fun n t now now' => ?_, fun n t now now' => ?_, hnodes⟩
  · rw [getEdgesFrom_undated hg, getEdgesFrom_undated hg', hedges]
  · rw [getEdgesTo_undated hg, getEdgesTo_undated hg', hedges]

/-- In a run that supersedes only at `c`, the edges are those of the history. -/
theorem MatchesHistory.edges_eq {g : InMemoryGraphStore} {h : List Version} {c : Instant}
    (hm : MatchesHistory (· = c) g h) :
    g.edges.map GraphEdge.undated = h.map fun v => v.toEdge c := by
  refine List.forall₂_eq_eq_eq ▸ List.forall₂_map_left_iff.mpr (List.forall₂_map_right_iff.mpr ?_)
  refine hm.edges.imp fun e v hev => ?_
  obtain ⟨_, rfl, he⟩ := hev
  exact he

theorem toEdge_of_not_superseded {v : Version} (hv : v.ending ≠ .superseded) (c c' : Instant) :
    v.toEdge c = v.toEdge c' := by
  unfold Version.toEdge Version.validTo
  cases h : v.ending with
  | never => rfl
  | atTime t => rfl
  | superseded => exact absurd h hv

/-- Where nothing was superseded, the time at which it would have been is of no
account. -/
theorem matches_of_noneSuperseded {es : List GraphEdge} {h : List Version}
    (hm : List.Forall₂ (Matches R) es h) (hn : NoneSuperseded h) (c : Instant) :
    List.Forall₂ (Matches (· = c)) es h := by
  induction hm with
  | nil => exact .nil
  | @cons e v es h hev _ ih =>
    obtain ⟨hv, hrest⟩ := List.forall_mem_cons.mp hn
    obtain ⟨c', -, he⟩ := hev
    exact .cons ⟨c, rfl, he.trans (toEdge_of_not_superseded hv c' c)⟩ (ih hrest)

/-- **Fresh edges: any two runs agree**, whatever their clocks. -/
theorem agree_of_fresh {events : List AcceptedEvent} (hf : FreshEdges events)
    (clock clock' : Nat → Readings) : Agree (rebuild events clock) (rebuild events clock') := by
  have hn := (noneSuperseded_historyOf_iff events).mpr hf
  have hm := matches_rebuild (R := fun _ => True) events clock fun _ _ => trivial
  have hm' := matches_rebuild (R := fun _ => True) events clock' fun _ _ => trivial
  have he : MatchesHistory (· = 0) _ _ := ⟨hm.indexed, matches_of_noneSuperseded hm.edges hn 0⟩
  have he' : MatchesHistory (· = 0) _ _ := ⟨hm'.indexed, matches_of_noneSuperseded hm'.edges hn 0⟩
  have hempty : MatchesHistory (fun _ => True) {} [] :=
    ⟨InMemoryGraphStore.wellIndexed_empty, .nil⟩
  exact agree_of_edges hm.indexed hm'.indexed (he.edges_eq.trans he'.edges_eq.symm)
    (sameNodes_rebuildFrom hempty hempty (fun _ => rfl) events clock clock')

/-! ### Disagreement -/

theorem validFrom_writeHistory {h : List Version} {m : Instant} (hh : ∀ v ∈ h, v.validFrom ≤ m)
    {w : EdgeWrite} (hw : ∀ ty a b src t, w = .add ty a b src t → t ≤ m) :
    ∀ v ∈ writeHistory h w, v.validFrom ≤ m := by
  have hmap : ∀ k how, ∀ v ∈ h.map (Version.endKey k how), v.validFrom ≤ m := by
    intro k how v hv
    obtain ⟨v₀, hv₀, rfl⟩ := List.mem_map.mp hv
    rw [Version.endKey_validFrom]
    exact hh v₀ hv₀
  intro v hv
  cases w with
  | add ty a b src t =>
    rcases List.mem_append.mp hv with hv | hv
    · exact hmap _ _ v hv
    · rw [List.mem_singleton.mp hv]
      exact hw ty a b src t rfl
  | close k t => exact hmap _ _ v hv

/-- The versions of a history start no later than its latest event. -/
theorem validFrom_historyOf {events : List AcceptedEvent} {m : Instant}
    (hm : ∀ e ∈ events, e.1.eventTime.instant ≤ m) : ∀ v ∈ historyOf events, v.validFrom ≤ m := by
  have hws : ∀ w ∈ writesOf events, ∀ ty a b src t, w = .add ty a b src t → t ≤ m := by
    rintro w hw ty a b src t rfl
    obtain ⟨e, he, hmem⟩ := List.mem_flatMap.mp hw
    rw [validFrom_of_mem_edgeWrites hmem]
    exact hm e he
  have hgo : ∀ (ws : List EdgeWrite) (h : List Version),
      (∀ w ∈ ws, ∀ ty a b src t, w = .add ty a b src t → t ≤ m) →
      (∀ v ∈ h, v.validFrom ≤ m) → ∀ v ∈ ws.foldl writeHistory h, v.validFrom ≤ m := by
    intro ws
    induction ws with
    | nil => exact fun h _ hh => hh
    | cons w ws ih =>
      intro h hw hh
      obtain ⟨hw₁, hrest⟩ := List.forall_mem_cons.mp hw
      exact ih _ hrest (validFrom_writeHistory hh hw₁)
  exact hgo _ [] hws fun v hv => by cases hv

/-- At `m`, the version is out of the graph that supersedes at `m` and in the graph
that supersedes a tick later; no other version differs. -/
theorem toEdge_mem_mono (v : Version) (m : Instant) (h : (v.toEdge m).span.Mem m) :
    (v.toEdge (m + 1)).span.Mem m := by
  refine ⟨h.1, fun u hu => ?_⟩
  have hto := h.2
  simp only [GraphEdge.span, Version.toEdge, Version.validTo] at hu hto
  cases hend : v.ending with
  | never => simp [hend] at hu
  | atTime t => simp_all
  | superseded => simp_all

theorem countP_lt {α : Type} {p q : α → Bool} {l : List α} (hpq : ∀ a ∈ l, p a → q a) {a : α}
    (ha : a ∈ l) (hp : ¬ p a) (hq : q a) : l.countP p < l.countP q := by
  obtain ⟨l₁, l₂, rfl⟩ := List.append_of_mem ha
  have h₁ : l₁.countP p ≤ l₁.countP q :=
    List.countP_mono_left fun b hb => hpq b (List.mem_append_left _ hb)
  have h₂ : l₂.countP p ≤ l₂.countP q :=
    List.countP_mono_left fun b hb => hpq b (List.mem_append_right _ (List.mem_cons_of_mem _ hb))
  simp only [List.countP_append, List.countP_cons, hp, hq]
  simp only [Bool.false_eq_true, if_false, if_true]
  omega

/-- A clock that stands still. -/
def stoppedClock (c : Instant) : Nat → Readings := fun _ _ => c

/-- **A superseded version: two runs a tick apart disagree.** -/
theorem not_agree_of_superseded {events : List AcceptedEvent} {m : Instant}
    (hm : ∀ e ∈ events, e.1.eventTime.instant ≤ m)
    (hs : ¬ NoneSuperseded (historyOf events)) :
    ¬ Agree (rebuild events (stoppedClock m)) (rebuild events (stoppedClock (m + 1))) := by
  intro hagree
  obtain ⟨v, hv, hend⟩ : ∃ v ∈ historyOf events, v.ending = .superseded := by
    simpa [NoneSuperseded] using hs
  have hm₁ := matches_rebuild (R := (· = m)) events (stoppedClock m) fun _ _ => rfl
  have hm₂ := matches_rebuild (R := (· = m + 1)) events (stoppedClock (m + 1))
    fun _ _ => rfl
  have heq := congrArg List.length (hagree.edgesFrom v.fromId m m m)
  rw [getEdgesFrom_undated hm₁.indexed, getEdgesFrom_undated hm₂.indexed, hm₁.edges_eq,
    hm₂.edges_eq, ← List.countP_eq_length_filter, ← List.countP_eq_length_filter,
    List.countP_map, List.countP_map] at heq
  refine absurd heq (Nat.ne_of_lt (countP_lt ?_ hv ?_ ?_))
  · intro w _ hw
    simp only [Function.comp_apply, Bool.and_eq_true, decide_eq_true_eq] at hw ⊢
    exact ⟨hw.1, toEdge_mem_mono w m hw.2⟩
  · simp only [Function.comp_apply, Bool.and_eq_true, decide_eq_true_eq]
    rintro ⟨-, hmem⟩
    refine absurd (hmem.2 m ?_) (lt_irrefl m)
    simp [GraphEdge.span, Version.toEdge, Version.validTo, hend]
  · simp only [Function.comp_apply, Bool.and_eq_true, decide_eq_true_eq]
    refine ⟨rfl, validFrom_historyOf hm v hv, fun u hu => ?_⟩
    simp only [GraphEdge.span, Version.toEdge, Version.validTo, hend, Option.mem_def,
      Option.some.injEq] at hu
    exact hu ▸ Int.lt_succ m

theorem runClock_stopped {events : List AcceptedEvent} {c : Instant}
    (hc : ∀ e ∈ events, e.1.eventTime.instant ≤ c) : RunClock events (stoppedClock c) :=
  ⟨fun _ _ _ _ _ => le_refl c, fun _ e he _ => hc e (List.mem_of_getElem? he)⟩

theorem exists_latest (events : List AcceptedEvent) :
    ∃ m : Instant, ∀ e ∈ events, e.1.eventTime.instant ≤ m := by
  induction events with
  | nil => exact ⟨0, fun e he => by cases he⟩
  | cons e es ih =>
    obtain ⟨m, hm⟩ := ih
    refine ⟨max e.1.eventTime.instant m, List.forall_mem_cons.mpr ⟨le_max_left _ _, ?_⟩⟩
    exact fun e' he' => (hm e' he').trans (le_max_right _ _)

/-- **Rebuilding is deterministic exactly when no event of the log adds an edge whose
key still has an open version.** -/
theorem rebuild_deterministic_iff_fresh (events : List AcceptedEvent) :
    (∀ clock clock', RunClock events clock → RunClock events clock' →
      Agree (rebuild events clock) (rebuild events clock')) ↔ FreshEdges events := by
  constructor
  · intro h
    rw [← noneSuperseded_historyOf_iff]
    by_contra hs
    obtain ⟨m, hm⟩ := exists_latest events
    refine not_agree_of_superseded hm hs (h _ _ (runClock_stopped hm) (runClock_stopped ?_))
    exact fun e he => (hm e he).trans (Int.le_of_lt (Int.lt_succ m))
  · intro hf clock clock' _ _
    exact agree_of_fresh hf clock clock'

/-- A person is in a team. -/
def coreMembership : {d : PyDict String PyVal // payloadFits d} :=
  ⟨⟨[("person_id", .str "ada"), ("new_team", .str "core")], by decide⟩, by decide +kernel⟩

theorem coreMembership_accepts : orgChangePayload.Accepts coreMembership.1 := by
  decide +kernel

/-- The membership, reported at `t`. -/
def joinsTeam (id : String) (t : Int) : AcceptedEvent :=
  ⟨{ eventId := id, eventType := .orgChange, subjectId := "ada", attributes := coreMembership,
     eventTime := AwareDateTime.utc t, ingestTime := AwareDateTime.utc t, source := "workday",
     idempotencyKey := id, tenantId := "acme" }, ⟨rfl, coreMembership_accepts⟩⟩

/-- Two reports of one membership, at 0 and at 1.  Rebuilt at 1 the first version
ends at 1, rebuilt at 2 it ends at 2: the answers for time 1 differ. -/
theorem rebuild_depends_on_clock :
    ¬ ∀ events clock clock', RunClock events clock → RunClock events clock' →
      Agree (rebuild events clock) (rebuild events clock') := by
  intro h
  have hm : ∀ e ∈ [joinsTeam "e0" 0, joinsTeam "e1" 1], e.1.eventTime.instant ≤ 1 := by
    decide +kernel
  refine not_agree_of_superseded hm ?_ (h _ _ _ (runClock_stopped hm) (runClock_stopped ?_))
  · decide +kernel
  · exact fun e he => (hm e he).trans (by decide)

end ComputeIntelligence
