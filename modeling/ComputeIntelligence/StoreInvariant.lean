import ComputeIntelligence.GraphBackends

/-! # The indices of the memory store

`InMemoryGraphStore` keeps two containers, its nodes and its list of edges, and four indices
beside them.  `Represented` says that the indices add nothing: each is what its container
says.  Every operation restores it, and no operation but `clear` changes a stored edge,
except that the open edge of its own key ends.
-/
namespace ComputeIntelligence

namespace GraphCall

/-- The key whose edge the call writes. -/
def key : GraphCall → Option EdgeKey
  | addEdge edge _ _ => some edge.key
  | closeEdge edgeType fromId toId _ _ => some (fromId, toId, edgeType)
  | upsertNode _ _ | clear => none

end GraphCall

namespace InMemoryGraphStore
variable {s : InMemoryGraphStore}

/-- One call on the store. -/
def called (s : InMemoryGraphStore) : GraphCall → InMemoryGraphStore
  | .upsertNode node now => s.upsertNode node now
  | .addEdge edge now _ => s.addEdge edge now
  | .closeEdge edgeType fromId toId validTo now =>
      (s.closeEdge edgeType fromId toId validTo now).2
  | .clear => s.clear

/-- Every index is what its container says. -/
structure Represented (s : InMemoryGraphStore) : Prop where
  /-- The set of a type is the set of the ids of the stored nodes of the type. -/
  nodesByType : ∀ nodeType nodeId, nodeId ∈ s.nodesByType.getD nodeType [] ↔
    ∃ node, s.nodes.get? nodeId = some node ∧ node.nodeType = nodeType
  isSet : ∀ nodeType, (s.nodesByType.getD nodeType []).Nodup
  /-- The edges that leave a node, and those that enter it, by their positions. -/
  fromIndex : ∀ n i, i ∈ s.fromIndex.getD n [] ↔ ∃ e, s.edges[i]? = some e ∧ e.fromId = n
  fromIncreasing : ∀ n, (s.fromIndex.getD n []).Pairwise (· < ·)
  toIndex : ∀ n i, i ∈ s.toIndex.getD n [] ↔ ∃ e, s.edges[i]? = some e ∧ e.toId = n
  toIncreasing : ∀ n, (s.toIndex.getD n []).Pairwise (· < ·)
  getEdgesFrom : ∀ n t now, s.getEdgesFrom n (some t) now =
    s.edges.filter fun e => decide (e.fromId = n) && decide (e.span.Mem t)
  getEdgesTo : ∀ n t now, s.getEdgesTo n (some t) now =
    s.edges.filter fun e => decide (e.toId = n) && decide (e.span.Mem t)
  /-- A key has one open edge at most, and the index points to it. -/
  oneOpen : ∀ (i j : Nat) (e e' : GraphEdge), s.edges[i]? = some e → s.edges[j]? = some e' →
    e.validTo = none → e'.validTo = none → e.key = e'.key → i = j
  activeEdgeIndex : ∀ (i : Nat) (e : GraphEdge), s.edges[i]? = some e → e.validTo = none →
    s.activeEdgeIndex.get? e.key = some i

/-- What a call may do to the stored edges: nothing, but that the open edge of its key ends. -/
def Keeps (s s' : InMemoryGraphStore) (key : Option EdgeKey) : Prop :=
  ∀ (i : Nat) (e : GraphEdge), s.edges[i]? = some e → s'.edges[i]? = some e ∨
    (key = some e.key ∧ e.validTo = none ∧ ∃ t, s'.edges[i]? = some (e.closeAt t))

/-! ### Positions -/

theorem mem_positionsOf {endpoint : GraphEdge → String} {edges : List GraphEdge} {n : String}
    {i : Nat} : i ∈ positionsOf endpoint edges n ↔ ∃ e, edges[i]? = some e ∧ endpoint e = n := by
  unfold positionsOf
  rw [List.mem_filter, List.mem_range, decide_eq_true_eq, Option.map_eq_some_iff]
  refine and_iff_right_of_imp ?_
  rintro ⟨e, he, -⟩
  exact (List.getElem?_eq_some_iff.1 he).1

theorem positionsOf_increasing (endpoint : GraphEdge → String) (edges : List GraphEdge)
    (n : String) : (positionsOf endpoint edges n).Pairwise (· < ·) :=
  List.Pairwise.filter _ List.pairwise_lt_range

/-! ### Types -/

/-- The sets of the types have no repetitions. -/
def TypeSets (s : InMemoryGraphStore) : Prop :=
  ∀ nodeType, (s.nodesByType.getD nodeType []).Nodup

theorem TypeSets.upsertNode (h : TypeSets s) (node : GraphNode) (now : Instant) :
    TypeSets (s.upsertNode node now) := by
  have hdiscarded : ∀ nodeType, ((s.discarded node).getD nodeType []).Nodup := by
    intro nodeType
    unfold discarded
    split
    · exact h nodeType
    · unfold TypeSets PyDict.getD at h
      unfold PyDict.getD
      rw [PyDict.get?_set]
      split
      · exact (h _).filter _
      · exact h nodeType
  -- the id is appended to the set of its type, unless it is there
  intro nodeType
  rw [upsertNode_nodesByType]
  unfold PyDict.getD at hdiscarded ⊢
  rw [PyDict.get?_set]
  split
  · rename_i htype
    rw [Option.getD_some]
    split
    · exact hdiscarded _
    · rename_i hnew
      refine List.nodup_append.2 ⟨hdiscarded _, List.nodup_singleton _, ?_⟩
      intro a ha b hb hab
      rw [List.mem_singleton.1 hb] at hab
      exact hnew (by rw [← hab]; exact ha)
  · exact hdiscarded nodeType

/-! ### One call -/

/-- The invariant of a run: the indices describe the edges and the nodes. -/
structure Consistent (s : InMemoryGraphStore) : Prop where
  indexed : s.WellIndexed
  typed : s.WellTyped
  sets : s.TypeSets

theorem Consistent.represented (h : Consistent s) : Represented s where
  nodesByType := h.typed.byType
  isSet := h.sets
  fromIndex n i := by
    rw [h.indexed.from_eq]
    exact mem_positionsOf
  fromIncreasing n := by
    rw [h.indexed.from_eq]
    exact positionsOf_increasing _ _ _
  toIndex n i := by
    rw [h.indexed.to_eq]
    exact mem_positionsOf
  toIncreasing n := by
    rw [h.indexed.to_eq]
    exact positionsOf_increasing _ _ _
  getEdgesFrom n t now := h.indexed.getEdgesFrom_eq n (some t) now
  getEdgesTo n t now := h.indexed.getEdgesTo_eq n (some t) now
  oneOpen i j e e' he he' hopen hopen' hkey := by
    -- both are the active edge of their key
    have hi := h.indexed.open_active i e he hopen
    have hj := h.indexed.open_active j e' he' hopen'
    rw [hkey, hj] at hi
    exact (Option.some.inj hi).symm
  activeEdgeIndex := h.indexed.open_active

theorem consistent_empty : Consistent {} :=
  ⟨wellIndexed_empty, wellTyped_empty, fun _ => List.nodup_nil⟩

theorem Consistent.called (h : Consistent s) (c : GraphCall) : Consistent (s.called c) := by
  cases c with
  | upsertNode node now =>
    exact ⟨h.indexed.upsertNode node now, h.typed.upsertNode node now, h.sets.upsertNode node now⟩
  | addEdge edge now created =>
    exact ⟨h.indexed.addEdge edge now, h.typed.addEdge edge now, h.sets⟩
  | closeEdge edgeType fromId toId validTo now =>
    refine ⟨h.indexed.closeEdge edgeType fromId toId validTo now,
      h.typed.closeEdge edgeType fromId toId validTo now, ?_⟩
    -- whichever way the closing ends, it writes edges only
    have hsame : (s.closeEdge edgeType fromId toId validTo now).2.nodesByType = s.nodesByType := by
      unfold InMemoryGraphStore.closeEdge
      dsimp only
      split
      · rfl
      · split
        · rfl
        · split
          · rfl
          · rfl
    intro nodeType
    show ((s.closeEdge edgeType fromId toId validTo now).2.nodesByType.getD nodeType []).Nodup
    rw [hsame]
    exact h.sets nodeType
  | clear => exact consistent_empty

/-- Ending the open version of a key leaves every other edge alone. -/
theorem endKey_eq_or (k : EdgeKey) (t : Instant) (e : GraphEdge) :
    GraphEdge.endKey k t e = e ∨
      (k = e.key ∧ e.validTo = none ∧ GraphEdge.endKey k t e = e.closeAt t) := by
  unfold GraphEdge.endKey
  split
  · rename_i hkey
    by_cases hopen : e.validTo = none
    · exact .inr ⟨hkey.symm, hopen, GraphEdge.endedAt_of_open hopen t⟩
    · exact .inl (GraphEdge.endedAt_of_closed hopen t)
  · exact .inl rfl

theorem keeps_of_edges {s' : InMemoryGraphStore} {k : EdgeKey} {t : Instant}
    (h : s.edges.map (GraphEdge.endKey k t) <+: s'.edges) : Keeps s s' (some k) := by
  intro i e he
  obtain ⟨rest, hrest⟩ := h
  have hlt : i < (s.edges.map (GraphEdge.endKey k t)).length := by
    rw [List.length_map]
    exact (List.getElem?_eq_some_iff.1 he).1
  have hi : s'.edges[i]? = some (GraphEdge.endKey k t e) := by
    rw [← hrest, List.getElem?_append_left hlt, List.getElem?_map, he]
    rfl
  rcases endKey_eq_or k t e with hsame | ⟨hkey, hopen, hclosed⟩
  · rw [hsame] at hi
    exact .inl hi
  · rw [hclosed] at hi
    exact .inr ⟨congrArg some hkey, hopen, t, hi⟩

theorem keeps_called (h : Consistent s) {c : GraphCall} (hclear : c ≠ .clear) :
    Keeps s (s.called c) c.key := by
  cases c with
  | upsertNode node now => exact fun i e he => .inl he
  | addEdge edge now created =>
    apply keeps_of_edges
    show _ <+: (s.addEdge edge now).edges
    rw [h.indexed.addEdge_edges]
    exact List.prefix_append _ _
  | closeEdge edgeType fromId toId validTo now =>
    apply keeps_of_edges
    show _ <+: (s.closeEdge edgeType fromId toId validTo now).2.edges
    rw [h.indexed.closeEdge_edges]
  | clear => exact absurd rfl hclear

/-! ### Runs -/

/-- After every run the indices are what their containers say, and every call but `clear`
keeps the edges that are there. -/
theorem represented_exec (calls : List GraphCall) :
    Represented (Run.exec called {} calls) ∧
      ∀ c, c ≠ .clear →
        Keeps (Run.exec called {} calls) ((Run.exec called {} calls).called c) c.key := by
  have hs : Consistent (Run.exec called {} calls) :=
    Run.exec_invariant (fun _ c h => h.called c) consistent_empty calls
  exact ⟨hs.represented, fun c => keeps_called hs⟩

/-- Over a run without `clear` an edge stays where it is, and ends once at most. -/
theorem kept_exec (h : Consistent s) {calls : List GraphCall} (hclear : ∀ c ∈ calls, c ≠ .clear)
    {i : Nat} {e : GraphEdge} (he : s.edges[i]? = some e) :
    (Run.exec called s calls).edges[i]? = some e ∨
      (e.validTo = none ∧ ∃ t, (Run.exec called s calls).edges[i]? = some (e.closeAt t)) := by
  induction calls generalizing s e with
  | nil => exact .inl he
  | cons c calls ih =>
    have hrest : ∀ c' ∈ calls, c' ≠ .clear := fun c' hc' => hclear c' (List.mem_cons_of_mem c hc')
    rcases keeps_called h (hclear c List.mem_cons_self) i e he with hsame | ⟨-, hopen, t, hclosed⟩
    · exact ih (h.called c) hrest hsame
    · -- once ended, it does not end again
      rcases ih (h.called c) hrest hclosed with hkept | ⟨habsurd, -⟩
      · exact .inr ⟨hopen, t, hkept⟩
      · cases habsurd

end InMemoryGraphStore
end ComputeIntelligence
