import ComputeIntelligence.Events
import ComputeIntelligence.GraphBackends

/-! # Times as texts, and the queries that compare them

`_to_iso` converts a time to UTC before it writes it, so all texts have the same offset, and two of
them differ first in the field in which the instants do.  Where only one has a fraction of a second,
its `.` is compared with the `+` of the other's offset, which is smaller.

`Neo4jGraphStore` compares such texts where `InMemoryGraphStore` compares instants.  A store that
holds edges, with their times as texts, answers its queries as the instants would.
-/
namespace ComputeIntelligence
open PyDateTime

/-! ### `_to_iso` of any datetime -/

/-- `_to_iso`: a naive time is one of UTC, an aware one is converted. -/
def toIsoText (value : PyDateTime) : Except PyExn String := value.aware.map isoformat

/-- Where UTC can represent it, an aware time is written as its instant. -/
theorem toIsoText_eq {a : AwareDateTime} (ha : InRange a.instant) :
    toIsoText a.1 = .ok (toIso a.instant) := by
  obtain ⟨⟨wall, offset⟩, haware⟩ := a
  cases offset with
  | none => cases haware
  | some offset =>
    have hconverted : aware ⟨wall, some offset⟩ = .ok ⟨wall - offset, some 0⟩ := if_pos ha
    rw [toIsoText, hconverted]
    rfl

/-- Outside that range it is not written at all. -/
theorem toIsoText_of_not_inRange {a : AwareDateTime} (ha : ¬ InRange a.instant) :
    toIsoText a.1 = .error .overflowError := by
  obtain ⟨⟨wall, offset⟩, haware⟩ := a
  cases offset with
  | none => cases haware
  | some offset =>
    have hfails : aware ⟨wall, some offset⟩ = .error .overflowError := if_neg ha
    rw [toIsoText, hfails]
    rfl

/-! ### Relationships that hold edges -/

/-- `WHERE rel.valid_from_iso <= $at_iso AND (rel.valid_to_iso IS NULL OR rel.valid_to_iso = '' OR
rel.valid_to_iso > $at_iso)`. -/
def Neo4jEdge.validAt (atIso : String) (e : Neo4jEdge) : Bool :=
  decide (e.validFromIso ≤ atIso) && (e.isOpen || decide (atIso < e.validToIso))

/-- What a query for the edges at an endpoint should find: those that are valid at the time, as they
are read back, by their start. -/
structure GraphEdge.Found (edges : List GraphEdge) (endpoint : GraphEdge → String) (nodeId : String)
    (at_ : Instant) (found : List GraphEdge) : Prop where
  exactly : found.Perm ((edges.filter fun e =>
    decide (endpoint e = nodeId) && decide (e.span.Mem at_)).map GraphEdge.readBack)
  ordered : found.Pairwise fun a b => a.validFrom ≤ b.validFrom

namespace Neo4jGraphStore

/-- The relationships are these edges, with their times as `_to_iso` writes them. -/
structure Holds (s : Neo4jGraphStore) (edges : List GraphEdge) : Prop where
  rows : s.edges = edges.map Neo4jEdge.ofEdge
  inRange : ∀ e ∈ edges, e.InRange

/-- The filter on the texts selects exactly the edges that are valid at the time, and so do the two
queries. -/
structure SelectsAt (s : Neo4jGraphStore) (edges : List GraphEdge) (at_ : Instant)
    (atIso : String) : Prop where
  selected : s.edges.filter (Neo4jEdge.validAt atIso) =
    (edges.filter fun e => decide (e.span.Mem at_)).map Neo4jEdge.ofEdge
  edgesFrom : ∀ nodeId now, ∃ found, s.getEdgesFrom nodeId (some at_) now = .ok found ∧
    GraphEdge.Found edges GraphEdge.fromId nodeId at_ found
  edgesTo : ∀ nodeId now, ∃ found, s.getEdgesTo nodeId (some at_) now = .ok found ∧
    GraphEdge.Found edges GraphEdge.toId nodeId at_ found

variable {s : Neo4jGraphStore} {edges : List GraphEdge} {at_ : Instant}

theorem Holds.filter_validAt (h : s.Holds edges) (hat : InRange at_) :
    s.edges.filter (Neo4jEdge.validAt (toIso at_)) =
      (edges.filter fun e => decide (e.span.Mem at_)).map Neo4jEdge.ofEdge := by
  rw [h.rows, List.filter_map]
  have hvalid : ∀ e ∈ edges, (Neo4jEdge.validAt (toIso at_) ∘ Neo4jEdge.ofEdge) e =
      decide (e.span.Mem at_) := by
    intro e he
    rw [Function.comp_apply, Neo4jEdge.validAt, Neo4jEdge.ofEdge_valid (h.inRange e he) hat]
  rw [List.filter_congr hvalid]

/-- The order of the texts is that of the starts. -/
theorem pairwise_sorted_by_text (h : ∀ e ∈ edges, e.InRange) :
    ((edges.mergeSort fun a b => decide (toIso a.validFrom ≤ toIso b.validFrom)).map
      GraphEdge.readBack).Pairwise fun a b => a.validFrom ≤ b.validFrom := by
  have hsorted : List.Pairwise (fun a b => decide (toIso a.validFrom ≤ toIso b.validFrom) = true)
      (edges.mergeSort fun a b => decide (toIso a.validFrom ≤ toIso b.validFrom)) := by
    apply List.pairwise_mergeSort
    · intro a b c hab hbc
      rw [decide_eq_true_eq] at *
      exact hab.trans hbc
    · intro a b
      rw [Bool.or_eq_true, decide_eq_true_eq, decide_eq_true_eq]
      exact le_total _ _
  rw [List.pairwise_map]
  refine hsorted.imp_of_mem ?_
  intro a b ha hb hab
  rw [decide_eq_true_eq] at hab
  have hrange : ∀ e ∈ edges.mergeSort fun a b => decide (toIso a.validFrom ≤ toIso b.validFrom),
      e.InRange := fun e he => h e ((List.mergeSort_perm _ _).mem_iff.1 he)
  exact (toIso_le_iff (hrange a ha).1 (hrange b hb).1).1 hab

theorem Holds.found (h : s.Holds edges) (hat : InRange at_) {endpoint : Neo4jEdge → String}
    {endpoint' : GraphEdge → String} (hend : ∀ e, endpoint (Neo4jEdge.ofEdge e) = endpoint' e)
    (nodeId : String) (now : Instant) :
    ∃ found, s.edgesAt endpoint nodeId at_ now = .ok found ∧
      GraphEdge.Found edges endpoint' nodeId at_ found := by
  refine ⟨_, edgesAt_sorted h.rows h.inRange hend nodeId hat now,
    (List.mergeSort_perm _ _).map _, ?_⟩
  apply pairwise_sorted_by_text
  intro e he
  exact h.inRange e (List.mem_of_mem_filter he)

theorem Holds.selectsAt (h : s.Holds edges) (hat : InRange at_) :
    s.SelectsAt edges at_ (toIso at_) where
  selected := h.filter_validAt hat
  edgesFrom nodeId now := h.found hat (fun _ => rfl) nodeId now
  edgesTo nodeId now := h.found hat (fun _ => rfl) nodeId now

end Neo4jGraphStore

/-- Whatever is called, Neo4j holds the edges that the same calls leave in memory. -/
theorem Backends.holds_exec {calls : List GraphCall} (h : ∀ c ∈ calls, c.Representable) :
    (Run.exec Backends.step {} calls).neo4j.Holds (Run.exec Backends.step {} calls).memory.edges :=
  ⟨(sim_exec h).edges, (sim_exec h).inRange⟩

/-! ### Stored times -/

/-- **Stored times sort like the instants they denote** and denote the same instants when they are
read, so the filters of a store select exactly the edges that are valid at the queried time. -/
theorem stored_times_sort {a b : AwareDateTime} (ha : InRange a.instant) (hb : InRange b.instant) :
    ∃ ta tb, toIsoText a.1 = .ok ta ∧ toIsoText b.1 = .ok tb ∧
      (a.instant ≤ b.instant ↔ ta ≤ tb) ∧ fromIso ta = .ok (some a.instant) ∧
      ∀ (s : Neo4jGraphStore) (edges : List GraphEdge), s.Holds edges →
        s.SelectsAt edges a.instant ta :=
  ⟨toIso a.instant, toIso b.instant, toIsoText_eq ha, toIsoText_eq hb, (toIso_le_iff ha hb).symm,
    fromIso_toIso ha, fun _ _ h => h.selectsAt ha⟩

/-- Three seconds and a microsecond after the epoch, read two hours further east. -/
def inTheEast : AwareDateTime := ⟨⟨7203000001, some 7200000000⟩, rfl⟩

/-- The person joins at the epoch and leaves four seconds later. -/
def shortMembership : List GraphCall :=
  [.addEdge (Backends.belongs none none) 0 0,
    .closeEdge .memberOf "person:ada" "team:core" (some 4000000) 5000000]

theorem stored_times_sort_inTheEast :
    ∃ ta tb, toIsoText inTheEast.1 = .ok ta ∧ toIsoText (AwareDateTime.utc 3000000).1 = .ok tb ∧
      (inTheEast.instant ≤ (AwareDateTime.utc 3000000).instant ↔ ta ≤ tb) ∧
      fromIso ta = .ok (some inTheEast.instant) ∧
      (Run.exec Backends.step {} shortMembership).neo4j.SelectsAt
        (Run.exec Backends.step {} shortMembership).memory.edges inTheEast.instant ta := by
  obtain ⟨ta, tb, hta, htb, hle, hread, hselects⟩ :=
    @stored_times_sort inTheEast (AwareDateTime.utc 3000000) (by decide) (by decide)
  exact ⟨ta, tb, hta, htb, hle, hread, hselects _ _ (Backends.holds_exec (by decide))⟩

end ComputeIntelligence
