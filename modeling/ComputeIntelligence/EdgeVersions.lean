import ComputeIntelligence.GraphStore
import ComputeIntelligence.GuardedRuns

/-! # Versions of an edge over time

A relationship (`from_id`, `to_id`, `edge_type`) is stored as a list of versions,
each valid in a half-open window of time.  The graph is to represent attribution as
it was at any historical point, so at every instant at most one version of a
relationship may be valid, and no version may end before it starts.

`add_edge` ends the open version at the clock reading and lets the new version start
wherever its `valid_from` says; `close_edge` ends it at the time it is given.
Neither compares the two ends, so the versions stay well formed exactly as long as
every call fits the versions that are there: `wellVersioned_iff_fits`.  Two versions
that both start before the second call is made are the plain way to break it,
`supersede_overlaps`.
-/
namespace ComputeIntelligence

/-- An edge that is open, or ends after it starts. -/
def GraphEdge.Proper (e : GraphEdge) : Prop := ∀ u ∈ e.validTo, e.validFrom < u

/-- A call on the store, with the clock reading it is made at. -/
inductive EdgeCall where
  | add (edge : {e : GraphEdge // e.Proper}) (now : Instant)
  | close (edgeType : EdgeType) (fromId toId : String) (validTo : Option Instant) (now : Instant)

namespace InMemoryGraphStore

/-- One call of a run. -/
def edgeStep (s : InMemoryGraphStore) : EdgeCall → InMemoryGraphStore
  | .add edge now => s.addEdge edge now
  | .close edgeType fromId toId validTo now => (s.closeEdge edgeType fromId toId validTo now).2

/-- No version ends before it starts, and at every instant at most one version of a
key is valid. -/
structure WellVersioned (s : InMemoryGraphStore) : Prop where
  ordered : ∀ e ∈ s.edges, e.span.Ordered
  atMostOne : Span.AtMostOne GraphEdge.key GraphEdge.span s.edges

/-- The call fits the versions that are stored.  A new version fits when the open
one, which is about to end now, does not start in the future, and no stored version,
the open one taken to end now, overlaps the new one; a closing time fits when it is
not before the start of the open version. -/
def Fits (s : InMemoryGraphStore) : EdgeCall → Prop
  | .add edge now => ∀ e ∈ s.edges, e.key = edge.1.key →
      (e.validTo = none → e.validFrom ≤ now) ∧ (e.endedAt now).span.Apart edge.1.span
  | .close edgeType fromId toId validTo now => ∀ e ∈ s.edges,
      e.key = (fromId, toId, edgeType) → e.validTo = none → e.validFrom ≤ validTo.getD now

instance (s : InMemoryGraphStore) (c : EdgeCall) : Decidable (s.Fits c) :=
  match c with
  | .add _ _ => inferInstanceAs (Decidable (∀ e ∈ s.edges, _))
  | .close _ _ _ _ _ => inferInstanceAs (Decidable (∀ e ∈ s.edges, _))

/-! ### Ending the open version of a key -/

theorem mem_of_endedAt {e : GraphEdge} {t u : Instant} (h : (e.endedAt t).span.Mem u) :
    e.span.Mem u := by
  cases he : e.validTo with
  | none => exact ⟨h.1, fun v hv => by simp [GraphEdge.span, he] at hv⟩
  | some v => rwa [GraphEdge.endedAt_of_closed (by simp [he])] at h

theorem mem_of_endKey {k : EdgeKey} {e : GraphEdge} {t u : Instant}
    (h : (GraphEdge.endKey k t e).span.Mem u) : e.span.Mem u := by
  unfold GraphEdge.endKey at h
  split at h
  · exact mem_of_endedAt h
  · exact h

/-- Ending versions keeps them apart. -/
theorem versionsApart_endKey {edges : List GraphEdge} (k : EdgeKey) (t : Instant)
    (h : Span.VersionsApart GraphEdge.key GraphEdge.span edges) :
    Span.VersionsApart GraphEdge.key GraphEdge.span (edges.map (GraphEdge.endKey k t)) := by
  refine List.pairwise_map.mpr (h.imp ?_)
  intro a b hab hk
  rw [GraphEdge.endKey_key, GraphEdge.endKey_key] at hk
  refine Span.apart_iff.mpr fun u hu => ?_
  exact Span.apart_iff.mp (hab hk) u ⟨mem_of_endKey hu.1, mem_of_endKey hu.2⟩

theorem endedAt_ordered_iff {e : GraphEdge} (he : e.span.Ordered) (t : Instant) :
    (e.endedAt t).span.Ordered ↔ (e.validTo = none → e.validFrom ≤ t) := by
  cases hv : e.validTo with
  | none => simp [Span.Ordered, GraphEdge.span, GraphEdge.endedAt, hv]
  | some v => simpa [GraphEdge.endedAt_of_closed (show e.validTo ≠ none by simp [hv])] using he

/-- Ending the open version of `k` at `t` is in order exactly when it does not start
after `t`. -/
theorem ordered_endKey_iff {edges : List GraphEdge} (h : ∀ e ∈ edges, e.span.Ordered)
    (k : EdgeKey) (t : Instant) :
    (∀ e ∈ edges.map (GraphEdge.endKey k t), e.span.Ordered) ↔
      ∀ e ∈ edges, e.key = k → e.validTo = none → e.validFrom ≤ t := by
  rw [List.forall_mem_map]
  refine forall₂_congr fun e he => ?_
  unfold GraphEdge.endKey
  by_cases hk : e.key = k
  · simp only [hk, if_true, true_implies]
    exact endedAt_ordered_iff (h e he) t
  · simp [hk, h e he]

/-! ### One call -/

variable {s : InMemoryGraphStore}

theorem wellVersioned_iff_apart : WellVersioned s ↔
    (∀ e ∈ s.edges, e.span.Ordered) ∧
      Span.VersionsApart GraphEdge.key GraphEdge.span s.edges :=
  ⟨fun h => ⟨h.ordered, Span.atMostOne_iff_pairwise.mp h.atMostOne⟩,
    fun h => ⟨h.1, Span.atMostOne_iff_pairwise.mpr h.2⟩⟩

/-- A new version stays apart from the stored ones, the open one ended at `t`. -/
theorem versionsApart_concat_iff {edges : List GraphEdge} {edge : GraphEdge} (t : Instant)
    (h : Span.VersionsApart GraphEdge.key GraphEdge.span edges) :
    Span.VersionsApart GraphEdge.key GraphEdge.span
        (edges.map (GraphEdge.endKey edge.key t) ++ [edge]) ↔
      ∀ e ∈ edges, e.key = edge.key → (e.endedAt t).span.Apart edge.span := by
  unfold Span.VersionsApart
  rw [List.pairwise_append]
  constructor
  · rintro ⟨-, -, hcross⟩ e he hk
    have := hcross _ (List.mem_map_of_mem he) edge (List.mem_singleton_self edge)
    simpa [GraphEdge.endKey, hk] using this
  · intro hnew
    refine ⟨versionsApart_endKey edge.key t h, List.pairwise_singleton _ _, ?_⟩
    intro a ha b hb hk
    obtain rfl := List.mem_singleton.mp hb
    obtain ⟨e, he, rfl⟩ := List.mem_map.mp ha
    rw [GraphEdge.endKey_key] at hk
    rw [GraphEdge.endKey, if_pos hk]
    exact hnew e he hk

theorem wellVersioned_addEdge_iff (hs : WellIndexed s) (hv : WellVersioned s)
    {edge : GraphEdge} (hedge : edge.Proper) (now : Instant) :
    WellVersioned (s.addEdge edge now) ↔
      ∀ e ∈ s.edges, e.key = edge.key →
        (e.validTo = none → e.validFrom ≤ now) ∧ (e.endedAt now).span.Apart edge.span := by
  obtain ⟨hord, hapart⟩ := wellVersioned_iff_apart.mp hv
  have hedge' : edge.span.Ordered := fun u hu => le_of_lt (hedge u hu)
  rw [wellVersioned_iff_apart, hs.addEdge_edges, versionsApart_concat_iff now hapart,
    List.forall_mem_append, List.forall_mem_singleton, ordered_endKey_iff hord]
  constructor
  · rintro ⟨⟨ho, -⟩, ha⟩ e he hk
    exact ⟨ho e he hk, ha e he hk⟩
  · intro h
    exact ⟨⟨fun e he hk => (h e he hk).1, hedge'⟩, fun e he hk => (h e he hk).2⟩

theorem wellVersioned_closeEdge_iff (hs : WellIndexed s) (hv : WellVersioned s)
    (edgeType : EdgeType) (fromId toId : String) (validTo : Option Instant) (now : Instant) :
    WellVersioned (s.closeEdge edgeType fromId toId validTo now).2 ↔
      ∀ e ∈ s.edges, e.key = (fromId, toId, edgeType) → e.validTo = none →
        e.validFrom ≤ validTo.getD now := by
  obtain ⟨hord, hapart⟩ := wellVersioned_iff_apart.mp hv
  rw [wellVersioned_iff_apart, hs.closeEdge_edges, ordered_endKey_iff hord]
  exact ⟨fun h => h.1, fun h => ⟨h, versionsApart_endKey _ _ hapart⟩⟩

/-- **One call**: it keeps the versions well formed exactly when it fits. -/
theorem wellVersioned_edgeStep_iff (hs : WellIndexed s) (hv : WellVersioned s) (c : EdgeCall) :
    WellVersioned (s.edgeStep c) ↔ s.Fits c := by
  cases c with
  | add edge now => exact wellVersioned_addEdge_iff hs hv edge.2 now
  | close edgeType fromId toId validTo now =>
    exact wellVersioned_closeEdge_iff hs hv edgeType fromId toId validTo now

theorem wellIndexed_edgeStep (hs : WellIndexed s) (c : EdgeCall) : WellIndexed (s.edgeStep c) := by
  cases c with
  | add edge now => exact hs.addEdge edge now
  | close edgeType fromId toId validTo now => exact hs.closeEdge edgeType fromId toId validTo now

theorem wellVersioned_empty : WellVersioned {} :=
  ⟨fun _ he => absurd he List.not_mem_nil, fun _ _ => Nat.zero_le 1⟩

/-! ### Whole runs -/

/-- **The versions are well formed throughout a run exactly when every call of it
fits.** -/
theorem wellVersioned_iff_fits (calls : List EdgeCall) :
    Run.Always edgeStep WellVersioned {} calls ↔ Run.Guarded edgeStep Fits {} calls :=
  Run.always_iff_guarded (fun _ c hs _ _ => wellIndexed_edgeStep hs c)
    (fun _ c hs hv => wellVersioned_edgeStep_iff hs hv c) wellIndexed_empty wellVersioned_empty

/-- A membership that starts at `validFrom`. -/
def membership (validFrom : Instant) : {e : GraphEdge // e.Proper} :=
  ⟨{ edgeType := .memberOf, fromId := "person:ada", toId := "team:core",
     confidence := fullScore, weight := fullScore, validFrom,
     provenance := { source := "hr", method := "R1", createdAt := 0 } },
    fun _ hu => by cases hu⟩

/-- Two versions that start at 0 and at 1, both added at 2: superseding ends the
first one at 2, so both are valid at 1. -/
theorem supersede_overlaps :
    ¬ ∀ calls, Run.Always edgeStep WellVersioned {} calls := by
  intro h
  have hv := (h [.add (membership 0) 2, .add (membership 1) 2] _ (List.prefix_refl _)).atMostOne
  exact absurd (hv ("person:ada", "team:core", .memberOf) 1) (by decide)

end InMemoryGraphStore
end ComputeIntelligence
