import Mathlib.Data.List.Nodup
import Mathlib.Data.List.Flatten

/-! # Bounded walks in a multigraph

A multigraph is given by the edges out of each node.  Edges have identities of their own, so
two edges between the same nodes are two.  At some nodes every walk stops.

`walks` lists walks in the order of a depth-first search with a limit on the number of edges;
`mem_walks` says which walks these are, and `walks_nodup` that no walk is listed twice.
-/

/-- A directed multigraph by the edges out of a node, and the nodes where walks stop. -/
structure Multigraph (V E : Type) where
  out : V → List E
  target : E → V
  stops : V → Bool

namespace Multigraph
variable {V E : Type} {g : Multigraph V E}

/-- The walks that begin with an edge, given those that go on from a node. -/
def through (g : Multigraph V E) (rest : V → List (List E)) (e : E) : List (List E) :=
  if g.stops (g.target e) then [[e]] else (rest (g.target e)).map (e :: ·)

/-- The walks from `v` of at most `d` edges that leave no node of `visited`. -/
def walks [DecidableEq V] (g : Multigraph V E) : Nat → List V → V → List (List E)
  | 0, _, _ => []
  | d + 1, visited, v =>
    if v ∈ visited then []
    else if g.out v = [] then [[]]
    else (g.out v).flatMap (g.through (g.walks d (v :: visited)))

theorem through_of_stops {rest : V → List (List E)} {e : E} (h : g.stops (g.target e) = true) :
    g.through rest e = [[e]] :=
  if_pos h

theorem through_of_passes {rest : V → List (List E)} {e : E} (h : ¬ g.stops (g.target e) = true) :
    g.through rest e = (rest (g.target e)).map (e :: ·) :=
  if_neg h

/-- The edges follow one another from `v`. -/
def Follows (g : Multigraph V E) : V → List E → Prop
  | _, [] => True
  | v, e :: w => e ∈ g.out v ∧ g.Follows (g.target e) w

/-- The nodes that the edges leave, when they follow one another from `v`. -/
def sources (g : Multigraph V E) : V → List E → List V
  | _, [] => []
  | v, e :: w => v :: g.sources (g.target e) w

/-- The node that the edges lead to from `v`. -/
def final (g : Multigraph V E) : V → List E → V
  | v, [] => v
  | _, e :: w => g.final (g.target e) w

/-- What `walks` lists. -/
structure IsWalk (g : Multigraph V E) (d : Nat) (visited : List V) (v : V) (w : List E) : Prop where
  follows : g.Follows v w
  bounded : w.length ≤ d
  distinct : (g.sources v w).Nodup
  fresh : ∀ u ∈ g.sources v w, u ∉ visited
  passes : ∀ e ∈ w.dropLast, g.stops (g.target e) = false
  ends : (∃ e ∈ w.getLast?, g.stops (g.target e) = true) ∨
    (w.length < d ∧ g.out (g.final v w) = [])

theorem isWalk_nil {d : Nat} {visited : List V} {v : V} :
    g.IsWalk d visited v [] ↔ 0 < d ∧ g.out v = [] := by
  constructor
  · intro h
    rcases h.ends with ⟨e, he, -⟩ | hend
    · cases he
    · exact hend
  · intro h
    exact ⟨trivial, Nat.zero_le d, List.nodup_nil, fun _ hu => (List.not_mem_nil hu).elim,
      fun _ he => (List.not_mem_nil he).elim, .inr h⟩

/-- A walk goes through an edge where it does not stop. -/
theorem isWalk_cons {d : Nat} {visited : List V} {v : V} {e : E} {w : List E}
    (hpass : g.stops (g.target e) = false) :
    g.IsWalk (d + 1) visited v (e :: w) ↔
      v ∉ visited ∧ e ∈ g.out v ∧ g.IsWalk d (v :: visited) (g.target e) w := by
  constructor
  · intro h
    have hdistinct := List.nodup_cons.1 h.distinct
    refine ⟨h.fresh v List.mem_cons_self, h.follows.1, h.follows.2,
      Nat.le_of_succ_le_succ h.bounded, hdistinct.2, ?_, ?_, ?_⟩
    · intro u hu hmem
      rcases List.mem_cons.1 hmem with heq | hvisited
      · exact hdistinct.1 (heq ▸ hu)
      · exact h.fresh u (List.mem_cons_of_mem v hu) hvisited
    · intro a ha
      apply h.passes a
      cases w with
      | nil => exact (List.not_mem_nil ha).elim
      | cons b w => exact List.mem_cons_of_mem e ha
    · rcases h.ends with ⟨a, ha, hstop⟩ | ⟨hlt, hout⟩
      · cases w with
        | nil =>
          obtain rfl : e = a := Option.some.inj ha
          rw [hpass] at hstop
          cases hstop
        | cons b w => exact .inl ⟨a, by rwa [List.getLast?_cons_cons] at ha, hstop⟩
      · exact .inr ⟨Nat.lt_of_succ_lt_succ hlt, hout⟩
  · rintro ⟨hfresh, hmem, h⟩
    refine ⟨⟨hmem, h.follows⟩, Nat.succ_le_succ h.bounded, ?_, ?_, ?_, ?_⟩
    · apply List.nodup_cons.2
      exact ⟨fun hv => h.fresh v hv List.mem_cons_self, h.distinct⟩
    · intro u hu
      rcases List.mem_cons.1 hu with rfl | hu
      · exact hfresh
      · exact fun hvisited => h.fresh u hu (List.mem_cons_of_mem v hvisited)
    · intro a ha
      cases w with
      | nil => exact (List.not_mem_nil ha).elim
      | cons b w =>
        rcases List.mem_cons.1 ha with rfl | ha
        · exact hpass
        · exact h.passes a ha
    · rcases h.ends with ⟨a, ha, hstop⟩ | ⟨hlt, hout⟩
      · cases w with
        | nil => cases ha
        | cons b w => exact .inl ⟨a, by rwa [List.getLast?_cons_cons], hstop⟩
      · exact .inr ⟨Nat.succ_lt_succ hlt, hout⟩

/-- Where walks stop, the walk is over. -/
theorem isWalk_cons_of_stops {d : Nat} {visited : List V} {v : V} {e : E} {w : List E}
    (hstop : g.stops (g.target e) = true) :
    g.IsWalk (d + 1) visited v (e :: w) ↔ v ∉ visited ∧ e ∈ g.out v ∧ w = [] := by
  constructor
  · intro h
    refine ⟨h.fresh v List.mem_cons_self, h.follows.1, ?_⟩
    cases w with
    | nil => rfl
    | cons b w =>
      have hpass := h.passes e List.mem_cons_self
      rw [hstop] at hpass
      cases hpass
  · rintro ⟨hfresh, hmem, rfl⟩
    refine ⟨⟨hmem, trivial⟩, Nat.succ_le_succ (Nat.zero_le d), List.nodup_singleton v, ?_, ?_, ?_⟩
    · intro u hu
      rw [List.mem_singleton.1 hu]
      exact hfresh
    · exact fun a ha => (List.not_mem_nil ha).elim
    · exact .inl ⟨e, rfl, hstop⟩

theorem mem_through {rest : V → List (List E)} {e : E} {w : List E} :
    w ∈ g.through rest e ↔ ∃ w', w = e :: w' ∧
      if g.stops (g.target e) then w' = [] else w' ∈ rest (g.target e) := by
  unfold through
  split
  · simp
  · rw [List.mem_map]
    constructor
    · rintro ⟨w', hmem, rfl⟩
      exact ⟨w', rfl, hmem⟩
    · rintro ⟨w', rfl, hmem⟩
      exact ⟨w', hmem, rfl⟩

theorem through_nodup {rest : V → List (List E)} (h : ∀ u, (rest u).Nodup) (e : E) :
    (g.through rest e).Nodup := by
  unfold through
  split
  · exact List.nodup_singleton _
  · exact (h _).map (List.cons_injective)

section
variable [DecidableEq V]

theorem walks_of_visited {d : Nat} {visited : List V} {v : V} (h : v ∈ visited) :
    g.walks d visited v = [] := by
  cases d with
  | zero => rfl
  | succ d => exact if_pos h

theorem walks_of_no_out {d : Nat} {visited : List V} {v : V} (hv : v ∉ visited)
    (hout : g.out v = []) : g.walks (d + 1) visited v = [[]] := by
  unfold walks
  rw [if_neg hv, if_pos hout]

theorem walks_of_out {d : Nat} {visited : List V} {v : V} (hv : v ∉ visited)
    (hout : g.out v ≠ []) : g.walks (d + 1) visited v =
      (g.out v).flatMap (g.through (g.walks d (v :: visited))) := by
  rw [walks, if_neg hv, if_neg hout]

/-- The search lists the walks, all of them.  The nodes it has visited have edges out. -/
theorem mem_walks {d : Nat} {visited : List V} {v : V} {w : List E}
    (hvisited : ∀ u ∈ visited, g.out u ≠ []) :
    w ∈ g.walks d visited v ↔ g.IsWalk d visited v w := by
  induction d generalizing visited v w with
  | zero =>
    refine ⟨fun h => (List.not_mem_nil h).elim, fun h => ?_⟩
    have hnil : w = [] := List.eq_nil_of_length_eq_zero (Nat.le_zero.1 h.bounded)
    subst hnil
    exact absurd (isWalk_nil.1 h).1 (Nat.lt_irrefl 0)
  | succ d ih =>
    unfold walks
    split
    · -- a visited node has edges out, so not even the empty walk ends there
      rename_i hmem
      refine ⟨fun h => (List.not_mem_nil h).elim, fun h => ?_⟩
      cases w with
      | nil => exact absurd (isWalk_nil.1 h).2 (hvisited v hmem)
      | cons e w => exact absurd hmem (h.fresh v List.mem_cons_self)
    · rename_i hfresh
      split
      · rename_i hout
        rw [List.mem_singleton]
        constructor
        · rintro rfl
          exact isWalk_nil.2 ⟨Nat.succ_pos d, hout⟩
        · intro h
          cases w with
          | nil => rfl
          | cons e w =>
            have he := h.follows.1
            rw [hout] at he
            exact (List.not_mem_nil he).elim
      · rename_i hout
        have hrest : ∀ u ∈ v :: visited, g.out u ≠ [] := by
          intro u hu
          rcases List.mem_cons.1 hu with rfl | hu
          · exact hout
          · exact hvisited u hu
        rw [List.mem_flatMap]
        simp only [mem_through]
        constructor
        · rintro ⟨e, he, w', rfl, hgoes⟩
          split at hgoes
          · rename_i hstop
            exact (isWalk_cons_of_stops hstop).2 ⟨hfresh, he, hgoes⟩
          · rename_i hpass
            exact (isWalk_cons (eq_false_of_ne_true hpass)).2
              ⟨hfresh, he, (ih hrest).1 hgoes⟩
        · intro h
          cases w with
          | nil => exact absurd (isWalk_nil.1 h).2 hout
          | cons e w =>
            refine ⟨e, h.follows.1, w, rfl, ?_⟩
            split
            · rename_i hstop
              exact ((isWalk_cons_of_stops hstop).1 h).2.2
            · rename_i hpass
              exact (ih hrest).2 ((isWalk_cons (eq_false_of_ne_true hpass)).1 h).2.2

/-- No walk is listed twice, where no edge is. -/
theorem walks_nodup (hout : ∀ u, (g.out u).Nodup) (d : Nat) (visited : List V) (v : V) :
    (g.walks d visited v).Nodup := by
  induction d generalizing visited v with
  | zero => exact List.nodup_nil
  | succ d ih =>
    unfold walks
    split
    · exact List.nodup_nil
    · split
      · exact List.nodup_singleton _
      · refine List.nodup_flatMap.2 ⟨fun e _ => through_nodup (ih _) e, ?_⟩
        refine (hout v).imp ?_
        -- walks that begin with different edges differ
        intro e e' hne w hw hw'
        obtain ⟨_, rfl, -⟩ := mem_through.1 hw
        obtain ⟨_, heq, -⟩ := mem_through.1 hw'
        exact hne (List.cons.inj heq).1

end

end Multigraph
