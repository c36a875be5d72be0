import ComputeIntelligence.HashOrder
import ComputeIntelligence.ScoreBounds

/-! # Running out of time

`HeuristicReconciliationEngine.resolve` from an empty cache, with the readings of the
monotonic clock that its budget is tested against: one before the signals are clustered and
one before each cluster is combined.  A budget that is exceeded at the first test gives the
strongest signal; one that is exceeded later ends the loop with the clusters combined so far,
and with none of them the engine goes on to R6 as if there were no signal.
-/
namespace ComputeIntelligence
variable {F : Type} [ScoreArith F]
open FirstMax ScoreArith

namespace HeuristicReconciliationEngine

/-- `_exceeded_budget`, in milliseconds from readings in seconds. -/
def exceededBudget (maxResolveMs started now : F) : Bool :=
  maxResolveMs < (now - started) * lit 1000

/-- `_timeboxed_fallback`, of signals that are not empty. -/
def timeboxedFallback (signals : List (Signal F)) : Option (Resolution F) :=
  (firstMax Signal.confidence signals).map fun best =>
    { targetEntity := best.targetEntity, combinedConfidence := best.confidence * dec 9 1,
      methodUsed := best.method }

/-- The loop over the clusters: `exceeded` tells of each whether its test ends the loop. -/
def bestWithin {α : Type} (score : α → F) (exceeded : Nat → Bool) :
    Nat → F × Option α → List α → F × Option α
  | _, best, [] => best
  | i, best, cluster :: clusters =>
      if exceeded i then best
      else bestWithin score exceeded (i + 1) (better score best cluster) clusters

/-- Step 3 of `resolve` behind its first test. -/
def combineWithin (settings : HreSettings F) (exceeded : Nat → Bool) (signals : List (Signal F)) :
    Option (Resolution F) :=
  match bestWithin (fun c => clusterConfidence settings.combination c.2) exceeded 0 (lit 0, none)
      (rankedClusters settings.maxClusterTargets signals) with
  | (_, none) => none
  | (confidence, some (target, cluster)) =>
      some { targetEntity := target, combinedConfidence := confidence,
             methodUsed := PyText.join "+" (cluster.map Signal.method) }

/-- Step 2 of `resolve`: the signals of R2 to R5. -/
def probabilisticSignals (settings : HreSettings F) (setOrder : SetOrder) (entityId : String)
    (eventTime : Instant) (context : ReconciliationContext F) : Except PyExn (List (Signal F)) := do
  let r2 := r2Resolve eventTime context.temporalEvents
  let r3 := r3Resolve entityId context.namingPatterns
  let r4 := r4Resolve (lastItems settings.maxHistoricalSignals context.historicalAttributions)
  let r5 ← r5Resolve setOrder context.deploymentOwners context.codeOwners context.recentUsers
    eventTime
  return r2.toList ++ r3.toList ++ r4.toList ++ r5.toList

/-- `resolve`, from an empty cache.  The clock is read at the start, before the clustering, and
before each cluster. -/
def resolveWithin (settings : HreSettings F) (maxResolveMs : F) (clock : Nat → F)
    (setOrder : SetOrder) (entityId : String) (eventTime : Instant)
    (context : ReconciliationContext F) : Except PyExn (Resolution F) :=
  match r1Resolve settings.lower entityId context.identityMappings with
  | some s =>
      .ok { targetEntity := s.targetEntity, combinedConfidence := s.confidence, methodUsed := "R1" }
  | none => do
      let signals ← probabilisticSignals settings setOrder entityId eventTime context
      if signals = [] then return fallback context.proportionalUsers
      else if exceededBudget maxResolveMs (clock 0) (clock 1) then
        return (timeboxedFallback signals).getD (fallback context.proportionalUsers)
      else
        return (combineWithin settings
          (fun i => exceededBudget maxResolveMs (clock 0) (clock (i + 2))) signals).getD
            (fallback context.proportionalUsers)

/-- The clusters that the loop reaches. -/
def reached {α : Type} (exceeded : Nat → Bool) : Nat → List α → List α
  | _, [] => []
  | i, cluster :: clusters =>
      if exceeded i then [] else cluster :: reached exceeded (i + 1) clusters

theorem bestWithin_eq {α : Type} (score : α → F) (exceeded : Nat → Bool) (i : Nat)
    (best : F × Option α) (clusters : List α) :
    bestWithin score exceeded i best clusters =
      (reached exceeded i clusters).foldl (better score) best := by
  induction clusters generalizing i best with
  | nil => rfl
  | cons cluster clusters ih =>
    rw [bestWithin, reached]
    split
    · rfl
    · exact ih _ _

theorem reached_of_never {α : Type} {exceeded : Nat → Bool} (h : ∀ i, exceeded i = false) (i : Nat)
    (clusters : List α) : reached exceeded i clusters = clusters := by
  induction clusters generalizing i with
  | nil => rfl
  | cons cluster clusters ih =>
    rw [reached, h, ih]
    rfl

/-- Within its budget the engine is the one without a clock. -/
theorem resolveWithin_of_never (settings : HreSettings F) {maxResolveMs : F} {clock : Nat → F}
    (h : ∀ i, exceededBudget maxResolveMs (clock 0) (clock i) = false) (setOrder : SetOrder)
    (entityId : String) (eventTime : Instant) (context : ReconciliationContext F) :
    resolveWithin settings maxResolveMs clock setOrder entityId eventTime context =
      resolve settings setOrder entityId eventTime context := by
  have hcombine : ∀ signals, combineWithin settings
      (fun i => exceededBudget maxResolveMs (clock 0) (clock (i + 2))) signals =
        combineSignals settings signals := by
    intro signals
    unfold combineWithin combineSignals
    rw [bestWithin_eq, reached_of_never fun i => h (i + 2)]
    rfl
  unfold resolveWithin resolve probabilisticSignals
  cases r1Resolve (F := F) settings.lower entityId context.identityMappings with
  | some s => rfl
  | none =>
    dsimp only
    rcases r5Resolve (F := F) setOrder context.deploymentOwners context.codeOwners
      context.recentUsers eventTime with e | r5
    · rfl
    · simp only [bind, Except.bind, pure, Except.pure, h 1, hcombine]
      split
      · rename_i hnil
        rw [hnil, combineSignals_nil]
        rfl
      · rfl

/-! ### Clusters -/

omit [ScoreArith F] in
/-- The cluster of a target is what the signals say of it. -/
theorem get?_clusterByTarget (signals : List (Signal F)) (t : String) :
    (clusterByTarget signals).get? t =
      if (signals.filter fun s => s.targetEntity = t) = [] then none
      else some (signals.filter fun s => s.targetEntity = t) := by
  induction signals using List.reverseRecOn with
  | nil => rfl
  | append_singleton signals s ih =>
    have hstep : clusterByTarget (signals ++ [s]) = (clusterByTarget signals).set s.targetEntity
        ((clusterByTarget signals).getD s.targetEntity [] ++ [s]) := by
      unfold clusterByTarget
      rw [List.foldl_append]
      rfl
    rw [hstep, PyDict.get?_set, List.filter_append]
    by_cases ht : s.targetEntity = t
    · subst ht
      unfold PyDict.getD
      rw [if_pos rfl, ih]
      split
      · rename_i hnil
        simp [hnil]
      · simp
    · rw [if_neg (Ne.symm ht), ih]
      simp [ht]

omit [ScoreArith F] in
theorem mem_clusterByTarget_iff {signals : List (Signal F)} {c : String × List (Signal F)} :
    c ∈ (clusterByTarget signals).items ↔
      c.2 ≠ [] ∧ c.2 = signals.filter fun s => s.targetEntity = c.1 := by
  obtain ⟨t, cluster⟩ := c
  constructor
  · intro h
    have hget := PyDict.get?_of_mem h
    rw [get?_clusterByTarget] at hget
    split at hget
    · cases hget
    · rename_i hne
      obtain rfl := Option.some.inj hget
      exact ⟨hne, rfl⟩
  · rintro ⟨hne, heq⟩
    have hcluster : cluster = signals.filter fun s => s.targetEntity = t := heq
    rw [hcluster] at hne ⊢
    apply PyDict.mem_of_find
    show (clusterByTarget signals).get? t = _
    rw [get?_clusterByTarget, if_neg hne]

theorem mem_of_mem_rankedClusters {limit : Int} {signals : List (Signal F)}
    {c : String × List (Signal F)} (h : c ∈ rankedClusters limit signals) :
    c ∈ (clusterByTarget signals).items := by
  unfold rankedClusters firstItems at h
  dsimp only at h
  split at h
  · refine ((List.perm_insertionSort _ _).mem_iff).1 (?_ : c ∈ List.insertionSort
      (fun a b : String × List (Signal F) => bestSignal b.2 ≤ bestSignal a.2) _)
    split at h
    · exact List.mem_of_mem_take h
    · exact List.mem_of_mem_take h
  · exact h

/-- A cluster holds signals of its target. -/
theorem mem_cluster {limit : Int} {signals : List (Signal F)} {c : String × List (Signal F)}
    (h : c ∈ rankedClusters limit signals) {s : Signal F} (hs : s ∈ c.2) :
    s ∈ signals ∧ s.targetEntity = c.1 := by
  obtain ⟨-, heq⟩ := mem_clusterByTarget_iff.1 (mem_of_mem_rankedClusters h)
  rw [heq] at hs
  obtain ⟨hmem, ht⟩ := List.mem_filter.1 hs
  exact ⟨hmem, of_decide_eq_true ht⟩

theorem length_cluster_le {limit : Int} {signals : List (Signal F)}
    {c : String × List (Signal F)} (h : c ∈ rankedClusters limit signals) :
    c.2.length ≤ signals.length := by
  rw [(mem_clusterByTarget_iff.1 (mem_of_mem_rankedClusters h)).2]
  exact List.length_filter_le _ _

/-! ### The loop -/

/-- The loop reaches a cluster when no test up to the one before it ends it. -/
theorem mem_reached_iff {α : Type} {exceeded : Nat → Bool} {i : Nat} {clusters : List α} {c : α} :
    c ∈ reached exceeded i clusters ↔
      ∃ j, clusters[j]? = some c ∧ ∀ k ≤ j, exceeded (i + k) = false := by
  induction clusters generalizing i with
  | nil =>
    rw [reached]
    simp
  | cons cluster clusters ih =>
    rw [reached]
    by_cases hi : exceeded i = true
    · rw [if_pos hi]
      constructor
      · intro h
        exact absurd h List.not_mem_nil
      · rintro ⟨j, -, hj⟩
        have h0 := hj 0 (Nat.zero_le j)
        rw [Nat.add_zero, hi] at h0
        cases h0
    · rw [if_neg hi, List.mem_cons, ih]
      constructor
      · rintro (rfl | ⟨j, hj, hk⟩)
        · refine ⟨0, rfl, fun k hk => ?_⟩
          obtain rfl := Nat.le_zero.1 hk
          exact Bool.not_eq_true _ ▸ hi
        · refine ⟨j + 1, hj, fun k hkj => ?_⟩
          rcases k with - | k
          · exact Bool.not_eq_true _ ▸ hi
          · have hnext := hk k (by omega)
            rwa [show i + 1 + k = i + (k + 1) by omega] at hnext
      · rintro ⟨j, hj, hk⟩
        rcases j with - | j
        · exact .inl (Option.some.inj hj).symm
        · refine .inr ⟨j, hj, fun k hkj => ?_⟩
          have hnext := hk (k + 1) (by omega)
          rwa [show i + (k + 1) = i + 1 + k by omega] at hnext

/-- The loop answers with the first of the best clusters that it reaches. -/
theorem combineWithin_eq (settings : HreSettings F) (exceeded : Nat → Bool)
    (signals : List (Signal F)) :
    combineWithin settings exceeded signals =
      match firstMax (fun c => clusterConfidence settings.combination c.2)
        (reached exceeded 0 (rankedClusters settings.maxClusterTargets signals)) with
      | none => none
      | some c => if lit 0 < clusterConfidence settings.combination c.2 then
          some { targetEntity := c.1,
                 combinedConfidence := clusterConfidence settings.combination c.2,
                 methodUsed := PyText.join "+" (c.2.map Signal.method) }
        else none := by
  unfold combineWithin
  rw [bestWithin_eq, foldl_better]
  cases firstMax (fun c => clusterConfidence settings.combination c.2)
    (reached exceeded 0 (rankedClusters settings.maxClusterTargets signals)) with
  | none => rfl
  | some c =>
    dsimp only
    by_cases hpos : lit 0 < clusterConfidence settings.combination c.2
    · rw [if_pos hpos, if_pos hpos]
    · rw [if_neg hpos, if_neg hpos]

end HeuristicReconciliationEngine
end ComputeIntelligence
