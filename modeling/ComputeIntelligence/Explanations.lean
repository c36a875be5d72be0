import ComputeIntelligence.StableSort
import ComputeIntelligence.TimeBox

/-! # What the engine says of its choice

`_build_alternatives` and `_build_result` (`hre/engine.py`) write the explanation of a resolution:
the signals it rests on, and the other targets that were considered.  The texts and the features of
the signals are left out.

The explained resolution is the resolution (`resolution_resolveExplained`), and its explanation
accounts for the signals: those of the target are its contributing signals, those of every other
target that was ranked make one alternative, no target is named twice, and no alternative combines
to more than the answer (`choice_explained`).
-/
namespace ComputeIntelligence
variable {F : Type} [ScoreArith F]
open FirstMax ScoreArith StableSort

/-- An item of `alternatives_considered`. -/
structure Alternative (F : Type) where
  teamId : String
  confidence : F
  methods : List String

/-- The explanation of a result. -/
structure Explanation (F : Type) where
  attributionId : String
  targetEntity : String
  confidenceScore : F
  methodUsed : String
  topContributingSignals : List (String × F) := []
  alternativesConsidered : List (Alternative F) := []

/-- A result with its explanation. -/
structure ExplainedResult (F : Type) where
  combinedConfidence : F
  explanation : Explanation F
  fractional : List (Allocation F) := []

/-- What the later steps read of a result. -/
def ExplainedResult.resolution (r : ExplainedResult F) : Resolution F where
  targetEntity := r.explanation.targetEntity
  combinedConfidence := r.combinedConfidence
  methodUsed := r.explanation.methodUsed
  fractional := r.fractional

namespace HeuristicReconciliationEngine

/-- The alternative that a cluster is. -/
def alternativeOf (c : String × List (Signal F)) : Alternative F :=
  ⟨c.1, bestSignal c.2, c.2.map Signal.method⟩

/-- `_build_alternatives`. -/
def buildAlternatives (targetSignals : List (String × List (Signal F))) (bestTarget : String) :
    List (Alternative F) :=
  sortBy (fun a => OrderDual.toDual a.confidence)
    ((targetSignals.filter fun c => c.1 ≠ bestTarget).map alternativeOf)

/-- `_build_result`. -/
def buildResult (entityId : String) (primarySignal : Signal F) (allSignals : List (Signal F))
    (combinedConfidence : F) (alternatives : List (Alternative F) := [])
    (fractional : List (Allocation F) := []) : ExplainedResult F where
  combinedConfidence
  explanation := {
    attributionId := "attr_" ++ entityId ++ "_" ++ primarySignal.targetEntity
    targetEntity := primarySignal.targetEntity
    confidenceScore := combinedConfidence
    methodUsed := PyText.join "+" (allSignals.map Signal.method)
    topContributingSignals := allSignals.map fun s => (s.method, s.confidence)
    alternativesConsidered := alternatives }
  fractional

/-- `_timeboxed_fallback`, explained: the strongest signal, and no alternatives. -/
def explainTimeboxed (entityId : String) (signals : List (Signal F)) : Option (ExplainedResult F) :=
  (firstMax Signal.confidence signals).map fun best =>
    buildResult entityId best [best] (best.confidence * dec 9 1)

/-- Step 3 of `resolve`, explained.  The first signal of the best cluster is its primary one; the
alternatives are all of the clusters, combined or not. -/
def explainWithin (settings : HreSettings F) (exceeded : Nat → Bool) (entityId : String)
    (signals : List (Signal F)) : Option (ExplainedResult F) :=
  let targetSignals := rankedClusters settings.maxClusterTargets signals
  match bestWithin (fun c => clusterConfidence settings.combination c.2) exceeded 0 (lit 0, none)
      targetSignals with
  | (_, none) => none
  | (confidence, some (target, cluster)) => cluster.head?.map fun primary =>
      buildResult entityId primary cluster confidence (buildAlternatives targetSignals target)

/-- The signal of an allocation. -/
def ofAllocation (a : Allocation F) : Signal F := ⟨"R6", a.team, a.confidence⟩

/-- Steps 4 and 5 of `resolve`, explained. -/
def explainFallback (entityId : String) (knownUsers : PyDict String F) : ExplainedResult F :=
  let allocations := r6Resolve knownUsers
  match firstMax Allocation.confidence allocations with
  | some best =>
      buildResult entityId (ofAllocation best) (allocations.map ofAllocation) best.confidence []
        allocations
  | none =>
      { combinedConfidence := lit 0
        explanation := {
          attributionId := "attr_" ++ entityId, targetEntity := "unresolved"
          confidenceScore := lit 0, methodUsed := "none" } }

/-- `resolve`, with the explanation, from an empty cache. -/
def resolveExplained (settings : HreSettings F) (maxResolveMs : F) (clock : Nat → F)
    (setOrder : SetOrder) (entityId : String) (eventTime : Instant)
    (context : ReconciliationContext F) : Except PyExn (ExplainedResult F) :=
  match r1Resolve settings.lower entityId context.identityMappings with
  | some s => .ok (buildResult entityId s [s] s.confidence)
  | none => do
      let signals ← probabilisticSignals settings setOrder entityId eventTime context
      if signals = [] then return explainFallback entityId context.proportionalUsers
      else if exceededBudget maxResolveMs (clock 0) (clock 1) then
        return (explainTimeboxed entityId signals).getD
          (explainFallback entityId context.proportionalUsers)
      else
        return (explainWithin settings
          (fun i => exceededBudget maxResolveMs (clock 0) (clock (i + 2))) entityId signals).getD
            (explainFallback entityId context.proportionalUsers)

/-! ### The explained result is the result -/

theorem resolution_explainFallback (entityId : String) (knownUsers : PyDict String F) :
    (explainFallback entityId knownUsers).resolution = fallback knownUsers := by
  rw [explainFallback, fallback]
  cases firstMax Allocation.confidence (r6Resolve knownUsers) with
  | none => rfl
  | some best =>
    dsimp only
    rw [buildResult, ExplainedResult.resolution, List.map_map]
    rfl

theorem resolution_explainTimeboxed (entityId : String) (signals : List (Signal F)) :
    (explainTimeboxed entityId signals).map ExplainedResult.resolution =
      timeboxedFallback signals := by
  rw [explainTimeboxed, timeboxedFallback, Option.map_map]
  rfl

/-- The first of the best clusters that the loop reaches, if it is better than nothing. -/
def chosen (settings : HreSettings F) (exceeded : Nat → Bool) (signals : List (Signal F)) :
    Option (String × List (Signal F)) :=
  (firstMax (fun c => clusterConfidence settings.combination c.2)
    (reached exceeded 0 (rankedClusters settings.maxClusterTargets signals))).filter
      fun c => lit 0 < clusterConfidence settings.combination c.2

theorem chosen_mem {settings : HreSettings F} {exceeded : Nat → Bool} {signals : List (Signal F)}
    {c : String × List (Signal F)} (h : chosen settings exceeded signals = some c) :
    c ∈ rankedClusters settings.maxClusterTargets signals ∧
      lit 0 < clusterConfidence settings.combination c.2 ∧
      ∀ d ∈ reached exceeded 0 (rankedClusters settings.maxClusterTargets signals),
        clusterConfidence settings.combination d.2 ≤
          clusterConfidence settings.combination c.2 := by
  obtain ⟨hfirst, hpos⟩ := Option.filter_eq_some_iff.1 h
  obtain ⟨hmem, hbest⟩ := firstMax_best hfirst
  obtain ⟨j, hj, -⟩ := mem_reached_iff.1 hmem
  exact ⟨List.mem_of_getElem? hj, of_decide_eq_true hpos, hbest⟩

theorem bestWithin_chosen (settings : HreSettings F) (exceeded : Nat → Bool)
    (signals : List (Signal F)) :
    bestWithin (fun c => clusterConfidence settings.combination c.2) exceeded 0 (lit 0, none)
        (rankedClusters settings.maxClusterTargets signals) =
      match chosen settings exceeded signals with
      | none => (lit 0, none)
      | some c => (clusterConfidence settings.combination c.2, some c) := by
  rw [bestWithin_eq, foldl_better, chosen]
  cases firstMax (fun c => clusterConfidence settings.combination c.2)
    (reached exceeded 0 (rankedClusters settings.maxClusterTargets signals)) with
  | none => rfl
  | some c =>
    by_cases hpos : lit 0 < clusterConfidence settings.combination c.2
    · dsimp only
      rw [if_pos hpos, Option.filter_some, if_pos (decide_eq_true hpos)]
    · dsimp only
      rw [if_neg hpos, Option.filter_some, if_neg fun h => hpos (of_decide_eq_true h)]

/-- A cluster has a first signal, of its target. -/
theorem head_cluster {limit : Int} {signals : List (Signal F)} {c : String × List (Signal F)}
    (h : c ∈ rankedClusters limit signals) :
    ∃ primary, c.2.head? = some primary ∧ primary.targetEntity = c.1 := by
  obtain ⟨hne, -⟩ := mem_clusterByTarget_iff.1 (mem_of_mem_rankedClusters h)
  obtain ⟨primary, rest, hcluster⟩ := List.exists_cons_of_ne_nil hne
  refine ⟨primary, by rw [hcluster]; rfl, (mem_cluster h ?_).2⟩
  rw [hcluster]
  exact List.mem_cons_self

/-- The explained choice: the chosen cluster, and its first signal. -/
theorem explainWithin_eq (settings : HreSettings F) (exceeded : Nat → Bool) (entityId : String)
    (signals : List (Signal F)) :
    explainWithin settings exceeded entityId signals =
      (chosen settings exceeded signals).bind fun c => c.2.head?.map fun primary =>
        buildResult entityId primary c.2 (clusterConfidence settings.combination c.2)
          (buildAlternatives (rankedClusters settings.maxClusterTargets signals) c.1) := by
  rw [explainWithin, bestWithin_chosen]
  cases chosen settings exceeded signals with
  | none => rfl
  | some c => rfl

theorem resolution_explainWithin (settings : HreSettings F) (exceeded : Nat → Bool)
    (entityId : String) (signals : List (Signal F)) :
    (explainWithin settings exceeded entityId signals).map ExplainedResult.resolution =
      combineWithin settings exceeded signals := by
  rw [explainWithin_eq, combineWithin, bestWithin_chosen]
  cases hchosen : chosen settings exceeded signals with
  | none => rfl
  | some c =>
    obtain ⟨target, cluster⟩ := c
    obtain ⟨primary, hprimary, htarget⟩ := head_cluster (chosen_mem hchosen).1
    dsimp only at hprimary htarget ⊢
    subst htarget
    rw [Option.bind_some, hprimary]
    rfl

theorem method_r1Resolve {lower : String → String} {entityId : String}
    {identityMappings : PyDict String String} {s : Signal F}
    (h : r1Resolve lower entityId identityMappings = some s) : s.method = "R1" := by
  rw [r1Resolve] at h
  split at h
  · obtain rfl := Option.some.inj h
    rfl
  · obtain ⟨p, -, rfl⟩ := Option.map_eq_some_iff.1 h
    rfl

/-- **The explained resolution is the resolution.** -/
theorem resolution_resolveExplained (settings : HreSettings F) (maxResolveMs : F) (clock : Nat → F)
    (setOrder : SetOrder) (entityId : String) (eventTime : Instant)
    (context : ReconciliationContext F) :
    (resolveExplained settings maxResolveMs clock setOrder entityId eventTime context).map
        ExplainedResult.resolution =
      resolveWithin settings maxResolveMs clock setOrder entityId eventTime context := by
  rw [resolveExplained, resolveWithin]
  cases hr1 : r1Resolve (F := F) settings.lower entityId context.identityMappings with
  | some s =>
    dsimp only
    rw [← method_r1Resolve hr1]
    rfl
  | none =>
    dsimp only
    cases probabilisticSignals settings setOrder entityId eventTime context with
    | error e => rfl
    | ok signals =>
      simp only [bind, Except.bind, pure, Except.pure]
      split
      · exact congrArg Except.ok (resolution_explainFallback entityId _)
      split
      · refine congrArg Except.ok ?_
        rw [← resolution_explainFallback entityId, ← resolution_explainTimeboxed entityId]
        exact (Option.getD_map ..).symm
      · refine congrArg Except.ok ?_
        rw [← resolution_explainFallback entityId, ← resolution_explainWithin _ _ entityId]
        exact (Option.getD_map ..).symm

/-! ### What the explanation accounts for -/

/-- The signals for a target, in their order. -/
def signalsFor (signals : List (Signal F)) (target : String) : List (Signal F) :=
  signals.filter fun s => s.targetEntity = target

/-- The targets that an explanation names: the answer and its alternatives. -/
def named (e : Explanation F) : List String :=
  e.targetEntity :: e.alternativesConsidered.map Alternative.teamId

/-- What the explanation of a combined result says of the signals. -/
structure Accounts (settings : HreSettings F) (exceeded : Nat → Bool) (signals : List (Signal F))
    (r : ExplainedResult F) : Prop where
  /-- It rests on the signals for its target, and on all of them. -/
  contributing : r.explanation.topContributingSignals =
    (signalsFor signals r.explanation.targetEntity).map fun s => (s.method, s.confidence)
  /-- Its score is what those combine to. -/
  score : r.combinedConfidence = r.explanation.confidenceScore ∧ lit 0 < r.combinedConfidence ∧
    r.combinedConfidence =
      combineEvidence settings.combination r.explanation.topContributingSignals
  /-- An alternative tells of the signals for its target, and of the strongest. -/
  alternatives : ∀ a ∈ r.explanation.alternativesConsidered,
    a.methods = (signalsFor signals a.teamId).map Signal.method ∧
      ∃ s, Best Signal.confidence (signalsFor signals a.teamId) s ∧ s.confidence = a.confidence
  /-- The stronger alternatives come first. -/
  sorted : r.explanation.alternativesConsidered.Pairwise fun a b => b.confidence ≤ a.confidence
  /-- No target is named twice. -/
  once : (named r.explanation).Nodup
  /-- While the signals are not for too many targets, each of these is named. -/
  complete : ((clusterByTarget signals).items.length : Int) ≤ settings.maxClusterTargets →
    ∀ s ∈ signals, s.targetEntity ∈ named r.explanation
  /-- A target that is not named has no signal above the strongest of one that is. -/
  leftOut : ∀ s ∈ signals, s.targetEntity ∉ named r.explanation → ∀ t ∈ named r.explanation,
    ∃ strongest ∈ signalsFor signals t, s.confidence ≤ strongest.confidence
  /-- No alternative that was combined comes to more than the answer. -/
  best : ∀ a ∈ r.explanation.alternativesConsidered,
    (a.teamId, signalsFor signals a.teamId) ∈
        reached exceeded 0 (rankedClusters settings.maxClusterTargets signals) →
      clusterConfidence settings.combination (signalsFor signals a.teamId) ≤ r.combinedConfidence

omit [ScoreArith F] in
theorem named_buildResult (entityId : String) (primary : Signal F) (all : List (Signal F))
    (confidence : F) (alternatives : List (Alternative F)) (fractional : List (Allocation F)) :
    named (buildResult entityId primary all confidence alternatives fractional).explanation =
      primary.targetEntity :: alternatives.map Alternative.teamId := rfl

omit [ScoreArith F] in
theorem mem_signalsFor {signals : List (Signal F)} {target : String} {s : Signal F} :
    s ∈ signalsFor signals target ↔ s ∈ signals ∧ s.targetEntity = target := by
  rw [signalsFor, List.mem_filter, decide_eq_true_iff]

omit [ScoreArith F] in
theorem mem_clusters_iff {signals : List (Signal F)} {c : String × List (Signal F)} :
    c ∈ (clusterByTarget signals).items ↔ c.2 ≠ [] ∧ c.2 = signalsFor signals c.1 :=
  mem_clusterByTarget_iff

/-- The strongest signal of a cluster. -/
theorem bestSignal_best {cluster : List (Signal F)} (hne : cluster ≠ []) :
    ∃ s, Best Signal.confidence cluster s ∧ s.confidence = bestSignal cluster := by
  cases hfirst : firstMax Signal.confidence cluster with
  | none => exact absurd (firstMax_eq_none.1 hfirst) hne
  | some s =>
    refine ⟨s, firstMax_best hfirst, ?_⟩
    rw [bestSignal, hfirst]
    rfl

/-- The clusters that are combined: all of them, or the first of them in order. -/
theorem rankedClusters_cases (limit : Int) (signals : List (Signal F)) :
    rankedClusters limit signals = (clusterByTarget signals).items ∨
      limit < (clusterByTarget signals).items.length ∧ ∃ n, rankedClusters limit signals =
        (sortBy (fun c => OrderDual.toDual (bestSignal c.2)) (clusterByTarget signals).items).take
          n := by
  rw [rankedClusters]
  by_cases hlimit : limit < (clusterByTarget signals).items.length
  · refine .inr ⟨hlimit, ?_⟩
    rw [if_pos hlimit, firstItems]
    split
    · exact ⟨_, rfl⟩
    · exact ⟨_, rfl⟩
  · exact .inl (if_neg hlimit)

theorem nodup_rankedClusters (limit : Int) (signals : List (Signal F)) :
    ((rankedClusters limit signals).map Prod.fst).Nodup := by
  have hall := (clusterByTarget signals).nodup
  rcases rankedClusters_cases limit signals with h | ⟨-, n, h⟩
  · rw [h]
    exact hall
  · rw [h, List.map_take]
    refine List.Nodup.sublist (List.take_sublist _ _) ?_
    exact (((arranges_sortBy _ _).perm.map Prod.fst).nodup_iff).2 hall

/-- A cluster that is not combined is no stronger than one that is. -/
theorem leftOut_le {limit : Int} {signals : List (Signal F)} {c d : String × List (Signal F)}
    (hc : c ∈ (clusterByTarget signals).items) (hout : c ∉ rankedClusters limit signals)
    (hd : d ∈ rankedClusters limit signals) : bestSignal c.2 ≤ bestSignal d.2 := by
  rcases rankedClusters_cases limit signals with h | ⟨-, n, h⟩
  · rw [h] at hout
    exact absurd hc hout
  · rw [h] at hout hd
    have harranged := arranges_sortBy (fun c : String × List (Signal F) =>
      OrderDual.toDual (bestSignal c.2)) (clusterByTarget signals).items
    have hsorted := harranged.sorted
    have hmem := harranged.perm.mem_iff.2 hc
    rw [← List.take_append_drop n (sortBy _ _)] at hsorted hmem
    have hrest := (List.mem_append.1 hmem).resolve_left hout
    exact OrderDual.toDual_le_toDual.1 ((List.pairwise_append.1 hsorted).2.2 d hd c hrest)

theorem mem_buildAlternatives {ranked : List (String × List (Signal F))} {target : String}
    {a : Alternative F} :
    a ∈ buildAlternatives ranked target ↔ ∃ c ∈ ranked, c.1 ≠ target ∧ alternativeOf c = a := by
  rw [buildAlternatives, (arranges_sortBy _ _).perm.mem_iff, List.mem_map]
  simp only [List.mem_filter, decide_eq_true_eq, and_assoc]

/-- The targets that are named are those that are ranked. -/
theorem perm_named {ranked : List (String × List (Signal F))}
    (hn : (ranked.map Prod.fst).Nodup) {c : String × List (Signal F)} (hc : c ∈ ranked) :
    (c.1 :: (buildAlternatives ranked c.1).map Alternative.teamId).Perm (ranked.map Prod.fst) := by
  have hothers : ((buildAlternatives ranked c.1).map Alternative.teamId).Perm
      ((ranked.map Prod.fst).erase c.1) := by
    have hperm := (arranges_sortBy (fun a : Alternative F => OrderDual.toDual a.confidence)
      ((ranked.filter fun d => d.1 ≠ c.1).map alternativeOf)).perm.map Alternative.teamId
    refine hperm.trans (List.Perm.of_eq ?_)
    rw [hn.erase_eq_filter, List.filter_map, List.map_map]
    refine congrArg (List.map Prod.fst) (List.filter_congr fun d _ => ?_)
    by_cases hd : d.1 = c.1 <;> simp [hd]
  exact (hothers.cons c.1).trans (List.perm_cons_erase (List.mem_map_of_mem hc)).symm

/-- A choice accounts for the signals. -/
theorem accounts_of_chosen {settings : HreSettings F} {exceeded : Nat → Bool} (entityId : String)
    {signals : List (Signal F)} {c : String × List (Signal F)} {primary : Signal F}
    (hchosen : chosen settings exceeded signals = some c) (hprimary : primary.targetEntity = c.1) :
    Accounts settings exceeded signals
      (buildResult entityId primary c.2 (clusterConfidence settings.combination c.2)
        (buildAlternatives (rankedClusters settings.maxClusterTargets signals) c.1)) := by
  obtain ⟨hc, hpos, hbest⟩ := chosen_mem hchosen
  have hcluster : ∀ d ∈ rankedClusters settings.maxClusterTargets signals,
      d.2 ≠ [] ∧ d.2 = signalsFor signals d.1 :=
    fun d hd => mem_clusters_iff.1 (mem_of_mem_rankedClusters hd)
  have hnamed := perm_named (nodup_rankedClusters settings.maxClusterTargets signals) hc
  have hmem : ∀ s ∈ signals,
      (s.targetEntity, signalsFor signals s.targetEntity) ∈ (clusterByTarget signals).items :=
    fun s hs => mem_clusters_iff.2 ⟨List.ne_nil_of_mem (mem_signalsFor.2 ⟨hs, rfl⟩), rfl⟩
  refine ⟨?_, ⟨rfl, hpos, rfl⟩, ?_, ?_, ?_, ?_, ?_, ?_⟩
  · show c.2.map _ = (signalsFor signals primary.targetEntity).map _
    rw [hprimary, ← (hcluster c hc).2]
  · intro a ha
    obtain ⟨d, hd, -, rfl⟩ := mem_buildAlternatives.1 ha
    obtain ⟨hne, hsignals⟩ := hcluster d hd
    show d.2.map _ = (signalsFor signals d.1).map _ ∧
      ∃ s, Best Signal.confidence (signalsFor signals d.1) s ∧ s.confidence = bestSignal d.2
    rw [← hsignals]
    exact ⟨rfl, bestSignal_best hne⟩
  · exact (arranges_sortBy (fun a : Alternative F => OrderDual.toDual a.confidence) _).sorted
  · rw [named_buildResult, hprimary]
    exact hnamed.nodup_iff.2 (nodup_rankedClusters _ _)
  · intro hfew s hs
    rw [named_buildResult, hprimary, hnamed.mem_iff]
    rcases rankedClusters_cases settings.maxClusterTargets signals with h | ⟨hmany, -⟩
    · rw [h]
      exact List.mem_map_of_mem (hmem s hs)
    · exact absurd hmany (not_lt.2 hfew)
  · intro s hs hout t ht
    rw [named_buildResult, hprimary, hnamed.mem_iff] at hout ht
    obtain ⟨d, hd, rfl⟩ := List.mem_map.1 ht
    have hle := leftOut_le (hmem s hs) (fun h => hout (List.mem_map_of_mem h)) hd
    obtain ⟨strongest, ⟨hstrongest, -⟩, hconfidence⟩ := bestSignal_best (hcluster d hd).1
    obtain ⟨own, ⟨-, hown⟩, hownconfidence⟩ := bestSignal_best (mem_clusters_iff.1 (hmem s hs)).1
    refine ⟨strongest, (hcluster d hd).2 ▸ hstrongest, ?_⟩
    calc s.confidence ≤ own.confidence := hown s (mem_signalsFor.2 ⟨hs, rfl⟩)
      _ = bestSignal (signalsFor signals s.targetEntity) := hownconfidence
      _ ≤ bestSignal d.2 := hle
      _ = strongest.confidence := hconfidence.symm
  · intro a ha hreached
    exact hbest _ hreached

/-- **What the engine says of its choice.**  With its explanation the resolution is the one
without; and whenever clusters are combined, however many of them before the time is up, the
explanation accounts for the signals. -/
theorem choice_explained (settings : HreSettings F) (maxResolveMs : F) (clock : Nat → F)
    (setOrder : SetOrder) (entityId : String) (eventTime : Instant)
    (context : ReconciliationContext F) :
    (resolveExplained settings maxResolveMs clock setOrder entityId eventTime context).map
        ExplainedResult.resolution =
      resolveWithin settings maxResolveMs clock setOrder entityId eventTime context ∧
    ∀ exceeded signals r, explainWithin settings exceeded entityId signals = some r →
      Accounts settings exceeded signals r := by
  refine ⟨resolution_resolveExplained .., fun exceeded signals r h => ?_⟩
  rw [explainWithin_eq] at h
  obtain ⟨c, hchosen, hc⟩ := Option.bind_eq_some_iff.1 h
  obtain ⟨primary, hprimary, rfl⟩ := Option.map_eq_some_iff.1 hc
  obtain ⟨first, hfirst, htarget⟩ := head_cluster (chosen_mem hchosen).1
  obtain rfl := Option.some.inj (hfirst.symm.trans hprimary)
  exact accounts_of_chosen entityId hchosen htarget

end HeuristicReconciliationEngine
end ComputeIntelligence
