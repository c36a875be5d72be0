import ComputeIntelligence.TimeBox

/-! # Evidence and time

An engine that runs out of time should still answer with the evidence that it has.  It does
when the time is over before the signals are clustered, and when it suffices for a cluster
that holds a positive signal; when it is over in between, the loop ends without an answer and
the evidence is dropped (`keepsEvidence_iff`).
-/
namespace ComputeIntelligence
variable {F : Type} [RoundedArith F]
open FirstMax ScoreArith RoundedArith

namespace HeuristicReconciliationEngine

/-- The signals of R1 to R5 that the engine collects. -/
def evidence (settings : HreSettings F) (setOrder : SetOrder) (entityId : String)
    (eventTime : Instant) (context : ReconciliationContext F) : Except PyExn (List (Signal F)) :=
  match r1Resolve settings.lower entityId context.identityMappings with
  | some s => .ok [s]
  | none => probabilisticSignals settings setOrder entityId eventTime context

/-- The answer is the target of a positive signal, with a positive confidence and without the
shares of R6. -/
structure KeepsEvidence (signals : List (Signal F)) (r : Resolution F) : Prop where
  target : ∃ s ∈ signals, lit 0 < s.confidence ∧ s.targetEntity = r.targetEntity
  positive : lit 0 < r.combinedConfidence
  direct : r.fractional = []

/-- The time is over before the clustering, or not yet before some cluster with a positive
signal. -/
def EvidenceInTime (settings : HreSettings F) (maxResolveMs : F) (clock : Nat → F)
    (signals : List (Signal F)) : Prop :=
  exceededBudget maxResolveMs (clock 0) (clock 1) = true ∨
    ∃ i c, (rankedClusters settings.maxClusterTargets signals)[i]? = some c ∧
      (∃ s ∈ c.2, lit 0 < s.confidence) ∧
      exceededBudget maxResolveMs (clock 0) (clock (i + 2)) = false

/-! ### The signals -/

/-- A signal of a method, whose confidence it has rounded. -/
def Rounded (method : String) (s : Signal F) : Prop :=
  s.method = method ∧ ∃ x : F, s.confidence = round 3 x

theorem Rounded.graded {method : String} {s : Signal F} (h : Rounded method s) :
    Graded s.confidence := by
  obtain ⟨-, x, hx⟩ := h
  rw [hx]
  exact graded_round x

theorem rounded_r2 {eventTime : Instant} {candidates : List (PyDateTime × String × String)}
    {s : Signal F} (h : s ∈ (r2Resolve eventTime candidates).toList) : Rounded "R2" s := by
  obtain ⟨⟨delta, target⟩, -, rfl⟩ := Option.map_eq_some_iff.1 (Option.mem_toList.1 h)
  exact ⟨rfl, _, rfl⟩

theorem rounded_r3 {entityName : String} {patterns : PyDict String (List String)} {s : Signal F}
    (h : s ∈ (r3Resolve entityName patterns).toList) : Rounded "R3" s := by
  have hs : r3Resolve entityName patterns = some s := Option.mem_toList.1 h
  unfold r3Resolve at hs
  dsimp only at hs
  split at hs
  · cases hs
  · split at hs
    · cases hs
    · obtain rfl := Option.some.inj hs
      exact ⟨rfl, _, rfl⟩

theorem rounded_r4 {history : List (String × F)} {s : Signal F}
    (h : s ∈ (r4Resolve history).toList) : Rounded "R4" s := by
  have hs : r4Resolve history = some s := Option.mem_toList.1 h
  unfold r4Resolve at hs
  split at hs
  · cases hs
  · obtain ⟨⟨team, weight⟩, -, rfl⟩ := Option.map_eq_some_iff.1 hs
    exact ⟨rfl, _, rfl⟩

theorem rounded_r5 {setOrder : SetOrder} {owners : List (String × PyDateTime)}
    {codeOwners : List String} {users : List (String × PyDateTime)} {now : Instant}
    {r5 : Option (Signal F)} (h : r5Resolve setOrder owners codeOwners users now = .ok r5)
    {s : Signal F} (hs : s ∈ r5.toList) : Rounded "R5" s := by
  unfold r5Resolve at h
  rcases hd : sortedDeployments owners with e | deployments
  · rw [hd] at h
    cases h
  · rw [hd] at h
    obtain rfl := Except.ok.inj h
    obtain ⟨⟨owner, score⟩, -, rfl⟩ := Option.map_eq_some_iff.1 (Option.mem_toList.1 hs)
    exact ⟨rfl, _, rfl⟩

/-- What R2 to R5 give: at most four signals, all of them rounded. -/
theorem probabilisticSignals_spec {settings : HreSettings F} {setOrder : SetOrder}
    {entityId : String} {eventTime : Instant} {context : ReconciliationContext F}
    {signals : List (Signal F)}
    (h : probabilisticSignals settings setOrder entityId eventTime context = .ok signals) :
    signals.length ≤ 4 ∧ ∀ s ∈ signals, ∃ method ∈ ["R2", "R3", "R4", "R5"],
      Rounded method s := by
  unfold probabilisticSignals at h
  rcases hr5 : r5Resolve (F := F) setOrder context.deploymentOwners context.codeOwners
    context.recentUsers eventTime with e | r5
  · rw [hr5] at h
    cases h
  · rw [hr5] at h
    obtain rfl := Except.ok.inj h
    constructor
    · have hone : ∀ o : Option (Signal F), o.toList.length ≤ 1 := by
        rintro (- | s)
        · exact Nat.zero_le 1
        · exact le_rfl
      simp only [List.length_append]
      have h2 := hone (r2Resolve eventTime context.temporalEvents)
      have h3 := hone (r3Resolve entityId context.namingPatterns)
      have h4 := hone (r4Resolve
        (lastItems settings.maxHistoricalSignals context.historicalAttributions))
      have h5 := hone r5
      omega
    · intro s hs
      rcases List.mem_append.1 hs with hs | hs
      · rcases List.mem_append.1 hs with hs | hs
        · rcases List.mem_append.1 hs with hs | hs
          · exact ⟨"R2", by decide, rounded_r2 hs⟩
          · exact ⟨"R3", by decide, rounded_r3 hs⟩
        · exact ⟨"R4", by decide, rounded_r4 hs⟩
      · exact ⟨"R5", by decide, rounded_r5 hr5 hs⟩

/-! ### The answers -/

/-- A clock that goes on does not come back within the budget. -/
theorem exceededBudget_mono {maxResolveMs started now later : F} (h : now ≤ later)
    (hexceeded : exceededBudget maxResolveMs started now = true) :
    exceededBudget maxResolveMs started later = true := by
  have hthousand : (0 : ℚ) ≤ val (lit 1000 : F) := by
    rw [val_lit]
    exact rnd_nonneg (by norm_num)
  have hle : (now - started) * lit 1000 ≤ (later - started) * lit 1000 := by
    rw [← val_le_val, val_mul, val_mul, val_sub, val_sub]
    apply rnd_mono
    apply mul_le_mul_of_nonneg_right _ hthousand
    exact rnd_mono (sub_le_sub_right (val_le_val.2 h) _)
  exact decide_eq_true (lt_of_lt_of_le (of_decide_eq_true hexceeded) hle)

theorem not_keepsEvidence_fallback (signals : List (Signal F)) (users : PyDict String F) :
    ¬ KeepsEvidence signals (fallback users) := by
  rintro ⟨-, hpos, hdirect⟩
  unfold fallback at hpos hdirect
  dsimp only at hpos hdirect
  split at hpos
  · rename_i best hbest
    rw [hbest] at hdirect
    have hmem := (firstMax_best hbest).1
    rw [show r6Resolve users = [] from hdirect] at hmem
    cases hmem
  · exact lt_irrefl _ hpos

/-- The strongest signal stays positive at nine tenths of its confidence. -/
theorem keepsEvidence_timeboxed {signals : List (Signal F)}
    (hgraded : ∀ s ∈ signals, Graded s.confidence) (hpos : ∃ s ∈ signals, lit 0 < s.confidence) :
    ∃ r, timeboxedFallback signals = some r ∧ KeepsEvidence signals r := by
  obtain ⟨s, hs, hconf⟩ := hpos
  unfold timeboxedFallback
  cases hbest : firstMax Signal.confidence signals with
  | none =>
    rw [firstMax_eq_none.1 hbest] at hs
    cases hs
  | some best =>
    obtain ⟨hmem, hmax⟩ := firstMax_best hbest
    have hbpos : lit 0 < best.confidence := lt_of_lt_of_le hconf (hmax s hs)
    have hleast := hgraded best hmem (lit_zero_lt_iff.1 hbpos)
    refine ⟨_, rfl, ⟨best, hmem, hbpos, rfl⟩, ?_, rfl⟩
    have hfactor : (1 / 2 ^ 1 : ℚ) ≤ val (dec 9 1 : F) := by
      rw [val_lit]
      exact le_of_eq_of_le (rnd_inverse_pow (by norm_num)).symm (rnd_mono (by norm_num))
    show lit 0 < best.confidence * dec 9 1
    rw [lit_zero_lt_iff, val_mul]
    refine lt_of_lt_of_le (show (0 : ℚ) < 1 / 2 ^ 11 by norm_num) ?_
    refine le_of_eq_of_le (rnd_inverse_pow (by norm_num)).symm (rnd_mono ?_)
    calc (1 / 2 ^ 11 : ℚ) = leastScore * (1 / 2 ^ 1) := by norm_num
      _ ≤ val best.confidence * val (dec 9 1 : F) :=
        mul_le_mul hleast hfactor (by norm_num) (le_trans (by norm_num) hleast)

/-- The confidence of a cluster is positive when one of its signals is. -/
theorem clusterConfidence_pos_iff {limit : Int} {signals : List (Signal F)}
    (hlen : signals.length ≤ 4) (hgraded : ∀ s ∈ signals, Graded s.confidence)
    {c : String × List (Signal F)} (hc : c ∈ rankedClusters limit signals) :
    lit 0 < clusterConfidence CombinationConfig.default c.2 ↔ ∃ s ∈ c.2, lit 0 < s.confidence := by
  have hpairs : ∀ p ∈ c.2.map fun s => (s.method, s.confidence), Graded p.2 := by
    intro p hp
    obtain ⟨s, hs, rfl⟩ := List.mem_map.1 hp
    exact hgraded s (mem_cluster hc hs).1
  unfold clusterConfidence
  rw [combineEvidence_pos_iff (by rw [List.length_map]; exact le_trans (length_cluster_le hc) hlen)
    hpairs]
  simp

/-- The loop keeps the evidence exactly when it reaches a cluster with a positive signal. -/
theorem combineWithin_spec {settings : HreSettings F} (hconfig : settings.combination = .default)
    {signals : List (Signal F)} (hlen : signals.length ≤ 4)
    (hgraded : ∀ s ∈ signals, Graded s.confidence) (exceeded : Nat → Bool) :
    match combineWithin settings exceeded signals with
    | none => ∀ c ∈ reached exceeded 0 (rankedClusters settings.maxClusterTargets signals),
        ¬ ∃ s ∈ c.2, lit 0 < s.confidence
    | some r => KeepsEvidence signals r ∧
        ∃ c ∈ reached exceeded 0 (rankedClusters settings.maxClusterTargets signals),
          ∃ s ∈ c.2, lit 0 < s.confidence := by
  have hranked : ∀ c ∈ reached exceeded 0 (rankedClusters settings.maxClusterTargets signals),
      c ∈ rankedClusters settings.maxClusterTargets signals := by
    intro c hc
    obtain ⟨j, hj, -⟩ := mem_reached_iff.1 hc
    exact List.mem_of_getElem? hj
  rw [combineWithin_eq, hconfig]
  cases hbest : firstMax (fun c => clusterConfidence CombinationConfig.default c.2)
      (reached exceeded 0 (rankedClusters settings.maxClusterTargets signals)) with
  | none =>
    intro c hc
    rw [firstMax_eq_none.1 hbest] at hc
    cases hc
  | some c =>
    obtain ⟨hmem, hmax⟩ := firstMax_best hbest
    have hiff := clusterConfidence_pos_iff hlen hgraded (hranked c hmem)
    dsimp only
    by_cases hpos : lit 0 < clusterConfidence CombinationConfig.default c.2
    · rw [if_pos hpos]
      obtain ⟨s, hs, hconf⟩ := hiff.1 hpos
      obtain ⟨hsignal, htarget⟩ := mem_cluster (hranked c hmem) hs
      exact ⟨⟨⟨s, hsignal, hconf, htarget⟩, hpos, rfl⟩, c, hmem, s, hs, hconf⟩
    · rw [if_neg hpos]
      -- the best cluster has no positive signal, so no other has
      intro d hd hsignal
      have hdpos := (clusterConfidence_pos_iff hlen hgraded (hranked d hd)).2 hsignal
      exact hpos (lt_of_lt_of_le hdpos (hmax d hd))

theorem keepsEvidence_r1 {lower : String → String} {entityId : String}
    {mappings : PyDict String String} {s : Signal F}
    (h : r1Resolve lower entityId mappings = some s) :
    KeepsEvidence [s] { targetEntity := s.targetEntity, combinedConfidence := s.confidence,
                        methodUsed := "R1" } := by
  have hlit : ∀ q : ℚ, 1 / 2 ^ 1 ≤ q → lit 0 < (lit q : F) := by
    intro q hq
    rw [lit_zero_lt_iff, val_lit]
    refine lt_of_lt_of_le (show (0 : ℚ) < 1 / 2 ^ 1 by norm_num) ?_
    exact le_of_eq_of_le (rnd_inverse_pow (by norm_num)).symm (rnd_mono hq)
  have hpos : lit 0 < s.confidence := by
    unfold r1Resolve at h
    split at h
    · obtain rfl := Option.some.inj h
      exact hlit 1 (by norm_num)
    · obtain ⟨p, -, rfl⟩ := Option.map_eq_some_iff.1 h
      exact hlit _ (by norm_num)
  exact ⟨⟨s, List.mem_singleton_self s, hpos, rfl⟩, hpos, rfl⟩

/-- **Evidence and time.**  Where R1 to R5 give a positive signal, the engine answers with
the evidence exactly when R1 matches, or the time is over before the clustering, or it is not
over before some cluster with a positive signal. -/
theorem keepsEvidence_iff {settings : HreSettings F} (hconfig : settings.combination = .default)
    (maxResolveMs : F) {clock : Nat → F} (hclock : Monotone clock) {setOrder : SetOrder}
    {entityId : String} {eventTime : Instant} {context : ReconciliationContext F}
    {signals : List (Signal F)}
    (hevidence : evidence settings setOrder entityId eventTime context = .ok signals)
    (hpos : ∃ s ∈ signals, lit 0 < s.confidence) :
    (∃ r, resolveWithin settings maxResolveMs clock setOrder entityId eventTime context = .ok r ∧
        KeepsEvidence signals r) ↔
      r1Resolve (F := F) settings.lower entityId context.identityMappings ≠ none ∨
        EvidenceInTime settings maxResolveMs clock signals := by
  unfold evidence at hevidence
  unfold resolveWithin
  cases hr1 : r1Resolve (F := F) settings.lower entityId context.identityMappings with
  | some s =>
    rw [hr1] at hevidence
    obtain rfl := Except.ok.inj hevidence
    refine iff_of_true ⟨_, rfl, keepsEvidence_r1 hr1⟩ (.inl ?_)
    exact Option.some_ne_none s
  | none =>
    rw [hr1] at hevidence
    obtain ⟨hlen, hrounded⟩ := probabilisticSignals_spec hevidence
    have hgraded : ∀ s ∈ signals, Graded s.confidence := by
      intro s hs
      obtain ⟨method, -, hround⟩ := hrounded s hs
      exact hround.graded
    have hne : signals ≠ [] := by
      obtain ⟨s, hs, -⟩ := hpos
      exact List.ne_nil_of_mem hs
    dsimp only at hevidence ⊢
    rw [hevidence, or_iff_right (fun h => h rfl)]
    simp only [bind, Except.bind, pure, Except.pure, if_neg hne]
    unfold EvidenceInTime
    by_cases hfirst : exceededBudget maxResolveMs (clock 0) (clock 1) = true
    · obtain ⟨r, hr, hkeeps⟩ := keepsEvidence_timeboxed hgraded hpos
      rw [if_pos hfirst, hr]
      exact iff_of_true ⟨r, rfl, hkeeps⟩ (.inl hfirst)
    · rw [if_neg hfirst, or_iff_right hfirst]
      have hspec := combineWithin_spec hconfig hlen hgraded
        fun i => exceededBudget maxResolveMs (clock 0) (clock (i + 2))
      cases hcombine : combineWithin settings
          (fun i => exceededBudget maxResolveMs (clock 0) (clock (i + 2))) signals with
      | none =>
        rw [hcombine] at hspec
        refine iff_of_false ?_ ?_
        · rintro ⟨r, hr, hkeeps⟩
          obtain rfl := Except.ok.inj hr
          exact not_keepsEvidence_fallback signals _ hkeeps
        · rintro ⟨i, c, hi, hsignal, hwithin⟩
          refine hspec c (mem_reached_iff.2 ⟨i, hi, fun k hk => ?_⟩) hsignal
          rw [Nat.zero_add]
          by_contra hk'
          rw [Bool.not_eq_false] at hk'
          have hlater := exceededBudget_mono (hclock (show k + 2 ≤ i + 2 by omega)) hk'
          rw [hwithin] at hlater
          cases hlater
      | some r =>
        rw [hcombine] at hspec
        obtain ⟨hkeeps, c, hc, hsignal⟩ := hspec
        obtain ⟨j, hj, hbudget⟩ := mem_reached_iff.1 hc
        have hwithin := hbudget j le_rfl
        rw [Nat.zero_add] at hwithin
        exact iff_of_true ⟨r, rfl, hkeeps⟩ ⟨j, c, hj, hsignal, hwithin⟩

/-- A workload of which only the history tells. -/
def onlyHistory : ReconciliationContext Binary64 where
  historicalAttributions := [("team:a", lit 1), ("team:a", lit 1), ("team:a", lit 1)]

/-- The signal of the history. -/
def historySignals : List (Signal Binary64) :=
  (r4Resolve onlyHistory.historicalAttributions).toList

theorem evidence_onlyHistory :
    evidence .default .stored "svc" 0 onlyHistory = .ok historySignals := rfl

theorem historySignals_pos : ∃ s ∈ historySignals, lit 0 < s.confidence := by decide +kernel

/-- While the clock stands still the engine answers with the history. -/
theorem keepsEvidence_onlyHistory :
    ∃ r, resolveWithin .default (lit 25) (fun _ => lit 0) .stored "svc" 0 onlyHistory = .ok r ∧
      KeepsEvidence historySignals r := by
  have hclock : Monotone fun _ : Nat => (lit 0 : Binary64) := monotone_const
  refine (keepsEvidence_iff rfl (lit 25) hclock evidence_onlyHistory historySignals_pos).2 ?_
  have hcluster : ((rankedClusters (HreSettings.default (F := Binary64)).maxClusterTargets
      historySignals)[0]?.map fun c => decide (∃ s ∈ c.2, lit 0 < s.confidence)) = some true := by
    decide +kernel
  obtain ⟨c, hc, hsignal⟩ := Option.map_eq_some_iff.1 hcluster
  refine .inr (.inr ⟨0, c, hc, of_decide_eq_true hsignal, ?_⟩)
  decide +kernel

/-- A clock that stands still until the clustering and then goes on by a second. -/
def lateClock (n : Nat) : Binary64 := if n ≤ 1 then lit 0 else lit 1

/-- A second before the first cluster drops the evidence. -/
theorem not_keepsEvidence :
    ¬ ∀ (maxResolveMs : Binary64) (clock : Nat → Binary64), lit 0 ≤ maxResolveMs →
        Monotone clock → ∀ entityId eventTime context signals,
        evidence .default .stored entityId eventTime context = .ok signals →
        (∃ s ∈ signals, lit 0 < s.confidence) →
        ∃ r, resolveWithin .default maxResolveMs clock .stored entityId eventTime context = .ok r ∧
          KeepsEvidence signals r := by
  intro h
  have hclock : Monotone lateClock := by
    intro n m hnm
    unfold lateClock
    split
    · split
      · exact le_rfl
      · decide +kernel
    · rw [if_neg (by omega)]
  obtain ⟨r, hr, hkeeps⟩ := h (lit 25) lateClock (by decide +kernel) hclock "svc" 0 onlyHistory
    historySignals evidence_onlyHistory historySignals_pos
  have hconf : (resolveWithin .default (lit 25) lateClock .stored "svc" 0 onlyHistory).toOption.map
      Resolution.combinedConfidence = some (lit 0) := by decide +kernel
  rw [hr] at hconf
  have hzero : r.combinedConfidence = lit 0 := Option.some.inj hconf
  exact absurd hkeeps.positive (by rw [hzero]; exact lt_irrefl _)

end HeuristicReconciliationEngine
end ComputeIntelligence
