import ComputeIntelligence.CalibrationRange
import ComputeIntelligence.EngineCache

/-! # No event is lost to its score

`_handle_inference` behind `resolve`: the result is calibrated and materialized, and each of the
models on the way checks its scores.  The scores of `ScoreRange` pass, whatever the context, the
clocks, the calls before and the labels so far (`confidence_inRange`).
-/
namespace ComputeIntelligence
variable {F : Type} [RoundedArith F]
open FirstMax ScoreArith RoundedArith HeuristicReconciliationEngine

/-! ### Answers of the engine -/

/-- R1 to R5 give a signal. -/
def Gives (settings : HreSettings F) (setOrder : SetOrder) (entityId : String)
    (eventTime : Instant) (context : ReconciliationContext F) (s : Signal F) : Prop :=
  r1Resolve settings.lower entityId context.identityMappings = some s ∨
    r2Resolve eventTime context.temporalEvents = some s ∨
    r3Resolve entityId context.namingPatterns = some s ∨
    r4Resolve (lastItems settings.maxHistoricalSignals context.historicalAttributions) = some s ∨
    r5Resolve setOrder context.deploymentOwners context.codeOwners context.recentUsers eventTime =
      .ok (some s)

/-- The confidences of the history are scores. -/
def ScoredHistory (context : ReconciliationContext F) : Prop :=
  ∀ p ∈ context.historicalAttributions, IsScore p.2

theorem mem_of_mem_lastItems {α : Type} {n : Int} {xs : List α} {x : α} (h : x ∈ lastItems n xs) :
    x ∈ xs := by
  unfold lastItems at h
  split at h
  · exact List.mem_of_mem_drop h
  · exact List.mem_of_mem_drop h

section Answers
variable {settings : HreSettings F} {setOrder : SetOrder} {entityId : String} {eventTime : Instant}
  {context : ReconciliationContext F}

theorem Gives.isScore {s : Signal F} (hhistory : ScoredHistory context)
    (h : Gives settings setOrder entityId eventTime context s) : IsScore s.confidence := by
  rcases h with h | h | h | h | h
  · exact isScore_r1 h
  · exact isScore_r2 h
  · exact isScore_r3 h
  · exact isScore_r4 (fun p hp => hhistory p (mem_of_mem_lastItems hp)) h
  · exact isScore_r5 h

theorem gives_of_probabilistic {signals : List (Signal F)}
    (hnone : probabilisticSignals settings setOrder entityId eventTime context = .ok signals)
    {s : Signal F} (hs : s ∈ signals) : Gives settings setOrder entityId eventTime context s := by
  unfold probabilisticSignals at hnone
  rcases hr5 : r5Resolve (F := F) setOrder context.deploymentOwners context.codeOwners
    context.recentUsers eventTime with e | r5
  · rw [hr5] at hnone
    cases hnone
  · rw [hr5] at hnone
    obtain rfl := Except.ok.inj hnone
    rcases List.mem_append.1 hs with hs | hs
    · rcases List.mem_append.1 hs with hs | hs
      · rcases List.mem_append.1 hs with hs | hs
        · exact .inr (.inl (Option.mem_toList.1 hs))
        · exact .inr (.inr (.inl (Option.mem_toList.1 hs)))
      · exact .inr (.inr (.inr (.inl (Option.mem_toList.1 hs))))
    · have hsome : r5 = some s := Option.mem_toList.1 hs
      exact .inr (.inr (.inr (.inr (hr5.trans (congrArg Except.ok hsome)))))

/-- The answer is a score, and so are the shares that come with it. -/
def Resolution.Scored (r : Resolution F) : Prop :=
  IsScore r.combinedConfidence ∧ ∀ a ∈ r.fractional, IsScore a.weight

theorem scored_fallback (users : PyDict String F) : (fallback users).Scored := by
  unfold fallback
  dsimp only
  split
  · rename_i best hbest
    exact ⟨(isScore_r6 (firstMax_best hbest).1).2, fun a ha => (isScore_r6 ha).1⟩
  · exact ⟨isScore_zero, fun a ha => absurd ha List.not_mem_nil⟩

theorem scored_timeboxed {signals : List (Signal F)} (h : ∀ s ∈ signals, IsScore s.confidence)
    {r : Resolution F} (hr : timeboxedFallback signals = some r) : r.Scored := by
  obtain ⟨best, hbest, rfl⟩ := Option.map_eq_some_iff.1 hr
  refine ⟨(h best (firstMax_best hbest).1).mul (isScore_lit (by norm_num) (by norm_num)), ?_⟩
  exact fun a ha => absurd ha List.not_mem_nil

theorem scored_combineWithin (hcap : IsScore settings.combination.cap) {exceeded : Nat → Bool}
    {signals : List (Signal F)} {r : Resolution F}
    (hr : combineWithin settings exceeded signals = some r) : r.Scored := by
  rw [combineWithin_eq] at hr
  split at hr
  · cases hr
  · split at hr
    · obtain rfl := Option.some.inj hr
      exact ⟨isScore_combineEvidence hcap _, fun a ha => absurd ha List.not_mem_nil⟩
    · cases hr

/-- Whatever the clock reads, the answer is a score. -/
theorem scored_resolveWithin (hcap : IsScore settings.combination.cap)
    (hhistory : ScoredHistory context) {maxResolveMs : F} {clock : Nat → F} {r : Resolution F}
    (hr : resolveWithin settings maxResolveMs clock setOrder entityId eventTime context = .ok r) :
    r.Scored := by
  unfold resolveWithin at hr
  split at hr
  · rename_i s hs
    obtain rfl := Except.ok.inj hr
    exact ⟨isScore_r1 hs, fun a ha => absurd ha List.not_mem_nil⟩
  · rcases hsignals : probabilisticSignals settings setOrder entityId eventTime context with
      e | signals
    · rw [hsignals] at hr
      cases hr
    · have hscores : ∀ s ∈ signals, IsScore s.confidence := fun s hs =>
        (gives_of_probabilistic hsignals hs).isScore hhistory
      rw [hsignals] at hr
      simp only [bind, Except.bind, pure, Except.pure] at hr
      -- the fallback answers where the other two have nothing to say
      have hgetD : ∀ o : Option (Resolution F), (∀ r ∈ o, r.Scored) →
          (o.getD (fallback context.proportionalUsers)).Scored := by
        rintro (- | r) ho
        · exact scored_fallback _
        · exact ho r rfl
      split at hr
      · obtain rfl := Except.ok.inj hr
        exact scored_fallback _
      · split at hr
        · obtain rfl := Except.ok.inj hr
          exact hgetD _ fun r hr => scored_timeboxed hscores hr
        · obtain rfl := Except.ok.inj hr
          exact hgetD _ fun r hr => scored_combineWithin hcap hr

end Answers

/-! ### Into the index -/

/-- Building the `AttributionResult`, with the check of the weights of its shares. -/
def ResolvedEntity.toResult (r : ResolvedEntity F) : Except PyExn AttributionResult := do
  let _ ← r.resolution.fractional.mapM fun a => UnitScore.check (.finite (val a.weight))
  return { workloadId := r.workloadId
           combinedConfidence := .finite (val r.resolution.combinedConfidence)
           explanation := some ⟨r.resolution.targetEntity, r.resolution.methodUsed⟩ }

/-- The result of a resolution whose shares are scores. -/
def ResolvedEntity.result (r : ResolvedEntity F) : AttributionResult where
  workloadId := r.workloadId
  combinedConfidence := .finite (val r.resolution.combinedConfidence)
  explanation := some ⟨r.resolution.targetEntity, r.resolution.methodUsed⟩

/-- The result with its calibrated confidence. -/
def AttributionResult.rescored (result : AttributionResult) (score : F) : AttributionResult :=
  { result with combinedConfidence := .finite (val score) }

/-- `_handle_inference` behind `resolve`, with the policies of the target. -/
def materializeEntity (config : CalibrationConfig F) (engine : CalibrationEngine F)
    (confidence : ConfidenceConfig) (policies : PolicyContext) (clock : Nat → Instant)
    (r : ResolvedEntity F) : Eff PyExn IndexState Unit := do
  let result ← Eff.lift r.toResult
  if lit 0 < r.resolution.combinedConfidence then
    let calibrated := engine.calibrate config (AttributionProcessor.primaryMethod result)
      r.resolution.combinedConfidence
    let _ ← IndexMaterializer.materializeAttribution confidence (result.rescored calibrated)
      policies clock
    pure ()
  else pure ()

theorem ResolvedEntity.toResult_of_scored {r : ResolvedEntity F} (h : r.resolution.Scored) :
    r.toResult = .ok r.result := by
  have hcheck : ∀ a ∈ r.resolution.fractional, ∃ score : UnitScore,
      UnitScore.check (.finite (val a.weight)) = .ok score ∧ () = () := fun a ha =>
    ⟨_, IndexMaterializer.UnitScore.check_finite ⟨val a.weight, h.2 a ha⟩, rfl⟩
  obtain ⟨scores, hscores, -⟩ := Except.mapM_returns hcheck
  unfold ResolvedEntity.toResult
  rw [hscores]
  rfl

/-- **No model refuses**: a scored resolution that is positive reaches the index. -/
theorem materializeEntity_spec {libs : CalibrationLibraries F} {config : CalibrationConfig F}
    (hcap : IsScore config.cap)
    (hisotonic : ∀ predict, CalibrationEngine.Fitted libs config.cap predict → ∀ x,
      lit 0 ≤ predict x ∧ predict x ≤ config.cap) (labels : List GroundTruthLabel)
    (confidence : ConfidenceConfig) (policies : PolicyContext) (clock : Nat → Instant)
    {r : ResolvedEntity F} (hr : r.resolution.Scored) (index : IndexState) :
    (lit 0 < r.resolution.combinedConfidence → ∃ entry : AttributionIndexEntry,
      entry.workloadId = r.workloadId ∧
      materializeEntity config (CalibrationEngine.trained libs config labels) confidence policies
        clock r index = (.ok (), index.1.materialize index.2 entry (clock 2))) ∧
    (¬ lit 0 < r.resolution.combinedConfidence →
      materializeEntity config (CalibrationEngine.trained libs config labels) confidence policies
        clock r index = (.ok (), index)) := by
  unfold materializeEntity
  rw [ResolvedEntity.toResult_of_scored hr, Eff.lift_ok_bind]
  constructor
  · intro hpos
    have hscore := CalibrationEngine.isScore_calibrate hcap hisotonic labels
      (AttributionProcessor.primaryMethod r.result) hr.1
    have hscored : IndexMaterializer.Scored (r.result.rescored (CalibrationEngine.calibrate config
        (CalibrationEngine.trained libs config labels)
        (AttributionProcessor.primaryMethod r.result) r.resolution.combinedConfidence)) :=
      ⟨⟨_, hscore⟩, rfl⟩
    obtain ⟨entry, hid, -, hrun⟩ := @IndexMaterializer.Scored.materializeAttribution confidence _
      hscored policies clock index
    refine ⟨entry, hid, ?_⟩
    rw [if_pos hpos, Eff.bind_of_ok hrun]
    rfl
  · intro hpos
    rw [if_neg hpos]
    rfl

open AttributionProcessor in
/-- `calibrate` of the processor: the engine of the labels held, whose other methods do not
matter. -/
def engineCalibrate (libs : CalibrationLibraries F) (config : CalibrationConfig F)
    (labels : GroundTruth) (method : String) : PyFloat → PyFloat
  | .finite q => .finite (val ((CalibrationEngine.trained libs config
      (labels.getD method [])).calibrate config method (lit q : F)))
  | raw => raw

open AttributionProcessor in
/-- The processor materializes a result as `materializeEntity` does. -/
theorem materializeResult_eq {env : Reckoning} {libs : CalibrationLibraries F}
    {config : CalibrationConfig F} (henv : env.calibrate = engineCalibrate libs config)
    {s : ProcessorState} {r : ResolvedEntity F} (hr : r.resolution.Scored)
    {policies : PolicyContext}
    (hpolicies : collectPolicyContext s.policyEngine (calibrated env s.groundTruth r.result) =
      .ok policies) (clock : HandlerClock) :
    materializeResult env s r.result clock =
      (materializeEntity config (CalibrationEngine.trained libs config
        (s.groundTruth.getD (primaryMethod r.result) [])) env.confidence policies clock.wall r
          s.index).2 := by
  have hlit : lit (val r.resolution.combinedConfidence) = r.resolution.combinedConfidence := by
    rw [← val_inj, val_lit, rnd_val]
  have hcalibrated : calibrated env s.groundTruth r.result =
      r.result.rescored ((CalibrationEngine.trained libs config
        (s.groundTruth.getD (primaryMethod r.result) [])).calibrate config
          (primaryMethod r.result) r.resolution.combinedConfidence) := by
    unfold calibrated
    rw [henv]
    show AttributionResult.mk _ (.finite (val _)) _ = _
    rw [hlit]
    rfl
  rw [hcalibrated] at hpolicies
  unfold materializeResult materializeEntity
  rw [ResolvedEntity.toResult_of_scored hr, Eff.lift_ok_bind, hcalibrated]
  by_cases hpos : lit 0 < r.resolution.combinedConfidence
  · have hgt : r.result.combinedConfidence.gt 0 = true := decide_eq_true (lit_zero_lt_iff.1 hpos)
    rw [if_pos hgt, if_pos hpos]
    dsimp only
    rw [hpolicies]
    dsimp only
    generalize IndexMaterializer.materializeAttribution env.confidence _ policies clock.wall =
      materialize
    rcases hrun : materialize s.index with ⟨e | entry, index⟩
    · rw [Eff.bind_of_error hrun]
    · rw [Eff.bind_of_ok hrun]
      rfl
  · have hgt : ¬ r.result.combinedConfidence.gt 0 = true := fun h =>
      hpos (lit_zero_lt_iff.2 (of_decide_eq_true h))
    rw [if_neg hgt, if_neg hpos]
    rfl

/-- **Confidence from end to end.**  What R1 to R6 give is a score, and so is what combining,
running out of time and calibrating make of it.  After any calls and any labels, the models
refuse no answer of the engine, and a positive one is written to the index. -/
theorem confidence_inRange (settings : HreSettings F)
    (hcombination : IsScore settings.combination.cap) (libs : CalibrationLibraries F)
    (config : CalibrationConfig F) (hcap : IsScore config.cap)
    (hisotonic : ∀ samples predict, libs.isotonic config.cap samples = .ok predict → ∀ x,
      lit 0 ≤ predict x ∧ predict x ≤ config.cap) :
    (∀ setOrder entityId eventTime context, ScoredHistory context →
      ∀ s, Gives settings setOrder entityId eventTime context s → IsScore s.confidence) ∧
    (∀ users : PyDict String F, ∀ a ∈ r6Resolve users,
      IsScore a.weight ∧ IsScore a.confidence) ∧
    (∀ signals, IsScore (combineEvidence settings.combination signals)) ∧
    (∀ signals : List (Signal F), (∀ s ∈ signals, IsScore s.confidence) →
      ∀ r, timeboxedFallback signals = some r → IsScore r.combinedConfidence) ∧
    (∀ labels method raw, IsScore raw →
      IsScore (CalibrationEngine.calibrate config (CalibrationEngine.trained libs config labels)
        method raw)) ∧
    ∀ maxResolveMs limits (calls : List (ResolveCall F)) c,
      (∀ d ∈ c :: calls, ScoredHistory d.context) →
      ∀ r, resolveCached settings maxResolveMs limits calls c = .ok r →
        IsScore r.resolution.combinedConfidence ∧
        ∀ labels confidence policies clock index,
          (lit 0 < r.resolution.combinedConfidence → ∃ entry : AttributionIndexEntry,
            entry.workloadId = r.workloadId ∧
            materializeEntity config (CalibrationEngine.trained libs config labels) confidence
              policies clock r index = (.ok (), index.1.materialize index.2 entry (clock 2))) ∧
          (¬ lit 0 < r.resolution.combinedConfidence →
            materializeEntity config (CalibrationEngine.trained libs config labels) confidence
              policies clock r index = (.ok (), index)) := by
  have hfitted : ∀ predict, CalibrationEngine.Fitted libs config.cap predict → ∀ x,
      lit 0 ≤ predict x ∧ predict x ≤ config.cap := fun predict ⟨samples, h⟩ =>
    hisotonic samples predict h
  refine ⟨fun _ _ _ _ hhistory s hs => hs.isScore hhistory, fun users a ha => isScore_r6 ha,
    isScore_combineEvidence hcombination, fun signals hs r hr => (scored_timeboxed hs hr).1,
    fun labels method raw => CalibrationEngine.isScore_calibrate hcap hfitted labels method, ?_⟩
  intro maxResolveMs limits calls c hhistory r hr
  have hscored : r.resolution.Scored := by
    refine TtlCache.answer_of_fresh (P := fun r : ResolvedEntity F => r.resolution.Scored) ?_ hr
    intro d hd result hfresh
    obtain ⟨call, hcall, rfl⟩ : ∃ call ∈ c :: calls,
        ResolveCall.cached settings maxResolveMs call = d := by
      rcases List.mem_append.1 hd with hd | hd
      · obtain ⟨call, hcall, rfl⟩ := List.mem_map.1 hd
        exact ⟨call, List.mem_cons_of_mem c hcall, rfl⟩
      · exact ⟨c, List.mem_cons_self, (List.mem_singleton.1 hd).symm⟩
    have hmap : call.fresh settings maxResolveMs = .ok result := hfresh
    unfold ResolveCall.fresh at hmap
    rcases hres : resolveWithin settings maxResolveMs call.clock call.setOrder call.entityId
      call.eventTime call.context with e | resolution
    · rw [hres] at hmap
      cases hmap
    · rw [hres] at hmap
      obtain rfl := Except.ok.inj hmap
      exact scored_resolveWithin hcombination (hhistory call hcall) hres
  exact ⟨hscored.1, fun labels confidence policies clock index =>
    materializeEntity_spec hcap hfitted labels confidence policies clock hscored index⟩

/-- A call for a workload of which only the history tells. -/
def historyCall : ResolveCall Binary64 :=
  { unknownService with context := onlyHistory }

/-- A regression that only clips. -/
def clipLibraries : CalibrationLibraries Binary64 where
  isotonic cap _ := .ok fun x => max (lit 0) (min cap x)
  choice _ n := List.range n

/-- The history gives a score, and the index an entry. -/
theorem confidence_inRange_historyCall :
    ∃ r, resolveCached .default (lit 25) ⟨30000000, 10000⟩ [] historyCall = .ok r ∧
      IsScore r.resolution.combinedConfidence ∧
      ∃ entry : AttributionIndexEntry, entry.workloadId = r.workloadId ∧
        materializeEntity .default (CalibrationEngine.trained clipLibraries .default []) {} {}
          (fun _ => 0) r ({}, PyDict.empty) =
            (.ok (), AttributionIndexStore.materialize {} PyDict.empty entry 0) := by
  have hisotonic : ∀ samples predict, clipLibraries.isotonic
      (CalibrationConfig.default (F := Binary64)).cap samples = .ok predict → ∀ x,
        lit 0 ≤ predict x ∧ predict x ≤ (CalibrationConfig.default (F := Binary64)).cap := by
    intro samples predict h x
    obtain rfl := Except.ok.inj h
    exact ⟨le_max_left _ _, max_le (nonneg_lit (by norm_num)) (min_le_left _ _)⟩
  have hcap : IsScore (dec 95 2 : Binary64) := isScore_lit (by norm_num) (by norm_num)
  have hrange := (confidence_inRange .default hcap clipLibraries .default hcap hisotonic).2.2.2.2.2
  have hhistory : ∀ d ∈ [historyCall], ScoredHistory d.context := by
    intro d hd p hp
    rw [List.mem_singleton.1 hd] at hp
    have hone : p.2 = lit 1 := by
      simp only [historyCall, onlyHistory, List.mem_cons, List.not_mem_nil, or_false] at hp
      rcases hp with rfl | rfl | rfl <;> rfl
    rw [hone]
    exact isScore_one
  have hpositive : ((resolveCached .default (lit 25) ⟨30000000, 10000⟩ []
      historyCall).toOption.map fun r => decide (lit 0 < r.resolution.combinedConfidence)) =
        some true := by decide +kernel
  rcases hr : resolveCached .default (lit 25) ⟨30000000, 10000⟩ [] historyCall with e | r
  · rw [hr] at hpositive
    cases hpositive
  · rw [hr] at hpositive
    obtain ⟨hscore, hmaterialize⟩ := hrange (lit 25) ⟨30000000, 10000⟩ [] historyCall hhistory r hr
    exact ⟨r, rfl, hscore, (hmaterialize [] {} {} (fun _ => 0) ({}, PyDict.empty)).1
      (of_decide_eq_true (Option.some.inj hpositive))⟩

end ComputeIntelligence
