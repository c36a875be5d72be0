import Mathlib.Data.List.TakeWhile
import ComputeIntelligence.Memberships
import ComputeIntelligence.ScoredEvents

/-! # Corrections and the curves they train

A correction is filed under the methods of the result it corrects, joined by plus signs; the
curve of a result is that of its first method.  The two are one key exactly when the result
rests on one signal.  A result of several is corrected in vain: its labels train a curve that no
result is calibrated by (`corrections_train_iff`).
-/
namespace ComputeIntelligence
open ScoreArith

/-- The methods of the engine. -/
def methodNames : List String := ["R1", "R2", "R3", "R4", "R5", "R6"]

/-- A result that rests on signals of some methods, the first of them the primary one. -/
structure RestsOn (result : AttributionResult) (methods : List String) : Prop where
  nonempty : methods ≠ []
  known : ∀ m ∈ methods, m ∈ methodNames
  used : ∃ target, result.explanation = some ⟨target, PyText.join "+" methods⟩

/-- A correction that copies the methods of a result. -/
def Corrects (e : DomainEvent) (result : AttributionResult) : Prop :=
  ∃ explanation, result.explanation = some explanation ∧
    e.text "method_used" "" = explanation.methodUsed

namespace AttributionProcessor

/-- No name of a method has a plus sign, so the first one is found again. -/
theorem primaryMethod_eq {result : AttributionResult} {method : String} {methods : List String}
    (h : RestsOn result (method :: methods)) : primaryMethod result = method := by
  have hplain : ∀ m ∈ methodNames, '+' ∉ m.toList := by decide +kernel
  have hmethod := hplain method (h.known method List.mem_cons_self)
  obtain ⟨target, hused⟩ := h.used
  have htake : (PyText.join "+" (method :: methods)).toList.takeWhile (· ≠ '+') =
      method.toList := by
    have hall : ∀ c ∈ method.toList, (decide (c ≠ '+')) = true := fun c hc =>
      decide_eq_true fun heq => hmethod (heq ▸ hc)
    unfold PyText.join
    rcases methods with - | ⟨next, rest⟩
    · rw [String.intercalate_singleton, List.takeWhile_eq_self_iff.2 hall]
    · rw [String.intercalate_cons_cons, String.toList_append, String.toList_append,
        List.append_assoc, List.takeWhile_append_of_pos hall]
      show method.toList ++ [] = method.toList
      exact List.append_nil _
  unfold primaryMethod
  rw [hused]
  show String.ofList ((PyText.join "+" (method :: methods)).toList.takeWhile (· ≠ '+')) = method
  rw [htake, String.ofList_toList]

/-- The joined names are the first of them when it is the only one. -/
theorem join_eq_head_iff {method : String} {methods : List String} :
    PyText.join "+" (method :: methods) = method ↔ methods = [] := by
  unfold PyText.join
  rcases methods with - | ⟨next, rest⟩
  · exact iff_of_true String.intercalate_singleton rfl
  · refine iff_of_false (fun h => ?_) (List.cons_ne_nil next rest)
    rw [String.intercalate_cons_cons] at h
    have hlength := congrArg (fun s : String => s.toList.length) h
    simp only [String.toList_append, List.length_append] at hlength
    have hplus : "+".toList.length = 1 := rfl
    omega

open HeuristicReconciliationEngine FirstMax in
/-- What the engine answers with a positive confidence rests on signals. -/
theorem restsOn_resolveWithin {F : Type} [RoundedArith F] {settings : HreSettings F}
    {maxResolveMs : F} {clock : Nat → F} {setOrder : SetOrder} {entityId : String}
    {eventTime : Instant} {context : ReconciliationContext F} {r : Resolution F}
    (h : resolveWithin settings maxResolveMs clock setOrder entityId eventTime context = .ok r)
    (hpos : lit 0 < r.combinedConfidence) (workloadId : String) :
    ∃ methods, RestsOn (ResolvedEntity.result ⟨workloadId, r⟩) methods := by
  have hfallback : ∀ users : PyDict String F, lit 0 < (fallback users).combinedConfidence →
      ∃ methods, RestsOn (ResolvedEntity.result ⟨workloadId, fallback users⟩) methods := by
    intro users hpos
    unfold fallback at hpos ⊢
    dsimp only at hpos ⊢
    split
    · rename_i best hbest
      refine ⟨(r6Resolve users).map fun _ => "R6", fun hnil => ?_, fun m hm => ?_, _, rfl⟩
      · rw [List.map_eq_nil_iff.1 hnil] at hbest
        cases hbest
      · obtain ⟨a, -, rfl⟩ := List.mem_map.1 hm
        decide
    · rename_i hnone
      rw [hnone] at hpos
      exact absurd hpos (lt_irrefl _)
  unfold resolveWithin at h
  split at h
  · obtain rfl := Except.ok.inj h
    exact ⟨["R1"], List.cons_ne_nil _ _, by decide, _, rfl⟩
  · obtain ⟨signals, hsignals, h⟩ := Except.bind_eq_ok h
    have hknown : ∀ s ∈ signals, s.method ∈ methodNames := by
      intro s hs
      obtain ⟨method, hmethod, hround⟩ := (probabilisticSignals_spec hsignals).2 s hs
      have hsub : ∀ m ∈ ["R2", "R3", "R4", "R5"], m ∈ methodNames := by decide
      rw [hround.1]
      exact hsub method hmethod
    have hanswer : ∀ o : Option (Resolution F),
        (∀ r' ∈ o, ∃ methods, RestsOn (ResolvedEntity.result ⟨workloadId, r'⟩) methods) →
        o.getD (fallback context.proportionalUsers) = r →
        ∃ methods, RestsOn (ResolvedEntity.result ⟨workloadId, r⟩) methods := by
      rintro (- | r') ho rfl
      · exact hfallback _ hpos
      · exact ho r' rfl
    split at h
    · obtain rfl := Except.ok.inj h
      exact hfallback _ hpos
    · split at h
      · refine hanswer _ (fun r' hr' => ?_) (Except.ok.inj h)
        obtain ⟨best, hbest, rfl⟩ := Option.map_eq_some_iff.1 hr'
        refine ⟨[best.method], List.cons_ne_nil _ _, fun m hm => ?_, best.targetEntity, ?_⟩
        · rw [List.mem_singleton.1 hm]
          exact hknown best (firstMax_best hbest).1
        · unfold ResolvedEntity.result PyText.join
          rw [String.intercalate_singleton]
      · refine hanswer _ (fun r' hr' => ?_) (Except.ok.inj h)
        rw [Option.mem_def, combineWithin_eq] at hr'
        split at hr'
        · cases hr'
        · rename_i c hbest
          split at hr'
          · obtain rfl := Option.some.inj hr'
            obtain ⟨j, hj, -⟩ := mem_reached_iff.1 (firstMax_best hbest).1
            have hc := List.mem_of_getElem? hj
            have hne := (mem_clusterByTarget_iff.1 (mem_of_mem_rankedClusters hc)).1
            refine ⟨c.2.map Signal.method, fun hnil => hne (List.map_eq_nil_iff.1 hnil),
              fun m hm => ?_, c.1, rfl⟩
            obtain ⟨s, hs, rfl⟩ := List.mem_map.1 hm
            exact hknown s (mem_cluster hc hs).1
          · cases hr'

/-- The engine after some corrections, with the times of their labels. -/
def corrected {F : Type} [ScoreArith F] (libs : CalibrationLibraries F)
    (config : CalibrationConfig F) (s : CalibrationEngine F)
    (corrections : List (DomainEvent × Instant)) : CalibrationEngine F :=
  corrections.foldl (fun s c => s.addGroundTruth libs config (correctionLabel c.1 c.2)) s

/-- **Corrections train the curve that is used** exactly when the result rests on one signal.
Then enough of them put their regression in its place; otherwise no number of them changes it. -/
theorem corrections_train_iff {F : Type} [ScoreArith F] {result : AttributionResult}
    {methods : List String} (hresult : RestsOn result methods) :
    (∀ e now, Corrects e result →
      ((correctionLabel e now).methodUsed = primaryMethod result ↔ methods.length = 1)) ∧
    (methods.length = 1 → ∀ (libs : CalibrationLibraries F) (config : CalibrationConfig F)
      (s : CalibrationEngine F) e now predict, Corrects e result →
      config.minSamplesFullCalibration ≤
        (s.groundTruth.getD (primaryMethod result) [] ++ [correctionLabel e now]).length →
      libs.isotonic config.cap (CalibrationEngine.withTailAnchors
        (s.groundTruth.getD (primaryMethod result) [] ++ [correctionLabel e now])) = .ok predict →
      ∀ raw, (corrected libs config s [(e, now)]).calibrate config (primaryMethod result) raw =
        min config.cap (max (lit 0) (predict raw))) ∧
    (methods.length ≠ 1 → ∀ (libs : CalibrationLibraries F) (config : CalibrationConfig F)
      (s : CalibrationEngine F) corrections, (∀ c ∈ corrections, Corrects c.1 result) →
      ∀ raw, (corrected libs config s corrections).calibrate config (primaryMethod result) raw =
        s.calibrate config (primaryMethod result) raw) := by
  obtain ⟨method, methods, rfl⟩ := List.exists_cons_of_ne_nil hresult.nonempty
  have hprimary := primaryMethod_eq hresult
  have hkeys : ∀ e now, Corrects e result →
      ((correctionLabel e now).methodUsed = primaryMethod result ↔
        (method :: methods).length = 1) := by
    rintro e now ⟨explanation, hexplanation, hcopy⟩
    obtain ⟨target, hused⟩ := hresult.used
    rw [hexplanation] at hused
    obtain rfl := Option.some.inj hused
    have hlabel : (correctionLabel e now).methodUsed = PyText.join "+" (method :: methods) := hcopy
    rw [hlabel, hprimary, join_eq_head_iff, List.length_cons]
    exact List.length_eq_zero_iff.symm.trans (by omega)
  refine ⟨hkeys, ?_, ?_⟩
  · intro hone libs config s e now predict he hcount hfit raw
    have hkey := (hkeys e now he).2 hone
    rw [← hkey] at hcount hfit ⊢
    exact CalibrationEngine.calibrate_addGroundTruth_of_fit hcount hfit raw
  · intro hmany libs config s corrections hcorrections raw
    unfold corrected
    induction corrections generalizing s with
    | nil => rfl
    | cons c corrections ih =>
      have hkey : primaryMethod result ≠ (correctionLabel c.1 c.2).methodUsed := fun h =>
        hmany ((hkeys c.1 c.2 (hcorrections c List.mem_cons_self)).1 h.symm)
      rw [List.foldl_cons, ih _ fun d hd => hcorrections d (List.mem_cons_of_mem c hd)]
      exact (CalibrationEngine.agreeOn_addGroundTruth_of_ne libs config s hkey).calibrate_eq config raw

/-- The attributes of a correction of a result of R2 alone. -/
def singleCorrection : {d : PyDict String PyVal // payloadFits d} :=
  ⟨⟨[("attribution_id", .str "attr"), ("true_team_id", .str "team:b"),
    ("true_cost_center_id", .str "cc"), ("method_used", .str "R2")], by decide⟩, by decide +kernel⟩

/-- The attributes of a correction of a result of R2 and R5. -/
def jointCorrection : {d : PyDict String PyVal // payloadFits d} :=
  ⟨⟨[("attribution_id", .str "attr"), ("true_team_id", .str "team:b"),
    ("true_cost_center_id", .str "cc"), ("method_used", .str "R2+R5")], by decide⟩,
    by decide +kernel⟩

/-- An event with the attributes of a correction. -/
def correctionEvent (attributes : {d : PyDict String PyVal // payloadFits d})
    (h : attributionCorrectionPayload.Accepts attributes.1) : AcceptedEvent :=
  ⟨{ eventId := "c", eventType := .attributionCorrection, subjectId := "svc", attributes,
     eventTime := AwareDateTime.utc 0, ingestTime := AwareDateTime.utc 0,
     source := "ui", idempotencyKey := "c", tenantId := "acme" }, ⟨rfl, h⟩⟩

/-- A result of some methods. -/
def resultOf (methodUsed : String) : AttributionResult where
  workloadId := "svc"
  combinedConfidence := .finite (1 / 2)
  explanation := some ⟨"team:a", methodUsed⟩

/-- The correction of a result of R2 is filed under R2. -/
theorem singleCorrection_key :
    (correctionLabel (correctionEvent singleCorrection (by decide +kernel)).1 0).methodUsed =
      primaryMethod (resultOf "R2") := by
  have hrests : RestsOn (resultOf "R2") ["R2"] :=
    ⟨List.cons_ne_nil _ _, by decide, "team:a", rfl⟩
  exact ((corrections_train_iff (F := ℚ) hrests).1 _ 0 ⟨_, rfl, rfl⟩).2 rfl

/-- The correction of a result of R2 and R5 is filed under both, and the result is calibrated
by the curve of R2. -/
theorem jointCorrection_key :
    ¬ ∀ (result : AttributionResult) (methods : List String) (e : AcceptedEvent) (now : Instant),
        RestsOn result methods → e.1.eventType = .attributionCorrection → Corrects e.1 result →
        (correctionLabel e.1 now).methodUsed = primaryMethod result := by
  intro h
  have hkey := h (resultOf "R2+R5") ["R2", "R5"]
    (correctionEvent jointCorrection (by decide +kernel)) 0
    ⟨List.cons_ne_nil _ _, by decide, "team:a", rfl⟩ rfl ⟨_, rfl, rfl⟩
  exact absurd hkey (by decide +kernel)

end AttributionProcessor
end ComputeIntelligence
