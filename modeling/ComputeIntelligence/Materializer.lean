import ComputeIntelligence.AttributionIndex
import ComputeIntelligence.Effects
import ComputeIntelligence.PolicyEngine

/-! # From attribution results to index entries

`IndexMaterializer` (`index/materializer.py`): a result is flattened into an entry, the
constraints of a policy context are embedded in it, and the entry is written to the
store.  `full_rebuild` does this for a list of results after clearing the store.

Of a result and its explanation, only the fields that reach the entry are kept.  A
policy context is a dictionary with known keys: a field of `PolicyContext` is `none`
when the key is absent.
-/
namespace ComputeIntelligence

/-- The parts of an explanation that the entry takes over. -/
structure ExplanationArtifact where
  targetEntity : String
  methodUsed : String
deriving DecidableEq

/-- A full attribution result. -/
structure AttributionResult where
  workloadId : String
  combinedConfidence : PyFloat
  explanation : Option ExplanationArtifact := none
deriving DecidableEq

/-- The thresholds of the confidence tiers (`config.py`). -/
structure ConfidenceConfig where
  chargebackThreshold : ℚ := 4 / 5
  provisionalThreshold : ℚ := 1 / 2
deriving DecidableEq

/-- The policy context of an entry, by key. -/
structure PolicyContext where
  modelAllowlist : Option (List String) := none
  budgetRemainingUsd : Option (Option PyFloat) := none
  budgetLimitUsd : Option (Option PyFloat) := none
  tokenBudgetOutput : Option (Option Int) := none
  tokenBudgetInput : Option (Option Int) := none
  costCeilingPerRequestUsd : Option (Option PyFloat) := none
  equivalenceClassId : Option (Option String) := none
  approvedAlternatives : Option (List String) := none
deriving DecidableEq

/-- A store and the Redis database behind it. -/
abbrev IndexState := AttributionIndexStore × RedisDb

/-- The `ge=0.0, le=1.0` check of the entry's confidence. -/
def UnitScore.check : PyFloat → Except PyExn UnitScore
  | .finite q => if h : 0 ≤ q ∧ q ≤ 1 then .ok ⟨q, h⟩ else .error .validationError
  | _ => .error .validationError

namespace IndexMaterializer

/-- `_compute_time_bucket`: the quarter of an hour the reading falls in. -/
def computeTimeBucket (now : Instant) : String :=
  let (y, m, d) := PyDateTime.civil (now / 86400000000)
  let minutes := (now % 86400000000).toNat / 60000000
  PyText.zeroPad 4 y.toNat ++ "-" ++ PyText.zeroPad 2 m ++ "-" ++ PyText.zeroPad 2 d ++ "T" ++
    PyText.zeroPad 2 (minutes / 60) ++ ":" ++ PyText.zeroPad 2 (minutes % 60 / 15 * 15) ++ ":00Z"

/-- The confidence tier of a result. -/
def confidenceTier (config : ConfidenceConfig) (conf : PyFloat) : String :=
  if conf.ge config.chargebackThreshold then "chargeback_ready"
  else if conf.ge config.provisionalThreshold then "provisional"
  else "estimated"

/-- The compact entry of a result, before any policy.  The clock is read for the time
bucket and for the default of `materialized_at`. -/
def buildEntry (config : ConfidenceConfig) (result : AttributionResult) (clock : Nat → Instant) :
    Except PyExn AttributionIndexEntry := do
  let target := (result.explanation.map ExplanationArtifact.targetEntity).getD ""
  let confidence ← UnitScore.check result.combinedConfidence
  .ok { workloadId := result.workloadId
        teamId := target
        teamName := target
        costCenterId := ""
        confidence := confidence
        confidenceTier := confidenceTier config result.combinedConfidence
        methodUsed := (result.explanation.map ExplanationArtifact.methodUsed).getD "unknown"
        materializedAt := clock 1
        timeBucket := computeTimeBucket (clock 0) }

/-- `_apply_policy_context`: every key that is there replaces its field.  The
alternatives only come with an equivalence class. -/
def applyPolicyContext (entry : AttributionIndexEntry) (policies : PolicyContext) :
    AttributionIndexEntry :=
  { entry with
    modelAllowlist := policies.modelAllowlist.getD entry.modelAllowlist
    budgetRemainingUsd := policies.budgetRemainingUsd.getD entry.budgetRemainingUsd
    budgetLimitUsd := policies.budgetLimitUsd.getD entry.budgetLimitUsd
    tokenBudgetOutput := policies.tokenBudgetOutput.getD entry.tokenBudgetOutput
    tokenBudgetInput := policies.tokenBudgetInput.getD entry.tokenBudgetInput
    costCeilingPerRequestUsd :=
      policies.costCeilingPerRequestUsd.getD entry.costCeilingPerRequestUsd
    equivalenceClassId := policies.equivalenceClassId.getD entry.equivalenceClassId
    approvedAlternatives := match policies.equivalenceClassId with
      | some _ => policies.approvedAlternatives.getD []
      | none => entry.approvedAlternatives }

/-- `materialize_attribution`.  It returns the entry as it was before the store
stamped it. -/
def materializeAttribution (config : ConfidenceConfig) (result : AttributionResult)
    (policies : PolicyContext) (clock : Nat → Instant) :
    Eff PyExn IndexState AttributionIndexEntry := do
  let built ← Eff.lift (buildEntry config result clock)
  let entry := if policies = {} then built else applyPolicyContext built policies
  Eff.modify fun s => s.1.materialize s.2 entry (clock 2)
  pure entry

/-- The loop of `full_rebuild`.  Each round reads the clock three times. -/
def rebuildLoop (config : ConfidenceConfig) :
    List AttributionResult → Nat → (Nat → Instant) → Eff PyExn IndexState Nat
  | [], count, _ => pure count
  | result :: results, count, clock => do
      let _ ← materializeAttribution config result {} clock
      rebuildLoop config results (count + 1) fun n => clock (n + 3)

/-- `full_rebuild`. -/
def fullRebuild (config : ConfidenceConfig) (results : List AttributionResult)
    (clock : Nat → Instant) : Eff PyExn IndexState Nat := do
  Eff.modify fun s => s.1.clear s.2
  rebuildLoop config results 0 clock

end IndexMaterializer

end ComputeIntelligence
