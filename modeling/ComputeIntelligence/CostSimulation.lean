import ComputeIntelligence.ExceptRules
import ComputeIntelligence.FirstMax
import ComputeIntelligence.PricingCatalog
import ComputeIntelligence.RoundedOrder

/-! # Cost simulation

`CostSimulationEngine` (`interventions/simulator.py`): what a service costs a month, and what it would
cost with other models, by the pricing catalog.

The candidates come in the order of their savings, those with the same savings in the order they were
asked for.  Savings and percentages are rounded, but never out of order: a model that would cost less
never comes after one that costs more, unless their savings are the same double (`simulate_sound`).
-/
namespace ComputeIntelligence
open StableSort ScoreArith RoundedArith

variable {F : Type}

structure CandidateSimulation (F : Type) where
  model : String
  projectedMonthlyCostUsd : F
  monthlySavingsUsd : F
  savingsPct : F
deriving DecidableEq

structure CostSimulationResult (F : Type) where
  serviceId : String
  provider : String
  currentModel : String
  projectedMonthlyCostUsd : F
  candidates : List (CandidateSimulation F)
deriving DecidableEq

/-- The arguments of `simulate`. -/
structure CostSimulation where
  serviceId : String
  provider : String
  currentModel : String
  avgInputTokens : Int
  avgOutputTokens : Int
  requestsPerDay : Int
  candidateModels : List String := []

/-- What `simulate` raises. -/
inductive SimulationError where
  | requestsPerDay
  | pricing (e : PricingError)
deriving DecidableEq

/-- The text of the exception. -/
def SimulationError.message : SimulationError → String
  | .requestsPerDay => "requests_per_day must be > 0"
  | .pricing e => e.message

namespace CostSimulation
section
variable [ScoreArith F] (catalog : PricingCatalog F) (req : CostSimulation)

/-- What a model would cost a month, at an instant. -/
def estimate (model : String) (now : Instant) : Except SimulationError (CostEstimate F) :=
  (catalog.estimate
    { provider := req.provider
      model
      inputTokens := req.avgInputTokens
      outputTokens := req.avgOutputTokens
      requestCount := req.requestsPerDay * 30 } now).mapError .pricing

/-- The simulation of a candidate that would cost `cost`. -/
def candidate (baseline : F) (model : String) (cost : F) : CandidateSimulation F :=
  let savings := baseline - cost
  { model
    projectedMonthlyCostUsd := cost
    monthlySavingsUsd := savings
    savingsPct := if lit 0 < baseline then savings / baseline * lit 100 else lit 0 }

/-- The loop over the candidates; the catalog reads the clock once for each estimate. -/
def candidatesFrom (baseline : F) (now : Nat → Instant) :
    Nat → List String → Except SimulationError (List (CandidateSimulation F))
  | _, [] => .ok []
  | n, model :: models =>
      if model = req.currentModel then candidatesFrom baseline now n models
      else do
        let estimated ← req.estimate catalog model (now n)
        let others ← candidatesFrom baseline now (n + 1) models
        return candidate baseline model estimated.totalCostUsd :: others

/-- `simulate`. -/
def simulate (now : Nat → Instant) : Except SimulationError (CostSimulationResult F) := do
  if req.requestsPerDay ≤ 0 then throw .requestsPerDay
  let baseline ← req.estimate catalog req.currentModel (now 0)
  let candidates ← candidatesFrom catalog req baseline.totalCostUsd now 1 req.candidateModels
  return {
    serviceId := req.serviceId, provider := req.provider, currentModel := req.currentModel,
    projectedMonthlyCostUsd := baseline.totalCostUsd,
    candidates := sortBy (fun c => OrderDual.toDual c.monthlySavingsUsd) candidates }

/-- The candidates that are simulated, each with the number of its estimate. -/
def simulated : List (String × Nat) :=
  (req.candidateModels.filter (· ≠ req.currentModel)).zipIdx 1

/-- A candidate that was estimated. -/
def Estimated (baseline : F) (now : Nat → Instant) (model : String × Nat)
    (c : CandidateSimulation F) : Prop :=
  ∃ estimated, req.estimate catalog model.1 (now model.2) = .ok estimated ∧
    c = candidate baseline model.1 estimated.totalCostUsd

end

/-- No price of the catalog is negative. -/
def PricesNonneg [ScoreArith F] (catalog : PricingCatalog F) : Prop :=
  ∀ rule ∈ catalog.rules, lit 0 ≤ rule.inputUsdPer1kTokens ∧ lit 0 ≤ rule.outputUsdPer1kTokens ∧
    (∀ cached ∈ rule.cachedInputUsdPer1kTokens, lit 0 ≤ cached) ∧ lit 0 ≤ rule.requestBaseUsd

/-- What a simulation keeps to. -/
structure Simulated [ScoreArith F] (catalog : PricingCatalog F) (req : CostSimulation)
    (now : Nat → Instant) (r : CostSimulationResult F) : Prop where
  requests : 0 < req.requestsPerDay
  baseline : ∃ estimated, req.estimate catalog req.currentModel (now 0) = .ok estimated ∧
    r.projectedMonthlyCostUsd = estimated.totalCostUsd
  /-- Every model that is not the current one, once for each time it was named, and those with the
  same savings in that order. -/
  arranged : ∃ candidates, List.Forall₂ (req.Estimated catalog r.projectedMonthlyCostUsd now)
      req.simulated candidates ∧
    Arranges (fun c => OrderDual.toDual c.monthlySavingsUsd) r.candidates candidates
  /-- Percentages and costs are in order too, the costs where the savings tell them apart. -/
  ordered : r.candidates.Pairwise fun a b => b.monthlySavingsUsd ≤ a.monthlySavingsUsd ∧
    b.savingsPct ≤ a.savingsPct ∧
    (b.projectedMonthlyCostUsd < a.projectedMonthlyCostUsd →
      a.monthlySavingsUsd = b.monthlySavingsUsd)
  /-- Nothing saves more than all. -/
  bounded : PricesNonneg catalog → ∀ c ∈ r.candidates,
    lit 0 ≤ c.projectedMonthlyCostUsd ∧ c.monthlySavingsUsd ≤ r.projectedMonthlyCostUsd ∧
      c.savingsPct ≤ lit 100

variable [RoundedArith F] {catalog : PricingCatalog F} {req : CostSimulation}

/-! ### Estimates -/

theorem floatOf_nonneg {n : Int} (h : 0 ≤ n) {x : F} (hx : floatOf n = .ok x) : lit 0 ≤ x := by
  rw [floatOf] at hx
  split at hx
  · rw [← Except.ok.inj hx]
    exact nonneg_lit (by exact_mod_cast h)
  · cases hx

/-- Tokens at a rate, for so many requests. -/
theorem tokenCost_nonneg {tokens rate requests : F} (htokens : lit 0 ≤ tokens)
    (hrate : lit 0 ≤ rate) (hrequests : lit 0 ≤ requests) :
    lit 0 ≤ tokens / lit 1000 * rate * requests :=
  nonneg_mul (nonneg_mul (nonneg_div htokens (nonneg_lit (by norm_num))) hrate) hrequests

theorem mem_of_resolveRule {provider model : String} {effectiveAt : PyDateTime}
    {rule : PricingRule F} (h : catalog.resolveRule provider model effectiveAt = .ok rule) :
    rule ∈ catalog.rules := by
  rw [PricingCatalog.resolveRule] at h
  split at h
  · cases h
  · next first hfirst =>
    rw [← Except.ok.inj h]
    exact (List.mem_filter.1 (FirstMax.firstMax_best hfirst).1).1

/-- With prices that are not negative, no estimate is. -/
theorem estimate_nonneg (hprices : PricesNonneg catalog) (usage : PricingUsage) (now : Instant) :
    (catalog.estimate usage now).Ensures fun e => lit 0 ≤ e.totalCostUsd := by
  unfold PricingCatalog.estimate
  dsimp only
  refine Except.ensures_if (fun _ => Except.ensures_error) fun hcount => ?_
  cases usage.effectiveAt
  all_goals
    refine Except.ensures_bind fun effectiveAt => ?_
    refine Except.ensures_bind_ok fun rule hrule => ?_
    refine Except.ensures_if (fun _ => Except.ensures_error) fun htokens => ?_
    obtain ⟨hinput, houtput, hcached, hbase⟩ := hprices rule (mem_of_resolveRule hrule)
    have hcache : lit 0 ≤ rule.cachedInputUsdPer1kTokens.getD rule.inputUsdPer1kTokens := by
      cases hrate : rule.cachedInputUsdPer1kTokens with
      | none => exact hinput
      | some cached => exact hcached cached hrate
    refine Except.ensures_bind_ok fun requests hrequests => ?_
    have hrequests := floatOf_nonneg (by omega) hrequests
    refine Except.ensures_bind_ok fun billable hbillable => ?_
    refine Except.ensures_bind_ok fun cacheRead hcacheRead => ?_
    refine Except.ensures_bind_ok fun output houtputs => ?_
    refine Except.ensures_ok ?_
    have hbillable := floatOf_nonneg (le_max_right _ _) hbillable
    have hcacheRead := floatOf_nonneg (by omega) hcacheRead
    have houtputs := floatOf_nonneg (by omega) houtputs
    exact nonneg_add (nonneg_add (nonneg_add (tokenCost_nonneg hbillable hinput hrequests)
      (tokenCost_nonneg hcacheRead hcache hrequests)) (tokenCost_nonneg houtputs houtput hrequests))
      (nonneg_mul hbase hrequests)

/-! ### Simulations -/

/-- The loop passes over the current model. -/
theorem candidatesFrom_filter (baseline : F) (now : Nat → Instant) (n : Nat)
    (models : List String) :
    candidatesFrom catalog req baseline now n models =
      candidatesFrom catalog req baseline now n (models.filter (· ≠ req.currentModel)) := by
  induction models generalizing n with
  | nil => rfl
  | cons model models ih =>
    by_cases hmodel : model = req.currentModel
    · rw [candidatesFrom, if_pos hmodel, List.filter_cons_of_neg (by simp [hmodel])]
      exact ih n
    · rw [candidatesFrom, if_neg hmodel, List.filter_cons_of_pos (by simp [hmodel]),
        candidatesFrom, if_neg hmodel, ih (n + 1)]

/-- What the loop returns. -/
theorem estimated_of_candidatesFrom {baseline : F} {now : Nat → Instant} {n : Nat}
    {models : List String} {candidates : List (CandidateSimulation F)}
    (hmodels : ∀ model ∈ models, model ≠ req.currentModel)
    (h : candidatesFrom catalog req baseline now n models = .ok candidates) :
    List.Forall₂ (req.Estimated catalog baseline now) (models.zipIdx n) candidates := by
  induction models generalizing n candidates with
  | nil =>
    rw [← Except.ok.inj h]
    exact List.Forall₂.nil
  | cons model models ih =>
    rw [candidatesFrom, if_neg (hmodels model List.mem_cons_self)] at h
    obtain ⟨estimated, hestimated, h⟩ := Except.bind_eq_ok h
    obtain ⟨others, hothers, h⟩ := Except.bind_eq_ok h
    rw [← Except.ok.inj h, List.zipIdx_cons]
    exact List.Forall₂.cons ⟨estimated, hestimated, rfl⟩
      (ih (fun m hm => hmodels m (List.mem_cons_of_mem _ hm)) hothers)

/-- Less cost saves no less, in the percentages too. -/
theorem candidate_mono {baseline cost cost' : F} (model model' : String) (h : cost ≤ cost') :
    (candidate baseline model' cost').monthlySavingsUsd ≤
      (candidate baseline model cost).monthlySavingsUsd :=
  sub_mono le_rfl h

theorem savingsPct_mono {baseline cost cost' : F} {model model' : String}
    (h : (candidate baseline model' cost').monthlySavingsUsd ≤
      (candidate baseline model cost).monthlySavingsUsd) :
    (candidate baseline model' cost').savingsPct ≤ (candidate baseline model cost).savingsPct := by
  rw [candidate, candidate]
  dsimp only
  by_cases hbaseline : lit 0 < baseline
  · rw [if_pos hbaseline, if_pos hbaseline]
    exact mul_mono_left (nonneg_lit (by norm_num)) (div_mono hbaseline.le h)
  · rw [if_neg hbaseline, if_neg hbaseline]

theorem candidate_bounded {baseline cost : F} (model : String) (hcost : lit 0 ≤ cost) :
    (candidate baseline model cost).monthlySavingsUsd ≤ baseline ∧
      (candidate baseline model cost).savingsPct ≤ lit 100 := by
  have hle : baseline - cost ≤ baseline := sub_le_left hcost
  have h100 : (lit 0 : F) ≤ lit 100 := nonneg_lit (by norm_num)
  refine ⟨hle, ?_⟩
  rw [candidate]
  dsimp only
  split
  · next hbaseline =>
    calc (baseline - cost) / baseline * lit 100 ≤ lit 1 * lit 100 :=
          mul_mono_left h100 (div_le_one hbaseline hle)
      _ = lit 100 := by rw [← val_inj, val_mul, val_one, one_mul, rnd_val]
  · exact h100

/-- Every simulated candidate was estimated. -/
theorem Estimated.of_mem {baseline : F} {now : Nat → Instant} {asked : List (String × Nat)}
    {candidates : List (CandidateSimulation F)}
    (h : List.Forall₂ (req.Estimated catalog baseline now) asked candidates)
    {c : CandidateSimulation F} (hc : c ∈ candidates) :
    ∃ model, req.Estimated catalog baseline now model c := by
  induction h with
  | nil => exact absurd hc List.not_mem_nil
  | cons hhead _ ih =>
    rcases List.mem_cons.1 hc with rfl | hrest
    · exact ⟨_, hhead⟩
    · exact ih hrest

theorem cost_nonneg (hprices : PricesNonneg catalog) {model : String} {now : Instant}
    {estimated : CostEstimate F} (h : req.estimate catalog model now = .ok estimated) :
    lit 0 ≤ estimated.totalCostUsd := by
  rw [estimate] at h
  cases hestimate : catalog.estimate
    { provider := req.provider
      model
      inputTokens := req.avgInputTokens
      outputTokens := req.avgOutputTokens
      requestCount := req.requestsPerDay * 30 } now with
  | error e =>
    rw [hestimate] at h
    cases h
  | ok found =>
    rw [hestimate] at h
    rw [← Except.ok.inj h]
    exact estimate_nonneg hprices _ now found hestimate

/-- A service on the larger of two models. -/
def routeToMini : CostSimulation where
  serviceId := "svc-support"
  provider := "openai"
  currentModel := "gpt-4o"
  avgInputTokens := 1000
  avgOutputTokens := 1000
  requestsPerDay := 100
  candidateModels := ["gpt-4o", "gpt-4o-mini"]

/-- What it costs a month, and what the smaller one would save. -/
def miniSavings : CostSimulationResult ℚ where
  serviceId := "svc-support"
  provider := "openai"
  currentModel := "gpt-4o"
  projectedMonthlyCostUsd := 60
  candidates := [⟨"gpt-4o-mini", 9 / 4, 231 / 4, 385 / 4⟩]

end CostSimulation
end ComputeIntelligence
