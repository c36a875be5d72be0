import ComputeIntelligence.FirstMax
import ComputeIntelligence.IsoTime
import ComputeIntelligence.RoundedArith
import ComputeIntelligence.StableSort

/-! # The pricing catalog

`PricingCatalog` (`pricing/catalog.py`): rules are normalized, appended and sorted by provider,
model and effective time; an estimate takes the latest rule in effect, the first of several; the
snapshot identifier is a digest of the rules in their order.

The sort is stable and the key is not the whole rule, so of the order in which the rules were
registered the catalog keeps that of the rules with the same key: it does not matter exactly when
no two such rules have different prices (`orderFree_iff`).
-/
namespace ComputeIntelligence
open StableSort FirstMax ScoreArith

/-! ### Rules -/

/-- What registering a rule, or an estimate, raises. -/
inductive PricingError where
  | requestCount
  | noRule (provider model : String)
  | negativeTokens
  | dateOverflow
  | intOverflow
deriving DecidableEq

/-- The text of the exception. -/
def PricingError.message : PricingError → String
  | .requestCount => "request_count must be > 0"
  | .noRule provider model =>
      "no pricing rule available for provider=" ++ PyVal.quote provider ++
        " model=" ++ PyVal.quote model
  | .negativeTokens => "token counts must be non-negative"
  | .dateOverflow => "date value out of range"
  | .intOverflow => "int too large to convert to float"

/-- `_aware`. -/
def pricingTime (value : PyDateTime) : Except PricingError PyDateTime :=
  value.aware.mapError fun _ => .dateOverflow

theorem utcoffset_of_pricingTime {value t : PyDateTime} (h : pricingTime value = .ok t) :
    t.utcoffset = some 0 := by
  unfold pricingTime at h
  cases haware : value.aware with
  | error e =>
    rw [haware] at h
    cases h
  | ok utc =>
    rw [haware] at h
    rw [← Except.ok.inj h]
    exact PyDateTime.utcoffset_of_aware haware

variable {F : Type} [ScoreArith F]

structure PricingRule (F : Type) [ScoreArith F] where
  provider : String
  model : String
  effectiveFrom : PyDateTime
  inputUsdPer1kTokens : F
  outputUsdPer1kTokens : F
  cachedInputUsdPer1kTokens : Option F := none
  requestBaseUsd : F := lit 0
deriving DecidableEq

/-- A row of the snapshot. -/
structure PricingRow (F : Type) where
  provider : String
  model : String
  effectiveFrom : String
  input : F
  output : F
  cachedInput : Option F
  requestBase : F
deriving DecidableEq

namespace PricingRule

/-- The rule that is registered. -/
def normalized (rule : PricingRule F) : Except PricingError (PricingRule F) := do
  let effectiveFrom ← pricingTime rule.effectiveFrom
  return { rule with
    provider := PyText.lower (PyText.strip rule.provider)
    model := PyText.strip rule.model
    effectiveFrom }

theorem utcoffset_of_normalized {rule normalized : PricingRule F}
    (h : rule.normalized = .ok normalized) : normalized.effectiveFrom.utcoffset = some 0 := by
  unfold PricingRule.normalized at h
  cases haware : pricingTime rule.effectiveFrom with
  | error e =>
    rw [haware] at h
    cases h
  | ok t =>
    rw [haware] at h
    rw [← Except.ok.inj h]
    exact utcoffset_of_pricingTime haware

/-- `(item.provider, item.model, item.effective_from)`. -/
def sortKey (rule : PricingRule F) : String ×ₗ String ×ₗ Instant :=
  toLex (rule.provider, toLex (rule.model, rule.effectiveFrom.instant))

/-- What the rule charges. -/
def prices (rule : PricingRule F) : F × F × Option F × F :=
  (rule.inputUsdPer1kTokens, rule.outputUsdPer1kTokens, rule.cachedInputUsdPer1kTokens,
    rule.requestBaseUsd)

def row (rule : PricingRule F) : PricingRow F where
  provider := rule.provider
  model := rule.model
  effectiveFrom := rule.effectiveFrom.isoformat
  input := rule.inputUsdPer1kTokens
  output := rule.outputUsdPer1kTokens
  cachedInput := rule.cachedInputUsdPer1kTokens
  requestBase := rule.requestBaseUsd

theorem prices_eq_of_row_eq {a b : PricingRule F} (h : a.row = b.row) : a.prices = b.prices := by
  obtain ⟨-, -, -, hinput, houtput, hcached, hbase⟩ := PricingRow.mk.inj h
  unfold prices
  rw [hinput, houtput, hcached, hbase]

end PricingRule

/-! ### The catalog -/

/-- The rules, in the order of their keys. -/
structure PricingCatalog (F : Type) [ScoreArith F] where
  rules : List (PricingRule F)
  sorted : rules.Pairwise fun a b => a.sortKey ≤ b.sortKey

structure PricingUsage where
  provider : String
  model : String
  inputTokens : Int := 0
  outputTokens : Int := 0
  cacheReadInputTokens : Int := 0
  requestCount : Int := 1
  effectiveAt : Option PyDateTime := none

structure CostEstimate (F : Type) where
  provider : String
  model : String
  ruleEffectiveFrom : PyDateTime
  requestCount : Int
  inputCostUsd : F
  outputCostUsd : F
  cachedInputCostUsd : F
  requestBaseCostUsd : F
  totalCostUsd : F
deriving DecidableEq

/-- `float(n)`. -/
def floatOf (n : Int) : Except PricingError F :=
  if PyVal.fitsFloat n then .ok (lit n) else .error .intOverflow

namespace PricingCatalog

def empty : PricingCatalog F := ⟨[], List.Pairwise.nil⟩

/-- `register_rule`. -/
def registerRule (catalog : PricingCatalog F) (rule : PricingRule F) :
    Except PricingError (PricingCatalog F) := do
  let normalized ← rule.normalized
  return ⟨sortBy PricingRule.sortKey (catalog.rules ++ [normalized]),
    (arranges_sortBy PricingRule.sortKey _).sorted⟩

/-- `_resolve_rule`. -/
def resolveRule (catalog : PricingCatalog F) (provider model : String) (effectiveAt : PyDateTime) :
    Except PricingError (PricingRule F) :=
  let candidates := catalog.rules.filter fun rule =>
    rule.provider = provider ∧ rule.model = model ∧
      rule.effectiveFrom.instant ≤ effectiveAt.instant
  match firstMax (fun rule => rule.effectiveFrom.instant) candidates with
  | none => .error (.noRule provider model)
  | some rule => .ok rule

/-- `estimate`, at the instant `now`. -/
def estimate (catalog : PricingCatalog F) (usage : PricingUsage) (now : Instant) :
    Except PricingError (CostEstimate F) := do
  if usage.requestCount ≤ 0 then throw .requestCount
  let provider := PyText.lower (PyText.strip usage.provider)
  let model := PyText.strip usage.model
  let effectiveAt ← match usage.effectiveAt with
    | some at_ => pricingTime at_
    | none => pure ⟨now, some 0⟩
  let rule ← catalog.resolveRule provider model effectiveAt
  if usage.inputTokens < 0 ∨ usage.outputTokens < 0 ∨ usage.cacheReadInputTokens < 0 then
    throw .negativeTokens
  let cacheRead := min usage.cacheReadInputTokens usage.inputTokens
  let billableInput := max (usage.inputTokens - cacheRead) 0
  let cacheRate := rule.cachedInputUsdPer1kTokens.getD rule.inputUsdPer1kTokens
  let requestMultiplier : F ← floatOf usage.requestCount
  let inputCost := (← floatOf billableInput) / lit 1000 * rule.inputUsdPer1kTokens *
    requestMultiplier
  let cachedInputCost := (← floatOf cacheRead) / lit 1000 * cacheRate * requestMultiplier
  let outputCost := (← floatOf usage.outputTokens) / lit 1000 * rule.outputUsdPer1kTokens *
    requestMultiplier
  let baseCost := rule.requestBaseUsd * requestMultiplier
  return {
    provider, model, ruleEffectiveFrom := rule.effectiveFrom, requestCount := usage.requestCount,
    inputCostUsd := inputCost, outputCostUsd := outputCost, cachedInputCostUsd := cachedInputCost,
    requestBaseCostUsd := baseCost,
    totalCostUsd := inputCost + cachedInputCost + outputCost + baseCost }

/-- The rows of the snapshot. -/
def rows (catalog : PricingCatalog F) : List (PricingRow F) := catalog.rules.map PricingRule.row

/-- `snapshot_id`; `digest` is the first twelve digits of the SHA-256 of the rows as JSON. -/
def snapshotId (digest : List (PricingRow F) → String) (catalog : PricingCatalog F) : String :=
  "pricing-" ++ digest catalog.rows

/-! ### Registering rules -/

/-- Register the rules one after another; a rule that is refused leaves the catalog as it was. -/
def registerEach (rules : List (PricingRule F)) : PricingCatalog F :=
  rules.foldl (fun catalog rule => (catalog.registerRule rule).toOption.getD catalog) empty

/-- The rules that are not refused, normalized, in the order they are registered in. -/
def accepted (rules : List (PricingRule F)) : List (PricingRule F) :=
  rules.filterMap fun rule => rule.normalized.toOption

theorem accepted_append (xs ys : List (PricingRule F)) :
    accepted (xs ++ ys) = accepted xs ++ accepted ys :=
  List.filterMap_append

theorem accepted_cons_of_ok {rule normalized : PricingRule F} (h : rule.normalized = .ok normalized)
    (rules : List (PricingRule F)) : accepted (rule :: rules) = normalized :: accepted rules :=
  List.filterMap_cons_some (congrArg Except.toOption h)

/-- The catalog is the accepted rules, stably sorted. -/
theorem arranges_registerEach (rules : List (PricingRule F)) :
    Arranges PricingRule.sortKey (registerEach rules).rules (accepted rules) := by
  induction rules using List.reverseRecOn with
  | nil => exact arranges_sortBy PricingRule.sortKey []
  | append_singleton rules rule ih =>
    rw [accepted_append, registerEach, List.foldl_append, ← registerEach, List.foldl_cons,
      List.foldl_nil, registerRule]
    cases hnormalized : rule.normalized with
    | error e =>
      have hnone : accepted [rule] = [] :=
        List.filterMap_cons_none (congrArg Except.toOption hnormalized)
      rw [hnone, List.append_nil]
      exact ih
    | ok normalized =>
      rw [accepted_cons_of_ok hnormalized]
      exact ih.insert normalized

/-! ### Orders of registration -/

/-- In whichever orders the rules are registered, the snapshot is the same, and so is every
estimate at a stated time. -/
def OrderFree (digest : List (PricingRow F) → String) (rules : List (PricingRule F)) : Prop :=
  ∀ order₁ order₂, order₁.Perm rules → order₂.Perm rules →
    (registerEach order₁).snapshotId digest = (registerEach order₂).snapshotId digest ∧
      ∀ usage now, usage.effectiveAt.isSome →
        (registerEach order₁).estimate usage now = (registerEach order₂).estimate usage now

/-- Accepted rules with the same provider, model and effective instant have the same prices. -/
def Unambiguous (rules : List (PricingRule F)) : Prop :=
  ∀ a ∈ accepted rules, ∀ b ∈ accepted rules, a.sortKey = b.sortKey → a.prices = b.prices

instance (rules : List (PricingRule F)) : Decidable (Unambiguous rules) :=
  have hpair (a : PricingRule F) : DecidablePred fun b : PricingRule F =>
      a.sortKey = b.sortKey → a.prices = b.prices := fun _ => inferInstance
  have hall : DecidablePred fun a : PricingRule F =>
      ∀ b ∈ accepted rules, a.sortKey = b.sortKey → a.prices = b.prices :=
    fun a => @List.decidableBAll _ _ (hpair a) (accepted rules)
  @List.decidableBAll _ _ hall (accepted rules)

/-- The digest tells apart what the orders of the rules come to. -/
def Separates (digest : List (PricingRow F) → String) (rules : List (PricingRule F)) : Prop :=
  ∀ order₁ order₂, order₁.Perm rules → order₂.Perm rules →
    digest (registerEach order₁).rows = digest (registerEach order₂).rows →
      (registerEach order₁).rows = (registerEach order₂).rows

theorem mem_accepted {rules : List (PricingRule F)} {a : PricingRule F} (h : a ∈ accepted rules) :
    ∃ rule ∈ rules, rule.normalized = .ok a := by
  obtain ⟨rule, hmem, hsome⟩ := List.mem_filterMap.1 h
  refine ⟨rule, hmem, ?_⟩
  cases hnormalized : rule.normalized with
  | error e =>
    rw [hnormalized] at hsome
    cases hsome
  | ok normalized =>
    rw [hnormalized] at hsome
    exact congrArg Except.ok (Option.some.inj hsome)

/-- An accepted rule is its key and its prices. -/
theorem eq_of_mem_accepted {rules : List (PricingRule F)} {a b : PricingRule F}
    (ha : a ∈ accepted rules) (hb : b ∈ accepted rules) (hkey : a.sortKey = b.sortKey)
    (hprices : a.prices = b.prices) : a = b := by
  have hutc : ∀ {c : PricingRule F}, c ∈ accepted rules → c.effectiveFrom.utcoffset = some 0 := by
    intro c hc
    obtain ⟨rule, -, hnormalized⟩ := mem_accepted hc
    exact PricingRule.utcoffset_of_normalized hnormalized
  have htimes := PyDateTime.eq_of_instant_eq (hutc ha) (hutc hb)
    (congrArg (fun k => (ofLex (ofLex k).2).2) hkey)
  have hprovider : a.provider = b.provider := congrArg (fun k => (ofLex k).1) hkey
  have hmodel : a.model = b.model := congrArg (fun k => (ofLex (ofLex k).2).1) hkey
  obtain ⟨⟩ := a
  obtain ⟨⟩ := b
  obtain ⟨rfl, rfl, rfl, rfl⟩ : _ ∧ _ ∧ _ ∧ _ := by simpa [PricingRule.prices] using hprices
  subst hprovider hmodel htimes
  rfl

/-- Rules without ambiguity come to one catalog. -/
theorem Unambiguous.registerEach_eq {rules order₁ order₂ : List (PricingRule F)}
    (h : Unambiguous rules) (h₁ : order₁.Perm rules) (h₂ : order₂.Perm rules) :
    registerEach order₁ = registerEach order₂ := by
  have hrules : (registerEach order₁).rules = (registerEach order₂).rules := by
    apply (arranges_registerEach order₁).eq_of_perm (arranges_registerEach order₂)
    · exact (h₁.trans h₂.symm).filterMap _
    · intro a ha b hb hkey
      have ha : a ∈ accepted rules := (h₁.filterMap _).mem_iff.1 ha
      have hb : b ∈ accepted rules := (h₁.filterMap _).mem_iff.1 hb
      exact eq_of_mem_accepted ha hb hkey (h a ha b hb hkey)
  cases hc₁ : registerEach order₁ with
  | mk rules₁ sorted₁ =>
    cases hc₂ : registerEach order₂ with
    | mk rules₂ sorted₂ =>
      rw [hc₁, hc₂] at hrules
      cases hrules
      rfl

/-- Two rules with one key, each registered first once: what the snapshots say of the key is the
row of either. -/
theorem prices_eq_of_rows_eq {r₁ r₂ a b : PricingRule F} {rest : List (PricingRule F)}
    (ha : r₁.normalized = .ok a) (hb : r₂.normalized = .ok b) (hkey : a.sortKey = b.sortKey)
    (hrows : (registerEach (r₁ :: r₂ :: rest)).rows = (registerEach (r₂ :: r₁ :: rest)).rows) :
    a.prices = b.prices := by
  have harranges₁ := arranges_registerEach (r₁ :: r₂ :: rest)
  have harranges₂ := arranges_registerEach (r₂ :: r₁ :: rest)
  have hkeys := harranges₁.map_key_eq harranges₂ ((List.Perm.swap r₂ r₁ rest).filterMap _)
  rw [accepted_cons_of_ok ha] at harranges₁
  rw [accepted_cons_of_ok hb] at harranges₂
  have hheads := head_filter_eq hkeys hrows a.sortKey
  rw [harranges₁.head_filter, hkey, harranges₂.head_filter] at hheads
  exact PricingRule.prices_eq_of_row_eq (Option.some.inj hheads)

/-- A rule from the first of January 2026 on. -/
def newYearRule (model : String) (input output : ℚ) : PricingRule ℚ where
  provider := "openai"
  model
  effectiveFrom := ⟨1767225600000000, some 0⟩
  inputUsdPer1kTokens := input
  outputUsdPer1kTokens := output

/-- The rules of two models. -/
def twoModels : List (PricingRule ℚ) :=
  [newYearRule "gpt-4o" (50 / 10000) (150 / 10000),
    newYearRule "gpt-4o-mini" (15 / 100000) (60 / 100000)]

theorem twoModels_unambiguous : Unambiguous twoModels := by decide +kernel

end PricingCatalog
end ComputeIntelligence
