import ComputeIntelligence.ExceptRules
import ComputeIntelligence.Interception

/-! # What the five checks report

Each check of `_evaluate_policies` as a condition on the request and the entry.  An evaluation
returns exactly when the two token checks do (`evaluates_iff`), and then it reports the
policies whose conditions hold (`reports_iff`).
-/
namespace ComputeIntelligence

/-- The policy is among the violated ones. -/
def Reports (violations : List PolicyEvaluationResult) (policyId : String) : Prop :=
  ∃ v ∈ violations, v.policyId = policyId ∧ v.violated = true

/-! ### Conditions -/

namespace AttributionIndexEntry
variable (entry : AttributionIndexEntry) (request : InterceptionRequest)

/-- The model is not on the allowlist. -/
def RefusesModel (model : String) : Prop :=
  entry.modelAllowlist ≠ [] ∧ model ∉ entry.modelAllowlist

/-- Over 90% of the budget is used. -/
def BudgetSpent : Prop := ∃ remaining limit, entry.budgetRemainingUsd = some remaining ∧
  entry.budgetLimitUsd = some limit ∧ limit.gt 0 = true ∧
  ((remaining.div limit).subFrom 1).gt (9 / 10) = true

/-- More output tokens are asked for than the budget, where a budget other than 0 is set. -/
def OutputExceeded : Prop := ∃ budget, entry.tokenBudgetOutput = some budget ∧ budget ≠ 0 ∧
  (request.metadata.getD "max_tokens" (.int 0)).gtInt budget = .ok true

/-- The input is over the budget, where a budget other than 0 is set. -/
def InputExceeded : Prop := ∃ budget, entry.tokenBudgetInput = some budget ∧ budget ≠ 0 ∧
  budget < request.inputTokens

/-- The request costs more than the ceiling. -/
def CostExceeded : Prop := ∃ cap, entry.costCeilingPerRequestUsd = some cap ∧
  request.estimatedCostUsd.gtFloat cap = true

/-- `str` of the number returns. -/
def Printable (i : Int) : Prop := i.natAbs < 10 ^ 4300

/-- What the output check needs: a number to compare, and a budget that can be printed. -/
def OutputComparable : Prop := ∀ budget, entry.tokenBudgetOutput = some budget → budget ≠ 0 →
  ∃ exceeds, (request.metadata.getD "max_tokens" (.int 0)).gtInt budget = .ok exceeds ∧
    (exceeds = true → Printable budget)

/-- What the input check needs: numbers that can be printed. -/
def InputComparable : Prop := ∀ budget, entry.tokenBudgetInput = some budget → budget ≠ 0 →
  budget < request.inputTokens → Printable request.inputTokens ∧ Printable budget

/-- The policies whose conditions hold, by their ids. -/
def Violates (policyId : String) : Prop :=
  (policyId = "model_allowlist" ∧ entry.RefusesModel request.model) ∨
  (policyId = "budget_ceiling" ∧ entry.BudgetSpent) ∨
  (policyId = "token_budget" ∧ entry.OutputExceeded request) ∨
  (policyId = "token_budget_input" ∧ entry.InputExceeded request) ∨
  (policyId = "cost_ceiling" ∧ entry.CostExceeded request)

end AttributionIndexEntry

/-! ### The checks -/

variable {request : InterceptionRequest} {entry : AttributionIndexEntry}
  {violations : List PolicyEvaluationResult} {found : Option PolicyEvaluationResult}
  {policyId id : String}

/-- A check reports its own policy or nothing. -/
def IsCheck (id : String) (c : Prop) (found : Option PolicyEvaluationResult) : Prop :=
  (∃ name details, c ∧ found = some (softStop id name details)) ∨ (¬ c ∧ found = none)

theorem IsCheck.reports_iff {c : Prop} (h : IsCheck id c found) :
    Reports found.toList policyId ↔ policyId = id ∧ c := by
  unfold Reports
  rcases h with ⟨name, details, hc, rfl⟩ | ⟨hc, rfl⟩
  · constructor
    · rintro ⟨v, hv, hid, -⟩
      obtain rfl := List.mem_singleton.1 hv
      exact ⟨hid.symm, hc⟩
    · rintro ⟨rfl, -⟩
      exact ⟨_, List.mem_singleton_self _, rfl, rfl⟩
  · constructor
    · rintro ⟨v, hv, -⟩
      cases hv
    · exact fun h => absurd h.2 hc

theorem isCheck_modelAllowlist : IsCheck "model_allowlist" (entry.RefusesModel request.model)
    (modelAllowlistViolation request entry) := by
  unfold modelAllowlistViolation
  split
  · rename_i hrefused
    exact .inl ⟨_, _, hrefused, rfl⟩
  · rename_i hallowed
    exact .inr ⟨hallowed, rfl⟩

theorem isCheck_budgetCeiling :
    IsCheck "budget_ceiling" entry.BudgetSpent (budgetCeilingViolation entry) := by
  unfold budgetCeilingViolation AttributionIndexEntry.BudgetSpent
  split
  · rename_i remaining limit hremaining hlimit
    rw [hremaining, hlimit]
    dsimp only
    split
    · rename_i hspent
      exact .inl ⟨_, _, ⟨remaining, limit, rfl, rfl, hspent⟩, rfl⟩
    · rename_i hunspent
      refine .inr ⟨?_, rfl⟩
      rintro ⟨remaining', limit', hr, hl, hspent⟩
      obtain rfl := Option.some.inj hr
      obtain rfl := Option.some.inj hl
      exact hunspent hspent
  · rename_i hmissing
    refine .inr ⟨?_, rfl⟩
    rintro ⟨remaining, limit, hr, hl, -⟩
    exact hmissing remaining limit hr hl

theorem isCheck_costCeiling : IsCheck "cost_ceiling" (entry.CostExceeded request)
    (costCeilingViolation request entry) := by
  unfold costCeilingViolation AttributionIndexEntry.CostExceeded
  cases hcap : entry.costCeilingPerRequestUsd with
  | none =>
    refine .inr ⟨?_, rfl⟩
    rintro ⟨cap, h, -⟩
    cases h
  | some cap =>
    dsimp only
    split
    · rename_i hover
      exact .inl ⟨_, _, ⟨cap, rfl, hover⟩, rfl⟩
    · rename_i hunder
      refine .inr ⟨?_, rfl⟩
      rintro ⟨cap', h, hover⟩
      obtain rfl := Option.some.inj h
      exact hunder hover

theorem intStr_of_printable {i : Int} (h : AttributionIndexEntry.Printable i) :
    PyVal.intStr i = .ok (toString i) :=
  if_pos h

theorem printable_of_intStr {i : Int} {text : String} (h : PyVal.intStr i = .ok text) :
    AttributionIndexEntry.Printable i := by
  unfold PyVal.intStr at h
  split at h
  · assumption
  · cases h

/-! The token checks compare first, and print the numbers of a violation. -/

theorem tokenBudget_returns_iff :
    (∃ found, tokenBudgetViolation request entry = .ok found) ↔ entry.OutputComparable request := by
  unfold tokenBudgetViolation AttributionIndexEntry.OutputComparable
  cases entry.tokenBudgetOutput with
  | none =>
    refine ⟨fun _ budget h => ?_, fun _ => ⟨_, rfl⟩⟩
    cases h
  | some budget =>
    dsimp only
    by_cases hzero : budget = 0
    · rw [if_pos hzero]
      refine ⟨fun _ budget' h hne => ?_, fun _ => ⟨_, rfl⟩⟩
      obtain rfl := Option.some.inj h
      exact absurd hzero hne
    · rw [if_neg hzero]
      constructor
      · rintro ⟨found, h⟩ budget' hbudget -
        obtain rfl := Option.some.inj hbudget
        obtain ⟨exceeds, hexceeds, h⟩ := Except.bind_eq_ok h
        refine ⟨exceeds, hexceeds, fun htrue => ?_⟩
        rw [if_pos htrue] at h
        obtain ⟨text, htext, -⟩ := Except.bind_eq_ok h
        exact printable_of_intStr htext
      · intro h
        obtain ⟨exceeds, hexceeds, hprint⟩ := h budget rfl hzero
        rw [hexceeds]
        cases exceeds with
        | false => exact ⟨_, rfl⟩
        | true =>
          rw [intStr_of_printable (hprint rfl)]
          exact ⟨_, rfl⟩

theorem isCheck_tokenBudget (h : tokenBudgetViolation request entry = .ok found) :
    IsCheck "token_budget" (entry.OutputExceeded request) found := by
  unfold tokenBudgetViolation at h
  unfold AttributionIndexEntry.OutputExceeded
  cases hbudget : entry.tokenBudgetOutput with
  | none =>
    rw [hbudget] at h
    cases h
    refine .inr ⟨?_, rfl⟩
    rintro ⟨budget, h, -⟩
    cases h
  | some budget =>
    rw [hbudget] at h
    dsimp only at h
    by_cases hzero : budget = 0
    · -- a budget of 0 is false, and is not checked
      rw [if_pos hzero] at h
      cases h
      refine .inr ⟨?_, rfl⟩
      rintro ⟨budget', h, hne, -⟩
      obtain rfl := Option.some.inj h
      exact hne hzero
    · rw [if_neg hzero] at h
      obtain ⟨exceeds, hexceeds, h⟩ := Except.bind_eq_ok h
      cases exceeds with
      | false =>
        cases h
        refine .inr ⟨?_, rfl⟩
        rintro ⟨budget', h, -, hover⟩
        obtain rfl := Option.some.inj h
        rw [hexceeds] at hover
        cases hover
      | true =>
        obtain ⟨text, -, h⟩ := Except.bind_eq_ok h
        cases h
        exact .inl ⟨_, _, ⟨budget, rfl, hzero, hexceeds⟩, rfl⟩

theorem inputTokens_returns_iff :
    (∃ found, inputTokenViolation request entry = .ok found) ↔ entry.InputComparable request := by
  unfold inputTokenViolation AttributionIndexEntry.InputComparable
  cases entry.tokenBudgetInput with
  | none =>
    refine ⟨fun _ budget h => ?_, fun _ => ⟨_, rfl⟩⟩
    cases h
  | some budget =>
    dsimp only
    by_cases hover : budget ≠ 0 ∧ budget < request.inputTokens
    · rw [if_pos hover]
      constructor
      · rintro ⟨found, h⟩ budget' hbudget - -
        obtain rfl := Option.some.inj hbudget
        obtain ⟨tokens, htokens, h⟩ := Except.bind_eq_ok h
        obtain ⟨limit, hlimit, -⟩ := Except.bind_eq_ok h
        exact ⟨printable_of_intStr htokens, printable_of_intStr hlimit⟩
      · intro h
        obtain ⟨htokens, hbudget⟩ := h budget rfl hover.1 hover.2
        rw [intStr_of_printable htokens, intStr_of_printable hbudget]
        exact ⟨_, rfl⟩
    · rw [if_neg hover]
      refine ⟨fun _ budget' h hne hlt => ?_, fun _ => ⟨_, rfl⟩⟩
      obtain rfl := Option.some.inj h
      exact absurd ⟨hne, hlt⟩ hover

theorem isCheck_inputTokens (h : inputTokenViolation request entry = .ok found) :
    IsCheck "token_budget_input" (entry.InputExceeded request) found := by
  unfold inputTokenViolation at h
  unfold AttributionIndexEntry.InputExceeded
  cases hbudget : entry.tokenBudgetInput with
  | none =>
    rw [hbudget] at h
    cases h
    refine .inr ⟨?_, rfl⟩
    rintro ⟨budget, h, -⟩
    cases h
  | some budget =>
    rw [hbudget] at h
    dsimp only at h
    by_cases hover : budget ≠ 0 ∧ budget < request.inputTokens
    · rw [if_pos hover] at h
      obtain ⟨tokens, -, h⟩ := Except.bind_eq_ok h
      obtain ⟨limit, -, h⟩ := Except.bind_eq_ok h
      cases h
      exact .inl ⟨_, _, ⟨budget, rfl, hover⟩, rfl⟩
    · rw [if_neg hover] at h
      cases h
      refine .inr ⟨?_, rfl⟩
      rintro ⟨budget', h, hexceeded⟩
      obtain rfl := Option.some.inj h
      exact hover hexceeded

/-! ### The evaluation -/

/-- An evaluation returns exactly when both token checks do. -/
theorem evaluates_iff : (∃ violations, evaluatePolicies request entry = .ok violations) ↔
    entry.OutputComparable request ∧ entry.InputComparable request := by
  rw [← tokenBudget_returns_iff, ← inputTokens_returns_iff]
  unfold evaluatePolicies
  constructor
  · rintro ⟨violations, h⟩
    obtain ⟨output, houtput, h⟩ := Except.bind_eq_ok h
    obtain ⟨input, hinput, -⟩ := Except.bind_eq_ok h
    exact ⟨⟨output, houtput⟩, ⟨input, hinput⟩⟩
  · rintro ⟨⟨output, houtput⟩, ⟨input, hinput⟩⟩
    rw [houtput, hinput]
    exact ⟨_, rfl⟩

theorem reports_append {xs ys : List PolicyEvaluationResult} :
    Reports (xs ++ ys) policyId ↔ Reports xs policyId ∨ Reports ys policyId := by
  unfold Reports
  simp only [List.mem_append, or_and_right, exists_or]

/-- The violated policies are those whose conditions hold. -/
theorem reports_iff (h : evaluatePolicies request entry = .ok violations) :
    Reports violations policyId ↔ entry.Violates request policyId := by
  unfold evaluatePolicies at h
  obtain ⟨output, houtput, h⟩ := Except.bind_eq_ok h
  obtain ⟨input, hinput, h⟩ := Except.bind_eq_ok h
  cases h
  rw [reports_append, reports_append, reports_append, reports_append,
    isCheck_modelAllowlist.reports_iff, isCheck_budgetCeiling.reports_iff,
    (isCheck_tokenBudget houtput).reports_iff, (isCheck_inputTokens hinput).reports_iff,
    isCheck_costCeiling.reports_iff]
  unfold AttributionIndexEntry.Violates
  tauto

/-! Each id names one condition. -/

theorem violates_modelAllowlist :
    entry.Violates request "model_allowlist" ↔ entry.RefusesModel request.model := by
  simp [AttributionIndexEntry.Violates]

theorem violates_budgetCeiling :
    entry.Violates request "budget_ceiling" ↔ entry.BudgetSpent := by
  simp [AttributionIndexEntry.Violates]

theorem violates_tokenBudget :
    entry.Violates request "token_budget" ↔ entry.OutputExceeded request := by
  simp [AttributionIndexEntry.Violates]

theorem violates_tokenBudgetInput :
    entry.Violates request "token_budget_input" ↔ entry.InputExceeded request := by
  simp [AttributionIndexEntry.Violates]

end ComputeIntelligence
