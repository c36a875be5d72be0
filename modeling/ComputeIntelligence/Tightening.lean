import ComputeIntelligence.Materializer
import ComputeIntelligence.PolicyChecks
import ComputeIntelligence.PolicyEngine

/-! # Tightening a constraint

`Stricter` compares two index entries bound by bound.  Every check but two is monotone: what
violates a bound violates a lower one.  The two token checks take a budget of 0 for no budget, so
a budget lowered to 0 lifts a violation; and the budget ceiling divides, which is undefined when
both numbers are infinite.  `keepsViolations_iff` says that nothing else lifts a violation, but a
stricter entry that cannot be evaluated.
-/
namespace ComputeIntelligence

/-- `x <= y`, or the same value. -/
def AtMostFloat (x y : PyFloat) : Prop := x = y ∨ y.gtFloat x = true

/-- A bound that is the same, or lowered or set to a value that is not negative. -/
def IsLowered {α : Type} (le : α → α → Prop) (nonneg : α → Prop) (old new : Option α) : Prop :=
  new = old ∨ ∃ bound, new = some bound ∧ nonneg bound ∧ ∀ b, old = some b → le bound b

/-- The second entry is stricter in some of its bounds, and otherwise constrains alike. -/
structure Stricter (entry entry' : AttributionIndexEntry) : Prop where
  output : IsLowered (· ≤ ·) (0 ≤ ·) entry.tokenBudgetOutput entry'.tokenBudgetOutput
  input : IsLowered (· ≤ ·) (0 ≤ ·) entry.tokenBudgetInput entry'.tokenBudgetInput
  cost : IsLowered AtMostFloat (fun cap => cap.ge 0 = true) entry.costCeilingPerRequestUsd
    entry'.costCeilingPerRequestUsd
  allowlist : entry'.modelAllowlist = entry.modelAllowlist ∨
    (entry'.modelAllowlist ≠ [] ∧ entry'.modelAllowlist ⊆ entry.modelAllowlist)
  limit : entry'.budgetLimitUsd = entry.budgetLimitUsd
  remaining : entry'.budgetRemainingUsd = entry.budgetRemainingUsd ∨
    ∃ x x', entry.budgetRemainingUsd = some x ∧ entry'.budgetRemainingUsd = some x' ∧
      AtMostFloat x' x

/-- The policies reported for the first entry are reported for the second. -/
def KeepsViolations (request : InterceptionRequest) (entry entry' : AttributionIndexEntry) : Prop :=
  ∀ violations policyId, evaluatePolicies request entry = .ok violations →
    Reports violations policyId →
    ∃ violations', evaluatePolicies request entry' = .ok violations' ∧
      Reports violations' policyId

/-- The second entry can be evaluated, and its bounds still bound where those of the first do. -/
structure StillBounds (request : InterceptionRequest) (entry entry' : AttributionIndexEntry) :
    Prop where
  comparable : entry'.OutputComparable request ∧ entry'.InputComparable request
  output : entry.OutputExceeded request → entry'.tokenBudgetOutput ≠ some 0
  input : entry.InputExceeded request → entry'.tokenBudgetInput ≠ some 0
  budget : entry.BudgetSpent →
    ¬ (entry.budgetLimitUsd = some .posInf ∧ entry'.budgetRemainingUsd = some .negInf)

/-- No violation of the first entry is lifted by the second. -/
def LiftsNothing (request : InterceptionRequest) (entry entry' : AttributionIndexEntry) : Prop :=
  entry.OutputComparable request ∧ entry.InputComparable request →
    (∃ policyId, entry.Violates request policyId) → StillBounds request entry entry'

/-- The entry with the token budgets that the policies give its team. -/
def AttributionIndexEntry.withTokenBudgets (entry : AttributionIndexEntry)
    (budgets : TokenBudgets) : AttributionIndexEntry :=
  IndexMaterializer.applyPolicyContext entry
    { tokenBudgetOutput := some budgets.tokenBudgetOutput,
      tokenBudgetInput := some budgets.tokenBudgetInput }

variable {request : InterceptionRequest} {entry entry' : AttributionIndexEntry} {policyId : String}

/-! ### Each check -/

theorem gtInt_of_le {v : PyVal} {n m : Int} (hle : m ≤ n) (h : v.gtInt n = .ok true) :
    v.gtInt m = .ok true := by
  have hcast : (m : ℚ) ≤ n := Int.cast_le.2 hle
  cases v with
  | bool b =>
    have hlt := of_decide_eq_true (Except.ok.inj h)
    exact congrArg Except.ok (decide_eq_true (lt_of_le_of_lt hle hlt))
  | int i =>
    have hlt := of_decide_eq_true (Except.ok.inj h)
    exact congrArg Except.ok (decide_eq_true (lt_of_le_of_lt hle hlt))
  | float x =>
    cases x with
    | finite q =>
      obtain ⟨hge, hne⟩ := (Bool.and_eq_true _ _).mp (Except.ok.inj h)
      have hnq : (n : ℚ) ≤ q := of_decide_eq_true hge
      have hqn : q ≠ n := fun heq => of_decide_eq_true hne (by rw [heq])
      have hmq : (m : ℚ) < q := lt_of_le_of_lt hcast (lt_of_le_of_ne hnq (Ne.symm hqn))
      refine congrArg Except.ok ((Bool.and_eq_true _ _).mpr ⟨decide_eq_true hmq.le, ?_⟩)
      exact decide_eq_true fun heq => hmq.ne' (PyFloat.finite.inj heq)
    | posInf => rfl
    | negInf => cases h
    | nan => cases h
  | none | str _ | datetime _ | list _ | dict _ | object _ => cases h

theorem gtFloat_of_atMost {x cap cap' : PyFloat} (hle : AtMostFloat cap' cap)
    (h : x.gtFloat cap = true) : x.gtFloat cap' = true := by
  rcases hle with rfl | hlt
  · exact h
  · cases cap' with
    | finite q' =>
      cases cap with
      | finite q =>
        cases x with
        | finite p =>
          have hq : q' < q := of_decide_eq_true hlt
          have hp : q < p := of_decide_eq_true h
          exact decide_eq_true (hq.trans hp)
        | posInf => rfl
        | negInf => cases h
        | nan => cases h
      | posInf => cases h
      | negInf => cases hlt
      | nan => cases h
    | posInf => cases hlt
    | negInf =>
      cases x with
      | finite p => rfl
      | posInf => rfl
      | negInf => cases cap <;> cases h
      | nan => cases cap <;> cases h
    | nan => cases hlt

/-- A smaller remainder of a limit uses more of it. -/
theorem utilization_of_atMost {x x' limit : PyFloat} (hle : AtMostFloat x' x)
    (hlimit : limit.gt 0 = true) (hfinite : ¬ (limit = .posInf ∧ x' = .negInf))
    (h : ((x.div limit).subFrom 1).gt (9 / 10) = true) :
    ((x'.div limit).subFrom 1).gt (9 / 10) = true := by
  rcases hle with rfl | hlt
  · exact h
  · cases limit with
    | finite l =>
      have hl : 0 < l := of_decide_eq_true hlimit
      cases x' with
      | finite q' =>
        cases x with
        | finite q =>
          have hq : q' < q := of_decide_eq_true hlt
          have hover : 9 / 10 < 1 - q / l := of_decide_eq_true h
          have hdiv : q' / l < q / l := div_lt_div_of_pos_right hq hl
          exact decide_eq_true (hover.trans (sub_lt_sub_left hdiv 1))
        | posInf =>
          have hdiv : PyFloat.posInf.div (.finite l) = .posInf := if_neg (not_lt.2 hl.le)
          rw [hdiv] at h
          cases h
        | negInf => cases hlt
        | nan => cases h
      | posInf => cases hlt
      | negInf =>
        have hdiv : PyFloat.negInf.div (.finite l) = .negInf := if_neg (not_lt.2 hl.le)
        rw [hdiv]
        rfl
      | nan => cases hlt
    | posInf =>
      cases x' with
      | finite q' =>
        cases x with
        | finite q => exact h
        | posInf | negInf | nan => cases h
      | posInf => cases hlt
      | negInf => exact absurd ⟨rfl, rfl⟩ hfinite
      | nan => cases hlt
    | negInf => cases hlimit
    | nan => cases hlimit

theorem Stricter.refusesModel (h : Stricter entry entry') {model : String}
    (hrefused : entry.RefusesModel model) : entry'.RefusesModel model := by
  rcases h.allowlist with heq | ⟨hne, hsubset⟩
  · unfold AttributionIndexEntry.RefusesModel
    rw [heq]
    exact hrefused
  · exact ⟨hne, fun hmem => hrefused.2 (hsubset hmem)⟩

theorem Stricter.budgetSpent (h : Stricter entry entry') (hspent : entry.BudgetSpent)
    (hfinite : ¬ (entry.budgetLimitUsd = some .posInf ∧
      entry'.budgetRemainingUsd = some .negInf)) : entry'.BudgetSpent := by
  obtain ⟨x, limit, hx, hlimit, hpos, hover⟩ := hspent
  rcases h.remaining with heq | ⟨y, x', hy, hx', hle⟩
  · exact ⟨x, limit, heq.trans hx, h.limit.trans hlimit, hpos, hover⟩
  · obtain rfl : x = y := Option.some.inj (hx.symm.trans hy)
    refine ⟨x', limit, hx', h.limit.trans hlimit, hpos, utilization_of_atMost hle hpos ?_ hover⟩
    rintro ⟨rfl, rfl⟩
    exact hfinite ⟨hlimit, hx'⟩

theorem Stricter.outputExceeded (h : Stricter entry entry')
    (hover : entry.OutputExceeded request) (hzero : entry'.tokenBudgetOutput ≠ some 0) :
    entry'.OutputExceeded request := by
  obtain ⟨budget, hbudget, hne, hgt⟩ := hover
  rcases h.output with heq | ⟨bound, hbound, -, hle⟩
  · exact ⟨budget, heq.trans hbudget, hne, hgt⟩
  · refine ⟨bound, hbound, ?_, gtInt_of_le (hle budget hbudget) hgt⟩
    rintro rfl
    exact hzero hbound

theorem Stricter.inputExceeded (h : Stricter entry entry')
    (hover : entry.InputExceeded request) (hzero : entry'.tokenBudgetInput ≠ some 0) :
    entry'.InputExceeded request := by
  obtain ⟨budget, hbudget, hne, hgt⟩ := hover
  rcases h.input with heq | ⟨bound, hbound, -, hle⟩
  · exact ⟨budget, heq.trans hbudget, hne, hgt⟩
  · refine ⟨bound, hbound, ?_, lt_of_le_of_lt (hle budget hbudget) hgt⟩
    rintro rfl
    exact hzero hbound

theorem Stricter.costExceeded (h : Stricter entry entry') (hover : entry.CostExceeded request) :
    entry'.CostExceeded request := by
  obtain ⟨cap, hcap, hgt⟩ := hover
  rcases h.cost with heq | ⟨bound, hbound, -, hle⟩
  · exact ⟨cap, heq.trans hcap, hgt⟩
  · exact ⟨bound, hbound, gtFloat_of_atMost (hle cap hcap) hgt⟩

/-- What violates a bound violates a stricter one that still bounds. -/
theorem Stricter.violates (h : Stricter entry entry') (hbounds : StillBounds request entry entry')
    (hviolates : entry.Violates request policyId) : entry'.Violates request policyId := by
  rcases hviolates with ⟨hid, hc⟩ | ⟨hid, hc⟩ | ⟨hid, hc⟩ | ⟨hid, hc⟩ | ⟨hid, hc⟩
  · exact .inl ⟨hid, h.refusesModel hc⟩
  · exact .inr (.inl ⟨hid, h.budgetSpent hc (hbounds.budget hc)⟩)
  · exact .inr (.inr (.inl ⟨hid, h.outputExceeded hc (hbounds.output hc)⟩))
  · exact .inr (.inr (.inr (.inl ⟨hid, h.inputExceeded hc (hbounds.input hc)⟩)))
  · exact .inr (.inr (.inr (.inr ⟨hid, h.costExceeded hc⟩)))

/-! ### What is kept -/

/-- A stricter entry keeps every violation exactly when its bounds still bound. -/
theorem Stricter.keepsViolations_iff (h : Stricter entry entry') :
    KeepsViolations request entry entry' ↔ LiftsNothing request entry entry' := by
  constructor
  · rintro hkeeps hcomparable ⟨policyId, hviolates⟩
    obtain ⟨violations, hviol⟩ := evaluates_iff.2 hcomparable
    -- what the first entry violates, the second does
    have hkept : ∀ id, entry.Violates request id →
        (∃ violations', evaluatePolicies request entry' = .ok violations') ∧
          entry'.Violates request id := by
      intro id hid
      obtain ⟨violations', hviol', hreports⟩ :=
        hkeeps violations id hviol ((reports_iff hviol).2 hid)
      exact ⟨⟨violations', hviol'⟩, (reports_iff hviol').1 hreports⟩
    refine ⟨evaluates_iff.1 (hkept policyId hviolates).1, ?_, ?_, ?_⟩
    · -- a budget of 0 counts as none, so it violates nothing
      intro hover hzero
      obtain ⟨budget, hbudget, hne, -⟩ :=
        violates_tokenBudget.1 (hkept _ (violates_tokenBudget.2 hover)).2
      exact hne (Option.some.inj (hbudget.symm.trans hzero))
    · intro hover hzero
      obtain ⟨budget, hbudget, hne, -⟩ :=
        violates_tokenBudgetInput.1 (hkept _ (violates_tokenBudgetInput.2 hover)).2
      exact hne (Option.some.inj (hbudget.symm.trans hzero))
    · -- with `inf` as the limit and `-inf` as the rest, the utilization is not a number
      rintro hspent ⟨hlimit, hremaining⟩
      obtain ⟨x, limit, hx, hlimit', -, hover⟩ :=
        violates_budgetCeiling.1 (hkept _ (violates_budgetCeiling.2 hspent)).2
      obtain rfl := Option.some.inj (hx.symm.trans hremaining)
      obtain rfl := Option.some.inj (hlimit'.symm.trans (h.limit.trans hlimit))
      cases hover
  · intro hbounds violations policyId hviol hreports
    have hviolates := (reports_iff hviol).1 hreports
    have hstill := hbounds (evaluates_iff.1 ⟨violations, hviol⟩) ⟨policyId, hviolates⟩
    obtain ⟨violations', hviol'⟩ := evaluates_iff.2 hstill.comparable
    exact ⟨violations', hviol', (reports_iff hviol').2 (h.violates hstill hviolates)⟩

/-- A request for 500 output tokens. -/
def largeRequest : InterceptionRequest :=
  { requestId := "r", model := "m", workloadId := "svc",
    metadata := PyDict.ofList [("max_tokens", .int 500)] }

/-- An entry with a budget of 100 output tokens. -/
def smallBudget : AttributionIndexEntry where
  workloadId := "svc"
  teamId := "team"
  teamName := "Team"
  costCenterId := "cc"
  confidence := fullScore
  confidenceTier := "chargeback_ready"
  methodUsed := "R1"
  materializedAt := 0
  tokenBudgetOutput := some 100

/-- A global policy of `bound` output tokens, and no other. -/
def tokenPolicy (bound : Int) : PolicyEngine :=
  PolicyEngine.registerPolicy {}
    { policyId := "tokens", policyType := .tokenBudget, scope := "global",
      parameters := PyDict.ofList [("max_output_tokens", .int bound)] }

theorem getTokenBudgets_tokenPolicy (bound : Int) :
    (tokenPolicy bound).getTokenBudgets "team" = .ok (some ⟨some bound, none⟩) := by
  rfl

/-- The entry under that policy. -/
theorem stricter_tokenPolicy {bound : Int} (h0 : 0 ≤ bound) (h : bound ≤ 100) :
    Stricter smallBudget (smallBudget.withTokenBudgets ⟨some bound, none⟩) where
  output := .inr ⟨bound, rfl, h0, fun _ hb => Option.some.inj hb ▸ h⟩
  input := .inl rfl
  cost := .inl rfl
  allowlist := .inl rfl
  limit := rfl
  remaining := .inl rfl

theorem evaluate_smallBudget : evaluatePolicies largeRequest smallBudget = .ok
    [softStop "token_budget" "Token Budget Per Request" "Requested tokens exceed budget of 100"] := by
  decide +kernel

theorem reports_smallBudget : Reports
    [softStop "token_budget" "Token Budget Per Request" "Requested tokens exceed budget of 100"]
    "token_budget" :=
  ⟨_, List.mem_singleton_self _, rfl, rfl⟩

/-- A budget lowered to a positive value still bounds. -/
theorem liftsNothing_tokenPolicy {bound : Int} (h0 : 0 < bound) (h : bound ≤ 100) :
    LiftsNothing largeRequest smallBudget (smallBudget.withTokenBudgets ⟨some bound, none⟩) := by
  intro _ _
  have hpow : ∀ n, 3 ≤ n → 10 ^ 3 ≤ 10 ^ n := fun n hn => Nat.pow_le_pow_right (by decide) hn
  refine ⟨⟨?_, ?_⟩, fun _ hzero => ?_, ?_, ?_⟩
  · intro budget hbudget _
    obtain rfl : bound = budget := Option.some.inj hbudget
    refine ⟨decide (bound < 500), rfl, fun _ => lt_of_lt_of_le ?_ (hpow 4300 (by decide))⟩
    omega
  · intro budget hbudget
    cases hbudget
  · have hbound : bound = 0 := Option.some.inj hzero
    omega
  · rintro ⟨budget, hbudget, -⟩
    cases hbudget
  · rintro ⟨remaining, limit, hremaining, -⟩
    cases hremaining

end ComputeIntelligence
