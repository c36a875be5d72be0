import ComputeIntelligence.ExceptRules
import ComputeIntelligence.GuardedRuns
import ComputeIntelligence.PolicyChecks
import ComputeIntelligence.PolicyEngine

/-! # Evaluating policies on request

`evaluate_all` of the policy engine (`policy/engine.py`) and the endpoint `/v1/policy/evaluate`
(`api/app.py`) that answers with what it finds.

The registry is a table of policies under their own ids, and over every sequence of registrations
and removals it holds the last of each (`get?_after`).  The endpoint reports exactly the enabled
policies that are violated, once each, of whatever scope.  An enabled policy whose parameters cannot
be compared takes all of the answer with it: the request passes, and nothing is reported
(`evaluations_reported`).
-/

/-! ### Numbers against any value -/

namespace PyText

/-- Digits, the last one first, with a comma after every third that another one follows. -/
def commas : List Char → List Char
  | a :: b :: c :: d :: rest => a :: b :: c :: ',' :: commas (d :: rest)
  | digits => digits

end PyText

namespace PyFloat

/-- `x > v`. -/
def gtVal (x : PyFloat) : PyVal → Except PyExn Bool
  | .bool b => .ok (x.gt (if b then 1 else 0))
  | .int i => .ok (x.gt i)
  | .float y => .ok (x.gtFloat y)
  | _ => .error .typeError

/-- `x < v`. -/
def ltVal (x : PyFloat) : PyVal → Except PyExn Bool
  | .bool b => .ok (x.lt (if b then 1 else 0))
  | .int i => .ok (x.lt i)
  | .float y => .ok (y.gtFloat x)
  | _ => .error .typeError

/-- `format(x, ",.0f")`. -/
def formatGrouped : PyFloat → String
  | .finite q =>
      let digits := (toString (roundHalfEven |q|)).toList
      (if q < 0 then "-" else "") ++ String.ofList (PyText.commas digits.reverse).reverse
  | .posInf => "inf"
  | .negInf => "-inf"
  | .nan => "nan"

end PyFloat

namespace PyVal

/-- `format` of a value that has been compared with a number: a number, as a float. -/
def formatNumber (text : PyFloat → String) (v : PyVal) : Except PyExn String :=
  if v.isNum then v.toFloat.map text else .error .typeError

/-- `text in v`. -/
def containsText (text : String) : PyVal → Except PyExn Bool
  | .str s => .ok (PyText.contains text s)
  | .list xs => .ok (xs.any fun
      | .str s => s = text
      | _ => false)
  | .dict kvs => .ok (kvs.any fun kv => kv.1 = text)
  | _ => .error .typeError

end PyVal

namespace ComputeIntelligence

/-- A policy with what an evaluation reads beside the rest of the definition. -/
structure GovernancePolicy extends PolicyDefinition where
  name : String
  enforcement : EnforcementAction := .softStop

/-- What `policy_evaluate` hands to the checks. -/
structure EvaluationContext where
  model : String
  confidence : PyFloat
  currentSpendUsd : PyFloat
  dailyCostUsd : PyFloat
  hasCicdLinkage : Bool

namespace GovernancePolicy
variable (policy : GovernancePolicy) (context : EvaluationContext)

def limitUsd : PyVal := policy.parameters.getD "limit_usd" (.int 0)

def allowed : PyVal := policy.parameters.getD "allowed_models" (.list [])

def minConfidence : PyVal :=
  policy.parameters.getD "min_confidence" (.float (PyFloat.ofRat (8 / 10)))

def costThreshold : PyVal := policy.parameters.getD "cost_threshold_daily_usd" (.int 500)

/-- The details of a violation, `none` where there is none.  A number of the policy is compared
before it is printed, and both may raise. -/
def violation : Except PyExn (Option String) :=
  match policy.policyType with
  | .budgetCeiling => do
      if (← context.currentSpendUsd.gtVal policy.limitUsd) then
        let limit ← policy.limitUsd.formatNumber PyFloat.formatGrouped
        .ok (some ("Spend $" ++ context.currentSpendUsd.formatGrouped ++ " exceeds limit $" ++
          limit))
      else .ok none
  | .modelAllowlist =>
      if context.model = "" then .ok none
      else do
        if (← policy.allowed.truth) then
          if (← policy.allowed.containsText context.model) then .ok none
          else .ok (some ("Model " ++ context.model ++ " not in allowlist"))
        else .ok none
  | .confidenceFloor => do
      if (← context.confidence.ltVal policy.minConfidence) then
        let floor ← policy.minConfidence.formatNumber (PyFloat.format 2)
        .ok (some ("Confidence " ++ context.confidence.format 2 ++ " below floor " ++ floor))
      else .ok none
  | .shadowDetection =>
      if context.hasCicdLinkage then .ok none
      else do
        if (← context.dailyCostUsd.gtVal policy.costThreshold) then
          .ok (some ("Unregistered service: $" ++ context.dailyCostUsd.format 0 ++
            "/day, no CI/CD linkage"))
        else .ok none
  | .tokenBudget | .costCeiling | .approvalGate => .ok none

/-- The result for what was found. -/
def result (found : Option String) : PolicyEvaluationResult :=
  { policyId := policy.policyId, policyName := policy.name
    action := if found.isSome then policy.enforcement else .allow
    violated := found.isSome, details := found.getD "" }

/-- `_evaluate_single`. -/
def evaluateSingle : Except PyExn PolicyEvaluationResult :=
  (policy.violation context).map policy.result

/-- The loop of `evaluate_all` does not pass the policy over. -/
def isEvaluated (scopeFilter : String) : Bool :=
  policy.enabled &&
    (scopeFilter = "global" || policy.scope = scopeFilter || policy.scope = "global")

end GovernancePolicy

/-- The registry of the policy engine: every policy is under its own id. -/
structure PolicyRegistry where
  policies : PyDict String GovernancePolicy
  keyed : ∀ p ∈ policies.items, p.2.policyId = p.1

namespace PolicyRegistry

def empty : PolicyRegistry := ⟨PyDict.empty, fun _ h => absurd h List.not_mem_nil⟩

/-- `register_policy`. -/
def registerPolicy (r : PolicyRegistry) (policy : GovernancePolicy) : PolicyRegistry :=
  ⟨r.policies.set policy.policyId policy,
    PyDict.keyed_set (fun p : GovernancePolicy => p.policyId) r.keyed policy⟩

/-- `remove_policy`. -/
def removePolicy (r : PolicyRegistry) (policyId : String) : PolicyRegistry × Bool :=
  (⟨r.policies.erase policyId, PyDict.keyed_erase (fun p : GovernancePolicy => p.policyId) r.keyed
    policyId⟩, r.policies.contains policyId)

/-- `evaluate_all`. -/
def evaluateAll (r : PolicyRegistry) (context : EvaluationContext)
    (scopeFilter : String := "global") : Except PyExn (List PolicyEvaluationResult) :=
  ((r.policies.items.map Prod.snd).filter (·.isEvaluated scopeFilter)).mapM
    (·.evaluateSingle context)

end PolicyRegistry

/-! ### The endpoint -/

/-- `PolicyEvaluateRequest`, with its signals and its service policy. -/
structure PolicyEvaluateRequest where
  modelRequested : String
  attribution : PyDict String PyVal := PyDict.empty
  estCostUsd : PyFloat := .finite 0
  mode : String := "ADVISORY"
  activeLiteEnabled : Bool := false

/-- `PolicyAdvisoryResponse`. -/
structure PolicyAdvisory where
  code : String
  detail : String

/-- `PolicyActionResponse`. -/
structure PolicyAction where
  type : String
  confidence : PyFloat
  delta : String

inductive PolicyDecision where
  | passThrough | advisory | apply
deriving DecidableEq

/-- `PolicyEvaluateResponse`. -/
structure PolicyEvaluateResponse where
  decision : PolicyDecision
  advisories : List PolicyAdvisory
  actions : List PolicyAction
  failOpen : Bool

namespace PolicyEvaluateRequest
variable (req : PolicyEvaluateRequest)

/-- The context of a request: its cost estimate stands for both amounts. -/
def context : Except PyExn EvaluationContext := do
  let confidence ← (req.attribution.getD "confidence" (.float (.finite 1))).toFloat
  let hasCicdLinkage ← (req.attribution.getD "has_cicd_linkage" (.bool true)).truth
  .ok { model := req.modelRequested, confidence, currentSpendUsd := req.estCostUsd
        dailyCostUsd := req.estCostUsd, hasCicdLinkage }

/-- Whether violations are acted on.  Upper-casing is Unicode's, an argument. -/
def actsOnViolations (upper : String → String) : Bool :=
  upper (PyText.strip req.mode) = "ACTIVE_LITE" && req.activeLiteEnabled

/-- The advisories for what was evaluated. -/
def advisories (results : List PolicyEvaluationResult) : List PolicyAdvisory :=
  (results.filter (·.violated)).map fun result => ⟨result.policyId, result.details⟩

/-- The action for an advisory. -/
def actionOf (upper : String → String) (a : PolicyAdvisory) : Except PyExn PolicyAction := do
  let confidence ← (req.attribution.getD "confidence" (.float (.finite 0))).toFloat
  .ok ⟨upper a.code, confidence, PyText.take 256 a.detail⟩

/-- The response to what was evaluated. -/
def respond (upper : String → String) (results : List PolicyEvaluationResult) :
    Except PyExn PolicyEvaluateResponse := do
  let advisories := advisories results
  let actions ← if req.actsOnViolations upper then advisories.mapM (req.actionOf upper) else .ok []
  let decision : PolicyDecision :=
    if actions ≠ [] then .apply else if advisories ≠ [] then .advisory else .passThrough
  .ok { decision, advisories, actions, failOpen := false }

/-- The response when anything raised before. -/
def failedOpen : PolicyEvaluateResponse := ⟨.passThrough, [], [], true⟩

/-- `policy_evaluate`. -/
def policyEvaluate (upper : String → String) (r : PolicyRegistry) :
    Except PyExn PolicyEvaluateResponse :=
  match (do r.evaluateAll (← req.context)) with
  | .error _ => .ok failedOpen
  | .ok results => req.respond upper results

end PolicyEvaluateRequest

/-! ### What one policy comes to -/

namespace GovernancePolicy
variable {policy : GovernancePolicy} {context : EvaluationContext}

/-- The condition of a policy is met. -/
def Violates (policy : GovernancePolicy) (context : EvaluationContext) : Prop :=
  match policy.policyType with
  | .budgetCeiling => context.currentSpendUsd.gtVal policy.limitUsd = .ok true
  | .modelAllowlist => context.model ≠ "" ∧ policy.allowed.truth = .ok true ∧
      policy.allowed.containsText context.model = .ok false
  | .confidenceFloor => context.confidence.ltVal policy.minConfidence = .ok true
  | .shadowDetection => context.hasCicdLinkage = false ∧
      context.dailyCostUsd.gtVal policy.costThreshold = .ok true
  | .tokenBudget | .costCeiling | .approvalGate => False

/-- A number that a float can hold. -/
def IsFloat (v : PyVal) : Prop := v.isNum = true ∧ ∃ x, v.toFloat = .ok x

/-- The parameters can be compared with the context and, where they are to be shown, printed. -/
def Comparable (policy : GovernancePolicy) (context : EvaluationContext) : Prop :=
  match policy.policyType with
  | .budgetCeiling => ∃ above, context.currentSpendUsd.gtVal policy.limitUsd = .ok above ∧
      (above = true → IsFloat policy.limitUsd)
  | .modelAllowlist => context.model ≠ "" → ∃ any, policy.allowed.truth = .ok any ∧
      (any = true → ∃ listed, policy.allowed.containsText context.model = .ok listed)
  | .confidenceFloor => ∃ below, context.confidence.ltVal policy.minConfidence = .ok below ∧
      (below = true → IsFloat policy.minConfidence)
  | .shadowDetection => context.hasCicdLinkage = false →
      ∃ above, context.dailyCostUsd.gtVal policy.costThreshold = .ok above
  | .tokenBudget | .costCeiling | .approvalGate => True

/-- An evaluation returns when it is ready to, and then says whether the condition is met. -/
def Decides (ready met : Prop) (found : Except PyExn (Option String)) : Prop :=
  (ready ∧ ∃ r, found = .ok r ∧ (r.isSome = true ↔ met)) ∨ (¬ ready ∧ ∃ e, found = .error e)

theorem formatNumber_of_isFloat (text : PyFloat → String) {v : PyVal} (h : IsFloat v) :
    ∃ s, v.formatNumber text = .ok s := by
  obtain ⟨hnum, x, hx⟩ := h
  rw [PyVal.formatNumber, if_pos hnum, hx]
  exact ⟨text x, rfl⟩

theorem formatNumber_of_not_isFloat (text : PyFloat → String) {v : PyVal} (h : ¬ IsFloat v) :
    ∃ e, v.formatNumber text = .error e := by
  rw [PyVal.formatNumber]
  split
  · next hnum =>
    cases hx : v.toFloat with
    | error e => exact ⟨e, rfl⟩
    | ok x => exact absurd ⟨hnum, x, hx⟩ h
  · exact ⟨_, rfl⟩

/-- A comparison whose details show a number of the policy. -/
theorem decides_shown (above : Except PyExn Bool) (v : PyVal) (text : PyFloat → String)
    (details : String → String) :
    Decides (∃ b, above = .ok b ∧ (b = true → IsFloat v)) (above = .ok true) (do
      if (← above) then
        let shown ← v.formatNumber text
        .ok (some (details shown))
      else .ok none) := by
  cases above with
  | error e =>
    refine .inr ⟨?_, e, rfl⟩
    rintro ⟨b, h, -⟩
    cases h
  | ok b =>
    cases b with
    | false =>
      refine .inl ⟨⟨false, rfl, fun h => absurd h Bool.false_ne_true⟩, none, rfl, ?_⟩
      exact iff_of_false Bool.false_ne_true (fun h => Bool.false_ne_true (Except.ok.inj h))
    | true =>
      by_cases hfloat : IsFloat v
      · obtain ⟨shown, hshown⟩ := formatNumber_of_isFloat text hfloat
        refine .inl ⟨⟨true, rfl, fun _ => hfloat⟩, some (details shown), ?_, iff_of_true rfl rfl⟩
        change (v.formatNumber text >>= fun shown => _) = _
        rw [hshown]
        rfl
      · obtain ⟨e, he⟩ := formatNumber_of_not_isFloat text hfloat
        refine .inr ⟨?_, e, ?_⟩
        · rintro ⟨b, hb, hready⟩
          exact hfloat (hready (Except.ok.inj hb).symm)
        · change (v.formatNumber text >>= fun shown => _) = _
          rw [he]
          rfl

/-- A comparison whose details show nothing of the policy. -/
theorem decides_compared (above : Except PyExn Bool) (details : String) :
    Decides (∃ b, above = .ok b) (above = .ok true)
      (do if (← above) then .ok (some details) else .ok none) := by
  cases above with
  | error e =>
    refine .inr ⟨?_, e, rfl⟩
    rintro ⟨b, h⟩
    cases h
  | ok b =>
    refine .inl ⟨⟨b, rfl⟩, ?_⟩
    cases b with
    | false =>
      exact ⟨none, rfl, iff_of_false Bool.false_ne_true fun h =>
        Bool.false_ne_true (Except.ok.inj h)⟩
    | true => exact ⟨some details, rfl, iff_of_true rfl rfl⟩

/-- A condition that is not looked into. -/
theorem decides_none {ready met : Prop} (hready : ready) (hmet : ¬ met) :
    Decides ready met (.ok none) :=
  .inl ⟨hready, none, rfl, iff_of_false Bool.false_ne_true hmet⟩

theorem Decides.congr {ready ready' met met' : Prop} {found : Except PyExn (Option String)}
    (h : Decides ready met found) (hready : ready ↔ ready') (hmet : met ↔ met') :
    Decides ready' met' found := by
  rwa [← hready, ← hmet]

/-- The walk through an allowlist. -/
theorem decides_allowlist (any listed : Except PyExn Bool) (details : String) :
    Decides (∃ b, any = .ok b ∧ (b = true → ∃ d, listed = .ok d))
      (any = .ok true ∧ listed = .ok false) (do
        if (← any) then
          if (← listed) then .ok none else .ok (some details)
        else .ok none) := by
  cases any with
  | error e =>
    refine .inr ⟨?_, e, rfl⟩
    rintro ⟨b, h, -⟩
    cases h
  | ok b =>
    cases b with
    | false =>
      refine decides_none ⟨false, rfl, fun h => absurd h Bool.false_ne_true⟩ ?_
      exact fun h => Bool.false_ne_true (Except.ok.inj h.1)
    | true =>
      cases listed with
      | error e =>
        refine .inr ⟨?_, e, rfl⟩
        rintro ⟨b, hb, hready⟩
        obtain ⟨d, hd⟩ := hready (Except.ok.inj hb).symm
        cases hd
      | ok d =>
        have hready : ∃ b, (.ok true : Except PyExn Bool) = .ok b ∧
            (b = true → ∃ d', (.ok d : Except PyExn Bool) = .ok d') :=
          ⟨true, rfl, fun _ => ⟨d, rfl⟩⟩
        cases d with
        | true => exact decides_none hready fun h => by cases h.2
        | false => exact .inl ⟨hready, some details, rfl, iff_of_true rfl ⟨rfl, rfl⟩⟩

theorem decides_violation (policy : GovernancePolicy) (context : EvaluationContext) :
    Decides (policy.Comparable context) (policy.Violates context) (policy.violation context) := by
  rw [Comparable, Violates, violation]
  cases policy.policyType with
  | budgetCeiling => exact decides_shown _ _ _ _
  | modelAllowlist =>
    by_cases hmodel : context.model = ""
    · dsimp only
      rw [if_pos hmodel]
      exact decides_none (fun h => absurd hmodel h) (fun h => h.1 hmodel)
    · dsimp only
      rw [if_neg hmodel]
      refine (decides_allowlist _ _ _).congr ?_ ?_
      · exact ⟨fun h _ => h, fun h => h hmodel⟩
      · exact ⟨fun h => ⟨hmodel, h⟩, fun h => h.2⟩
  | confidenceFloor => exact decides_shown _ _ _ _
  | shadowDetection =>
    dsimp only
    cases context.hasCicdLinkage with
    | true =>
      exact decides_none (fun h => by cases h) (fun h => by cases h.1)
    | false =>
      refine (decides_compared _ _).congr ?_ ?_
      · exact ⟨fun h _ => h, fun h => h rfl⟩
      · exact ⟨fun h => ⟨rfl, h⟩, fun h => h.2⟩
  | tokenBudget => exact decides_none trivial id
  | costCeiling => exact decides_none trivial id
  | approvalGate => exact decides_none trivial id

/-- **A policy is evaluated when its parameters can be compared**, and is then reported under its
own id, as violated exactly when its condition is met. -/
theorem evaluateSingle_returns (h : policy.Comparable context) :
    ∃ r, policy.evaluateSingle context = .ok r ∧ r.policyId = policy.policyId ∧
      (r.violated = true ↔ policy.Violates context) ∧
      r.action = if r.violated then policy.enforcement else .allow := by
  rcases decides_violation policy context with ⟨-, found, hfound, hmet⟩ | ⟨hnot, -⟩
  · exact ⟨policy.result found, by rw [evaluateSingle, hfound]; rfl, rfl, hmet, rfl⟩
  · exact absurd h hnot

theorem evaluateSingle_raises (h : ¬ policy.Comparable context) :
    ∃ e, policy.evaluateSingle context = .error e := by
  rcases decides_violation policy context with ⟨hready, -⟩ | ⟨-, e, he⟩
  · exact absurd hready h
  · exact ⟨e, by rw [evaluateSingle, he]; rfl⟩

end GovernancePolicy

/-! ### The registry -/

namespace PolicyRegistry
variable {r : PolicyRegistry} {context : EvaluationContext}

/-- A call that changes the registry. -/
inductive Change where
  | registerPolicy (policy : GovernancePolicy)
  | removePolicy (policyId : String)

def change (r : PolicyRegistry) : Change → PolicyRegistry
  | .registerPolicy policy => r.registerPolicy policy
  | .removePolicy policyId => (r.removePolicy policyId).1

/-- The policy that was registered under an id, and not removed since: what the calls mean. -/
def standing : List Change → String → Option GovernancePolicy
  | [], _ => none
  | .registerPolicy policy :: earlier, id =>
      if id = policy.policyId then some policy else standing earlier id
  | .removePolicy policyId :: earlier, id => if id = policyId then none else standing earlier id

/-- The registry after some calls. -/
def after (changes : List Change) : PolicyRegistry := Run.exec change empty changes

/-- **The registry is the table of what stands**, after every sequence of calls. -/
theorem get?_after (changes : List Change) (id : String) :
    (after changes).policies.get? id = standing changes.reverse id := by
  induction changes using List.reverseRecOn with
  | nil => rfl
  | append_singleton changes c ih =>
    rw [after, Run.exec_concat, ← after, List.reverse_append, List.reverse_singleton,
      List.singleton_append]
    cases c with
    | registerPolicy policy =>
      rw [standing, ← ih]
      exact PyDict.get?_set _ _ _ _
    | removePolicy policyId =>
      rw [standing, ← ih]
      exact PyDict.get?_erase _ _ _

/-- The policies of the registry, by id. -/
theorem mem_policies_iff {policy : GovernancePolicy} :
    policy ∈ r.policies.items.map Prod.snd ↔ r.policies.get? policy.policyId = some policy := by
  rw [List.mem_map]
  constructor
  · rintro ⟨⟨id, p⟩, hmem, rfl⟩
    have hid : p.policyId = id := r.keyed _ hmem
    rw [hid]
    exact PyDict.get?_of_mem hmem
  · exact fun h => ⟨(policy.policyId, policy), PyDict.mem_of_find h, rfl⟩

theorem ids_nodup (r : PolicyRegistry) :
    ((r.policies.items.map Prod.snd).map fun p : GovernancePolicy => p.policyId).Nodup := by
  rw [List.map_map]
  have hids : r.policies.items.map ((fun p : GovernancePolicy => p.policyId) ∘ Prod.snd) =
      r.policies.items.map Prod.fst := List.map_congr_left r.keyed
  rw [hids]
  exact r.policies.nodup

/-- Without a filter every enabled policy is evaluated, of whatever scope. -/
theorem isEvaluated_global (policy : GovernancePolicy) :
    policy.isEvaluated "global" = policy.enabled := by
  rw [GovernancePolicy.isEvaluated, decide_eq_true rfl, Bool.true_or, Bool.true_or, Bool.and_true]

/-- The enabled policies can all be compared with the context. -/
def AllComparable (r : PolicyRegistry) (context : EvaluationContext) : Prop :=
  ∀ policy ∈ r.policies.items.map Prod.snd, policy.enabled = true → policy.Comparable context

/-- The results, for policies that can be compared. -/
structure Evaluated (r : PolicyRegistry) (context : EvaluationContext)
    (results : List PolicyEvaluationResult) : Prop where
  ids : (results.map PolicyEvaluationResult.policyId).Nodup
  violated : ∀ id, (∃ result ∈ results, result.policyId = id ∧ result.violated = true) ↔
    ∃ policy, r.policies.get? id = some policy ∧ policy.enabled = true ∧ policy.Violates context

/-- **All of the policies are evaluated, or none**: one that cannot be compared raises for all. -/
theorem evaluateAll_spec (r : PolicyRegistry) (context : EvaluationContext) :
    (r.AllComparable context ∧
        ∃ results, r.evaluateAll context = .ok results ∧ Evaluated r context results) ∨
      (¬ r.AllComparable context ∧ ∃ e, r.evaluateAll context = .error e) := by
  rw [evaluateAll, funext isEvaluated_global]
  by_cases hall : r.AllComparable context
  · refine .inl ⟨hall, ?_⟩
    have hreturns : ∀ policy ∈ (r.policies.items.map Prod.snd).filter (·.enabled),
        ∃ result, policy.evaluateSingle context = .ok result ∧
          result.policyId = policy.policyId := by
      intro policy hpolicy
      obtain ⟨hmem, henabled⟩ := List.mem_filter.1 hpolicy
      obtain ⟨result, hresult, hid, -⟩ :=
        GovernancePolicy.evaluateSingle_returns (hall policy hmem henabled)
      exact ⟨result, hresult, hid⟩
    obtain ⟨results, hresults, hids⟩ := Except.mapM_returns hreturns
    refine ⟨results, hresults, ?_, fun id => ⟨?_, ?_⟩⟩
    · rw [hids]
      exact r.ids_nodup.sublist (List.filter_sublist.map _)
    · rintro ⟨result, hmem, rfl, hviolated⟩
      obtain ⟨policy, hpolicy, heval⟩ := Except.mem_of_mapM hresults result hmem
      obtain ⟨hregistered, henabled⟩ := List.mem_filter.1 hpolicy
      obtain ⟨result', heval', hid, hmet, -⟩ :=
        GovernancePolicy.evaluateSingle_returns (hall policy hregistered henabled)
      obtain rfl := Except.ok.inj (heval'.symm.trans heval)
      rw [hid]
      exact ⟨policy, mem_policies_iff.1 hregistered, henabled, hmet.1 hviolated⟩
    · rintro ⟨policy, hget, henabled, hviolates⟩
      have hid : policy.policyId = id := r.keyed _ (PyDict.mem_of_find hget)
      have hregistered : policy ∈ r.policies.items.map Prod.snd :=
        mem_policies_iff.2 (by rw [hid]; exact hget)
      obtain ⟨result, hresult, heval⟩ := Except.exists_of_mapM hresults policy
        (List.mem_filter.2 ⟨hregistered, henabled⟩)
      obtain ⟨result', heval', hid', hmet, -⟩ :=
        GovernancePolicy.evaluateSingle_returns (hall policy hregistered henabled)
      obtain rfl := Except.ok.inj (heval'.symm.trans heval)
      exact ⟨result', hresult, hid'.trans hid, hmet.2 hviolates⟩
  · refine .inr ⟨hall, ?_⟩
    cases hresults : ((r.policies.items.map Prod.snd).filter (·.enabled)).mapM
        (·.evaluateSingle context) with
    | error e => exact ⟨e, rfl⟩
    | ok results =>
      refine absurd (fun policy hmem henabled => ?_) hall
      by_contra hnot
      obtain ⟨e, he⟩ := GovernancePolicy.evaluateSingle_raises hnot
      obtain ⟨result, -, heval⟩ := Except.exists_of_mapM hresults policy
        (List.mem_filter.2 ⟨hmem, henabled⟩)
      cases he.symm.trans heval

end PolicyRegistry

/-! ### The answers of the endpoint -/

namespace PolicyEvaluateRequest
variable {upper : String → String} {req : PolicyEvaluateRequest} {registry : PolicyRegistry}

/-- A request that can be evaluated has a confidence for its actions. -/
theorem confidence_returns {context : EvaluationContext} (h : req.context = .ok context) :
    ∃ x, (req.attribution.getD "confidence" (.float (.finite 0))).toFloat = .ok x := by
  obtain ⟨confidence, hconfidence, -⟩ := Except.bind_eq_ok h
  rw [PyDict.getD] at hconfidence ⊢
  cases hget : req.attribution.get? "confidence" with
  | none => exact ⟨_, rfl⟩
  | some v =>
    rw [hget] at hconfidence
    exact ⟨confidence, hconfidence⟩

/-- What the endpoint answers, given the policies that stand and the request. -/
structure Answers (upper : String → String) (standing : String → Option GovernancePolicy)
    (req : PolicyEvaluateRequest) (response : PolicyEvaluateResponse) : Prop where
  /-- The request fails open when it has no context, or some enabled policy cannot be compared. -/
  failOpen : response.failOpen = true ↔ ∀ context, req.context = .ok context →
    ∃ id policy, standing id = some policy ∧ policy.enabled = true ∧ ¬ policy.Comparable context
  /-- It passes then, and nothing is reported. -/
  silent : response.failOpen = true → response = failedOpen
  /-- Otherwise the enabled policies that are violated are reported, whatever their scope. -/
  reported : response.failOpen = false → ∀ context, req.context = .ok context → ∀ id,
    (∃ a ∈ response.advisories, a.code = id) ↔
      ∃ policy, standing id = some policy ∧ policy.enabled = true ∧ policy.Violates context
  once : (response.advisories.map PolicyAdvisory.code).Nodup
  /-- Every advisory becomes an action where the service lets it, and none does elsewhere. -/
  acted : response.actions.map PolicyAction.type =
    if req.actsOnViolations upper then response.advisories.map fun a => upper a.code else []
  decision : response.decision =
    if response.advisories = [] then .passThrough
    else if req.actsOnViolations upper then .apply else .advisory

theorem advisories_spec {context : EvaluationContext} {results : List PolicyEvaluationResult}
    (h : PolicyRegistry.Evaluated registry context results) :
    ((advisories results).map PolicyAdvisory.code).Nodup ∧
      ∀ id, (∃ a ∈ advisories results, a.code = id) ↔
        ∃ policy, registry.policies.get? id = some policy ∧ policy.enabled = true ∧
          policy.Violates context := by
  constructor
  · rw [advisories, List.map_map]
    exact h.ids.sublist (List.filter_sublist.map _)
  · intro id
    rw [← h.violated id]
    constructor
    · rintro ⟨a, ha, rfl⟩
      obtain ⟨result, hresult, rfl⟩ := List.mem_map.1 ha
      obtain ⟨hmem, hviolated⟩ := List.mem_filter.1 hresult
      exact ⟨result, hmem, rfl, hviolated⟩
    · rintro ⟨result, hmem, rfl, hviolated⟩
      exact ⟨⟨result.policyId, result.details⟩,
        List.mem_map.2 ⟨result, List.mem_filter.2 ⟨hmem, hviolated⟩, rfl⟩, rfl⟩

theorem answers_failedOpen {standing : String → Option GovernancePolicy}
    (h : ∀ context, req.context = .ok context → ∃ id policy, standing id = some policy ∧
      policy.enabled = true ∧ ¬ policy.Comparable context) :
    Answers upper standing req failedOpen where
  failOpen := iff_of_true rfl h
  silent _ := rfl
  reported h := by cases h
  once := List.nodup_nil
  acted := by split <;> rfl
  decision := rfl

/-- The response to what was evaluated. -/
theorem respond_returns (upper : String → String) {context : EvaluationContext}
    (hcontext : req.context = .ok context) (results : List PolicyEvaluationResult) :
    ∃ response, req.respond upper results = .ok response ∧ response.failOpen = false ∧
      response.advisories = advisories results ∧
      response.actions.map PolicyAction.type = (if req.actsOnViolations upper then
        response.advisories.map fun a => upper a.code else []) ∧
      response.decision = if response.advisories = [] then .passThrough
        else if req.actsOnViolations upper then .apply else .advisory := by
  obtain ⟨confidence, hconfidence⟩ := confidence_returns hcontext
  rw [respond]
  cases req.actsOnViolations upper with
  | false =>
    refine ⟨_, rfl, rfl, rfl, rfl, ?_⟩
    change (if ([] : List PolicyAction) ≠ [] then PolicyDecision.apply else
      if advisories results ≠ [] then .advisory else .passThrough) = _
    rw [if_neg (fun h => h rfl), ite_not]
    rfl
  | true =>
    have hactions : ∀ a ∈ advisories results, ∃ action, req.actionOf upper a = .ok action ∧
        action.type = upper a.code := by
      intro a _
      refine ⟨⟨upper a.code, confidence, PyText.take 256 a.detail⟩, ?_, rfl⟩
      rw [actionOf, hconfidence]
      rfl
    obtain ⟨actions, hmap, htypes⟩ := Except.mapM_returns hactions
    rw [if_pos rfl, hmap]
    refine ⟨_, rfl, rfl, rfl, htypes, ?_⟩
    have hempty : actions = [] ↔ advisories results = [] := by
      rw [← List.map_eq_nil_iff (f := PolicyAction.type), htypes, List.map_eq_nil_iff]
    change (if actions ≠ [] then _ else if advisories results ≠ [] then _ else _) = _
    by_cases hnone : advisories results = []
    · rw [if_neg (not_not.2 (hempty.2 hnone)), if_neg (not_not.2 hnone), if_pos hnone]
    · rw [if_pos (fun h => hnone (hempty.1 h)), if_neg hnone]
      rfl

/-- The answer by a registry. -/
theorem policyEvaluate_spec (upper : String → String) (registry : PolicyRegistry)
    (req : PolicyEvaluateRequest) :
    ∃ response, req.policyEvaluate upper registry = .ok response ∧
      Answers upper registry.policies.get? req response := by
  cases hcontext : req.context with
  | error e =>
    refine ⟨failedOpen, ?_, answers_failedOpen fun context h => ?_⟩
    · rw [policyEvaluate, hcontext]
      rfl
    · rw [hcontext] at h
      cases h
  | ok context =>
    rcases registry.evaluateAll_spec context with ⟨hall, results, hresults, heval⟩ | ⟨hnot, e, he⟩
    · obtain ⟨hnodup, hreported⟩ := advisories_spec heval
      obtain ⟨response, hresponse, hopen, hadvisories, hactions, hdecision⟩ :=
        respond_returns upper hcontext results
      refine ⟨response, ?_, ?_⟩
      · rw [policyEvaluate, hcontext]
        change (match registry.evaluateAll context with
          | .error _ => _
          | .ok results => _) = _
        rw [hresults]
        exact hresponse
      · refine ⟨?_, fun h => ?_, fun _ context' h => ?_, ?_, hactions, hdecision⟩
        · rw [hopen]
          refine iff_of_false Bool.false_ne_true fun h => ?_
          obtain ⟨id, policy, hget, henabled, hnot⟩ := h context hcontext
          exact hnot (hall policy (List.mem_map.2 ⟨_, PyDict.mem_of_find hget, rfl⟩) henabled)
        · rw [hopen] at h
          cases h
        · obtain rfl := Except.ok.inj (hcontext.symm.trans h)
          rw [hadvisories]
          exact hreported
        · rw [hadvisories]
          exact hnodup
    · refine ⟨failedOpen, ?_, answers_failedOpen fun context' h => ?_⟩
      · rw [policyEvaluate, hcontext]
        change (match registry.evaluateAll context with
          | .error _ => _
          | .ok results => _) = _
        rw [he]
      · obtain rfl := Except.ok.inj (hcontext.symm.trans h)
        unfold PolicyRegistry.AllComparable at hnot
        push Not at hnot
        obtain ⟨policy, hmem, henabled, hcomparable⟩ := hnot
        exact ⟨_, policy, PolicyRegistry.mem_policies_iff.1 hmem, henabled, hcomparable⟩

/-- **The endpoint reports what stands**: after every sequence of registrations and removals it
answers every request, by the policies that stand. -/
theorem evaluations_reported (upper : String → String) (changes : List PolicyRegistry.Change)
    (req : PolicyEvaluateRequest) :
    ∃ response, req.policyEvaluate upper (PolicyRegistry.after changes) = .ok response ∧
      Answers upper (PolicyRegistry.standing changes.reverse) req response := by
  rw [← funext (PolicyRegistry.get?_after changes)]
  exact policyEvaluate_spec upper (PolicyRegistry.after changes) req

end PolicyEvaluateRequest

/-! ### Beside the interceptor -/

/-- The registry as the lookups for a team read it. -/
def PolicyRegistry.toPolicyEngine (r : PolicyRegistry) : PolicyEngine :=
  ⟨⟨r.policies.items.map fun p => (p.1, p.2.toPolicyDefinition), by
    rw [List.map_map]
    exact r.policies.nodup⟩⟩

/-- An allowlist that is found is that of an enabled policy. -/
theorem PolicyEngine.scanAllowlists_cases {teamId : String} {policies : List PolicyDefinition}
    {globalAllowlist models : List String}
    (h : scanAllowlists teamId policies globalAllowlist = .ok models) :
    models = globalAllowlist ∨ ∃ policy ∈ policies, policy.policyType = .modelAllowlist ∧
      policy.enabled = true ∧ allowedModels policy = .ok models := by
  induction policies generalizing globalAllowlist with
  | nil => exact .inl (Except.ok.inj h).symm
  | cons policy policies ih =>
    have hlater : (∃ p ∈ policies, p.policyType = .modelAllowlist ∧ p.enabled = true ∧
        allowedModels p = .ok models) → ∃ p ∈ policy :: policies, p.policyType = .modelAllowlist ∧
          p.enabled = true ∧ allowedModels p = .ok models :=
      fun ⟨p, hp, hrest⟩ => ⟨p, List.mem_cons_of_mem _ hp, hrest⟩
    rw [scanAllowlists] at h
    split at h
    · exact (ih h).imp_right hlater
    · next hconcerns =>
      rw [not_or, not_not, Bool.not_eq_false] at hconcerns
      obtain ⟨matched, -, h⟩ := Except.bind_eq_ok h
      split at h
      · exact .inr ⟨policy, List.mem_cons_self, hconcerns.1, hconcerns.2, h⟩
      · split at h
        · obtain ⟨allowed, hallowed, h⟩ := Except.bind_eq_ok h
          rcases ih h with rfl | hfound
          · exact .inr ⟨policy, List.mem_cons_self, hconcerns.1, hconcerns.2, hallowed⟩
          · exact .inr (hlater hfound)
        · exact (ih h).imp_right hlater

/-- A model that is not on an allowlist violates its policy. -/
theorem GovernancePolicy.violates_of_refused {policy : GovernancePolicy}
    {context : EvaluationContext} {models : List String} {values : List PyVal}
    (htype : policy.policyType = .modelAllowlist) (hvalues : policy.allowed = .list values)
    (hmodels : PolicyEngine.allowedModels policy.toPolicyDefinition = .ok models)
    (hmodel : context.model ≠ "") (hsome : models ≠ []) (hrefused : context.model ∉ models) :
    policy.Violates context := by
  have hmap : values.mapM PyVal.toStr = .ok models := by
    rw [PolicyEngine.allowedModels, show policy.parameters.getD "allowed_models" (.list []) =
      .list values from hvalues] at hmodels
    exact hmodels
  rw [GovernancePolicy.Violates, htype, hvalues]
  refine ⟨hmodel, ?_, ?_⟩
  · cases values with
    | nil =>
      obtain rfl := Except.ok.inj hmap
      exact absurd rfl hsome
    | cons v values => rfl
  · refine congrArg Except.ok (Bool.eq_false_iff.2 fun hany => hrefused ?_)
    obtain ⟨v, hv, hsame⟩ := List.any_eq_true.1 hany
    obtain ⟨text, htext, hstr⟩ := Except.exists_of_mapM hmap v hv
    cases v with
    | str s =>
      obtain rfl := of_decide_eq_true hsame
      obtain rfl := Except.ok.inj hstr
      exact htext
    | _ => cases hsame

/-- The models of a team. -/
def teamModels : GovernancePolicy :=
  { policyId := "team-models", policyType := .modelAllowlist, scope := "team-platform-eng"
    parameters := ⟨[("allowed_models", .list [.str "gpt-4o-mini"])], by decide⟩
    name := "Models of the platform team", enforcement := .redirect }

/-- An entry of the team. -/
def teamEntry : AttributionIndexEntry :=
  { workloadId := "code-intel-prod", teamId := "team-platform-eng"
    teamName := "Platform Engineering", costCenterId := "CC-3100", confidence := fullScore
    confidenceTier := "chargeback_ready", methodUsed := "R1", materializedAt := 0
    modelAllowlist := ["gpt-4o-mini"] }

end ComputeIntelligence
