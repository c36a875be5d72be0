import ComputeIntelligence.PyDict
import ComputeIntelligence.PyValue

/-! # The policy engine

`PolicyEngine` (`policy/engine.py`): a registry of policy definitions, and the four
constraints that are looked up for a team when an index entry is built.

Each lookup walks the registry in insertion order.  A policy of the wanted type that
names the team ends the walk; the last global one is kept as the answer when none
does.  Parameters are arbitrary values, so reading one may raise.
-/
namespace ComputeIntelligence

/-- `PolicyType`. -/
inductive PolicyType where
  | modelAllowlist | budgetCeiling | tokenBudget | costCeiling
  | approvalGate | shadowDetection | confidenceFloor
deriving DecidableEq, Repr

/-- A governance policy: the fields the lookups read. -/
structure PolicyDefinition where
  policyId : String
  policyType : PolicyType
  scope : String
  parameters : PyDict String PyVal := PyDict.empty
  enabled : Bool := true

/-- The registry. -/
structure PolicyEngine where
  policies : PyDict String PolicyDefinition := PyDict.empty

/-- The budget of a team, as `get_budget_context` reports it. -/
structure BudgetContext where
  budgetLimitUsd : PyFloat
  budgetRemainingUsd : PyFloat
deriving DecidableEq

/-- The token budgets of a team, as `get_token_budgets` reports them. -/
structure TokenBudgets where
  tokenBudgetOutput : Option Int
  tokenBudgetInput : Option Int
deriving DecidableEq

namespace PolicyEngine

/-- `list(v)`: the elements of a list, the characters of a text, the keys of a
dictionary. -/
def elements : PyVal → Except PyExn (List PyVal)
  | .list xs => .ok xs
  | .str s => .ok (s.toList.map fun c => .str (String.ofList [c]))
  | .dict kvs => .ok (kvs.map fun kv => .str kv.1)
  | _ => .error .typeError

/-- `register_policy`. -/
def registerPolicy (engine : PolicyEngine) (policy : PolicyDefinition) : PolicyEngine :=
  { engine with policies := engine.policies.set policy.policyId policy }

/-- `remove_policy`: the registry without the policy, and whether it had it. -/
def removePolicy (engine : PolicyEngine) (policyId : String) : PolicyEngine × Bool :=
  ({ engine with policies := engine.policies.erase policyId }, engine.policies.contains policyId)

/-- `_policy_matches_team`.  The text of the parameter is taken first, whatever the
scope is. -/
def policyMatchesTeam (policy : PolicyDefinition) (teamId : String) : Except PyExn Bool := do
  let policyTeam ← (policy.parameters.getD "team_id" (.str "")).toStr
  .ok (policy.scope = teamId || policyTeam = teamId)

/-- The walk that the budget, token and ceiling lookups share.  The parameters of every
policy of the type are read, whether it concerns the team or not; `none` skips it. -/
def scan {α : Type} (policyType : PolicyType)
    (read : PolicyDefinition → Except PyExn (Option α)) (teamId : String) :
    List PolicyDefinition → Option α → Except PyExn (Option α)
  | [], globalValue => .ok globalValue
  | policy :: policies, globalValue =>
      if policy.policyType ≠ policyType ∨ policy.enabled = false then
        scan policyType read teamId policies globalValue
      else do
        match (← read policy) with
        | none => scan policyType read teamId policies globalValue
        | some value =>
            if (← policyMatchesTeam policy teamId) then .ok (some value)
            else if policy.scope = "global" then
              scan policyType read teamId policies (some value)
            else scan policyType read teamId policies globalValue

/-- The limit and the remainder of a budget policy. -/
def readBudget (policy : PolicyDefinition) : Except PyExn (Option BudgetContext) := do
  let limit ← (policy.parameters.getD "limit_usd" (.int 0)).toFloat
  let remaining ← (policy.parameters.getD "remaining_usd" (.int 0)).toFloat
  .ok (some ⟨limit, remaining⟩)

/-- A token bound, where the policy has one. -/
def readTokenBound (policy : PolicyDefinition) (name : String) : Except PyExn (Option Int) :=
  match policy.parameters.get? name with
  | none | some .none => .ok none
  | some v => v.toInt.map some

/-- The two bounds of a token policy. -/
def readTokenBudgets (policy : PolicyDefinition) : Except PyExn (Option TokenBudgets) := do
  let output ← readTokenBound policy "max_output_tokens"
  let input ← readTokenBound policy "max_input_tokens"
  .ok (some ⟨output, input⟩)

/-- The ceiling of a cost policy, where it has one. -/
def readCostCeiling (policy : PolicyDefinition) : Except PyExn (Option PyFloat) :=
  match policy.parameters.get? "max_request_cost_usd" with
  | none | some .none => .ok none
  | some v => v.toFloat.map some

/-- `get_budget_context`: `none` for the empty dictionary. -/
def getBudgetContext (engine : PolicyEngine) (teamId : String) :
    Except PyExn (Option BudgetContext) :=
  scan .budgetCeiling readBudget teamId (engine.policies.items.map Prod.snd) none

/-- `get_token_budgets`: `none` for the empty dictionary. -/
def getTokenBudgets (engine : PolicyEngine) (teamId : String) :
    Except PyExn (Option TokenBudgets) :=
  scan .tokenBudget readTokenBudgets teamId (engine.policies.items.map Prod.snd) none

/-- `get_cost_ceiling`. -/
def getCostCeiling (engine : PolicyEngine) (teamId : String) : Except PyExn (Option PyFloat) :=
  scan .costCeiling readCostCeiling teamId (engine.policies.items.map Prod.snd) none

/-- `[str(model) for model in policy.parameters.get("allowed_models", [])]`. -/
def allowedModels (policy : PolicyDefinition) : Except PyExn (List String) := do
  let models ← elements (policy.parameters.getD "allowed_models" (.list []))
  models.mapM PyVal.toStr

/-- The walk of `get_model_allowlist`: unlike the others it reads the parameters of a
policy only after it is known to concern the team. -/
def scanAllowlists (teamId : String) :
    List PolicyDefinition → List String → Except PyExn (List String)
  | [], globalAllowlist => .ok globalAllowlist
  | policy :: policies, globalAllowlist =>
      if policy.policyType ≠ .modelAllowlist ∨ policy.enabled = false then
        scanAllowlists teamId policies globalAllowlist
      else do
        if (← policyMatchesTeam policy teamId) then allowedModels policy
        else if policy.scope = "global" then
          scanAllowlists teamId policies (← allowedModels policy)
        else scanAllowlists teamId policies globalAllowlist

/-- `get_model_allowlist`. -/
def getModelAllowlist (engine : PolicyEngine) (teamId : String) : Except PyExn (List String) :=
  scanAllowlists teamId (engine.policies.items.map Prod.snd) []

end PolicyEngine

end ComputeIntelligence
