import ComputeIntelligence.FallbackWalk
import ComputeIntelligence.PolicyEngine

/-! # What one team's policies show to the others

The four lookups of `PolicyEngine` are walks with a fallback.  To a team it does not
match a policy can still show two things: its constraint, when its scope is `global`, for
the fallback is chosen by scope alone, whatever team the parameters name; and, in the
budget, token and ceiling lookups, the exception that reading its parameters raises.

A change to the policies of one team is therefore hidden from another exactly when the
policy shows the same before and after, or the rest of the registry masks the difference.
-/
namespace ComputeIntelligence
open FallbackWalk

namespace PolicyEngine

/-- A lookup as a walk: what a policy does in it for a team, what a policy shows to a team
it does not match, and the answer when there is no policy. -/
structure Lookup (β : Type) where
  verdict : String → PolicyDefinition → Verdict PyExn β
  outside : PolicyDefinition → Except PyExn (Option β)
  default : β
  verdict_of_not_matches : ∀ {policy : PolicyDefinition} {teamId : String},
    policyMatchesTeam policy teamId = .ok false → verdict teamId policy = shown (outside policy)

namespace Lookup
variable {α β : Type}

/-- The verdicts of policies, in their order in the registry. -/
def verdicts (lookup : Lookup β) (teamId : String) (entries : List (String × PolicyDefinition)) :
    List (Verdict PyExn β) :=
  entries.map fun entry => lookup.verdict teamId entry.2

/-- The answer of a lookup. -/
def answer (lookup : Lookup β) (engine : PolicyEngine) (teamId : String) : Except PyExn β :=
  walk (lookup.verdicts teamId engine.policies.items) lookup.default

/-- What a place of the registry shows to a team its policy does not match. -/
def shows (lookup : Lookup β) (place : Option PolicyDefinition) : Except PyExn (Option β) :=
  place.elim (.ok none) lookup.outside

/-- A policy in the walk of `scan`. -/
def scanVerdict (policyType : PolicyType) (read : PolicyDefinition → Except PyExn (Option α))
    (teamId : String) (policy : PolicyDefinition) : Verdict PyExn (Option α) :=
  if policy.policyType ≠ policyType ∨ policy.enabled = false then .next none
  else match read policy with
    | .error e => .stop (.error e)
    | .ok none => .next none
    | .ok (some value) =>
        match policyMatchesTeam policy teamId with
        | .error e => .stop (.error e)
        | .ok true => .stop (.ok (some value))
        | .ok false => .next (if policy.scope = "global" then some (some value) else none)

/-- What a policy shows to a stranger in the walk of `scan`. -/
def scanOutside (policyType : PolicyType) (read : PolicyDefinition → Except PyExn (Option α))
    (policy : PolicyDefinition) : Except PyExn (Option (Option α)) :=
  if policy.policyType ≠ policyType ∨ policy.enabled = false then .ok none
  else do
    let value ← read policy
    .ok (if policy.scope = "global" then value.map some else none)

theorem scan_eq_walk (policyType : PolicyType)
    (read : PolicyDefinition → Except PyExn (Option α)) (teamId : String)
    (policies : List PolicyDefinition) (held : Option α) :
    scan policyType read teamId policies held =
      walk (policies.map (scanVerdict policyType read teamId)) held := by
  induction policies generalizing held with
  | nil => rfl
  | cons policy policies ih =>
    rw [scan, List.map_cons, scanVerdict]
    split
    · exact ih held
    · rcases read policy with e | value | value
      · rfl
      · exact ih held
      · show (do
          if (← policyMatchesTeam policy teamId) then .ok (some value)
          else if policy.scope = "global" then
            scan policyType read teamId policies (some value)
          else scan policyType read teamId policies held) = _
        rcases policyMatchesTeam policy teamId with e | _ | _
        · rfl
        · by_cases hg : policy.scope = "global"
          · simpa [bind, Except.bind, walk, hg] using ih (some value)
          · simpa [bind, Except.bind, walk, hg] using ih held
        · rfl

/-- The lookup that `scan` computes. -/
def ofScan (policyType : PolicyType) (read : PolicyDefinition → Except PyExn (Option α)) :
    Lookup (Option α) where
  verdict := scanVerdict policyType read
  outside := scanOutside policyType read
  default := none
  verdict_of_not_matches := by
    intro policy teamId h
    unfold scanVerdict scanOutside
    split
    · rfl
    · rcases read policy with e | value | value
      · rfl
      · show Verdict.next none = shown (.ok (if policy.scope = "global" then none else none))
        rw [ite_self]
        rfl
      · simp only [h]
        rfl

theorem answer_ofScan (policyType : PolicyType)
    (read : PolicyDefinition → Except PyExn (Option α)) (engine : PolicyEngine)
    (teamId : String) :
    scan policyType read teamId (engine.policies.items.map Prod.snd) none =
      (ofScan policyType read).answer engine teamId := by
  rw [scan_eq_walk, List.map_map]
  rfl

/-- A policy in the walk of `get_model_allowlist`. -/
def allowlistVerdict (teamId : String) (policy : PolicyDefinition) :
    Verdict PyExn (List String) :=
  if policy.policyType ≠ .modelAllowlist ∨ policy.enabled = false then .next none
  else match policyMatchesTeam policy teamId with
    | .error e => .stop (.error e)
    | .ok true => .stop (allowedModels policy)
    | .ok false =>
        if policy.scope = "global" then
          match allowedModels policy with
          | .error e => .stop (.error e)
          | .ok models => .next (some models)
        else .next none

/-- What a policy shows to a stranger in the walk of `get_model_allowlist`. -/
def allowlistOutside (policy : PolicyDefinition) : Except PyExn (Option (List String)) :=
  if policy.policyType ≠ .modelAllowlist ∨ policy.enabled = false then .ok none
  else if policy.scope = "global" then (allowedModels policy).map some
  else .ok none

theorem scanAllowlists_eq_walk (teamId : String) (policies : List PolicyDefinition)
    (held : List String) :
    scanAllowlists teamId policies held =
      walk (policies.map (allowlistVerdict teamId)) held := by
  induction policies generalizing held with
  | nil => rfl
  | cons policy policies ih =>
    rw [scanAllowlists, List.map_cons, allowlistVerdict]
    split
    · exact ih held
    · rcases policyMatchesTeam policy teamId with e | _ | _
      · rfl
      · by_cases hg : policy.scope = "global"
        · rcases hm : allowedModels policy with e | models
          · simp [bind, Except.bind, walk, hg]
          · simpa [bind, Except.bind, walk, hg] using ih models
        · simpa [bind, Except.bind, walk, hg] using ih held
      · rfl

/-- The lookup of `get_model_allowlist`. -/
def allowlists : Lookup (List String) where
  verdict := allowlistVerdict
  outside := allowlistOutside
  default := []
  verdict_of_not_matches := by
    intro policy teamId h
    unfold allowlistVerdict allowlistOutside
    split
    · rfl
    · simp only [h]
      split
      · rcases allowedModels policy with e | models <;> rfl
      · rfl

/-- The lookup of `get_budget_context`. -/
def budgets : Lookup (Option BudgetContext) := ofScan .budgetCeiling readBudget

/-- The lookup of `get_token_budgets`. -/
def tokens : Lookup (Option TokenBudgets) := ofScan .tokenBudget readTokenBudgets

/-- The lookup of `get_cost_ceiling`. -/
def ceilings : Lookup (Option PyFloat) := ofScan .costCeiling readCostCeiling

end Lookup

theorem getModelAllowlist_eq (engine : PolicyEngine) (teamId : String) :
    engine.getModelAllowlist teamId = Lookup.allowlists.answer engine teamId := by
  rw [getModelAllowlist, Lookup.scanAllowlists_eq_walk, List.map_map]
  rfl

theorem getBudgetContext_eq (engine : PolicyEngine) (teamId : String) :
    engine.getBudgetContext teamId = Lookup.budgets.answer engine teamId :=
  Lookup.answer_ofScan _ _ engine teamId

theorem getTokenBudgets_eq (engine : PolicyEngine) (teamId : String) :
    engine.getTokenBudgets teamId = Lookup.tokens.answer engine teamId :=
  Lookup.answer_ofScan _ _ engine teamId

theorem getCostCeiling_eq (engine : PolicyEngine) (teamId : String) :
    engine.getCostCeiling teamId = Lookup.ceilings.answer engine teamId :=
  Lookup.answer_ofScan _ _ engine teamId

/-- What one team does to the registry.  Registering a policy under an identifier that is
there replaces that policy; disabling one assigns its `enabled`. -/
inductive PolicyChange where
  | register (policy : PolicyDefinition)
  | disable (policyId : String)
  | remove (policyId : String)

namespace PolicyChange

/-- The identifier that is changed. -/
def policyId : PolicyChange → String
  | .register policy => policy.policyId
  | .disable policyId => policyId
  | .remove policyId => policyId

/-- The policy that is there before the change. -/
def old (change : PolicyChange) (engine : PolicyEngine) : Option PolicyDefinition :=
  engine.policies.get? change.policyId

/-- The policy that is there after the change. -/
def new (change : PolicyChange) (engine : PolicyEngine) : Option PolicyDefinition :=
  match change with
  | .register policy => some policy
  | .disable policyId =>
      (engine.policies.get? policyId).map fun policy => { policy with enabled := false }
  | .remove _ => none

/-- The registry after the change. -/
def apply (change : PolicyChange) (engine : PolicyEngine) : PolicyEngine :=
  match change with
  | .register policy => engine.registerPolicy policy
  | .disable policyId =>
      match engine.policies.get? policyId with
      | none => engine
      | some policy =>
          { engine with policies := engine.policies.set policyId { policy with enabled := false } }
  | .remove policyId => (engine.removePolicy policyId).1

/-- The registry before a change: what stands there now, between the other policies. -/
theorem items_before (change : PolicyChange) (engine : PolicyEngine) :
    engine.policies.items = engine.policies.before change.policyId ++
      (change.old engine).toList.map (change.policyId, ·) ++
        engine.policies.after change.policyId :=
  engine.policies.items_eq change.policyId

/-- The registry after a change: the other policies are where they were. -/
theorem items_after (change : PolicyChange) (engine : PolicyEngine) :
    (change.apply engine).policies.items = engine.policies.before change.policyId ++
      (change.new engine).toList.map (change.policyId, ·) ++
        engine.policies.after change.policyId := by
  cases change with
  | register policy =>
    show (engine.policies.set policy.policyId policy).items = _
    rw [PyDict.items_set, List.append_assoc]
    rfl
  | disable policyId =>
    rcases h : engine.policies.get? policyId with _ | policy
    · -- there is nothing to disable
      have hnone : (disable policyId).new engine = none := by rw [new, h]; rfl
      have hsame : (disable policyId).apply engine = engine := by rw [apply, h]
      have hitems := engine.policies.items_eq policyId
      rw [h] at hitems
      rw [hnone, hsame]
      exact hitems
    · have hsome : (disable policyId).new engine = some { policy with enabled := false } := by
        rw [new, h]
        rfl
      have hset : ((disable policyId).apply engine).policies =
          engine.policies.set policyId { policy with enabled := false } := by rw [apply, h]
      rw [hsome, hset, PyDict.items_set, List.append_assoc]
      rfl
  | remove policyId =>
    show (engine.policies.erase policyId).items = _
    rw [PyDict.items_erase]
    simp [new, PolicyChange.policyId]

/-- The change is about policies of team `teamA` alone, as seen from `teamB`: what is there
before and what is there after matches the one and does not match the other. -/
def Concerns (change : PolicyChange) (engine : PolicyEngine) (teamA teamB : String) : Prop :=
  ∀ policy, change.old engine = some policy ∨ change.new engine = some policy →
    policyMatchesTeam policy teamA = .ok true ∧ policyMatchesTeam policy teamB = .ok false

end PolicyChange

namespace Lookup
variable {β : Type}

/-- The rest of the registry, or the policies that are exchanged, hide a change from a team:
an earlier policy decides for it, or the exchange is masked by what is in force at that place
and by the later policies. -/
def Hides (lookup : Lookup β) (engine : PolicyEngine) (change : PolicyChange)
    (teamId : String) : Prop :=
  let earlier := lookup.verdicts teamId (engine.policies.before change.policyId)
  let later := lookup.verdicts teamId (engine.policies.after change.policyId)
  decision earlier ≠ none ∨
    Masked ((lastFallback earlier).getD lookup.default) later
      (lookup.shows (change.old engine)) (lookup.shows (change.new engine))

/-- A place whose policy does not match the team contributes what it shows. -/
theorem walk_place (lookup : Lookup β) {teamId key : String} {place : Option PolicyDefinition}
    (h : ∀ policy, place = some policy → policyMatchesTeam policy teamId = .ok false)
    (before after : List (String × PolicyDefinition)) (held : β) :
    walk (lookup.verdicts teamId (before ++ place.toList.map (key, ·) ++ after)) held =
      walk (lookup.verdicts teamId before ++ shown (lookup.shows place) ::
        lookup.verdicts teamId after) held := by
  cases place with
  | none =>
    rw [show lookup.shows none = .ok none from rfl, walk_absent]
    simp [verdicts]
  | some policy =>
    have hview : shown (lookup.shows (some policy)) = lookup.verdict teamId policy :=
      (lookup.verdict_of_not_matches (h policy rfl)).symm
    rw [hview]
    simp [verdicts]

/-- A change of other teams' policies leaves an answer alone if and only if it is hidden. -/
theorem answer_apply_iff (lookup : Lookup β) {engine : PolicyEngine} {change : PolicyChange}
    {teamA teamB : String} (h : change.Concerns engine teamA teamB) :
    lookup.answer (change.apply engine) teamB = lookup.answer engine teamB ↔
      lookup.Hides engine change teamB := by
  unfold answer
  -- the two registries differ in one place, which `teamB` sees as absent in both
  rw [change.items_after, change.items_before engine,
    lookup.walk_place fun policy hp => (h policy (.inr hp)).2,
    lookup.walk_place fun policy hp => (h policy (.inl hp)).2]
  exact eq_comm.trans walk_exchange_iff

end Lookup

/-- The four constraints of a team are the same in two registries. -/
structure SameConstraints (engine engine' : PolicyEngine) (teamId : String) : Prop where
  modelAllowlist : engine'.getModelAllowlist teamId = engine.getModelAllowlist teamId
  budgetContext : engine'.getBudgetContext teamId = engine.getBudgetContext teamId
  tokenBudgets : engine'.getTokenBudgets teamId = engine.getTokenBudgets teamId
  costCeiling : engine'.getCostCeiling teamId = engine.getCostCeiling teamId

/-- The change of one team's policies is hidden from a team in every lookup. -/
structure Hidden (engine : PolicyEngine) (change : PolicyChange) (teamId : String) : Prop where
  modelAllowlist : Lookup.allowlists.Hides engine change teamId
  budgetContext : Lookup.budgets.Hides engine change teamId
  tokenBudgets : Lookup.tokens.Hides engine change teamId
  costCeiling : Lookup.ceilings.Hides engine change teamId

/-- A change of one team's policies leaves another team's constraints alone if and only if
it is hidden from it. -/
theorem sameConstraints_apply_iff {engine : PolicyEngine} {change : PolicyChange}
    {teamA teamB : String} (h : change.Concerns engine teamA teamB) :
    SameConstraints engine (change.apply engine) teamB ↔ Hidden engine change teamB := by
  constructor
  · rintro ⟨hm, hb, ht, hc⟩
    rw [getModelAllowlist_eq, getModelAllowlist_eq] at hm
    rw [getBudgetContext_eq, getBudgetContext_eq] at hb
    rw [getTokenBudgets_eq, getTokenBudgets_eq] at ht
    rw [getCostCeiling_eq, getCostCeiling_eq] at hc
    exact ⟨(Lookup.answer_apply_iff _ h).1 hm, (Lookup.answer_apply_iff _ h).1 hb,
      (Lookup.answer_apply_iff _ h).1 ht, (Lookup.answer_apply_iff _ h).1 hc⟩
  · rintro ⟨hm, hb, ht, hc⟩
    constructor
    · rw [getModelAllowlist_eq, getModelAllowlist_eq]
      exact (Lookup.answer_apply_iff _ h).2 hm
    · rw [getBudgetContext_eq, getBudgetContext_eq]
      exact (Lookup.answer_apply_iff _ h).2 hb
    · rw [getTokenBudgets_eq, getTokenBudgets_eq]
      exact (Lookup.answer_apply_iff _ h).2 ht
    · rw [getCostCeiling_eq, getCostCeiling_eq]
      exact (Lookup.answer_apply_iff _ h).2 hc

/-- Reading a policy of the type does not raise. -/
def Readable {α : Type} (policyType : PolicyType)
    (read : PolicyDefinition → Except PyExn (Option α)) (policy : PolicyDefinition) : Prop :=
  policy.policyType = policyType → ∃ value, read policy = .ok value

/-- A policy that shows nothing to a team it does not match: its scope is not `global`, and
its parameters can be read. -/
structure Discreet (policy : PolicyDefinition) : Prop where
  scope : policy.scope ≠ "global"
  budget : Readable .budgetCeiling readBudget policy
  tokens : Readable .tokenBudget readTokenBudgets policy
  ceiling : Readable .costCeiling readCostCeiling policy

namespace Lookup

theorem scanOutside_of_discreet {α : Type} {policyType : PolicyType}
    {read : PolicyDefinition → Except PyExn (Option α)} {policy : PolicyDefinition}
    (hs : policy.scope ≠ "global") (hr : Readable policyType read policy) :
    scanOutside policyType read policy = .ok none := by
  unfold scanOutside
  split
  · rfl
  · rename_i hskip
    obtain ⟨value, hv⟩ := hr (not_not.1 fun ht => hskip (.inl ht))
    rw [hv]
    rfl

theorem allowlistOutside_of_discreet {policy : PolicyDefinition} (hs : policy.scope ≠ "global") :
    allowlistOutside policy = .ok none := by
  unfold allowlistOutside
  rw [if_neg hs, ite_self]

theorem hides_of_shows_eq {β : Type} {lookup : Lookup β} {engine : PolicyEngine}
    {change : PolicyChange} {teamId : String}
    (h : lookup.shows (change.old engine) = lookup.shows (change.new engine)) :
    lookup.Hides engine change teamId := by
  right
  rw [h]
  rcases lookup.shows (change.new engine) with e | fallback
  · exact rfl
  · exact .inl rfl

theorem shows_of_outside {β : Type} {lookup : Lookup β} {place : Option PolicyDefinition}
    (h : ∀ policy, place = some policy → lookup.outside policy = .ok none) :
    lookup.shows place = .ok none := by
  cases place with
  | none => rfl
  | some policy => exact h policy rfl

end Lookup

/-- Whatever the registry holds, a team's discreet policies do not reach another team. -/
theorem hidden_of_discreet {engine : PolicyEngine} {change : PolicyChange}
    (h : ∀ policy, change.old engine = some policy ∨ change.new engine = some policy →
      Discreet policy) (teamId : String) : Hidden engine change teamId := by
  have hides : ∀ {β : Type} (lookup : Lookup β),
      (∀ policy, Discreet policy → lookup.outside policy = .ok none) →
        lookup.Hides engine change teamId := by
    intro β lookup hl
    apply Lookup.hides_of_shows_eq
    rw [Lookup.shows_of_outside fun policy hp => hl policy (h policy (.inl hp)),
      Lookup.shows_of_outside fun policy hp => hl policy (h policy (.inr hp))]
  constructor
  · exact hides _ fun policy hp => Lookup.allowlistOutside_of_discreet hp.scope
  · exact hides _ fun policy hp => Lookup.scanOutside_of_discreet hp.scope hp.budget
  · exact hides _ fun policy hp => Lookup.scanOutside_of_discreet hp.scope hp.tokens
  · exact hides _ fun policy hp => Lookup.scanOutside_of_discreet hp.scope hp.ceiling

/-- A token budget for team `a`, within a scope. -/
def tokensOfA (scope : String) : PolicyDefinition where
  policyId := "tokens-a"
  policyType := .tokenBudget
  scope := scope
  parameters := PyDict.ofList [("team_id", .str "a"), ("max_output_tokens", .int 250)]

theorem tokensOfA_concerns {scope : String} (h : scope ≠ "b") :
    (PolicyChange.register (tokensOfA scope)).Concerns {} "a" "b" := by
  rintro policy (hp | hp)
  · cases hp
  · obtain rfl := Option.some.inj hp
    refine ⟨?_, ?_⟩
    · show Except.ok (decide (scope = "a") || decide ("a" = "a")) = _
      rw [decide_eq_true (rfl : "a" = "a"), Bool.or_true]
    · show Except.ok (decide (scope = "b") || decide ("a" = "b")) = _
      rw [decide_eq_false h]
      rfl

/-- One team's policy becomes another team's constraint: a token budget that names team `a`
but is left at the scope `global` is the token budget of team `b`. -/
theorem not_sameConstraints :
    ¬ ∀ (engine : PolicyEngine) (change : PolicyChange) (teamA teamB : String),
      teamA ≠ teamB → change.Concerns engine teamA teamB →
        SameConstraints engine (change.apply engine) teamB := by
  intro h
  have hsame := (h {} (.register (tokensOfA "global")) "a" "b" (by decide)
    (tokensOfA_concerns (by decide))).tokenBudgets
  have hbefore : getTokenBudgets {} "b" = .ok none := rfl
  have hafter : getTokenBudgets ((PolicyChange.register (tokensOfA "global")).apply {}) "b" =
      .ok (some ⟨some 250, none⟩) := rfl
  rw [hbefore, hafter] at hsame
  cases hsame

/-- With the team as its scope, the same policy stays with the team. -/
theorem sameConstraints_scoped :
    SameConstraints {} ((PolicyChange.register (tokensOfA "a")).apply {}) "b" := by
  refine (sameConstraints_apply_iff (tokensOfA_concerns (by decide))).2
    (hidden_of_discreet ?_ "b")
  rintro policy (hp | hp)
  · cases hp
  · obtain rfl := Option.some.inj hp
    exact ⟨by decide, fun ht => (by cases ht), fun _ => ⟨_, rfl⟩, fun ht => (by cases ht)⟩

end PolicyEngine
end ComputeIntelligence
