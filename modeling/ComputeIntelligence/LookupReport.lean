import ComputeIntelligence.DurableIndex
import ComputeIntelligence.PolicyChecks
import Mathlib.Algebra.Order.BigOperators.Group.List

/-! # What a lookup says about the checks

`GET /v1/index/lookup` (`api/app.py`) answers with the constraints of an index entry, by their
kinds.  The interceptor evaluates five policies on the entry it looks up.

Whatever policy it finds violated, the answer for the key names its kind, but for the cost ceiling,
which has none; a hard budget is over its ceiling in every evaluation; and the answer describes the
entry that the next lookup serves (`lookup_reports`).
-/
namespace ComputeIntelligence

/-- The kinds of constraints. -/
inductive ConstraintType where
  | tokenCap | modelAllowlist | budgetSoft | budgetHard
deriving DecidableEq

inductive ConstraintScope where
  | service | team
deriving DecidableEq

/-- `IndexConstraintResponse`. -/
structure IndexConstraint where
  type : ConstraintType
  scope : ConstraintScope
deriving DecidableEq

/-- `IndexLookupAttributionResponse`. -/
structure IndexLookupAttribution where
  ownerId : Option String
  teamId : Option String
  confidence : UnitScore
  reason : String
  explanationId : String

/-- `IndexLookupByKeyResponse`. -/
structure IndexLookupByKeyResponse where
  key : String
  indexVersion : Nat
  attribution : IndexLookupAttribution
  constraints : List IndexConstraint
  cacheTtlMs : Nat

/-- `s or None`. -/
def orNone (s : String) : Option String := if s = "" then none else some s

namespace AttributionIndexEntry
variable (entry : AttributionIndexEntry)

/-- All of the budget is used. -/
def budgetExhausted : Bool :=
  match entry.budgetRemainingUsd, entry.budgetLimitUsd with
  | some remaining, some limit => limit.gt 0 && ((remaining.div limit).subFrom 1).ge 1
  | _, _ => false

/-- The constraints in the order of `index_lookup`. -/
def constraints : List IndexConstraint :=
  (if entry.tokenBudgetInput ≠ none ∨ entry.tokenBudgetOutput ≠ none then
    [⟨.tokenCap, .service⟩] else []) ++
  (if entry.modelAllowlist ≠ [] then [⟨.modelAllowlist, .service⟩] else []) ++
  (if entry.budgetLimitUsd ≠ none then
    ⟨.budgetSoft, .team⟩ :: (if entry.budgetExhausted then [⟨.budgetHard, .team⟩] else [])
  else [])

/-- The answer for an entry. -/
def lookupResponse (key : String) : IndexLookupByKeyResponse where
  key
  indexVersion := entry.version
  attribution := {
    ownerId := (orNone entry.teamId).or (orNone entry.personId)
    teamId := orNone entry.teamId
    confidence := entry.confidence
    reason := mapAttributionReason entry.methodUsed
    explanationId := (orNone entry.methodUsed).getD "unknown" }
  constraints := entry.constraints
  cacheTtlMs := 60000

end AttributionIndexEntry

namespace AttributionIndexStore

/-- `index_lookup`: `none` for a 404. -/
def indexLookup (s : AttributionIndexStore) (db : RedisDb) (key : String) :
    AttributionIndexStore × Option IndexLookupByKeyResponse :=
  match s.lookup db key with
  | (s, none) => (s, none)
  | (s, some entry) => (s, some (entry.lookupResponse key))

/-- What a lookup finds: the local entry, or else the durable one. -/
def found (s : AttributionIndexStore) (db : RedisDb) (key : String) :
    Option AttributionIndexEntry :=
  (s.index.get? key).or (if s.settings.durableEnabled then
    (db.get? (redisKey s.settings key)).map DurableRecord.payload else none)

theorem lookup_found (s : AttributionIndexStore) (db : RedisDb) (key : String) :
    (s.lookup db key).2 = s.found db key := by
  rw [lookup, found]
  cases s.index.get? key with
  | some entry => rfl
  | none =>
    dsimp only
    rw [loadDurableEntry, count_settings]
    cases s.settings.durableEnabled with
    | false => rfl
    | true =>
      cases db.get? (redisKey s.settings key) with
      | none => rfl
      | some record => rfl

theorem lookup_settings (s : AttributionIndexStore) (db : RedisDb) (key : String) :
    (s.lookup db key).1.settings = s.settings := by
  rw [lookup]
  cases s.index.get? key with
  | some entry => rfl
  | none =>
    dsimp only
    rw [loadDurableEntry, count_settings]
    cases s.settings.durableEnabled with
    | false => rfl
    | true =>
      cases db.get? (redisKey s.settings key) with
      | none => rfl
      | some record => exact evictOverflow_settings _ _

/-- A lookup leaves at its key what was there, or puts there what it found. -/
theorem get?_lookup (s : AttributionIndexStore) (db : RedisDb) (key : String) :
    (s.lookup db key).1.index.get? key = s.index.get? key ∨
      (s.lookup db key).1.index.get? key = s.found db key := by
  cases hlocal : s.index.get? key with
  | some entry => exact .inl ((lookup_hit hlocal db).2.2.2 key ▸ hlocal)
  | none =>
    rw [lookup, found, hlocal]
    dsimp only
    rw [loadDurableEntry, count_settings]
    cases s.settings.durableEnabled with
    | false => exact .inl hlocal
    | true =>
      cases db.get? (redisKey s.settings key) with
      | none => exact .inl hlocal
      | some record =>
        change (insertLocalLocked _ record.payload).index.get? key = none ∨
          (insertLocalLocked _ record.payload).index.get? key = some record.payload
        rw [insertLocalLocked]
        cases hget : (evictOverflow _ _).index.get? key with
        | none => exact .inl rfl
        | some entry =>
          have hset := evictOverflow_get? _ hget
          rw [PyDict.get?_setLast] at hset
          split at hset
          · exact .inr hset.symm
          · cases hlocal.symm.trans hset

/-- **Looking up again finds the same entry.** -/
theorem lookup_again (s : AttributionIndexStore) (db : RedisDb) (key : String) :
    ((s.lookup db key).1.lookup db key).2 = (s.lookup db key).2 := by
  rw [lookup_found, lookup_found, found, lookup_settings]
  rcases get?_lookup s db key with h | h
  · rw [h, found]
  · rw [h, found, Option.or_assoc, Option.or_self]

end AttributionIndexStore

/-! ### What the answer covers -/

/-- The kind of the constraint that a policy of the interceptor checks. -/
def constraintOf : String → Option ConstraintType
  | "model_allowlist" => some .modelAllowlist
  | "budget_ceiling" => some .budgetSoft
  | "token_budget" | "token_budget_input" => some .tokenCap
  | _ => none

/-- A kind of constraint is listed. -/
def Lists (constraints : List IndexConstraint) (type : ConstraintType) : Prop :=
  ∃ c ∈ constraints, c.type = type

namespace AttributionIndexEntry
variable {entry : AttributionIndexEntry}

theorem lists_append {xs ys : List IndexConstraint} {type : ConstraintType} :
    Lists (xs ++ ys) type ↔ Lists xs type ∨ Lists ys type := by
  unfold Lists
  simp only [List.mem_append, or_and_right, exists_or]

theorem lists_cons {c : IndexConstraint} {cs : List IndexConstraint} {type : ConstraintType} :
    Lists (c :: cs) type ↔ c.type = type ∨ Lists cs type := by
  unfold Lists
  simp only [List.mem_cons, or_and_right, exists_or, exists_eq_left]

theorem lists_nil {type : ConstraintType} : ¬ Lists [] type :=
  fun ⟨_, hc, _⟩ => absurd hc List.not_mem_nil

/-- A constraint that is listed under a condition. -/
theorem lists_ite {p : Prop} [Decidable p] {cs : List IndexConstraint} {type : ConstraintType} :
    Lists (if p then cs else []) type ↔ p ∧ Lists cs type := by
  split
  · next h => exact (and_iff_right h).symm
  · next h => exact iff_of_false lists_nil fun hp => h hp.1

/-- **The kinds that are listed.** -/
theorem lists_constraints {type : ConstraintType} : Lists entry.constraints type ↔
    ((entry.tokenBudgetInput ≠ none ∨ entry.tokenBudgetOutput ≠ none) ∧ .tokenCap = type) ∨
    (entry.modelAllowlist ≠ [] ∧ .modelAllowlist = type) ∨
    (entry.budgetLimitUsd ≠ none ∧ (.budgetSoft = type ∨
      (entry.budgetExhausted = true ∧ .budgetHard = type))) := by
  rw [constraints, lists_append, lists_append, lists_ite, lists_ite, lists_ite, lists_cons,
    lists_cons, lists_cons, lists_ite, lists_cons, or_iff_left lists_nil, or_iff_left lists_nil,
    or_iff_left lists_nil, or_assoc]

theorem limit_of_exhausted (h : entry.budgetExhausted = true) : entry.budgetLimitUsd ≠ none := by
  intro hnone
  rw [budgetExhausted, hnone] at h
  split at h
  · next hlimit => cases hlimit
  · cases h

/-- A budget that is used up is over its ceiling. -/
theorem budgetSpent_of_exhausted (h : entry.budgetExhausted = true) : entry.BudgetSpent := by
  rw [budgetExhausted] at h
  split at h
  · next remaining limit hremaining hlimit =>
    obtain ⟨hpos, hfull⟩ := Bool.and_eq_true_iff.1 h
    refine ⟨remaining, limit, hremaining, hlimit, hpos, ?_⟩
    generalize (remaining.div limit).subFrom 1 = utilization at hfull
    cases utilization with
    | finite q =>
      have hq : 1 ≤ q := of_decide_eq_true hfull
      exact decide_eq_true (lt_of_lt_of_le (by norm_num) hq)
    | posInf => rfl
    | negInf => cases hfull
    | nan => cases hfull
  · cases h

/-- A token budget other than 0 can be exceeded. -/
theorem exceeded_of_output {budget : Int} (h : entry.tokenBudgetOutput = some budget)
    (hbudget : budget ≠ 0) : ∃ request, entry.OutputExceeded request := by
  refine ⟨{ requestId := "", model := ""
            metadata := PyDict.empty.set "max_tokens" (.int (budget + 1)) }, budget, h, hbudget, ?_⟩
  exact congrArg Except.ok (decide_eq_true (Int.lt_succ budget))

theorem exceeded_of_input {budget : Int} (h : entry.tokenBudgetInput = some budget)
    (hbudget : budget ≠ 0) : ∃ request, entry.InputExceeded request :=
  ⟨{ requestId := "", model := "", inputTokens := budget + 1 }, budget, h, hbudget,
    Int.lt_succ budget⟩

/-- Some model is not on a list. -/
theorem exists_refused (h : entry.modelAllowlist ≠ []) : ∃ model, entry.RefusesModel model := by
  -- a name that is longer than all of those on the list
  let total := (entry.modelAllowlist.map String.length).sum
  refine ⟨String.ofList (List.replicate (total + 1) 'x'), h, fun hmem => ?_⟩
  have hle : (String.ofList (List.replicate (total + 1) 'x')).length ≤ total :=
    List.le_sum_of_mem (List.mem_map_of_mem hmem)
  rw [String.length_ofList, List.length_replicate] at hle
  omega

/-- What the constraints of an answer say about the checks of the interceptor. -/
structure Reported (entry : AttributionIndexEntry) (constraints : List IndexConstraint) : Prop where
  /-- A policy that some request violates is listed by its kind, but for the cost ceiling. -/
  covered : ∀ request violations policyId, evaluatePolicies request entry = .ok violations →
    Reports violations policyId → policyId = "cost_ceiling" ∨
      ∃ type, constraintOf policyId = some type ∧ Lists constraints type
  /-- An allowlist is listed when some model is refused. -/
  allowlist : Lists constraints .modelAllowlist ↔ ∃ model, entry.RefusesModel model
  /-- A token cap is listed when some request exceeds it, or it is 0, which none does. -/
  tokens : Lists constraints .tokenCap ↔
    (∃ request, entry.OutputExceeded request ∨ entry.InputExceeded request) ∨
      entry.tokenBudgetOutput = some 0 ∨ entry.tokenBudgetInput = some 0
  /-- A hard budget is a soft one, and every evaluation finds it violated. -/
  hard : Lists constraints .budgetHard → Lists constraints .budgetSoft ∧
    ∀ request violations, evaluatePolicies request entry = .ok violations →
      Reports violations "budget_ceiling"

theorem reported_constraints (entry : AttributionIndexEntry) :
    entry.Reported entry.constraints where
  covered request violations policyId heval hreports := by
    rcases (reports_iff heval).1 hreports with ⟨rfl, h⟩ | ⟨rfl, h⟩ | ⟨rfl, h⟩ | ⟨rfl, h⟩ | ⟨rfl, -⟩
    · exact .inr ⟨_, rfl, lists_constraints.2 (.inr (.inl ⟨h.1, rfl⟩))⟩
    · obtain ⟨remaining, limit, -, hlimit, -⟩ := h
      refine .inr ⟨_, rfl, lists_constraints.2 (.inr (.inr ⟨?_, .inl rfl⟩))⟩
      rw [hlimit]
      exact Option.some_ne_none limit
    · obtain ⟨budget, hbudget, -⟩ := h
      refine .inr ⟨_, rfl, lists_constraints.2 (.inl ⟨.inr ?_, rfl⟩)⟩
      rw [hbudget]
      exact Option.some_ne_none budget
    · obtain ⟨budget, hbudget, -⟩ := h
      refine .inr ⟨_, rfl, lists_constraints.2 (.inl ⟨.inl ?_, rfl⟩)⟩
      rw [hbudget]
      exact Option.some_ne_none budget
    · exact .inl rfl
  allowlist := by
    rw [lists_constraints]
    constructor
    · rintro (⟨-, h⟩ | ⟨h, -⟩ | ⟨-, h | ⟨-, h⟩⟩)
      · cases h
      · exact exists_refused h
      · cases h
      · cases h
    · exact fun ⟨model, h, _⟩ => .inr (.inl ⟨h, rfl⟩)
  tokens := by
    rw [lists_constraints]
    constructor
    · rintro (⟨h, -⟩ | ⟨-, h⟩ | ⟨-, h | ⟨-, h⟩⟩)
      · rcases h with h | h
        · obtain ⟨budget, hbudget⟩ := Option.ne_none_iff_exists'.1 h
          by_cases hzero : budget = 0
          · exact .inr (.inr (hzero ▸ hbudget))
          · obtain ⟨request, hrequest⟩ := exceeded_of_input hbudget hzero
            exact .inl ⟨request, .inr hrequest⟩
        · obtain ⟨budget, hbudget⟩ := Option.ne_none_iff_exists'.1 h
          by_cases hzero : budget = 0
          · exact .inr (.inl (hzero ▸ hbudget))
          · obtain ⟨request, hrequest⟩ := exceeded_of_output hbudget hzero
            exact .inl ⟨request, .inl hrequest⟩
      · cases h
      · cases h
      · cases h
    · rintro (⟨request, ⟨budget, h, -⟩ | ⟨budget, h, -⟩⟩ | h | h)
      · exact .inl ⟨.inr (h ▸ Option.some_ne_none budget), rfl⟩
      · exact .inl ⟨.inl (h ▸ Option.some_ne_none budget), rfl⟩
      · exact .inl ⟨.inr (h ▸ Option.some_ne_none 0), rfl⟩
      · exact .inl ⟨.inl (h ▸ Option.some_ne_none 0), rfl⟩
  hard h := by
    have hexhausted : entry.budgetExhausted = true := by
      rcases lists_constraints.1 h with ⟨-, h⟩ | ⟨-, h⟩ | ⟨-, h | ⟨hexhausted, -⟩⟩
      · cases h
      · cases h
      · cases h
      · exact hexhausted
    refine ⟨lists_constraints.2 (.inr (.inr ⟨limit_of_exhausted hexhausted, .inl rfl⟩)), ?_⟩
    intro request violations heval
    exact (reports_iff heval).2 (.inr (.inl ⟨rfl, budgetSpent_of_exhausted hexhausted⟩))

end AttributionIndexEntry

/-- **The answer for a key says what the interceptor will check**, whatever the index, local and
durable, holds: it describes the entry that the next lookup of the key serves, and a 404 means that
there is none. -/
theorem lookup_reports (s : AttributionIndexStore) (db : RedisDb) (key : String) :
    match s.indexLookup db key with
    | (s', none) => (s'.lookup db key).2 = none
    | (s', some response) => ∃ entry, (s'.lookup db key).2 = some entry ∧
        response = entry.lookupResponse key ∧ entry.Reported response.constraints := by
  have hagain := s.lookup_again db key
  rw [AttributionIndexStore.indexLookup]
  revert hagain
  rcases s.lookup db key with ⟨s', _ | entry⟩
  · exact id
  · intro hagain
    exact ⟨entry, hagain, rfl, entry.reported_constraints⟩

end ComputeIntelligence
