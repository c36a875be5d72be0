import ComputeIntelligence.DurableIndex
import ComputeIntelligence.ExceptRules
import ComputeIntelligence.Materializer
import Mathlib.Data.List.Dedup

/-! # Does a full rebuild agree with the incremental index?

There are two ways an entry gets into the index.  `_handle_inference` materializes one
result with the policy context of its target team; `full_rebuild` clears the store and
materializes a list of results with no context at all.  The constraints the hot path
enforces are read from the entry, so the two should build the same one.

What an index holds, version and times left out, is a function of the last result of
each workload (`rebuild_content`, `incremental_content`).  The two agree exactly when
the registry puts no constraint on the team of any workload's last result
(`fullRebuild_agrees_iff`): a backfill drops every allowlist, budget and ceiling.
-/
namespace ComputeIntelligence

/-- An entry without its version, its materialization time and its time bucket. -/
def AttributionIndexEntry.content (e : AttributionIndexEntry) : AttributionIndexEntry :=
  { e with version := 0, materializedAt := 0, timeBucket := "" }

/-- The entity a result attributes its workload to, empty without an explanation. -/
def AttributionResult.targetTeam (r : AttributionResult) : String :=
  (r.explanation.map ExplanationArtifact.targetEntity).getD ""

namespace AttributionProcessor

/-- The policy context that `_handle_inference` collects for a result. -/
def collectPolicyContext (engine : PolicyEngine) (result : AttributionResult) :
    Except PyExn PolicyContext :=
  let teamId := result.targetTeam
  if teamId = "" then .ok {}
  else do
    let budget ← engine.getBudgetContext teamId
    let allowlist ← engine.getModelAllowlist teamId
    let tokens ← engine.getTokenBudgets teamId
    let costCeiling ← engine.getCostCeiling teamId
    .ok { modelAllowlist := some allowlist
          budgetRemainingUsd := budget.map fun b => some b.budgetRemainingUsd
          budgetLimitUsd := budget.map fun b => some b.budgetLimitUsd
          tokenBudgetOutput := tokens.map TokenBudgets.tokenBudgetOutput
          tokenBudgetInput := tokens.map TokenBudgets.tokenBudgetInput
          costCeilingPerRequestUsd := costCeiling.map some }

/-- The results materialized one by one, each with the context collected for it.  Where
collecting raises, so does the handler, and the bus goes on to the next event. -/
def materializeOneByOne (config : ConfidenceConfig) (engine : PolicyEngine) :
    List AttributionResult → (Nat → Instant) → IndexState → IndexState
  | [], _, s => s
  | result :: results, clock, s =>
      let s' := match collectPolicyContext engine result with
        | .ok policies =>
            (IndexMaterializer.materializeAttribution config result policies clock s).2
        | .error _ => s
      materializeOneByOne config engine results (fun n => clock (n + 3)) s'

/-- The registry puts no constraint on the team of a result: no budget, no allowlist,
no token bound, no ceiling. -/
def Unconstrained (engine : PolicyEngine) (r : AttributionResult) : Prop :=
  r.targetTeam = "" ∨
    (engine.getBudgetContext r.targetTeam = .ok none ∧
      engine.getModelAllowlist r.targetTeam = .ok [] ∧
      (engine.getTokenBudgets r.targetTeam = .ok none ∨
        engine.getTokenBudgets r.targetTeam = .ok (some ⟨none, none⟩)) ∧
      engine.getCostCeiling r.targetTeam = .ok none)

end AttributionProcessor

namespace AttributionIndexStore

/-! ## Insertions that do not overflow -/

/-- The store after `materialize`, when no entry has to leave. -/
theorem materialize_of_fits {s : AttributionIndexStore} (db : RedisDb)
    (entry : AttributionIndexEntry) (now : Instant)
    (h : (s.index.setLast entry.workloadId (s.stamp entry now)).size ≤ s.settings.maxEntries) :
    (s.materialize db entry now).1.index =
        s.index.setLast entry.workloadId (s.stamp entry now) ∧
      (s.materialize db entry now).1.settings = s.settings := by
  unfold materialize
  dsimp only
  rw [insertLocalLocked_of_fits h]
  unfold writeDurableEntry
  split <;> exact ⟨rfl, rfl⟩

/-- Every key of the index is in `W`. -/
def Within (W : List String) (s : AttributionIndexStore) : Prop := ∀ w ∈ s.index.keys, w ∈ W

/-- Distinct keys out of `W`: at most as many as `W` has distinct elements. -/
theorem Within.size_le {W : List String} {s : AttributionIndexStore} (h : s.Within W) :
    s.index.size ≤ W.dedup.length := by
  have hsub : s.index.keys ⊆ W.dedup := fun w hw => List.mem_dedup.mpr (h w hw)
  have hlen := (List.subperm_of_subset s.index.nodup hsub).length_le
  simpa [PyDict.size, PyDict.keys] using hlen

end AttributionIndexStore

namespace IndexMaterializer
open AttributionIndexStore AttributionProcessor

/-- What a result leaves in the index with a context, version and times left out. -/
def served (config : ConfidenceConfig) (r : AttributionResult) (policies : PolicyContext) :
    Option AttributionIndexEntry :=
  (buildEntry config r fun _ => 0).toOption.map fun e => (applyPolicyContext e policies).content

/-- What an index holds for a workload, version and times left out. -/
def held (s : IndexState) (w : String) : Option AttributionIndexEntry :=
  (s.1.index.get? w).map AttributionIndexEntry.content

/-- The result has a confidence between 0 and 1. -/
def Scored (r : AttributionResult) : Prop := ∃ c : UnitScore, r.combinedConfidence = .finite c.1

theorem UnitScore.check_finite (c : UnitScore) : UnitScore.check (.finite c.1) = .ok c :=
  dif_pos c.2

/-- The entry of a scored result, whatever the clock reads. -/
theorem Scored.buildEntry {config : ConfidenceConfig} {r : AttributionResult} (h : Scored r)
    (clock : Nat → Instant) :
    ∃ e, IndexMaterializer.buildEntry config r clock = .ok e ∧
      e.workloadId = r.workloadId ∧ e.teamId = r.targetTeam ∧
      e.modelAllowlist = [] ∧ e.budgetRemainingUsd = none ∧ e.budgetLimitUsd = none ∧
      e.tokenBudgetOutput = none ∧ e.tokenBudgetInput = none ∧
      e.costCeilingPerRequestUsd = none ∧
      ∀ policies, served config r policies = some (applyPolicyContext e policies).content := by
  obtain ⟨c, hc⟩ := h
  have hcheck : UnitScore.check r.combinedConfidence = .ok c := by
    rw [hc]
    exact UnitScore.check_finite c
  unfold served IndexMaterializer.buildEntry
  simp only [hcheck]
  exact ⟨_, rfl, rfl, rfl, rfl, rfl, rfl, rfl, rfl, rfl, fun _ => rfl⟩

theorem applyPolicyContext_empty (e : AttributionIndexEntry) : applyPolicyContext e {} = e := rfl

/-- **What materializing a scored result does**: it hands the store the entry of the
result with its policies. -/
theorem Scored.materializeAttribution {config : ConfidenceConfig} {r : AttributionResult}
    (h : Scored r) (policies : PolicyContext) (clock : Nat → Instant) (s : IndexState) :
    ∃ entry : AttributionIndexEntry, entry.workloadId = r.workloadId ∧
      served config r policies = some entry.content ∧
      IndexMaterializer.materializeAttribution config r policies clock s =
        (.ok entry, s.1.materialize s.2 entry (clock 2)) := by
  obtain ⟨built, hbuilt, hid, -, -, -, -, -, -, -, hserved⟩ := h.buildEntry clock
  have hentry : (if policies = {} then built else applyPolicyContext built policies) =
      applyPolicyContext built policies := by
    split
    · rename_i hempty
      rw [hempty, applyPolicyContext_empty]
    · rfl
  refine ⟨applyPolicyContext built policies, hid, hserved policies, ?_⟩
  unfold IndexMaterializer.materializeAttribution
  rw [hbuilt, Eff.lift_ok_bind, hentry]
  rfl

/-- A result without a score is refused before the store is written. -/
theorem materializeAttribution_of_not_scored {config : ConfidenceConfig} {r : AttributionResult}
    (h : ¬ Scored r) (policies : PolicyContext) (clock : Nat → Instant) (s : IndexState) :
    served config r policies = none ∧
      (IndexMaterializer.materializeAttribution config r policies clock s).2 = s := by
  have hrefused : UnitScore.check r.combinedConfidence = .error .validationError := by
    cases hc : r.combinedConfidence with
    | finite q =>
      refine dif_neg fun hq => h ⟨⟨q, hq⟩, ?_⟩
      rw [hc]
    | posInf => rfl
    | negInf => rfl
    | nan => rfl
  have hbuilt : ∀ clock, IndexMaterializer.buildEntry config r clock = .error .validationError := by
    intro clock
    unfold IndexMaterializer.buildEntry
    rw [hrefused]
    rfl
  constructor
  · unfold served
    rw [hbuilt]
    rfl
  · unfold IndexMaterializer.materializeAttribution
    rw [hbuilt]
    rfl

/-- **What one materialization does** to a store that has room for every workload of
`W`: the workload of the result gets its new entry, every other keeps its own. -/
theorem materializeAttribution_spec {W : List String} {config : ConfidenceConfig} {s : IndexState}
    (hcap : W.dedup.length ≤ s.1.settings.maxEntries) (hs : s.1.Within W) {r : AttributionResult}
    (hr : Scored r) (hmem : r.workloadId ∈ W) (policies : PolicyContext)
    (clock : Nat → Instant) :
    ∃ e s', materializeAttribution config r policies clock s = (.ok e, s') ∧
      s'.1.settings = s.1.settings ∧ s'.1.Within W ∧
      ∀ w, held s' w = if w = r.workloadId then served config r policies else held s w := by
  obtain ⟨entry, hw, hserved, hrun⟩ := hr.materializeAttribution policies clock s
  -- the keys after the insertion are again within `W`, so nothing overflows
  let next : AttributionIndexStore := { s.1 with
    index := s.1.index.setLast entry.workloadId (s.1.stamp entry (clock 2)) }
  have hnext : next.Within W := by
    intro w hkey
    have hget : next.index.get? w ≠ none := fun h => PyDict.get?_eq_none_iff.mp h hkey
    rw [PyDict.get?_setLast] at hget
    by_cases heq : w = entry.workloadId
    · rw [heq, hw]
      exact hmem
    · rw [if_neg heq] at hget
      by_contra hnot
      exact hget (PyDict.get?_eq_none_iff.mpr fun h => hnot (hs w h))
  have hfits := materialize_of_fits s.2 entry (clock 2) (le_trans hnext.size_le hcap)
  refine ⟨entry, s.1.materialize s.2 entry (clock 2), hrun, hfits.2, ?_, ?_⟩
  · intro w hkey
    rw [hfits.1] at hkey
    exact hnext w hkey
  · intro w
    unfold held
    rw [hfits.1, PyDict.get?_setLast, hw]
    split
    · rw [hserved]
      rfl
    · rfl

/-! ## Runs over a list of results -/

/-- The last result of a workload. -/
def lastFor (w : String) : List AttributionResult → Option AttributionResult
  | [] => none
  | r :: rs => (lastFor w rs).or (if r.workloadId = w then some r else none)

theorem lastFor_mem {w : String} {rs : List AttributionResult} {r : AttributionResult}
    (h : lastFor w rs = some r) : r ∈ rs ∧ r.workloadId = w := by
  induction rs with
  | nil => cases h
  | cons a rs ih =>
    rw [lastFor, Option.or_eq_some_iff] at h
    rcases h with h | ⟨-, h⟩
    · exact ⟨List.mem_cons_of_mem _ (ih h).1, (ih h).2⟩
    · split at h
      · rename_i ha
        cases h
        exact ⟨List.mem_cons_self, ha⟩
      · cases h

theorem lastFor_eq_none {w : String} {rs : List AttributionResult} :
    lastFor w rs = none ↔ ∀ r ∈ rs, r.workloadId ≠ w := by
  induction rs with
  | nil => simp [lastFor]
  | cons a rs ih => simp [lastFor, Option.or_eq_none_iff, ih, and_comm]

/-- The last result of a workload, if it passes a filter, is the last one that does. -/
theorem lastFor_filter {w : String} {rs : List AttributionResult} {r : AttributionResult}
    (h : lastFor w rs = some r) {p : AttributionResult → Bool} (hp : p r = true) :
    lastFor w (rs.filter p) = some r := by
  induction rs with
  | nil => cases h
  | cons a rs ih =>
    rw [lastFor, Option.or_eq_some_iff] at h
    rcases h with h | ⟨hnone, h⟩
    · by_cases ha : p a = true
      · rw [List.filter_cons_of_pos ha, lastFor, ih h]
        rfl
      · rw [List.filter_cons_of_neg ha]
        exact ih h
    · split at h
      · rename_i ha
        cases h
        have hrest : lastFor w (rs.filter p) = none :=
          lastFor_eq_none.mpr fun r hr => lastFor_eq_none.mp hnone r (List.mem_filter.mp hr).1
        rw [List.filter_cons_of_pos hp, lastFor, hrest, if_pos ha]
        rfl
      · cases h

variable {W : List String} {config : ConfidenceConfig} {engine : PolicyEngine}

/-- **What `full_rebuild`'s loop leaves**: the last result of each workload, with no
policy; a workload without a result keeps what it had. -/
theorem rebuildLoop_content {results : List AttributionResult} (hr : ∀ r ∈ results, Scored r)
    (hW : ∀ r ∈ results, r.workloadId ∈ W) (count : Nat) (clock : Nat → Instant) {s : IndexState}
    (hcap : W.dedup.length ≤ s.1.settings.maxEntries) (hs : s.1.Within W) :
    ∃ s', rebuildLoop config results count clock s = (.ok (count + results.length), s') ∧
      ∀ w, held s' w = match lastFor w results with
        | some r => served config r {}
        | none => held s w := by
  induction results generalizing count clock s with
  | nil => exact ⟨s, rfl, fun _ => rfl⟩
  | cons r results ih =>
    obtain ⟨e, s₁, hrun, hset, hwithin, hheld⟩ := materializeAttribution_spec
      hcap hs (hr r List.mem_cons_self) (hW r List.mem_cons_self) {} clock
    obtain ⟨s', hloop, hrest⟩ := ih (fun r h => hr r (List.mem_cons_of_mem _ h))
      (fun r h => hW r (List.mem_cons_of_mem _ h)) (count + 1) (fun n => clock (n + 3))
      (hset ▸ hcap) hwithin
    refine ⟨s', ?_, fun w => ?_⟩
    · have hstep : rebuildLoop config (r :: results) count clock s =
          rebuildLoop config results (count + 1) (fun n => clock (n + 3)) s₁ := by
        rw [rebuildLoop, Eff.bind_of_ok hrun]
      rw [hstep, hloop, List.length_cons]
      congr 2
      omega
    · rw [hrest w, lastFor, hheld w]
      cases lastFor w results with
      | some r' => rfl
      | none =>
        by_cases hw : r.workloadId = w
        · simp [hw]
        · simp [hw, Ne.symm hw]

/-- The results whose policy context can be collected. -/
def collectable (engine : PolicyEngine) (results : List AttributionResult) :
    List AttributionResult :=
  results.filter fun r => (collectPolicyContext engine r).toOption.isSome

theorem lastFor_collectable {w : String} {results : List AttributionResult}
    {r : AttributionResult} (h : lastFor w results = some r)
    (hr : (collectPolicyContext engine r).toOption.isSome = true) :
    lastFor w (collectable engine results) = some r :=
  lastFor_filter h hr

/-- What a result leaves in the index with the context collected for it. -/
def servedWithPolicies (config : ConfidenceConfig) (engine : PolicyEngine)
    (r : AttributionResult) : Option AttributionIndexEntry :=
  (collectPolicyContext engine r).toOption.bind (served config r)

/-- **What materializing one by one leaves**: the last collectable result of each
workload, with the context of its team. -/
theorem oneByOne_content {results : List AttributionResult} (hr : ∀ r ∈ results, Scored r)
    (hW : ∀ r ∈ results, r.workloadId ∈ W) (clock : Nat → Instant) {s : IndexState}
    (hcap : W.dedup.length ≤ s.1.settings.maxEntries) (hs : s.1.Within W) (w : String) :
    held (materializeOneByOne config engine results clock s) w =
      match lastFor w (collectable engine results) with
      | some r => servedWithPolicies config engine r
      | none => held s w := by
  induction results generalizing clock s with
  | nil => rfl
  | cons r results ih =>
    have ih' := fun (clock : Nat → Instant) {s : IndexState} => ih (s := s)
      (fun r h => hr r (List.mem_cons_of_mem _ h)) (fun r h => hW r (List.mem_cons_of_mem _ h)) clock
    rw [materializeOneByOne]
    cases hctx : collectPolicyContext engine r with
    | error e =>
      have hskip : collectable engine (r :: results) = collectable engine results := by
        unfold collectable
        rw [List.filter_cons_of_neg (by rw [hctx]; simp [Except.toOption])]
      rw [hskip]
      exact ih' _ hcap hs
    | ok policies =>
      obtain ⟨e, s₁, hrun, hset, hwithin, hheld⟩ := materializeAttribution_spec
        hcap hs (hr r List.mem_cons_self) (hW r List.mem_cons_self) policies clock
      have hkeep : collectable engine (r :: results) = r :: collectable engine results := by
        unfold collectable
        rw [List.filter_cons_of_pos (by rw [hctx]; simp [Except.toOption])]
      rw [hkeep, lastFor]
      dsimp only
      rw [hrun, ih' _ (hset ▸ hcap) hwithin, hheld w]
      cases lastFor w (collectable engine results) with
      | some r' => rfl
      | none =>
        by_cases hw : r.workloadId = w
        · simp [hw, servedWithPolicies, hctx, Except.toOption]
        · simp [hw, Ne.symm hw]

/-! ## Agreement -/

/-- The context of a result depends on its target team only. -/
theorem collectPolicyContext_congr {r r' : AttributionResult}
    (h : r.targetTeam = r'.targetTeam) :
    collectPolicyContext engine r = collectPolicyContext engine r' := by
  unfold collectPolicyContext
  rw [h]

/-- An unconstrained team has a context, and the context changes nothing. -/
theorem servedWithPolicies_of_unconstrained {r : AttributionResult} (hr : Scored r)
    (h : Unconstrained engine r) :
    (collectPolicyContext engine r).toOption.isSome = true ∧
      servedWithPolicies config engine r = served config r {} := by
  obtain ⟨e, -, -, -, hallow, hrem, hlim, hout, hin, hceil, hserved⟩ :=
    hr.buildEntry fun _ => 0
  have hsame : ∀ policies, collectPolicyContext engine r = .ok policies →
      applyPolicyContext e policies = e →
      (collectPolicyContext engine r).toOption.isSome = true ∧
        servedWithPolicies config engine r = served config r {} := by
    intro policies hctx happly
    unfold servedWithPolicies
    rw [hctx]
    refine ⟨rfl, ?_⟩
    show served config r policies = served config r {}
    rw [hserved, hserved, happly, applyPolicyContext_empty]
  rcases h with hempty | ⟨hbudget, hlist, htokens, hcost⟩
  · refine hsame {} ?_ (applyPolicyContext_empty e)
    unfold collectPolicyContext
    rw [if_pos hempty]
  · by_cases hempty : r.targetTeam = ""
    · refine hsame {} ?_ (applyPolicyContext_empty e)
      unfold collectPolicyContext
      rw [if_pos hempty]
    · have happly : ∀ tokens : Option TokenBudgets,
          (tokens = none ∨ tokens = some ⟨none, none⟩) →
          engine.getTokenBudgets r.targetTeam = .ok tokens →
          (collectPolicyContext engine r).toOption.isSome = true ∧
            servedWithPolicies config engine r = served config r {} := by
        intro tokens hnone hget
        refine hsame
          { modelAllowlist := some []
            tokenBudgetOutput := tokens.map TokenBudgets.tokenBudgetOutput
            tokenBudgetInput := tokens.map TokenBudgets.tokenBudgetInput } ?_ ?_
        · unfold collectPolicyContext
          rw [if_neg hempty, hbudget, hlist, hget, hcost]
          rfl
        · cases e
          rcases hnone with rfl | rfl <;> simp_all [applyPolicyContext]
      rcases htokens with hget | hget
      · exact happly none (.inl rfl) hget
      · exact happly _ (.inr rfl) hget

/-- A context that changes nothing is the context of an unconstrained team. -/
theorem unconstrained_of_served {r : AttributionResult} (hr : Scored r) {policies : PolicyContext}
    (hctx : collectPolicyContext engine r = .ok policies)
    (h : served config r policies = served config r {}) : Unconstrained engine r := by
  obtain ⟨e, -, -, -, hallow, hrem, hlim, hout, hin, hceil, hserved⟩ :=
    hr.buildEntry fun _ => 0
  rw [hserved, hserved, applyPolicyContext_empty, Option.some.injEq] at h
  by_cases hempty : r.targetTeam = ""
  · exact .inl hempty
  unfold collectPolicyContext at hctx
  rw [if_neg hempty] at hctx
  obtain ⟨budget, hbudget, hctx⟩ := Except.bind_eq_ok hctx
  obtain ⟨allowlist, hlist, hctx⟩ := Except.bind_eq_ok hctx
  obtain ⟨tokens, htokens, hctx⟩ := Except.bind_eq_ok hctx
  obtain ⟨ceiling, hcost, hctx⟩ := Except.bind_eq_ok hctx
  cases hctx
  -- the fields of the two entries, one by one
  have hallow' := congrArg AttributionIndexEntry.modelAllowlist h
  have hlim' := congrArg AttributionIndexEntry.budgetLimitUsd h
  have hout' := congrArg AttributionIndexEntry.tokenBudgetOutput h
  have hin' := congrArg AttributionIndexEntry.tokenBudgetInput h
  have hceil' := congrArg AttributionIndexEntry.costCeilingPerRequestUsd h
  simp only [AttributionIndexEntry.content, applyPolicyContext, hallow, hlim, hout, hin, hceil,
    Option.getD_some] at hallow' hlim' hout' hin' hceil'
  refine .inr ⟨?_, ?_, ?_, ?_⟩
  · cases budget with
    | none => exact hbudget
    | some b => cases hlim'
  · rw [hlist, hallow']
  · cases tokens with
    | none => exact .inl htokens
    | some t =>
      obtain ⟨output, input⟩ := t
      refine .inr (htokens.trans ?_)
      simp only [Option.map_some, Option.getD_some] at hout' hin'
      rw [hout', hin']
  · cases ceiling with
    | none => exact hcost
    | some c => cases hceil'

/-- An entry tells the team it was built for. -/
theorem served_teamId {r : AttributionResult} (hr : Scored r) {policies : PolicyContext} :
    (served config r policies).map AttributionIndexEntry.teamId = some r.targetTeam := by
  obtain ⟨e, -, -, hteam, -, -, -, -, -, -, hserved⟩ := hr.buildEntry fun _ => 0
  rw [hserved]
  exact congrArg some hteam

/-- **A full rebuild holds the same entries as materializing one by one exactly when
no workload's last result is for a team under a policy.**  A rebuild passes no policy
context on, so every allowlist, budget, token bound and ceiling is lost; version and
times apart, nothing else differs. -/
theorem fullRebuild_agrees_iff (config : ConfidenceConfig) (engine : PolicyEngine)
    (results : List AttributionResult) (s : IndexState) (clock clock' : Nat → Instant)
    (hr : ∀ r ∈ results, Scored r)
    (hcap : (results.map AttributionResult.workloadId).dedup.length ≤ s.1.settings.maxEntries) :
    (∀ w, held (fullRebuild config results clock s).2 w =
        held (materializeOneByOne config engine results clock'
          ({ settings := s.1.settings }, PyDict.empty)) w) ↔
      ∀ w r, lastFor w results = some r → Unconstrained engine r := by
  have hW : ∀ r ∈ results, r.workloadId ∈ results.map AttributionResult.workloadId :=
    fun r h => List.mem_map.mpr ⟨r, h, rfl⟩
  have hrebuilt : ∀ w, held (fullRebuild config results clock s).2 w =
      match lastFor w results with
      | some r => served config r {}
      | none => none := by
    obtain ⟨s', hloop, hheld⟩ := rebuildLoop_content hr hW 0 clock
      (s := s.1.clear s.2) hcap (fun _ h => absurd h (by simp [clear, PyDict.keys, PyDict.empty]))
    intro w
    have hrun : fullRebuild config results clock s = rebuildLoop config results 0 clock
        (s.1.clear s.2) := rfl
    rw [hrun, hloop]
    exact hheld w
  have hone : ∀ w, held (materializeOneByOne config engine results clock'
      ({ settings := s.1.settings }, PyDict.empty)) w =
      match lastFor w (collectable engine results) with
      | some r => servedWithPolicies config engine r
      | none => none :=
    oneByOne_content (s := ({ settings := s.1.settings }, PyDict.empty)) hr hW clock' hcap
      (fun _ h => absurd h (by simp [PyDict.keys, PyDict.empty]))
  simp only [hrebuilt, hone]
  constructor
  · intro hagree w r hlast
    obtain ⟨hmem, -⟩ := lastFor_mem hlast
    have hw := hagree w
    rw [hlast] at hw
    dsimp only at hw
    cases hctx : collectPolicyContext engine r with
    | ok policies =>
      rw [lastFor_collectable hlast (by rw [hctx]; rfl)] at hw
      have hsame : served config r policies = served config r {} := by
        simp only [servedWithPolicies, hctx] at hw
        exact hw.symm
      exact unconstrained_of_served (hr r hmem) hctx hsame
    | error e =>
      -- the entry left by an earlier result would name the same team, whose context raises
      have hteam : (served config r {}).map AttributionIndexEntry.teamId = some r.targetTeam :=
        served_teamId (hr r hmem)
      rw [hw] at hteam
      cases hbefore : lastFor w (collectable engine results) with
      | none => rw [hbefore] at hteam; cases hteam
      | some r' =>
        obtain ⟨hmem', -⟩ := lastFor_mem hbefore
        obtain ⟨hres', hok⟩ := List.mem_filter.mp hmem'
        cases hctx' : collectPolicyContext engine r' with
        | error e => rw [hctx'] at hok; cases hok
        | ok policies =>
          rw [hbefore] at hteam
          simp only [servedWithPolicies, hctx', Except.toOption, Option.bind_some] at hteam
          rw [served_teamId (hr r' hres'), Option.some.injEq] at hteam
          rw [collectPolicyContext_congr hteam, hctx] at hctx'
          cases hctx'
  · intro hfree w
    cases hlast : lastFor w results with
    | none =>
      have hnone : lastFor w (collectable engine results) = none :=
        lastFor_eq_none.mpr fun r h => lastFor_eq_none.mp hlast r (List.mem_filter.mp h).1
      rw [hnone]
    | some r =>
      obtain ⟨hok, hserved⟩ := servedWithPolicies_of_unconstrained
        (hr r (lastFor_mem hlast).1) (hfree w r hlast)
      rw [lastFor_collectable hlast hok]
      exact hserved.symm

/-- A result for a service of `team-a`. -/
def checkoutResult : AttributionResult :=
  { workloadId := "checkout", combinedConfidence := .finite 1,
    explanation := some ⟨"team-a", "R1"⟩ }

theorem checkoutResult_scored : Scored checkoutResult := ⟨fullScore, rfl⟩

/-- A registry with one global allowlist. -/
def allowlistEngine : PolicyEngine :=
  PolicyEngine.registerPolicy {}
    { policyId := "allow", policyType := .modelAllowlist, scope := "global",
      parameters := PyDict.ofList [("allowed_models", .list [.str "gpt-4o-mini"])] }

/-- With no policy registered, the two agree on the one result. -/
theorem fullRebuild_agrees_without_policies :
    held (fullRebuild {} [checkoutResult] (fun _ => 0) ({}, PyDict.empty)).2 "checkout" =
      held (materializeOneByOne {} {} [checkoutResult] (fun _ => 0) ({}, PyDict.empty))
        "checkout" := by
  refine (fullRebuild_agrees_iff {} {} [checkoutResult] ({}, PyDict.empty) _ _ ?_ (by decide)).mpr
    ?_ "checkout"
  · intro r hr
    rw [List.mem_singleton.mp hr]
    exact checkoutResult_scored
  · intro w r _
    exact .inr ⟨rfl, rfl, .inl rfl, rfl⟩

/-- A backfill drops the global allowlist from the entry. -/
theorem fullRebuild_drops_allowlist :
    ¬ ∀ (config : ConfidenceConfig) (engine : PolicyEngine) (results : List AttributionResult)
        (s : IndexState) (clock clock' : Nat → Instant),
      (∀ r ∈ results, Scored r) →
      (results.map AttributionResult.workloadId).dedup.length ≤ s.1.settings.maxEntries →
      ∀ w, held (fullRebuild config results clock s).2 w =
        held (materializeOneByOne config engine results clock'
          ({ settings := s.1.settings }, PyDict.empty)) w := by
  intro h
  have hscored : ∀ r ∈ [checkoutResult], Scored r := by
    intro r hr
    rw [List.mem_singleton.mp hr]
    exact checkoutResult_scored
  have hw := h {} allowlistEngine [checkoutResult] ({}, PyDict.empty) (fun _ => 0) (fun _ => 0)
    hscored (by decide) "checkout"
  have hlists := congrArg (Option.map AttributionIndexEntry.modelAllowlist) hw
  have hempty : (held (fullRebuild {} [checkoutResult] (fun _ => 0) ({}, PyDict.empty)).2
      "checkout").map AttributionIndexEntry.modelAllowlist = some [] := by decide
  have hkept : (held (materializeOneByOne {} allowlistEngine [checkoutResult] (fun _ => 0)
      ({}, PyDict.empty)) "checkout").map AttributionIndexEntry.modelAllowlist =
      some ["gpt-4o-mini"] := by decide
  rw [hempty, hkept] at hlists
  cases hlists

end IndexMaterializer
end ComputeIntelligence
