import ComputeIntelligence.Grouping
import ComputeIntelligence.IsoTime
import ComputeIntelligence.StableSort
import Mathlib.Algebra.BigOperators.Group.List.Basic
import Mathlib.Algebra.Order.Group.Unbundled.Abs
import Mathlib.Tactic.Linarith

/-! # The cost ledger

`ReconciliationLedger` (`finops/reconciliation.py`) keeps an estimated cost for each request and,
once it is billed, the billed one; `finops_drift` (`api/app.py`) summarizes it by provider or by
service, in exact arithmetic.

The drift of a record is what was billed less what was estimated, and a record that awaits billing
has none.  The summary of a group takes the billed total of the records that are billed and the
estimated total of all of them, so it is off by the estimates that await billing
(`reconciled_sub_synthetic`); it agrees with the records exactly when these come to nothing or to
twice the drift (`drift_agrees_iff`).
-/
namespace ComputeIntelligence
open StableSort Grouping

/-! ### Records -/

/-- A request's estimated and billed cost. -/
structure CostRecord where
  requestId : String
  serviceName : String
  provider : String
  model : String
  syntheticCostUsd : ℚ
  syntheticRecordedAt : PyDateTime
  reconciledCostUsd : Option ℚ := none
  reconciledRecordedAt : Option PyDateTime := none
  reconciliationSource : String := ""
deriving DecidableEq

namespace CostRecord

def isReconciled (r : CostRecord) : Bool := r.reconciledCostUsd.isSome

def driftUsd (r : CostRecord) : Option ℚ := r.reconciledCostUsd.map (· - r.syntheticCostUsd)

end CostRecord

/-- What the ledger raises. -/
inductive LedgerError where
  | notFound (requestId : String)
  | groupBy
  | dateOverflow
deriving DecidableEq

/-- The text of the exception. -/
def LedgerError.message : LedgerError → String
  | .notFound requestId =>
      "request_id=" ++ PyVal.quote requestId ++ " not found in synthetic ledger"
  | .groupBy => "group_by must be one of \x7b'provider', 'service'\x7d"
  | .dateOverflow => "date value out of range"

/-- `_aware(recorded_at) if recorded_at else datetime.now(UTC)`. -/
def recordedTime (recordedAt : Option PyDateTime) (now : Instant) :
    Except LedgerError PyDateTime :=
  match recordedAt with
  | some t => t.aware.mapError fun _ => .dateOverflow
  | none => .ok ⟨now, some 0⟩

/-- A group of records. -/
structure CostDriftSummary where
  group : String
  totalRecords : Nat
  reconciledRecords : Nat
  unresolvedRecords : Nat
  syntheticCostUsd : ℚ
  reconciledCostUsd : ℚ
  absoluteDriftUsd : ℚ
  driftPct : ℚ
deriving DecidableEq

/-- The records, by request, in the order in which the requests came. -/
structure ReconciliationLedger where
  records : PyDict String CostRecord := PyDict.empty

namespace ReconciliationLedger

/-- `upsert_synthetic`; an update keeps what was billed. -/
def upsertSynthetic (ledger : ReconciliationLedger) (requestId serviceName provider model : String)
    (syntheticCostUsd : ℚ) (recordedAt : Option PyDateTime) (now : Instant) :
    Except LedgerError (CostRecord × ReconciliationLedger) := do
  let timestamp ← recordedTime recordedAt now
  let estimated (current : CostRecord) : CostRecord :=
    { current with
      serviceName := PyText.strip serviceName
      provider := PyText.lower (PyText.strip provider)
      model := PyText.strip model
      syntheticCostUsd
      syntheticRecordedAt := timestamp }
  let record := match ledger.records.get? requestId with
    | some current => estimated current
    | none => {
        requestId
        serviceName := PyText.strip serviceName
        provider := PyText.lower (PyText.strip provider)
        model := PyText.strip model
        syntheticCostUsd
        syntheticRecordedAt := timestamp }
  return (record, ⟨ledger.records.set requestId record⟩)

/-- `reconcile`. -/
def reconcile (ledger : ReconciliationLedger) (requestId : String) (reconciledCostUsd : ℚ)
    (source : String) (recordedAt : Option PyDateTime) (now : Instant) :
    Except LedgerError (CostRecord × ReconciliationLedger) := do
  let timestamp ← recordedTime recordedAt now
  match ledger.records.get? requestId with
  | none => throw (.notFound requestId)
  | some current =>
      let record := { current with
        reconciledCostUsd := some reconciledCostUsd
        reconciledRecordedAt := some timestamp
        reconciliationSource := PyText.strip source }
      return (record, ⟨ledger.records.set requestId record⟩)

/-- `list_records`. -/
def listRecords (ledger : ReconciliationLedger) : List CostRecord :=
  ledger.records.items.map Prod.snd

/-- One summary of the loop of `summarize_drift`. -/
def summaryOf (group : String) (items : List CostRecord) : CostDriftSummary :=
  let reconciled := items.filter CostRecord.isReconciled
  let synthTotal := (items.map (·.syntheticCostUsd)).sum
  let reconciledTotal := (reconciled.map fun item => item.reconciledCostUsd.getD 0).sum
  { group
    totalRecords := items.length
    reconciledRecords := reconciled.length
    unresolvedRecords := items.length - reconciled.length
    syntheticCostUsd := synthTotal
    reconciledCostUsd := reconciledTotal
    absoluteDriftUsd := |reconciledTotal - synthTotal|
    driftPct := if 0 < synthTotal then (reconciledTotal - synthTotal) / synthTotal * 100 else 0 }

/-- `summarize_drift`: the largest drift first. -/
def summarizeDrift (ledger : ReconciliationLedger) (group_by : String) :
    Except LedgerError (List CostDriftSummary) :=
  if group_by ∉ ["provider", "service"] then .error .groupBy
  else
    let buckets := groupBy
      (fun record => if group_by = "provider" then record.provider else record.serviceName)
      ledger.listRecords
    let summaries := buckets.items.map fun bucket => summaryOf bucket.1 bucket.2
    .ok (sortBy (fun summary => OrderDual.toDual summary.absoluteDriftUsd) summaries)

end ReconciliationLedger

/-! ### The endpoint -/

inductive DriftWindow where
  | daily | weekly
deriving DecidableEq

/-- A row of the answer. -/
structure DriftSummaryResponse extends CostDriftSummary where
  window : DriftWindow
  thresholdPct : ℚ
  investigationRequired : Bool
  dashboardAnnotation : String
deriving DecidableEq

/-- The threshold of a window. -/
def thresholdOf (window : DriftWindow) (dailyThresholdPct weeklyThresholdPct : ℚ) : ℚ :=
  if window = .daily then dailyThresholdPct else weeklyThresholdPct

/-- The row of a summary. -/
def driftResponse (window : DriftWindow) (thresholdPct : ℚ) (summary : CostDriftSummary) :
    DriftSummaryResponse :=
  { summary with
    window
    thresholdPct
    investigationRequired := thresholdPct < |summary.driftPct|
    dashboardAnnotation :=
      if thresholdPct < |summary.driftPct| then "unreconciled" else "reconciled" }

/-- `finops_drift`; an error is answered with status 422. -/
def finopsDrift (ledger : ReconciliationLedger) (group_by : String := "provider")
    (window : DriftWindow := .daily) (dailyThresholdPct : ℚ := 3) (weeklyThresholdPct : ℚ := 5) :
    Except LedgerError (List DriftSummaryResponse) := do
  let summaries ← ledger.summarizeDrift group_by
  return summaries.map
    (driftResponse window (thresholdOf window dailyThresholdPct weeklyThresholdPct))

/-! ### Runs -/

/-- A call of the ledger, at the instant `now`. -/
inductive LedgerCall where
  | upsertSynthetic (requestId serviceName provider model : String) (syntheticCostUsd : ℚ)
      (recordedAt : Option PyDateTime) (now : Instant)
  | reconcile (requestId : String) (reconciledCostUsd : ℚ) (source : String)
      (recordedAt : Option PyDateTime) (now : Instant)

namespace ReconciliationLedger

/-- One call; one that raises leaves the ledger as it was. -/
def step (ledger : ReconciliationLedger) : LedgerCall → ReconciliationLedger
  | .upsertSynthetic requestId serviceName provider model cost recordedAt now =>
      ((ledger.upsertSynthetic requestId serviceName provider model cost recordedAt now).map
        Prod.snd).toOption.getD ledger
  | .reconcile requestId cost source recordedAt now =>
      ((ledger.reconcile requestId cost source recordedAt now).map Prod.snd).toOption.getD ledger

/-- The ledger after a list of calls. -/
def after (calls : List LedgerCall) : ReconciliationLedger := calls.foldl step {}

end ReconciliationLedger

/-! ### Drift -/

/-- What records are grouped by. -/
inductive DriftGrouping where
  | provider | service
deriving DecidableEq

namespace DriftGrouping

def text : DriftGrouping → String
  | .provider => "provider"
  | .service => "service"

def key : DriftGrouping → CostRecord → String
  | .provider => CostRecord.provider
  | .service => CostRecord.serviceName

end DriftGrouping

/-- The drift of the records that are billed. -/
def recordedDrift (items : List CostRecord) : ℚ := (items.filterMap CostRecord.driftUsd).sum

/-- The estimates of the records that await billing. -/
def pendingUsd (items : List CostRecord) : ℚ :=
  ((items.filter fun r => !r.isReconciled).map (·.syntheticCostUsd)).sum

/-- Every record that is billed was billed as estimated. -/
def Settled (items : List CostRecord) : Prop :=
  ∀ r ∈ items, r.isReconciled → r.reconciledCostUsd = some r.syntheticCostUsd

instance (items : List CostRecord) : Decidable (Settled items) :=
  inferInstanceAs (Decidable (∀ r ∈ items, r.isReconciled →
    r.reconciledCostUsd = some r.syntheticCostUsd))

/-- The estimates that await billing come to nothing, or to twice the drift. -/
def Balanced (items : List CostRecord) : Prop :=
  pendingUsd items = 0 ∨ pendingUsd items = 2 * recordedDrift items

/-- The rows partition the records, each has the drift of its records, and a group that is billed
as estimated has none and is not flagged. -/
structure DriftAgrees (key : CostRecord → String) (records : List CostRecord)
    (rows : List DriftSummaryResponse) : Prop where
  names : (rows.map (·.group)).Nodup
  covers : ∀ g, g ∈ rows.map (·.group) ↔ ∃ r ∈ records, key r = g
  counts : ∀ row ∈ rows, row.totalRecords = (members key records row.group).length ∧
    row.reconciledRecords + row.unresolvedRecords = row.totalRecords
  drift : ∀ row ∈ rows, row.absoluteDriftUsd = |recordedDrift (members key records row.group)|
  settled : ∀ row ∈ rows, Settled (members key records row.group) →
    row.absoluteDriftUsd = 0 ∧ row.investigationRequired = false

/-- The billed total less the estimated one is the drift less what awaits billing. -/
theorem reconciled_sub_synthetic (items : List CostRecord) :
    ((items.filter CostRecord.isReconciled).map fun item => item.reconciledCostUsd.getD 0).sum -
        (items.map (·.syntheticCostUsd)).sum =
      recordedDrift items - pendingUsd items := by
  induction items with
  | nil => rfl
  | cons item items ih =>
    unfold recordedDrift pendingUsd at ih ⊢
    cases hbilled : item.reconciledCostUsd with
    | none =>
      have hpending : item.isReconciled = false := by rw [CostRecord.isReconciled, hbilled]; rfl
      have hdrift : item.driftUsd = none := by rw [CostRecord.driftUsd, hbilled]; rfl
      rw [List.filter_cons_of_neg (by simp [hpending]), List.filterMap_cons_none hdrift,
        List.filter_cons_of_pos (by simp [hpending]), List.map_cons, List.map_cons, List.sum_cons,
        List.sum_cons]
      linarith
    | some billed =>
      have hreconciled : item.isReconciled = true := by rw [CostRecord.isReconciled, hbilled]; rfl
      have hdrift : item.driftUsd = some (billed - item.syntheticCostUsd) := by
        rw [CostRecord.driftUsd, hbilled]; rfl
      rw [List.filter_cons_of_pos hreconciled, List.filterMap_cons_some hdrift,
        List.filter_cons_of_neg (by simp [hreconciled]), List.map_cons, List.map_cons,
        List.sum_cons, List.sum_cons, List.sum_cons, hbilled, Option.getD_some]
      linarith

/-- The drift of a summary, and when it is that of the records. -/
theorem absoluteDriftUsd_summaryOf (group : String) (items : List CostRecord) :
    (ReconciliationLedger.summaryOf group items).absoluteDriftUsd =
      |recordedDrift items - pendingUsd items| :=
  congrArg abs (reconciled_sub_synthetic items)

theorem summary_drift_iff (group : String) (items : List CostRecord) :
    (ReconciliationLedger.summaryOf group items).absoluteDriftUsd = |recordedDrift items| ↔
      Balanced items := by
  rw [absoluteDriftUsd_summaryOf, abs_eq_abs]
  unfold Balanced
  constructor
  · rintro (h | h)
    · exact .inl (by linarith)
    · exact .inr (by linarith)
  · rintro (h | h)
    · exact .inl (by linarith)
    · exact .inr (by linarith)

/-- Records that were billed as estimated have no drift. -/
theorem Settled.recordedDrift_eq_zero {items : List CostRecord} (h : Settled items) :
    recordedDrift items = 0 := by
  apply List.sum_eq_zero
  intro x hx
  obtain ⟨r, hr, hdrift⟩ := List.mem_filterMap.1 hx
  cases hbilled : r.reconciledCostUsd with
  | none =>
    rw [CostRecord.driftUsd, hbilled] at hdrift
    cases hdrift
  | some billed =>
    have hsettled := h r hr (by rw [CostRecord.isReconciled, hbilled]; rfl)
    rw [CostRecord.driftUsd, hsettled, Option.map_some, sub_self] at hdrift
    exact (Option.some.inj hdrift).symm

/-- A balanced group that was billed as estimated is not flagged, unless the threshold is
negative. -/
theorem settled_row_iff {items : List CostRecord} (hsettled : Settled items)
    (hbalanced : Balanced items) (group : String) (window : DriftWindow) (thresholdPct : ℚ) :
    ((driftResponse window thresholdPct
          (ReconciliationLedger.summaryOf group items)).absoluteDriftUsd = 0 ∧
        (driftResponse window thresholdPct
          (ReconciliationLedger.summaryOf group items)).investigationRequired = false) ↔
      0 ≤ thresholdPct := by
  have hdrift : recordedDrift items - pendingUsd items = 0 := by
    obtain h | h := hbalanced <;> rw [hsettled.recordedDrift_eq_zero] at * <;> linarith
  have hpct : (ReconciliationLedger.summaryOf group items).driftPct = 0 := by
    unfold ReconciliationLedger.summaryOf
    dsimp only
    rw [reconciled_sub_synthetic, hdrift, zero_div, zero_mul, ite_self]
  have habs : (ReconciliationLedger.summaryOf group items).absoluteDriftUsd = 0 := by
    rw [absoluteDriftUsd_summaryOf, hdrift, abs_zero]
  unfold driftResponse
  dsimp only
  rw [hpct, abs_zero, decide_eq_false_iff_not, not_lt]
  exact and_iff_right habs

/-! ### The rows -/

/-- The answer for a grouping: a row for each group, in the order of their drifts. -/
theorem finopsDrift_rows (ledger : ReconciliationLedger) (grouping : DriftGrouping)
    (window : DriftWindow) (dailyThresholdPct weeklyThresholdPct : ℚ) :
    ∃ summaries : List CostDriftSummary,
      summaries.Perm ((groupBy grouping.key ledger.listRecords).items.map
        fun bucket => ReconciliationLedger.summaryOf bucket.1 bucket.2) ∧
      finopsDrift ledger grouping.text window dailyThresholdPct weeklyThresholdPct =
        .ok (summaries.map
          (driftResponse window (thresholdOf window dailyThresholdPct weeklyThresholdPct))) := by
  cases grouping with
  | provider => exact ⟨_, (arranges_sortBy _ _).perm, rfl⟩
  | service => exact ⟨_, (arranges_sortBy _ _).perm, rfl⟩

variable {key : CostRecord → String} {records : List CostRecord}
  {summaries : List CostDriftSummary}

/-- The rows are those of the groups. -/
theorem mem_rows_iff (hperm : summaries.Perm ((groupBy key records).items.map
      fun bucket => ReconciliationLedger.summaryOf bucket.1 bucket.2))
    (window : DriftWindow) (thresholdPct : ℚ) {row : DriftSummaryResponse} :
    row ∈ summaries.map (driftResponse window thresholdPct) ↔
      ∃ r ∈ records, driftResponse window thresholdPct
        (ReconciliationLedger.summaryOf (key r) (members key records (key r))) = row := by
  rw [(hperm.map _).mem_iff, List.map_map, List.mem_map]
  constructor
  · rintro ⟨⟨g, items⟩, hmem, rfl⟩
    obtain ⟨hg, rfl⟩ := mem_items_groupBy.1 hmem
    obtain ⟨r, hr, rfl⟩ := mem_keys_groupBy.1 hg
    exact ⟨r, hr, rfl⟩
  · rintro ⟨r, hr, rfl⟩
    have hkey : key r ∈ (groupBy key records).keys := mem_keys_groupBy.2 ⟨r, hr, rfl⟩
    exact ⟨(key r, members key records (key r)), mem_items_groupBy.2 ⟨hkey, rfl⟩, rfl⟩

/-- The rows are named by the groups, each once. -/
theorem row_names (hperm : summaries.Perm ((groupBy key records).items.map
      fun bucket => ReconciliationLedger.summaryOf bucket.1 bucket.2))
    (window : DriftWindow) (thresholdPct : ℚ) :
    ((summaries.map (driftResponse window thresholdPct)).map (·.group)).Perm
      (groupBy key records).keys := by
  have hnames : (groupBy key records).keys = (((groupBy key records).items.map
      fun bucket => ReconciliationLedger.summaryOf bucket.1 bucket.2).map
        (driftResponse window thresholdPct)).map (·.group) := by
    rw [List.map_map, List.map_map]
    rfl
  rw [hnames]
  exact (hperm.map _).map _

/-- The rows agree with the records exactly when every group is balanced, and the threshold is not
negative where a group was billed as estimated. -/
theorem driftAgrees_iff (hperm : summaries.Perm ((groupBy key records).items.map
      fun bucket => ReconciliationLedger.summaryOf bucket.1 bucket.2))
    (window : DriftWindow) (thresholdPct : ℚ) :
    DriftAgrees key records (summaries.map (driftResponse window thresholdPct)) ↔
      ∀ r ∈ records, Balanced (members key records (key r)) ∧
        (Settled (members key records (key r)) → 0 ≤ thresholdPct) := by
  have hnames := row_names hperm window thresholdPct
  constructor
  · intro h r hr
    have hrow := (mem_rows_iff hperm window thresholdPct).2 ⟨r, hr, rfl⟩
    have hbalanced := (summary_drift_iff (key r) _).1 (h.drift _ hrow)
    exact ⟨hbalanced, fun hsettled =>
      (settled_row_iff hsettled hbalanced _ _ _).1 (h.settled _ hrow hsettled)⟩
  · intro h
    refine ⟨?_, ?_, ?_, ?_, ?_⟩
    · exact hnames.nodup_iff.2 (groupBy key records).nodup
    · intro g
      rw [hnames.mem_iff]
      exact mem_keys_groupBy
    · intro row hrow
      obtain ⟨r, -, rfl⟩ := (mem_rows_iff hperm window thresholdPct).1 hrow
      exact ⟨rfl, Nat.add_sub_of_le (List.length_filter_le _ _)⟩
    · intro row hrow
      obtain ⟨r, hr, rfl⟩ := (mem_rows_iff hperm window thresholdPct).1 hrow
      exact (summary_drift_iff (key r) _).2 (h r hr).1
    · intro row hrow hsettled
      obtain ⟨r, hr, rfl⟩ := (mem_rows_iff hperm window thresholdPct).1 hrow
      exact (settled_row_iff hsettled (h r hr).1 _ _ _).2 ((h r hr).2 hsettled)

/-- One request billed as estimated, and one of the same provider that awaits billing. -/
def halfBilled : List LedgerCall :=
  [.upsertSynthetic "request-1" "search" "OpenAI" "gpt-4o" 10 none 0,
    .upsertSynthetic "request-2" "search" "OpenAI" "gpt-4o" 10 none 0,
    .reconcile "request-1" 10 "billing_api" none 0]

end ComputeIntelligence
