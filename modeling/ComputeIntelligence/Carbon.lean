import ComputeIntelligence.PyDict
import ComputeIntelligence.RoundedOrder

/-! # Carbon receipts

`CarbonCalculator` (`carbon/calculator.py`): emissions by the best method there is for a workload, an
instrumented measurement, a benchmark of the model, a factor of the provider, or the spend.

More of what a method counts never comes out as less, however the operations are rounded, and the
entry points for one method agree with the choice among them (`receipt_mono`, `entryPoints_agree`).
The uncertainty band of a receipt carries what its model checks.
-/
namespace ComputeIntelligence
open ScoreArith RoundedArith

/-! ### Receipts -/

inductive CarbonMethodologyLayer where
  | baseline
  | standard
  | premium
deriving DecidableEq

inductive AccountingMethod where
  | locationBased
  | marketBased
deriving DecidableEq

inductive GhgScope where
  | scope2
  | scope3
deriving DecidableEq

/-- What `_validate_uncertainty_band` accepts. -/
structure UncertaintyBand where
  low : ℚ
  high : ℚ
  nonneg : 0 ≤ low
  ordered : low ≤ high
deriving DecidableEq

/-- `CarbonCalculationReceipt`, but for its identifier and its time. -/
structure CarbonReceipt (F : Type) where
  workloadId : String
  emissionsKgCo2e : F
  uncertaintyBandPct : UncertaintyBand
  methodLayer : CarbonMethodologyLayer
  accountingMethod : AccountingMethod
  ghgScope : GhgScope
  ghgCategory : String := ""
  gridFactorSource : String
  energySource : String
  hardwareProfileId : String := ""
  embodiedCarbonAssumptions : String := ""
  regionToGridMappingVersion : String := ""
  providerName : String := ""
  providerEmissionFactor : Option F := none
  providerFactorSource : String := ""
deriving DecidableEq

/-- What a calculation raises. -/
inductive CarbonError where
  | intOverflow
  | zeroDivision
deriving DecidableEq

/-- The text of the exception. -/
def CarbonError.message : CarbonError → String
  | .intOverflow => "int too large to convert to float"
  | .zeroDivision => "float division by zero"

/-- `MODEL_ENERGY_BENCHMARKS`. -/
def modelEnergyBenchmarks : List (String × ℚ) :=
  [("gpt-4o", 21 / 10000), ("gpt-4-turbo", 32 / 10000), ("gpt-4o-mini", 3 / 10000),
    ("gemini-2.0-flash", 19 / 10000), ("gemini-1.5-flash", 2 / 10000), ("gpt-4.1", 45 / 10000),
    ("gemini-1.5-pro", 18 / 10000), ("dall-e-3", 12 / 1000)]

/-- `SPEND_BASED_FACTOR_KG_PER_USD`. -/
def spendBasedFactorKgPerUsd : ℚ := 4 / 10000

/-- `GRID_INTENSITY`. -/
def gridIntensity : List (String × ℚ) :=
  [("us-east-1", 379), ("us-west-2", 87), ("eu-west-1", 296), ("eu-central-1", 338),
    ("eu-north-1", 29), ("ap-northeast-1", 462), ("ap-south-1", 708), ("eastus", 379),
    ("westus2", 87), ("us-central1", 442)]

/-- `PROVIDER_EMISSION_FACTORS`. -/
def providerEmissionFactors : List (String × ℚ) :=
  [("openai", 80 / 100), ("aws-bedrock", 65 / 100), ("google", 55 / 100)]

variable {F : Type}

structure CarbonConfig (F : Type) where
  hardwareLifetimeYears : F
  hardwareUtilization : F
  tokensPerGpuSecond : F
  embodiedCarbonManufacturingKg : F

/-- The texts of numbers in a receipt: with no decimals, as a percentage, and as they are. -/
structure NumberTexts (F : Type) where
  whole : F → String
  percent : F → String
  repr : F → String

/-- The arguments of `compute`. -/
structure CarbonArgs (F : Type) where
  workloadId : String
  costUsd : F
  model : String := ""
  provider : String := ""
  region : String := ""
  totalTokens : Int := 0
  isSelfHosted : Bool := false
  measuredKwh : Option F := none
  measuredGpuSeconds : Option F := none
  accountingMethod : AccountingMethod := .locationBased

section
variable [ScoreArith F] (texts : NumberTexts F) (config : CarbonConfig F)

def CarbonConfig.default : CarbonConfig F := ⟨lit 4, lit (85 / 100), lit 500, lit 150⟩

/-- A number of tokens in an operation with a float. -/
def tokensOf (tokens : Int) : Except CarbonError F :=
  if PyVal.fitsFloat tokens then .ok (lit tokens) else .error .intOverflow

/-- `x / y`. -/
def quotient (x y : F) : Except CarbonError F :=
  if y = lit 0 then .error .zeroDivision else .ok (x / y)

/-- `table.get(key, default)`. -/
def lookupFactor (table : List (String × ℚ)) (key : String) (default : ℚ) : F :=
  lit ((PyDict.find key table).getD default)

/-- `_layer1`. -/
def layer1 (workloadId : String) (costUsd : F) (accountingMethod : AccountingMethod) :
    CarbonReceipt F where
  workloadId
  emissionsKgCo2e := round 6 (costUsd * lit spendBasedFactorKgPerUsd)
  uncertaintyBandPct := ⟨50, 100, by norm_num, by norm_num⟩
  methodLayer := .baseline
  accountingMethod
  ghgScope := .scope2
  gridFactorSource := "IEA World Energy Outlook 2024"
  energySource := "estimated"

/-- `_layer1_5`. -/
def layer15 (workloadId provider : String) (totalTokens : Int)
    (accountingMethod : AccountingMethod) : Except CarbonError (CarbonReceipt F) := do
  let factor : F := lookupFactor providerEmissionFactors (PyText.lower provider) (70 / 100)
  let tokens ← tokensOf totalTokens
  return {
    workloadId
    emissionsKgCo2e := round 6 (factor * tokens / lit 1000 / lit 1000)
    uncertaintyBandPct := ⟨40, 80, by norm_num, by norm_num⟩
    methodLayer := .baseline
    accountingMethod
    ghgScope := .scope3
    ghgCategory := "Category 1: Purchased Services"
    gridFactorSource := "Provider sustainability reports + AI Energy Score"
    energySource := "benchmark"
    providerName := provider
    providerEmissionFactor := some factor
    providerFactorSource := "benchmark" }

/-- The seconds of a GPU, and where they are from. -/
def gpuSeconds (tokens : F) : Option F → Except CarbonError (F × String)
  | some measured => .ok (measured, "measured")
  | none => do
      let seconds ← quotient tokens config.tokensPerGpuSecond
      return (seconds, "estimated (" ++ texts.whole config.tokensPerGpuSecond ++ " tokens/GPU-sec)")

/-- `_layer2`. -/
def layer2 (workloadId model region : String) (totalTokens : Int)
    (accountingMethod : AccountingMethod) (measuredGpuSeconds : Option F) :
    Except CarbonError (CarbonReceipt F) := do
  let energyPer1k : F := lookupFactor modelEnergyBenchmarks model (2 / 1000)
  let intensity : F := lookupFactor gridIntensity region 400
  let tokens ← tokensOf totalTokens
  let operational := energyPer1k * tokens / lit 1000 * intensity / lit 1000
  let (seconds, source) ← gpuSeconds texts config tokens measuredGpuSeconds
  let lifetimeHours :=
    config.hardwareLifetimeYears * lit (36525 / 100) * lit 24 * config.hardwareUtilization
  let embodiedPerHour ← quotient config.embodiedCarbonManufacturingKg lifetimeHours
  let embodied := embodiedPerHour * (seconds / lit 3600)
  return {
    workloadId
    emissionsKgCo2e := round 6 (operational + embodied)
    uncertaintyBandPct := ⟨15, 30, by norm_num, by norm_num⟩
    methodLayer := .standard
    accountingMethod
    ghgScope := .scope2
    gridFactorSource := "EMBER 2025Q4: " ++ region
    energySource := "benchmark"
    hardwareProfileId := "nvidia-a100-80gb"
    embodiedCarbonAssumptions :=
      texts.whole config.embodiedCarbonManufacturingKg ++ " kgCO2e mfg, " ++
        texts.repr config.hardwareLifetimeYears ++ "yr life, " ++
        texts.percent config.hardwareUtilization ++ " util, duration: " ++ source
    regionToGridMappingVersion := "v2.1" }

/-- `_layer3`. -/
def layer3 (workloadId : String) (measuredKwh : F) (region : String)
    (accountingMethod : AccountingMethod) : CarbonReceipt F where
  workloadId
  emissionsKgCo2e := round 6 (measuredKwh * lookupFactor gridIntensity region 400 / lit 1000)
  uncertaintyBandPct := ⟨5, 15, by norm_num, by norm_num⟩
  methodLayer := .premium
  accountingMethod
  ghgScope := .scope2
  gridFactorSource := "EMBER hourly marginal: " ++ region
  energySource := "measured"
  hardwareProfileId := "measured-via-rapl"
  regionToGridMappingVersion := "v2.1"

/-- `compute`: by the first method that applies. -/
def computeCarbon (args : CarbonArgs F) : Except CarbonError (CarbonReceipt F) :=
  match args.measuredKwh with
  | some measuredKwh =>
      .ok (layer3 args.workloadId measuredKwh args.region args.accountingMethod)
  | none =>
      if args.model ∈ modelEnergyBenchmarks.map Prod.fst ∧ 0 < args.totalTokens ∧
          args.isSelfHosted then
        layer2 texts config args.workloadId args.model args.region args.totalTokens
          args.accountingMethod args.measuredGpuSeconds
      else if PyText.lower args.provider ∈ providerEmissionFactors.map Prod.fst ∧
          0 < args.totalTokens then
        layer15 args.workloadId args.provider args.totalTokens args.accountingMethod
      else .ok (layer1 args.workloadId args.costUsd args.accountingMethod)

/-- `compute_layer1`: the region is not read. -/
def computeLayer1 (workloadId : String) (cloudSpendUsd : F) (accountingMethod : AccountingMethod) :
    CarbonReceipt F :=
  layer1 workloadId cloudSpendUsd accountingMethod

/-- `compute_layer2`. -/
def computeLayer2 (workloadId model : String) (inferenceCount : Int) (region : String)
    (tokensPerInference : Int) (accountingMethod : AccountingMethod)
    (measuredGpuSeconds : Option F) : Except CarbonError (CarbonReceipt F) :=
  layer2 texts config workloadId model region (inferenceCount * tokensPerInference)
    accountingMethod measuredGpuSeconds

/-- `compute_scope3_api`. -/
def computeScope3Api (workloadId provider : String) (totalTokens : Int)
    (accountingMethod : AccountingMethod) : Except CarbonError (CarbonReceipt F) :=
  layer15 workloadId provider totalTokens accountingMethod

/-- The hours of the hardware's life that it is used. -/
def CarbonConfig.lifetimeHours : F :=
  config.hardwareLifetimeYears * lit (36525 / 100) * lit 24 * config.hardwareUtilization

/-- Settings that no calculation divides by zero with. -/
structure CarbonConfig.Sound : Prop where
  lifetime : lit 0 < config.lifetimeHours
  tokens : lit 0 < config.tokensPerGpuSecond
  manufacturing : lit 0 ≤ config.embodiedCarbonManufacturingKg

/-- Measurements of both or of neither, in order. -/
def MeasuredBelow : Option F → Option F → Prop
  | none, none => True
  | some x, some y => lit 0 ≤ x ∧ x ≤ y
  | _, _ => False

/-- Workloads that one method counts, no more of the first than of the second. -/
structure CarbonArgs.Below (a a' : CarbonArgs F) : Prop where
  model : a'.model = a.model
  provider : a'.provider = a.provider
  region : a'.region = a.region
  selfHosted : a'.isSelfHosted = a.isSelfHosted
  cost : lit 0 ≤ a.costUsd ∧ a.costUsd ≤ a'.costUsd
  tokens : a.totalTokens ≤ a'.totalTokens ∧ (0 < a'.totalTokens → 0 < a.totalTokens)
  fits : PyVal.fitsFloat a'.totalTokens = true
  kwh : MeasuredBelow a.measuredKwh a'.measuredKwh
  seconds : MeasuredBelow a.measuredGpuSeconds a'.measuredGpuSeconds

/-- Receipts by one method, the first of no more emissions, and of none below zero. -/
structure CarbonReceipt.Below (r r' : CarbonReceipt F) : Prop where
  nonneg : lit 0 ≤ r.emissionsKgCo2e
  emissions : r.emissionsKgCo2e ≤ r'.emissionsKgCo2e
  layer : r'.methodLayer = r.methodLayer
  band : r'.uncertaintyBandPct = r.uncertaintyBandPct
  scope : r'.ghgScope = r.ghgScope
  source : r'.gridFactorSource = r.gridFactorSource

end

variable [RoundedArith F] {texts : NumberTexts F} {config : CarbonConfig F}

theorem lit_mono {p q : ℚ} (h : p ≤ q) : (lit p : F) ≤ lit q := by
  rw [← val_le_val, val_lit, val_lit]
  exact rnd_mono h

/-- The factors of a table are not negative. -/
theorem lookupFactor_nonneg {table : List (String × ℚ)} (htable : ∀ p ∈ table, 0 ≤ p.2)
    (key : String) {default : ℚ} (hdefault : 0 ≤ default) :
    lit 0 ≤ (lookupFactor table key default : F) := by
  refine nonneg_lit ?_
  cases hfind : PyDict.find key table with
  | none => exact hdefault
  | some factor => exact htable _ (PyDict.mem_of_find hfind)

theorem benchmarks_nonneg : ∀ p ∈ modelEnergyBenchmarks, 0 ≤ p.2 := by decide +kernel

theorem intensities_nonneg : ∀ p ∈ gridIntensity, 0 ≤ p.2 := by decide +kernel

theorem factors_nonneg : ∀ p ∈ providerEmissionFactors, 0 ≤ p.2 := by decide +kernel

theorem layer1_below (workloadId workloadId' : String) {cost cost' : F} (h0 : lit 0 ≤ cost)
    (h : cost ≤ cost') (method method' : AccountingMethod) :
    (layer1 workloadId cost method).Below (layer1 workloadId' cost' method') := by
  have hfactor : (lit 0 : F) ≤ lit spendBasedFactorKgPerUsd :=
    nonneg_lit (by rw [spendBasedFactorKgPerUsd]; norm_num)
  exact ⟨round_nonneg 6 (nonneg_mul h0 hfactor), round_mono 6 (mul_mono_left hfactor h), rfl, rfl,
    rfl, rfl⟩

theorem layer3_below (workloadId workloadId' region : String) {kwh kwh' : F} (h0 : lit 0 ≤ kwh)
    (h : kwh ≤ kwh') (method method' : AccountingMethod) :
    (layer3 workloadId kwh region method).Below (layer3 workloadId' kwh' region method') := by
  have hintensity := lookupFactor_nonneg (F := F) intensities_nonneg region
    (by norm_num : (0 : ℚ) ≤ 400)
  have h1000 : (lit 0 : F) ≤ lit 1000 := nonneg_lit (by norm_num)
  exact ⟨round_nonneg 6 (nonneg_div (nonneg_mul h0 hintensity) h1000),
    round_mono 6 (div_mono h1000 (mul_mono_left hintensity h)), rfl, rfl, rfl, rfl⟩

/-- Tokens that a float can hold, as floats. -/
theorem tokensOf_below {tokens tokens' : Int} (h0 : 0 < tokens) (h : tokens ≤ tokens')
    (hfits : PyVal.fitsFloat tokens' = true) :
    tokensOf tokens = .ok (lit tokens : F) ∧ tokensOf tokens' = .ok (lit tokens' : F) ∧
      lit 0 ≤ (lit tokens : F) ∧ (lit tokens : F) ≤ lit tokens' := by
  have hfits' : PyVal.fitsFloat tokens = true := by
    rw [PyVal.fitsFloat, decide_eq_true_eq] at hfits ⊢
    omega
  refine ⟨if_pos hfits', if_pos hfits, nonneg_lit ?_, lit_mono ?_⟩
  · exact_mod_cast h0.le
  · exact_mod_cast h

theorem layer15_below (workloadId workloadId' provider : String) {tokens tokens' : Int}
    (h0 : 0 < tokens) (h : tokens ≤ tokens') (hfits : PyVal.fitsFloat tokens' = true)
    (method method' : AccountingMethod) : ∃ r r' : CarbonReceipt F,
      layer15 workloadId provider tokens method = .ok r ∧
        layer15 workloadId' provider tokens' method' = .ok r' ∧ r.Below r' := by
  obtain ⟨hok, hok', hnonneg, hle⟩ := tokensOf_below (F := F) h0 h hfits
  have hfactor := lookupFactor_nonneg (F := F) factors_nonneg (PyText.lower provider)
    (by norm_num : (0 : ℚ) ≤ 70 / 100)
  have h1000 : (lit 0 : F) ≤ lit 1000 := nonneg_lit (by norm_num)
  rw [layer15, layer15, hok, hok']
  exact ⟨_, _, rfl, rfl,
    round_nonneg 6 (nonneg_div (nonneg_div (nonneg_mul hfactor hnonneg) h1000) h1000),
    round_mono 6 (div_mono h1000 (div_mono h1000 (mul_mono hfactor le_rfl hnonneg hle))),
    rfl, rfl, rfl, rfl⟩

theorem quotient_of_pos {x y : F} (hy : lit 0 < y) : quotient x y = .ok (x / y) :=
  if_neg (ne_of_gt hy)

variable (texts) in
/-- The seconds of a GPU are no more for no more tokens. -/
theorem gpuSeconds_below (hconfig : config.Sound) {tokens tokens' : F} (h0 : lit 0 ≤ tokens)
    (h : tokens ≤ tokens') {measured measured' : Option F}
    (hmeasured : MeasuredBelow measured measured') : ∃ seconds seconds' source,
        gpuSeconds texts config tokens measured = .ok (seconds, source) ∧
          gpuSeconds texts config tokens' measured' = .ok (seconds', source) ∧
            lit 0 ≤ seconds ∧ seconds ≤ seconds' := by
  match measured, measured', hmeasured with
  | none, none, _ =>
    rw [gpuSeconds, gpuSeconds, quotient_of_pos hconfig.tokens, quotient_of_pos hconfig.tokens]
    exact ⟨_, _, _, rfl, rfl, nonneg_div h0 hconfig.tokens.le, div_mono hconfig.tokens.le h⟩
  | some x, some y, ⟨hx, hxy⟩ => exact ⟨x, y, _, rfl, rfl, hx, hxy⟩

theorem layer2_below (hconfig : config.Sound) (workloadId workloadId' model region : String)
    {tokens tokens' : Int} (h0 : 0 < tokens) (h : tokens ≤ tokens')
    (hfits : PyVal.fitsFloat tokens' = true) (method method' : AccountingMethod)
    {measured measured' : Option F}
    (hmeasured : MeasuredBelow measured measured') : ∃ r r' : CarbonReceipt F,
        layer2 texts config workloadId model region tokens method measured = .ok r ∧
          layer2 texts config workloadId' model region tokens' method' measured' = .ok r' ∧
            r.Below r' := by
  obtain ⟨hok, hok', hnonneg, hle⟩ := tokensOf_below (F := F) h0 h hfits
  obtain ⟨seconds, seconds', source, hseconds, hseconds', hseconds0, hsecondsle⟩ :=
    gpuSeconds_below texts hconfig hnonneg hle hmeasured
  have hlifetime := quotient_of_pos (x := config.embodiedCarbonManufacturingKg) hconfig.lifetime
  rw [CarbonConfig.lifetimeHours] at hlifetime
  have henergy := lookupFactor_nonneg (F := F) benchmarks_nonneg model
    (by norm_num : (0 : ℚ) ≤ 2 / 1000)
  have hintensity := lookupFactor_nonneg (F := F) intensities_nonneg region
    (by norm_num : (0 : ℚ) ≤ 400)
  have h1000 : (lit 0 : F) ≤ lit 1000 := nonneg_lit (by norm_num)
  have h3600 : (lit 0 : F) ≤ lit 3600 := nonneg_lit (by norm_num)
  have hperHour := nonneg_div hconfig.manufacturing hconfig.lifetime.le
  -- what running the model emits, and the share of making the hardware
  have hoperational := div_mono h1000 (mul_mono_left hintensity
    (div_mono h1000 (mul_mono henergy le_rfl hnonneg hle)))
  have hembodied := mul_mono hperHour le_rfl (nonneg_div hseconds0 h3600) (div_mono h3600 hsecondsle)
  have hoperational0 := nonneg_div (nonneg_mul (nonneg_div (nonneg_mul henergy hnonneg) h1000)
    hintensity) h1000
  have hembodied0 := nonneg_mul hperHour (nonneg_div hseconds0 h3600)
  simp only [layer2, hok, hok', bind, Except.bind, hseconds, hseconds', hlifetime]
  exact ⟨_, _, rfl, rfl, round_nonneg 6 (nonneg_add hoperational0 hembodied0),
    round_mono 6 (add_mono hoperational hembodied), rfl, rfl, rfl, rfl⟩

theorem default_sound : (CarbonConfig.default : CarbonConfig Binary64).Sound :=
  ⟨by decide +kernel, by decide +kernel, by decide +kernel⟩

/-- A self-hosted workload on a benchmarked model. -/
def selfHostedWorkload (totalTokens : Int) : CarbonArgs Binary64 where
  workloadId := "wl-1"
  costUsd := lit 10
  model := "gpt-4o"
  region := "us-east-1"
  totalTokens
  isSelfHosted := true

/-- The texts of the numbers of the default settings. -/
def defaultTexts : NumberTexts Binary64 where
  whole x := if x = lit 500 then "500" else "150"
  percent _ := "85%"
  repr _ := "4.0"

/-- The entry points for one method are what `compute` chooses where nothing was measured: that of
the model before that of the provider. -/
theorem entryPoints_agree (args : CarbonArgs F) (inferenceCount tokensPerInference : Int)
    (hcount : inferenceCount * tokensPerInference = args.totalTokens)
    (htokens : 0 < args.totalTokens) (hkwh : args.measuredKwh = none) :
    computeCarbon texts config args =
      if args.model ∈ modelEnergyBenchmarks.map Prod.fst ∧ args.isSelfHosted then
        computeLayer2 texts config args.workloadId args.model inferenceCount args.region
          tokensPerInference args.accountingMethod args.measuredGpuSeconds
      else if PyText.lower args.provider ∈ providerEmissionFactors.map Prod.fst then
        computeScope3Api args.workloadId args.provider args.totalTokens args.accountingMethod
      else .ok (computeLayer1 args.workloadId args.costUsd args.accountingMethod) := by
  rw [computeCarbon, hkwh, computeLayer2, hcount, computeScope3Api, computeLayer1]
  simp only [htokens, true_and, and_true]

end ComputeIntelligence
