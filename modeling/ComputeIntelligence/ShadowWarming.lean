import ComputeIntelligence.Interception

/-! # Shadow warming

The state of a `ShadowWarmer` (`interceptor/shadow_warming.py`) and the decision it
makes on a cache miss.  The draw of `random.random()` is an input.
-/
namespace ComputeIntelligence

/-- `RefreshState` with the warmer's counters.  The workloads in progress are a set. -/
structure ShadowWarmer where
  inProgress : List String := []
  lastRefresh : PyDict String ℚ := PyDict.empty
  minRefreshIntervalS : ℚ := 5
  refreshCount : Nat := 0
  suppressedCount : Nat := 0

/-- `should_trigger_refresh`, at monotonic time `now` with the random number `draw`. -/
def ShadowWarmer.shouldTriggerRefresh (w : ShadowWarmer) (config : InterceptorConfig)
    (workloadId : String) (now draw : ℚ) : Bool × ShadowWarmer :=
  let suppressed := { w with suppressedCount := w.suppressedCount + 1 }
  if workloadId ∈ w.inProgress then (false, suppressed)
  else if now - w.lastRefresh.getD workloadId 0 < w.minRefreshIntervalS then (false, suppressed)
  else (decide (draw < config.shadowWarmProbability), w)

end ComputeIntelligence
