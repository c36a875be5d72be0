import ComputeIntelligence.Interception

/-! # The platform settings

`AuthConfig` and `PlatformConfig` (`config.py`), with the fields that
`_validate_runtime_settings` and the authentication of requests read, and that
validator.  It is a list of checks, of which the first that fails is reported.
-/
namespace PyText

/-- `c.upper()`.  Outside ASCII only the characters whose upper case begins with H, R or S
are mapped: the texts tested for after it begin with these. -/
def upperChar (c : Char) : List Char :=
  if c.toNat = 0xdf then ['S', 'S']
  else if c.toNat = 0x17f then ['S']
  else if c.toNat = 0x1e96 then ['H', Char.ofNat 0x331]
  else if c.toNat = 0xfb05 ∨ c.toNat = 0xfb06 then ['S', 'T']
  else [c.toUpper]

/-- `s.upper()`. -/
def upperCase (s : String) : String := String.ofList (s.toList.flatMap upperChar)

end PyText

namespace ComputeIntelligence

/-- `AuthConfig`; a `SecretStr` is its value. -/
structure AuthConfig where
  enabled : Bool := true
  allowDevBypass : Bool := true
  jwtAlgorithm : String := "HS256"
  jwtIssuer : String := "aci-control-plane"
  jwtAudience : String := "aci-api"
  jwtHs256Secret : String := "dev-only-secret"
  jwtPublicKeyPem : String := ""
  requiredScope : String := "aci.api"
  tenantClaim : String := "tenant_id"
  clockSkewSeconds : Int := 60

/-- `PlatformConfig`, before its validator. -/
structure PlatformConfig where
  tenantId : String := "default"
  environment : String := "development"
  runtimeRole : String := "all"
  interceptorMode : String := "advisory"
  apiIngestRateLimitPerMinute : Int := 600
  apiIngestRateLimitBackend : String := "auto"
  apiIngestMaxBatchSize : Int := 1000
  apiMaxRequestBytes : Int := 1048576
  apiCorsAllowedOrigins : String := ""
  apiCorsAllowCredentials : Bool := false
  interceptor : InterceptorConfig := .default
  /-- `interceptor.circuit_state_backend`. -/
  circuitStateBackend : String := "local"
  auth : AuthConfig := {}
  indexBackend : String := "memory"
  graphBackend : String := "memory"
  indexRedisTtlS : Int := 1800
  eventBusBackend : String := "memory"
  kafkaBootstrap : String := "localhost:9092"
  redisUrl : String := "redis://localhost:6379/0"
  neo4jPassword : String := ""

/-- `if fails: raise ValueError(message)`. -/
structure ConfigCheck where
  fails : Bool
  message : String

namespace PlatformConfig
variable (c : PlatformConfig)

/-- `self.environment.lower()`. -/
def envName : String := PyText.lower c.environment

def productionLike : Bool := c.envName ∈ ["production", "staging"]

/-- `non_production_envs`. -/
def nonProductionEnvs : List String := ["development", "dev", "test", "testing", "local", "demo"]

def corsOrigins : List String :=
  ((PyText.splitAt ',' c.apiCorsAllowedOrigins).map PyText.strip).filter (· ≠ "")

/-- `self.auth.jwt_algorithm.upper()`. -/
def algorithm : String := PyText.upperCase c.auth.jwtAlgorithm

def bypassAllowed : Bool := c.envName ∈ nonProductionEnvs && c.auth.allowDevBypass

def resolvedRateLimitBackend : String :=
  if c.apiIngestRateLimitBackend = "auto" then if c.productionLike then "redis" else "memory"
  else c.apiIngestRateLimitBackend

/-- One of the backends that need Redis. -/
def durableRedis : Bool :=
  c.indexBackend = "redis" || c.circuitStateBackend = "redis" || c.eventBusBackend = "kafka"

/-- The checks of `_validate_runtime_settings`, in order. -/
def checks : List ConfigCheck :=
  [ ⟨c.runtimeRole ∉ ["all", "gateway", "processor"],
      "runtime_role must be one of ['all', 'gateway', 'processor']"⟩,
    ⟨PyText.lower c.interceptorMode ∉ ["passive", "advisory", "active"],
      "interceptor_mode must be one of ['active', 'advisory', 'passive']"⟩,
    ⟨c.eventBusBackend ∉ ["memory", "kafka"],
      "event_bus_backend must be one of ['kafka', 'memory']"⟩,
    ⟨c.indexBackend ∉ ["memory", "redis"], "index_backend must be one of ['memory', 'redis']"⟩,
    ⟨c.indexRedisTtlS ≤ 0, "index_redis_ttl_s must be > 0"⟩,
    ⟨c.graphBackend ∉ ["memory", "neo4j"], "graph_backend must be one of ['memory', 'neo4j']"⟩,
    ⟨c.apiIngestRateLimitPerMinute ≤ 0, "api_ingest_rate_limit_per_minute must be > 0"⟩,
    ⟨c.apiIngestRateLimitBackend ∉ ["auto", "memory", "redis"],
      "api_ingest_rate_limit_backend must be one of ['auto', 'memory', 'redis']"⟩,
    ⟨c.apiIngestMaxBatchSize ≤ 0, "api_ingest_max_batch_size must be > 0"⟩,
    ⟨c.apiMaxRequestBytes ≤ 0, "api_max_request_bytes must be > 0"⟩,
    ⟨c.circuitStateBackend ∉ ["local", "redis"],
      "interceptor.circuit_state_backend must be one of ['local', 'redis']"⟩,
    ⟨c.productionLike && c.neo4jPassword = "",
      "neo4j_password must be configured in production/staging"⟩,
    ⟨c.productionLike && !c.auth.enabled, "auth.enabled must be true in production/staging"⟩,
    ⟨c.auth.allowDevBypass && c.envName ∉ nonProductionEnvs,
      "auth.allow_dev_bypass may only be enabled in non-production environments"⟩,
    ⟨c.apiCorsAllowCredentials && "*" ∈ c.corsOrigins,
      "api_cors_allow_credentials cannot be true when api_cors_allowed_origins contains '*'"⟩,
    ⟨c.auth.enabled && PyText.startsWith "HS" c.algorithm && c.auth.jwtHs256Secret = "" &&
        !c.bypassAllowed, "auth.jwt_hs256_secret is required for HS* auth algorithms"⟩,
    ⟨c.auth.enabled && PyText.startsWith "RS" c.algorithm && c.auth.jwtPublicKeyPem = "" &&
        !c.bypassAllowed, "auth.jwt_public_key_pem is required for RS* auth algorithms"⟩,
    ⟨c.productionLike && PyText.startsWith "HS" c.algorithm &&
        c.auth.jwtHs256Secret ∈ ["", "dev-only-secret"],
      "auth.jwt_hs256_secret must be set to a strong non-default value in production/staging"⟩,
    ⟨c.eventBusBackend = "kafka" && c.kafkaBootstrap = "",
      "kafka_bootstrap must be configured when event_bus_backend='kafka'"⟩,
    ⟨c.productionLike && c.runtimeRole ∈ ["all", "gateway"] && c.interceptor.shadowEventsEnabled &&
        c.eventBusBackend ≠ "kafka",
      "event_bus_backend must be 'kafka' when shadow_events_enabled is true for gateway-capable production/staging runtimes"⟩,
    ⟨c.durableRedis && c.redisUrl = "",
      "redis_url must be configured for redis index/circuit state or kafka dedup backend"⟩,
    ⟨c.productionLike && c.runtimeRole ∈ ["all", "processor"] &&
        c.resolvedRateLimitBackend ≠ "redis",
      "api_ingest_rate_limit_backend must resolve to 'redis' in production/staging"⟩,
    ⟨c.resolvedRateLimitBackend = "redis" && c.redisUrl = "",
      "redis_url must be configured when api_ingest_rate_limit_backend='redis'"⟩,
    ⟨c.productionLike && c.durableRedis && !PyText.startsWith "rediss://" c.redisUrl,
      "redis_url must use rediss:// in production/staging"⟩,
    ⟨c.productionLike && c.runtimeRole ∈ ["all", "processor"] && c.graphBackend ≠ "neo4j",
      "graph_backend must be 'neo4j' in production/staging for processor workloads"⟩ ]

/-- `_validate_runtime_settings`: the message of the first check that fails. -/
def validateRuntimeSettings : Except String Unit :=
  match c.checks.find? ConfigCheck.fails with
  | some check => .error check.message
  | none => .ok ()

variable {c}

/-- The validator accepts exactly the settings that fail no check. -/
theorem validateRuntimeSettings_ok_iff :
    c.validateRuntimeSettings = .ok () ↔ ∀ check ∈ c.checks, check.fails = false := by
  unfold validateRuntimeSettings
  cases h : c.checks.find? ConfigCheck.fails with
  | none =>
    refine ⟨fun _ check hmem => ?_, fun _ => rfl⟩
    simpa using List.find?_eq_none.1 h check hmem
  | some check =>
    refine ⟨(fun h => nomatch h), fun hall => ?_⟩
    exact absurd (List.find?_some h) (by simp [hall check (List.mem_of_find?_eq_some h)])

/-- Accepted settings for production or staging have authentication on. -/
theorem enabled_of_productionLike (h : c.validateRuntimeSettings = .ok ())
    (hp : c.productionLike = true) : c.auth.enabled = true := by
  have hcheck := validateRuntimeSettings_ok_iff.1 h
    ⟨c.productionLike && !c.auth.enabled, "auth.enabled must be true in production/staging"⟩
    (by unfold checks; simp)
  simpa [hp] using hcheck

end PlatformConfig
end ComputeIntelligence
