import ComputeIntelligence.PlatformConfig
import ComputeIntelligence.PyDict

/-! # Authentication of API requests

`api/auth.py` and the middleware `enforce_service_auth` (`api/app.py`).  Decoding and
verifying a token is the JWT library's, a parameter here.

An accepted configuration protects the private paths exactly when `auth.enabled` is
set (`protects_iff_enabled`).  The validator demands it in production and staging; a
deployment under any other name, a listed one or not, may switch it off.
-/
namespace ComputeIntelligence

/-- What decoding a token can raise. -/
inductive JwtError where
  | invalidToken (message : String)
  | other

/-- The arguments of `jwt.decode`. -/
structure JwtDecodeArgs where
  token : String
  key : String
  algorithms : List String
  audience : String
  issuer : String
  leeway : Int
  require : List String

/-- Decoded claims. -/
abbrev Claims := PyDict String PyVal

/-- A request, as the middleware reads it. -/
structure ApiRequest where
  path : String
  authorization : Option String

/-- What `enforce_service_auth` does with a request. -/
inductive AuthOutcome where
  | forwarded (claims : Option Claims)
  | unauthorized (detail : String)
  | raised

def publicPathPrefixes : List String := ["/platform"]

def publicPaths : List String := ["/", "/health", "/live", "/ready", "/metrics"]

/-- `is_public_path`. -/
def isPublicPath (path : String) : Bool :=
  path ∈ publicPaths || publicPathPrefixes.any fun p => PyText.startsWith p path

/-- `is_auth_required`. -/
def isAuthRequired (path : String) : Bool := PyText.startsWith "/v1/" path

/-- `can_bypass_auth`. -/
def canBypassAuth (config : PlatformConfig) : Bool :=
  PyText.lower config.environment ∈ ["development", "dev", "test", "testing", "local", "demo"] &&
    config.auth.allowDevBypass

/-- `_jwt_key`. -/
def jwtKey (config : AuthConfig) : String :=
  if PyText.startsWith "HS" (PyText.upperCase config.jwtAlgorithm) then config.jwtHs256Secret
  else config.jwtPublicKeyPem

/-- `_normalize_scopes`; `str` of an element may raise. -/
def normalizeScopes : Option PyVal → Except PyExn (List String)
  | none | some .none => .ok []
  | some (.str scopes) => .ok (PyText.words (PyText.strip scopes))
  | some (.list items) => items.mapM PyVal.toStr
  | some v => v.toStr.map fun s => [s]

section
variable (decode : JwtDecodeArgs → Except JwtError Claims)

/-- `decode_and_validate_token`. -/
def decodeAndValidateToken (token : String) (config : AuthConfig) (expectedTenant : String) :
    Except JwtError Claims := do
  let claims ← decode
    { token, key := jwtKey config, algorithms := [config.jwtAlgorithm],
      audience := config.jwtAudience, issuer := config.jwtIssuer,
      leeway := config.clockSkewSeconds, require := ["iss", "aud", "exp", "iat", "sub"] }
  if !((claims.get? config.tenantClaim).getD .none).isText expectedTenant then
    throw (.invalidToken ("token tenant mismatch: claim '" ++ config.tenantClaim ++
      "' does not match expected tenant"))
  let requiredScope := PyText.strip config.requiredScope
  if requiredScope ≠ "" then
    let scopes ← (normalizeScopes (claims.get? "scope")).mapError fun _ => .other
    if requiredScope ∉ scopes then
      throw (.invalidToken ("required scope '" ++ requiredScope ++ "' is missing"))
  return claims

/-- The token of a request that has one. -/
def ApiRequest.bearer (request : ApiRequest) : Option String :=
  let authHeader := request.authorization.getD ""
  if PyText.startsWith "Bearer " authHeader then
    some (PyText.strip (PyText.dropStart "Bearer " authHeader))
  else none

/-- `enforce_service_auth`. -/
def enforceServiceAuth (config : PlatformConfig) (request : ApiRequest) : AuthOutcome :=
  if isPublicPath request.path || !isAuthRequired request.path then .forwarded none
  else if !config.auth.enabled then .forwarded none
  else match request.bearer with
    | none =>
        if canBypassAuth config then .forwarded none
        else .unauthorized "missing bearer token"
    | some token => match decodeAndValidateToken decode token config.auth config.tenantId with
      | .ok claims => .forwarded (some claims)
      | .error (.invalidToken _) => .unauthorized "invalid bearer token"
      | .error .other => .raised

/-- The request carries a token that `decode_and_validate_token` accepts. -/
def CarriesAcceptedToken (config : PlatformConfig) (request : ApiRequest) : Prop :=
  ∃ token claims, request.bearer = some token ∧
    decodeAndValidateToken decode token config.auth config.tenantId = .ok claims

/-- A request under `/v1/` is forwarded only with an accepted token. -/
def Protects (config : PlatformConfig) : Prop :=
  ∀ request : ApiRequest, PyText.startsWith "/v1/" request.path = true →
    ∀ claims, enforceServiceAuth decode config request = .forwarded claims →
      CarriesAcceptedToken decode config request

/-- Not one of the environments in which authentication may be bypassed. -/
def Unlisted (config : PlatformConfig) : Prop :=
  PyText.lower config.environment ∉ PlatformConfig.nonProductionEnvs

instance (config : PlatformConfig) : Decidable (Unlisted config) :=
  inferInstanceAs (Decidable (_ ∉ _))

/-! ### Private paths -/

/-- Two prefixes of one text are prefixes of each other. -/
theorem startsWith_comparable {p q s : String} (hp : PyText.startsWith p s = true)
    (hq : PyText.startsWith q s = true) :
    p.toList.isPrefixOf q.toList = true ∨ q.toList.isPrefixOf p.toList = true := by
  unfold PyText.startsWith at hp hq
  rw [List.isPrefixOf_iff_prefix] at hp hq
  rw [List.isPrefixOf_iff_prefix, List.isPrefixOf_iff_prefix]
  exact List.prefix_or_prefix_of_prefix hp hq

/-- No path under `/v1/` is public. -/
theorem isPublicPath_of_v1 {path : String} (h : PyText.startsWith "/v1/" path = true) :
    isPublicPath path = false := by
  have hlisted : ∀ p ∈ publicPaths, PyText.startsWith "/v1/" p = false := by decide
  have hprefix : ∀ p ∈ publicPathPrefixes, ¬ PyText.startsWith p path = true := by
    intro p hp hstarts
    obtain rfl := List.mem_singleton.1 hp
    rcases startsWith_comparable h hstarts with hpre | hpre
    · exact absurd hpre (by decide)
    · exact absurd hpre (by decide)
  unfold isPublicPath
  rw [Bool.or_eq_false_iff]
  constructor
  · refine decide_eq_false fun hmem => ?_
    exact Bool.noConfusion (h.symm.trans (hlisted path hmem))
  · rw [List.any_eq_false]
    exact hprefix

/-- What the middleware does under `/v1/`. -/
theorem enforceServiceAuth_of_v1 {config : PlatformConfig} {request : ApiRequest}
    (h : PyText.startsWith "/v1/" request.path = true) :
    enforceServiceAuth decode config request =
      if !config.auth.enabled then .forwarded none
      else match request.bearer with
        | none =>
            if canBypassAuth config then .forwarded none
            else .unauthorized "missing bearer token"
        | some token => match decodeAndValidateToken decode token config.auth config.tenantId with
          | .ok claims => .forwarded (some claims)
          | .error (.invalidToken _) => .unauthorized "invalid bearer token"
          | .error .other => .raised := by
  unfold enforceServiceAuth isAuthRequired
  rw [isPublicPath_of_v1 h, h]
  rfl

/-- Outside the listed environments nothing is bypassed. -/
theorem canBypassAuth_of_unlisted {config : PlatformConfig} (h : Unlisted config) :
    canBypassAuth config = false :=
  Bool.and_eq_false_imp.2 fun hmem => absurd (of_decide_eq_true hmem) h

/-! ### Protection -/

/-- With authentication on, a request without a token is forwarded only by the bypass. -/
theorem protects_of_enabled {config : PlatformConfig} (henabled : config.auth.enabled = true)
    (hbypass : canBypassAuth config = false) : Protects decode config := by
  intro request hpath claims hforwarded
  rw [enforceServiceAuth_of_v1 decode hpath, henabled, hbypass] at hforwarded
  cases hbearer : request.bearer with
  | none =>
    rw [hbearer] at hforwarded
    exact nomatch hforwarded
  | some token =>
    rw [hbearer] at hforwarded
    cases hdecode : decodeAndValidateToken decode token config.auth config.tenantId with
    | ok accepted => exact ⟨token, accepted, hbearer, hdecode⟩
    | error e =>
      simp only [Bool.not_true, Bool.false_eq_true, if_false, hdecode] at hforwarded
      cases e with
      | invalidToken message => exact nomatch hforwarded
      | other => exact nomatch hforwarded

/-- With authentication off, a request without a token is forwarded. -/
theorem not_protects_of_disabled {config : PlatformConfig}
    (hdisabled : config.auth.enabled = false) : ¬ Protects decode config := by
  intro h
  have hforwarded : enforceServiceAuth decode config ⟨"/v1/events/ingest", none⟩ =
      .forwarded none := by
    rw [enforceServiceAuth_of_v1 decode (by decide), hdisabled]
    rfl
  obtain ⟨token, claims, hbearer, -⟩ := h _ (by decide) none hforwarded
  have hnone : (ApiRequest.mk "/v1/events/ingest" none).bearer = none := by decide
  exact nomatch hnone.symm.trans hbearer

/-- **Production and staging** are always protected. -/
theorem protects_of_productionLike {config : PlatformConfig}
    (haccepted : config.validateRuntimeSettings = .ok ()) (hunlisted : Unlisted config)
    (hp : config.productionLike = true) : Protects decode config :=
  protects_of_enabled decode (PlatformConfig.enabled_of_productionLike haccepted hp)
    (canBypassAuth_of_unlisted hunlisted)

/-- **Accepted settings outside the listed environments** protect the private paths
exactly when authentication is enabled, as it is in production and staging. -/
theorem protects_iff_enabled (config : PlatformConfig)
    (haccepted : config.validateRuntimeSettings = .ok ()) (hunlisted : Unlisted config) :
    (Protects decode config ↔ config.auth.enabled = true) ∧
      (config.productionLike = true → Protects decode config) := by
  refine ⟨⟨fun h => ?_, fun henabled => ?_⟩, protects_of_productionLike decode haccepted hunlisted⟩
  · by_contra hdisabled
    exact not_protects_of_disabled decode (by simpa using hdisabled) h
  · exact protects_of_enabled decode henabled (canBypassAuth_of_unlisted hunlisted)

end

/-- The default settings under the name `prod`, with a secret. -/
def prodConfig (enabled : Bool) : PlatformConfig :=
  { environment := "prod"
    auth := { enabled, allowDevBypass := false, jwtHs256Secret := "really-strong-secret" } }

/-- A decoder that refuses every token. -/
def refuseAll : JwtDecodeArgs → Except JwtError Claims :=
  fun _ => .error (.invalidToken "Not enough segments")

theorem protects_prod : Protects refuseAll (prodConfig true) :=
  (protects_iff_enabled refuseAll (prodConfig true) (by decide +kernel) (by decide)).1.2 rfl

/-- Settings named `prod` that the validator accepts, and a request without a token that
they let through. -/
theorem not_protects_prod :
    (prodConfig false).validateRuntimeSettings = .ok () ∧ Unlisted (prodConfig false) ∧
      ¬ Protects refuseAll (prodConfig false) :=
  ⟨by decide +kernel, by decide, not_protects_of_disabled refuseAll rfl⟩

end ComputeIntelligence
