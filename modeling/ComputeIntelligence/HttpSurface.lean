import ComputeIntelligence.ApiAuth

/-! # The surface of the API

The middlewares of `api/app.py` that stand before the endpoints, in the order of a request:
`enforce_runtime_surface`, `enforce_service_auth` and `add_security_headers`.  What comes after them
(the middlewares of the framework, the body limit and the endpoints) is a parameter.

Which request is let through is decided before anything of its body is read (`surfaceStack_eq`), and
by its path, the role of the pod and its token alone (`surface`).  The security headers are set on
what comes back from the endpoints only: the refusals of the two outer middlewares carry none.
-/
namespace ComputeIntelligence

/-! ### Responses -/

/-- A response: its status, its headers, the names in lower case, and its body. -/
structure ApiResponse where
  statusCode : Nat
  headers : List (String × String)
  body : String
deriving DecidableEq

/-- `response.headers.setdefault(name, value)`, for a name in lower case. -/
def ApiResponse.setDefault (r : ApiResponse) (name value : String) : ApiResponse :=
  if name ∈ r.headers.map Prod.fst then r else { r with headers := r.headers ++ [(name, value)] }

/-- `JSONResponse` with a detail that needs no escapes. -/
def detailResponse (statusCode : Nat) (detail : String) (headers : List (String × String)) :
    ApiResponse :=
  let body := "\x7b\"detail\":\"" ++ detail ++ "\"\x7d"
  { statusCode
    headers := headers ++
      [("content-length", toString body.utf8ByteSize), ("content-type", "application/json")]
    body }

/-- The headers that `add_security_headers` sets. -/
def securityHeaders : List (String × String) :=
  [("x-content-type-options", "nosniff"), ("x-frame-options", "DENY"),
    ("referrer-policy", "strict-origin-when-cross-origin")]

/-- What a request may end in: a response, or what the code behind raises. -/
inductive ApiRaise (ε : Type) where
  /-- Anything but an `InvalidTokenError`, while the token is decoded. -/
  | auth
  | behind (e : ε)

variable {ε : Type}

/-- What is behind the three middlewares: it gets the request and the claims of its token. -/
abbrev Endpoint (ε : Type) := ApiRequest → Option Claims → Except ε ApiResponse

/-- `add_security_headers`. -/
def addSecurityHeaders (r : ApiResponse) : ApiResponse :=
  securityHeaders.foldl (fun r h => r.setDefault h.1 h.2) r

def alwaysAvailablePaths : List String :=
  ["/", "/health", "/live", "/ready", "/metrics", "/metrics/prometheus"]

/-- The condition of `enforce_runtime_surface`; `role` is in lower case. -/
def roleServes (role path : String) : Bool :=
  path ∈ alwaysAvailablePaths || PyText.startsWith "/platform" path ||
    !(role = "gateway" && PyText.startsWith "/v1/" path && path ≠ "/v1/intercept")

section
variable (decode : JwtDecodeArgs → Except JwtError Claims) (config : PlatformConfig)

/-- `runtime_role` of the application state. -/
def runtimeRole : String := PyText.lower config.runtimeRole

/-- A request through the middlewares. -/
def surfaceStack (endpoint : Endpoint ε) (request : ApiRequest) :
    Except (ApiRaise ε) ApiResponse :=
  if roleServes (runtimeRole config) request.path then
    match enforceServiceAuth decode config request with
    | .unauthorized detail => .ok (detailResponse 401 detail [("www-authenticate", "Bearer")])
    | .raised => .error .auth
    | .forwarded claims => match endpoint request claims with
      | .ok r => .ok (addSecurityHeaders r)
      | .error e => .error (.behind e)
  else .ok (detailResponse 503 "route unavailable for runtime role 'gateway'" [])

/-- What becomes of a request before anything behind the middlewares sees it. -/
inductive Admission where
  | served (claims : Option Claims)
  | refused (response : ApiResponse)
  | raised

def admission (request : ApiRequest) : Admission :=
  if roleServes (runtimeRole config) request.path then
    match enforceServiceAuth decode config request with
    | .unauthorized detail =>
        .refused (detailResponse 401 detail [("www-authenticate", "Bearer")])
    | .raised => .raised
    | .forwarded claims => .served claims
  else .refused (detailResponse 503 "route unavailable for runtime role 'gateway'" [])

/-- The middlewares decide, and then ask the endpoint. -/
theorem surfaceStack_eq (endpoint : Endpoint ε) (request : ApiRequest) :
    surfaceStack decode config endpoint request =
      match admission decode config request with
      | .served claims => match endpoint request claims with
        | .ok r => .ok (addSecurityHeaders r)
        | .error e => .error (.behind e)
      | .refused response => .ok response
      | .raised => .error .auth := by
  rw [surfaceStack, admission]
  cases roleServes (runtimeRole config) request.path with
  | false => rfl
  | true =>
    cases enforceServiceAuth decode config request with
    | forwarded claims => rfl
    | unauthorized detail => rfl
    | raised => rfl

/-! ### What is let through -/

/-- Why `enforce_service_auth` forwards a request, and the claims it has then. -/
inductive Admits (request : ApiRequest) : Option Claims → Prop where
  | unguarded (h : PyText.startsWith "/v1/" request.path = false) : Admits request none
  | off (h : config.auth.enabled = false) : Admits request none
  | bypassed (htoken : request.bearer = none) (h : canBypassAuth config = true) :
      Admits request none
  | token {token : String} {claims : Claims} (htoken : request.bearer = some token)
      (hon : config.auth.enabled = true) (hv1 : PyText.startsWith "/v1/" request.path = true)
      (h : decodeAndValidateToken decode token config.auth config.tenantId = .ok claims) :
      Admits request (some claims)

variable {decode config}

/-- What `enforce_service_auth` forwards. -/
theorem forwarded_iff {request : ApiRequest} {claims : Option Claims} :
    enforceServiceAuth decode config request = .forwarded claims ↔
      Admits decode config request claims := by
  cases hv1 : PyText.startsWith "/v1/" request.path with
  | false =>
    have hopen : enforceServiceAuth decode config request = .forwarded none := by
      rw [enforceServiceAuth, isAuthRequired, hv1, Bool.not_false, Bool.or_true]
      rfl
    rw [hopen]
    constructor
    · intro h
      rw [← AuthOutcome.forwarded.inj h]
      exact .unguarded hv1
    · intro h
      cases h with
      | unguarded _ => rfl
      | off _ => rfl
      | bypassed _ _ => rfl
      | token _ _ hpath _ =>
        rw [hv1] at hpath
        cases hpath
  | true =>
    rw [enforceServiceAuth_of_v1 decode hv1]
    cases hon : config.auth.enabled with
    | false =>
      constructor
      · intro h
        rw [← AuthOutcome.forwarded.inj h]
        exact .off hon
      · intro h
        cases h with
        | token _ hon' _ _ =>
          rw [hon] at hon'
          cases hon'
        | unguarded _ => rfl
        | off _ => rfl
        | bypassed _ _ => rfl
    | true =>
      rw [Bool.not_true, if_neg Bool.false_ne_true]
      cases hbearer : request.bearer with
      | none =>
        cases hbypass : canBypassAuth config with
        | false =>
          refine ⟨nofun, fun h => ?_⟩
          cases h with
          | unguarded h => rw [hv1] at h; cases h
          | off h => rw [hon] at h; cases h
          | bypassed _ h => rw [hbypass] at h; cases h
          | token h _ _ _ => rw [hbearer] at h; cases h
        | true =>
          constructor
          · intro h
            rw [← AuthOutcome.forwarded.inj h]
            exact .bypassed hbearer hbypass
          · intro h
            cases h with
            | token h _ _ _ => rw [hbearer] at h; cases h
            | unguarded _ => rfl
            | off _ => rfl
            | bypassed _ _ => rfl
      | some token =>
        dsimp only
        cases hdecode : decodeAndValidateToken decode token config.auth config.tenantId with
        | ok accepted =>
          constructor
          · intro h
            rw [← AuthOutcome.forwarded.inj h]
            exact .token hbearer hon hv1 hdecode
          · intro h
            cases h with
            | unguarded h => rw [hv1] at h; cases h
            | off h => rw [hon] at h; cases h
            | bypassed h _ => rw [hbearer] at h; cases h
            | token h _ _ hok =>
              rw [hbearer] at h
              obtain rfl := Option.some.inj h
              rw [hdecode] at hok
              rw [Except.ok.inj hok]
        | error e =>
          constructor
          · intro h
            cases e <;> exact nomatch h
          · intro h
            cases h with
            | unguarded h => rw [hv1] at h; cases h
            | off h => rw [hon] at h; cases h
            | bypassed h _ => rw [hbearer] at h; cases h
            | token h _ _ hok =>
              rw [hbearer] at h
              obtain rfl := Option.some.inj h
              rw [hdecode] at hok
              cases hok

theorem admission_served_iff {request : ApiRequest} {claims : Option Claims} :
    admission decode config request = .served claims ↔
      roleServes (runtimeRole config) request.path = true ∧
        Admits decode config request claims := by
  rw [← forwarded_iff, admission]
  cases roleServes (runtimeRole config) request.path with
  | false => exact ⟨nofun, fun h => nomatch h.1⟩
  | true =>
    cases enforceServiceAuth decode config request with
    | forwarded claims' =>
      constructor
      · intro h
        exact ⟨rfl, congrArg _ (Admission.served.inj h)⟩
      · rintro ⟨-, h⟩
        exact congrArg _ (AuthOutcome.forwarded.inj h)
    | unauthorized detail => exact ⟨nofun, fun h => nomatch h.2⟩
    | raised => exact ⟨nofun, fun h => nomatch h.2⟩

/-! ### The security headers -/

theorem headers_setDefault (r : ApiResponse) (name value : String) :
    ∃ added, (r.setDefault name value).headers = r.headers ++ added ∧
      (∀ h ∈ added, h = (name, value) ∧ name ∉ r.headers.map Prod.fst) ∧
      name ∈ (r.setDefault name value).headers.map Prod.fst := by
  rw [ApiResponse.setDefault]
  split
  · next h => exact ⟨[], (List.append_nil _).symm, nofun, h⟩
  · next h =>
    refine ⟨[(name, value)], rfl, fun x hx => ⟨List.mem_singleton.1 hx, h⟩, ?_⟩
    rw [List.map_append]
    exact List.mem_append_right _ (List.mem_singleton_self _)

/-- Headers are added behind those there are, each under a name that was free, and then each name
is there. -/
theorem headers_foldl (defaults : List (String × String)) (r : ApiResponse) :
    ∃ added, (defaults.foldl (fun r h => r.setDefault h.1 h.2) r).headers = r.headers ++ added ∧
      (∀ h ∈ added, h ∈ defaults ∧ h.1 ∉ r.headers.map Prod.fst) ∧
      ∀ h ∈ defaults, h.1 ∈
        (defaults.foldl (fun r h => r.setDefault h.1 h.2) r).headers.map Prod.fst := by
  induction defaults generalizing r with
  | nil => exact ⟨[], (List.append_nil _).symm, nofun, nofun⟩
  | cons d defaults ih =>
    obtain ⟨first, hfirst, hfree, hthere⟩ := headers_setDefault r d.1 d.2
    obtain ⟨rest, hrest, hfrees, htheres⟩ := ih (r.setDefault d.1 d.2)
    rw [List.foldl_cons]
    refine ⟨first ++ rest, by rw [hrest, hfirst, List.append_assoc], fun h hh => ?_,
      fun h hh => ?_⟩
    · rcases List.mem_append.1 hh with hf | hr
      · obtain ⟨rfl, hname⟩ := hfree h hf
        exact ⟨List.mem_cons_self, hname⟩
      · obtain ⟨hmem, hname⟩ := hfrees h hr
        refine ⟨List.mem_cons_of_mem _ hmem, fun hin => hname ?_⟩
        rw [hfirst, List.map_append]
        exact List.mem_append_left _ hin
    · rcases List.mem_cons.1 hh with rfl | hmem
      · rw [hrest, List.map_append]
        exact List.mem_append_left _ hthere
      · exact htheres h hmem

/-- What a refusal looks like. -/
theorem refused_cases {request : ApiRequest} {response : ApiResponse}
    (h : admission decode config request = .refused response) :
    response = detailResponse 503 "route unavailable for runtime role 'gateway'" [] ∨
      ∃ detail, response = detailResponse 401 detail [("www-authenticate", "Bearer")] := by
  rw [admission] at h
  split at h
  · cases hauth : enforceServiceAuth decode config request with
    | forwarded claims => rw [hauth] at h; cases h
    | raised => rw [hauth] at h; cases h
    | unauthorized detail =>
      rw [hauth] at h
      exact .inr ⟨detail, (Admission.refused.inj h).symm⟩
  · exact .inl (Admission.refused.inj h).symm

/-- A refusal has none of the security headers. -/
theorem refused_bare {request : ApiRequest} {response : ApiResponse}
    (h : admission decode config request = .refused response) :
    ∀ header ∈ securityHeaders, header.1 ∉ response.headers.map Prod.fst := by
  have hnames : response.headers.map Prod.fst = ["content-length", "content-type"] ∨
      response.headers.map Prod.fst = ["www-authenticate", "content-length", "content-type"] := by
    rcases refused_cases h with rfl | ⟨detail, rfl⟩
    · exact .inl rfl
    · exact .inr rfl
  intro header hheader
  have hboth : ∀ header ∈ securityHeaders, header.1 ∉ ["content-length", "content-type"] ∧
      header.1 ∉ ["www-authenticate", "content-length", "content-type"] := by decide
  rcases hnames with hn | hn
  · rw [hn]
    exact (hboth header hheader).1
  · rw [hn]
    exact (hboth header hheader).2

end

/-- What the three middlewares promise of the endpoints behind them and of the responses. -/
structure Surface (decode : JwtDecodeArgs → Except JwtError Claims) (config : PlatformConfig)
    (endpoint : Endpoint ε) (request : ApiRequest) : Prop where
  /-- The endpoint sees the requests that the role serves and authentication admits, with the claims
  of their tokens, and no other. -/
  served : ∀ claims, admission decode config request = .served claims ↔
    roleServes (runtimeRole config) request.path = true ∧ Admits decode config request claims
  /-- What the endpoint answers is kept, and the security headers it does not set are added. -/
  kept : ∀ claims, admission decode config request = .served claims →
    match endpoint request claims with
    | .error e => surfaceStack decode config endpoint request = .error (.behind e)
    | .ok r => ∃ added, surfaceStack decode config endpoint request =
          .ok { r with headers := r.headers ++ added } ∧
        (∀ h ∈ added, h ∈ securityHeaders ∧ h.1 ∉ r.headers.map Prod.fst) ∧
        ∀ h ∈ securityHeaders, h.1 ∈ (r.headers ++ added).map Prod.fst
  /-- A refusal is one of two responses, and carries none of them. -/
  bare : ∀ response, admission decode config request = .refused response →
    surfaceStack decode config endpoint request = .ok response ∧
      ∀ h ∈ securityHeaders, h.1 ∉ response.headers.map Prod.fst
  /-- On a gateway nothing under `/v1/` but the interception is served. -/
  gateway : ∀ claims, admission decode config request = .served claims →
    runtimeRole config = "gateway" → PyText.startsWith "/v1/" request.path = true →
    request.path = "/v1/intercept"
  /-- In production and staging nothing under `/v1/` is served without an accepted token. -/
  production : ∀ claims, admission decode config request = .served claims →
    config.validateRuntimeSettings = .ok () → Unlisted config → config.productionLike = true →
    PyText.startsWith "/v1/" request.path = true → CarriesAcceptedToken decode config request

theorem addSecurityHeaders_fields (r : ApiResponse) :
    (addSecurityHeaders r).statusCode = r.statusCode ∧ (addSecurityHeaders r).body = r.body := by
  have hset : ∀ (r : ApiResponse) name value, (r.setDefault name value).statusCode = r.statusCode ∧
      (r.setDefault name value).body = r.body := by
    intro r name value
    rw [ApiResponse.setDefault]
    split <;> exact ⟨rfl, rfl⟩
  have hfold : ∀ (defaults : List (String × String)) (r : ApiResponse),
      (defaults.foldl (fun r h => r.setDefault h.1 h.2) r).statusCode = r.statusCode ∧
        (defaults.foldl (fun r h => r.setDefault h.1 h.2) r).body = r.body := by
    intro defaults
    induction defaults with
    | nil => exact fun r => ⟨rfl, rfl⟩
    | cons d defaults ih =>
      intro r
      obtain ⟨hstatus, hbody⟩ := ih (r.setDefault d.1 d.2)
      obtain ⟨hstatus', hbody'⟩ := hset r d.1 d.2
      exact ⟨hstatus.trans hstatus', hbody.trans hbody'⟩
  exact hfold securityHeaders r

/-- No path of the API is always available. -/
theorem not_alwaysAvailable {path : String} (h : PyText.startsWith "/v1/" path = true) :
    path ∉ alwaysAvailablePaths ∧ PyText.startsWith "/platform" path = false := by
  constructor
  · intro hmem
    have hnone : ∀ p ∈ alwaysAvailablePaths, PyText.startsWith "/v1/" p = false := by decide
    rw [hnone path hmem] at h
    cases h
  · have hpublic := isPublicPath_of_v1 h
    rw [isPublicPath, Bool.or_eq_false_iff] at hpublic
    simpa [publicPathPrefixes] using hpublic.2

/-- **The surface of the API**, for every endpoint behind it. -/
theorem surface (decode : JwtDecodeArgs → Except JwtError Claims) (config : PlatformConfig)
    (endpoint : Endpoint ε) (request : ApiRequest) : Surface decode config endpoint request := by
  refine ⟨fun claims => admission_served_iff, fun claims h => ?_, fun response h => ?_,
    fun claims h hrole hv1 => ?_, fun claims h haccepted hunlisted hproduction hv1 => ?_⟩
  · have hstack : surfaceStack decode config endpoint request =
        match endpoint request claims with
        | .ok r => .ok (addSecurityHeaders r)
        | .error e => .error (.behind e) := by rw [surfaceStack_eq, h]
    cases hr : endpoint request claims with
    | error e => rw [hstack, hr]
    | ok r =>
      obtain ⟨added, hheaders, hfree, hthere⟩ := headers_foldl securityHeaders r
      obtain ⟨hstatus, hbody⟩ := addSecurityHeaders_fields r
      refine ⟨added, ?_, hfree, fun x hx => hheaders ▸ hthere x hx⟩
      rw [hstack, hr]
      refine congrArg Except.ok ?_
      rw [← hheaders, ← hstatus, ← hbody]
      rfl
  · refine ⟨?_, refused_bare h⟩
    rw [surfaceStack_eq, h]
  · have hserves := (admission_served_iff.1 h).1
    obtain ⟨halways, hplatform⟩ := not_alwaysAvailable hv1
    rw [roleServes, hrole, hplatform, hv1, decide_eq_false halways] at hserves
    simpa using hserves
  · have hprotects := protects_of_productionLike decode haccepted hunlisted hproduction
    exact hprotects request hv1 claims (forwarded_iff.2 (admission_served_iff.1 h).2)

end ComputeIntelligence
