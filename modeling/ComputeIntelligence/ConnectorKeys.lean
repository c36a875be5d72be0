import ComputeIntelligence.JsonForm
import ComputeIntelligence.ConnectorRedelivery
import ComputeIntelligence.ConnectorSchemas

/-! # Idempotency keys of the connectors

Every connector keys an event by an id that the source supplies, or, where the payload
carries none, by a fingerprint of parts of the payload.
-/
namespace ComputeIntelligence

/-- Fingerprints tell two values apart exactly when their JSON texts do. -/
def ConnectorEnv.SeparatesForms (env : ConnectorEnv) : Prop :=
  ∀ v w s, env.fingerprint v = .ok s → (env.fingerprint w = .ok s ↔ v.jsonForm = w.jsonForm)

theorem ConnectorEnv.SeparatesForms.digest_eq_iff {env : ConnectorEnv} (h : env.SeparatesForms)
    {v w : PyVal} {s t : String} (hv : env.fingerprint v = .ok s) (hw : env.fingerprint w = .ok t) :
    s = t ↔ v.jsonForm = w.jsonForm := by
  rw [← h v w s hv, hw, Except.ok.injEq]
  exact eq_comm

/-! ### An id or a fingerprint -/

/-- A text that is there and not empty. -/
def nonblank : Except PyExn String → Option String
  | .ok s => if s ≠ "" then some s else none
  | .error _ => none

theorem nonblank_ok_of_ne {s : String} (h : s ≠ "") : nonblank (.ok s) = some s := if_pos h

@[simp] theorem nonblank_ok_empty : nonblank (.ok "") = none := rfl

/-- `f"{id_tag}{id}" if id else f"{hash_tag}{hash}"`. -/
def keyFrom (idTag hashTag : String) (id hash : Except PyExn String) : Except PyExn String := do
  let i ← id
  if i ≠ "" then .ok (idTag ++ i) else .ok (hashTag ++ (← hash))

theorem keyFrom_cases {idTag hashTag k : String} {id hash : Except PyExn String}
    (h : keyFrom idTag hashTag id hash = .ok k) :
    (∃ i, nonblank id = some i ∧ k = idTag ++ i) ∨
      (nonblank id = none ∧ ∃ s, hash = .ok s ∧ k = hashTag ++ s) := by
  obtain ⟨i, hid, hkey⟩ := Except.bind_eq_ok h
  by_cases hi : i = ""
  · rw [if_neg (not_not_intro hi)] at hkey
    obtain ⟨s, hs, hkey⟩ := Except.bind_eq_ok hkey
    exact .inr ⟨by rw [hid, hi, nonblank_ok_empty], s, hs, (Except.ok.inj hkey).symm⟩
  · rw [if_pos hi] at hkey
    exact .inl ⟨i, by rw [hid, nonblank_ok_of_ne hi], (Except.ok.inj hkey).symm⟩

/-- Keys of two payloads without a common id, where the two kinds of key are told apart by
their tags.  `D` says that the fingerprinted parts differ. -/
theorem keyFrom_ne_iff (idTag hashTag : String) {k₁ k₂ : String}
    {id₁ id₂ hash₁ hash₂ : Except PyExn String} {D : Prop} (hsep : ∀ a b, idTag ++ a ≠ hashTag ++ b)
    (h₁ : keyFrom idTag hashTag id₁ hash₁ = .ok k₁) (h₂ : keyFrom idTag hashTag id₂ hash₂ = .ok k₂)
    (hid : ∀ i, nonblank id₁ = some i → nonblank id₂ ≠ some i)
    (hD : ∀ s t, hash₁ = .ok s → hash₂ = .ok t → (s ≠ t ↔ D)) :
    k₁ ≠ k₂ ↔ nonblank id₁ ≠ none ∨ nonblank id₂ ≠ none ∨ D := by
  rcases keyFrom_cases h₁ with ⟨i, hi, rfl⟩ | ⟨hi, s, hs, rfl⟩ <;>
    rcases keyFrom_cases h₂ with ⟨j, hj, rfl⟩ | ⟨hj, t, ht, rfl⟩
  · refine iff_of_true (fun h => hid i hi ?_) (.inl (by simp [hi]))
    rw [hj, (String.append_right_inj idTag).1 h]
  · exact iff_of_true (hsep i t) (.inl (by simp [hi]))
  · exact iff_of_true (hsep j s).symm (.inr (.inl (by simp [hj])))
  · rw [← hD s t hs ht, Ne, String.append_right_inj]
    simp [hi, hj]

/-! ### Fingerprinted texts -/

/-- `str(payload.get(key, ""))`. -/
def textAt (payload : Payload) (key : String) : Except PyExn String :=
  (payload.getD key (.str "")).toStr

theorem strMaterial_spec {fields m : List (String × PyVal)} (h : strMaterial fields = .ok m) :
    ∃ ts : List String, (fields.map fun kv => kv.2.toStr) = ts.map .ok ∧
      m.map Prod.fst = fields.map Prod.fst ∧ (m.map fun kv => kv.2.jsonForm) = ts.map .str := by
  unfold strMaterial at h
  induction fields generalizing m with
  | nil =>
    obtain rfl := Except.ok.inj h
    exact ⟨[], rfl, rfl, rfl⟩
  | cons kv fields ih =>
    rw [List.mapM_cons] at h
    obtain ⟨field, hfield, h⟩ := Except.bind_eq_ok h
    obtain ⟨text, htext, hfield⟩ := Except.bind_eq_ok hfield
    obtain ⟨rest, hrest, h⟩ := Except.bind_eq_ok h
    obtain rfl := Except.ok.inj hfield
    obtain rfl := Except.ok.inj h
    obtain ⟨ts, hts, hkeys, hforms⟩ := ih hrest
    refine ⟨text :: ts, by rw [List.map_cons, List.map_cons, htext, hts],
      by rw [List.map_cons, List.map_cons, hkeys], ?_⟩
    rw [List.map_cons, List.map_cons, hforms, PyVal.jsonForm_str]

/-- Two dictionaries of texts under the same keys are written alike exactly when their texts
are the same. -/
theorem strMaterial_form_iff {fields fields' m n : List (String × PyVal)}
    (hm : strMaterial fields = .ok m) (hn : strMaterial fields' = .ok n)
    (hkeys : fields.map Prod.fst = fields'.map Prod.fst) (hd : (fields.map Prod.fst).Nodup) :
    (PyVal.dict m).jsonForm = (PyVal.dict n).jsonForm ↔
      (fields.map fun kv => kv.2.toStr) = fields'.map fun kv => kv.2.toStr := by
  obtain ⟨ts, hts, hmkeys, hmforms⟩ := strMaterial_spec hm
  obtain ⟨us, hus, hnkeys, hnforms⟩ := strMaterial_spec hn
  rw [PyVal.jsonForm_dict_iff (by rw [hmkeys, hnkeys, hkeys]) (by rw [hmkeys]; exact hd), hmforms,
    hnforms, hts, hus, (List.map_injective_iff.2 fun _ _ h => PyVal.str.inj h).eq_iff,
    (List.map_injective_iff.2 fun _ _ h => Except.ok.inj h).eq_iff]

/-! ### AWS -/

/-- The fields of a cost-and-usage record that its fallback key depends on. -/
def curFallbackFields : List String :=
  ["lineItem/UsageAccountId", "lineItem/ProductCode", "lineItem/ResourceId",
    "lineItem/UsageStartDate", "lineItem/UsageEndDate", "lineItem/UnblendedCost"]

variable {env : ConnectorEnv} {tenantId : String} {r₁ r₂ : ClockReading}

theorem curIdempotencyKey_atReading (r : ClockReading) (record : Payload) :
    curIdempotencyKey (env.atReading r) record = curIdempotencyKey env record := rfl

theorem trailKey_atReading (r : ClockReading) (trailEvent : Payload) :
    trailKey (env.atReading r) trailEvent = trailKey env trailEvent := rfl

theorem recordFingerprint_ne_iff (hf : env.SeparatesForms) {record record' : Payload}
    {s t : String} (hs : stableRecordFingerprint env record = .ok s)
    (ht : stableRecordFingerprint env record' = .ok t) :
    s ≠ t ↔ ∃ k ∈ curFallbackFields, textAt record k ≠ textAt record' k := by
  obtain ⟨m, hm, hs⟩ := Except.bind_eq_ok hs
  obtain ⟨n, hn, ht⟩ := Except.bind_eq_ok ht
  rw [Ne, hf.digest_eq_iff hs ht, strMaterial_form_iff hm hn rfl (by simp)]
  simp only [List.map_cons, List.map_nil, List.cons.injEq, and_true, curFallbackFields, textAt,
    List.mem_cons, List.not_mem_nil, or_false, exists_eq_or_imp, exists_eq_left]
  tauto

/-- The fields of a CloudTrail event that its fallback key depends on. -/
def trailFallbackFields : List String := ["eventName", "eventTime", "sourceIPAddress"]

/-- Those of its `userIdentity`. -/
def identityFallbackFields : List String := ["arn", "principalId"]

/-- `str(identity.get(key, ""))`. -/
def identityText (trailEvent : Payload) (key : String) : Except PyExn String := do
  (← (trailEvent.getD "userIdentity" (.dict [])).get key (.str "")).toStr

/-- The fallback keys of two CloudTrail events are computed from different texts. -/
def TrailFallbackDiffers (trailEvent trailEvent' : Payload) : Prop :=
  (∃ k ∈ trailFallbackFields, textAt trailEvent k ≠ textAt trailEvent' k) ∨
    ∃ k ∈ identityFallbackFields, identityText trailEvent k ≠ identityText trailEvent' k

theorem trailFingerprint_ne_iff (hf : env.SeparatesForms) {trailEvent trailEvent' : Payload}
    {s t : String} (hs : stableTrailFingerprint env trailEvent = .ok s)
    (ht : stableTrailFingerprint env trailEvent' = .ok t) :
    s ≠ t ↔ TrailFallbackDiffers trailEvent trailEvent' := by
  obtain ⟨arn, harn, hs⟩ := Except.bind_eq_ok hs
  obtain ⟨principal, hprincipal, hs⟩ := Except.bind_eq_ok hs
  obtain ⟨m, hm, hs⟩ := Except.bind_eq_ok hs
  obtain ⟨arn', harn', ht⟩ := Except.bind_eq_ok ht
  obtain ⟨principal', hprincipal', ht⟩ := Except.bind_eq_ok ht
  obtain ⟨n, hn, ht⟩ := Except.bind_eq_ok ht
  rw [Ne, hf.digest_eq_iff hs ht, strMaterial_form_iff hm hn rfl (by simp)]
  have htext : ∀ {e : Payload} {k : String} {v : PyVal},
      (e.getD "userIdentity" (.dict [])).get k (.str "") = .ok v → identityText e k = v.toStr :=
    fun h => by rw [identityText, h]; rfl
  simp only [List.map_cons, List.map_nil, List.cons.injEq, and_true, TrailFallbackDiffers,
    trailFallbackFields, identityFallbackFields, textAt, htext harn, htext harn', htext hprincipal,
    htext hprincipal', List.mem_cons, List.not_mem_nil, or_false, exists_eq_or_imp, exists_eq_left]
  tauto

/-! ### What keys an event

One lemma per transform: the key of its event is computed by the function of the source,
or from the fields, that the lemma names. -/

theorem transformCurRecord_keyed (record : Payload) :
    (transformCurRecord env tenantId record).Ensures fun e =>
      curIdempotencyKey env record = .ok e.idempotencyKey :=
  (transformCurRecord_ensures record).imp fun _ he => he.2

theorem transformTrailEvent_keyed (trailEvent : Payload) :
    (transformTrailEvent env tenantId trailEvent).Ensures
      (IfAny fun e => trailKey env trailEvent = .ok e.idempotencyKey) :=
  IfAny.imp (transformTrailEvent_ensures trailEvent) fun _ he => he.2

/-- `log_entry.get("requestId", "")`, which must be a text. -/
def requestIdText (logEntry : Payload) : Except PyExn String :=
  laxStr (logEntry.getD "requestId" (.str ""))

theorem transformInvocation_keyed (logEntry : Payload) :
    (transformInvocation env tenantId logEntry).Ensures fun e =>
      ∃ id, requestIdText logEntry = .ok id ∧ e.idempotencyKey = "bedrock:" ++ id := by
  unfold transformInvocation
  refine Except.ensures_bind_ok fun inference hinf => Except.ensures_bind fun time => ?_
  obtain ⟨cost, -, hinf⟩ := Except.bind_eq_ok hinf
  obtain ⟨latency, -, hinf⟩ := Except.bind_eq_ok hinf
  obtain ⟨model, -, hinf⟩ := Except.bind_eq_ok hinf
  obtain ⟨arn, -, hinf⟩ := Except.bind_eq_ok hinf
  obtain ⟨region, -, hinf⟩ := Except.bind_eq_ok hinf
  obtain ⟨input, -, hinf⟩ := Except.bind_eq_ok hinf
  obtain ⟨output, -, hinf⟩ := Except.bind_eq_ok hinf
  obtain ⟨latencyMs, -, hinf⟩ := Except.bind_eq_ok hinf
  obtain ⟨costUsd, -, hinf⟩ := Except.bind_eq_ok hinf
  obtain ⟨id, hid, hinf⟩ := Except.bind_eq_ok hinf
  obtain rfl := Except.ok.inj hinf
  exact (newEvent_ensures _ _ _ _ _ _ _).imp fun e he => ⟨id, hid, he.2.2.2⟩

/-! ### GitHub -/

/-- `str(repo.get("full_name", "")).strip()`. -/
def repoName (payload : Payload) : Except PyExn String := do
  stripped (← (dictOrEmpty (payload.getD "repository" .none)).get "full_name" (.str ""))

/-- `event_name.strip().lower()`. -/
def normalizedEvent (eventName : String) : String := PyText.lower (PyText.strip eventName)

/-- What stands for a missing delivery id of a webhook. -/
def webhookHash (env : ConnectorEnv) (eventName : String) (payload : Payload) :
    Except PyExn String := do
  env.fingerprint (.list [.str (normalizedEvent eventName), .str (← repoName payload),
    .dict payload.items])

/-- The workflow job of a payload. -/
def workflowJob (payload : Payload) : PyVal := dictOrEmpty (payload.getD "workflow_job" .none)

/-- `str(workflow_job.get("run_id", "")).strip()`. -/
def runIdText (payload : Payload) : Except PyExn String := do
  stripped (← (workflowJob payload).get "run_id" (.str ""))

/-- What stands for a missing delivery id of a workflow job. -/
def workflowJobHash (env : ConnectorEnv) (payload : Payload) : Except PyExn String := do
  env.fingerprint (.list [.str "workflow_job", .str (← repoName payload),
    .str (← runIdText payload), workflowJob payload])

theorem webhookHash_atReading (r : ClockReading) (eventName : String) (payload : Payload) :
    webhookHash (env.atReading r) eventName payload = webhookHash env eventName payload := rfl

theorem workflowJobHash_atReading (r : ClockReading) (payload : Payload) :
    workflowJobHash (env.atReading r) payload = workflowJobHash env payload := rfl

/-- The delivery id of a payload, or what stands for it. -/
def deliveryOr (deliveryId : String) (hash : Except PyExn String) : Except PyExn String :=
  if PyText.strip deliveryId ≠ "" then .ok (PyText.strip deliveryId) else hash

/-- A delivery id that is given. -/
def deliveryGiven (deliveryId : String) : Option String := nonblank (.ok (PyText.strip deliveryId))

theorem deliveryOr_cases {deliveryId s : String} {hash : Except PyExn String}
    (h : deliveryOr deliveryId hash = .ok s) :
    deliveryGiven deliveryId = some s ∨ (deliveryGiven deliveryId = none ∧ hash = .ok s) := by
  unfold deliveryOr at h
  split at h
  · rename_i hd
    obtain rfl := Except.ok.inj h
    exact .inl (nonblank_ok_of_ne hd)
  · rename_i hd
    exact .inr ⟨by rw [deliveryGiven, not_not.1 hd, nonblank_ok_empty], h⟩

/-- What the ids of two deliveries without a common one differ by.  A delivery id carries no
tag that keeps it apart from a fingerprint. -/
def DeliveriesDiffer (deliveryId deliveryId' : String) (hash hash' : Except PyExn String)
    (D : Prop) : Prop :=
  match deliveryGiven deliveryId, deliveryGiven deliveryId' with
  | some _, some _ => True
  | some i, none => hash' ≠ .ok i
  | none, some i => hash ≠ .ok i
  | none, none => D

theorem deliveryOr_ne_iff {deliveryId deliveryId' s t : String} {hash hash' : Except PyExn String}
    {D : Prop} (hs : deliveryOr deliveryId hash = .ok s) (ht : deliveryOr deliveryId' hash' = .ok t)
    (hid : ∀ i, deliveryGiven deliveryId = some i → deliveryGiven deliveryId' ≠ some i)
    (hD : hash = .ok s → hash' = .ok t → (s ≠ t ↔ D)) :
    s ≠ t ↔ DeliveriesDiffer deliveryId deliveryId' hash hash' D := by
  unfold DeliveriesDiffer
  rcases deliveryOr_cases hs with hi | ⟨hi, hs⟩ <;> rcases deliveryOr_cases ht with hj | ⟨hj, ht⟩
  · rw [hi, hj]
    exact iff_of_true (fun h => hid s hi (h ▸ hj)) trivial
  · rw [hi, hj, ht]
    exact not_congr ⟨fun h => by rw [h], fun h => (Except.ok.inj h).symm⟩
  · rw [hi, hj, hs]
    exact not_congr ⟨fun h => by rw [h], fun h => Except.ok.inj h⟩
  · rw [hi, hj]
    exact hD hs ht

/-- The tag of a webhook key. -/
def webhookTag : EventType → String
  | .codeCommit => "github-push:"
  | _ => "github-pr-merge:"

/-- The webhook an event of a type comes from. -/
def webhookEvent : EventType → String
  | .codeCommit => "push"
  | _ => "pull_request"

/-- What is known of the key of a webhook's event. -/
def WebhookKeyed (env : ConnectorEnv) (eventName : String) (payload : Payload)
    (deliveryId : String) (e : DomainEvent) : Prop :=
  normalizedEvent eventName = webhookEvent e.eventType ∧
    ∃ s, deliveryOr deliveryId (webhookHash env eventName payload) = .ok s ∧
      e.idempotencyKey = webhookTag e.eventType ++ s

theorem webhookKeyed_atReading (r : ClockReading) (eventName : String) (payload : Payload)
    (deliveryId : String) :
    WebhookKeyed (env.atReading r) eventName payload deliveryId =
      WebhookKeyed env eventName payload deliveryId := rfl

theorem transformWebhook_keyed (eventName : String) (payload : Payload) (deliveryId : String) :
    (transformWebhook env tenantId eventName payload deliveryId).Ensures
      (IfAny (WebhookKeyed env eventName payload deliveryId)) := by
  unfold transformWebhook
  refine Except.ensures_bind_ok fun fullName hfull => Except.ensures_bind_ok fun repo hrepo => ?_
  refine Except.ensures_bind fun rawTime => Except.ensures_bind fun timestamp => ?_
  refine Except.ensures_bind_ok fun stableId hstable => ?_
  have hname : repoName payload = .ok repo := by
    rw [repoName, hfull]
    exact hrepo
  have hid : deliveryOr deliveryId (webhookHash env eventName payload) = .ok stableId := by
    rw [webhookHash, hname]
    exact hstable
  split
  · rename_i hpush
    refine ensures_ifAny ((transformPush_ensures _ _ _ _).imp fun e he => ?_)
    obtain ⟨-, htype, hkey⟩ := he
    exact ⟨by rw [htype]; exact hpush, stableId, hid, by rw [htype]; exact hkey⟩
  · split
    · rename_i hpr
      refine Except.ensures_bind fun action => Except.ensures_bind fun rawMerged => ?_
      refine Except.ensures_bind fun merged => Except.ensures_ite ?_ ifAny_none
      refine ensures_ifAny ((transformMerge_ensures _ _ _).imp fun e he => ?_)
      obtain ⟨-, htype, hkey⟩ := he
      exact ⟨by rw [htype]; exact hpr, stableId, hid, by rw [htype]; exact hkey⟩
    · exact ifAny_none

theorem transformWorkflowJob_keyed (payload : Payload) (deliveryId : String) :
    (transformWorkflowJob env tenantId payload deliveryId).Ensures (IfAny fun e =>
      ∃ s, deliveryOr deliveryId (workflowJobHash env payload) = .ok s ∧
        e.idempotencyKey = "github-actions:" ++ s) := by
  unfold transformWorkflowJob
  refine Except.ensures_bind fun action => Except.ensures_ite ifAny_none ?_
  refine Except.ensures_bind_ok fun fullName hfull => Except.ensures_bind_ok fun repo hrepo => ?_
  refine Except.ensures_bind_ok fun rawRun hraw => Except.ensures_bind_ok fun runId hrun => ?_
  refine Except.ensures_ite ifAny_none ?_
  refine Except.ensures_bind fun labels => Except.ensures_bind fun normalized => ?_
  refine Except.ensures_bind fun completedAt => Except.ensures_bind fun time => ?_
  refine Except.ensures_bind_ok fun stableId hstable => Except.ensures_bind fun rawLogin => ?_
  refine Except.ensures_bind fun login => Except.ensures_bind fun rawName => ?_
  refine Except.ensures_bind fun name => Except.ensures_bind fun rawConclusion => ?_
  refine Except.ensures_bind fun conclusion => ensures_ifAny ?_
  refine (newEvent_ensures _ _ _ _ _ _ _).imp fun e he => ?_
  have hname : repoName payload = .ok repo := by
    rw [repoName, hfull]
    exact hrepo
  have hrunId : runIdText payload = .ok runId := by
    rw [runIdText, workflowJob, hraw]
    exact hrun
  refine ⟨stableId, ?_, he.2.2.2⟩
  rw [workflowJobHash, hname, hrunId]
  exact hstable

/-! ### Okta -/

/-- `str(event.get("eventType", "")).strip()`. -/
def eventTypeText (event : Payload) : Except PyExn String :=
  stripped (event.getD "eventType" (.str ""))

/-- The time of a system log event. -/
def publishedTime (env : ConnectorEnv) (event : Payload) : Except PyExn AwareDateTime :=
  parseEventTime env (event.getD "published" .none)

/-- What is known of the key of a system log event. -/
def SystemLogKeyed (env : ConnectorEnv) (event : Payload) (e : DomainEvent) : Prop :=
  ∃ eventType time, eventTypeText event = .ok eventType ∧ publishedTime env event = .ok time ∧
    oktaIdempotencyKey env eventType time event = .ok e.idempotencyKey

theorem transformSystemLogEvent_keyed (event : Payload) :
    (transformSystemLogEvent env tenantId event).Ensures (IfAny (SystemLogKeyed env event)) := by
  unfold transformSystemLogEvent
  refine Except.ensures_bind_ok fun eventType htype => Except.ensures_bind fun detail => ?_
  refine Except.ensures_bind_ok fun time htime => Except.ensures_bind_ok fun key hkey => ?_
  refine Except.ensures_ite ?_ (Except.ensures_ite ?_ ifAny_none)
  · refine IfAny.imp (transformLogin_ensures _ _ _ _ _) fun e he => ?_
    exact ⟨eventType, time, htype, htime, he.2.2 ▸ hkey⟩
  · refine IfAny.imp (transformGroupChange_ensures _ _ _ _ _ _) fun e he => ?_
    exact ⟨eventType, time, htype, htime, he.2.2 ▸ hkey⟩

/-- The time a raw value states, if it states one. -/
def statedTime (env : ConnectorEnv) (rawTime : PyVal) : Except PyExn (Option AwareDateTime) :=
  let toUtc (t : PyDateTime) : AwareDateTime := .utc (t.wall - t.utcoffset.getD 0)
  match rawTime with
  | .datetime t => .ok (some (toUtc t))
  | _ => do
    if !(← rawTime.truth) then .ok none
    else
      let value ← stripped rawTime
      let value := if PyText.endsWith "Z" value then
        PyText.take (value.length - 1) value ++ "+00:00" else value
      .ok ((env.fromisoformat value).map toUtc)

/-- What states no time is given that of the clock. -/
theorem parseEventTime_eq (r : ClockReading) (rawTime : PyVal) :
    parseEventTime (env.atReading r) rawTime =
      (statedTime env rawTime).map fun stated => stated.getD r.now := by
  by_cases hdatetime : ∃ t, rawTime = .datetime t
  · obtain ⟨t, rfl⟩ := hdatetime
    rfl
  · have hnot : ∀ t, rawTime = .datetime t → False := fun t ht => hdatetime ⟨t, ht⟩
    rw [parseEventTime.eq_2 _ _ hnot, statedTime.eq_2 _ _ hnot]
    cases rawTime.truth with
    | error e => rfl
    | ok truth =>
      cases truth with
      | false => rfl
      | true =>
        cases stripped rawTime with
        | error e => rfl
        | ok value =>
          simp only [bind, Except.bind, Bool.not_true, Bool.false_eq_true, if_false, Except.map,
            ConnectorEnv.atReading]
          generalize env.fromisoformat _ = read
          cases read <;> rfl

/-! #### SCIM -/

/-- What is known of the event of a SCIM user. -/
def ScimKeyed (env : ConnectorEnv) (payload : Payload) (e : DomainEvent) : Prop :=
  ∃ userId groups username active s,
    stripped (payload.getD "id" (.str "")) = .ok userId ∧
    scimGroups (payload.getD "groups" (.list [])) = .ok groups ∧
    env.fingerprint (.list [.str "okta-scim", .str userId, .list groups, .str username,
      .bool active]) = .ok s ∧
    e.idempotencyKey = "okta-scim:" ++ s ∧
    e.attrs.items = [("username", .str username), ("active", .bool active),
      ("groups", .list groups), ("operation", .str "sync")]

theorem scimKeyed_atReading (r : ClockReading) (payload : Payload) :
    ScimKeyed (env.atReading r) payload = ScimKeyed env payload := rfl

theorem transformScimUser_keyed (payload : Payload) :
    (transformScimUser env tenantId payload).Ensures (IfAny (ScimKeyed env payload)) := by
  unfold transformScimUser
  refine Except.ensures_bind_ok fun userId hid => Except.ensures_ite ifAny_none ?_
  refine Except.ensures_bind_ok fun groups hgroups => Except.ensures_bind fun username => ?_
  refine Except.ensures_bind fun active => Except.ensures_bind_ok fun hash hhash => ?_
  refine ensures_ifAny ((newEvent_ensures _ _ _ _ _ _ _).imp fun e he => ?_)
  obtain ⟨-, hattrs, -, hkey⟩ := he
  exact ⟨userId, groups, username, active, hash, hid, hgroups, hhash, hkey, by rw [hattrs]⟩

/-- The groups of a SCIM user are already in the form that their JSON text tells. -/
theorem jsonForm_of_mem_scimGroups {v : PyVal} {groups : List PyVal}
    (h : scimGroups v = .ok groups) : ∀ g ∈ groups, g.jsonForm = g := by
  have hgroup : ∀ {w g : PyVal}, scimGroup w = .ok (some g) → g.jsonForm = g := by
    intro w g hw
    unfold scimGroup at hw
    split at hw
    · obtain ⟨rawId, -, hw⟩ := Except.bind_eq_ok hw
      obtain ⟨id, -, hw⟩ := Except.bind_eq_ok hw
      obtain ⟨rawName, -, hw⟩ := Except.bind_eq_ok hw
      obtain ⟨name, -, hw⟩ := Except.bind_eq_ok hw
      obtain rfl := Option.some.inj (Except.ok.inj hw)
      have hle : ("group_id" : String) ≤ "group_name" := by decide +kernel
      simp [PyVal.jsonForm_dict, hle]
    · cases hw
  unfold scimGroups at h
  split at h
  · rename_i gs
    cases hgs : gs.mapM scimGroup with
    | error e =>
      rw [hgs] at h
      cases h
    | ok found =>
      rw [hgs] at h
      obtain rfl := Except.ok.inj h
      intro g hg
      obtain ⟨o, ho, rfl⟩ := List.mem_filterMap.1 hg
      obtain ⟨w, -, hw⟩ := Except.mem_of_mapM hgs _ ho
      exact hgroup hw
  · obtain rfl := Except.ok.inj h
    exact fun g hg => absurd hg List.not_mem_nil

end ComputeIntelligence
