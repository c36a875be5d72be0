import ComputeIntelligence.ConnectorKeys
import ComputeIntelligence.ConnectorSchemas

/-! # Stable and discriminating keys

A bus that drops events by their idempotency key relies on two things: a payload that is
delivered again has the key it had before, and payloads of different records have different
keys.  For each connector this module says exactly when, given that fingerprints and the ids
of a source do their part.  A payload with an id of its source is safe.  Without one, most
connectors fingerprint less than they put into the event; Bedrock fingerprints nothing, and
Okta also fingerprints the time, which may be that of the clock.
-/
namespace ComputeIntelligence

/-- The connector classes. -/
inductive Connector where
  | awsBilling | awsCloudTrail | bedrockTelemetry | githubScm | githubActions | oktaIdentity
deriving DecidableEq

namespace SourcePayload

/-- The connector that a payload is for. -/
def connector : SourcePayload → Connector
  | .cur _ => .awsBilling
  | .cloudTrail _ => .awsCloudTrail
  | .bedrock _ => .bedrockTelemetry
  | .githubScm .. => .githubScm
  | .githubActions .. => .githubActions
  | .oktaSystemLog _ | .oktaScim _ => .oktaIdentity

/-- The id that the source has given the record of a payload, if there is one. -/
def sourceId : SourcePayload → Option String
  | .cur record => nonblank (stripped (record.getD "identity/LineItemId" (.str "")))
  | .cloudTrail trailEvent => nonblank (stripped (trailEvent.getD "eventID" (.str "")))
  | .bedrock logEntry => nonblank (requestIdText logEntry)
  | .githubScm _ _ deliveryId | .githubActions _ deliveryId => deliveryGiven deliveryId
  | .oktaSystemLog event => nonblank (stripped (event.getD "uuid" (.str "")))
  | .oktaScim _ => none

/-- The key of a payload does not depend on the clock: a system log event has an id or states
its time. -/
def KeyIgnoresClock (env : ConnectorEnv) : SourcePayload → Prop
  | .oktaSystemLog event => (oktaSystemLog event).sourceId ≠ none ∨
      ∃ t, statedTime env (event.getD "published" .none) = .ok (some t)
  | _ => True

/-- The text of the time of a system log event. -/
def publishedText (env : ConnectorEnv) (event : Payload) : Except PyExn String :=
  (publishedTime env event).map fun t => t.1.isoformat

/-- One of two payloads of a connector has an id, or they differ in what is fingerprinted. -/
def ToldApart (env : ConnectorEnv) (r₁ r₂ : ClockReading) : SourcePayload → SourcePayload → Prop
  | .cur record, .cur record' => (cur record).sourceId ≠ none ∨ (cur record').sourceId ≠ none ∨
      ∃ k ∈ curFallbackFields, textAt record k ≠ textAt record' k
  | .cloudTrail trailEvent, .cloudTrail trailEvent' =>
      (cloudTrail trailEvent).sourceId ≠ none ∨ (cloudTrail trailEvent').sourceId ≠ none ∨
        TrailFallbackDiffers trailEvent trailEvent'
  | .bedrock logEntry, .bedrock logEntry' =>
      (bedrock logEntry).sourceId ≠ none ∨ (bedrock logEntry').sourceId ≠ none
  | .githubScm eventName payload deliveryId, .githubScm eventName' payload' deliveryId' =>
      DeliveriesDiffer deliveryId deliveryId' (webhookHash env eventName payload)
        (webhookHash env eventName' payload')
        (repoName payload ≠ repoName payload' ∨
          (PyVal.dict payload.items).jsonForm ≠ (PyVal.dict payload'.items).jsonForm)
  | .githubActions payload deliveryId, .githubActions payload' deliveryId' =>
      DeliveriesDiffer deliveryId deliveryId' (workflowJobHash env payload)
        (workflowJobHash env payload')
        (repoName payload ≠ repoName payload' ∨ runIdText payload ≠ runIdText payload' ∨
          (workflowJob payload).jsonForm ≠ (workflowJob payload').jsonForm)
  | .oktaSystemLog event, .oktaSystemLog event' =>
      (oktaSystemLog event).sourceId ≠ none ∨ (oktaSystemLog event').sourceId ≠ none ∨
        eventTypeText event ≠ eventTypeText event' ∨
        publishedText (env.atReading r₁) event ≠ publishedText (env.atReading r₂) event' ∨
        (PyVal.dict event.items).jsonForm ≠ (PyVal.dict event'.items).jsonForm
  | _, _ => True

end SourcePayload

variable {env : ConnectorEnv} {tenantId : String} {r₁ r₂ : ClockReading} {e f : DomainEvent}

theorem eq_ok_of_map_some {x : Except PyExn DomainEvent} (h : x.map some = .ok (some e)) :
    x = .ok e := by
  cases x with
  | error _ => cases h
  | ok f =>
    cases h
    rfl

/-! ### Redelivery -/

theorem okta_redelivered_iff (hf : env.SeparatesForms) {event : Payload}
    (he : SystemLogKeyed (env.atReading r₁) event e)
    (hf' : SystemLogKeyed (env.atReading r₂) event f) :
    e.idempotencyKey = f.idempotencyKey ↔
      (SourcePayload.oktaSystemLog event).KeyIgnoresClock env ∨
        r₁.now.1.isoformat = r₂.now.1.isoformat := by
  obtain ⟨eventType, time, htype, htime, hkey⟩ := he
  obtain ⟨eventType', time', htype', htime', hkey'⟩ := hf'
  obtain rfl : eventType = eventType' := Except.ok.inj (htype.symm.trans htype')
  have hk : keyFrom "okta:" "okta-fallback:" (stripped (event.getD "uuid" (.str "")))
      (env.fingerprint (.list [.str eventType, .str time.1.isoformat, .dict event.items])) =
        .ok e.idempotencyKey := hkey
  have hk' : keyFrom "okta:" "okta-fallback:" (stripped (event.getD "uuid" (.str "")))
      (env.fingerprint (.list [.str eventType, .str time'.1.isoformat, .dict event.items])) =
        .ok f.idempotencyKey := hkey'
  rcases keyFrom_cases hk with ⟨i, hi, hke⟩ | ⟨hi, s, hs, hke⟩ <;>
    rcases keyFrom_cases hk' with ⟨j, hj, hkf⟩ | ⟨hj, t, ht, hkf⟩
  · obtain rfl : i = j := Option.some.inj (hi.symm.trans hj)
    refine iff_of_true (hke.trans hkf.symm) (.inl (.inl ?_))
    rw [SourcePayload.sourceId, hi]
    exact Option.some_ne_none i
  · rw [hi] at hj
    cases hj
  · rw [hi] at hj
    cases hj
  · have hiso : e.idempotencyKey = f.idempotencyKey ↔ time.1.isoformat = time'.1.isoformat := by
      rw [hke, hkf, String.append_right_inj, hf.digest_eq_iff hs ht]
      simp
    rw [hiso]
    rw [publishedTime, parseEventTime_eq] at htime htime'
    cases hstated : statedTime env (event.getD "published" .none) with
    | error _ =>
      rw [hstated] at htime
      cases htime
    | ok stated =>
      rw [hstated] at htime htime'
      obtain rfl := Except.ok.inj htime
      obtain rfl := Except.ok.inj htime'
      cases stated with
      | some t => exact iff_of_true rfl (.inl (.inr ⟨t, hstated⟩))
      | none =>
        refine ⟨.inr, fun h => h.resolve_left ?_⟩
        rintro (h | ⟨t, h⟩)
        · exact h hi
        · rw [hstated] at h
          cases h

theorem scim_redelivered {payload : Payload} (hattrs : e.attrs = f.attrs)
    (he : ScimKeyed env payload e) (hf : ScimKeyed env payload f) :
    e.idempotencyKey = f.idempotencyKey := by
  obtain ⟨userId, groups, username, active, s, hid, -, hs, hk, he⟩ := he
  obtain ⟨userId', groups', username', active', t, hid', -, ht, hk', hf⟩ := hf
  obtain rfl : userId = userId' := Except.ok.inj (hid.symm.trans hid')
  rw [hattrs, hf] at he
  simp only [List.cons.injEq, Prod.mk.injEq, PyVal.str.injEq, PyVal.bool.injEq, PyVal.list.injEq,
    true_and, and_true] at he
  obtain ⟨rfl, rfl, rfl⟩ := he
  rw [hk, hk', Except.ok.inj (hs.symm.trans ht)]

/-- **A payload that is delivered again has the same key, unless the key is made of the
clock's time and the two readings differ.** -/
theorem key_redelivered_iff (hf : env.SeparatesForms) {p : SourcePayload}
    (he : p.transform (env.atReading r₁) tenantId = .ok (some e))
    (he' : p.transform (env.atReading r₂) tenantId = .ok (some f)) :
    e.idempotencyKey = f.idempotencyKey ↔
      p.KeyIgnoresClock env ∨ r₁.now.1.isoformat = r₂.now.1.isoformat := by
  cases p with
  | cur record =>
    have hk := transformCurRecord_keyed record e (eq_ok_of_map_some he)
    have hk' := transformCurRecord_keyed record f (eq_ok_of_map_some he')
    rw [curIdempotencyKey_atReading] at hk hk'
    exact iff_of_true (Except.ok.inj (hk.symm.trans hk')) (.inl trivial)
  | cloudTrail trailEvent =>
    have hk := transformTrailEvent_keyed trailEvent _ he e rfl
    have hk' := transformTrailEvent_keyed trailEvent _ he' f rfl
    rw [trailKey_atReading] at hk hk'
    exact iff_of_true (Except.ok.inj (hk.symm.trans hk')) (.inl trivial)
  | bedrock logEntry =>
    obtain ⟨id, hid, hk⟩ := transformInvocation_keyed logEntry e (eq_ok_of_map_some he)
    obtain ⟨id', hid', hk'⟩ := transformInvocation_keyed logEntry f (eq_ok_of_map_some he')
    obtain rfl : id = id' := Except.ok.inj (hid.symm.trans hid')
    exact iff_of_true (hk.trans hk'.symm) (.inl trivial)
  | githubScm eventName payload deliveryId =>
    obtain ⟨-, s, hs, hk⟩ := transformWebhook_keyed eventName payload deliveryId _ he e rfl
    obtain ⟨-, t, ht, hk'⟩ := transformWebhook_keyed eventName payload deliveryId _ he' f rfl
    rw [webhookHash_atReading] at hs ht
    obtain rfl : s = t := Except.ok.inj (hs.symm.trans ht)
    rw [hk, hk', (sameRecord_of_transform he he').eventType]
    exact iff_of_true rfl (.inl trivial)
  | githubActions payload deliveryId =>
    obtain ⟨s, hs, hk⟩ := transformWorkflowJob_keyed payload deliveryId _ he e rfl
    obtain ⟨t, ht, hk'⟩ := transformWorkflowJob_keyed payload deliveryId _ he' f rfl
    rw [workflowJobHash_atReading] at hs ht
    obtain rfl : s = t := Except.ok.inj (hs.symm.trans ht)
    exact iff_of_true (hk.trans hk'.symm) (.inl trivial)
  | oktaSystemLog event =>
    exact okta_redelivered_iff hf (transformSystemLogEvent_keyed event _ he e rfl)
      (transformSystemLogEvent_keyed event _ he' f rfl)
  | oktaScim payload =>
    exact iff_of_true (scim_redelivered (sameRecord_of_transform he he').attrs
      (transformScimUser_keyed payload _ he e rfl) (transformScimUser_keyed payload _ he' f rfl))
      (.inl trivial)

/-! ### Different records

Of two payloads, the source has not given both the same id. -/

theorem cur_toldApart_iff (hf : env.SeparatesForms) {record record' : Payload}
    (hk : curIdempotencyKey env record = .ok e.idempotencyKey)
    (hk' : curIdempotencyKey env record' = .ok f.idempotencyKey)
    (hid : ∀ i, (SourcePayload.cur record).sourceId = some i →
      (SourcePayload.cur record').sourceId ≠ some i) :
    e.idempotencyKey ≠ f.idempotencyKey ↔
      SourcePayload.ToldApart env r₁ r₂ (.cur record) (.cur record') := by
  refine keyFrom_ne_iff "aws-cur:" "aws-cur-fallback:" ?_ hk hk' hid
    fun s t hs ht => recordFingerprint_ne_iff hf hs ht
  intro a b h
  simpa using congrArg String.toList h

theorem cloudTrail_toldApart_iff (hf : env.SeparatesForms) {trailEvent trailEvent' : Payload}
    (hk : trailKey env trailEvent = .ok e.idempotencyKey)
    (hk' : trailKey env trailEvent' = .ok f.idempotencyKey)
    (hid : ∀ i, (SourcePayload.cloudTrail trailEvent).sourceId = some i →
      (SourcePayload.cloudTrail trailEvent').sourceId ≠ some i) :
    e.idempotencyKey ≠ f.idempotencyKey ↔
      SourcePayload.ToldApart env r₁ r₂ (.cloudTrail trailEvent) (.cloudTrail trailEvent') := by
  refine keyFrom_ne_iff "cloudtrail:" "cloudtrail-fallback:" ?_ hk hk' hid
    fun s t hs ht => trailFingerprint_ne_iff hf hs ht
  intro a b h
  simpa using congrArg String.toList h

theorem bedrock_toldApart_iff {logEntry logEntry' : Payload} {id id' : String}
    (hrequest : requestIdText logEntry = .ok id) (hrequest' : requestIdText logEntry' = .ok id')
    (hid : ∀ i, (SourcePayload.bedrock logEntry).sourceId = some i →
      (SourcePayload.bedrock logEntry').sourceId ≠ some i) :
    "bedrock:" ++ id ≠ "bedrock:" ++ id' ↔
      SourcePayload.ToldApart env r₁ r₂ (.bedrock logEntry) (.bedrock logEntry') := by
  rw [Ne, String.append_right_inj]
  simp only [SourcePayload.ToldApart, SourcePayload.sourceId, hrequest, hrequest'] at hid ⊢
  by_cases h : id = ""
  · by_cases h' : id' = ""
    · simp [h, h']
    · simp [h, nonblank_ok_of_ne h', Ne.symm h']
  · refine iff_of_true (fun heq => hid id (nonblank_ok_of_ne h) ?_) (.inl ?_)
    · rw [← heq, nonblank_ok_of_ne h]
    · rw [nonblank_ok_of_ne h]
      exact Option.some_ne_none id

theorem webhook_toldApart_iff (hf : env.SeparatesForms) {eventName eventName' : String}
    {payload payload' : Payload} {deliveryId deliveryId' : String}
    (hk : WebhookKeyed env eventName payload deliveryId e)
    (hk' : WebhookKeyed env eventName' payload' deliveryId' f) (htype : e.eventType = f.eventType)
    (hid : ∀ i, deliveryGiven deliveryId = some i → deliveryGiven deliveryId' ≠ some i) :
    e.idempotencyKey ≠ f.idempotencyKey ↔
      SourcePayload.ToldApart env r₁ r₂ (.githubScm eventName payload deliveryId)
        (.githubScm eventName' payload' deliveryId') := by
  obtain ⟨hname, s, hs, hk⟩ := hk
  obtain ⟨hname', t, ht, hk'⟩ := hk'
  rw [hk, hk', htype, Ne, String.append_right_inj, SourcePayload.ToldApart]
  refine deliveryOr_ne_iff hs ht hid fun hhash hhash' => ?_
  obtain ⟨repo, hrepo, hhash⟩ := Except.bind_eq_ok hhash
  obtain ⟨repo', hrepo', hhash'⟩ := Except.bind_eq_ok hhash'
  rw [Ne, hf.digest_eq_iff hhash hhash', hrepo, hrepo', hname, hname', htype,
    PyVal.jsonForm_text_cons_iff, PyVal.jsonForm_text_cons_iff, PyVal.jsonForm_singleton_iff]
  simp only [true_and, not_and_or, ne_eq, Except.ok.injEq]

theorem workflowJob_toldApart_iff (hf : env.SeparatesForms) {payload payload' : Payload}
    {deliveryId deliveryId' s t : String}
    (hs : deliveryOr deliveryId (workflowJobHash env payload) = .ok s)
    (ht : deliveryOr deliveryId' (workflowJobHash env payload') = .ok t)
    (hid : ∀ i, deliveryGiven deliveryId = some i → deliveryGiven deliveryId' ≠ some i) :
    "github-actions:" ++ s ≠ "github-actions:" ++ t ↔
      SourcePayload.ToldApart env r₁ r₂ (.githubActions payload deliveryId)
        (.githubActions payload' deliveryId') := by
  rw [Ne, String.append_right_inj, SourcePayload.ToldApart]
  refine deliveryOr_ne_iff hs ht hid fun hhash hhash' => ?_
  obtain ⟨repo, hrepo, hhash⟩ := Except.bind_eq_ok hhash
  obtain ⟨run, hrun, hhash⟩ := Except.bind_eq_ok hhash
  obtain ⟨repo', hrepo', hhash'⟩ := Except.bind_eq_ok hhash'
  obtain ⟨run', hrun', hhash'⟩ := Except.bind_eq_ok hhash'
  rw [Ne, hf.digest_eq_iff hhash hhash', hrepo, hrepo', hrun, hrun', PyVal.jsonForm_text_cons_iff,
    PyVal.jsonForm_text_cons_iff, PyVal.jsonForm_text_cons_iff, PyVal.jsonForm_singleton_iff]
  simp only [true_and, not_and_or, ne_eq, Except.ok.injEq]

theorem systemLog_toldApart_iff (hf : env.SeparatesForms) {event event' : Payload}
    (hk : SystemLogKeyed (env.atReading r₁) event e)
    (hk' : SystemLogKeyed (env.atReading r₂) event' f)
    (hid : ∀ i, (SourcePayload.oktaSystemLog event).sourceId = some i →
      (SourcePayload.oktaSystemLog event').sourceId ≠ some i) :
    e.idempotencyKey ≠ f.idempotencyKey ↔
      SourcePayload.ToldApart env r₁ r₂ (.oktaSystemLog event) (.oktaSystemLog event') := by
  obtain ⟨eventType, time, htype, htime, hk⟩ := hk
  obtain ⟨eventType', time', htype', htime', hk'⟩ := hk'
  refine keyFrom_ne_iff "okta:" "okta-fallback:" ?_ hk hk' hid fun s t hs ht => ?_
  · intro a b h
    simpa using congrArg String.toList h
  · rw [Ne, ConnectorEnv.SeparatesForms.digest_eq_iff hf hs ht, htype, htype',
      SourcePayload.publishedText, SourcePayload.publishedText, htime, htime',
      PyVal.jsonForm_text_cons_iff, PyVal.jsonForm_text_cons_iff, PyVal.jsonForm_singleton_iff]
    simp only [Except.map, not_and_or, ne_eq, Except.ok.injEq]

theorem scim_keys_ne (hf : env.SeparatesForms) {payload payload' : Payload}
    (hk : ScimKeyed env payload e) (hk' : ScimKeyed env payload' f) (hattrs : e.attrs ≠ f.attrs) :
    e.idempotencyKey ≠ f.idempotencyKey := by
  obtain ⟨userId, groups, username, active, s, -, hgroups, hs, hk, he⟩ := hk
  obtain ⟨userId', groups', username', active', t, -, hgroups', ht, hk', he'⟩ := hk'
  intro hkeys
  rw [hk, hk', String.append_right_inj, hf.digest_eq_iff hs ht, PyVal.jsonForm_text_cons_iff,
    PyVal.jsonForm_text_cons_iff] at hkeys
  simp only [PyVal.jsonForm_list, List.map_cons, List.map_nil, PyVal.jsonForm_str,
    PyVal.jsonForm_bool, PyVal.list.injEq, List.cons.injEq, PyVal.str.injEq, PyVal.bool.injEq,
    true_and, and_true] at hkeys
  obtain ⟨-, hforms, rfl, rfl⟩ := hkeys
  rw [List.map_congr_left (jsonForm_of_mem_scimGroups hgroups),
    List.map_congr_left (jsonForm_of_mem_scimGroups hgroups'), List.map_id', List.map_id'] at hforms
  exact hattrs (PyDict.ext_items (by rw [he, he', hforms]))

/-- The two kinds of Okta payloads have tags of their own. -/
theorem systemLog_scim_keys_ne {event payload : Payload}
    (hk : SystemLogKeyed (env.atReading r₁) event e)
    (hk' : ScimKeyed (env.atReading r₂) payload f) : e.idempotencyKey ≠ f.idempotencyKey := by
  obtain ⟨eventType, time, -, -, hk⟩ := hk
  obtain ⟨-, -, -, -, t, -, -, -, hk', -⟩ := hk'
  have hk : keyFrom "okta:" "okta-fallback:" _ _ = .ok e.idempotencyKey := hk
  rw [hk']
  rcases keyFrom_cases hk with ⟨i, -, hi⟩ | ⟨-, s, -, hs⟩
  · rw [hi]
    exact fun h => by simpa using congrArg String.toList h
  · rw [hs]
    exact fun h => by simpa using congrArg String.toList h

/-- **Payloads of different records have different keys exactly when an id or what is
fingerprinted tells them apart.** -/
theorem key_discriminates_iff (hf : env.SeparatesForms) {p q : SourcePayload}
    (he : p.transform (env.atReading r₁) tenantId = .ok (some e))
    (he' : q.transform (env.atReading r₂) tenantId = .ok (some f))
    (hconnector : p.connector = q.connector) (htype : e.eventType = f.eventType)
    (hunique : ∀ i, p.sourceId = some i → q.sourceId = some i → p = q)
    (hattrs : e.attrs ≠ f.attrs) :
    e.idempotencyKey ≠ f.idempotencyKey ↔ p.ToldApart env r₁ r₂ q := by
  have hid : ∀ i, p.sourceId = some i → q.sourceId ≠ some i := by
    intro i hp hq
    obtain rfl := hunique i hp hq
    exact hattrs (sameRecord_of_transform he he').attrs
  cases p with
  | cur record =>
    cases q with
    | cur record' =>
      have hk := transformCurRecord_keyed record e (eq_ok_of_map_some he)
      have hk' := transformCurRecord_keyed record' f (eq_ok_of_map_some he')
      rw [curIdempotencyKey_atReading] at hk hk'
      exact cur_toldApart_iff hf hk hk' hid
    | _ => cases hconnector
  | cloudTrail trailEvent =>
    cases q with
    | cloudTrail trailEvent' =>
      have hk := transformTrailEvent_keyed trailEvent _ he e rfl
      have hk' := transformTrailEvent_keyed trailEvent' _ he' f rfl
      rw [trailKey_atReading] at hk hk'
      exact cloudTrail_toldApart_iff hf hk hk' hid
    | _ => cases hconnector
  | bedrock logEntry =>
    cases q with
    | bedrock logEntry' =>
      obtain ⟨id, hrequest, hk⟩ := transformInvocation_keyed logEntry e (eq_ok_of_map_some he)
      obtain ⟨id', hrequest', hk'⟩ := transformInvocation_keyed logEntry' f (eq_ok_of_map_some he')
      rw [hk, hk']
      exact bedrock_toldApart_iff hrequest hrequest' hid
    | _ => cases hconnector
  | githubScm eventName payload deliveryId =>
    cases q with
    | githubScm eventName' payload' deliveryId' =>
      have hk := transformWebhook_keyed eventName payload deliveryId _ he e rfl
      have hk' := transformWebhook_keyed eventName' payload' deliveryId' _ he' f rfl
      rw [webhookKeyed_atReading] at hk hk'
      exact webhook_toldApart_iff hf hk hk' htype hid
    | _ => cases hconnector
  | githubActions payload deliveryId =>
    cases q with
    | githubActions payload' deliveryId' =>
      obtain ⟨s, hs, hk⟩ := transformWorkflowJob_keyed payload deliveryId _ he e rfl
      obtain ⟨t, ht, hk'⟩ := transformWorkflowJob_keyed payload' deliveryId' _ he' f rfl
      rw [workflowJobHash_atReading] at hs ht
      rw [hk, hk']
      exact workflowJob_toldApart_iff hf hs ht hid
    | _ => cases hconnector
  | oktaSystemLog event =>
    have hk := transformSystemLogEvent_keyed event _ he e rfl
    cases q with
    | oktaSystemLog event' =>
      exact systemLog_toldApart_iff hf hk (transformSystemLogEvent_keyed event' _ he' f rfl) hid
    | oktaScim payload =>
      have hk' := transformScimUser_keyed payload _ he' f rfl
      exact iff_of_true (systemLog_scim_keys_ne hk hk') trivial
    | _ => cases hconnector
  | oktaScim payload =>
    have hk := transformScimUser_keyed payload _ he e rfl
    cases q with
    | oktaSystemLog event =>
      have hk' := transformSystemLogEvent_keyed event _ he' f rfl
      exact iff_of_true (systemLog_scim_keys_ne hk' hk).symm trivial
    | oktaScim payload' =>
      have hk' := transformScimUser_keyed payload' _ he' f rfl
      rw [scimKeyed_atReading] at hk hk'
      exact iff_of_true (scim_keys_ne hf hk hk' hattrs) trivial
    | _ => cases hconnector

/-- Surroundings at the epoch whose fingerprints are those of a table. -/
def tableEnv (table : List (PyVal × String)) : ConnectorEnv :=
  { epochEnv with
    fingerprint := fun v => match table.find? fun x => x.1.jsonForm = v.jsonForm with
      | some x => .ok x.2
      | none => .error .other }

theorem tableEnv_separatesForms {table : List (PyVal × String)} (h : (table.map Prod.snd).Nodup) :
    (tableEnv table).SeparatesForms := by
  have hspec : ∀ {v : PyVal} {s : String}, (tableEnv table).fingerprint v = .ok s →
      ∃ x ∈ table, x.1.jsonForm = v.jsonForm ∧ x.2 = s := by
    intro v s hv
    change (match table.find? _ with | some x => _ | none => _) = _ at hv
    cases hfind : table.find? fun x => decide (x.1.jsonForm = v.jsonForm) with
    | none =>
      rw [hfind] at hv
      cases hv
    | some x =>
      rw [hfind] at hv
      exact ⟨x, List.mem_of_find?_eq_some hfind, of_decide_eq_true (List.find?_some hfind :),
        Except.ok.inj hv⟩
  intro v w s hv
  constructor
  · intro hw
    obtain ⟨x, hx, hxv, hxs⟩ := hspec hv
    obtain ⟨y, hy, hyw, hys⟩ := hspec hw
    obtain rfl := List.inj_on_of_nodup_map h hx hy (hxs.trans hys.symm)
    exact hxv.symm.trans hyw
  · intro hforms
    rw [← hv]
    change (match table.find? fun x => x.1.jsonForm = w.jsonForm with | some x => _ | none => _) =
      (match table.find? fun x => x.1.jsonForm = v.jsonForm with | some x => _ | none => _)
    rw [hforms]

/-- A reading `n` seconds after the epoch. -/
def secondReading (n : Int) : ClockReading :=
  ⟨AwareDateTime.utc (n * 1000000), AwareDateTime.utc (n * 1000000), "e"⟩

/-- A cost-and-usage record without a line item id. -/
def usageRecord (region : String) (cost : Int) : Payload :=
  ⟨[("lineItem/UsageAccountId", .str "1"), ("lineItem/ProductCode", .str "S3"),
    ("lineItem/UnblendedCost", .int cost), ("product/region", .str region)], by simp⟩

/-- A usage record shares its id with no payload: it has none. -/
theorem noId_usageRecord {region : String} {cost : Int} {q : SourcePayload} (i : String)
    (h : (SourcePayload.cur (usageRecord region cost)).sourceId = some i) :
    q.sourceId = some i → SourcePayload.cur (usageRecord region cost) = q := by
  cases h

/-- A login without an id and without a time. -/
def timelessLogin : Payload :=
  ⟨[("eventType", .str "user.session.start"), ("actor", .dict [("id", .str "u1")])], by simp⟩

/-- The texts that the fallback key of a usage record is made of. -/
def usageMaterial (cost : String) : PyVal :=
  .dict [("usage_account_id", .str "1"), ("service", .str "S3"), ("resource_id", .str ""),
    ("usage_start", .str ""), ("usage_end", .str ""), ("cost", .str cost)]

/-- What the fallback key of the login is made of. -/
def loginMaterial (time : String) : PyVal :=
  .list [.str "user.session.start", .str time, .dict timelessLogin.items]

/-- Surroundings with the fingerprints that SHA-256 gives these. -/
def fallbackEnv : ConnectorEnv := tableEnv
  [(usageMaterial "1", "309fec1e6ec3505b4cf18aff"), (usageMaterial "2", "c2f4fca9a8cab03e9db89fad"),
    (loginMaterial "1970-01-01T00:00:00+00:00", "918d8f9e584020e1f1c09116"),
    (loginMaterial "1970-01-01T00:00:01+00:00", "71aa2cffaf2b38ff90cd867e")]

theorem fallbackEnv_separatesForms : fallbackEnv.SeparatesForms :=
  tableEnv_separatesForms (by decide)

/-- The transform of a payload, `n` seconds after the epoch. -/
def transformAfter (n : Int) (p : SourcePayload) : Except PyExn (Option DomainEvent) :=
  p.transform (fallbackEnv.atReading (secondReading n)) "acme"

/-- What `g` reads off the event of a transform. -/
def ofEvent {α : Type} (g : DomainEvent → α) : Except PyExn (Option DomainEvent) → Option α
  | .ok (some e) => some (g e)
  | _ => none

theorem exists_of_ofEvent {α : Type} {g : DomainEvent → α} {x : Except PyExn (Option DomainEvent)}
    {a : α} (h : ofEvent g x = some a) : ∃ e, x = .ok (some e) ∧ g e = a := by
  unfold ofEvent at h
  split at h
  · exact ⟨_, rfl, Option.some.inj h⟩
  · cases h

/-- The type and key of an event, and one of its attributes. -/
def seen (name : String) (e : DomainEvent) : EventType × String × Option PyVal :=
  (e.eventType, e.idempotencyKey, e.attrs.get? name)

theorem attrs_ne_of_seen {name : String} {e f : DomainEvent} {t t' : EventType} {k k' : String}
    {v v' : Option PyVal} (he : seen name e = (t, k, v)) (hf : seen name f = (t', k', v'))
    (hne : v ≠ v') : e.attrs ≠ f.attrs := by
  intro h
  have hv : e.attrs.get? name = v := congrArg (·.2.2) he
  have hv' : f.attrs.get? name = v' := congrArg (·.2.2) hf
  rw [h, hv'] at hv
  exact hne hv.symm

end ComputeIntelligence
