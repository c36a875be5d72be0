import ComputeIntelligence.EventSchema

/-! # The Kafka message of an event

`KafkaEventBus.publish` writes an event with `model_dump_json`; `_handle_message` reads
the message with `model_validate_json`, validates the event again and dispatches it,
or sends the message to the dead-letter topic.

A message is represented by the JSON document it is the text of.  Writing is lossy in
two places: a datetime inside the attributes becomes a text and an infinite or
undefined float becomes `null`, and inside a `dict[str, Any]` nothing tells the reader
to turn them back.  So an event survives the trip exactly when its attributes hold
neither, `roundTrips_iff_plain`.
-/
namespace ComputeIntelligence

/-- A JSON document. -/
inductive Json where
  | null
  | bool (b : Bool)
  | int (i : Int)
  | float (q : ℚ)
  | str (s : String)
  | arr (xs : List Json)
  | obj (kvs : List (String × Json))

/-! ### Values of type `Any` -/

mutual

/-- How a value is written; an object of an unknown class cannot be. -/
def jsonOf : PyVal → Option Json
  | .none => some .null
  | .bool b => some (.bool b)
  | .int i => some (.int i)
  | .float (.finite q) => some (.float q)
  | .float _ => some .null
  | .str s => some (.str s)
  | .datetime t => some (.str t.jsonText)
  | .list xs => (jsonOfList xs).map .arr
  | .dict kvs => (jsonOfItems kvs).map .obj
  | .object _ => none

def jsonOfList : List PyVal → Option (List Json)
  | [] => some []
  | x :: xs => do some ((← jsonOf x) :: (← jsonOfList xs))

def jsonOfItems : List (String × PyVal) → Option (List (String × Json))
  | [] => some []
  | (k, v) :: kvs => do some ((k, ← jsonOf v) :: (← jsonOfItems kvs))

end

mutual

/-- How a document is read where any value is allowed. -/
def valOf : Json → PyVal
  | .null => .none
  | .bool b => .bool b
  | .int i => .int i
  | .float q => .float (.finite q)
  | .str s => .str s
  | .arr xs => .list (valOfList xs)
  | .obj kvs => .dict (valOfItems kvs)

def valOfList : List Json → List PyVal
  | [] => []
  | x :: xs => valOf x :: valOfList xs

def valOfItems : List (String × Json) → List (String × PyVal)
  | [] => []
  | (k, v) :: kvs => (k, valOf v) :: valOfItems kvs

end

/-! ### Events -/

/-- How pydantic reads and writes the datetimes of the envelope. -/
structure TimeCodec where
  write : AwareDateTime → String
  read : String → Option AwareDateTime

/-- Every event type. -/
def EventType.all : List EventType :=
  [.inferenceRequest, .inferenceResponse, .billingLineItem, .resourceCreated, .resourceDeleted,
    .deployment, .codeCommit, .codeownerChange, .prMerged, .identityLogin, .identityGroupChange,
    .orgChange, .teamMembership, .attributionCorrection, .chargebackDecision, .finopsReview,
    .attributionComputed, .indexMaterialized, .calibrationUpdated, .shadowInterceptMiss,
    .shadowInterceptTimeout, .policyEvaluated, .interventionApplied]

/-- `EventType(value)`. -/
def EventType.ofValue? (value : String) : Option EventType :=
  EventType.all.find? fun t => t.value = value

/-- `event.model_dump_json()`. -/
def encodeEvent (codec : TimeCodec) (event : DomainEvent) : Option Json := do
  let attributes ← jsonOfItems event.attrs.items
  some (.obj
    [("event_id", .str event.eventId), ("event_type", .str event.eventType.value),
      ("subject_id", .str event.subjectId), ("attributes", .obj attributes),
      ("event_time", .str (codec.write event.eventTime)),
      ("ingest_time", .str (codec.write event.ingestTime)), ("source", .str event.source),
      ("idempotency_key", .str event.idempotencyKey), ("tenant_id", .str event.tenantId),
      ("schema_version", .int event.schemaVersion)])

namespace Json

/-- The text at a key. -/
def text? (kvs : List (String × Json)) (key : String) : Option String :=
  match kvs.lookup key with
  | some (.str s) => some s
  | _ => none

/-- The integer at a key. -/
def int? (kvs : List (String × Json)) (key : String) : Option Int :=
  match kvs.lookup key with
  | some (.int i) => some i
  | _ => none

/-- The object at a key. -/
def obj? (kvs : List (String × Json)) (key : String) : Option (List (String × Json)) :=
  match kvs.lookup key with
  | some (.obj xs) => some xs
  | _ => none

variable {key k : String} {v : Json} {kvs : List (String × Json)}

theorem lookup_cons_of_ne (h : key ≠ k) : ((k, v) :: kvs).lookup key = kvs.lookup key := by
  rw [List.lookup_cons, beq_false_of_ne h]

@[simp] theorem text?_cons_self (s : String) : text? ((key, .str s) :: kvs) key = some s := by
  rw [text?, List.lookup_cons_self]

@[simp] theorem text?_cons_of_ne (h : key ≠ k) : text? ((k, v) :: kvs) key = text? kvs key := by
  rw [text?, lookup_cons_of_ne h, text?]

@[simp] theorem int?_cons_self (i : Int) : int? ((key, .int i) :: kvs) key = some i := by
  rw [int?, List.lookup_cons_self]

@[simp] theorem int?_cons_of_ne (h : key ≠ k) : int? ((k, v) :: kvs) key = int? kvs key := by
  rw [int?, lookup_cons_of_ne h, int?]

@[simp] theorem obj?_cons_self (xs : List (String × Json)) :
    obj? ((key, .obj xs) :: kvs) key = some xs := by
  rw [obj?, List.lookup_cons_self]

@[simp] theorem obj?_cons_of_ne (h : key ≠ k) : obj? ((k, v) :: kvs) key = obj? kvs key := by
  rw [obj?, lookup_cons_of_ne h, obj?]

end Json

/-- The attributes of an event, if they are not too large. -/
def attributes? (kvs : List (String × Json)) : Option {d : PyDict String PyVal // payloadFits d} :=
  let d := PyDict.ofList (valOfItems kvs)
  if h : payloadFits d then some ⟨d, h⟩ else none

/-- `DomainEvent.model_validate_json(payload)`, of a document with the fields that
`model_dump_json` writes. -/
def decodeEvent (codec : TimeCodec) : Json → Option DomainEvent
  | .obj kvs => do
      some { eventId := ← Json.text? kvs "event_id"
             eventType := ← EventType.ofValue? (← Json.text? kvs "event_type")
             subjectId := ← Json.text? kvs "subject_id"
             attributes := ← attributes? (← Json.obj? kvs "attributes")
             eventTime := ← codec.read (← Json.text? kvs "event_time")
             ingestTime := ← codec.read (← Json.text? kvs "ingest_time")
             source := ← Json.text? kvs "source"
             idempotencyKey := ← Json.text? kvs "idempotency_key"
             tenantId := ← Json.text? kvs "tenant_id"
             schemaVersion := ← Json.int? kvs "schema_version" }
  | _ => none

/-- What becomes of a message. -/
inductive Delivery where
  | dispatched (event : DomainEvent)
  | deadLetter

/-- `_handle_message`, up to the dispatch. -/
def handleMessage (codec : TimeCodec) (payload : Json) : Delivery :=
  match decodeEvent codec payload with
  | none => .deadLetter
  | some event => match validateDomainEvent event with
      | .ok _ => .dispatched event
      | .error _ => .deadLetter

/-! ### What survives the trip -/

/-- Not a datetime, and not an infinite or undefined float. -/
def PlainValue : PyVal → Prop
  | .datetime _ => False
  | .float .posInf | .float .negInf | .float .nan => False
  | _ => True

theorem strList_roundTrip {xs : List PyVal} (h : xs.all PyVal.isStr = true) :
    ∃ js, jsonOfList xs = some js ∧ valOfList js = xs := by
  induction xs with
  | nil => exact ⟨[], rfl, rfl⟩
  | cons x xs ih =>
    rw [List.all_cons, Bool.and_eq_true] at h
    obtain ⟨js, hjs, hval⟩ := ih h.2
    cases x with
    | str s => exact ⟨.str s :: js, by simp [jsonOfList, jsonOf, hjs], by simp [valOfList, valOf, hval]⟩
    | _ => cases h.1

theorem strItems_roundTrip {kvs : List (String × PyVal)} (h : kvs.all (·.2.isStr) = true) :
    ∃ js, jsonOfItems kvs = some js ∧ valOfItems js = kvs := by
  induction kvs with
  | nil => exact ⟨[], rfl, rfl⟩
  | cons kv kvs ih =>
    obtain ⟨k, v⟩ := kv
    rw [List.all_cons, Bool.and_eq_true] at h
    obtain ⟨js, hjs, hval⟩ := ih h.2
    cases v with
    | str s =>
      exact ⟨(k, .str s) :: js, by simp [jsonOfItems, jsonOf, hjs], by simp [valOfItems, valOf, hval]⟩
    | _ => cases h.1

/-- A value of a declared type can be written, and reads back as itself exactly when
it is plain. -/
theorem value_roundTrip_iff {type : FieldType} {v : PyVal} (h : (type.check v).isSome) :
    ∃ j, jsonOf v = some j ∧ (valOf j = v ↔ PlainValue v) := by
  cases v with
  | none => exact ⟨.null, rfl, iff_of_true rfl trivial⟩
  | bool b => exact ⟨.bool b, rfl, iff_of_true rfl trivial⟩
  | int i => exact ⟨.int i, rfl, iff_of_true rfl trivial⟩
  | str s => exact ⟨.str s, rfl, iff_of_true rfl trivial⟩
  | float x =>
    cases x with
    | finite q => exact ⟨.float q, rfl, iff_of_true rfl trivial⟩
    | _ => exact ⟨.null, rfl, iff_of_false (by simp [valOf]) id⟩
  | datetime t => exact ⟨.str t.jsonText, rfl, iff_of_false (by simp [valOf]) id⟩
  | list xs =>
    cases type with
    | listStr =>
      have hall : xs.all PyVal.isStr = true := by
        by_contra hn
        simp [FieldType.check, hn] at h
      obtain ⟨js, hjs, hval⟩ := strList_roundTrip hall
      exact ⟨.arr js, by simp [jsonOf, hjs], iff_of_true (by simp [valOf, hval]) trivial⟩
    | _ => cases h
  | dict kvs =>
    cases type with
    | dictStrStr =>
      have hall : kvs.all (·.2.isStr) = true := by
        by_contra hn
        simp [FieldType.check, hn] at h
      obtain ⟨js, hjs, hval⟩ := strItems_roundTrip hall
      exact ⟨.obj js, by simp [jsonOf, hjs], iff_of_true (by simp [valOf, hval]) trivial⟩
    | _ => cases h
  | object o => cases type <;> cases h

/-- A payload of declared types can be written, and reads back as itself exactly when
its values are plain. -/
theorem items_roundTrip_iff {kvs : List (String × PyVal)}
    (h : ∀ kv ∈ kvs, ∃ type : FieldType, (type.check kv.2).isSome) :
    ∃ js, jsonOfItems kvs = some js ∧ (valOfItems js).map Prod.fst = kvs.map Prod.fst ∧
      (valOfItems js = kvs ↔ ∀ kv ∈ kvs, PlainValue kv.2) := by
  induction kvs with
  | nil => exact ⟨[], rfl, rfl, iff_of_true rfl fun _ hkv => absurd hkv List.not_mem_nil⟩
  | cons kv kvs ih =>
    obtain ⟨k, v⟩ := kv
    obtain ⟨⟨type, hcheck⟩, hrest⟩ := List.forall_mem_cons.mp h
    obtain ⟨js, hjs, hkeys, hiff⟩ := ih hrest
    obtain ⟨j, hj, hv⟩ := value_roundTrip_iff hcheck
    refine ⟨(k, j) :: js, by simp [jsonOfItems, hj, hjs], by simp [valOfItems, hkeys], ?_⟩
    rw [List.forall_mem_cons, ← hiff, ← hv]
    simp [valOfItems]

/-! ### The trip of an event -/

/-- The message of the event is read, validated and dispatched, with the attributes it
was published with. -/
def RoundTrips (codec : TimeCodec) (event : DomainEvent) : Prop :=
  ∃ payload received, encodeEvent codec event = some payload ∧
    handleMessage codec payload = .dispatched received ∧ received.attrs = event.attrs

/-- Every attribute is plain. -/
def DomainEvent.Plain (event : DomainEvent) : Prop := ∀ kv ∈ event.attrs.items, PlainValue kv.2

/-- The reader accepts the two times of the envelope as they were written. -/
def TimeCodec.Reads (codec : TimeCodec) (event : DomainEvent) : Prop :=
  (codec.read (codec.write event.eventTime)).isSome ∧
    (codec.read (codec.write event.ingestTime)).isSome

theorem ofValue?_value (t : EventType) : EventType.ofValue? t.value = some t := by
  cases t <;> decide +kernel

theorem DomainEvent.Accepted.attribute_typed {event : DomainEvent} (h : event.Accepted) :
    ∀ kv ∈ event.attrs.items, ∃ type : FieldType, (type.check kv.2).isSome := by
  intro kv hkv
  have hname := h.payload.closed kv.1 (PyDict.mem_keys_of_mem hkv)
  obtain ⟨f, hf, hfname⟩ := List.mem_map.mp hname
  exact ⟨f.type, h.payload.check hf (PyDict.get?_of_mem (hfname ▸ hkv))⟩

/-- What is read from the message of an event is the event, with the attributes and the
times that the reader makes of it. -/
theorem decodeEvent_encodeEvent {codec : TimeCodec} {event : DomainEvent} {t t' : AwareDateTime}
    (ht : codec.read (codec.write event.eventTime) = some t)
    (ht' : codec.read (codec.write event.ingestTime) = some t') {js : List (String × Json)}
    (hjs : jsonOfItems event.attrs.items = some js) :
    ∃ payload, encodeEvent codec event = some payload ∧
      decodeEvent codec payload = (attributes? js).map fun attributes =>
        { event with attributes, eventTime := t, ingestTime := t' } := by
  refine ⟨_, by rw [encodeEvent, hjs]; rfl, ?_⟩
  simp [decodeEvent, ofValue?_value, ht, ht', Option.map_eq_bind]

theorem attributes?_eq_some {js : List (String × Json)} {d : PyDict String PyVal}
    {attributes : {d : PyDict String PyVal // payloadFits d}}
    (hkeys : (valOfItems js).map Prod.fst = d.items.map Prod.fst)
    (h : attributes? js = some attributes) : attributes.1.items = valOfItems js := by
  have hnodup : ((valOfItems js).map Prod.fst).Nodup := hkeys ▸ d.nodup
  have hof : PyDict.ofList (valOfItems js) = ⟨valOfItems js, hnodup⟩ :=
    PyDict.ofList_items ⟨valOfItems js, hnodup⟩
  unfold attributes? at h
  simp only [hof] at h
  split at h
  · rw [← Option.some.inj h]
  · cases h

theorem attributes?_of_eq {js : List (String × Json)} {event : DomainEvent}
    (h : valOfItems js = event.attrs.items) : attributes? js = some event.attributes := by
  have hof : PyDict.ofList (valOfItems js) = event.attrs := by
    rw [h]
    exact PyDict.ofList_items event.attrs
  unfold attributes?
  simp only [hof]
  exact dif_pos event.attributes.2

/-- **A published event survives the trip exactly when no attribute is a datetime or a
float that is not finite.** -/
theorem roundTrips_iff_plain (codec : TimeCodec) (event : DomainEvent)
    (hvalid : validateDomainEvent event = .ok ()) (hread : codec.Reads event) :
    RoundTrips codec event ↔ event.Plain := by
  have hacc := validateDomainEvent_ok_iff.mp hvalid
  obtain ⟨js, hjs, hkeys, hplain⟩ := items_roundTrip_iff hacc.attribute_typed
  obtain ⟨t, ht⟩ := Option.isSome_iff_exists.mp hread.1
  obtain ⟨t', ht'⟩ := Option.isSome_iff_exists.mp hread.2
  obtain ⟨payload, hpayload, hdecode⟩ := decodeEvent_encodeEvent ht ht' hjs
  unfold DomainEvent.Plain
  rw [← hplain]
  constructor
  · rintro ⟨payload', received, henc, hhandle, hattrs⟩
    obtain rfl : payload = payload' := Option.some.inj (hpayload.symm.trans henc)
    unfold handleMessage at hhandle
    rw [hdecode] at hhandle
    cases hat : attributes? js with
    | none =>
      rw [hat] at hhandle
      cases hhandle
    | some attributes =>
      rw [hat] at hhandle
      simp only [Option.map_some] at hhandle
      split at hhandle
      · rw [← attributes?_eq_some hkeys hat]
        cases hhandle
        exact congrArg PyDict.items hattrs
      · cases hhandle
  · intro heq
    rw [attributes?_of_eq heq, Option.map_some] at hdecode
    refine ⟨payload, { event with eventTime := t, ingestTime := t' }, hpayload, ?_, rfl⟩
    have hvalid' : validateDomainEvent { event with eventTime := t, ingestTime := t' } = .ok () :=
      validateDomainEvent_ok_iff.mpr ⟨hacc.version, hacc.payload⟩
    unfold handleMessage
    rw [hdecode]
    simp only [hvalid']

/-- A codec that knows the epoch, as pydantic writes it. -/
def epochCodec : TimeCodec where
  write t := t.1.jsonText
  read s := if s = "1970-01-01T00:00:00Z" then some (AwareDateTime.utc 0) else none

/-- An event at the epoch about a calibration with one more attribute. -/
def calibrationAt (attributes : {d : PyDict String PyVal // payloadFits d}) : DomainEvent :=
  { eventId := "e", eventType := .calibrationUpdated, subjectId := "R1", attributes,
    eventTime := AwareDateTime.utc 0, ingestTime := AwareDateTime.utc 0, source := "system",
    idempotencyKey := "k", tenantId := "acme" }

def countedCalibration : DomainEvent :=
  calibrationAt ⟨⟨[("method", .str "R1"), ("sample_count", .int 3)], by decide⟩, by decide +kernel⟩

theorem countedCalibration_roundTrips : RoundTrips epochCodec countedCalibration := by
  refine (roundTrips_iff_plain epochCodec countedCalibration ?_ ?_).mpr ?_
  · decide +kernel
  · exact ⟨by decide +kernel, by decide +kernel⟩
  · simp [DomainEvent.Plain, countedCalibration, calibrationAt, DomainEvent.attrs, PlainValue]

def datedCalibration : DomainEvent :=
  calibrationAt ⟨⟨[("method", .str "R1"), ("timestamp", .datetime ⟨0, some 0⟩)], by decide⟩,
    by decide +kernel⟩

/-- Whether a message was dispatched. -/
def Delivery.isDispatched : Delivery → Bool
  | .dispatched _ => true
  | .deadLetter => false

/-- A calibration event with its optional timestamp goes to the dead-letter topic. -/
theorem datedCalibration_lost :
    validateDomainEvent datedCalibration = .ok () ∧ epochCodec.Reads datedCalibration ∧
      ¬ RoundTrips epochCodec datedCalibration := by
  refine ⟨by decide +kernel, ⟨by decide +kernel, by decide +kernel⟩, ?_⟩
  rintro ⟨payload, received, henc, hhandle, -⟩
  have hlost : (encodeEvent epochCodec datedCalibration).all
      (fun p => !(handleMessage epochCodec p).isDispatched) = true := by decide +kernel
  rw [henc, Option.all_some, hhandle] at hlost
  cases hlost

end ComputeIntelligence
