import ComputeIntelligence.Effects
import ComputeIntelligence.KafkaPublish

/-! # Consuming from Kafka

`KafkaEventBus._consume_loop` and `_handle_message` (`core/event_bus.py`).  One `try`
covers decoding, validation, the handlers, the commit of the offset and the update of
the lag; its `except` sends the message to the dead-letter topic, guarded, and commits
again, unguarded.

An exception is known by what `str` of it does (`Exceptions`), and the broker by its
answers during one message (`Answers`).  A handler may also not come back at all.
-/
namespace ComputeIntelligence
variable {ε : Type}

/-- The exceptions that can occur, `str` of each, which may raise itself, and those the bus
makes. -/
structure Exceptions (ε : Type) where
  str : ε → Except ε String
  schemaError : EventSchemaValidationError → ε
  assertionError : ε
  runtimeError : String → ε
  str_runtimeError : ∀ message, str (runtimeError message) = .ok message

/-- How a handler ends: `cancelled` is a `BaseException` that `gather` returns and that is
not an `Exception`, `lost` is a handler that never ends or ends the process. -/
inductive HandlerOutcome (ε : Type) where
  | returned
  | raised (e : ε)
  | cancelled
  | lost

/-- How a part of `_handle_message` fails to return. -/
inductive Stop (ε : Type) where
  | raised (e : ε)
  | lost
deriving DecidableEq

/-- `TopicPartition`. -/
structure TopicPartition where
  topic : String
  partition : Int
deriving DecidableEq

/-- What `_publish_dlq` sends. -/
structure DlqEnvelope where
  error : String
  topic : String
  partition : Int
  offset : Int
  failedAt : Instant
  payload : String

/-- The answers of the broker while one message is handled. -/
structure Answers (ε : Type) where
  commit : Except ε Unit
  highwater : Except ε (Option Int)
  /-- The DLQ producer, if there is one. -/
  send : Option (Except ε Unit)
  /-- The commit after a failure. -/
  recommit : Except ε Unit
  failedAt : Instant

/-- A message: the bytes, read by `model_validate_json` and as replaced UTF-8. -/
structure KafkaMessage (ε : Type) where
  decoded : Except ε DomainEvent
  text : String
  partition : TopicPartition
  offset : Int

/-- `KafkaEventBus`, as its consumer uses it, with the envelopes it has handed to the DLQ
producer and the offsets it has committed. -/
structure KafkaConsumer (ε : Type) where
  handlers : PyDict String (List (DomainEvent → HandlerOutcome ε)) := PyDict.empty
  hasConsumer : Bool := true
  dispatchErrors : Nat := 0
  dlqCount : Nat := 0
  consumerLag : PyDict String Int := PyDict.empty
  dlq : List DlqEnvelope := []
  committed : List (TopicPartition × Int) := []

/-- A method of the bus. -/
abbrev ConsumerM (ε : Type) := Eff (Stop ε) (KafkaConsumer ε)

namespace KafkaConsumer

/-- An answer that returns or raises. -/
def answer {α : Type} (x : Except ε α) : ConsumerM ε α := Eff.lift (x.mapError .raised)

/-- `try: x except Exception as exc: handler exc`. -/
def exceptException (x : ConsumerM ε Unit) (handler : ε → ConsumerM ε Unit) : ConsumerM ε Unit :=
  x.catching fun
    | .raised e => handler e
    | .lost => Eff.lift (.error .lost)

section
variable {body : ConsumerM ε Unit} {handler : ε → ConsumerM ε Unit} {bus bus' : KafkaConsumer ε}

theorem exceptException_of_ok (h : body bus = (.ok (), bus')) :
    exceptException body handler bus = (.ok (), bus') := by
  unfold exceptException Eff.catching
  rw [h]

theorem exceptException_of_raised {exc : ε} (h : body bus = (.error (.raised exc), bus')) :
    exceptException body handler bus = handler exc bus' := by
  unfold exceptException Eff.catching
  rw [h]

/-- A handler that never ends is not an `Exception`. -/
theorem exceptException_of_lost (h : body bus = (.error .lost, bus')) :
    exceptException body handler bus = (.error .lost, bus') := by
  unfold exceptException Eff.catching
  rw [h]
  rfl

end

/-- The handlers of an event: those of its topic, then those of every topic. -/
def handlersOf (bus : KafkaConsumer ε) (event : DomainEvent) :
    List (DomainEvent → HandlerOutcome ε) :=
  bus.handlers.getD event.eventType.value [] ++ bus.handlers.getD "*" []

/-- `asyncio.gather(..., return_exceptions=True)`, and the `Exception`s among its results. -/
def gather (outcomes : List (HandlerOutcome ε)) : Except (Stop ε) (List ε) :=
  if outcomes.any (fun | .lost => true | _ => false) then .error .lost
  else .ok (outcomes.filterMap fun | .raised e => some e | _ => none)

/-- The log line of every error, with the counter. -/
def logErrors (x : Exceptions ε) : List ε → ConsumerM ε Unit
  | [] => pure ()
  | exc :: errors => do
      Eff.modify fun bus => { bus with dispatchErrors := bus.dispatchErrors + 1 }
      let _ ← answer (x.str exc)
      logErrors x errors

/-- `_dispatch_event`. -/
def dispatchEvent (x : Exceptions ε) (event : DomainEvent) : ConsumerM ε Unit := fun bus =>
  (do
    let errors ← Eff.lift (gather ((bus.handlersOf event).map fun handler => handler event))
    logErrors x errors
    match errors with
    | [] => pure ()
    | [first] => answer (.error first)
    | _ => answer (.error (x.runtimeError
        (toString errors.length ++ " handlers failed for topic '" ++ event.eventType.value ++ "'"))) :
    ConsumerM ε Unit) bus

/-- `assert self._consumer is not None`. -/
def assertConsumer (x : Exceptions ε) : ConsumerM ε Unit := fun bus =>
  if bus.hasConsumer then (.ok (), bus) else (.error (.raised x.assertionError), bus)

/-- `_commit_offset`, with the answer of `commit`. -/
def commitOffset (x : Exceptions ε) (commit : Except ε Unit) (m : KafkaMessage ε) :
    ConsumerM ε Unit := do
  assertConsumer x
  answer commit
  Eff.modify fun bus => { bus with committed := bus.committed ++ [(m.partition, m.offset + 1)] }

/-- `f"{topic}:{partition}"`. -/
def partitionKey (p : TopicPartition) : String := p.topic ++ ":" ++ toString p.partition

/-- `_update_partition_lag`. -/
def updatePartitionLag (highwater : Except ε (Option Int)) (m : KafkaMessage ε) :
    ConsumerM ε Unit := fun bus =>
  if bus.hasConsumer then
    match highwater with
    | .error e => (.error (.raised e), bus)
    | .ok none => (.ok (), bus)
    | .ok (some mark) =>
        (.ok (), { bus with
          consumerLag := bus.consumerLag.set (partitionKey m.partition)
            (max 0 (mark - (m.offset + 1))) })
  else (.ok (), bus)

/-- `_publish_dlq`. -/
def publishDlq (a : Answers ε) (m : KafkaMessage ε) (error : String) : ConsumerM ε Unit :=
  match a.send with
  | none => pure ()
  | some sent => do
      let envelope : DlqEnvelope :=
        { error, topic := m.partition.topic, partition := m.partition.partition,
          offset := m.offset, failedAt := a.failedAt, payload := m.text }
      Eff.modify fun bus => { bus with dlq := bus.dlq ++ [envelope] }
      answer sent
      Eff.modify fun bus => { bus with dlqCount := bus.dlqCount + 1 }

/-- The body of the `try`. -/
def process (x : Exceptions ε) (a : Answers ε) (m : KafkaMessage ε) : ConsumerM ε Unit := do
  let event ← answer m.decoded
  answer ((validateDomainEvent event).mapError x.schemaError)
  dispatchEvent x event
  commitOffset x a.commit m
  updatePartitionLag a.highwater m

/-- The body of the `except`. -/
def recover (x : Exceptions ε) (a : Answers ε) (m : KafkaMessage ε) (exc : ε) :
    ConsumerM ε Unit := do
  Eff.modify fun bus => { bus with dispatchErrors := bus.dispatchErrors + 1 }
  exceptException
    (do
      let error ← answer (x.str exc)
      publishDlq a m error)
    fun dlqExc => do
      -- the arguments of the log line
      let _ ← answer (x.str exc)
      let _ ← answer (x.str dlqExc)
  commitOffset x a.recommit m

/-- `_handle_message`. -/
def handleMessage (x : Exceptions ε) (a : Answers ε) (m : KafkaMessage ε) : ConsumerM ε Unit := do
  assertConsumer x
  exceptException (process x a m) (recover x a m)

/-! ### What fails, without the state -/

/-- Taking the text of every error. -/
def printAll (x : Exceptions ε) : List ε → Except ε Unit
  | [] => .ok ()
  | exc :: errors => do
      let _ ← x.str exc
      printAll x errors

/-- The exception that `_dispatch_event` raises for the errors of its handlers. -/
def raiseErrors (x : Exceptions ε) (topic : String) (errors : List ε) : Except ε Unit := do
  printAll x errors
  match errors with
  | [] => pure ()
  | [first] => .error first
  | _ => .error (x.runtimeError
      (toString errors.length ++ " handlers failed for topic '" ++ topic ++ "'"))

/-- How decoding, schema validation and the handlers of a message end. -/
def handled (x : Exceptions ε) (bus : KafkaConsumer ε) (m : KafkaMessage ε) :
    Except (Stop ε) Unit := do
  let event ← m.decoded.mapError .raised
  ((validateDomainEvent event).mapError x.schemaError).mapError .raised
  let errors ← gather ((bus.handlersOf event).map fun handler => handler event)
  (raiseErrors x event.eventType.value errors).mapError .raised

/-- Decoding, schema validation or some handler failed. -/
def Failed (bus : KafkaConsumer ε) (m : KafkaMessage ε) : Prop :=
  match m.decoded with
  | .error _ => True
  | .ok event => (∃ err, validateDomainEvent event = .error err) ∨
      ∃ handler ∈ bus.handlersOf event, ∃ e, handler event = .raised e

/-- The commit and the high-water mark after the handlers. -/
def settled (a : Answers ε) : Except ε Unit := do
  a.commit
  let _ ← a.highwater

/-- The recovery from an exception returns: the exception has a text, the DLQ producer is
missing, takes the envelope or raises an exception that has a text, and the second commit
succeeds. -/
def Recovers (x : Exceptions ε) (a : Answers ε) (exc : ε) : Prop :=
  (∃ text, x.str exc = .ok text) ∧
    (∀ dlqExc, a.send = some (.error dlqExc) → ∃ text, x.str dlqExc = .ok text) ∧
    a.recommit = .ok ()

/-- There is a consumer, every handler ends, a failure is recovered from, and a failure
after the handlers finds no DLQ producer. -/
def Contained (x : Exceptions ε) (a : Answers ε) (bus : KafkaConsumer ε) (m : KafkaMessage ε) :
    Prop :=
  bus.hasConsumer = true ∧
    match handled x bus m with
    | .error .lost => False
    | .error (.raised exc) => Recovers x a exc
    | .ok () => match settled a with
      | .ok () => True
      | .error exc => a.send = none ∧ Recovers x a exc

/-- `_handle_message` returns, and hands the message to the DLQ producer only if decoding,
schema validation or some handler failed. -/
def Survives (x : Exceptions ε) (a : Answers ε) (bus : KafkaConsumer ε) (m : KafkaMessage ε) :
    Prop :=
  (handleMessage x a m bus).1 = .ok () ∧
    ((handleMessage x a m bus).2.dlq ≠ bus.dlq → Failed bus m)

/-! ### The parts of `_handle_message` -/

/-- The part of the state that only the recovery touches. -/
def kept (bus : KafkaConsumer ε) : Bool × List DlqEnvelope := (bus.hasConsumer, bus.dlq)

theorem logErrors_spec (x : Exceptions ε) (errors : List ε) (bus : KafkaConsumer ε) :
    (logErrors x errors bus).1 = (printAll x errors).mapError Stop.raised ∧
      (logErrors x errors bus).2.kept = bus.kept := by
  induction errors generalizing bus with
  | nil => exact ⟨rfl, rfl⟩
  | cons exc errors ih =>
    unfold logErrors printAll
    cases hs : x.str exc with
    | error e => exact ⟨rfl, rfl⟩
    | ok text =>
      obtain ⟨hresult, hkept⟩ := ih { bus with dispatchErrors := bus.dispatchErrors + 1 }
      exact ⟨hresult, hkept⟩

theorem dispatchEvent_spec (x : Exceptions ε) (event : DomainEvent) (bus : KafkaConsumer ε) :
    (dispatchEvent x event bus).1 = (do
        let errors ← gather ((bus.handlersOf event).map fun handler => handler event)
        (raiseErrors x event.eventType.value errors).mapError .raised) ∧
      (dispatchEvent x event bus).2.kept = bus.kept := by
  unfold dispatchEvent raiseErrors
  cases hg : gather ((bus.handlersOf event).map fun handler => handler event) with
  | error e => exact ⟨rfl, rfl⟩
  | ok errors =>
    obtain ⟨hresult, hkept⟩ := logErrors_spec x errors bus
    change ((logErrors x errors >>= _) bus).1 = _ ∧ ((logErrors x errors >>= _) bus).2.kept = _
    cases hp : printAll x errors with
    | error e =>
      rw [hp] at hresult
      have hrun : logErrors x errors bus = (.error (.raised e), (logErrors x errors bus).2) :=
        Prod.ext hresult rfl
      rw [Eff.bind_of_error hrun]
      refine ⟨?_, hkept⟩
      change _ = Except.mapError Stop.raised (printAll x errors >>= _)
      rw [hp]
      rfl
    | ok _ =>
      rw [hp] at hresult
      have hrun : logErrors x errors bus = (.ok (), (logErrors x errors bus).2) :=
        Prod.ext hresult rfl
      rw [Eff.bind_of_ok hrun]
      change _ = Except.mapError Stop.raised (printAll x errors >>= _) ∧ _
      rw [hp]
      match errors with
      | [] => exact ⟨rfl, hkept⟩
      | [first] => exact ⟨rfl, hkept⟩
      | _ :: _ :: _ => exact ⟨rfl, hkept⟩

/-- The `try` up to the commit: it ends as the message is handled, and the rest starts with
the same consumer and the same dead letters. -/
theorem process_spec (x : Exceptions ε) (a : Answers ε) (m : KafkaMessage ε)
    (bus : KafkaConsumer ε) :
    (∃ stop bus', handled x bus m = .error stop ∧ process x a m bus = (.error stop, bus') ∧
        bus'.kept = bus.kept) ∨
      ∃ bus', handled x bus m = .ok () ∧ bus'.kept = bus.kept ∧
        process x a m bus =
          (do commitOffset x a.commit m; updatePartitionLag a.highwater m : ConsumerM ε Unit) bus' := by
  cases hd : m.decoded with
  | error e =>
    refine .inl ⟨.raised e, bus, ?_, ?_, rfl⟩
    · unfold handled
      rw [hd]
      rfl
    · unfold process
      rw [hd]
      rfl
  | ok event =>
    have hhandled : handled x bus m =
        (((validateDomainEvent event).mapError x.schemaError).mapError Stop.raised >>= fun _ =>
          (dispatchEvent x event bus).1) := by
      unfold handled
      rw [hd, (dispatchEvent_spec x event bus).1]
      rfl
    have hprocess : process x a m bus =
        (answer ((validateDomainEvent event).mapError x.schemaError) >>= fun _ => do
          dispatchEvent x event
          commitOffset x a.commit m
          updatePartitionLag a.highwater m) bus := by
      unfold process
      rw [hd]
      rfl
    have hkept := (dispatchEvent_spec x event bus).2
    cases hv : validateDomainEvent event with
    | error err =>
      rw [hv] at hhandled hprocess
      exact .inl ⟨.raised (x.schemaError err), bus, hhandled, hprocess, rfl⟩
    | ok _ =>
      rw [hv] at hhandled hprocess
      cases hrun : dispatchEvent x event bus with
      | mk result bus' =>
        rw [hrun] at hhandled hkept
        cases result with
        | error stop =>
          exact .inl ⟨stop, bus', hhandled, hprocess.trans (Eff.bind_of_error hrun _), hkept⟩
        | ok _ => exact .inr ⟨bus', hhandled, hkept, hprocess.trans (Eff.bind_of_ok hrun _)⟩

theorem assertConsumer_of (x : Exceptions ε) {bus : KafkaConsumer ε} (h : bus.hasConsumer = true) :
    assertConsumer x bus = (.ok (), bus) :=
  if_pos h

theorem assertConsumer_of_not (x : Exceptions ε) {bus : KafkaConsumer ε}
    (h : ¬ bus.hasConsumer = true) :
    assertConsumer x bus = (.error (.raised x.assertionError), bus) :=
  if_neg h

theorem commitOffset_spec (x : Exceptions ε) (commit : Except ε Unit) (m : KafkaMessage ε)
    {bus : KafkaConsumer ε} (h : bus.hasConsumer = true) :
    ∃ bus', bus'.kept = bus.kept ∧
      commitOffset x commit m bus = (commit.mapError .raised, bus') := by
  have hrun : commitOffset x commit m bus = (answer commit >>= fun _ => Eff.modify fun bus =>
      { bus with committed := bus.committed ++ [(m.partition, m.offset + 1)] }) bus :=
    Eff.bind_of_ok (assertConsumer_of x h) _
  rw [hrun]
  cases commit with
  | error e => exact ⟨bus, rfl, rfl⟩
  | ok _ =>
    exact ⟨{ bus with committed := bus.committed ++ [(m.partition, m.offset + 1)] }, rfl, rfl⟩

/-- What follows the handlers, when there is a consumer. -/
theorem settle_spec (x : Exceptions ε) (a : Answers ε) (m : KafkaMessage ε)
    {bus : KafkaConsumer ε} (h : bus.hasConsumer = true) :
    ∃ bus', bus'.kept = bus.kept ∧
      (do commitOffset x a.commit m; updatePartitionLag a.highwater m : ConsumerM ε Unit) bus =
        ((settled a).mapError .raised, bus') := by
  obtain ⟨bus', hkept, hcommit⟩ := commitOffset_spec x a.commit m h
  have h' : bus'.hasConsumer = true := (congrArg Prod.fst hkept).trans h
  unfold settled
  cases hc : a.commit with
  | error e =>
    rw [hc] at hcommit
    exact ⟨bus', hkept, Eff.bind_of_error hcommit _⟩
  | ok _ =>
    rw [hc] at hcommit
    have hnext : (do commitOffset x (.ok ()) m; updatePartitionLag a.highwater m :
        ConsumerM ε Unit) bus = updatePartitionLag a.highwater m bus' :=
      Eff.bind_of_ok hcommit _
    rw [hnext]
    unfold updatePartitionLag
    rw [if_pos h']
    match a.highwater with
    | .error e => exact ⟨bus', hkept, rfl⟩
    | .ok none => exact ⟨bus', hkept, rfl⟩
    | .ok (some mark) =>
      exact ⟨{ bus' with
        consumerLag := bus'.consumerLag.set (partitionKey m.partition)
          (max 0 (mark - (m.offset + 1))) }, hkept, rfl⟩

/-- The guarded part of the recovery. -/
def sendGuarded (x : Exceptions ε) (a : Answers ε) (m : KafkaMessage ε) (exc : ε) :
    ConsumerM ε Unit :=
  exceptException
    (do
      let error ← answer (x.str exc)
      publishDlq a m error)
    fun dlqExc => do
      let _ ← answer (x.str exc)
      let _ ← answer (x.str dlqExc)

/-- How the guarded part ends. -/
def sendResult (x : Exceptions ε) (a : Answers ε) (exc : ε) : Except ε Unit := do
  let _ ← x.str exc
  match a.send with
  | some (.error dlqExc) =>
      let _ ← x.str dlqExc
  | _ => pure ()

theorem sendResult_eq_ok (x : Exceptions ε) (a : Answers ε) (exc : ε) :
    sendResult x a exc = .ok () ↔ (∃ text, x.str exc = .ok text) ∧
      ∀ dlqExc, a.send = some (.error dlqExc) → ∃ text, x.str dlqExc = .ok text := by
  unfold sendResult
  cases hs : x.str exc with
  | error e => exact ⟨(fun h => nomatch h), fun ⟨⟨_, h⟩, _⟩ => nomatch h⟩
  | ok text =>
    match hsend : a.send with
    | none => exact ⟨fun _ => ⟨⟨text, rfl⟩, nofun⟩, fun _ => rfl⟩
    | some (.ok _) => exact ⟨fun _ => ⟨⟨text, rfl⟩, nofun⟩, fun _ => rfl⟩
    | some (.error dlqExc) =>
      constructor
      · intro h
        refine ⟨⟨text, rfl⟩, fun e he => ?_⟩
        obtain rfl : dlqExc = e := by simpa using he
        cases hd : x.str dlqExc with
        | ok t => exact ⟨t, rfl⟩
        | error e =>
          change (x.str dlqExc >>= fun _ => pure ()) = .ok () at h
          rw [hd] at h
          exact nomatch h
      · rintro ⟨-, h⟩
        obtain ⟨t, ht⟩ := h dlqExc rfl
        change (x.str dlqExc >>= fun _ => pure ()) = .ok ()
        rw [ht]
        rfl

/-- The envelope of a failure. -/
def envelopeOf (a : Answers ε) (m : KafkaMessage ε) (error : String) : DlqEnvelope :=
  { error, topic := m.partition.topic, partition := m.partition.partition,
    offset := m.offset, failedAt := a.failedAt, payload := m.text }

/-- The guarded part keeps the consumer, and hands over an envelope exactly when there is a
producer and the failure has a text. -/
theorem sendGuarded_spec (x : Exceptions ε) (a : Answers ε) (m : KafkaMessage ε) (exc : ε)
    (bus : KafkaConsumer ε) :
    ∃ bus', sendGuarded x a m exc bus = ((sendResult x a exc).mapError .raised, bus') ∧
      bus'.hasConsumer = bus.hasConsumer ∧
      (a.send = none → bus'.dlq = bus.dlq) ∧
      (a.send ≠ none → ∀ text, x.str exc = .ok text →
        bus'.dlq = bus.dlq ++ [envelopeOf a m text]) := by
  cases hs : x.str exc with
  | error e =>
    refine ⟨bus, ?_, rfl, fun _ => rfl, fun _ _ h => nomatch h⟩
    unfold sendGuarded sendResult
    rw [hs]
    rfl
  | ok text =>
    match hsend : a.send with
    | none =>
      refine ⟨bus, ?_, rfl, fun _ => rfl, fun h => absurd rfl h⟩
      unfold sendGuarded sendResult publishDlq
      rw [hs, hsend]
      rfl
    | some (.ok _) =>
      refine ⟨{ bus with dlq := bus.dlq ++ [envelopeOf a m text], dlqCount := bus.dlqCount + 1 },
        ?_, rfl, (fun h => nomatch h), fun _ t ht => ?_⟩
      · unfold sendGuarded sendResult publishDlq
        rw [hs, hsend]
        rfl
      · obtain rfl : text = t := by simpa using ht
        rfl
    | some (.error dlqExc) =>
      -- the envelope was handed over, and the failure is only logged
      refine ⟨{ bus with dlq := bus.dlq ++ [envelopeOf a m text] },
        ?_, rfl, (fun h => nomatch h), fun _ t ht => ?_⟩
      · unfold sendGuarded sendResult publishDlq
        rw [hs, hsend]
        change (answer (x.str dlqExc) >>= fun _ => pure ()) _ =
          ((x.str dlqExc >>= fun _ => pure ()).mapError .raised, _)
        cases x.str dlqExc with
        | error e => rfl
        | ok t => rfl
      · obtain rfl : text = t := by simpa using ht
        rfl

/-- The recovery returns exactly when it can, and then it has handed over an envelope
exactly when there is a producer. -/
theorem recover_spec (x : Exceptions ε) (a : Answers ε) (m : KafkaMessage ε) (exc : ε)
    {bus : KafkaConsumer ε} (h : bus.hasConsumer = true) :
    ((recover x a m exc bus).1 = .ok () ↔ Recovers x a exc) ∧
      (a.send = none → (recover x a m exc bus).2.dlq = bus.dlq) ∧
      (a.send ≠ none → (recover x a m exc bus).1 = .ok () →
        (recover x a m exc bus).2.dlq ≠ bus.dlq) := by
  obtain ⟨bus₁, hrun, hconsumer, hnone, hsome⟩ :=
    sendGuarded_spec x a m exc { bus with dispatchErrors := bus.dispatchErrors + 1 }
  have hrecover : recover x a m exc bus =
      (sendGuarded x a m exc >>= fun _ => commitOffset x a.recommit m)
        { bus with dispatchErrors := bus.dispatchErrors + 1 } := rfl
  cases hr : sendResult x a exc with
  | error e =>
    have hnot : ¬ Recovers x a exc := by
      rintro ⟨htext, hdlq, -⟩
      rw [(sendResult_eq_ok x a exc).2 ⟨htext, hdlq⟩] at hr
      exact nomatch hr
    rw [hr] at hrun
    rw [hrecover, Eff.bind_of_error hrun]
    exact ⟨⟨(fun h => nomatch h), fun h => absurd h hnot⟩, hnone, fun _ h => nomatch h⟩
  | ok _ =>
    obtain ⟨⟨text, htext⟩, hdlq⟩ := (sendResult_eq_ok x a exc).1 hr
    obtain ⟨bus₂, hkept, hcommit⟩ :=
      commitOffset_spec x a.recommit m (hconsumer.trans h)
    have hdlq₂ : bus₂.dlq = bus₁.dlq := congrArg Prod.snd hkept
    rw [hr] at hrun
    rw [hrecover, Eff.bind_of_ok hrun, hcommit]
    refine ⟨?_, fun hs => hdlq₂.trans (hnone hs), fun hs _ hsame => ?_⟩
    · cases hc : a.recommit with
      | error e => exact ⟨(fun h => nomatch h), fun h => nomatch hc.symm.trans h.2.2⟩
      | ok _ => exact ⟨fun _ => ⟨⟨text, htext⟩, hdlq, hc⟩, fun _ => rfl⟩
    · have hadded := hsome hs text htext
      rw [← hdlq₂, hsame] at hadded
      simp at hadded

/-! ### What was handled did not fail -/

theorem mem_of_gather {outcomes : List (HandlerOutcome ε)} {errors : List ε} {e : ε}
    (h : gather outcomes = .ok errors) : e ∈ errors ↔ .raised e ∈ outcomes := by
  unfold gather at h
  by_cases hl : outcomes.any (fun | .lost => true | _ => false) = true
  · rw [if_pos hl] at h
    exact nomatch h
  · rw [if_neg hl] at h
    obtain rfl := Except.ok.inj h
    constructor
    · intro he
      obtain ⟨outcome, hmem, heq⟩ := List.mem_filterMap.1 he
      cases outcome with
      | raised e' =>
        obtain rfl : e' = e := by simpa using heq
        exact hmem
      | returned => exact nomatch heq
      | cancelled => exact nomatch heq
      | lost => exact nomatch heq
    · intro he
      exact List.mem_filterMap.2 ⟨_, he, rfl⟩

/-- `_dispatch_event` raises exactly when some handler did. -/
theorem raiseErrors_eq_ok (x : Exceptions ε) (topic : String) (errors : List ε) :
    raiseErrors x topic errors = .ok () ↔ errors = [] := by
  constructor
  · intro h
    unfold raiseErrors at h
    cases hp : printAll x errors with
    | error e =>
      rw [hp] at h
      exact nomatch h
    | ok _ =>
      rw [hp] at h
      match errors with
      | [] => rfl
      | [first] => exact nomatch h
      | _ :: _ :: _ => exact nomatch h
  · rintro rfl
    rfl

theorem handled_of_decoded {x : Exceptions ε} {bus : KafkaConsumer ε} {m : KafkaMessage ε}
    {event : DomainEvent} (h : m.decoded = .ok event) :
    handled x bus m =
      (((validateDomainEvent event).mapError x.schemaError).mapError Stop.raised >>= fun _ =>
        gather ((bus.handlersOf event).map fun handler => handler event) >>= fun errors =>
          (raiseErrors x event.eventType.value errors).mapError Stop.raised) := by
  unfold handled
  rw [h]
  rfl

theorem failed_of_handled_error {x : Exceptions ε} {bus : KafkaConsumer ε} {m : KafkaMessage ε}
    {exc : ε} (h : handled x bus m = .error (.raised exc)) : Failed bus m := by
  unfold Failed
  cases hd : m.decoded with
  | error e => trivial
  | ok event =>
    rw [handled_of_decoded hd] at h
    cases hv : validateDomainEvent event with
    | error err => exact .inl ⟨err, hv⟩
    | ok _ =>
      rw [hv] at h
      cases hg : gather ((bus.handlersOf event).map fun handler => handler event) with
      | error stop =>
        rw [hg] at h
        -- `gather` returns the exceptions it meets, and raises none
        obtain rfl : stop = .raised exc := Except.error.inj h
        unfold gather at hg
        by_cases hl : ((bus.handlersOf event).map fun handler => handler event).any
            (fun | .lost => true | _ => false) = true
        · rw [if_pos hl] at hg
          exact nomatch hg
        · rw [if_neg hl] at hg
          exact nomatch hg
      | ok errors =>
        rw [hg] at h
        change (raiseErrors x event.eventType.value errors).mapError Stop.raised = _ at h
        match errors, hg with
        | [], _ => exact nomatch h
        | e :: _, hg =>
          obtain ⟨handler, hmem, he⟩ := List.mem_map.1 ((mem_of_gather hg).1 List.mem_cons_self)
          exact .inr ⟨handler, hmem, e, he⟩

theorem not_failed_of_handled_ok {x : Exceptions ε} {bus : KafkaConsumer ε} {m : KafkaMessage ε}
    (h : handled x bus m = .ok ()) : ¬ Failed bus m := by
  unfold Failed
  cases hd : m.decoded with
  | error e =>
    unfold handled at h
    rw [hd] at h
    exact nomatch h
  | ok event =>
    rw [handled_of_decoded hd] at h
    cases hv : validateDomainEvent event with
    | error err =>
      rw [hv] at h
      exact nomatch h
    | ok _ =>
      rw [hv] at h
      cases hg : gather ((bus.handlersOf event).map fun handler => handler event) with
      | error stop =>
        rw [hg] at h
        exact nomatch h
      | ok errors =>
        rw [hg] at h
        change (raiseErrors x event.eventType.value errors).mapError Stop.raised = _ at h
        have hok : raiseErrors x event.eventType.value errors = .ok () := by
          cases hr : raiseErrors x event.eventType.value errors with
          | ok _ => rfl
          | error e =>
            rw [hr] at h
            exact nomatch h
        obtain rfl := (raiseErrors_eq_ok x _ errors).1 hok
        rintro (⟨err, herr⟩ | ⟨handler, hmem, e, he⟩)
        · exact nomatch herr.symm.trans hv
        · exact absurd ((mem_of_gather hg).2 (List.mem_map.2 ⟨handler, hmem, he⟩)) List.not_mem_nil

/-! ### A message -/

/-- Exceptions that are their own text. -/
def plainExceptions : Exceptions String where
  str := .ok
  schemaError _ := "invalid event"
  assertionError := ""
  runtimeError message := message
  str_runtimeError _ := rfl

/-- A broker that has lost the consumer's partition: every commit raises. -/
def revoked : Answers String :=
  { commit := .error "partition revoked", highwater := .ok none, send := some (.ok ()),
    recommit := .error "partition revoked", failedAt := 0 }

/-- A broker whose first commit raises. -/
def stuttering : Answers String := { revoked with recommit := .ok () }

/-- A valid message. -/
def calibrationMessage : KafkaMessage String :=
  { decoded := .ok (KafkaEventBus.calibrationEvent "acme" "ci" "k"), text := "\x7b\x7d",
    partition := ⟨"aci.events", 0⟩, offset := 7 }

/-- A bus without handlers. -/
def idle : KafkaConsumer String := {}

end KafkaConsumer
end ComputeIntelligence
