import ComputeIntelligence.EventSchema
import ComputeIntelligence.GuardedRuns

/-! # Starting the Kafka bus

`KafkaEventBus.start` and the lazy start of `publish` (`core/event_bus.py`), by any number
of callers who switch at the `await`s.  `start` asks whether the bus has started, creates
a producer, awaits it, creates a consumer, awaits it, and only then says that the bus has
started; a call that asks in between creates its own.

So the bus ends up with one producer and one consumer exactly when no call asks in
between and no broker refuses: `startedOnce_iff_guarded`.
-/
namespace ComputeIntelligence

/-- A call of `start()` or `publish(event)`. -/
inductive BusCall where
  | start
  | publish (event : DomainEvent)

/-- The call gets to the question whether the bus has started. -/
def BusCall.asks : BusCall → Bool
  | .start => true
  | .publish event => (validateDomainEvent event).isOk

/-- Where a call stands: not begun, in one of its `await`s, or finished. -/
inductive StartPhase where
  | called
  | startingProducer (mine : Nat)
  | startingConsumer (mine : Nat)
  | checking
  | sending
  | returned
  | raised
deriving DecidableEq

/-- In an `await` of `start`. -/
def StartPhase.Starting : StartPhase → Prop
  | .startingProducer _ | .startingConsumer _ => True
  | _ => False

/-- The call has returned or raised. -/
def StartPhase.Finished : StartPhase → Prop
  | .returned | .raised => True
  | _ => False

instance (p : StartPhase) : Decidable p.Finished :=
  match p with
  | .returned | .raised => isTrue trivial
  | .called | .startingProducer _ | .startingConsumer _ | .checking | .sending => isFalse id

/-- What an awaited call answers; `seen` is the idempotency store's answer to a known key. -/
inductive AwaitReply where
  | ok
  | seen
  | raised
deriving DecidableEq

/-- `KafkaEventBus` while it starts: every producer and every consumer it has created, and
whether it has been started, and the consumer tasks. -/
structure KafkaStart where
  consume : Bool
  started : Bool
  /-- `_producer`, as an index. -/
  producer : Option Nat
  producers : List Bool
  consumers : List Bool
  tasks : Nat
  calls : List (BusCall × StartPhase)

/-- A new call, or a call that goes on to its next `await`. -/
inductive StartAction where
  | call (c : BusCall)
  | resume (i : Nat) (reply : AwaitReply)

namespace KafkaStart

/-- A bus that has not started. -/
def initial (consume : Bool) : KafkaStart := ⟨consume, false, none, [], [], 0, []⟩

/-- Call `i` moves to `phase`. -/
def goTo (s : KafkaStart) (i : Nat) (c : BusCall) (phase : StartPhase) : KafkaStart :=
  { s with calls := s.calls.set i (c, phase) }

/-- What follows `start`, or the check that replaces it: the end of `start()`, or
`publish` up to its question to the idempotency store. -/
def afterStart (s : KafkaStart) (i : Nat) (c : BusCall) : KafkaStart :=
  match c with
  | .start => s.goTo i c .returned
  | .publish _ => match s.producer with
    | none => s.goTo i c .raised
    | some _ => s.goTo i c .checking

/-- The call asks whether the bus has started. -/
def ask (s : KafkaStart) (i : Nat) (c : BusCall) : KafkaStart :=
  if s.started then s.afterStart i c
  else
    { s with
      producer := some s.producers.length
      producers := s.producers ++ [false]
      calls := s.calls.set i (c, .startingProducer s.producers.length) }

/-- The call creates a consumer and starts it. -/
def createConsumer (s : KafkaStart) (i : Nat) (c : BusCall) : KafkaStart :=
  { s with
    consumers := s.consumers ++ [false]
    calls := s.calls.set i (c, .startingConsumer s.consumers.length) }

/-- The call's producer has started. -/
def producerStarted (s : KafkaStart) (i : Nat) (c : BusCall) (mine : Nat) : KafkaStart :=
  if s.consume then { s with producers := s.producers.set mine true }.createConsumer i c
  else { s with producers := s.producers.set mine true, started := true }.afterStart i c

/-- The call's consumer has started. -/
def consumerStarted (s : KafkaStart) (i : Nat) (c : BusCall) (mine : Nat) : KafkaStart :=
  { s with consumers := s.consumers.set mine true, tasks := s.tasks + 1, started := true }.afterStart i c

/-- Call `i` goes on. -/
def resume (s : KafkaStart) (i : Nat) (reply : AwaitReply) : KafkaStart :=
  match s.calls[i]? with
  | none => s
  | some (c, phase) => match phase, reply with
    | .called, _ => if c.asks then s.ask i c else s.goTo i c .raised
    | .startingProducer _, .raised => s.goTo i c .raised
    | .startingProducer mine, _ => s.producerStarted i c mine
    | .startingConsumer _, .raised => s.goTo i c .raised
    | .startingConsumer mine, _ => s.consumerStarted i c mine
    | .checking, .ok => s.goTo i c .sending
    | .checking, .seen => s.goTo i c .returned
    | .checking, .raised => s.goTo i c .raised
    | .sending, .raised => s.goTo i c .raised
    | .sending, _ => s.goTo i c .returned
    | .returned, _ => s
    | .raised, _ => s

/-- One step. -/
def step (s : KafkaStart) : StartAction → KafkaStart
  | .call c => { s with calls := s.calls ++ [(c, .called)] }
  | .resume i reply => s.resume i reply

/-- Every call has finished. -/
def Quiet (s : KafkaStart) : Prop := ∀ c ∈ s.calls, c.2.Finished

instance (s : KafkaStart) : Decidable s.Quiet := inferInstanceAs (Decidable (∀ c ∈ s.calls, c.2.Finished))

/-- One producer was created, and it has started; if the bus consumes, one consumer was
created, it has started, and there is one consumer task. -/
def StartedOnce (s : KafkaStart) : Prop :=
  s.producers = [true] ∧ (s.consume = true → s.consumers = [true] ∧ s.tasks = 1)

instance (s : KafkaStart) : Decidable s.StartedOnce :=
  inferInstanceAs (Decidable (_ ∧ (_ → _)))

/-- How a call that stands in `phase` may go on. -/
def OrderlyCall (s : KafkaStart) (c : BusCall) (reply : AwaitReply) : StartPhase → Prop
  | .called => c.asks = true → s.started = false → s.producers = []
  | .startingProducer _ | .startingConsumer _ => reply ≠ .raised
  | _ => True

/-- No call finds the bus not started after another has begun to start it, and no start of
a producer or of a consumer raises. -/
def Orderly (s : KafkaStart) : StartAction → Prop
  | .call _ => True
  | .resume i reply => ∀ c phase, s.calls[i]? = some (c, phase) → s.OrderlyCall c reply phase

/-! ### The stages of an orderly start -/

/-- A call that has not begun, or was rejected by validation. -/
def Waiting (c : BusCall × StartPhase) : Prop :=
  c.2 = .called ∨ (c.2 = .raised ∧ c.1.asks = false)

/-- Nobody has asked. -/
structure Fresh (s : KafkaStart) : Prop where
  started : s.started = false
  producers : s.producers = []
  consumers : s.consumers = []
  tasks : s.tasks = 0
  waiting : ∀ c ∈ s.calls, Waiting c

/-- Call `i` is starting the producer. -/
structure AtProducer (s : KafkaStart) (i : Nat) : Prop where
  started : s.started = false
  producer : s.producer = some 0
  producers : s.producers = [false]
  consumers : s.consumers = []
  tasks : s.tasks = 0
  mine : ∃ c, s.calls[i]? = some (c, .startingProducer 0)
  waiting : ∀ j c, s.calls[j]? = some c → j ≠ i → Waiting c

/-- Call `i` is starting the consumer. -/
structure AtConsumer (s : KafkaStart) (i : Nat) : Prop where
  consume : s.consume = true
  started : s.started = false
  producer : s.producer = some 0
  producers : s.producers = [true]
  consumers : s.consumers = [false]
  tasks : s.tasks = 0
  mine : ∃ c, s.calls[i]? = some (c, .startingConsumer 0)
  waiting : ∀ j c, s.calls[j]? = some c → j ≠ i → Waiting c

/-- The bus has started. -/
structure Running (s : KafkaStart) : Prop where
  started : s.started = true
  once : s.StartedOnce
  settled : ∀ c ∈ s.calls, ¬ c.2.Starting

/-- One of the stages. -/
def InOrder (s : KafkaStart) : Prop :=
  s.Fresh ∨ (∃ i, s.AtProducer i) ∨ (∃ i, s.AtConsumer i) ∨ s.Running

/-- A start that has gone wrong for good: a second producer, or a producer or a consumer
that nobody is starting any more. -/
def Broken (s : KafkaStart) : Prop :=
  2 ≤ s.producers.length ∨
  (s.producers[0]? = some false ∧ ∀ c ∈ s.calls, c.2 ≠ .startingProducer 0) ∨
  (s.consume = true ∧ s.consumers[0]? = some false ∧ ∀ c ∈ s.calls, c.2 ≠ .startingConsumer 0)

/-- An orderly step stays in order, any other breaks the start. -/
def Turns (s : KafkaStart) (a : StartAction) (s' : KafkaStart) : Prop :=
  (s.Orderly a ∧ s'.InOrder) ∨ (¬ s.Orderly a ∧ s'.Broken)

/-! ### What a step does -/

@[simp] theorem goTo_producers (s : KafkaStart) (i : Nat) (c : BusCall) (p : StartPhase) :
    (s.goTo i c p).producers = s.producers := rfl

@[simp] theorem goTo_consumers (s : KafkaStart) (i : Nat) (c : BusCall) (p : StartPhase) :
    (s.goTo i c p).consumers = s.consumers := rfl

@[simp] theorem goTo_consume (s : KafkaStart) (i : Nat) (c : BusCall) (p : StartPhase) :
    (s.goTo i c p).consume = s.consume := rfl

theorem afterStart_eq (s : KafkaStart) (i : Nat) (c : BusCall) :
    ∃ phase, ¬ phase.Starting ∧ s.afterStart i c = s.goTo i c phase := by
  unfold afterStart
  match c with
  | .start => exact ⟨.returned, id, rfl⟩
  | .publish _ =>
    cases s.producer with
    | none => exact ⟨.raised, id, rfl⟩
    | some _ => exact ⟨.checking, id, rfl⟩

/-- A call that begins, and how it goes on. -/
theorem resume_called {s : KafkaStart} {i : Nat} {c : BusCall} (h : s.calls[i]? = some (c, .called))
    (reply : AwaitReply) :
    s.resume i reply = if c.asks then s.ask i c else s.goTo i c .raised := by
  unfold resume
  rw [h]

theorem resume_startingProducer {s : KafkaStart} {i mine : Nat} {c : BusCall}
    (h : s.calls[i]? = some (c, .startingProducer mine)) (reply : AwaitReply) :
    s.resume i reply =
      if reply = .raised then s.goTo i c .raised else s.producerStarted i c mine := by
  unfold resume
  rw [h]
  cases reply <;> rfl

theorem resume_startingConsumer {s : KafkaStart} {i mine : Nat} {c : BusCall}
    (h : s.calls[i]? = some (c, .startingConsumer mine)) (reply : AwaitReply) :
    s.resume i reply =
      if reply = .raised then s.goTo i c .raised else s.consumerStarted i c mine := by
  unfold resume
  rw [h]
  cases reply <;> rfl

/-- A call past its start only moves itself. -/
theorem resume_rest {s : KafkaStart} {i : Nat} {c : BusCall} {phase : StartPhase}
    (h : s.calls[i]? = some (c, phase)) (hcalled : phase ≠ .called) (hs : ¬ phase.Starting)
    (reply : AwaitReply) :
    s.resume i reply = s ∨ ∃ phase', ¬ phase'.Starting ∧ s.resume i reply = s.goTo i c phase' := by
  unfold resume
  rw [h]
  match phase, reply with
  | .called, _ => exact absurd rfl hcalled
  | .startingProducer _, _ => exact absurd trivial hs
  | .startingConsumer _, _ => exact absurd trivial hs
  | .checking, .ok => exact .inr ⟨.sending, id, rfl⟩
  | .checking, .seen => exact .inr ⟨.returned, id, rfl⟩
  | .checking, .raised => exact .inr ⟨.raised, id, rfl⟩
  | .sending, .ok => exact .inr ⟨.returned, id, rfl⟩
  | .sending, .seen => exact .inr ⟨.returned, id, rfl⟩
  | .sending, .raised => exact .inr ⟨.raised, id, rfl⟩
  | .returned, _ => exact .inl rfl
  | .raised, _ => exact .inl rfl

theorem mem_goTo {s : KafkaStart} {i : Nat} {c : BusCall} {p : StartPhase}
    {d : BusCall × StartPhase} (h : d ∈ (s.goTo i c p).calls) : d ∈ s.calls ∨ d = (c, p) :=
  List.mem_or_eq_of_mem_set h

/-- A phase that no call is in is empty after a move into another one. -/
theorem ne_goTo {s : KafkaStart} {i : Nat} {c : BusCall} {p q : StartPhase} (hp : p ≠ q)
    (hall : ∀ d ∈ s.calls, d.2 ≠ q) : ∀ d ∈ (s.goTo i c p).calls, d.2 ≠ q := by
  intro d hd
  rcases mem_goTo hd with hd | rfl
  · exact hall d hd
  · exact hp

/-- **What `resume` does**: nothing, or it moves a call that exists, in one of four ways. -/
theorem resume_cases (s : KafkaStart) (i : Nat) (reply : AwaitReply) :
    s.resume i reply = s ∨ ∃ c phase, s.calls[i]? = some (c, phase) ∧
      ((∃ p : StartPhase, ¬ p.Starting ∧ s.resume i reply = s.goTo i c p) ∨
        (c.asks = true ∧ s.resume i reply = s.ask i c) ∨
        (∃ mine, phase = .startingProducer mine ∧ s.resume i reply = s.producerStarted i c mine) ∨
        ∃ mine, phase = .startingConsumer mine ∧ s.resume i reply = s.consumerStarted i c mine) := by
  cases hi : s.calls[i]? with
  | none =>
    left
    unfold resume
    rw [hi]
  | some call =>
    obtain ⟨c, phase⟩ := call
    by_cases hcalled : phase = .called
    · refine .inr ⟨c, phase, rfl, ?_⟩
      rw [resume_called (hcalled ▸ hi) reply]
      split
      · exact .inr (.inl ⟨by assumption, rfl⟩)
      · exact .inl ⟨.raised, id, rfl⟩
    · match phase with
      | .called => exact absurd rfl hcalled
      | .startingProducer mine =>
        refine .inr ⟨c, _, rfl, ?_⟩
        rw [resume_startingProducer hi reply]
        split
        · exact .inl ⟨.raised, id, rfl⟩
        · exact .inr (.inr (.inl ⟨mine, rfl, rfl⟩))
      | .startingConsumer mine =>
        refine .inr ⟨c, _, rfl, ?_⟩
        rw [resume_startingConsumer hi reply]
        split
        · exact .inl ⟨.raised, id, rfl⟩
        · exact .inr (.inr (.inr ⟨mine, rfl, rfl⟩))
      | .checking | .sending | .returned | .raised =>
        rcases resume_rest hi hcalled id reply with heq | hmove
        · exact .inl heq
        · exact .inr ⟨c, _, rfl, .inl hmove⟩

/-! ### A broken start stays broken -/

theorem StartedOnce.not_broken {s : KafkaStart} (h : s.StartedOnce) : ¬ s.Broken := by
  rintro (hb | ⟨hb, -⟩ | ⟨hc, hb, -⟩)
  · simp [h.1] at hb
  · simp [h.1] at hb
  · simp [(h.2 hc).1] at hb

theorem Broken.goTo {s : KafkaStart} (h : s.Broken) (i : Nat) (c : BusCall) {p : StartPhase}
    (hp : ¬ p.Starting) : (s.goTo i c p).Broken := by
  have hne : ∀ q : StartPhase, q.Starting → p ≠ q := by
    rintro q hq rfl
    exact hp hq
  rcases h with h | ⟨h, hall⟩ | ⟨hc, h, hall⟩
  · exact .inl h
  · exact .inr (.inl ⟨h, ne_goTo (hne _ trivial) hall⟩)
  · exact .inr (.inr ⟨hc, h, ne_goTo (hne _ trivial) hall⟩)

theorem Broken.ask {s : KafkaStart} (h : s.Broken) (i : Nat) (c : BusCall) : (s.ask i c).Broken := by
  unfold KafkaStart.ask
  split
  · obtain ⟨p, hp, heq⟩ := afterStart_eq s i c
    rw [heq]
    exact h.goTo i c hp
  · -- the producer that stays unstarted is not the only one any more
    rcases h with h | ⟨h, -⟩ | ⟨hc, h, hall⟩
    · left
      simp only [List.length_append, List.length_singleton]
      omega
    · left
      obtain ⟨hlt, -⟩ := List.getElem?_eq_some_iff.1 h
      simp only [List.length_append, List.length_singleton]
      omega
    · exact .inr (.inr ⟨hc, h, ne_goTo StartPhase.noConfusion hall⟩)

theorem Broken.producerStarted {s : KafkaStart} (h : s.Broken) {i mine : Nat} {c : BusCall}
    (hi : s.calls[i]? = some (c, .startingProducer mine)) : (s.producerStarted i c mine).Broken := by
  have hmem := List.mem_of_getElem? hi
  have hset : ({ s with producers := s.producers.set mine true } : KafkaStart).Broken := by
    rcases h with h | ⟨h, hall⟩ | h
    · exact .inl (by simpa using h)
    · have hne : mine ≠ 0 := fun h0 => hall _ hmem (h0 ▸ rfl)
      exact .inr (.inl ⟨(List.getElem?_set_ne hne).trans h, hall⟩)
    · exact .inr (.inr h)
  unfold KafkaStart.producerStarted
  split
  · rcases hset with h | ⟨h, hall⟩ | ⟨hc, h, hall⟩
    · exact .inl h
    · exact .inr (.inl ⟨h, ne_goTo StartPhase.noConfusion hall⟩)
    · obtain ⟨hlt, -⟩ := List.getElem?_eq_some_iff.1 h
      refine .inr (.inr ⟨hc, (List.getElem?_append_left hlt).trans h, ne_goTo ?_ hall⟩)
      -- a consumer exists, so the new one is not the consumer 0
      intro heq
      have hzero : s.consumers.length = 0 := StartPhase.startingConsumer.inj heq
      have : 0 < s.consumers.length := hlt
      omega
  · obtain ⟨p, hp, heq⟩ := afterStart_eq
      { s with producers := s.producers.set mine true, started := true } i c
    rw [heq]
    have hstarted : ({ s with producers := s.producers.set mine true, started := true } :
        KafkaStart).Broken := hset
    exact hstarted.goTo i c hp

theorem Broken.consumerStarted {s : KafkaStart} (h : s.Broken) {i mine : Nat} {c : BusCall}
    (hi : s.calls[i]? = some (c, .startingConsumer mine)) : (s.consumerStarted i c mine).Broken := by
  have hmem := List.mem_of_getElem? hi
  have hset : ({ s with
      consumers := s.consumers.set mine true, tasks := s.tasks + 1, started := true } :
      KafkaStart).Broken := by
    rcases h with h | h | ⟨hc, h, hall⟩
    · exact .inl h
    · exact .inr (.inl h)
    · have hne : mine ≠ 0 := fun h0 => hall _ hmem (h0 ▸ rfl)
      exact .inr (.inr ⟨hc, (List.getElem?_set_ne hne).trans h, hall⟩)
  unfold KafkaStart.consumerStarted
  obtain ⟨p, hp, heq⟩ := afterStart_eq
    { s with consumers := s.consumers.set mine true, tasks := s.tasks + 1, started := true } i c
  rw [heq]
  exact hset.goTo i c hp

theorem Broken.step {s : KafkaStart} (h : s.Broken) (a : StartAction) : (s.step a).Broken := by
  cases a with
  | call c =>
    have hnew : ∀ q : StartPhase, q.Starting → (∀ d ∈ s.calls, d.2 ≠ q) →
        ∀ d ∈ s.calls ++ [(c, StartPhase.called)], d.2 ≠ q := by
      intro q hq hall d hd
      rcases List.mem_append.1 hd with hd | hd
      · exact hall d hd
      · obtain rfl := List.mem_singleton.1 hd
        rintro rfl
        exact hq
    rcases h with h | ⟨h, hall⟩ | ⟨hc, h, hall⟩
    · exact .inl h
    · exact .inr (.inl ⟨h, hnew _ trivial hall⟩)
    · exact .inr (.inr ⟨hc, h, hnew _ trivial hall⟩)
  | resume i reply =>
    change (s.resume i reply).Broken
    rcases resume_cases s i reply with heq | ⟨c, phase, hi, hmove⟩
    · rw [heq]
      exact h
    · rcases hmove with ⟨p, hp, heq⟩ | ⟨-, heq⟩ | ⟨mine, rfl, heq⟩ | ⟨mine, rfl, heq⟩
      · rw [heq]
        exact h.goTo i c hp
      · rw [heq]
        exact h.ask i c
      · rw [heq]
        exact h.producerStarted hi
      · rw [heq]
        exact h.consumerStarted hi

/-! ### An orderly step stays in order -/

theorem getElem?_goTo {s : KafkaStart} {i j : Nat} {c : BusCall} {p : StartPhase}
    {d : BusCall × StartPhase} (h : (s.calls.set i (c, p))[j]? = some d) :
    (j = i ∧ d = (c, p)) ∨ (j ≠ i ∧ s.calls[j]? = some d) := by
  by_cases hj : i = j
  · subst hj
    refine .inl ⟨rfl, ?_⟩
    obtain ⟨hlt, -⟩ := List.getElem?_eq_some_iff.1 h
    rw [List.getElem?_set_self (by simpa using hlt)] at h
    exact (Option.some.inj h).symm
  · rw [List.getElem?_set_ne hj] at h
    exact .inr ⟨Ne.symm hj, h⟩

theorem getElem?_set_own {s : KafkaStart} {i : Nat} {d e : BusCall × StartPhase}
    (h : s.calls[i]? = some d) : (s.calls.set i e)[i]? = some e :=
  List.getElem?_set_self (List.getElem?_eq_some_iff.1 h).1

/-- What holds of the call that moved and of all others holds of every call. -/
theorem forall_goTo {s : KafkaStart} {i : Nat} {c : BusCall} {p : StartPhase}
    {P : BusCall × StartPhase → Prop} (hp : P (c, p))
    (hrest : ∀ j d, s.calls[j]? = some d → j ≠ i → P d) : ∀ d ∈ (s.goTo i c p).calls, P d := by
  intro d hd
  obtain ⟨j, hj⟩ := List.getElem?_of_mem hd
  rcases getElem?_goTo hj with ⟨-, rfl⟩ | ⟨hne, hd⟩
  · exact hp
  · exact hrest j d hd hne

/-- A call that moves keeps the others waiting. -/
theorem waiting_goTo_own {s : KafkaStart} {i : Nat} {c : BusCall} {p : StartPhase}
    (h : ∀ j d, s.calls[j]? = some d → j ≠ i → Waiting d) :
    ∀ j d, (s.goTo i c p).calls[j]? = some d → j ≠ i → Waiting d := by
  intro j d hd hj
  rcases getElem?_goTo hd with ⟨rfl, -⟩ | ⟨-, hd⟩
  · exact absurd rfl hj
  · exact h j d hd hj

/-- A call that is rejected waits with the others. -/
theorem waiting_reject {s : KafkaStart} {i k : Nat} {c : BusCall} (hc : c.asks = false)
    (h : ∀ j d, s.calls[j]? = some d → j ≠ k → Waiting d) :
    ∀ j d, (s.goTo i c .raised).calls[j]? = some d → j ≠ k → Waiting d := by
  intro j d hd hj
  rcases getElem?_goTo hd with ⟨-, rfl⟩ | ⟨-, hd⟩
  · exact .inr ⟨rfl, hc⟩
  · exact h j d hd hj

theorem Fresh.reject {s : KafkaStart} (h : s.Fresh) (i : Nat) {c : BusCall}
    (hc : c.asks = false) : (s.goTo i c .raised).Fresh where
  started := h.started
  producers := h.producers
  consumers := h.consumers
  tasks := h.tasks
  waiting d hd := by
    rcases mem_goTo hd with hd | rfl
    · exact h.waiting d hd
    · exact .inr ⟨rfl, hc⟩

theorem AtProducer.reject {s : KafkaStart} {i k : Nat} (h : s.AtProducer k) {c : BusCall}
    (hik : i ≠ k) (hc : c.asks = false) : (s.goTo i c .raised).AtProducer k where
  started := h.started
  producer := h.producer
  producers := h.producers
  consumers := h.consumers
  tasks := h.tasks
  mine := h.mine.imp fun _ hk => (List.getElem?_set_ne hik).trans hk
  waiting := waiting_reject hc h.waiting

theorem AtConsumer.reject {s : KafkaStart} {i k : Nat} (h : s.AtConsumer k) {c : BusCall}
    (hik : i ≠ k) (hc : c.asks = false) : (s.goTo i c .raised).AtConsumer k where
  consume := h.consume
  started := h.started
  producer := h.producer
  producers := h.producers
  consumers := h.consumers
  tasks := h.tasks
  mine := h.mine.imp fun _ hk => (List.getElem?_set_ne hik).trans hk
  waiting := waiting_reject hc h.waiting

theorem Running.goTo {s : KafkaStart} (h : s.Running) (i : Nat) (c : BusCall) {p : StartPhase}
    (hp : ¬ p.Starting) : (s.goTo i c p).Running where
  started := h.started
  once := h.once
  settled d hd := by
    rcases mem_goTo hd with hd | rfl
    · exact h.settled d hd
    · exact hp

/-- The first call to ask starts the producer. -/
theorem Fresh.ask {s : KafkaStart} (h : s.Fresh) {i : Nat} {c : BusCall} {p : StartPhase}
    (hi : s.calls[i]? = some (c, p)) : (s.ask i c).AtProducer i := by
  unfold KafkaStart.ask
  rw [if_neg (Bool.not_eq_true _ ▸ h.started), h.producers]
  exact
    { started := h.started
      producer := rfl
      producers := rfl
      consumers := h.consumers
      tasks := h.tasks
      mine := ⟨c, getElem?_set_own hi⟩
      waiting := waiting_goTo_own fun _ d hd _ => h.waiting d (List.mem_of_getElem? hd) }

theorem Waiting.not_starting {c : BusCall × StartPhase} (h : Waiting c) : ¬ c.2.Starting := by
  rcases h with h | ⟨h, -⟩
  · rw [h]
    exact id
  · rw [h]
    exact id

/-- A bus whose one start has come to its end. -/
theorem running_of_started {s : KafkaStart} {i : Nat} (c : BusCall) (hstarted : s.started = true)
    (honce : s.StartedOnce) (hwaiting : ∀ j d, s.calls[j]? = some d → j ≠ i → Waiting d) :
    (s.afterStart i c).Running := by
  obtain ⟨p, hp, heq⟩ := afterStart_eq s i c
  rw [heq]
  exact ⟨hstarted, honce, forall_goTo hp fun j d hd hne => (hwaiting j d hd hne).not_starting⟩

theorem AtProducer.producerStarted {s : KafkaStart} {i mine : Nat} {c : BusCall}
    (h : s.AtProducer i) (hi : s.calls[i]? = some (c, .startingProducer mine)) :
    (s.producerStarted i c mine).InOrder := by
  obtain ⟨c', hc'⟩ := h.mine
  obtain rfl : mine = 0 := by
    have heq := hi.symm.trans hc'
    simp only [Option.some.injEq, Prod.mk.injEq, StartPhase.startingProducer.injEq] at heq
    exact heq.2
  unfold KafkaStart.producerStarted
  rw [h.producers]
  by_cases hconsume : s.consume = true
  · rw [if_pos hconsume]
    refine .inr (.inr (.inl ⟨i, ?_⟩))
    unfold createConsumer
    dsimp only
    rw [h.consumers]
    exact
      { consume := hconsume
        started := h.started
        producer := h.producer
        producers := rfl
        consumers := rfl
        tasks := h.tasks
        mine := ⟨c, getElem?_set_own hi⟩
        waiting := waiting_goTo_own h.waiting }
  · rw [if_neg hconsume]
    exact .inr (.inr (.inr (running_of_started c rfl
      ⟨rfl, fun h => absurd h hconsume⟩ h.waiting)))

theorem AtConsumer.consumerStarted {s : KafkaStart} {i mine : Nat} {c : BusCall}
    (h : s.AtConsumer i) (hi : s.calls[i]? = some (c, .startingConsumer mine)) :
    (s.consumerStarted i c mine).InOrder := by
  obtain ⟨c', hc'⟩ := h.mine
  obtain rfl : mine = 0 := by
    have heq := hi.symm.trans hc'
    simp only [Option.some.injEq, Prod.mk.injEq, StartPhase.startingConsumer.injEq] at heq
    exact heq.2
  unfold KafkaStart.consumerStarted
  rw [h.consumers, h.tasks]
  exact .inr (.inr (.inr (running_of_started c rfl
    ⟨h.producers, fun _ => ⟨rfl, rfl⟩⟩ h.waiting)))

/-- A call that was waiting asks, is rejected, or was rejected before. -/
theorem resume_waiting {s : KafkaStart} {i : Nat} {c : BusCall} {phase : StartPhase}
    (hi : s.calls[i]? = some (c, phase)) (hw : Waiting (c, phase)) (reply : AwaitReply) :
    (phase = .called ∧ c.asks = true ∧ s.resume i reply = s.ask i c) ∨
      (c.asks = false ∧ s.resume i reply = s.goTo i c .raised) ∨
      (phase = .raised ∧ s.resume i reply = s) := by
  rcases hw with hphase | ⟨hphase, -⟩
  · obtain rfl : phase = .called := hphase
    have hrun := resume_called hi reply
    cases hc : c.asks with
    | true => exact .inl ⟨rfl, rfl, by rwa [hc, if_pos rfl] at hrun⟩
    | false => exact .inr (.inl ⟨rfl, by rwa [hc, if_neg Bool.false_ne_true] at hrun⟩)
  · obtain rfl : phase = .raised := hphase
    refine .inr (.inr ⟨rfl, ?_⟩)
    unfold resume
    rw [hi]

/-- A second question before the bus has started makes a second producer. -/
theorem ask_broken {s : KafkaStart} {i : Nat} {c : BusCall} (hs : s.started = false)
    (hp : s.producers ≠ []) : (s.ask i c).Broken := by
  unfold KafkaStart.ask
  rw [if_neg (Bool.not_eq_true _ ▸ hs)]
  left
  have := List.length_pos_iff.2 hp
  simp only [List.length_append, List.length_singleton]
  omega

theorem orderly_of_phase {s : KafkaStart} {i : Nat} {c : BusCall} {phase : StartPhase}
    {reply : AwaitReply} (hi : s.calls[i]? = some (c, phase)) :
    s.Orderly (.resume i reply) ↔ s.OrderlyCall c reply phase := by
  constructor
  · exact fun h => h c phase hi
  · intro h c' phase' hi'
    have heq := Option.some.inj (hi.symm.trans hi')
    simp only [Prod.mk.injEq] at heq
    obtain ⟨rfl, rfl⟩ := heq
    exact h

/-- A rejected call is orderly. -/
theorem orderlyCall_of_not_asks {s : KafkaStart} {c : BusCall} {phase : StartPhase}
    {reply : AwaitReply} (hw : Waiting (c, phase)) (hc : c.asks = false) :
    s.OrderlyCall c reply phase := by
  rcases hw with hphase | ⟨hphase, -⟩
  · obtain rfl : phase = .called := hphase
    exact fun hasks => Bool.noConfusion (hasks.symm.trans hc)
  · obtain rfl : phase = .raised := hphase
    trivial

/-- While another call starts the bus, a waiting call is rejected, or it breaks the start. -/
theorem resume_while_starting {s : KafkaStart} {i : Nat} {call : BusCall × StartPhase}
    (hi : s.calls[i]? = some call) (hw : Waiting call) (hs : s.started = false)
    (hp : s.producers ≠ []) (hself : s.InOrder)
    (hreject : ∀ c : BusCall, c.asks = false → (s.goTo i c .raised).InOrder) (reply : AwaitReply) :
    s.Turns (.resume i reply) (s.resume i reply) := by
  obtain ⟨c, phase⟩ := call
  rw [Turns, orderly_of_phase hi]
  rcases resume_waiting hi hw reply with ⟨rfl, hasks, heq⟩ | ⟨hc, heq⟩ | ⟨rfl, heq⟩
  · rw [heq]
    exact .inr ⟨fun ho => hp (ho hasks hs), ask_broken hs hp⟩
  · rw [heq]
    exact .inl ⟨orderlyCall_of_not_asks hw hc, hreject c hc⟩
  · rw [heq]
    exact .inl ⟨trivial, hself⟩

theorem Fresh.resume {s : KafkaStart} (h : s.Fresh) {i : Nat} {call : BusCall × StartPhase}
    (hi : s.calls[i]? = some call) (reply : AwaitReply) :
    s.Orderly (.resume i reply) ∧ (s.resume i reply).InOrder := by
  obtain ⟨c, phase⟩ := call
  have hw := h.waiting _ (List.mem_of_getElem? hi)
  rw [orderly_of_phase hi]
  rcases resume_waiting hi hw reply with ⟨rfl, -, heq⟩ | ⟨hc, heq⟩ | ⟨rfl, heq⟩
  · rw [heq]
    exact ⟨fun _ _ => h.producers, .inr (.inl ⟨i, h.ask hi⟩)⟩
  · rw [heq]
    exact ⟨orderlyCall_of_not_asks hw hc, .inl (h.reject i hc)⟩
  · rw [heq]
    exact ⟨trivial, .inl h⟩

theorem AtProducer.resume {s : KafkaStart} {i k : Nat} (h : s.AtProducer k)
    {call : BusCall × StartPhase} (hi : s.calls[i]? = some call) (reply : AwaitReply) :
    s.Turns (.resume i reply) (s.resume i reply) := by
  by_cases hik : i = k
  · subst hik
    obtain ⟨c, hc⟩ := h.mine
    rw [Turns, orderly_of_phase hc, resume_startingProducer hc]
    by_cases hr : reply = .raised
    · -- the producer stays created, and nobody starts it
      rw [if_pos hr]
      refine .inr ⟨fun hne => hne hr, .inr (.inl ⟨by simp [h.producers],
        forall_goTo StartPhase.noConfusion fun j d hd hne heq => ?_⟩)⟩
      exact (h.waiting j d hd hne).not_starting (heq ▸ trivial)
    · rw [if_neg hr]
      exact .inl ⟨hr, h.producerStarted hc⟩
  · have hne : s.producers ≠ [] := by simp [h.producers]
    exact resume_while_starting hi (h.waiting i _ hi hik) h.started hne (.inr (.inl ⟨k, h⟩))
      (fun _ hc => .inr (.inl ⟨k, h.reject hik hc⟩)) reply

theorem AtConsumer.resume {s : KafkaStart} {i k : Nat} (h : s.AtConsumer k)
    {call : BusCall × StartPhase} (hi : s.calls[i]? = some call) (reply : AwaitReply) :
    s.Turns (.resume i reply) (s.resume i reply) := by
  by_cases hik : i = k
  · subst hik
    obtain ⟨c, hc⟩ := h.mine
    rw [Turns, orderly_of_phase hc, resume_startingConsumer hc]
    by_cases hr : reply = .raised
    · rw [if_pos hr]
      refine .inr ⟨fun hne => hne hr,
        .inr (.inr ⟨h.consume, by simp [h.consumers],
          forall_goTo StartPhase.noConfusion fun j d hd hne heq => ?_⟩)⟩
      exact (h.waiting j d hd hne).not_starting (heq ▸ trivial)
    · rw [if_neg hr]
      exact .inl ⟨hr, h.consumerStarted hc⟩
  · have hne : s.producers ≠ [] := by simp [h.producers]
    exact resume_while_starting hi (h.waiting i _ hi hik) h.started hne (.inr (.inr (.inl ⟨k, h⟩)))
      (fun _ hc => .inr (.inr (.inl ⟨k, h.reject hik hc⟩))) reply

theorem Running.resume {s : KafkaStart} (h : s.Running) {i : Nat} {call : BusCall × StartPhase}
    (hi : s.calls[i]? = some call) (reply : AwaitReply) :
    s.Orderly (.resume i reply) ∧ (s.resume i reply).InOrder := by
  obtain ⟨c, phase⟩ := call
  have hnot : ¬ phase.Starting := h.settled _ (List.mem_of_getElem? hi)
  rw [orderly_of_phase hi]
  by_cases hcalled : phase = .called
  · subst hcalled
    refine ⟨fun _ hs => Bool.noConfusion (h.started.symm.trans hs), .inr (.inr (.inr ?_))⟩
    rw [resume_called hi reply]
    split
    · unfold KafkaStart.ask
      rw [if_pos h.started]
      obtain ⟨p, hp, heq⟩ := afterStart_eq s i c
      rw [heq]
      exact h.goTo i c hp
    · exact h.goTo i c id
  · constructor
    · match phase with
      | .called => exact absurd rfl hcalled
      | .startingProducer _ | .startingConsumer _ => exact absurd trivial hnot
      | .checking | .sending | .returned | .raised => trivial
    · refine .inr (.inr (.inr ?_))
      rcases resume_rest hi hcalled hnot reply with heq | ⟨p, hp, heq⟩
      · rw [heq]
        exact h
      · rw [heq]
        exact h.goTo i c hp

theorem InOrder.call {s : KafkaStart} (h : s.InOrder) (c : BusCall) :
    (s.step (.call c)).InOrder := by
  have hnew : ∀ {j : Nat} {d : BusCall × StartPhase},
      (s.calls ++ [(c, StartPhase.called)])[j]? = some d →
        s.calls[j]? = some d ∨ d = (c, .called) := by
    intro j d hd
    rw [List.getElem?_append] at hd
    split at hd
    · exact .inl hd
    · exact .inr (List.mem_singleton.1 (List.mem_of_getElem? hd))
  have hold : ∀ {i : Nat} {d : BusCall × StartPhase}, s.calls[i]? = some d →
      (s.calls ++ [(c, StartPhase.called)])[i]? = some d := fun hi =>
    (List.getElem?_append_left (List.getElem?_eq_some_iff.1 hi).1).trans hi
  rcases h with h | ⟨i, h⟩ | ⟨i, h⟩ | h
  · exact .inl ⟨h.started, h.producers, h.consumers, h.tasks, fun d hd => by
      rcases List.mem_append.1 hd with hd | hd
      · exact h.waiting d hd
      · exact .inl (congrArg Prod.snd (List.mem_singleton.1 hd))⟩
  · refine .inr (.inl ⟨i, h.started, h.producer, h.producers, h.consumers, h.tasks,
      h.mine.imp fun _ => hold, fun j d hd hj => ?_⟩)
    rcases hnew hd with hd | rfl
    · exact h.waiting j d hd hj
    · exact .inl rfl
  · refine .inr (.inr (.inl ⟨i, h.consume, h.started, h.producer, h.producers, h.consumers,
      h.tasks, h.mine.imp fun _ => hold, fun j d hd hj => ?_⟩))
    rcases hnew hd with hd | rfl
    · exact h.waiting j d hd hj
    · exact .inl rfl
  · refine .inr (.inr (.inr ⟨h.started, h.once, fun d hd => ?_⟩))
    rcases List.mem_append.1 hd with hd | hd
    · exact h.settled d hd
    · obtain rfl := List.mem_singleton.1 hd
      exact id

/-- **One step** of a start that is in order. -/
theorem InOrder.step {s : KafkaStart} (h : s.InOrder) (a : StartAction) : s.Turns a (s.step a) := by
  cases a with
  | call c => exact .inl ⟨trivial, h.call c⟩
  | resume i reply =>
    change s.Turns (.resume i reply) (s.resume i reply)
    cases hi : s.calls[i]? with
    | none =>
      have heq : s.resume i reply = s := by
        unfold KafkaStart.resume
        rw [hi]
      rw [heq]
      exact .inl ⟨fun _ _ hc => (nomatch hi.symm.trans hc), h⟩
    | some call =>
      rcases h with h | ⟨k, h⟩ | ⟨k, h⟩ | h
      · exact .inl (h.resume hi reply)
      · exact h.resume hi reply
      · exact h.resume hi reply
      · exact .inl (h.resume hi reply)

theorem InOrder.not_broken {s : KafkaStart} (h : s.InOrder) : ¬ s.Broken := by
  rcases h with h | ⟨i, h⟩ | ⟨i, h⟩ | h
  · rintro (hb | ⟨hb, -⟩ | ⟨-, hb, -⟩)
    · simp [h.producers] at hb
    · simp [h.producers] at hb
    · simp [h.consumers] at hb
  · obtain ⟨c, hc⟩ := h.mine
    rintro (hb | ⟨-, hb⟩ | ⟨-, hb, -⟩)
    · simp [h.producers] at hb
    · exact hb _ (List.mem_of_getElem? hc) rfl
    · simp [h.consumers] at hb
  · obtain ⟨c, hc⟩ := h.mine
    rintro (hb | ⟨hb, -⟩ | ⟨-, -, hb⟩)
    · simp [h.producers] at hb
    · simp [h.producers] at hb
    · exact hb _ (List.mem_of_getElem? hc) rfl
  · exact h.once.not_broken

/-! ### Runs -/

/-- A run is orderly exactly when it has not broken the start. -/
theorem not_broken_iff_guarded (consume : Bool) (as : List StartAction) :
    ¬ (Run.exec step (initial consume) as).Broken ↔
      Run.Guarded step Orderly (initial consume) as := by
  have hI : ∀ (s : KafkaStart) a, s.InOrder ∨ s.Broken → (s.step a).InOrder ∨ (s.step a).Broken := by
    rintro s a (h | h)
    · exact (h.step a).imp And.right And.right
    · exact .inr (h.step a)
  have hstep : ∀ (s : KafkaStart) a, s.InOrder ∨ s.Broken →
      (¬ (s.step a).Broken ↔ ¬ s.Broken ∧ s.Orderly a) := by
    rintro s a (h | h)
    · rcases h.step a with ⟨ho, hnext⟩ | ⟨ho, hnext⟩
      · exact ⟨fun _ => ⟨h.not_broken, ho⟩, fun _ => hnext.not_broken⟩
      · exact ⟨fun hn => absurd hnext hn, fun hn => absurd hn.2 ho⟩
    · exact ⟨fun hn => absurd (h.step a) hn, fun hn => absurd h hn.1⟩
  have hfresh : (initial consume).InOrder := .inl ⟨rfl, rfl, rfl, rfl, fun _ hc => nomatch hc⟩
  exact (Run.exec_iff_guarded (P := fun s => ¬ s.Broken) hI hstep (.inl hfresh)).trans
    (and_iff_right hfresh.not_broken)

/-- An orderly run is in order. -/
theorem inOrder_of_guarded {consume : Bool} {as : List StartAction}
    (h : Run.Guarded step Orderly (initial consume) as) :
    (Run.exec step (initial consume) as).InOrder := by
  refine h.invariant (I := InOrder) (fun s a hs ho => ?_)
    (.inl ⟨rfl, rfl, rfl, rfl, fun _ hc => nomatch hc⟩)
  rcases hs.step a with ⟨-, hnext⟩ | ⟨hno, -⟩
  · exact hnext
  · exact absurd ho hno

/-- The calls, without their phases. -/
def kinds (s : KafkaStart) : List BusCall := s.calls.map Prod.fst

theorem kinds_set {s : KafkaStart} {i : Nat} {c : BusCall} {phase : StartPhase}
    (hi : s.calls[i]? = some (c, phase)) (p : StartPhase) :
    (s.calls.set i (c, p)).map Prod.fst = s.kinds := by
  obtain ⟨hlt, hget⟩ := List.getElem?_eq_some_iff.1 hi
  rw [List.map_set]
  unfold kinds
  have hlen : i < (s.calls.map Prod.fst).length := by simpa using hlt
  have hsame : (s.calls.map Prod.fst)[i] = c := by simp [hget]
  rw [← hsame, List.set_getElem_self]

theorem kinds_afterStart {s : KafkaStart} {i : Nat} {c : BusCall} {phase : StartPhase}
    (hi : s.calls[i]? = some (c, phase)) : (s.afterStart i c).kinds = s.kinds := by
  obtain ⟨p, -, heq⟩ := afterStart_eq s i c
  rw [heq]
  exact kinds_set hi p

/-- A producer is created for a call that asks. -/
def Asked (s : KafkaStart) : Prop := s.producers ≠ [] → ∃ c ∈ s.kinds, c.asks = true

theorem kinds_ask {s : KafkaStart} {i : Nat} {c : BusCall} {phase : StartPhase}
    (hi : s.calls[i]? = some (c, phase)) : (s.ask i c).kinds = s.kinds := by
  unfold ask
  split
  · exact kinds_afterStart hi
  · exact kinds_set hi _

theorem producerStarted_frame {s : KafkaStart} {i : Nat} {c : BusCall} {phase : StartPhase}
    (mine : Nat) (hi : s.calls[i]? = some (c, phase)) :
    (s.producerStarted i c mine).kinds = s.kinds ∧
      (s.producerStarted i c mine).producers = s.producers.set mine true := by
  unfold producerStarted
  split
  · exact ⟨kinds_set hi _, rfl⟩
  · obtain ⟨p, -, heq⟩ := afterStart_eq
      { s with producers := s.producers.set mine true, started := true } i c
    rw [heq]
    exact ⟨kinds_set hi p, rfl⟩

theorem consumerStarted_frame {s : KafkaStart} {i : Nat} {c : BusCall} {phase : StartPhase}
    (mine : Nat) (hi : s.calls[i]? = some (c, phase)) :
    (s.consumerStarted i c mine).kinds = s.kinds ∧
      (s.consumerStarted i c mine).producers = s.producers := by
  unfold consumerStarted
  obtain ⟨p, -, heq⟩ := afterStart_eq
    { s with consumers := s.consumers.set mine true, tasks := s.tasks + 1, started := true } i c
  rw [heq]
  exact ⟨kinds_set hi p, rfl⟩

theorem kinds_resume (s : KafkaStart) (i : Nat) (reply : AwaitReply) :
    (s.resume i reply).kinds = s.kinds ∧ (s.Asked → (s.resume i reply).Asked) := by
  rcases resume_cases s i reply with heq | ⟨c, phase, hi, hmove⟩
  · rw [heq]
    exact ⟨rfl, id⟩
  have hmem : c ∈ s.kinds := List.mem_map_of_mem (List.mem_of_getElem? hi)
  rcases hmove with ⟨p, -, heq⟩ | ⟨hasks, heq⟩ | ⟨mine, rfl, heq⟩ | ⟨mine, rfl, heq⟩
  · have hkinds : (s.goTo i c p).kinds = s.kinds := kinds_set hi p
    rw [heq]
    exact ⟨hkinds, fun h hp => hkinds ▸ h hp⟩
  · -- only here is a producer created, and the call asks
    have hkinds := kinds_ask hi
    rw [heq]
    exact ⟨hkinds, fun _ _ => ⟨c, hkinds ▸ hmem, hasks⟩⟩
  · obtain ⟨hkinds, hproducers⟩ := producerStarted_frame mine hi
    rw [heq]
    refine ⟨hkinds, fun h hp => ?_⟩
    rw [hkinds]
    refine h fun hnil => hp ?_
    rw [hproducers, hnil]
    rfl
  · obtain ⟨hkinds, hproducers⟩ := consumerStarted_frame mine hi
    rw [heq]
    refine ⟨hkinds, fun h hp => ?_⟩
    rw [hkinds]
    exact h (hproducers ▸ hp)

/-- The call that an action makes. -/
def StartAction.made : StartAction → Option BusCall
  | .call c => some c
  | .resume _ _ => none

/-- The calls of a run are those it made, and a producer is created for one that asks. -/
theorem run_kinds (s : KafkaStart) (as : List StartAction) :
    (Run.exec step s as).kinds = s.kinds ++ as.filterMap StartAction.made ∧
      (s.Asked → (Run.exec step s as).Asked) := by
  induction as generalizing s with
  | nil => exact ⟨(List.append_nil _).symm, id⟩
  | cons a as ih =>
    rw [Run.exec_cons]
    obtain ⟨hkinds, hasked⟩ := ih (s.step a)
    cases a with
    | call c =>
      have hstep : (s.step (.call c)).kinds = s.kinds ++ [c] := List.map_append
      refine ⟨?_, fun h => hasked fun hp => ?_⟩
      · rw [hkinds, hstep, List.append_assoc]
        rfl
      · obtain ⟨d, hd, hasks⟩ := h hp
        exact ⟨d, hstep ▸ List.mem_append_left _ hd, hasks⟩
    | resume i reply =>
      obtain ⟨hstep, hstepAsked⟩ := kinds_resume s i reply
      refine ⟨?_, fun h => hasked (hstepAsked h)⟩
      rw [hkinds]
      change (s.resume i reply).kinds ++ _ = _
      rw [hstep]
      rfl

/-- **Starting once.**  When every call of a run has finished, the bus was started once
exactly when some call asked for it and the run was orderly. -/
theorem startedOnce_iff_guarded (consume : Bool) (as : List StartAction)
    (hquiet : (Run.exec step (initial consume) as).Quiet) :
    (Run.exec step (initial consume) as).StartedOnce ↔
      (∃ c, .call c ∈ as ∧ c.asks = true) ∧ Run.Guarded step Orderly (initial consume) as := by
  obtain ⟨hkinds, hasked⟩ := run_kinds (initial consume) as
  constructor
  · intro h
    refine ⟨?_, (not_broken_iff_guarded consume as).1 h.not_broken⟩
    obtain ⟨c, hc, hasks⟩ := hasked (fun h => absurd rfl h) (by rw [h.1]; exact List.cons_ne_nil _ _)
    rw [hkinds] at hc
    obtain ⟨a, ha, hmade⟩ := List.mem_filterMap.1 hc
    cases a with
    | call d =>
      obtain rfl : d = c := Option.some.inj hmade
      exact ⟨d, ha, hasks⟩
    | resume i reply => exact nomatch hmade
  · rintro ⟨⟨c, hc, hasks⟩, hguarded⟩
    have hmem : c ∈ (Run.exec step (initial consume) as).kinds := by
      rw [hkinds]
      exact List.mem_filterMap.2 ⟨_, hc, rfl⟩
    obtain ⟨⟨c', phase⟩, hd, rfl⟩ := List.mem_map.1 hmem
    rcases inOrder_of_guarded hguarded with h | ⟨i, h⟩ | ⟨i, h⟩ | h
    · -- nobody has asked, although `c` is finished
      exfalso
      rcases h.waiting _ hd with hphase | ⟨-, hnot⟩
      · exact (show (StartPhase.called).Finished from hphase ▸ hquiet _ hd)
      · exact Bool.noConfusion (hasks.symm.trans hnot)
    · obtain ⟨c, hc⟩ := h.mine
      exact (hquiet _ (List.mem_of_getElem? hc)).elim
    · obtain ⟨c, hc⟩ := h.mine
      exact (hquiet _ (List.mem_of_getElem? hc)).elim
    · exact h.once

/-- `start()` and, later, another `start()`. -/
def oneAfterAnother : List StartAction :=
  [.call .start, .resume 0 .ok, .resume 0 .ok, .resume 0 .ok, .call .start, .resume 1 .ok]

theorem startedOnce_oneAfterAnother :
    (Run.exec step (initial true) oneAfterAnother).StartedOnce ∧
      Run.Guarded step Orderly (initial true) oneAfterAnother :=
  have h := startedOnce_iff_guarded true oneAfterAnother (by decide)
  have honce : (Run.exec step (initial true) oneAfterAnother).StartedOnce := by decide
  ⟨honce, (h.1 honce).2⟩

/-- Two callers of `start()` who both ask before either has finished. -/
def sideBySide : List StartAction :=
  [.call .start, .call .start, .resume 0 .ok, .resume 1 .ok, .resume 0 .ok, .resume 1 .ok,
    .resume 0 .ok, .resume 1 .ok]

/-- They leave two producers, two consumers and two consumer tasks. -/
theorem not_startedOnce :
    (Run.exec step (initial true) sideBySide).Quiet ∧
      ((Run.exec step (initial true) sideBySide).producers = [true, true] ∧
        (Run.exec step (initial true) sideBySide).consumers = [true, true] ∧
        (Run.exec step (initial true) sideBySide).tasks = 2) ∧
      ¬ (Run.exec step (initial true) sideBySide).StartedOnce := by
  decide

end KafkaStart
end ComputeIntelligence
