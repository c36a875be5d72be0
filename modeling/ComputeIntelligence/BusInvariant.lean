import ComputeIntelligence.BoundedWindow
import ComputeIntelligence.KafkaPublish

/-! # The in-memory bus under concurrent publishers

Any number of callers run `InMemoryEventBus.publish` at once.  A call is validated, then
waits for the lock; once it has it, it runs to the end of the critical section without
letting anyone else in.  So a step is a new call or one critical section, and an
interleaving is a list of steps.  The handlers run outside the lock and may publish:
that is one more call.

The bus keeps two bounded queues of different capacity, a set and four counters.  All of
them are functions of one thing, the list of the events accepted so far
(`Consistent`): the log is its end, the remembered keys are those of a longer end of it.
Hence a log never holds two events of one key.
-/
namespace ComputeIntelligence

namespace InMemoryEventBus

/-- `InMemoryEventBus(max_events)`. -/
def init (maxEvents : Nat) : InMemoryEventBus := { maxEvents }

/-- The critical section of `publish`. -/
def underLock (bus : InMemoryEventBus) (event : DomainEvent) : Bool × InMemoryEventBus :=
  if event.dedupKey ∈ bus.seenKeys then
    (false, { bus with deduplicatedCount := bus.deduplicatedCount + 1 })
  else (true, (bus.remember event.dedupKey).append event)

/-- A publish is its validation and its critical section. -/
theorem publish_eq (bus : InMemoryEventBus) (event : DomainEvent) :
    bus.publish event = match validateDomainEvent event with
      | .error err => (.error err, bus)
      | .ok () => (.ok (bus.underLock event).1, (bus.underLock event).2) := by
  unfold publish underLock
  cases validateDomainEvent event with
  | error err => rfl
  | ok _ =>
    dsimp only
    split <;> rfl

/-! ### Replay -/

/-- `a < b` for an aware datetime and any other: comparing it with a naive one raises. -/
def before (a : AwareDateTime) (b : PyDateTime) : Except PyExn Bool :=
  match b.utcoffset with
  | some offset => .ok (decide (a.instant < b.wall - offset))
  | none => .error .typeError

/-- `a > b`. -/
def after (a : AwareDateTime) (b : PyDateTime) : Except PyExn Bool :=
  match b.utcoffset with
  | some offset => .ok (decide (b.wall - offset < a.instant))
  | none => .error .typeError

/-- The arguments of `replay`. -/
structure ReplayFilter where
  fromTime : Option PyDateTime := none
  toTime : Option PyDateTime := none
  eventTypes : Option (List String) := none

/-- Whether the loop of `replay` keeps an event. -/
def ReplayFilter.keeps (f : ReplayFilter) (event : DomainEvent) : Except PyExn Bool := do
  let early ← match f.fromTime with
    | some t => before event.eventTime t
    | none => .ok false
  if early then .ok false
  else
    let late ← match f.toTime with
      | some t => after event.eventTime t
      | none => .ok false
    if late then .ok false
    else
      let types := f.eventTypes.getD []
      .ok (types = [] || types.contains event.eventType.value)

/-- The loop of `replay`. -/
def replayLoop (f : ReplayFilter) : List DomainEvent → Except PyExn (List DomainEvent)
  | [] => .ok []
  | event :: rest => do
      let kept ← f.keeps event
      let results ← replayLoop f rest
      .ok (if kept then event :: results else results)

/-- `replay`. -/
def replay (bus : InMemoryEventBus) (f : ReplayFilter) : Except PyExn (List DomainEvent) :=
  replayLoop f bus.log

/-- The times of the filter know their UTC offset. -/
def ReplayFilter.Aware (f : ReplayFilter) : Prop :=
  (∀ t ∈ f.fromTime, t.utcoffset.isSome) ∧ ∀ t ∈ f.toTime, t.utcoffset.isSome

/-! ### One critical section -/

/-- What a bus holds, in terms of the events it has accepted. -/
structure Consistent (bus : InMemoryEventBus) (accepted : List DomainEvent) : Prop where
  order : bus.idempotencyOrder = (accepted.map DomainEvent.dedupKey).rtake bus.maxIdempotencyKeys
  nodup : bus.idempotencyOrder.Nodup
  seen : ∀ k, k ∈ bus.seenKeys ↔ k ∈ bus.idempotencyOrder
  log : bus.log = accepted.rtake bus.maxEvents
  published : bus.publishedCount = accepted.length
  evictions : bus.publishedCount = bus.idempotencyEvictions + bus.idempotencyOrder.length
  topics : (bus.topicCounts.items.map Prod.snd).sum = bus.publishedCount

theorem init_consistent (maxEvents : Nat) : Consistent (init maxEvents) [] where
  order := (List.rtake_nil _).symm
  nodup := List.nodup_nil
  seen _ := Iff.rfl
  log := (List.rtake_nil _).symm
  published := rfl
  evictions := rfl
  topics := rfl

variable {bus : InMemoryEventBus} {accepted : List DomainEvent} {event : DomainEvent}

/-- `remember` on a bus: the key goes to the end, and an overflow drops the oldest. -/
theorem remember_cases (bus : InMemoryEventBus) (k : String) :
    ∃ oldest rest, bus.idempotencyOrder ++ [k] = oldest :: rest ∧
      ((bus.maxIdempotencyKeys < (oldest :: rest).length ∧ bus.remember k = { bus with
          seenKeys := discardKey (addKey bus.seenKeys k) oldest
          idempotencyOrder := rest
          idempotencyEvictions := bus.idempotencyEvictions + 1 }) ∨
       ((oldest :: rest).length ≤ bus.maxIdempotencyKeys ∧ bus.remember k = { bus with
          seenKeys := addKey bus.seenKeys k
          idempotencyOrder := oldest :: rest })) := by
  cases h : bus.idempotencyOrder ++ [k] with
  | nil => simp at h
  | cons oldest rest =>
    refine ⟨oldest, rest, rfl, ?_⟩
    unfold remember
    simp only [h]
    split
    · exact .inl ⟨by assumption, rfl⟩
    · exact .inr ⟨by omega, rfl⟩

theorem mem_addKey {keys : List String} {k k' : String} :
    k' ∈ addKey keys k ↔ k' = k ∨ k' ∈ keys := by
  unfold addKey
  split
  · rename_i hk
    refine ⟨.inr, ?_⟩
    rintro (rfl | h)
    · exact hk
    · exact h
  · exact List.mem_cons

theorem mem_discardKey {keys : List String} {k k' : String} :
    k' ∈ discardKey keys k ↔ k' ∈ keys ∧ k' ≠ k := by
  simp [discardKey]

theorem Consistent.order_length (h : Consistent bus accepted) :
    bus.idempotencyOrder.length ≤ bus.maxIdempotencyKeys := by
  rw [h.order, Window.length_rtake]
  omega

/-- The remembered keys after a new one, with those of the history behind them. -/
theorem Consistent.remember (h : Consistent bus accepted) (hnew : event.dedupKey ∉ bus.seenKeys) :
    (bus.remember event.dedupKey).idempotencyOrder =
        ((accepted ++ [event]).map DomainEvent.dedupKey).rtake bus.maxIdempotencyKeys ∧
      (bus.remember event.dedupKey).idempotencyOrder.Nodup ∧
      (∀ k, k ∈ (bus.remember event.dedupKey).seenKeys ↔
        k ∈ (bus.remember event.dedupKey).idempotencyOrder) ∧
      (bus.remember event.dedupKey).idempotencyEvictions +
        (bus.remember event.dedupKey).idempotencyOrder.length =
          bus.idempotencyEvictions + bus.idempotencyOrder.length + 1 := by
  have hlen := h.order_length
  have hwindow : ((accepted ++ [event]).map DomainEvent.dedupKey).rtake bus.maxIdempotencyKeys =
      if bus.maxIdempotencyKeys < (bus.idempotencyOrder ++ [event.dedupKey]).length then
        (bus.idempotencyOrder ++ [event.dedupKey]).tail
      else bus.idempotencyOrder ++ [event.dedupKey] := by
    rw [← Window.rtake_concat_eq hlen, h.order, Window.rtake_concat_rtake, List.map_append]
    rfl
  have hnodup : (bus.idempotencyOrder ++ [event.dedupKey]).Nodup := by
    rw [List.nodup_append]
    refine ⟨h.nodup, List.nodup_singleton _, ?_⟩
    intro k hk k' hk' heq
    rw [List.mem_singleton.mp hk'] at heq
    exact hnew ((h.seen _).mpr (heq ▸ hk))
  have hmem : ∀ k, k ∈ addKey bus.seenKeys event.dedupKey ↔
      k ∈ bus.idempotencyOrder ++ [event.dedupKey] := by
    intro k
    rw [mem_addKey, h.seen, List.mem_append, List.mem_singleton, or_comm]
  have hcount : (bus.idempotencyOrder ++ [event.dedupKey]).length =
      bus.idempotencyOrder.length + 1 := by simp
  obtain ⟨oldest, rest, horder, ⟨hfull, heq⟩ | ⟨hroom, heq⟩⟩ := remember_cases bus event.dedupKey
  · rw [heq]
    rw [horder] at hwindow hnodup hmem hcount
    obtain ⟨hold, hrest⟩ := List.nodup_cons.mp hnodup
    refine ⟨?_, hrest, fun k => ?_, ?_⟩
    · rw [hwindow, if_pos hfull]
      rfl
    · rw [mem_discardKey, hmem, List.mem_cons]
      constructor
      · rintro ⟨rfl | hk, hne⟩
        · exact absurd rfl hne
        · exact hk
      · intro hk
        refine ⟨.inr hk, ?_⟩
        rintro rfl
        exact hold hk
    · rw [List.length_cons] at hcount
      change bus.idempotencyEvictions + 1 + rest.length = _
      omega
  · rw [heq]
    rw [horder] at hwindow hnodup hmem hcount
    refine ⟨?_, hnodup, hmem, ?_⟩
    · rw [hwindow, if_neg (by omega)]
    · change bus.idempotencyEvictions + (oldest :: rest).length = _
      omega

/-- What `remember` leaves alone. -/
theorem remember_frame (bus : InMemoryEventBus) (k : String) :
    (bus.remember k).maxEvents = bus.maxEvents ∧ (bus.remember k).log = bus.log ∧
      (bus.remember k).publishedCount = bus.publishedCount ∧
      (bus.remember k).topicCounts = bus.topicCounts := by
  obtain ⟨_, _, -, ⟨-, heq⟩ | ⟨-, heq⟩⟩ := remember_cases bus k <;> rw [heq] <;> exact ⟨rfl, rfl, rfl, rfl⟩

/-- A new key is remembered, and its event appended. -/
theorem Consistent.accept (h : Consistent bus accepted) (hnew : event.dedupKey ∉ bus.seenKeys) :
    Consistent ((bus.remember event.dedupKey).append event) (accepted ++ [event]) := by
  obtain ⟨horder, hnodup, hseen, hevictions⟩ := h.remember hnew
  obtain ⟨hmax, hlog, hpublished, htopics⟩ := remember_frame bus event.dedupKey
  have hpub := h.published
  have hev := h.evictions
  refine ⟨?_, hnodup, hseen, ?_, ?_, ?_, ?_⟩
  · change _ = List.rtake _ ((bus.remember event.dedupKey).maxEvents * 2)
    rw [hmax]
    exact horder
  · change ((bus.remember event.dedupKey).log ++ [event]).rtake _ = List.rtake _ _
    rw [hlog, h.log]
    change (accepted.rtake bus.maxEvents ++ [event]).rtake (bus.remember event.dedupKey).maxEvents =
      (accepted ++ [event]).rtake (bus.remember event.dedupKey).maxEvents
    rw [hmax, Window.rtake_concat_rtake]
  · change (bus.remember event.dedupKey).publishedCount + 1 = _
    rw [hpublished, List.length_append, List.length_singleton, hpub]
  · change (bus.remember event.dedupKey).publishedCount + 1 =
      (bus.remember event.dedupKey).idempotencyEvictions +
        (bus.remember event.dedupKey).idempotencyOrder.length
    omega
  · change ((PyDict.put event.eventType.value
      ((PyDict.find event.eventType.value (bus.remember event.dedupKey).topicCounts.items).getD 0 + 1)
      (bus.remember event.dedupKey).topicCounts.items).map Prod.snd).sum =
        (bus.remember event.dedupKey).publishedCount + 1
    rw [PyDict.sum_put_succ, htopics, h.topics, hpublished]

/-- A critical section keeps the bus consistent with what it has accepted. -/
theorem Consistent.underLock (h : Consistent bus accepted) (event : DomainEvent) :
    Consistent (bus.underLock event).2
      (if (bus.underLock event).1 then accepted ++ [event] else accepted) := by
  unfold InMemoryEventBus.underLock
  by_cases hk : event.dedupKey ∈ bus.seenKeys
  · rw [if_pos hk]
    exact ⟨h.order, h.nodup, h.seen, h.log, h.published, h.evictions, h.topics⟩
  · rw [if_neg hk]
    exact h.accept hk

/-- Who is accepted. -/
theorem underLock_fst : (bus.underLock event).1 = true ↔ event.dedupKey ∉ bus.seenKeys := by
  unfold underLock
  split <;> simp_all

/-- The size of the bus stays. -/
theorem underLock_maxEvents (bus : InMemoryEventBus) (event : DomainEvent) :
    (bus.underLock event).2.maxEvents = bus.maxEvents := by
  unfold underLock
  split
  · rfl
  · exact (remember_frame bus event.dedupKey).1

theorem keeps_of_aware {f : ReplayFilter} (h : f.Aware) (event : DomainEvent) :
    ∃ kept, f.keeps event = .ok kept := by
  have hbefore : ∀ t ∈ f.fromTime, ∃ b, before event.eventTime t = .ok b := by
    intro t ht
    obtain ⟨offset, ho⟩ := Option.isSome_iff_exists.mp (h.1 t ht)
    exact ⟨_, by rw [before, ho]⟩
  have hafter : ∀ t ∈ f.toTime, ∃ b, after event.eventTime t = .ok b := by
    intro t ht
    obtain ⟨offset, ho⟩ := Option.isSome_iff_exists.mp (h.2 t ht)
    exact ⟨_, by rw [after, ho]⟩
  obtain ⟨fromTime, toTime, eventTypes⟩ := f
  cases fromTime with
  | none =>
    cases toTime with
    | none => exact ⟨_, rfl⟩
    | some t =>
      obtain ⟨late, hl⟩ := hafter t rfl
      cases late <;> simp [ReplayFilter.keeps, hl, bind, Except.bind]
  | some t =>
    obtain ⟨early, he⟩ := hbefore t rfl
    cases early with
    | true => simp [ReplayFilter.keeps, he, bind, Except.bind]
    | false =>
      cases toTime with
      | none => simp [ReplayFilter.keeps, he, bind, Except.bind]
      | some t' =>
        obtain ⟨late, hl⟩ := hafter t' rfl
        cases late <;> simp [ReplayFilter.keeps, he, hl, bind, Except.bind]

/-- Replaying returns some of the events, in their order. -/
theorem replayLoop_sublist {f : ReplayFilter} {events results : List DomainEvent}
    (h : replayLoop f events = .ok results) : results.Sublist events := by
  induction events generalizing results with
  | nil =>
    cases h
    exact List.Sublist.slnil
  | cons event rest ih =>
    unfold replayLoop at h
    cases hk : f.keeps event with
    | error x =>
      rw [hk] at h
      cases h
    | ok kept =>
      cases hr : replayLoop f rest with
      | error x =>
        rw [hk, hr] at h
        cases h
      | ok tail =>
        rw [hk, hr] at h
        cases h
        cases kept with
        | true => exact (ih hr).cons_cons event
        | false => exact (ih hr).cons event

theorem replayLoop_of_aware {f : ReplayFilter} (h : f.Aware) (events : List DomainEvent) :
    ∃ results, replayLoop f events = .ok results := by
  induction events with
  | nil => exact ⟨[], rfl⟩
  | cons event rest ih =>
    obtain ⟨kept, hk⟩ := keeps_of_aware h event
    obtain ⟨tail, hr⟩ := ih
    exact ⟨_, by rw [replayLoop, hk, hr]; rfl⟩

/-- The log never holds two events of one key. -/
theorem Consistent.log_nodup (h : Consistent bus accepted) :
    (bus.log.map DomainEvent.dedupKey).Nodup := by
  have hsuffix : bus.log.map DomainEvent.dedupKey <:+ bus.idempotencyOrder := by
    rw [h.log, Window.map_rtake, h.order]
    refine Window.rtake_suffix_rtake _ ?_
    unfold maxIdempotencyKeys
    omega
  exact h.nodup.sublist hsuffix.sublist

/-- **The invariant of the bus**, as the code's fields have it. -/
structure Invariant (bus : InMemoryEventBus) (accepted : List DomainEvent) : Prop where
  order_nodup : bus.idempotencyOrder.Nodup
  order_members : ∀ k, k ∈ bus.idempotencyOrder ↔ k ∈ bus.seenKeys
  order_bounded : bus.idempotencyOrder.length ≤ 2 * bus.maxEvents
  published_topics : bus.publishedCount = (bus.topicCounts.items.map Prod.snd).sum
  published_evictions : bus.publishedCount =
    bus.idempotencyEvictions + bus.idempotencyOrder.length
  published_accepted : bus.publishedCount = accepted.length
  log_last : bus.log = accepted.rtake (min bus.publishedCount bus.maxEvents)
  replay_returns : ∀ f : ReplayFilter, f.Aware → ∃ results, bus.replay f = .ok results
  replay_sublist : ∀ f results, bus.replay f = .ok results → results.Sublist accepted
  replay_distinct : ∀ f results, bus.replay f = .ok results →
    (results.map DomainEvent.dedupKey).Nodup

theorem Consistent.invariant (h : Consistent bus accepted) : Invariant bus accepted where
  order_nodup := h.nodup
  order_members k := (h.seen k).symm
  order_bounded := by
    have hlen := h.order_length
    unfold maxIdempotencyKeys at hlen
    omega
  published_topics := h.topics.symm
  published_evictions := h.evictions
  published_accepted := h.published
  log_last := by
    rw [h.log, h.published]
    rcases Nat.le_total accepted.length bus.maxEvents with hle | hle
    · rw [Nat.min_eq_left hle, Window.rtake_of_length_le hle, Window.rtake_of_length_le le_rfl]
    · rw [Nat.min_eq_right hle]
  replay_returns f hf := replayLoop_of_aware hf bus.log
  replay_sublist f results hr := by
    have hlog : bus.log.Sublist accepted := by
      rw [h.log]
      exact (Window.rtake_suffix accepted bus.maxEvents).sublist
    exact (replayLoop_sublist hr).trans hlog
  replay_distinct f results hr := h.log_nodup.sublist ((replayLoop_sublist hr).map _)

end InMemoryEventBus

/-! ### Interleavings -/

/-- A bus with its calls and, in the order of acceptance, the events it accepted. -/
structure LockedBus where
  bus : InMemoryEventBus
  calls : List PublishCall := []
  accepted : List DomainEvent := []

/-- A step: a caller calls `publish`, or a waiting call gets the lock. -/
inductive LockStep where
  | call (event : DomainEvent)
  | enter (i : Nat)

namespace LockedBus
open InMemoryEventBus

/-- `publish`, up to the lock. -/
def call (s : LockedBus) (event : DomainEvent) : LockedBus :=
  let status := match validateDomainEvent event with
    | .ok _ => CallStatus.pending
    | .error _ => CallStatus.rejected
  { s with calls := s.calls ++ [⟨event, status⟩] }

/-- A waiting call gets the lock and runs its critical section. -/
def enter (s : LockedBus) (i : Nat) : LockedBus :=
  match s.calls[i]? with
  | some c =>
      if c.status = .pending then
        if (s.bus.underLock c.event).1 then
          { bus := (s.bus.underLock c.event).2
            calls := s.calls.set i (c.withStatus .accepted)
            accepted := s.accepted ++ [c.event] }
        else
          { s with
            bus := (s.bus.underLock c.event).2
            calls := s.calls.set i (c.withStatus .deduplicated) }
      else s
  | none => s

def step (s : LockedBus) : LockStep → LockedBus
  | .call event => s.call event
  | .enter i => s.enter i

/-- The bus before its first call. -/
def init (maxEvents : Nat) : LockedBus := { bus := InMemoryEventBus.init maxEvents }

variable {s : LockedBus} {i : Nat} {c : PublishCall}

theorem enter_pending (hi : s.calls[i]? = some c) (hp : c.status = .pending) :
    s.enter i = if (s.bus.underLock c.event).1 then
        { bus := (s.bus.underLock c.event).2
          calls := s.calls.set i (c.withStatus .accepted)
          accepted := s.accepted ++ [c.event] }
      else
        { s with
          bus := (s.bus.underLock c.event).2
          calls := s.calls.set i (c.withStatus .deduplicated) } := by
  unfold enter
  rw [hi]
  exact if_pos hp

/-- A step is a new call, a critical section, or nothing. -/
theorem consistent_step (h : s.bus.Consistent s.accepted) (a : LockStep) :
    (s.step a).bus.Consistent (s.step a).accepted := by
  cases a with
  | call event => exact h
  | enter i =>
    change (s.enter i).bus.Consistent (s.enter i).accepted
    cases hi : s.calls[i]? with
    | none =>
      rw [show s.enter i = s by unfold enter; rw [hi]]
      exact h
    | some c =>
      by_cases hp : c.status = .pending
      · have hlock := h.underLock c.event
        rw [enter_pending hi hp]
        split
        · rename_i hacc
          rwa [if_pos hacc] at hlock
        · rename_i hdup
          rwa [if_neg hdup] at hlock
      · rw [show s.enter i = s by unfold enter; rw [hi]; exact if_neg hp]
        exact h

theorem exec_consistent (maxEvents : Nat) (steps : List LockStep) :
    (Run.exec step (init maxEvents) steps).bus.Consistent
      (Run.exec step (init maxEvents) steps).accepted :=
  Run.exec_invariant (I := fun s : LockedBus => s.bus.Consistent s.accepted)
    (fun _ a h => consistent_step h a) (init_consistent maxEvents) steps

/-! ### Two calls of one key -/

/-- A call that gets the lock is accepted iff its key is not remembered. -/
theorem enter_calls (hi : s.calls[i]? = some c) (hp : c.status = .pending) :
    (s.enter i).calls = s.calls.set i
      (c.withStatus (if c.dedupKey ∈ s.bus.seenKeys then .deduplicated else .accepted)) := by
  rw [enter_pending hi hp]
  by_cases hk : c.dedupKey ∈ s.bus.seenKeys
  · rw [if_neg (fun h => underLock_fst.mp h hk), if_pos hk]
  · rw [if_pos (underLock_fst.mpr hk), if_neg hk]

/-- A call that has its result keeps it. -/
theorem settled_step (hi : s.calls[i]? = some c) (hp : c.status ≠ .pending) (a : LockStep) :
    (s.step a).calls[i]? = some c := by
  cases a with
  | call event =>
    change (s.calls ++ _)[i]? = some c
    rw [List.getElem?_append_left (List.getElem?_eq_some_iff.mp hi).1]
    exact hi
  | enter j =>
    change (s.enter j).calls[i]? = some c
    cases hj : s.calls[j]? with
    | none =>
      rw [show s.enter j = s by unfold enter; rw [hj]]
      exact hi
    | some d =>
      by_cases hd : d.status = .pending
      · have hne : j ≠ i := by
          rintro rfl
          rw [hi, Option.some.injEq] at hj
          exact hp (hj ▸ hd)
        rw [enter_calls hj hd, List.getElem?_set_ne hne]
        exact hi
      · rw [show s.enter j = s by unfold enter; rw [hj]; exact if_neg hd]
        exact hi

theorem settled_exec (hi : s.calls[i]? = some c) (hp : c.status ≠ .pending)
    (steps : List LockStep) : (Run.exec step s steps).calls[i]? = some c :=
  Run.exec_invariant (I := fun s : LockedBus => s.calls[i]? = some c)
    (fun _ a h => settled_step h hp a) hi steps

/-- Two calls of one key wait for the lock; `i` gets it, and `j` gets it later, while the
bus remembers the key. -/
structure Contest (s : LockedBus) (between : List LockStep) (i j : Nat) (c d : PublishCall) :
    Prop where
  distinct : i ≠ j
  sameKey : c.dedupKey = d.dedupKey
  first : s.calls[i]? = some c
  first_waits : c.status = .pending
  second : s.calls[j]? = some d
  second_waits : d.status = .pending
  second_still_waits : (Run.exec step (s.enter i) between).calls[j]? = some d
  retained : d.dedupKey ∈ (Run.exec step (s.enter i) between).bus.seenKeys

/-- The second call of a contest is told it is a duplicate; the first one is accepted
unless the key was already there. -/
theorem Contest.one_wins {between : List LockStep} {j : Nat} {d : PublishCall}
    (h : Contest s between i j c d) :
    (Run.exec step s (.enter i :: between ++ [.enter j])).calls[i]? =
        some (c.withStatus (if c.dedupKey ∈ s.bus.seenKeys then .deduplicated else .accepted)) ∧
      (Run.exec step s (.enter i :: between ++ [.enter j])).calls[j]? =
        some (d.withStatus .deduplicated) := by
  have hi : i < s.calls.length := (List.getElem?_eq_some_iff.mp h.first).1
  have hwon : (s.enter i).calls[i]? = some (c.withStatus
      (if c.dedupKey ∈ s.bus.seenKeys then .deduplicated else .accepted)) := by
    rw [enter_calls h.first h.first_waits, List.getElem?_set_self hi]
  have hsettled : (c.withStatus
      (if c.dedupKey ∈ s.bus.seenKeys then .deduplicated else .accepted)).status ≠ .pending := by
    rw [PublishCall.withStatus_status]
    split <;> decide
  rw [Run.exec_concat, Run.exec_cons]
  have hlater := settled_exec hwon hsettled between
  refine ⟨settled_step hlater hsettled (.enter j), ?_⟩
  change ((Run.exec step (s.enter i) between).enter j).calls[j]? = _
  rw [enter_calls h.second_still_waits h.second_waits, if_pos h.retained]
  exact List.getElem?_set_self (List.getElem?_eq_some_iff.mp h.second_still_waits).1

/-- Two publishes of one event, both waiting. -/
example : Contest
    (Run.exec step (init 1)
      [.call (KafkaEventBus.calibrationEvent "acme" "system" "k"),
        .call (KafkaEventBus.calibrationEvent "acme" "system" "k")]) [] 0 1
    ⟨KafkaEventBus.calibrationEvent "acme" "system" "k", .pending⟩
    ⟨KafkaEventBus.calibrationEvent "acme" "system" "k", .pending⟩ :=
  ⟨by decide, rfl, rfl, rfl, rfl, rfl, rfl, by decide +kernel⟩

/-- **Under every interleaving of publishers** the bus keeps its invariant, and of two
calls of one key that wait together one is accepted while the key is remembered. -/
theorem publish_interleaved (maxEvents : Nat) (steps : List LockStep) :
    (Run.exec step (init maxEvents) steps).bus.Invariant
        (Run.exec step (init maxEvents) steps).accepted ∧
      ∀ between i j c d, Contest (Run.exec step (init maxEvents) steps) between i j c d →
        c.dedupKey ∉ (Run.exec step (init maxEvents) steps).bus.seenKeys →
        (Run.exec step (init maxEvents) (steps ++ .enter i :: between ++ [.enter j])).calls[i]? =
            some (c.withStatus .accepted) ∧
          (Run.exec step (init maxEvents) (steps ++ .enter i :: between ++ [.enter j])).calls[j]? =
            some (d.withStatus .deduplicated) := by
  refine ⟨(exec_consistent maxEvents steps).invariant, fun between i j c d h hnew => ?_⟩
  have hwins := h.one_wins
  rw [if_neg hnew] at hwins
  rwa [List.append_assoc, Run.exec_append]

end LockedBus
end ComputeIntelligence
