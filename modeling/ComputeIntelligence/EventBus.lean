import ComputeIntelligence.EventSchema

/-! # The event bus

`core/event_bus.py`.  Both buses drop a repeated event by its dedup key, the texts of
tenant, source and idempotency key joined with colons.

`InMemoryEventBus.publish` decides under a lock: it either finds the key or records
it, forgets the oldest key once there are more than twice `max_events`, and appends
the event to the bounded log.  The handlers run after the lock is released, and what
they raise is caught, so they have no part in the result.

`KafkaEventBus.publish` asks an idempotency store first and then sends to the broker,
two separate steps.  The store is any atomic test-and-set (`IdempotencyStore`);
`RedisIdempotencyStore` is one as long as its keys do not expire, and
`InMemoryIdempotencyStore` while it has room.
-/
namespace ComputeIntelligence

/-- The key by which a bus drops repeated events. -/
def DomainEvent.dedupKey (e : DomainEvent) : String :=
  e.tenantId ++ ":" ++ e.source ++ ":" ++ e.idempotencyKey

/-! ### The in-memory bus -/

/-- `s.add(k)` for a set kept as a list. -/
def addKey (keys : List String) (k : String) : List String := if k ∈ keys then keys else k :: keys

/-- `s.discard(k)`. -/
def discardKey (keys : List String) (k : String) : List String := keys.filter (· ≠ k)

/-- `InMemoryEventBus`. -/
structure InMemoryEventBus where
  maxEvents : Nat := 1000000
  log : List DomainEvent := []
  seenKeys : List String := []
  idempotencyOrder : List String := []
  publishedCount : Nat := 0
  deduplicatedCount : Nat := 0
  idempotencyEvictions : Nat := 0
  topicCounts : PyDict String Nat := PyDict.empty

namespace InMemoryEventBus

/-- `_max_idempotency_keys`. -/
def maxIdempotencyKeys (bus : InMemoryEventBus) : Nat := bus.maxEvents * 2

/-- Record a new key, and forget the oldest one if there are too many. -/
def remember (bus : InMemoryEventBus) (dedupKey : String) : InMemoryEventBus :=
  let seenKeys := addKey bus.seenKeys dedupKey
  match bus.idempotencyOrder ++ [dedupKey] with
  | evictedKey :: rest =>
      if (evictedKey :: rest).length > bus.maxIdempotencyKeys then
        { bus with
          seenKeys := discardKey seenKeys evictedKey
          idempotencyOrder := rest
          idempotencyEvictions := bus.idempotencyEvictions + 1 }
      else { bus with seenKeys, idempotencyOrder := evictedKey :: rest }
  | [] => bus

/-- Append to the log, a `deque(maxlen=max_events)`, and count. -/
def append (bus : InMemoryEventBus) (event : DomainEvent) : InMemoryEventBus :=
  let log := bus.log ++ [event]
  let topic := event.eventType.value
  { bus with
    log := log.drop (log.length - bus.maxEvents)
    publishedCount := bus.publishedCount + 1
    topicCounts := bus.topicCounts.set topic (bus.topicCounts.getD topic 0 + 1) }

/-- `publish`: whether the event was accepted, or the error its validation raises. -/
def publish (bus : InMemoryEventBus) (event : DomainEvent) :
    Except EventSchemaValidationError Bool × InMemoryEventBus :=
  match validateDomainEvent event with
  | .error err => (.error err, bus)
  | .ok () =>
    if event.dedupKey ∈ bus.seenKeys then
      (.ok false, { bus with deduplicatedCount := bus.deduplicatedCount + 1 })
    else (.ok true, (bus.remember event.dedupKey).append event)

/-- A key that is remembered after `remember` is the new one or was remembered
before. -/
theorem mem_remember {bus : InMemoryEventBus} {k k' : String}
    (h : k' ∈ (bus.remember k).seenKeys) : k' = k ∨ k' ∈ bus.seenKeys := by
  have hadd : ∀ {x}, x ∈ addKey bus.seenKeys k → x = k ∨ x ∈ bus.seenKeys := by
    intro x hx
    unfold addKey at hx
    split at hx
    · exact .inr hx
    · exact List.mem_cons.mp hx
  unfold remember at h
  dsimp only at h
  split at h
  · split at h
    · exact hadd (List.mem_filter.mp h).1
    · exact hadd h
  · exact .inr h

end InMemoryEventBus

/-! ### Idempotency stores -/

/-- An atomic test-and-set over keys that do not expire. -/
class IdempotencyStore (σ : Type) where
  empty : σ
  seenOrAdd : σ → String → Bool × σ
  Seen : σ → String → Prop
  not_seen_empty : ∀ k, ¬ Seen empty k
  seenOrAdd_fst : ∀ s k, (seenOrAdd s k).1 = true ↔ Seen s k
  seenOrAdd_snd : ∀ s k k', Seen (seenOrAdd s k).2 k' ↔ k' = k ∨ Seen s k'

/-- `InMemoryIdempotencyStore`. -/
structure InMemoryIdempotencyStore where
  seenKeys : List String := []
  order : List String := []
  maxKeys : Nat := 1000000
  evictions : Nat := 0

/-- `InMemoryIdempotencyStore.seen_or_add`. -/
def InMemoryIdempotencyStore.seenOrAdd (s : InMemoryIdempotencyStore) (key : String) :
    Bool × InMemoryIdempotencyStore :=
  if key ∈ s.seenKeys then (true, s)
  else
    let seenKeys := addKey s.seenKeys key
    match s.order ++ [key] with
    | evicted :: rest =>
        if (evicted :: rest).length > s.maxKeys then
          (false, { s with seenKeys := discardKey seenKeys evicted, order := rest,
                           evictions := s.evictions + 1 })
        else (false, { s with seenKeys, order := evicted :: rest })
    | [] => (false, s)

/-- While it has room, the in-memory store is a test-and-set too. -/
theorem InMemoryIdempotencyStore.mem_seenOrAdd_of_room {s : InMemoryIdempotencyStore}
    (h : s.order.length < s.maxKeys) (k k' : String) :
    k' ∈ (s.seenOrAdd k).2.seenKeys ↔ k' = k ∨ k' ∈ s.seenKeys := by
  unfold seenOrAdd
  by_cases hk : k ∈ s.seenKeys
  · rw [if_pos hk]
    refine ⟨.inr, ?_⟩
    rintro (rfl | hk')
    · exact hk
    · exact hk'
  · rw [if_neg hk]
    dsimp only
    split
    · rename_i evicted rest horder
      have hlen : (evicted :: rest).length = s.order.length + 1 := by
        rw [← horder, List.length_append, List.length_singleton]
      rw [if_neg (by omega)]
      simp [addKey, hk]
    · rename_i hnil
      exact absurd hnil (by simp)

/-- `RedisIdempotencyStore`, with the keys Redis holds. -/
structure RedisIdempotencyStore where
  keyPrefix : String := "aci:idempotency"
  keys : List String := []

namespace RedisIdempotencyStore

def redisKey (s : RedisIdempotencyStore) (key : String) : String := s.keyPrefix ++ ":" ++ key

/-- `RedisIdempotencyStore.seen_or_add`: `SET key 1 NX` answers `None` for a key that
exists. -/
def seenOrAdd (s : RedisIdempotencyStore) (key : String) : Bool × RedisIdempotencyStore :=
  if s.redisKey key ∈ s.keys then (true, s)
  else (false, { s with keys := s.redisKey key :: s.keys })

theorem redisKey_inj {s : RedisIdempotencyStore} {k k' : String} :
    s.redisKey k = s.redisKey k' ↔ k = k' := by
  unfold redisKey
  exact String.append_right_inj _

instance : IdempotencyStore RedisIdempotencyStore where
  empty := {}
  seenOrAdd := seenOrAdd
  Seen s k := s.redisKey k ∈ s.keys
  not_seen_empty k := List.not_mem_nil
  seenOrAdd_fst s k := by
    unfold seenOrAdd
    split <;> simp_all
  seenOrAdd_snd s k k' := by
    by_cases hk : s.redisKey k ∈ s.keys
    · rw [show seenOrAdd s k = (true, s) from if_pos hk]
      refine ⟨.inr, ?_⟩
      rintro (rfl | h)
      · exact hk
      · exact h
    · rw [show seenOrAdd s k = (false, { s with keys := s.redisKey k :: s.keys }) from if_neg hk]
      refine List.mem_cons.trans (or_congr ?_ Iff.rfl)
      exact redisKey_inj (s := s)

end RedisIdempotencyStore
end ComputeIntelligence
