import ComputeIntelligence.EventBus
import ComputeIntelligence.GuardedRuns

/-! # Concurrent publishing to Kafka

Any number of callers run `KafkaEventBus.publish` at once.  A call is validated, then
asks the idempotency store (`check`), and, if its key is new, sends to the broker
(`send`), which may raise; between these two steps any other call may move.  The
store has recorded the key by then, and nothing takes it back when the send raises.

A call that is told it is a duplicate should be able to rely on the first one: its
key is on the topic.  That holds throughout a run exactly when no key is checked while
another call of that key is sending or has raised: `noSwallow_iff_settled`.  A retry
after a broker error is the plain way to break it, `retry_is_swallowed`.
-/
namespace ComputeIntelligence

/-- How far a `publish` call has got.  A rejected call failed validation. -/
inductive CallStatus where
  | pending | sending | accepted | deduplicated | raised | rejected
deriving DecidableEq

/-- One call of `publish`. -/
structure PublishCall where
  event : DomainEvent
  status : CallStatus

namespace PublishCall

def dedupKey (c : PublishCall) : String := c.event.dedupKey

/-- The idempotency store has recorded the key for this call. -/
def Admitted (c : PublishCall) : Prop :=
  c.status = .sending ∨ c.status = .accepted ∨ c.status = .raised

instance (c : PublishCall) : Decidable c.Admitted := inferInstanceAs (Decidable (_ ∨ _))

/-- The call after a step. -/
def withStatus (c : PublishCall) (status : CallStatus) : PublishCall := { c with status }

@[simp] theorem withStatus_status (c : PublishCall) (st : CallStatus) : (c.withStatus st).status = st := rfl

@[simp] theorem withStatus_event (c : PublishCall) (st : CallStatus) : (c.withStatus st).event = c.event := rfl

@[simp] theorem withStatus_dedupKey (c : PublishCall) (st : CallStatus) :
    (c.withStatus st).dedupKey = c.dedupKey := rfl

@[simp] theorem admitted_withStatus (c : PublishCall) (st : CallStatus) :
    (c.withStatus st).Admitted ↔ st = .sending ∨ st = .accepted ∨ st = .raised := Iff.rfl

theorem not_admitted_of_pending {c : PublishCall} (h : c.status = .pending) : ¬ c.Admitted := by
  simp [Admitted, h]

end PublishCall

/-- `KafkaEventBus` with the calls in progress, the messages of its topic, and the
results returned so far in the order they were returned. -/
structure KafkaEventBus (σ : Type) where
  store : σ
  topic : List (String × DomainEvent)
  calls : List PublishCall
  returned : List (DomainEvent × Bool)
  publishedCount : Nat
  deduplicatedCount : Nat

/-- A step of the system: a caller calls `publish`, a call asks the store, a call sends. -/
inductive BusAction where
  | call (event : DomainEvent)
  | check (i : Nat)
  | send (i : Nat) (delivered : Bool)

namespace KafkaEventBus
variable {σ : Type} [IdempotencyStore σ]

/-- A bus on an empty store and topic. -/
def initial : KafkaEventBus σ := ⟨IdempotencyStore.empty, [], [], [], 0, 0⟩

/-- `publish`, up to the first `await`. -/
def call (s : KafkaEventBus σ) (event : DomainEvent) : KafkaEventBus σ :=
  let status := match validateDomainEvent event with
    | .ok _ => CallStatus.pending
    | .error _ => CallStatus.rejected
  { s with calls := s.calls ++ [⟨event, status⟩] }

/-- `seen_or_add`, and what `publish` does with the answer. -/
def check (s : KafkaEventBus σ) (i : Nat) : KafkaEventBus σ :=
  match s.calls[i]? with
  | some c =>
      if c.status = .pending then
        let (alreadySeen, store) := IdempotencyStore.seenOrAdd s.store c.dedupKey
        if alreadySeen then
          { s with
            store, calls := s.calls.set i (c.withStatus .deduplicated)
            returned := s.returned ++ [(c.event, false)]
            deduplicatedCount := s.deduplicatedCount + 1 }
        else { s with store, calls := s.calls.set i (c.withStatus .sending) }
      else s
  | none => s

/-- `send_and_wait`, which delivers the message or raises. -/
def send (s : KafkaEventBus σ) (i : Nat) (delivered : Bool) : KafkaEventBus σ :=
  match s.calls[i]? with
  | some c =>
      if c.status = .sending then
        if delivered then
          { s with
            topic := s.topic ++ [(c.dedupKey, c.event)]
            calls := s.calls.set i (c.withStatus .accepted)
            returned := s.returned ++ [(c.event, true)]
            publishedCount := s.publishedCount + 1 }
        else { s with calls := s.calls.set i (c.withStatus .raised) }
      else s
  | none => s

/-- One step. -/
def step (s : KafkaEventBus σ) : BusAction → KafkaEventBus σ
  | .call event => s.call event
  | .check i => s.check i
  | .send i delivered => s.send i delivered

/-! ### Replacing one call -/

/-- At most one call of each key has been admitted. -/
def OneAdmitted (calls : List PublishCall) : Prop :=
  ∀ (i j : Nat) (c d : PublishCall), calls[i]? = some c → calls[j]? = some d → c.Admitted →
    d.Admitted → c.dedupKey = d.dedupKey → i = j

theorem getElem?_set_call {calls : List PublishCall} {i : Nat} {c : PublishCall}
    (hi : calls[i]? = some c) (c' : PublishCall) (j : Nat) :
    (calls.set i c')[j]? = if i = j then some c' else calls[j]? := by
  have hlt : i < calls.length := (List.getElem?_eq_some_iff.mp hi).1
  rw [List.getElem?_set]
  by_cases hij : i = j
  · subst hij
    simp [hlt]
  · rw [if_neg hij, if_neg hij]

/-- Replacing a call by one that has the property whenever it had it. -/
theorem exists_mem_set {calls : List PublishCall} {i : Nat} {c c' : PublishCall}
    (hi : calls[i]? = some c) {Q : PublishCall → Prop} (hQ : Q c → Q c') :
    (∃ d ∈ calls.set i c', Q d) ↔ Q c' ∨ ∃ d ∈ calls, Q d := by
  constructor
  · rintro ⟨d, hd, hq⟩
    rcases List.mem_or_eq_of_mem_set hd with hd | rfl
    · exact .inr ⟨d, hd, hq⟩
    · exact .inl hq
  · have hlt : i < calls.length := (List.getElem?_eq_some_iff.mp hi).1
    have hnew : c' ∈ calls.set i c' := List.mem_set hlt c'
    rintro (hq | ⟨d, hd, hq⟩)
    · exact ⟨c', hnew, hq⟩
    · obtain ⟨j, hj⟩ := List.getElem?_of_mem hd
      by_cases hij : i = j
      · subst hij
        obtain rfl := Option.some.inj (hi.symm.trans hj)
        exact ⟨c', hnew, hQ hq⟩
      · refine ⟨d, List.mem_of_getElem? (i := j) ?_, hq⟩
        rw [getElem?_set_call hi, if_neg hij, hj]

/-- A call that is not accepted, before and after, leaves what was accepted. -/
theorem exists_accepted_set {calls : List PublishCall} {i : Nat} {c : PublishCall}
    {status : CallStatus} (hi : calls[i]? = some c) (hc : c.status ≠ .accepted)
    (hst : status ≠ .accepted) {Q : PublishCall → Prop} :
    (∃ d ∈ calls.set i (c.withStatus status), d.status = .accepted ∧ Q d) ↔
      ∃ d ∈ calls, d.status = .accepted ∧ Q d := by
  rw [exists_mem_set hi fun h => absurd h.1 hc]
  exact or_iff_right fun h => hst h.1

theorem OneAdmitted.set {calls : List PublishCall} (h : OneAdmitted calls) {i : Nat}
    {c c' : PublishCall} (hi : calls[i]? = some c) (hkey : c'.dedupKey = c.dedupKey)
    (hc' : c'.Admitted → c.Admitted ∨ ∀ d ∈ calls, d.Admitted → d.dedupKey ≠ c.dedupKey) :
    OneAdmitted (calls.set i c') := by
  -- another admitted call with the key of the new one is at the same place
  have hother : ∀ j d, c'.Admitted → calls[j]? = some d → d.Admitted → d.dedupKey = c.dedupKey →
      i = j := by
    intro j d ha hj hd hk
    rcases hc' ha with hc | hnone
    · exact h i j c d hi hj hc hd hk.symm
    · exact absurd hk (hnone d (List.mem_of_getElem? hj) hd)
  intro j k d e hj hk hd he hde
  rw [getElem?_set_call hi] at hj hk
  split at hj <;> split at hk
  · omega
  · obtain rfl := Option.some.inj hj
    rename_i hij hik
    exact hij ▸ hother k e hd hk he (hde.symm.trans hkey)
  · obtain rfl := Option.some.inj hk
    rename_i hij hik
    exact hik ▸ (hother j d he hj hd (hde.trans hkey)).symm
  · exact h j k d e hj hk hd he hde

/-! ### What the store and the topic know -/

/-- The store has the keys of the admitted calls, the topic those of the accepted
ones, and the results `True` are those of the accepted ones. -/
structure Consistent (s : KafkaEventBus σ) : Prop where
  seen_iff : ∀ k, IdempotencyStore.Seen s.store k ↔ ∃ c ∈ s.calls, c.Admitted ∧ c.dedupKey = k
  topic_iff : ∀ k, (∃ m ∈ s.topic, m.1 = k) ↔ ∃ c ∈ s.calls, c.status = .accepted ∧ c.dedupKey = k
  returned_iff : ∀ e, (e, true) ∈ s.returned ↔ ∃ c ∈ s.calls, c.status = .accepted ∧ c.event = e
  oneAdmitted : OneAdmitted s.calls

theorem consistent_initial : Consistent (initial : KafkaEventBus σ) := by
  refine ⟨fun k => ?_, fun k => ?_, fun e => ?_, fun i j c d hi => ?_⟩
  · simp [initial, IdempotencyStore.not_seen_empty]
  · simp [initial]
  · simp [initial]
  · simp [initial] at hi

variable {s : KafkaEventBus σ}

omit [IdempotencyStore σ] in
/-- A new call has neither been admitted nor returned. -/
theorem call_spec (event : DomainEvent) : ∃ c : PublishCall,
    s.call event = { s with calls := s.calls ++ [c] } ∧ ¬ c.Admitted ∧ c.status ≠ .deduplicated := by
  unfold call
  cases validateDomainEvent event with
  | ok _ => exact ⟨_, rfl, by simp [PublishCall.Admitted], by simp⟩
  | error _ => exact ⟨_, rfl, by simp [PublishCall.Admitted], by simp⟩

/-- Everything `check` can do. -/
theorem check_cases (i : Nat) :
    (s.check i = s ∧ ∀ c, s.calls[i]? = some c → c.status ≠ .pending) ∨
    ∃ c store, s.calls[i]? = some c ∧ c.status = .pending ∧
      (∀ k, IdempotencyStore.Seen store k ↔ k = c.dedupKey ∨ IdempotencyStore.Seen s.store k) ∧
      (IdempotencyStore.Seen s.store c.dedupKey ∧
          s.check i = { s with
            store, calls := s.calls.set i (c.withStatus .deduplicated)
            returned := s.returned ++ [(c.event, false)]
            deduplicatedCount := s.deduplicatedCount + 1 } ∨
        ¬ IdempotencyStore.Seen s.store c.dedupKey ∧
          s.check i = { s with store, calls := s.calls.set i (c.withStatus .sending) }) := by
  unfold check
  cases hi : s.calls[i]? with
  | none => exact .inl ⟨rfl, fun c hc => by cases hc⟩
  | some c =>
    by_cases hp : c.status = .pending
    · refine .inr ⟨c, (IdempotencyStore.seenOrAdd s.store c.dedupKey).2, rfl, hp,
        IdempotencyStore.seenOrAdd_snd s.store c.dedupKey, ?_⟩
      have hfst := IdempotencyStore.seenOrAdd_fst s.store c.dedupKey
      dsimp only
      rw [if_pos hp]
      by_cases hseen : IdempotencyStore.Seen s.store c.dedupKey
      · exact .inl ⟨hseen, if_pos (hfst.mpr hseen)⟩
      · exact .inr ⟨hseen, if_neg fun h => hseen (hfst.mp h)⟩
    · refine .inl ⟨if_neg hp, fun c' hc' => ?_⟩
      rw [← Option.some.inj hc']
      exact hp

omit [IdempotencyStore σ] in
/-- Everything `send` can do. -/
theorem send_cases (i : Nat) (delivered : Bool) :
    s.send i delivered = s ∨
    ∃ c, s.calls[i]? = some c ∧ c.status = .sending ∧
      (delivered = true ∧ s.send i delivered = { s with
          topic := s.topic ++ [(c.dedupKey, c.event)]
          calls := s.calls.set i (c.withStatus .accepted)
          returned := s.returned ++ [(c.event, true)]
          publishedCount := s.publishedCount + 1 } ∨
        delivered = false ∧
          s.send i delivered = { s with calls := s.calls.set i (c.withStatus .raised) }) := by
  unfold send
  cases hi : s.calls[i]? with
  | none => exact .inl rfl
  | some c =>
    by_cases hp : c.status = .sending
    · refine .inr ⟨c, rfl, hp, ?_⟩
      cases delivered with
      | true => exact .inl ⟨rfl, if_pos hp⟩
      | false => exact .inr ⟨rfl, if_pos hp⟩
    · exact .inl (if_neg hp)

theorem Consistent.call (hs : Consistent s) (event : DomainEvent) : Consistent (s.call event) := by
  obtain ⟨c, hcall, hadm, -⟩ := s.call_spec event
  have hacc : c.status ≠ .accepted := fun h => hadm (.inr (.inl h))
  rw [hcall]
  refine ⟨fun k => ?_, fun k => ?_, fun e => ?_, fun i j a b hi hj ha hb hk => ?_⟩
  · simp only [List.mem_append, List.mem_singleton, or_and_right, exists_or, exists_eq_left]
    exact (hs.seen_iff k).trans (by simp [hadm])
  · simp only [List.mem_append, List.mem_singleton, or_and_right, exists_or, exists_eq_left]
    exact (hs.topic_iff k).trans (by simp [hacc])
  · simp only [List.mem_append, List.mem_singleton, or_and_right, exists_or, exists_eq_left]
    exact (hs.returned_iff e).trans (by simp [hacc])
  · -- an admitted call is one of the old ones
    have hold : ∀ {i : Nat} {a : PublishCall}, (s.calls ++ [c])[i]? = some a → a.Admitted →
        s.calls[i]? = some a := by
      intro i a hi ha
      by_cases hlt : i < s.calls.length
      · rwa [List.getElem?_append_left hlt] at hi
      · rw [List.getElem?_append_right (not_lt.mp hlt), List.getElem?_singleton] at hi
        split at hi
        · exact absurd (Option.some.inj hi ▸ ha) hadm
        · cases hi
    exact hs.oneAdmitted i j a b (hold hi ha) (hold hj hb) ha hb hk

theorem Consistent.check (hs : Consistent s) (i : Nat) : Consistent (s.check i) := by
  obtain ⟨heq, -⟩ | ⟨c, store, hi, hp, hstore, hcase⟩ := s.check_cases i
  · rw [heq]
    exact hs
  have hc := PublishCall.not_admitted_of_pending hp
  have hacc : c.status ≠ .accepted := by simp [hp]
  obtain ⟨hseen, heq⟩ | ⟨hseen, heq⟩ := hcase
  · rw [heq]
    refine ⟨fun k => ?_, fun k => ?_, fun e => ?_, ?_⟩
    · rw [hstore, exists_mem_set hi (fun h => absurd h.1 hc), ← hs.seen_iff]
      simp only [PublishCall.admitted_withStatus, reduceCtorEq, or_self, false_and, false_or]
      refine ⟨?_, .inr⟩
      rintro (rfl | h)
      · exact hseen
      · exact h
    · rw [exists_accepted_set hi hacc (by decide), ← hs.topic_iff]
    · rw [exists_accepted_set hi hacc (by decide), ← hs.returned_iff]
      simp
    · exact hs.oneAdmitted.set hi rfl fun h => by simp at h
  · rw [heq]
    refine ⟨fun k => ?_, fun k => ?_, fun e => ?_, ?_⟩
    · rw [hstore, exists_mem_set hi (fun h => absurd h.1 hc), ← hs.seen_iff]
      simp [eq_comm]
    · rw [exists_accepted_set hi hacc (by decide), ← hs.topic_iff]
    · rw [exists_accepted_set hi hacc (by decide), ← hs.returned_iff]
    · -- the key is new, so no call of it has been admitted
      refine hs.oneAdmitted.set hi rfl fun _ => .inr fun d hd ha hk => hseen ?_
      exact (hs.seen_iff _).mpr ⟨d, hd, ha, hk⟩

theorem Consistent.send (hs : Consistent s) (i : Nat) (delivered : Bool) :
    Consistent (s.send i delivered) := by
  obtain heq | ⟨c, hi, hp, hcase⟩ := s.send_cases i delivered
  · rw [heq]
    exact hs
  have hc : c.Admitted := .inl hp
  have hmem : c ∈ s.calls := List.mem_of_getElem? hi
  have hacc : c.status ≠ .accepted := by simp [hp]
  have hadmitted : ∀ k st, (c.withStatus st).Admitted →
      ((∃ d ∈ s.calls.set i (c.withStatus st), d.Admitted ∧ d.dedupKey = k) ↔
        ∃ d ∈ s.calls, d.Admitted ∧ d.dedupKey = k) := by
    intro k st hst
    rw [exists_mem_set hi (fun h => ⟨hst, h.2⟩)]
    refine ⟨?_, .inr⟩
    rintro (h | h)
    · exact ⟨c, hmem, hc, h.2⟩
    · exact h
  obtain ⟨-, heq⟩ | ⟨-, heq⟩ := hcase
  · rw [heq]
    refine ⟨fun k => ?_, fun k => ?_, fun e => ?_, ?_⟩
    · exact (hs.seen_iff k).trans (hadmitted k _ (by simp)).symm
    · rw [exists_mem_set hi (fun h => absurd h.1 hacc), ← hs.topic_iff]
      simp [or_and_right, exists_or, or_comm]
    · rw [exists_mem_set hi (fun h => absurd h.1 hacc), ← hs.returned_iff]
      simp [or_comm, eq_comm]
    · exact hs.oneAdmitted.set hi rfl fun _ => .inl hc
  · rw [heq]
    refine ⟨fun k => ?_, fun k => ?_, fun e => ?_, ?_⟩
    · exact (hs.seen_iff k).trans (hadmitted k _ (by simp)).symm
    · rw [exists_accepted_set hi hacc (by decide), ← hs.topic_iff]
    · rw [exists_accepted_set hi hacc (by decide), ← hs.returned_iff]
    · exact hs.oneAdmitted.set hi rfl fun _ => .inl hc

theorem consistent_step (hs : Consistent s) (a : BusAction) : Consistent (s.step a) := by
  cases a with
  | call event => exact hs.call event
  | check i => exact hs.check i
  | send i delivered => exact hs.send i delivered

/-! ### Duplicates are on the topic -/

/-- Every call that was told its event is a duplicate has its key on the topic. -/
def NoSwallow (s : KafkaEventBus σ) : Prop :=
  ∀ c ∈ s.calls, c.status = .deduplicated → ∃ m ∈ s.topic, m.1 = c.dedupKey

/-- The key that is about to be checked is settled: no call of it is sending or has
raised. -/
def Settled (s : KafkaEventBus σ) : BusAction → Prop
  | .check i => ∀ c, s.calls[i]? = some c → c.status = .pending →
      ∀ d ∈ s.calls, d.dedupKey = c.dedupKey → d.status ≠ .sending ∧ d.status ≠ .raised
  | _ => True

omit [IdempotencyStore σ] in
theorem noSwallow_set {i : Nat} {c c' : PublishCall} {t : List (String × DomainEvent)}
    (hi : s.calls[i]? = some c) (hs : s.NoSwallow) (ht : s.topic ⊆ t) :
    (∀ d ∈ s.calls.set i c', d.status = .deduplicated → ∃ m ∈ t, m.1 = d.dedupKey) ↔
      (c'.status = .deduplicated → ∃ m ∈ t, m.1 = c'.dedupKey) := by
  have hlt : i < s.calls.length := (List.getElem?_eq_some_iff.mp hi).1
  refine ⟨fun h => h c' (List.mem_set hlt c'), fun h d hd hdup => ?_⟩
  rcases List.mem_or_eq_of_mem_set hd with hd | rfl
  · obtain ⟨m, hm, hk⟩ := hs d hd hdup
    exact ⟨m, ht hm, hk⟩
  · exact h hdup

/-- A key the store has seen is on the topic exactly when it is settled. -/
theorem Consistent.on_topic_iff_settled (hs : Consistent s) {k : String}
    (hseen : IdempotencyStore.Seen s.store k) :
    (∃ m ∈ s.topic, m.1 = k) ↔
      ∀ d ∈ s.calls, d.dedupKey = k → d.status ≠ .sending ∧ d.status ≠ .raised := by
  rw [hs.topic_iff]
  constructor
  · rintro ⟨c, hc, hacc, hck⟩ d hd hdk
    obtain ⟨i, hi⟩ := List.getElem?_of_mem hc
    obtain ⟨j, hj⟩ := List.getElem?_of_mem hd
    -- an admitted call of the key is the accepted one
    have hsame : d.Admitted → d.status = .accepted := by
      intro hadm
      have hij := hs.oneAdmitted i j c d hi hj (.inr (.inl hacc)) hadm (hck.trans hdk.symm)
      rw [hij, hj] at hi
      rw [Option.some.inj hi]
      exact hacc
    refine ⟨fun h => ?_, fun h => ?_⟩
    · have := hsame (.inl h)
      rw [h] at this
      cases this
    · have := hsame (.inr (.inr h))
      rw [h] at this
      cases this
  · intro hsettled
    obtain ⟨c, hc, hadm, hck⟩ := (hs.seen_iff k).mp hseen
    obtain ⟨hns, hnr⟩ := hsettled c hc hck
    rcases hadm with h | h | h
    · exact absurd h hns
    · exact ⟨c, hc, h, hck⟩
    · exact absurd h hnr

/-- **One step** swallows no event exactly when the key it checks is settled. -/
theorem noSwallow_step_iff (hc : Consistent s) (hs : s.NoSwallow) (a : BusAction) :
    (s.step a).NoSwallow ↔ s.Settled a := by
  cases a with
  | call event =>
    obtain ⟨c, hcall, -, hdup⟩ := s.call_spec event
    refine ⟨fun _ => trivial, fun _ => ?_⟩
    rw [step, hcall]
    intro d hd hdd
    rcases List.mem_append.mp hd with hd | hd
    · exact hs d hd hdd
    · rw [List.mem_singleton.mp hd] at hdd
      exact absurd hdd hdup
  | send i delivered =>
    refine ⟨fun _ => trivial, fun _ => ?_⟩
    obtain heq | ⟨c, hi, -, ⟨-, heq⟩ | ⟨-, heq⟩⟩ := s.send_cases i delivered
    · rw [step, heq]
      exact hs
    · rw [step, heq]
      refine (noSwallow_set hi hs (List.subset_append_left _ _)).mpr fun h => ?_
      cases h
    · rw [step, heq]
      refine (noSwallow_set hi hs (List.Subset.refl _)).mpr fun h => ?_
      cases h
  | check i =>
    obtain ⟨heq, hnot⟩ | ⟨c, store, hi, hp, -, ⟨hseen, heq⟩ | ⟨hseen, heq⟩⟩ := s.check_cases i
    · rw [step, heq]
      exact ⟨fun _ c hc hp => absurd hp (hnot c hc), fun _ => hs⟩
    · rw [step, heq]
      refine (noSwallow_set hi hs (List.Subset.refl _)).trans ?_
      simp only [PublishCall.withStatus_status, true_implies, PublishCall.withStatus_dedupKey]
      rw [hc.on_topic_iff_settled hseen]
      refine ⟨fun h c' hc' _ => Option.some.inj (hi.symm.trans hc') ▸ h, fun h => h c hi hp⟩
    · rw [step, heq]
      refine ⟨fun _ c' hc' _ d hd hk => ?_, fun _ => ?_⟩
      · obtain rfl := Option.some.inj (hi.symm.trans hc')
        have hnone : ¬ d.Admitted := fun h => hseen ((hc.seen_iff _).mpr ⟨d, hd, h, hk⟩)
        exact ⟨fun h => hnone (.inl h), fun h => hnone (.inr (.inr h))⟩
      · refine (noSwallow_set hi hs (List.Subset.refl _)).mpr fun h => ?_
        cases h

theorem noSwallow_initial : (initial : KafkaEventBus σ).NoSwallow :=
  fun _ hc => absurd hc List.not_mem_nil

/-- **No event is swallowed in a run exactly when every key is settled when it is
checked.** -/
theorem noSwallow_iff_settled (actions : List BusAction) :
    Run.Always step NoSwallow (initial : KafkaEventBus σ) actions ↔
      Run.Guarded step Settled (initial : KafkaEventBus σ) actions :=
  Run.always_iff_guarded (fun _ a hs _ _ => consistent_step hs a)
    (fun _ a hc hs => noSwallow_step_iff hc hs a) consistent_initial noSwallow_initial

/-- The payload of a small system event. -/
def calibrationPayload : {d : PyDict String PyVal // payloadFits d} :=
  ⟨⟨[("method", .str "R1")], by decide⟩, by decide +kernel⟩

/-- A small system event. -/
def calibrationEvent (tenantId source idempotencyKey : String) : DomainEvent :=
  { eventId := "e", eventType := .calibrationUpdated, subjectId := "R1",
    attributes := calibrationPayload, eventTime := AwareDateTime.utc 0,
    ingestTime := AwareDateTime.utc 0, source, idempotencyKey, tenantId }

/-- A publish whose send raises, and its retry: the retry is told that its event is a
duplicate, and the topic stays empty. -/
theorem retry_is_swallowed :
    ¬ ∀ actions, Run.Always step NoSwallow
      (initial : KafkaEventBus RedisIdempotencyStore) actions := by
  intro h
  have hv := h [.call (calibrationEvent "acme" "ci" "k"), .check 0, .send 0 false,
    .call (calibrationEvent "acme" "ci" "k"), .check 1] _ (List.prefix_refl _)
  have hfinal : ∀ s : KafkaEventBus RedisIdempotencyStore,
      s.calls.map PublishCall.status = [.raised, .deduplicated] ∧ s.topic.length = 0 →
        ¬ s.NoSwallow := by
    rintro s ⟨hst, htopic⟩ hs
    have hmem : CallStatus.deduplicated ∈ s.calls.map PublishCall.status := by simp [hst]
    obtain ⟨c, hc, hdup⟩ := List.mem_map.mp hmem
    obtain ⟨m, hm, -⟩ := hs c hc hdup
    rw [List.length_eq_zero_iff.mp htopic] at hm
    cases hm
  exact hfinal _ (by decide +kernel) hv

end KafkaEventBus
end ComputeIntelligence
