import ComputeIntelligence.KafkaPublish
import Mathlib.Data.Set.Basic

/-! # Deduplication across tenants and sources

A repeated event is one with the same tenant, source and idempotency key as an event
that was accepted before.  The buses compare the three texts joined with colons, and
the texts may contain colons themselves: `("a:b", "c", k)` and `("a", "b:c", k)` have
one key.  So deduplication is per tenant, source and key exactly for the traffic in
which joining loses nothing, `isolated_iff_collisionFree`; that is the case when
tenants and sources contain no colon, `scope_eq_of_no_colon`.

On Kafka the result also needs the settled keys of the previous module: a key that
was recorded by a call that has not been accepted suppresses its own retry.
-/
namespace ComputeIntelligence

/-- What identifies an event for its publisher. -/
def DomainEvent.scope (e : DomainEvent) : String × String × String :=
  (e.tenantId, e.source, e.idempotencyKey)

/-- Among the results, in order of return: every event that was dropped repeats one
that was accepted before, and none that was accepted before under the same dedup key
is anything but a repetition. -/
def Isolated (returned : List (DomainEvent × Bool)) : Prop :=
  ∀ pre e post, returned = pre ++ (e, false) :: post →
    (∃ a, (a, true) ∈ pre ∧ a.scope = e.scope) ∧
      ∀ a, (a, true) ∈ pre → a.dedupKey = e.dedupKey → a.scope = e.scope

/-- Joining keeps the accepted events of `E` apart. -/
def CollisionFree (E : Set DomainEvent) : Prop :=
  ∀ e ∈ E, ∀ e' ∈ E, e.Accepted → e'.Accepted → e.dedupKey = e'.dedupKey → e.scope = e'.scope

theorem isolated_nil : Isolated [] := by
  intro pre e post h
  simp at h

theorem isolated_concat_true {l : List (DomainEvent × Bool)} (h : Isolated l) (e : DomainEvent) :
    Isolated (l ++ [(e, true)]) := by
  intro pre a post hl
  cases post using List.reverseRecOn with
  | nil =>
    have := congrArg List.getLast? hl
    simp at this
  | append_singleton post x =>
    rw [← List.cons_append, ← List.append_assoc] at hl
    exact h pre a post (List.append_inj_left' hl rfl)

theorem isolated_concat_false {l : List (DomainEvent × Bool)} (h : Isolated l) {e : DomainEvent}
    (hrep : ∃ a, (a, true) ∈ l ∧ a.scope = e.scope)
    (honly : ∀ a, (a, true) ∈ l → a.dedupKey = e.dedupKey → a.scope = e.scope) :
    Isolated (l ++ [(e, false)]) := by
  intro pre a post hl
  cases post using List.reverseRecOn with
  | nil =>
    obtain ⟨rfl, hlast⟩ := List.append_inj' hl rfl
    obtain ⟨rfl, -⟩ := Prod.mk.inj (List.singleton_inj.mp hlast)
    exact ⟨hrep, honly⟩
  | append_singleton post x =>
    rw [← List.cons_append, ← List.append_assoc] at hl
    exact h pre a post (List.append_inj_left' hl rfl)

/-- With a remembered event of the same key, collision-free traffic is isolated. -/
theorem isolated_drop {E : Set DomainEvent} (hE : CollisionFree E)
    {l : List (DomainEvent × Bool)} (h : Isolated l) (hl : ∀ x ∈ l, x.1 ∈ E ∧ x.1.Accepted)
    {e a : DomainEvent} (he : e ∈ E ∧ e.Accepted) (ha : (a, true) ∈ l)
    (hk : a.dedupKey = e.dedupKey) : Isolated (l ++ [(e, false)]) := by
  have hsame : ∀ b, (b, true) ∈ l → b.dedupKey = e.dedupKey → b.scope = e.scope := by
    intro b hb hbk
    obtain ⟨hbE, hbA⟩ := hl _ hb
    exact hE b hbE e he.1 hbA he.2 hbk
  exact isolated_concat_false h ⟨a, ha, hsame a ha hk⟩ hsame

/-! ### The in-memory bus -/

/-- A bus and the results it has returned. -/
structure InMemoryRun where
  bus : InMemoryEventBus
  returned : List (DomainEvent × Bool)

namespace InMemoryRun

/-- A fresh bus. -/
def fresh (maxEvents : Nat) : InMemoryRun := ⟨{ maxEvents }, []⟩

/-- One `publish`; a call whose validation raises returns nothing. -/
def step (s : InMemoryRun) (event : DomainEvent) : InMemoryRun :=
  match s.bus.publish event with
  | (.ok accepted, bus) => ⟨bus, s.returned ++ [(event, accepted)]⟩
  | (.error _, bus) => ⟨bus, s.returned⟩

/-- Every remembered key is that of an accepted event, and the traffic so far was in
`E` and isolated. -/
structure Sound (E : Set DomainEvent) (s : InMemoryRun) : Prop where
  seen : ∀ k ∈ s.bus.seenKeys, ∃ a, (a, true) ∈ s.returned ∧ a.dedupKey = k
  traffic : ∀ x ∈ s.returned, x.1 ∈ E ∧ x.1.Accepted
  isolated : Isolated s.returned

theorem Sound.step {E : Set DomainEvent} (hE : CollisionFree E) {s : InMemoryRun} (hs : Sound E s)
    {e : DomainEvent} (he : e ∈ E) : Sound E (s.step e) := by
  unfold InMemoryRun.step InMemoryEventBus.publish
  cases hv : validateDomainEvent e with
  | error err => exact hs
  | ok u =>
    have hacc : e ∈ E ∧ e.Accepted := ⟨he, validateDomainEvent_ok_iff.mp hv⟩
    have htraffic : ∀ b, ∀ x ∈ s.returned ++ [(e, b)], x.1 ∈ E ∧ x.1.Accepted := by
      intro b x hx
      rcases List.mem_append.mp hx with hx | hx
      · exact hs.traffic x hx
      · rw [List.mem_singleton.mp hx]
        exact hacc
    by_cases hseen : e.dedupKey ∈ s.bus.seenKeys
    · simp only [if_pos hseen]
      obtain ⟨a, ha, hk⟩ := hs.seen _ hseen
      refine ⟨fun k hk' => ?_, htraffic false, ?_⟩
      · obtain ⟨b, hb, hbk⟩ := hs.seen k hk'
        exact ⟨b, List.mem_append_left _ hb, hbk⟩
      · exact isolated_drop hE hs.isolated hs.traffic hacc ha hk
    · simp only [if_neg hseen]
      refine ⟨fun k hk => ?_, htraffic true, isolated_concat_true hs.isolated e⟩
      rcases InMemoryEventBus.mem_remember hk with rfl | hk
      · exact ⟨e, List.mem_append_right _ (List.mem_singleton_self _), rfl⟩
      · obtain ⟨b, hb, hbk⟩ := hs.seen k hk
        exact ⟨b, List.mem_append_left _ hb, hbk⟩

theorem sound_exec {E : Set DomainEvent} (hE : CollisionFree E) {s : InMemoryRun}
    (hs : Sound E s) {events : List DomainEvent} (he : ∀ e ∈ events, e ∈ E) :
    Sound E (Run.exec InMemoryRun.step s events) := by
  induction events generalizing s with
  | nil => exact hs
  | cons e es ih =>
    obtain ⟨hhead, hrest⟩ := List.forall_mem_cons.mp he
    exact ih (hs.step hE hhead) hrest

theorem sound_fresh (E : Set DomainEvent) (maxEvents : Nat) : Sound E (fresh maxEvents) :=
  ⟨fun _ hk => absurd hk List.not_mem_nil, fun _ hx => absurd hx List.not_mem_nil, isolated_nil⟩

/-- Two accepted events with one key: the second is dropped. -/
theorem returned_of_collision {e e' : DomainEvent} (he : e.Accepted) (he' : e'.Accepted)
    (hk : e.dedupKey = e'.dedupKey) :
    (Run.exec step (fresh 1) [e, e']).returned = [(e, true), (e', false)] := by
  have hv := validateDomainEvent_ok_iff.mpr he
  have hv' := validateDomainEvent_ok_iff.mpr he'
  have hfirst : (fresh 1).step e =
      ⟨((fresh 1).bus.remember e.dedupKey).append e, [(e, true)]⟩ := by
    simp [step, InMemoryEventBus.publish, hv, fresh]
  have hseen : e'.dedupKey ∈ (((fresh 1).bus.remember e.dedupKey).append e).seenKeys := by
    rw [← hk]
    exact List.mem_singleton_self _
  rw [Run.exec_cons, Run.exec_cons, Run.exec_nil, hfirst]
  simp only [step, InMemoryEventBus.publish, hv', if_pos hseen]
  rfl

end InMemoryRun

/-! ### Kafka -/

namespace KafkaEventBus
variable {σ : Type} [IdempotencyStore σ]

/-- The calls so far were in `E`, and their results isolated. -/
structure Sound (E : Set DomainEvent) (s : KafkaEventBus σ) : Prop where
  consistent : Consistent s
  calls : ∀ c ∈ s.calls, c.event ∈ E ∧ (c.status ≠ .rejected → c.event.Accepted)
  traffic : ∀ x ∈ s.returned, x.1 ∈ E ∧ x.1.Accepted
  isolated : Isolated s.returned

variable {E : Set DomainEvent} {s : KafkaEventBus σ}

theorem sound_initial : Sound E (initial : KafkaEventBus σ) :=
  ⟨consistent_initial, fun _ hc => absurd hc List.not_mem_nil,
    fun _ hx => absurd hx List.not_mem_nil, isolated_nil⟩

/-- A call that was not rejected stays in the traffic when it moves on. -/
theorem Sound.calls_set (hs : Sound E s) {i : Nat} {c : PublishCall} (hi : s.calls[i]? = some c)
    (hc : c.status ≠ .rejected) (st : CallStatus) :
    ∀ d ∈ s.calls.set i (c.withStatus st),
      d.event ∈ E ∧ (d.status ≠ .rejected → d.event.Accepted) := by
  intro d hd
  rcases List.mem_or_eq_of_mem_set hd with hd | rfl
  · exact hs.calls d hd
  · obtain ⟨hE, hacc⟩ := hs.calls c (List.mem_of_getElem? hi)
    exact ⟨hE, fun _ => hacc hc⟩

theorem Sound.traffic_concat (hs : Sound E s) {i : Nat} {c : PublishCall}
    (hi : s.calls[i]? = some c) (hc : c.status ≠ .rejected) (b : Bool) :
    ∀ x ∈ s.returned ++ [(c.event, b)], x.1 ∈ E ∧ x.1.Accepted := by
  intro x hx
  obtain ⟨hE, hacc⟩ := hs.calls c (List.mem_of_getElem? hi)
  rcases List.mem_append.mp hx with hx | hx
  · exact hs.traffic x hx
  · rw [List.mem_singleton.mp hx]
    exact ⟨hE, hacc hc⟩

theorem Sound.call (hs : Sound E s) {e : DomainEvent} (he : e ∈ E) : Sound E (s.call e) := by
  refine ⟨hs.consistent.call e, fun c hc => ?_, hs.traffic, hs.isolated⟩
  unfold KafkaEventBus.call at hc
  rcases List.mem_append.mp hc with hc | hc
  · exact hs.calls c hc
  · rw [List.mem_singleton.mp hc]
    refine ⟨he, fun hst => validateDomainEvent_ok_iff.mp ?_⟩
    cases hv : validateDomainEvent e with
    | ok u => rfl
    | error err => exact absurd (by simp [hv]) hst

theorem Sound.check (hE : CollisionFree E) (hs : Sound E s) {i : Nat}
    (hset : s.Settled (.check i)) : Sound E (s.check i) := by
  have hcons := hs.consistent.check i
  obtain ⟨heq, -⟩ | ⟨c, store, hi, hp, -, hcase⟩ := s.check_cases i
  · rw [heq]
    exact hs
  have hc : c.status ≠ .rejected := by simp [hp]
  obtain ⟨hseen, heq⟩ | ⟨-, heq⟩ := hcase
  · rw [heq] at hcons ⊢
    refine ⟨hcons, hs.calls_set hi hc _, hs.traffic_concat hi hc false, ?_⟩
    -- the call that recorded the key is settled, so it was accepted
    obtain ⟨d, hd, hadm, hk⟩ := (hs.consistent.seen_iff _).mp hseen
    obtain ⟨hns, hnr⟩ := hset c hi hp d hd hk
    have hacc : d.status = .accepted := by
      rcases hadm with h | h | h
      · exact absurd h hns
      · exact h
      · exact absurd h hnr
    obtain ⟨hcE, hcA⟩ := hs.calls c (List.mem_of_getElem? hi)
    exact isolated_drop hE hs.isolated hs.traffic ⟨hcE, hcA hc⟩
      ((hs.consistent.returned_iff _).mpr ⟨d, hd, hacc, rfl⟩) hk
  · rw [heq] at hcons ⊢
    exact ⟨hcons, hs.calls_set hi hc _, hs.traffic, hs.isolated⟩

theorem Sound.send (hs : Sound E s) (i : Nat) (delivered : Bool) :
    Sound E (s.send i delivered) := by
  have hcons := hs.consistent.send i delivered
  obtain heq | ⟨c, hi, hp, hcase⟩ := s.send_cases i delivered
  · rw [heq]
    exact hs
  have hc : c.status ≠ .rejected := by simp [hp]
  obtain ⟨-, heq⟩ | ⟨-, heq⟩ := hcase
  · rw [heq] at hcons ⊢
    exact ⟨hcons, hs.calls_set hi hc _, hs.traffic_concat hi hc true,
      isolated_concat_true hs.isolated c.event⟩
  · rw [heq] at hcons ⊢
    exact ⟨hcons, hs.calls_set hi hc _, hs.traffic, hs.isolated⟩

/-- The events that the callers of a run publish. -/
def Publishes (E : Set DomainEvent) (actions : List BusAction) : Prop :=
  ∀ e, BusAction.call e ∈ actions → e ∈ E

theorem sound_exec (hE : CollisionFree E) (hs : Sound E s) {actions : List BusAction}
    (hp : Publishes E actions) (hg : Run.Guarded step Settled s actions) :
    Sound E (Run.exec step s actions) := by
  induction actions generalizing s with
  | nil => exact hs
  | cons a as ih =>
    have hrest : Publishes E as := fun e he => hp e (List.mem_cons_of_mem _ he)
    refine ih ?_ hrest hg.2
    cases a with
    | call e => exact hs.call (hp e List.mem_cons_self)
    | check i => exact hs.check hE hg.1
    | send i delivered => exact hs.send i delivered

end KafkaEventBus

/-! ### Both buses -/

/-- **Deduplication is per tenant, source and key, on both buses and in every run,
exactly for the traffic whose joined keys do not collide.** -/
theorem isolated_iff_collisionFree {σ : Type} [IdempotencyStore σ] (E : Set DomainEvent) :
    ((∀ maxEvents events, (∀ e ∈ events, e ∈ E) →
        Isolated (Run.exec InMemoryRun.step (.fresh maxEvents) events).returned) ∧
      (∀ actions, KafkaEventBus.Publishes E actions →
        Run.Guarded KafkaEventBus.step KafkaEventBus.Settled (.initial : KafkaEventBus σ) actions →
        Isolated (Run.exec KafkaEventBus.step (.initial : KafkaEventBus σ) actions).returned)) ↔
      CollisionFree E := by
  constructor
  · rintro ⟨hmem, -⟩ e he e' he' hacc hacc' hk
    have h := hmem 1 [e, e'] (by simp [he, he'])
    rw [InMemoryRun.returned_of_collision hacc hacc' hk] at h
    exact (h [(e, true)] e' [] rfl).2 e (List.mem_singleton_self _) hk
  · intro hE
    refine ⟨fun maxEvents events he => ?_, fun actions hp hg => ?_⟩
    · exact (InMemoryRun.sound_exec hE (InMemoryRun.sound_fresh E maxEvents) he).isolated
    · exact (KafkaEventBus.sound_exec hE KafkaEventBus.sound_initial hp hg).isolated

/-- Two tenants whose events have one key: the second event is dropped by the first. -/
theorem colon_suppresses_other_tenant :
    ¬ ∀ maxEvents events, Isolated (Run.exec InMemoryRun.step (.fresh maxEvents) events).returned := by
  intro h
  let first := KafkaEventBus.calibrationEvent "a:b" "c" "k"
  let second := KafkaEventBus.calibrationEvent "a" "b:c" "k"
  have hrun : (Run.exec InMemoryRun.step (.fresh 1) [first, second]).returned =
      [(first, true), (second, false)] :=
    InMemoryRun.returned_of_collision ⟨rfl, by decide +kernel⟩ ⟨rfl, by decide +kernel⟩
      (by decide +kernel)
  have hiso := h 1 [first, second]
  rw [hrun] at hiso
  obtain ⟨a, ha, hscope⟩ := (hiso [(first, true)] second [] rfl).1
  obtain ⟨rfl, -⟩ := Prod.mk.inj (List.mem_singleton.mp ha)
  exact absurd hscope (by decide)

/-! ### Texts without colons -/

/-- **Joining loses nothing where tenants and sources contain no colon.** -/
theorem scope_eq_of_no_colon {e e' : DomainEvent}
    (ht : ':' ∉ e.tenantId.toList) (ht' : ':' ∉ e'.tenantId.toList)
    (hs : ':' ∉ e.source.toList) (hs' : ':' ∉ e'.source.toList)
    (hk : e.dedupKey = e'.dedupKey) : e.scope = e'.scope := by
  have hlist := congrArg String.toList hk
  simp only [DomainEvent.dedupKey, String.toList_append, List.append_assoc] at hlist
  obtain ⟨htenant, hrest⟩ := PyText.append_sep_inj ht ht' hlist
  obtain ⟨hsource, hkey⟩ := PyText.append_sep_inj hs hs' hrest
  unfold DomainEvent.scope
  rw [String.toList_inj.mp htenant, String.toList_inj.mp hsource, String.toList_inj.mp hkey]

end ComputeIntelligence
