import ComputeIntelligence.Gateway
import ComputeIntelligence.TaskSet

/-! # Stopping with background work under way

`_publish_async_event` (`interceptor/gateway.py`) hands an event to the publisher.  What is awaitable
is drained by a background task (`_drain_shadow_publish`), which `_track_background_task` adds to a
set; a cache miss adds the refresh that it triggers.  `AppState.stop` (`api/runtime.py`) waits for
the tasks of that set (`shutdown`), and then stops the bus.

When the bus is stopped, whatever was handed over before has ended; but for what was handed over
while another stop was waiting, which `shutdown` takes out of the set with the rest
(`stop_settles`).
-/
namespace ComputeIntelligence
variable {κ : Type} [DecidableEq κ]

/-- What the interceptor hands over. -/
inductive BackgroundWork where
  | publication (event : DomainEvent)
  /-- `trigger_refresh`. -/
  | refresh (workloadId : String)

/-- How it ends: what it raises is swallowed, by a refresh with the answer False. -/
inductive WorkEnding where
  | answered (value : Bool)
  | swallowed
  | cancelled
deriving DecidableEq

/-- What was handed over, oldest first, and the background tasks, each by the place of its work.
`busStopped` tells which calls of `stop` have stopped the bus. -/
structure StoppingApp (κ : Type) where
  handed : List BackgroundWork := []
  tasks : TaskSet.State Nat κ WorkEnding := {}
  busStopped : List κ := []

inductive StoppingAction (κ : Type) where
  /-- `_publish_async_event`, of an event that the publisher is given. -/
  | publish (event : DomainEvent) (reply : PublishReply)
  /-- A cache miss makes a task of `trigger_refresh`. -/
  | miss (workloadId : String)
  /-- What a task awaits comes to an end. -/
  | finish (i : Nat) (ending : WorkEnding)
  /-- The callback that `_track_background_task` adds. -/
  | callback (i : Nat)
  /-- A call of `AppState.stop` begins with `shutdown`. -/
  | stop (k : κ)
  /-- The `gather` of `shutdown` has everything. -/
  | gathered (k : κ)
  | cancel (k : κ)
  /-- `stop` goes on, with `event_bus.stop`. -/
  | stopBus (k : κ)

namespace StoppingApp
open TaskSet

/-- What handing over the event of this place does to the tasks: only what is awaitable gets one. -/
def track (i : Nat) : PublishReply → TaskSet.Action Nat κ WorkEnding
  | .awaitable => .start i
  | .returned accepted => .direct i (.answered accepted)
  | .raised => .direct i .swallowed

/-- The call has waited for its tasks. -/
def hasShutDown (s : StoppingApp κ) (k : κ) : Bool :=
  match s.tasks.waits k with
  | .returned _ _ => true
  | _ => false

/-- Some work is handed over, which does this to the tasks. -/
def handOver (s : StoppingApp κ) (work : BackgroundWork) (a : TaskSet.Action Nat κ WorkEnding) :
    StoppingApp κ :=
  { s with handed := s.handed ++ [work], tasks := TaskSet.step s.tasks a }

def step (s : StoppingApp κ) : StoppingAction κ → StoppingApp κ
  | .publish event reply => s.handOver (.publication event) (track s.handed.length reply)
  | .miss workloadId => s.handOver (.refresh workloadId) (.start s.handed.length)
  | .finish i ending => { s with tasks := TaskSet.step s.tasks (.finish i ending) }
  | .callback i => { s with tasks := TaskSet.step s.tasks (.discard i) }
  | .stop k => { s with tasks := TaskSet.step s.tasks (.shutdown k) }
  | .gathered k => { s with tasks := TaskSet.step s.tasks (.gathered k) }
  | .cancel k => { s with tasks := TaskSet.step s.tasks (.abandon k) }
  | .stopBus k =>
      if s.hasShutDown k ∧ k ∉ s.busStopped then { s with busStopped := s.busStopped ++ [k] } else s

/-- The call began when `n` pieces of work had been handed over, and had waited when there were
`m`. -/
def Waited (s : StoppingApp κ) (k : κ) (n m : Nat) : Prop :=
  s.tasks.waits k = .returned (List.range n) (List.range m)

/-- What a run comes to. -/
structure Settles (s : StoppingApp κ) : Prop where
  /-- Nothing ends twice, and nothing that was not handed over. -/
  once : (s.tasks.ended.map Prod.fst).Nodup ∧ ∀ i, s.tasks.Ended i → i < s.handed.length
  /-- A call that has stopped the bus has waited for what was handed over before it began, unless
  this was handed over while another call was waiting. -/
  stopped : ∀ k ∈ s.busStopped, ∃ n m, s.Waited k n m ∧ ∀ i < n, s.tasks.Ended i ∨
    ∃ k' n' m', k' ≠ k ∧ s.Waited k' n' m' ∧ n' ≤ i ∧ i < m'
  /-- A call goes on once everything that was handed over before it began has ended: what comes later
  does not delay it. -/
  prompt : ∀ k before awaited, s.tasks.waits k = .waiting before awaited →
    (∃ n ≤ s.handed.length, before = List.range n) ∧
      ((∀ i ∈ before, s.tasks.Ended i) → (s.step (.gathered k)).hasShutDown k = true)
  /-- Nothing else is under way outside of the set. -/
  outside : ∀ i < s.handed.length, s.tasks.Ended i ∨ i ∈ s.tasks.tracked ∨
    ∃ k n m, s.Waited k n m ∧ n ≤ i ∧ i < m

omit [DecidableEq κ] in
theorem hasShutDown_of_waits {s : StoppingApp κ} {k : κ} {before upTo : List Nat}
    (h : s.tasks.waits k = .returned before upTo) : s.hasShutDown k = true := by
  rw [hasShutDown, h]

omit [DecidableEq κ] in
theorem waits_of_hasShutDown {s : StoppingApp κ} {k : κ} (h : s.hasShutDown k = true) :
    ∃ before upTo, s.tasks.waits k = .returned before upTo := by
  rw [hasShutDown] at h
  split at h
  · next before upTo hk => exact ⟨before, upTo, hk⟩
  · cases h

/-- The tasks are numbered by their work, and only a call that has waited stops the bus. -/
structure Numbered (s : StoppingApp κ) : Prop where
  sound : TaskSet.Sound s.tasks
  started : s.tasks.started = List.range s.handed.length
  stopped : ∀ k ∈ s.busStopped, ∃ before upTo, s.tasks.waits k = .returned before upTo

omit [DecidableEq κ] in
theorem numbered_start : Numbered ({} : StoppingApp κ) where
  sound := TaskSet.sound_start
  started := rfl
  stopped _ h := absurd h List.not_mem_nil

/-- A step of the tasks that starts those of the work handed over with it. -/
theorem Numbered.tasks {s : StoppingApp κ} (h : Numbered s) (work : List BackgroundWork)
    {a : TaskSet.Action Nat κ WorkEnding}
    (ha : (TaskSet.step s.tasks a).started = List.range (s.handed ++ work).length) :
    Numbered { s with handed := s.handed ++ work, tasks := TaskSet.step s.tasks a } where
  sound := h.sound.step a
  started := ha
  stopped k hk := by
    obtain ⟨before, upTo, hwaits⟩ := h.stopped k hk
    exact ⟨before, upTo, TaskSet.returned_step hwaits a⟩

theorem Numbered.tasks_of_none {s : StoppingApp κ} (h : Numbered s)
    {a : TaskSet.Action Nat κ WorkEnding} (ha : a.starts = none) :
    Numbered { s with tasks := TaskSet.step s.tasks a } := by
  have hstep := h.tasks [] (by
    rw [TaskSet.started_step, ha, List.append_nil]
    exact h.started)
  rwa [List.append_nil] at hstep

theorem Numbered.handOver {s : StoppingApp κ} (h : Numbered s) (work : BackgroundWork)
    {a : TaskSet.Action Nat κ WorkEnding} (ha : a.starts = some s.handed.length) :
    Numbered (s.handOver work a) := by
  refine h.tasks [work] ?_
  rw [TaskSet.started_step, ha]
  dsimp only
  rw [h.started, if_neg List.not_mem_range_self, List.length_append, List.length_singleton,
    List.range_succ]

omit [DecidableEq κ] in
theorem starts_track (i : Nat) (reply : PublishReply) :
    (track i reply : TaskSet.Action Nat κ WorkEnding).starts = some i := by
  cases reply <;> rfl

theorem Numbered.step {s : StoppingApp κ} (h : Numbered s) (a : StoppingAction κ) :
    Numbered (s.step a) := by
  cases a with
  | publish event reply => exact h.handOver (.publication event) (starts_track _ reply)
  | miss workloadId => exact h.handOver (.refresh workloadId) rfl
  | finish i ending => exact h.tasks_of_none rfl
  | callback i => exact h.tasks_of_none rfl
  | stop k => exact h.tasks_of_none rfl
  | gathered k => exact h.tasks_of_none rfl
  | cancel k => exact h.tasks_of_none rfl
  | stopBus k =>
    rw [StoppingApp.step]
    split
    · next hk =>
      refine ⟨h.sound, h.started, fun k' hk' => ?_⟩
      rcases List.mem_append.1 hk' with hold | hnew
      · exact h.stopped k' hold
      · obtain rfl := List.mem_singleton.1 hnew
        exact waits_of_hasShutDown hk.1
    · exact h

/-- What begins a list of numbers in order is one. -/
theorem eq_range_of_prefix {xs : List Nat} {l : Nat} (h : xs <+: List.range l) :
    xs = List.range xs.length := by
  have hle := h.length_le
  rw [List.length_range] at hle
  have htake := List.prefix_iff_eq_take.1 h
  rwa [List.take_range, Nat.min_eq_left hle] at htake

omit [DecidableEq κ] in
theorem Numbered.waited {s : StoppingApp κ} (h : Numbered s) {k : κ} {before upTo : List Nat}
    (hk : s.tasks.waits k = .returned before upTo) : s.Waited k before.length upTo.length := by
  have hfits := h.sound.waits k
  rw [hk] at hfits
  obtain ⟨⟨hbefore, hupTo⟩, -⟩ := hfits
  rw [h.started] at hupTo
  rw [Waited, hk, ← eq_range_of_prefix (hbefore.trans hupTo), ← eq_range_of_prefix hupTo]

omit [DecidableEq κ] in
/-- What was missed was handed over while a call was waiting. -/
theorem Numbered.missed {s : StoppingApp κ} (h : Numbered s) {i : Nat} (hi : s.tasks.Missed i) :
    ∃ k n m, s.Waited k n m ∧ n ≤ i ∧ i < m := by
  obtain ⟨k, before, upTo, hk, hupTo, hbefore⟩ := hi
  have hwaited := h.waited hk
  obtain ⟨hn, hm⟩ := Wait.returned.inj (hk.symm.trans hwaited)
  rw [hm, List.mem_range] at hupTo
  rw [hn, List.mem_range] at hbefore
  exact ⟨k, before.length, upTo.length, hwaited, not_lt.1 hbefore, hupTo⟩

theorem Numbered.settles {s : StoppingApp κ} (h : Numbered s) : Settles s where
  once := by
    refine ⟨h.sound.once.1, fun i hi => ?_⟩
    have hstarted := h.sound.once.2 i hi
    rwa [h.started, List.mem_range] at hstarted
  stopped k hk := by
    obtain ⟨before, upTo, hwaits⟩ := h.stopped k hk
    have hwaited := h.waited hwaits
    refine ⟨before.length, upTo.length, hwaited, fun i hi => ?_⟩
    have hfits := h.sound.waits k
    rw [hwaited] at hfits
    refine (hfits.2 i (List.mem_range.2 hi)).imp id fun hmissed => ?_
    obtain ⟨k', n', m', hk', hle, hlt⟩ := h.missed hmissed
    refine ⟨k', n', m', ?_, hk', hle, hlt⟩
    rintro rfl
    have hsame := congrArg List.length (Wait.returned.inj (hwaited.symm.trans hk')).1
    rw [List.length_range, List.length_range] at hsame
    omega
  prompt k before awaited hk := by
    have hfits := h.sound.waits k
    rw [hk] at hfits
    obtain ⟨hbegins, hawaited, -⟩ := hfits
    rw [h.started] at hbegins
    have hle := hbegins.length_le
    rw [List.length_range] at hle
    refine ⟨⟨before.length, hle, eq_range_of_prefix hbegins⟩, fun hall => ?_⟩
    rw [StoppingApp.step, TaskSet.step, hk]
    dsimp only
    rw [if_pos fun i hi => hall i (hawaited i hi)]
    exact hasShutDown_of_waits (Function.update_self ..)
  outside i hi := by
    have hstarted : i ∈ s.tasks.started := by rwa [h.started, List.mem_range]
    exact (h.sound.untracked i hstarted).imp id (Or.imp id h.missed)

/-- **Stopping settles what was handed over**, whatever the order in which work is handed over and
ends, and the application is stopped. -/
theorem stop_settles (actions : List (StoppingAction κ)) :
    Settles (Run.exec step ({} : StoppingApp κ) actions) :=
  Numbered.settles (Run.exec_invariant (fun _ a h => h.step a) numbered_start actions)

/-- Two stops, and an event that is handed over while the first one waits for a refresh. -/
def twoStops (e : DomainEvent) : List (StoppingAction Nat) :=
  [.miss "billing-api", .stop 0, .publish e .awaitable, .finish 0 (.answered true), .gathered 0,
    .stop 1, .stopBus 1]

/-- The second one stops the bus while that event is under way. -/
example (e : DomainEvent) : (Run.exec step {} (twoStops e)).busStopped = [1] ∧
    (Run.exec step {} (twoStops e)).handed = [.refresh "billing-api", .publication e] ∧
    (Run.exec step {} (twoStops e)).tasks.ended = [(0, .answered true)] :=
  ⟨rfl, rfl, rfl⟩

end StoppingApp
end ComputeIntelligence
