import ComputeIntelligence.KafkaConsumer
import ComputeIntelligence.OffsetLog

/-! # The consume loop

`_consume_loop` (`core/event_bus.py`) of any number of buses in one consumer group, over the
partitions of the topic.  `getmany` hands a bus records from its position on, which it handles one
after the other; a bus is started and started again (after a crash, or by `start`), and partitions
are assigned to it, from the committed offsets.  An exception that comes out of `_handle_message`
ends the loop of that bus, as does a handler that never ends.

A commit that raises may have taken effect at the broker all the same.  The brokers keep their
records: the retention of the topic is left out.
-/
namespace ComputeIntelligence
variable {ε : Type}

namespace KafkaConsumer

/-! ### Which messages come to a commit -/

/-- The offset that is committed after a message. -/
def commitEntry (m : KafkaMessage ε) : TopicPartition × Int := (m.partition, m.offset + 1)

/-- The message was handled, or its failure was answered: a commit comes next. -/
def reachesCommit (x : Exceptions ε) (a : Answers ε) (bus : KafkaConsumer ε)
    (m : KafkaMessage ε) : Bool :=
  bus.hasConsumer && match handled x bus m with
    | .ok () => true
    | .error .lost => false
    | .error (.raised exc) => match sendResult x a exc with
      | .ok () => true
      | .error _ => false

/-- What a message leads to commits this often. -/
def Commits (m : KafkaMessage ε) (n : Nat) (bus bus' : KafkaConsumer ε) : Prop :=
  bus'.committed = bus.committed ++ List.replicate n (commitEntry m)

theorem commits_zero {m : KafkaMessage ε} {bus bus' : KafkaConsumer ε}
    (h : bus'.committed = bus.committed) : Commits m 0 bus bus' := by
  rw [Commits, h, List.replicate_zero, List.append_nil]

theorem Commits.trans {m : KafkaMessage ε} {n k : Nat} {bus bus' bus'' : KafkaConsumer ε}
    (h : Commits m n bus bus') (h' : Commits m k bus' bus'') : Commits m (n + k) bus bus'' := by
  rw [Commits, h', h, List.append_assoc, List.replicate_append_replicate]

theorem answer_frames {α : Type} (a : Except ε α) :
    Eff.Frames KafkaConsumer.committed (answer a : ConsumerM ε α) :=
  Eff.frames_lift _

theorem logErrors_frames (x : Exceptions ε) (errors : List ε) :
    Eff.Frames KafkaConsumer.committed (logErrors x errors) := by
  induction errors with
  | nil => exact Eff.frames_pure ()
  | cons exc errors ih =>
    rw [logErrors]
    refine Eff.Frames.bind ?_ fun _ => (answer_frames _).bind fun _ => ih
    exact Eff.frames_modify fun _ => rfl

theorem dispatchEvent_frames (x : Exceptions ε) (event : DomainEvent) :
    Eff.Frames KafkaConsumer.committed (dispatchEvent x event) := by
  intro bus
  rw [dispatchEvent]
  refine ((Eff.frames_lift _).bind fun errors => (logErrors_frames x errors).bind fun _ => ?_) bus
  match errors with
  | [] => exact Eff.frames_pure ()
  | [first] => exact answer_frames _
  | _ :: _ :: _ => exact answer_frames _

theorem commitOffset_commits (x : Exceptions ε) (commit : Except ε Unit) (m : KafkaMessage ε)
    (bus : KafkaConsumer ε) : ∃ n, Commits m n bus (commitOffset x commit m bus).2 := by
  by_cases h : bus.hasConsumer = true
  · have hrun : commitOffset x commit m bus = (answer commit >>= fun _ => Eff.modify fun bus =>
        { bus with committed := bus.committed ++ [(m.partition, m.offset + 1)] }) bus :=
      Eff.bind_of_ok (assertConsumer_of x h) _
    rw [hrun]
    cases commit with
    | error e => exact ⟨0, commits_zero rfl⟩
    | ok _ => exact ⟨1, rfl⟩
  · have hrun : commitOffset x commit m bus = (.error (.raised x.assertionError), bus) :=
      Eff.bind_of_error (assertConsumer_of_not x h) _
    rw [hrun]
    exact ⟨0, commits_zero rfl⟩

theorem updatePartitionLag_frames (highwater : Except ε (Option Int)) (m : KafkaMessage ε) :
    Eff.Frames KafkaConsumer.committed (updatePartitionLag highwater m) := by
  intro bus
  unfold updatePartitionLag
  split
  · match highwater with
    | .error e => rfl
    | .ok none => rfl
    | .ok (some mark) => rfl
  · rfl

/-- A commit, and then what does not commit. -/
theorem commits_bind (x : Exceptions ε) (commit : Except ε Unit) (m : KafkaMessage ε)
    {f : Unit → ConsumerM ε Unit} (hf : ∀ u, Eff.Frames KafkaConsumer.committed (f u))
    (bus : KafkaConsumer ε) : ∃ n, Commits m n bus ((commitOffset x commit m >>= f) bus).2 := by
  obtain ⟨n, hn⟩ := commitOffset_commits x commit m bus
  refine ⟨n, ?_⟩
  match hrun : commitOffset x commit m bus with
  | (.ok u, bus') =>
    rw [hrun] at hn
    rw [Eff.bind_of_ok hrun, Commits, hf u bus']
    exact hn
  | (.error e, bus') =>
    rw [hrun] at hn
    rw [Eff.bind_of_error hrun]
    exact hn

/-- The `try` commits only a message that was handled. -/
theorem process_commits (x : Exceptions ε) (a : Answers ε) (m : KafkaMessage ε)
    (bus : KafkaConsumer ε) :
    ∃ n, Commits m n bus (process x a m bus).2 ∧ (handled x bus m ≠ .ok () → n = 0) := by
  cases hd : m.decoded with
  | error e =>
    refine ⟨0, commits_zero ?_, fun _ => rfl⟩
    unfold process
    rw [hd]
    rfl
  | ok event =>
    have hhandled : handled x bus m =
        (((validateDomainEvent event).mapError x.schemaError).mapError Stop.raised >>= fun _ =>
          (dispatchEvent x event bus).1) := by
      unfold handled
      rw [hd, (dispatchEvent_spec x event bus).1]
      rfl
    have hprocess : process x a m bus =
        (answer ((validateDomainEvent event).mapError x.schemaError) >>= fun _ => do
          dispatchEvent x event
          commitOffset x a.commit m
          updatePartitionLag a.highwater m) bus := by
      unfold process
      rw [hd]
      rfl
    have hframe := dispatchEvent_frames x event bus
    cases hv : validateDomainEvent event with
    | error err =>
      rw [hv] at hprocess
      exact ⟨0, commits_zero (congrArg (·.2.committed) hprocess), fun _ => rfl⟩
    | ok _ =>
      rw [hv] at hhandled hprocess
      match hrun : dispatchEvent x event bus with
      | (.error stop, bus') =>
        rw [hrun] at hframe
        have hend : process x a m bus = (.error stop, bus') :=
          hprocess.trans (Eff.bind_of_error hrun _)
        rw [hend]
        exact ⟨0, commits_zero hframe, fun _ => rfl⟩
      | (.ok _, bus') =>
        rw [hrun] at hframe hhandled
        obtain ⟨n, hn⟩ := commits_bind x a.commit m
          (fun _ => updatePartitionLag_frames a.highwater m) bus'
        have hend : process x a m bus =
            (do commitOffset x a.commit m; updatePartitionLag a.highwater m :
              ConsumerM ε Unit) bus' := hprocess.trans (Eff.bind_of_ok hrun _)
        rw [hend]
        refine ⟨n, ?_, fun hne => absurd hhandled hne⟩
        have hframe' : bus'.committed = bus.committed := hframe
        rw [Commits, ← hframe']
        exact hn

theorem sendGuarded_frames (x : Exceptions ε) (a : Answers ε) (m : KafkaMessage ε) (exc : ε) :
    Eff.Frames KafkaConsumer.committed (sendGuarded x a m exc) := by
  intro bus
  unfold sendGuarded publishDlq
  cases hs : x.str exc with
  | error e => rfl
  | ok text =>
    match hsend : a.send with
    | none => rfl
    | some (.ok _) => rfl
    | some (.error dlqExc) =>
      change (((answer (x.str dlqExc) >>= fun _ => pure ()) : ConsumerM ε Unit) _).2.committed = _
      cases x.str dlqExc with
      | error e => rfl
      | ok t => rfl

/-- The recovery commits only after it has answered the failure. -/
theorem recover_commits (x : Exceptions ε) (a : Answers ε) (m : KafkaMessage ε) (exc : ε)
    (bus : KafkaConsumer ε) :
    ∃ n, Commits m n bus (recover x a m exc bus).2 ∧ (sendResult x a exc ≠ .ok () → n = 0) := by
  obtain ⟨bus₁, hrun, -, -⟩ :=
    sendGuarded_spec x a m exc { bus with dispatchErrors := bus.dispatchErrors + 1 }
  have hframe : bus₁.committed = bus.committed := by
    have h := sendGuarded_frames x a m exc { bus with dispatchErrors := bus.dispatchErrors + 1 }
    rw [hrun] at h
    exact h
  have hrecover : recover x a m exc bus =
      (sendGuarded x a m exc >>= fun _ => commitOffset x a.recommit m)
        { bus with dispatchErrors := bus.dispatchErrors + 1 } := rfl
  cases hr : sendResult x a exc with
  | error e =>
    rw [hr] at hrun
    rw [hrecover, Eff.bind_of_error hrun]
    exact ⟨0, commits_zero hframe, fun _ => rfl⟩
  | ok _ =>
    rw [hr] at hrun
    obtain ⟨n, hn⟩ := commitOffset_commits x a.recommit m bus₁
    rw [hrecover, Eff.bind_of_ok hrun]
    refine ⟨n, ?_, fun hne => absurd rfl hne⟩
    rw [Commits, ← hframe]
    exact hn

theorem recover_result (x : Exceptions ε) (a : Answers ε) (m : KafkaMessage ε) (exc : ε)
    {bus : KafkaConsumer ε} (h : (recover x a m exc bus).1 = .ok ()) :
    sendResult x a exc = .ok () := by
  obtain ⟨bus₁, hrun, -, -⟩ :=
    sendGuarded_spec x a m exc { bus with dispatchErrors := bus.dispatchErrors + 1 }
  have hrecover : recover x a m exc bus =
      (sendGuarded x a m exc >>= fun _ => commitOffset x a.recommit m)
        { bus with dispatchErrors := bus.dispatchErrors + 1 } := rfl
  cases hr : sendResult x a exc with
  | ok _ => rfl
  | error e =>
    rw [hr] at hrun
    rw [hrecover, Eff.bind_of_error hrun] at h
    cases h

/-- **A message is committed, and the loop goes on after it, only if it was handled or its failure
was answered.** -/
theorem handleMessage_commits (x : Exceptions ε) (a : Answers ε) (m : KafkaMessage ε)
    (bus : KafkaConsumer ε) :
    (∃ n, Commits m n bus (handleMessage x a m bus).2 ∧
      (reachesCommit x a bus m = false → n = 0)) ∧
      ((handleMessage x a m bus).1 = .ok () → reachesCommit x a bus m = true) := by
  by_cases hconsumer : bus.hasConsumer = true
  · have hhandle : handleMessage x a m bus =
        exceptException (process x a m) (recover x a m) bus :=
      Eff.bind_of_ok (assertConsumer_of x hconsumer) _
    obtain ⟨n, hn, hzero⟩ := process_commits x a m bus
    rw [hhandle]
    rcases process_spec x a m bus with ⟨stop, bus₁, hhandled, hprocess, hkept⟩ |
      ⟨bus₁, hhandled, hkept, -⟩
    · obtain rfl : n = 0 := hzero (by rw [hhandled]; exact nofun)
      rw [hprocess] at hn
      cases stop with
      | lost =>
        rw [exceptException_of_lost hprocess]
        exact ⟨⟨0, hn, fun _ => rfl⟩, nofun⟩
      | raised exc =>
        -- the failure is answered before the second commit
        rw [exceptException_of_raised hprocess]
        obtain ⟨k, hk, hkzero⟩ := recover_commits x a m exc bus₁
        have hreach : reachesCommit x a bus m = true ↔ sendResult x a exc = .ok () := by
          rw [reachesCommit, hconsumer, hhandled]
          cases hs : sendResult x a exc with
          | ok _ => simp [hs]
          | error e => simp [hs]
        refine ⟨⟨k, ?_, fun hfalse => hkzero fun hok => ?_⟩, fun hok => ?_⟩
        · have hall := hn.trans hk
          rwa [Nat.zero_add] at hall
        · rw [hreach.2 hok] at hfalse
          cases hfalse
        · exact hreach.2 (recover_result x a m exc hok)
    · -- it was handled; the recovery from a later failure may commit once more
      have hreach : reachesCommit x a bus m = true := by
        rw [reachesCommit, hconsumer, hhandled]
        rfl
      refine ⟨?_, fun _ => hreach⟩
      match hrun : process x a m bus with
      | (.ok _, bus₂) =>
        rw [hrun] at hn
        rw [exceptException_of_ok hrun]
        exact ⟨n, hn, fun hfalse => by rw [hreach] at hfalse; cases hfalse⟩
      | (.error .lost, bus₂) =>
        rw [hrun] at hn
        rw [exceptException_of_lost hrun]
        exact ⟨n, hn, fun hfalse => by rw [hreach] at hfalse; cases hfalse⟩
      | (.error (.raised exc), bus₂) =>
        rw [hrun] at hn
        rw [exceptException_of_raised hrun]
        obtain ⟨k, hk, -⟩ := recover_commits x a m exc bus₂
        exact ⟨n + k, hn.trans hk, fun hfalse => by rw [hreach] at hfalse; cases hfalse⟩
  · have hrun : handleMessage x a m bus = (.error (.raised x.assertionError), bus) :=
      Eff.bind_of_error (assertConsumer_of_not x hconsumer) _
    rw [hrun]
    exact ⟨⟨0, commits_zero rfl, fun _ => rfl⟩, nofun⟩

end KafkaConsumer

/-! ### A consumer group -/

open KafkaConsumer

/-- A bus with its consumer: where it fetches next, what `getmany` handed it and is not handled
yet, and whether its consumer task runs. -/
structure LoopMember (ε : Type) where
  bus : KafkaConsumer ε
  position : TopicPartition → Int
  pending : List (KafkaMessage ε)
  running : Bool

/-- One call of `_handle_message`. -/
structure Attempt (ε : Type) where
  bus : KafkaConsumer ε
  answers : Answers ε
  message : KafkaMessage ε

/-- The partitions with their records and ends, the offsets that the brokers keep for the group,
its members, and the calls of `_handle_message` so far. -/
structure ConsumerGroup (ε : Type) where
  log : TopicPartition → List (KafkaMessage ε)
  logEnd : TopicPartition → Int
  committed : TopicPartition → Int
  members : Nat → LoopMember ε
  attempts : List (Attempt ε)

/-- What happens to a group.  `landed` says that a commit of the message that raised took effect
all the same; `handlers` are those of the bus at that time, as they behave then. -/
inductive GroupAction (ε : Type) where
  | produce (message : KafkaMessage ε)
  | start (member : Nat) (bus : KafkaConsumer ε)
  | assign (member : Nat) (partition : TopicPartition)
  | getmany (member : Nat) (counts : List (TopicPartition × Nat))
  | handle (member : Nat) (handlers : PyDict String (List (DomainEvent → HandlerOutcome ε)))
      (answers : Answers ε) (landed : Bool)

namespace ConsumerGroup

/-- The records of a partition that `getmany` hands out from a position on. -/
def polled (s : ConsumerGroup ε) (position : TopicPartition → Int)
    (want : TopicPartition × Nat) : List (KafkaMessage ε) :=
  ((s.log want.1).filter fun m => position want.1 ≤ m.offset).take want.2

/-- `getmany`, for one partition after the other. -/
def getmany (s : ConsumerGroup ε) (member : LoopMember ε) :
    List (TopicPartition × Nat) → LoopMember ε
  | [] => member
  | want :: counts =>
      let messages := s.polled member.position want
      s.getmany { member with
        position := match messages.getLast? with
          | some m => Function.update member.position want.1 (m.offset + 1)
          | none => member.position
        pending := member.pending ++ messages } counts

/-- The offsets after these commits. -/
def applied (committed : TopicPartition → Int) (commits : List (TopicPartition × Int)) :
    TopicPartition → Int :=
  commits.foldl (fun c e => Function.update c e.1 e.2) committed

/-- The commits of one call of `_handle_message` that take effect. -/
def effective (x : Exceptions ε) (a : Answers ε) (bus : KafkaConsumer ε) (m : KafkaMessage ε)
    (landed : Bool) : List (TopicPartition × Int) :=
  (KafkaConsumer.handleMessage x a m bus).2.committed.drop bus.committed.length ++
    if landed && reachesCommit x a bus m then [commitEntry m] else []

/-- A member after `_handle_message`. -/
def handledBy (x : Exceptions ε) (member : LoopMember ε) (bus : KafkaConsumer ε)
    (answers : Answers ε) (m : KafkaMessage ε) (rest : List (KafkaMessage ε)) : LoopMember ε :=
  match KafkaConsumer.handleMessage x answers m bus with
  | (.ok _, bus') => { member with bus := bus', pending := rest }
  | (.error _, bus') => { member with bus := bus', pending := [], running := false }

/-- The group after a member has handled its next message. -/
def handle (x : Exceptions ε) (s : ConsumerGroup ε) (c : Nat) (bus : KafkaConsumer ε)
    (answers : Answers ε) (landed : Bool) (m : KafkaMessage ε) (rest : List (KafkaMessage ε)) :
    ConsumerGroup ε :=
  { s with
    committed := applied s.committed (effective x answers bus m landed)
    members := Function.update s.members c (handledBy x (s.members c) bus answers m rest)
    attempts := s.attempts ++ [⟨bus, answers, m⟩] }

/-- One step of the group. -/
def step (x : Exceptions ε) (s : ConsumerGroup ε) : GroupAction ε → ConsumerGroup ε
  | .produce m =>
      if s.logEnd m.partition ≤ m.offset then
        { s with
          log := Function.update s.log m.partition (s.log m.partition ++ [m])
          logEnd := Function.update s.logEnd m.partition (m.offset + 1) }
      else s
  | .start c bus =>
      { s with members := Function.update s.members c ⟨bus, s.committed, [], true⟩ }
  | .assign c p =>
      { s with
        members := Function.update s.members c
          { s.members c with
            position := Function.update (s.members c).position p (s.committed p) } }
  | .getmany c counts =>
      if (s.members c).running && (s.members c).pending.isEmpty then
        { s with members := Function.update s.members c (s.getmany (s.members c) counts) }
      else s
  | .handle c handlers answers landed =>
      match (s.members c).pending with
      | [] => s
      | m :: rest =>
          if (s.members c).running then
            s.handle x c { (s.members c).bus with handlers } answers landed m rest
          else s

/-! ### The group as readers of logs -/

/-- The reader that a member is. -/
def reader (member : LoopMember ε) : OffsetLog.Reader TopicPartition (KafkaMessage ε) :=
  ⟨member.position, member.pending, member.running⟩

/-- The messages of the calls that came to a commit. -/
def settled (x : Exceptions ε) (attempts : List (Attempt ε)) : List (KafkaMessage ε) :=
  (attempts.filter fun t => reachesCommit x t.answers t.bus t.message).map Attempt.message

/-- The readers of logs that a group is. -/
def readers (x : Exceptions ε) (s : ConsumerGroup ε) :
    OffsetLog.Group TopicPartition (KafkaMessage ε) where
  log := s.log
  logEnd := s.logEnd
  committed := s.committed
  readers c := reader (s.members c)
  processed := settled x s.attempts

/-- How a call of `_handle_message` ends, as work on a record. -/
def outcome (x : Exceptions ε) (a : Answers ε) (bus : KafkaConsumer ε) (m : KafkaMessage ε)
    (landed : Bool) : OffsetLog.Outcome :=
  if reachesCommit x a bus m then
    .processed (effective x a bus m landed ≠ [])
      (match (KafkaConsumer.handleMessage x a m bus).1 with
      | .ok _ => true
      | .error _ => false)
  else .unprocessed

/-- The step of the readers that a step of the group is. -/
def action (x : Exceptions ε) (s : ConsumerGroup ε) :
    GroupAction ε → OffsetLog.Action TopicPartition (KafkaMessage ε)
  | .produce m => .append m
  | .start c _ => .restart c
  | .assign c p => .assign c p
  | .getmany c counts => .poll c counts
  | .handle c handlers answers landed =>
      .work c (match (s.members c).pending with
        | [] => .unprocessed
        | m :: _ => outcome x answers { (s.members c).bus with handlers } m landed)

theorem reader_getmany (s : ConsumerGroup ε) (member : LoopMember ε)
    (counts : List (TopicPartition × Nat)) :
    reader (s.getmany member counts) =
      counts.foldl (OffsetLog.fetch KafkaMessage.offset s.log) (reader member) := by
  induction counts generalizing member with
  | nil => rfl
  | cons want counts ih =>
    rw [getmany, List.foldl_cons, ih]
    have hbatch : s.polled member.position want =
        OffsetLog.batch KafkaMessage.offset s.log (reader member).position want := rfl
    simp only [hbatch]
    cases hlast : (OffsetLog.batch KafkaMessage.offset s.log (reader member).position want).getLast?
      with
    | none => simp only [OffsetLog.fetch, OffsetLog.beyond, hlast]; rfl
    | some l => simp only [OffsetLog.fetch, OffsetLog.beyond, hlast]; rfl

theorem readers_update (members : Nat → LoopMember ε) (c : Nat) (member : LoopMember ε) :
    (fun c' => reader (Function.update members c member c')) =
      Function.update (fun c' => reader (members c')) c (reader member) :=
  Function.comp_update reader members c member

/-- Every commit of a message is of the offset behind it. -/
theorem eq_of_mem_effective {x : Exceptions ε} {a : Answers ε} {bus : KafkaConsumer ε}
    {m : KafkaMessage ε} {landed : Bool} {e : TopicPartition × Int}
    (h : e ∈ effective x a bus m landed) : e = commitEntry m := by
  obtain ⟨⟨n, hn, -⟩, -⟩ := handleMessage_commits x a m bus
  rw [effective, hn, List.drop_left] at h
  rcases List.mem_append.1 h with hcall | hlanded
  · exact List.eq_of_mem_replicate hcall
  · split at hlanded
    · exact List.mem_singleton.1 hlanded
    · cases hlanded

/-- A message that does not come to a commit has no effect on the offsets. -/
theorem effective_of_not_reaches {x : Exceptions ε} {a : Answers ε} {bus : KafkaConsumer ε}
    {m : KafkaMessage ε} {landed : Bool} (h : reachesCommit x a bus m = false) :
    effective x a bus m landed = [] := by
  obtain ⟨⟨n, hn, hzero⟩, -⟩ := handleMessage_commits x a m bus
  rw [effective, hn, List.drop_left, hzero h, h]
  simp

theorem applied_eq (committed : TopicPartition → Int) {m : KafkaMessage ε}
    {commits : List (TopicPartition × Int)} (h : ∀ e ∈ commits, e = commitEntry m)
    (hne : commits ≠ []) :
    applied committed commits = Function.update committed m.partition (m.offset + 1) := by
  induction commits generalizing committed with
  | nil => exact absurd rfl hne
  | cons e commits ih =>
    obtain rfl := h e List.mem_cons_self
    by_cases hempty : commits = []
    · subst hempty
      rfl
    · have hrest := ih (Function.update committed m.partition (m.offset + 1))
        (fun e he => h e (List.mem_cons_of_mem _ he)) hempty
      rw [Function.update_idem] at hrest
      exact hrest

/-- The offsets after a message are those after the work on the record. -/
theorem applied_effective (x : Exceptions ε) (a : Answers ε) (bus : KafkaConsumer ε)
    (m : KafkaMessage ε) (landed : Bool) (committed : TopicPartition → Int) :
    applied committed (effective x a bus m landed) =
      OffsetLog.commitAfter KafkaMessage.partition KafkaMessage.offset committed m
        (outcome x a bus m landed) := by
  cases hreach : reachesCommit x a bus m with
  | false =>
    rw [effective_of_not_reaches hreach, outcome, hreach]
    rfl
  | true =>
    rw [outcome, hreach, if_pos rfl]
    by_cases hne : effective x a bus m landed = []
    · simp only [hne, ne_eq, not_true, decide_false]
      rfl
    · rw [applied_eq committed (fun e he => eq_of_mem_effective he) hne]
      simp only [ne_eq, hne, not_false_iff, decide_true]
      rfl

theorem settled_append (x : Exceptions ε) (attempts : List (Attempt ε)) (a : Answers ε)
    (bus : KafkaConsumer ε) (m : KafkaMessage ε) (landed : Bool) :
    settled x (attempts ++ [⟨bus, a, m⟩]) =
      OffsetLog.processedAfter (settled x attempts) m (outcome x a bus m landed) := by
  rw [settled, List.filter_append, List.map_append, outcome]
  cases hreach : reachesCommit x a bus m with
  | false => simp [hreach, OffsetLog.processedAfter, settled]
  | true => simp [hreach, OffsetLog.processedAfter, settled]

/-- The member after a message is the reader after the work on the record. -/
theorem reader_handledBy (x : Exceptions ε) (member : LoopMember ε) (bus : KafkaConsumer ε)
    (a : Answers ε) (m : KafkaMessage ε) (rest : List (KafkaMessage ε)) (landed : Bool) :
    reader (handledBy x member bus a m rest) =
      (reader member).worked rest (outcome x a bus m landed) := by
  obtain ⟨-, hok⟩ := handleMessage_commits x a m bus
  rw [outcome, handledBy]
  match hres : KafkaConsumer.handleMessage x a m bus with
  | (.ok u, bus') =>
    rw [hok (congrArg Prod.fst hres)]
    rfl
  | (.error e, bus') =>
    cases reachesCommit x a bus m with
    | true => rfl
    | false => rfl

/-- **A step of the group is a step of the readers.** -/
theorem readers_step (x : Exceptions ε) (s : ConsumerGroup ε) (a : GroupAction ε) :
    readers x (step x s a) =
      OffsetLog.step KafkaMessage.partition KafkaMessage.offset (readers x s) (action x s a) := by
  cases a with
  | produce m =>
    by_cases h : s.logEnd m.partition ≤ m.offset
    · exact (congrArg (readers x) (if_pos h)).trans (if_pos h).symm
    · exact (congrArg (readers x) (if_neg h)).trans (if_neg h).symm
  | start c bus =>
    exact OffsetLog.Group.ext rfl rfl rfl (readers_update s.members c _) rfl
  | assign c p =>
    exact OffsetLog.Group.ext rfl rfl rfl (readers_update s.members c _) rfl
  | getmany c counts =>
    by_cases h : ((s.members c).running && (s.members c).pending.isEmpty) = true
    · refine (congrArg (readers x) (if_pos h)).trans (Eq.trans ?_ (if_pos h).symm)
      refine OffsetLog.Group.ext rfl rfl rfl ?_ rfl
      exact (readers_update s.members c _).trans (by rw [reader_getmany]; rfl)
    · exact (congrArg (readers x) (if_neg h)).trans (if_neg h).symm
  | handle c handlers answers landed =>
    rw [step, action, OffsetLog.step]
    have hreader : ((readers x s).readers c).pending = (s.members c).pending := rfl
    rw [hreader]
    cases hp : (s.members c).pending with
    | nil => rfl
    | cons m rest =>
      by_cases hrun : (s.members c).running = true
      · refine (congrArg (readers x) (if_pos hrun)).trans (Eq.trans ?_ (if_pos hrun).symm)
        refine OffsetLog.Group.ext rfl rfl ?_ ?_ ?_
        · exact applied_effective x answers _ m landed s.committed
        · exact (readers_update s.members c _).trans
            (by rw [reader_handledBy x _ _ answers m rest landed]; rfl)
        · exact settled_append x s.attempts answers _ m landed
      · exact (congrArg (readers x) (if_neg hrun)).trans (if_neg hrun).symm

theorem readers_exec (x : Exceptions ε) (s : ConsumerGroup ε) (actions : List (GroupAction ε)) :
    ∃ steps, readers x (Run.exec (step x) s actions) =
      Run.exec (OffsetLog.step KafkaMessage.partition KafkaMessage.offset) (readers x s) steps := by
  induction actions generalizing s with
  | nil => exact ⟨[], rfl⟩
  | cons a actions ih =>
    obtain ⟨steps, hsteps⟩ := ih (step x s a)
    refine ⟨action x s a :: steps, ?_⟩
    rw [Run.exec_cons, Run.exec_cons, ← readers_step]
    exact hsteps

/-! ### At least once -/

/-- The message was decoded and is valid, and every handler of its event ended without an
`Exception`. -/
def Dispatched (bus : KafkaConsumer ε) (m : KafkaMessage ε) : Prop :=
  ∃ event, m.decoded = .ok event ∧ validateDomainEvent event = .ok () ∧
    ∀ handler ∈ bus.handlersOf event, handler event = .returned ∨ handler event = .cancelled

/-- The envelope of the message was handed to the producer of the dead-letter topic. -/
def DeadLettered (x : Exceptions ε) (t : Attempt ε) : Prop :=
  ∃ text, (KafkaConsumer.handleMessage x t.answers t.message t.bus).2.dlq =
    t.bus.dlq ++ [envelopeOf t.answers t.message text]

/-- `gather` does not return while a handler does not end. -/
theorem gather_of_lost {outcomes : List (HandlerOutcome ε)} (h : .lost ∈ outcomes) :
    gather outcomes = .error .lost :=
  if_pos (List.any_eq_true.2 ⟨.lost, h, rfl⟩)

theorem dispatched_of_handled {x : Exceptions ε} {bus : KafkaConsumer ε} {m : KafkaMessage ε}
    (h : handled x bus m = .ok ()) : Dispatched bus m := by
  have hfailed := not_failed_of_handled_ok h
  cases hd : m.decoded with
  | error e => exact absurd (by rw [Failed, hd]; trivial) hfailed
  | ok event =>
    rw [Failed, hd] at hfailed
    push Not at hfailed
    refine ⟨event, hd, ?_, fun handler hmem => ?_⟩
    · match hv : validateDomainEvent event with
      | .ok () => rfl
      | .error err => exact absurd hv (hfailed.1 err)
    · match hout : handler event with
      | .returned => exact .inl rfl
      | .cancelled => exact .inr rfl
      | .raised e => exact absurd hout (hfailed.2 handler hmem e)
      | .lost =>
        rw [handled_of_decoded hd, gather_of_lost (List.mem_map.2 ⟨handler, hmem, hout⟩)] at h
        cases hv : validateDomainEvent event with
        | ok _ => rw [hv] at h; cases h
        | error err => rw [hv] at h; cases h

/-- A failure that is answered leaves an envelope, if there is a producer. -/
theorem deadLettered_of_answered {x : Exceptions ε} {a : Answers ε} {bus : KafkaConsumer ε}
    {m : KafkaMessage ε} {exc : ε} (hconsumer : bus.hasConsumer = true)
    (hhandled : handled x bus m = .error (.raised exc)) (hsend : sendResult x a exc = .ok ())
    (hproducer : a.send ≠ none) : DeadLettered x ⟨bus, a, m⟩ := by
  have hhandle : KafkaConsumer.handleMessage x a m bus =
      exceptException (process x a m) (recover x a m) bus :=
    Eff.bind_of_ok (assertConsumer_of x hconsumer) _
  rcases process_spec x a m bus with ⟨stop, bus₁, hstop, hprocess, hkept⟩ | ⟨-, hok, -⟩
  · obtain rfl : stop = .raised exc := Except.error.inj (hstop.symm.trans hhandled)
    obtain ⟨bus₂, hrun, hconsumer₂, -, hdlq⟩ :=
      sendGuarded_spec x a m exc { bus₁ with dispatchErrors := bus₁.dispatchErrors + 1 }
    obtain ⟨text, htext⟩ := ((sendResult_eq_ok x a exc).1 hsend).1
    have hconsumer₁ : bus₁.hasConsumer = true := (congrArg Prod.fst hkept).trans hconsumer
    obtain ⟨bus₃, hkept₃, hcommit⟩ :=
      commitOffset_spec x a.recommit m (hconsumer₂.trans hconsumer₁)
    have hrecover : recover x a m exc bus₁ = (a.recommit.mapError .raised, bus₃) := by
      rw [hsend] at hrun
      exact (Eff.bind_of_ok hrun _).trans hcommit
    refine ⟨text, ?_⟩
    change (KafkaConsumer.handleMessage x a m bus).2.dlq = bus.dlq ++ [envelopeOf a m text]
    rw [hhandle, exceptException_of_raised hprocess, hrecover]
    have hdlq₁ : bus₁.dlq = bus.dlq := congrArg Prod.snd hkept
    have hdlq₃ : bus₃.dlq = bus₂.dlq := congrArg Prod.snd hkept₃
    exact hdlq₃.trans ((hdlq hproducer text htext).trans (by rw [← hdlq₁]))
  · rw [hok] at hhandled
    cases hhandled

/-- A call of `_handle_message` that comes to a commit has dispatched the message, or left an
envelope, or there was no producer to leave it with. -/
theorem answered_of_reaches {x : Exceptions ε} {t : Attempt ε}
    (h : reachesCommit x t.answers t.bus t.message = true) :
    Dispatched t.bus t.message ∨ DeadLettered x t ∨ t.answers.send = none := by
  rw [reachesCommit, Bool.and_eq_true] at h
  obtain ⟨hconsumer, h⟩ := h
  match hh : handled x t.bus t.message with
  | .ok () => exact .inl (dispatched_of_handled hh)
  | .error .lost => rw [hh] at h; cases h
  | .error (.raised exc) =>
    rw [hh] at h
    match hs : sendResult x t.answers exc with
    | .error e => simp only [hs] at h; cases h
    | .ok () =>
      by_cases hproducer : t.answers.send = none
      · exact .inr (.inr hproducer)
      · exact .inr (.inl (deadLettered_of_answered hconsumer hh hs hproducer))

/-- A group at its beginning: the records of each partition in order, no member runs yet, and the
committed offsets are at the beginning of the partitions. -/
structure Fresh (s : ConsumerGroup ε) : Prop where
  ordered : OffsetLog.Ordered KafkaMessage.partition KafkaMessage.offset s.log s.logEnd
  inside : ∀ p, s.committed p ≤ s.logEnd p
  earliest : ∀ p, ∀ m ∈ s.log p, s.committed p ≤ m.offset
  stopped : ∀ c, (s.members c).running = false

theorem Fresh.readers (x : Exceptions ε) {s : ConsumerGroup ε} (h : s.Fresh) :
    OffsetLog.Fresh KafkaMessage.partition KafkaMessage.offset (readers x s) :=
  ⟨h.ordered, h.inside, h.earliest, h.stopped⟩

/-- **At least once.**  However the members of a group start, crash, poll, handle and commit,
every record below a committed offset was handled by some call of `_handle_message` that
dispatched it to all its handlers, or handed its envelope to the dead-letter producer; it is lost
only where the bus had no such producer. -/
theorem at_least_once (x : Exceptions ε) {s : ConsumerGroup ε} (h : s.Fresh)
    (actions : List (GroupAction ε)) {p : TopicPartition} {m : KafkaMessage ε}
    (hm : m ∈ (Run.exec (step x) s actions).log p)
    (hlt : m.offset < (Run.exec (step x) s actions).committed p) :
    ∃ t ∈ (Run.exec (step x) s actions).attempts, t.message = m ∧
      (Dispatched t.bus m ∨ DeadLettered x t ∨ t.answers.send = none) := by
  obtain ⟨steps, hsteps⟩ := readers_exec x s actions
  have hcovers := OffsetLog.covers_exec (h.readers x) steps
  rw [← hsteps] at hcovers
  obtain ⟨t, ht, rfl⟩ := List.mem_map.1 (hcovers.covered p m hm hlt)
  obtain ⟨hmem, hreach⟩ := List.mem_filter.1 ht
  exact ⟨t, hmem, rfl, answered_of_reaches hreach⟩

/-- A topic without records, and nobody reading it yet. -/
def emptyGroup : ConsumerGroup String where
  log _ := []
  logEnd _ := 0
  committed _ := 0
  members _ := ⟨idle, fun _ => 0, [], false⟩
  attempts := []

theorem emptyGroup_fresh : emptyGroup.Fresh where
  ordered := ⟨fun _ => List.Pairwise.nil, fun _ _ hm => absurd hm List.not_mem_nil,
    fun _ _ hm => absurd hm List.not_mem_nil⟩
  inside _ := le_rfl
  earliest _ _ hm := absurd hm List.not_mem_nil
  stopped _ := rfl

/-- A bus starts, handles a record and dies of a commit that raises but takes effect; the bus
that starts after it has nothing left to do. -/
def revokedRun : List (GroupAction String) :=
  [.produce calibrationMessage, .start 0 idle,
    .getmany 0 [(calibrationMessage.partition, 256)],
    .handle 0 PyDict.empty revoked true, .start 1 idle]

theorem at_least_once_revokedRun :
    ∃ t ∈ (Run.exec (step plainExceptions) emptyGroup revokedRun).attempts,
      t.message = calibrationMessage ∧ (Dispatched t.bus calibrationMessage ∨
        DeadLettered plainExceptions t ∨ t.answers.send = none) :=
  @at_least_once _ plainExceptions emptyGroup emptyGroup_fresh revokedRun
    calibrationMessage.partition calibrationMessage (List.mem_singleton.2 rfl)
    (by decide +kernel)

end ConsumerGroup
end ComputeIntelligence
