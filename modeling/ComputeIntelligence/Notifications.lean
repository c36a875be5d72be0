import ComputeIntelligence.CappedHistory
import ComputeIntelligence.Events
import ComputeIntelligence.GuardedRuns
import ComputeIntelligence.HreMethods

/-! # The notification hub

`NotificationHub` (`integrations/notifications.py`), called by any number of threads at once.
`send` reads the clock once and works through its channels: `_deliver` posts to a URL or simulates
it, and `_record` forms the id of a delivery and puts it into the history.  The id is formed before
the lock is taken, so the history is measured in two steps, which may come between the append and
the cut of another thread: getting hold of the list, and taking its length.

A run is any list of such steps of any calls; a step that is not the next one of its call changes
nothing.  `clear` is left out, and so are the bodies that are posted: what comes of posting one is
an input of the step.
-/
namespace ComputeIntelligence

/-! ### Deliveries -/

/-- `NotificationMessage`, without what only the posted bodies hold. -/
structure NotificationMessage where
  title : String
  detail : String
  severity : String := "info"

/-- `NotificationDelivery`. -/
structure NotificationDelivery where
  deliveryId : String
  channel : String
  target : String
  status : String
  message : String
  sentAt : AwareDateTime
deriving DecidableEq

/-- The arguments of `_record`, but for the timestamp. -/
structure RecordArgs where
  channel : String
  target : String
  status : String
  message : String
deriving DecidableEq

/-- `int(timestamp.timestamp() * 1000)`: the seconds are a double, and so is their product. -/
def deliveryMillis (timestamp : AwareDateTime) : Int :=
  let seconds := (Double.nearest (timestamp.instant / 10 ^ 6)).value
  let millis := (Double.nearest (seconds * 1000)).value
  if 0 ≤ millis then millis.floor else millis.ceil

/-- The `delivery_id` that is formed when the history has this length. -/
def deliveryId (timestamp : AwareDateTime) (length : Nat) : String :=
  "delivery-" ++ toString (deliveryMillis timestamp) ++ "-" ++ toString (length + 1)

/-- The delivery that `_record` forms. -/
def RecordArgs.delivery (args : RecordArgs) (timestamp : AwareDateTime) (length : Nat) :
    NotificationDelivery :=
  { deliveryId := ComputeIntelligence.deliveryId timestamp length
    channel := args.channel
    target := args.target
    status := args.status
    message := args.message
    sentAt := timestamp }

/-- `send`'s arguments; no recipients are an empty list. -/
structure SendRequest where
  message : NotificationMessage
  channels : List String
  slackWebhookUrl : String := ""
  webhookUrl : String := ""
  emailTo : List String := []

/-- What comes of posting a body: a response, a `URLError`, or another exception, which `_deliver`
does not catch. -/
inductive PostOutcome where
  | response (status : Int)
  | urlError (reason : String)
  | raised

/-- A call of `_deliver` or of `_record` in the loop of `send`. -/
inductive Dispatch where
  | deliver (channel target : String)
  | record (args : RecordArgs)

/-- The text of `a or b`. -/
def textOr (a b : String) : String := if a = "" then b else a

/-- What the loop of `send` does for one channel; `upper` is Unicode's `str.upper`. -/
def SendRequest.dispatches (upper : String → String) (r : SendRequest) (channel : String) :
    List Dispatch :=
  if channel = "slack" then
    [.deliver "slack" (textOr (PyText.strip r.slackWebhookUrl) "slack://simulated")]
  else if channel = "webhook" then
    [.deliver "webhook" (textOr (PyText.strip r.webhookUrl) "webhook://simulated")]
  else if channel = "email" then
    if r.emailTo = [] then
      [.record ⟨"email", "email://missing-recipient", "failed",
        "email_to must contain at least one recipient"⟩]
    else
      r.emailTo.map fun recipient => .record ⟨"email", recipient, "simulated",
        "[" ++ upper r.message.severity ++ "] " ++ r.message.title ++ ": " ++ r.message.detail⟩
  else []

/-- The loop of `send`, over the normalized channels. -/
def SendRequest.plan (upper : String → String) (r : SendRequest) : List Dispatch :=
  (r.channels.map fun channel => PyText.lower (PyText.strip channel)).flatMap (r.dispatches upper)

/-- `_deliver` up to its call of `_record`; `none` where an exception gets out. -/
def Dispatch.args (liveNetwork : Bool) (outcome : PostOutcome) : Dispatch → Option RecordArgs
  | .record args => some args
  | .deliver channel target =>
      if !liveNetwork || !PyText.startsWith "http" target then
        some ⟨channel, target, "simulated", "delivery simulated"⟩
      else match outcome with
        | .response status =>
            some ⟨channel, target, if 200 ≤ status ∧ status < 300 then "sent" else "failed",
              "http_status=" ++ toString status⟩
        | .urlError reason => some ⟨channel, target, "failed", reason⟩
        | .raised => none

/-! ### Calls -/

/-- A delivery, with how many had been recorded when the history was measured for its id, and
whether the list that was measured was overfull. -/
structure FormedDelivery where
  delivery : NotificationDelivery
  recorded : Nat
  overfull : Bool
deriving DecidableEq

/-- Where a `send` call is: between two dispatches, or in `_record`, before it has got hold of the
history, before it has measured it, before it has the lock, and with the lock. -/
inductive SendPhase where
  | dispatching
  | recording (args : RecordArgs)
  | measuring (args : RecordArgs) (list : Nat)
  | formed (d : FormedDelivery)
  | appended (d : FormedDelivery)

/-- A `send` call. -/
structure SendCall where
  timestamp : AwareDateTime
  remaining : List Dispatch
  phase : SendPhase := .dispatching
  dispatched : List FormedDelivery := []

/-- A hub and the calls on it: its history, the call that has its lock, the calls that have not
ended, and the deliveries that `send` has returned, oldest first. -/
structure HubState where
  history : CappedHistory NotificationDelivery := {}
  holder : Option Nat := none
  calls : Nat → Option SendCall := fun _ => none
  returned : List FormedDelivery := []

/-- A step: a new call, at a reading of the clock, or the next step of a call. -/
inductive HubStep where
  | send (i : Nat) (request : SendRequest) (now : Instant)
  | deliver (i : Nat) (outcome : PostOutcome)
  | load (i : Nat)
  | measure (i : Nat)
  | append (i : Nat)
  | trim (i : Nat)
  | finish (i : Nat)

/-- The call that a step is of. -/
def HubStep.of : HubStep → Nat
  | .send i _ _ | .deliver i _ | .load i | .measure i | .append i | .trim i | .finish i => i

namespace HubState

/-- The call goes on as `c`. -/
def put (s : HubState) (i : Nat) (c : SendCall) : HubState :=
  { s with calls := Function.update s.calls i (some c) }

/-- The call has ended. -/
def leave (s : HubState) (i : Nat) : HubState :=
  { s with calls := Function.update s.calls i none }

/-- The delivery that is formed from a list of the history. -/
def form (s : HubState) (args : RecordArgs) (timestamp : AwareDateTime) (list : Nat) :
    FormedDelivery :=
  { delivery := args.delivery timestamp (s.history.lists list).length
    recorded := s.history.recorded.length
    overfull := decide (1000 < (s.history.lists list).length) }

/-- `self._deliveries.append(delivery)`, with the lock. -/
def appendDelivery (s : HubState) (i : Nat) (c : SendCall) (d : FormedDelivery) : HubState :=
  { s.put i { c with phase := .appended d } with
    history := s.history.append d.delivery
    holder := some i }

/-- `if len(self._deliveries) > 1000: self._deliveries = self._deliveries[-1000:]`, and `_record`
returns. -/
def trimHistory (s : HubState) (i : Nat) (c : SendCall) (d : FormedDelivery) : HubState :=
  { s.put i { c with phase := .dispatching, dispatched := c.dispatched ++ [d] } with
    history := s.history.cut 1000
    holder := none }

/-- `return dispatched`. -/
def finishSend (s : HubState) (i : Nat) (c : SendCall) : HubState :=
  { s.leave i with returned := s.returned ++ c.dispatched }

/-- One step of a call that has not ended. -/
def goOn (liveNetwork : Bool) (s : HubState) (c : SendCall) : HubStep → HubState
  | .send _ _ _ => s
  | .deliver i outcome =>
      match c.phase, c.remaining with
      | .dispatching, d :: rest =>
          match d.args liveNetwork outcome with
          | some args => s.put i { c with remaining := rest, phase := .recording args }
          | none => s.leave i
      | _, _ => s
  | .load i =>
      match c.phase with
      | .recording args => s.put i { c with phase := .measuring args s.history.current }
      | _ => s
  | .measure i =>
      match c.phase with
      | .measuring args list => s.put i { c with phase := .formed (s.form args c.timestamp list) }
      | _ => s
  | .append i =>
      match c.phase, s.holder with
      | .formed d, none => s.appendDelivery i c d
      | _, _ => s
  | .trim i =>
      match c.phase with
      | .appended d => s.trimHistory i c d
      | _ => s
  | .finish i =>
      match c.phase, c.remaining with
      | .dispatching, [] => s.finishSend i c
      | _, _ => s

/-- One step. -/
def step (upper : String → String) (liveNetwork : Bool) (s : HubState) (a : HubStep) : HubState :=
  match s.calls a.of with
  | some c => s.goOn liveNetwork c a
  | none =>
      match a with
      | .send i request now => s.put i { timestamp := .utc now, remaining := request.plan upper }
      | _ => s

/-- `list_deliveries`, which waits for the lock. -/
def listDeliveries (s : HubState) (limit : Int) : List NotificationDelivery :=
  if limit ≤ 0 then [] else s.history.items.rtake limit.toNat

end HubState

/-! ### What is kept of a call -/

/-- The id says when its history was measured. -/
def FormedDelivery.Numbered (d : FormedDelivery) : Prop :=
  d.delivery.deliveryId =
    deliveryId d.delivery.sentAt (CappedHistory.measure 1000 d.recorded d.overfull)

/-- The delivery that a call in `_record` has formed. -/
def SendPhase.delivery? : SendPhase → Option FormedDelivery
  | .formed d | .appended d => some d
  | _ => none

/-- What is kept of a call: the list that it is about to measure is or was the history, it holds
the lock between its append and its cut, and its deliveries are numbered. -/
structure CallKept (current : Nat) (holder : Option Nat) (i : Nat) (c : SendCall) : Prop where
  loaded : ∀ args list, c.phase = .measuring args list → list ≤ current
  holds : ∀ d, c.phase = .appended d → holder = some i
  forming : ∀ d ∈ c.phase.delivery?, d.Numbered
  dispatched : ∀ d ∈ c.dispatched, d.Numbered

/-- A call that is about to measure nothing and has formed nothing. -/
theorem CallKept.of_no_delivery {current i : Nat} {holder : Option Nat} {c : SendCall}
    (hmeasuring : ∀ args list, c.phase ≠ .measuring args list) (hnone : c.phase.delivery? = none)
    (hdispatched : ∀ d ∈ c.dispatched, d.Numbered) : CallKept current holder i c where
  loaded args list hphase := absurd hphase (hmeasuring args list)
  holds d hphase := by
    rw [hphase] at hnone
    cases hnone
  forming d hd := by
    rw [hnone] at hd
    cases hd
  dispatched := hdispatched

theorem CallKept.mono {i current current' : Nat} {holder holder' : Option Nat} {c : SendCall}
    (h : CallKept current holder i c) (hcurrent : current ≤ current')
    (hholder : holder = some i → holder' = some i) : CallKept current' holder' i c where
  loaded args list hphase := (h.loaded args list hphase).trans hcurrent
  holds d hphase := hholder (h.holds d hphase)
  forming := h.forming
  dispatched := h.dispatched

namespace HubState

/-! ### What a step can do -/

variable {upper : String → String} {liveNetwork : Bool} {s s' : HubState} {i : Nat}

/-- What a step can do, with what the call found. -/
inductive Took (upper : String → String) (s : HubState) : HubState → Prop
  | nothing : Took upper s s
  | sent {i : Nat} (request : SendRequest) (now : Instant) (hnew : s.calls i = none) :
      Took upper s (s.put i { timestamp := .utc now, remaining := request.plan upper })
  | decided {i : Nat} {c : SendCall} (args : RecordArgs) (rest : List Dispatch)
      (hc : s.calls i = some c) :
      Took upper s (s.put i { c with remaining := rest, phase := .recording args })
  | raised {i : Nat} {c : SendCall} (hc : s.calls i = some c) : Took upper s (s.leave i)
  | loaded {i : Nat} {c : SendCall} {args : RecordArgs} (hc : s.calls i = some c) :
      Took upper s (s.put i { c with phase := .measuring args s.history.current })
  | measured {i : Nat} {c : SendCall} {args : RecordArgs} {list : Nat} (hc : s.calls i = some c)
      (hphase : c.phase = .measuring args list) :
      Took upper s (s.put i { c with phase := .formed (s.form args c.timestamp list) })
  | appended {i : Nat} {c : SendCall} {d : FormedDelivery} (hc : s.calls i = some c)
      (hphase : c.phase = .formed d) (hfree : s.holder = none) :
      Took upper s (s.appendDelivery i c d)
  | trimmed {i : Nat} {c : SendCall} {d : FormedDelivery} (hc : s.calls i = some c)
      (hphase : c.phase = .appended d) : Took upper s (s.trimHistory i c d)
  | finished {i : Nat} {c : SendCall} (hc : s.calls i = some c) :
      Took upper s (s.finishSend i c)

/-- The next step of a call is one of these. -/
theorem took_goOn {a : HubStep} {c : SendCall} (hc : s.calls a.of = some c) :
    Took upper s (s.goOn liveNetwork c a) := by
  cases a with
  | send i request now => exact .nothing
  | deliver i outcome =>
    simp only [goOn]
    split
    · split
      · exact .decided _ _ hc
      · exact .raised hc
    · exact .nothing
  | load i =>
    simp only [goOn]
    split
    · exact .loaded hc
    · exact .nothing
  | measure i =>
    simp only [goOn]
    split
    · rename_i hphase
      exact .measured hc hphase
    · exact .nothing
  | append i =>
    simp only [goOn]
    split
    · rename_i hphase hfree
      exact .appended hc hphase hfree
    · exact .nothing
  | trim i =>
    simp only [goOn]
    split
    · rename_i hphase
      exact .trimmed hc hphase
    · exact .nothing
  | finish i =>
    simp only [goOn]
    split
    · exact .finished hc
    · exact .nothing

/-- Every step is one of these. -/
theorem took_step (s : HubState) (a : HubStep) : Took upper s (step upper liveNetwork s a) := by
  cases hcalls : s.calls a.of with
  | some c =>
    simp only [step, hcalls]
    exact took_goOn hcalls
  | none =>
    simp only [step, hcalls]
    cases a with
    | send i request now => exact .sent request now hcalls
    | _ => exact .nothing

/-! ### What every run keeps -/

/-- What is kept of a hub. -/
structure Sound (s : HubState) : Prop where
  kept : s.history.Kept 1000
  locked : s.history.pending = s.holder.isSome
  calls : ∀ i c, s.calls i = some c → CallKept s.history.current s.holder i c
  returned : ∀ d ∈ s.returned, d.Numbered

theorem sound_init : Sound {} where
  kept := CappedHistory.kept_empty
  locked := rfl
  calls _ _ hc := by cases hc
  returned _ hd := absurd hd List.not_mem_nil

/-- A step of one call, which takes the lock from no other. -/
theorem Sound.update {o : Option SendCall} (hs : Sound s)
    (hcalls : s'.calls = Function.update s.calls i o) (hkept : s'.history.Kept 1000)
    (hlocked : s'.history.pending = s'.holder.isSome)
    (hcurrent : s.history.current ≤ s'.history.current)
    (hholder : ∀ j ≠ i, s.holder = some j → s'.holder = some j)
    (hcall : ∀ c, o = some c → CallKept s'.history.current s'.holder i c)
    (hreturned : ∀ d ∈ s'.returned, d.Numbered) : Sound s' where
  kept := hkept
  locked := hlocked
  calls j c hc := by
    rw [hcalls] at hc
    by_cases hji : j = i
    · rw [hji, Function.update_self] at hc
      rw [hji]
      exact hcall c hc
    · rw [Function.update_of_ne hji] at hc
      exact (hs.calls j c hc).mono hcurrent (hholder j hji)
  returned := hreturned

/-- A step of one call that leaves the history alone. -/
theorem Sound.put (hs : Sound s) {c : SendCall}
    (hcall : CallKept s.history.current s.holder i c) : Sound (s.put i c) :=
  hs.update rfl hs.kept hs.locked le_rfl (fun _ _ h => h)
    (fun _ hc => Option.some.inj hc ▸ hcall) hs.returned

/-- The delivery that is formed from a list that is or was the history is numbered. -/
theorem Sound.numbered_form (hs : Sound s) (args : RecordArgs) (timestamp : AwareDateTime)
    {list : Nat} (hlist : list ≤ s.history.current) : (s.form args timestamp list).Numbered :=
  congrArg (deliveryId timestamp) (hs.kept.length_lists hlist)

theorem Sound.appendDelivery (hs : Sound s) {c : SendCall} {d : FormedDelivery}
    (hcall : CallKept s.history.current s.holder i c) (hphase : c.phase = .formed d)
    (hfree : s.holder = none) : Sound (s.appendDelivery i c d) := by
  have hcalls : (s.appendDelivery i c d).calls =
      Function.update s.calls i (some { c with phase := .appended d }) := rfl
  have hidle : s.history.pending = false := by rw [hs.locked, hfree]; rfl
  apply hs.update hcalls (hs.kept.append hidle _) rfl le_rfl
  · intro j _ hj
    rw [hfree] at hj
    cases hj
  · rintro _ ⟨⟩
    exact
      { loaded := fun _ _ h => by cases h
        holds := fun _ _ => rfl
        forming := fun _ h => by
          cases h
          exact hcall.forming _ (by rw [hphase]; rfl)
        dispatched := hcall.dispatched }
  · exact hs.returned

theorem Sound.trimHistory (hs : Sound s) {c : SendCall} {d : FormedDelivery}
    (hcall : CallKept s.history.current s.holder i c) (hphase : c.phase = .appended d) :
    Sound (s.trimHistory i c d) := by
  have hcalls : (s.trimHistory i c d).calls = Function.update s.calls i
      (some { c with phase := .dispatching, dispatched := c.dispatched ++ [d] }) := rfl
  have hholder : s.holder = some i := hcall.holds d hphase
  have hpending : s.history.pending = true := by rw [hs.locked, hholder]; rfl
  apply hs.update hcalls (hs.kept.cut hpending) CappedHistory.pending_cut
    CappedHistory.current_le_cut
  · intro j hji hj
    rw [hholder] at hj
    exact absurd (Option.some.inj hj).symm hji
  · rintro _ ⟨⟩
    refine .of_no_delivery (fun _ _ h => by cases h) rfl ?_
    intro e he
    rcases List.mem_append.1 he with hold | hnew
    · exact hcall.dispatched e hold
    · obtain rfl := List.mem_singleton.1 hnew
      exact hcall.forming _ (by rw [hphase]; rfl)
  · exact hs.returned

theorem Sound.finishSend (hs : Sound s) {c : SendCall}
    (hcall : CallKept s.history.current s.holder i c) : Sound (s.finishSend i c) := by
  have hcalls : (s.finishSend i c).calls = Function.update s.calls i none := rfl
  apply hs.update hcalls hs.kept hs.locked le_rfl (fun _ _ h => h)
  · rintro _ ⟨⟩
  · intro d hd
    rcases List.mem_append.1 hd with hold | hnew
    · exact hs.returned d hold
    · exact hcall.dispatched d hnew

/-- **One step** keeps a hub sound. -/
theorem Took.sound (h : Took upper s s') (hs : Sound s) : Sound s' := by
  cases h with
  | nothing => exact hs
  | sent request now hnew =>
    apply hs.put
    exact .of_no_delivery (fun _ _ h => by cases h) rfl (fun _ h => absurd h List.not_mem_nil)
  | decided args rest hc =>
    apply hs.put
    exact .of_no_delivery (fun _ _ h => by cases h) rfl (hs.calls _ _ hc).dispatched
  | raised hc =>
    exact hs.update rfl hs.kept hs.locked le_rfl (fun _ _ h => h) (fun _ h => by cases h)
      hs.returned
  | loaded hc =>
    exact hs.put
      { loaded := fun _ _ h => by
          cases h
          exact le_rfl
        holds := fun _ h => by cases h
        forming := fun _ h => by cases h
        dispatched := (hs.calls _ _ hc).dispatched }
  | measured hc hphase =>
    have hcall := hs.calls _ _ hc
    exact hs.put
      { loaded := fun _ _ h => by cases h
        holds := fun _ h => by cases h
        forming := fun _ h => by
          cases h
          exact hs.numbered_form _ _ (hcall.loaded _ _ hphase)
        dispatched := hcall.dispatched }
  | appended hc hphase hfree => exact hs.appendDelivery (hs.calls _ _ hc) hphase hfree
  | trimmed hc hphase => exact hs.trimHistory (hs.calls _ _ hc) hphase
  | finished hc => exact hs.finishSend (hs.calls _ _ hc)

/-- **Every run is sound.** -/
theorem sound_exec (upper : String → String) (liveNetwork : Bool) (steps : List HubStep) :
    Sound (Run.exec (step upper liveNetwork) {} steps) :=
  Run.exec_invariant (fun s a hs => (took_step s a).sound hs) sound_init steps

/-- **The audit list**: whenever the lock is free, `list_deliveries` gives the last deliveries
ever recorded, of a thousand at most. -/
theorem Sound.listDeliveries_eq (hs : Sound s) (hfree : s.holder = none) (limit : Int) :
    s.listDeliveries limit = s.history.recorded.rtake (min limit.toNat 1000) := by
  have hsettled : s.history.pending = false := by rw [hs.locked, hfree]; rfl
  rw [listDeliveries, hs.kept.settled hsettled]
  split
  · rename_i hneg
    rw [Int.toNat_of_nonpos hneg, Nat.zero_min]
    exact (List.rtake_zero _).symm
  · exact Window.rtake_rtake _ _ _

end HubState
end ComputeIntelligence
