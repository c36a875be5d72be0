import ComputeIntelligence.Notifications
import Mathlib.Data.List.Nodup
import Mathlib.Data.List.Range

/-! # Are the ids of deliveries unique?

A delivery id is the millisecond at which its `send` began and one more than the length of the
history, which is measured without the lock and stops growing at a thousand.
-/

/-! ### Decimal texts -/

namespace PyText

theorem dash_not_mem_toString (n : Nat) : '-' ∉ (toString n).toList := by
  intro h
  rw [Nat.toString_eq_repr, Nat.toList_repr] at h
  exact absurd (Nat.isDigit_of_mem_toDigits (by decide) (by decide) h) (by decide)

theorem toString_nat_inj {m n : Nat} (h : toString m = toString n) : m = n := by
  rw [Nat.toString_eq_repr, Nat.toString_eq_repr] at h
  have hdigits : Nat.toDigits 10 m = Nat.toDigits 10 n := by
    rw [← Nat.toList_repr, h, Nat.toList_repr]
  rw [← @Nat.ofDigitChars_ten_toDigits m, hdigits, Nat.ofDigitChars_ten_toDigits]

/-- The text of a negative integer begins with its sign, that of no other does. -/
theorem toString_int_inj {a b : Int} (h : toString a = toString b) : a = b := by
  have hsign : ∀ m n : Nat, toString m ≠ "-" ++ toString (n + 1) := by
    intro m n heq
    apply dash_not_mem_toString m
    rw [heq, String.toList_append]
    exact List.mem_append_left _ (List.mem_singleton_self _)
  cases a with
  | ofNat m =>
    cases b with
    | ofNat n => exact congrArg Int.ofNat (toString_nat_inj h)
    | negSucc n => exact absurd h (hsign m n)
  | negSucc m =>
    cases b with
    | ofNat n => exact absurd h.symm (hsign n m)
    | negSucc n =>
      have hsucc : m + 1 = n + 1 := toString_nat_inj (String.append_right_inj _ |>.1 h)
      exact congrArg Int.negSucc (Nat.succ.inj hsucc)

/-- What follows the last dash is the number. -/
theorem append_dash_toString_inj {a b : String} {m n : Nat}
    (h : a ++ "-" ++ toString m = b ++ "-" ++ toString n) : a = b ∧ m = n := by
  have hreverse := congrArg (fun s => s.toList.reverse) h
  simp only [String.toList_append, List.reverse_append, List.append_assoc] at hreverse
  obtain ⟨hnumber, hfront⟩ := append_sep_inj (c := '-')
    (fun hm => dash_not_mem_toString m (List.mem_reverse.1 hm))
    (fun hn => dash_not_mem_toString n (List.mem_reverse.1 hn)) hreverse
  constructor
  · exact String.toList_injective (List.reverse_injective hfront)
  · exact toString_nat_inj (String.toList_injective (List.reverse_injective hnumber))

end PyText

namespace ComputeIntelligence

/-- An id gives away the millisecond and the length. -/
theorem deliveryId_inj {t u : AwareDateTime} {m n : Nat} :
    deliveryId t m = deliveryId u n ↔ deliveryMillis t = deliveryMillis u ∧ m = n := by
  constructor
  · intro h
    obtain ⟨hfront, hlength⟩ := PyText.append_dash_toString_inj h
    exact ⟨PyText.toString_int_inj (String.append_right_inj _ |>.1 hfront), Nat.succ.inj hlength⟩
  · rintro ⟨hmillis, rfl⟩
    rw [deliveryId, deliveryId, hmillis]

/-! ### When two ids differ -/

/-- Two deliveries get different ids: their `send`s began in different milliseconds, or exactly one
was numbered by an overfull list, or neither was, and the history was growing between them. -/
def FormedDelivery.Apart (a b : FormedDelivery) : Prop :=
  deliveryMillis a.delivery.sentAt = deliveryMillis b.delivery.sentAt →
    a.overfull ≠ b.overfull ∨
      (a.overfull = false ∧ b.overfull = false ∧ a.recorded ≠ b.recorded ∧
        min a.recorded b.recorded < 1000)

theorem FormedDelivery.Numbered.ne_iff_apart {a b : FormedDelivery} (ha : a.Numbered)
    (hb : b.Numbered) : a.delivery.deliveryId ≠ b.delivery.deliveryId ↔ a.Apart b := by
  rw [ha, hb, ne_eq, deliveryId_inj, not_and]
  exact imp_congr_right fun _ => CappedHistory.measure_ne_iff

namespace HubState
variable {upper : String → String} {liveNetwork : Bool} {s s' : HubState} {i : Nat}

/-- The ids of the deliveries that `send` has returned. -/
def returnedIds (s : HubState) : List String := s.returned.map (·.delivery.deliveryId)

theorem Sound.nodup_iff (hs : Sound s) :
    s.returnedIds.Nodup ↔ s.returned.Pairwise FormedDelivery.Apart := by
  rw [returnedIds, List.Nodup, List.pairwise_map]
  exact List.Pairwise.iff_of_mem fun ha hb =>
    (hs.returned _ ha).ne_iff_apart (hs.returned _ hb)

/-! ### Over a run -/

/-- What was returned stays returned. -/
theorem Took.returned_grows (h : Took upper s s') : s.returned <+: s'.returned := by
  cases h with
  | finished => exact List.prefix_append _ _
  | _ => exact List.prefix_rfl

theorem returned_grows_exec (s : HubState) (steps : List HubStep) :
    s.returned <+: (Run.exec (step upper liveNetwork) s steps).returned := by
  induction steps generalizing s with
  | nil => exact List.prefix_rfl
  | cons a steps ih => exact (took_step s a).returned_grows.trans (ih _)

/-- **When delivery ids are unique.**  The ids of all that `send` has returned are distinct
throughout a run exactly when every two of the deliveries are apart. -/
theorem ids_distinct_iff_apart (upper : String → String) (liveNetwork : Bool)
    (steps : List HubStep) :
    Run.Always (step upper liveNetwork) (fun s => s.returnedIds.Nodup) {} steps ↔
      (Run.exec (step upper liveNetwork) {} steps).returned.Pairwise FormedDelivery.Apart := by
  constructor
  · intro h
    exact (sound_exec upper liveNetwork steps).nodup_iff.1 (h steps List.prefix_rfl)
  · rintro h pre ⟨rest, rfl⟩
    rw [Run.exec_append] at h
    rw [(sound_exec upper liveNetwork pre).nodup_iff]
    exact h.sublist (returned_grows_exec _ rest).sublist

/-! ### A `send` on its own -/

/-- `_deliver` or `_record`, with no other step in between. -/
def recordSteps (i : Nat) (outcome : PostOutcome) : List HubStep :=
  [.deliver i outcome, .load i, .measure i, .append i, .trim i]

/-- A `send`, with no other step in between. -/
def sendSteps (i : Nat) (request : SendRequest) (now : Instant) (outcomes : List PostOutcome) :
    List HubStep :=
  .send i request now :: (outcomes.flatMap (recordSteps i) ++ [.finish i])

/-- The hub after a `_record` on its own. -/
def afterRecord (s : HubState) (i : Nat) (c : SendCall) (args : RecordArgs)
    (rest : List Dispatch) : HubState :=
  let d := s.form args c.timestamp s.history.current
  { s.put i { c with remaining := rest, phase := .dispatching, dispatched := c.dispatched ++ [d] }
    with history := (s.history.append d.delivery).cut 1000 }

theorem calls_put (s : HubState) (i : Nat) (c : SendCall) : (s.put i c).calls i = some c :=
  Function.update_self ..

theorem put_put (s : HubState) (i : Nat) (c c' : SendCall) : (s.put i c).put i c' = s.put i c' := by
  rw [put, put, put, Function.update_idem]

theorem calls_appendDelivery (s : HubState) (i : Nat) (c : SendCall) (d : FormedDelivery) :
    (s.appendDelivery i c d).calls i = some { c with phase := .appended d } :=
  Function.update_self ..

theorem put_appendDelivery (s : HubState) (i : Nat) (c c' : SendCall) (d : FormedDelivery) :
    (s.put i c).appendDelivery i c' d = s.appendDelivery i c' d := by
  rw [appendDelivery, put_put]
  rfl

/-- The lock is free again, and the call has one more delivery. -/
theorem appendDelivery_trimHistory (hfree : s.holder = none) (i : Nat) (c c' : SendCall)
    (d : FormedDelivery) :
    (s.appendDelivery i c d).trimHistory i c' d =
      { s.put i { c' with phase := .dispatching, dispatched := c'.dispatched ++ [d] } with
        history := (s.history.append d.delivery).cut 1000 } := by
  rw [trimHistory, appendDelivery, put, put, put, Function.update_idem, hfree]

section Steps
variable {c : SendCall} {args : RecordArgs} {d : FormedDelivery} (hc : s.calls i = some c)
include hc

theorem step_deliver {x : Dispatch} {rest : List Dispatch} {outcome : PostOutcome}
    (hphase : c.phase = .dispatching) (hremaining : c.remaining = x :: rest)
    (hargs : x.args liveNetwork outcome = some args) :
    step upper liveNetwork s (.deliver i outcome) =
      s.put i { c with remaining := rest, phase := .recording args } := by
  simp only [step, HubStep.of, hc, goOn, hphase, hremaining, hargs]

theorem step_load (hphase : c.phase = .recording args) :
    step upper liveNetwork s (.load i) =
      s.put i { c with phase := .measuring args s.history.current } := by
  simp only [step, HubStep.of, hc, goOn, hphase]

theorem step_measure {list : Nat} (hphase : c.phase = .measuring args list) :
    step upper liveNetwork s (.measure i) =
      s.put i { c with phase := .formed (s.form args c.timestamp list) } := by
  simp only [step, HubStep.of, hc, goOn, hphase]

theorem step_append (hphase : c.phase = .formed d) (hfree : s.holder = none) :
    step upper liveNetwork s (.append i) = s.appendDelivery i c d := by
  simp only [step, HubStep.of, hc, goOn, hphase, hfree]

theorem step_trim (hphase : c.phase = .appended d) :
    step upper liveNetwork s (.trim i) = s.trimHistory i c d := by
  simp only [step, HubStep.of, hc, goOn, hphase]

theorem step_finish (hphase : c.phase = .dispatching) (hremaining : c.remaining = []) :
    step upper liveNetwork s (.finish i) = s.finishSend i c := by
  simp only [step, HubStep.of, hc, goOn, hphase, hremaining]

end Steps

theorem exec_recordSteps {c : SendCall} {x : Dispatch} {rest : List Dispatch} {args : RecordArgs}
    {outcome : PostOutcome} (hc : s.calls i = some c) (hphase : c.phase = .dispatching)
    (hremaining : c.remaining = x :: rest) (hargs : x.args liveNetwork outcome = some args)
    (hfree : s.holder = none) :
    Run.exec (step upper liveNetwork) s (recordSteps i outcome) =
      s.afterRecord i c args rest := by
  -- the steps overwrite one call, so only the last one shows
  rw [recordSteps, Run.exec_cons, step_deliver hc hphase hremaining hargs, Run.exec_cons,
    step_load (calls_put ..) rfl, put_put, Run.exec_cons, step_measure (calls_put ..) rfl, put_put,
    Run.exec_cons, step_append (calls_put ..) rfl hfree, put_appendDelivery, Run.exec_cons,
    step_trim (calls_appendDelivery ..) rfl, appendDelivery_trimHistory hfree, Run.exec_nil]
  rfl

/-- Nobody else is between an append and its cut, so the history has its last thousand. -/
theorem Sound.form_id (hs : Sound s) (hfree : s.holder = none) (args : RecordArgs)
    (timestamp : AwareDateTime) :
    (s.form args timestamp s.history.current).delivery.deliveryId =
      deliveryId timestamp (min s.history.recorded.length 1000) := by
  have hsettled : s.history.pending = false := by rw [hs.locked, hfree]; rfl
  have hlength : s.history.items.length = min s.history.recorded.length 1000 := by
    rw [hs.kept.settled hsettled, Window.length_rtake, min_comm]
  exact congrArg (deliveryId timestamp) hlength

theorem length_recorded_afterRecord (s : HubState) (i : Nat) (c : SendCall) (args : RecordArgs)
    (rest : List Dispatch) :
    (s.afterRecord i c args rest).history.recorded.length = s.history.recorded.length + 1 := by
  show ((CappedHistory.append _ _).cut 1000).recorded.length = _
  rw [CappedHistory.recorded_cut, CappedHistory.recorded_append, List.length_append,
    List.length_singleton]

/-- The ids of `count` deliveries that are recorded one after the other, from the `first` on. -/
def lateIds (timestamp : AwareDateTime) (first count : Nat) : List String :=
  (List.range' first count).map fun k => deliveryId timestamp (min k 1000)

/-- The loop of a `send` on its own. -/
theorem exec_dispatches {plan : List Dispatch} {outcomes : List PostOutcome}
    (h : List.Forall₂ (fun x o => (x.args liveNetwork o).isSome) plan outcomes) {c : SendCall}
    (hs : Sound s) (hfree : s.holder = none) (hc : s.calls i = some c)
    (hphase : c.phase = .dispatching) (hremaining : c.remaining = plan) :
    ∃ s' c', Run.exec (step upper liveNetwork) s (outcomes.flatMap (recordSteps i)) = s' ∧
      s'.calls i = some c' ∧ c'.phase = .dispatching ∧ c'.remaining = [] ∧
      s'.returned = s.returned ∧
      c'.dispatched.map (·.delivery.deliveryId) = c.dispatched.map (·.delivery.deliveryId) ++
        lateIds c.timestamp s.history.recorded.length plan.length := by
  induction h generalizing s c with
  | nil => exact ⟨s, c, rfl, hc, hphase, hremaining, rfl, (List.append_nil _).symm⟩
  | @cons x outcome plan outcomes hargs _ ih =>
    obtain ⟨args, hargs⟩ := Option.isSome_iff_exists.1 hargs
    have hexec : Run.exec (step upper liveNetwork) s (recordSteps i outcome) =
        s.afterRecord i c args plan := exec_recordSteps hc hphase hremaining hargs hfree
    have hs' : Sound (s.afterRecord i c args plan) := by
      rw [← hexec]
      exact Run.exec_invariant (fun s a hs => (took_step s a).sound hs) hs _
    -- the rest of the loop goes on from the hub that the first record leaves
    obtain ⟨s', c', hrun, hcall, hdone, hnone, hreturned, hids⟩ :=
      ih hs' hfree (calls_put ..) rfl rfl
    refine ⟨s', c', ?_, hcall, hdone, hnone, hreturned, ?_⟩
    · rw [List.flatMap_cons, Run.exec_append, hexec, hrun]
    · rw [hids, length_recorded_afterRecord, List.map_append, List.map_singleton,
        hs.form_id hfree, List.append_assoc]
      rfl

/-- **A `send` on its own**: its deliveries are numbered on from those recorded before, up to the
thousand and first. -/
theorem returnedIds_sendSteps (hs : Sound s) (hfree : s.holder = none) (hnew : s.calls i = none)
    {request : SendRequest} {outcomes : List PostOutcome} (now : Instant)
    (h : List.Forall₂ (fun x o => (x.args liveNetwork o).isSome) (request.plan upper) outcomes) :
    (Run.exec (step upper liveNetwork) s (sendSteps i request now outcomes)).returnedIds =
      s.returnedIds ++
        lateIds (.utc now) s.history.recorded.length (request.plan upper).length := by
  have hstart : step upper liveNetwork s (.send i request now) =
      s.put i { timestamp := .utc now, remaining := request.plan upper } := by
    simp only [step, HubStep.of, hnew]
  have hsound : Sound (s.put i { timestamp := .utc now, remaining := request.plan upper }) := by
    rw [← hstart]
    exact (took_step s _).sound hs
  obtain ⟨s', c', hrun, hcall, hdone, hnone, hreturned, hids⟩ :=
    @exec_dispatches upper liveNetwork _ i _ _ h _ hsound hfree (calls_put ..) rfl rfl
  rw [sendSteps, Run.exec_cons, hstart, Run.exec_append, hrun, Run.exec_cons,
    step_finish hcall hdone hnone, Run.exec_nil, returnedIds, finishSend, List.map_append]
  show s'.returned.map _ ++ _ = _
  rw [hreturned, hids]
  rfl

/-- They repeat as soon as there are two from the thousand and first on. -/
theorem nodup_lateIds {timestamp : AwareDateTime} {first count : Nat} :
    (lateIds timestamp first count).Nodup ↔ count ≤ 1 ∨ first + count ≤ 1001 := by
  constructor
  · intro h
    by_contra hlate
    rw [not_or] at hlate
    -- the last two are both past the thousandth
    have hmem : ∀ k, first + count - 2 ≤ k → k < first + count → k ∈ List.range' first count :=
      fun k hk hk' => List.mem_range'_1.2 ⟨by omega, hk'⟩
    have hsame : deliveryId timestamp (min (first + count - 2) 1000) =
        deliveryId timestamp (min (first + count - 1) 1000) := by
      rw [min_eq_right (by omega), min_eq_right (by omega)]
    have heq := List.inj_on_of_nodup_map h (hmem _ (by omega) (by omega))
      (hmem _ (by omega) (by omega)) hsame
    omega
  · intro h
    refine List.Nodup.map_on ?_ List.nodup_range'
    intro k hk l hl hkl
    rw [List.mem_range'_1] at hk hl
    have hmin := (deliveryId_inj.1 hkl).2
    omega

/-! ### A mail to many -/

/-- The loop of a `send` that goes by email only. -/
theorem plan_email {r : SendRequest} (hchannels : r.channels = ["email"]) (h : r.emailTo ≠ []) :
    r.plan upper = r.emailTo.map fun recipient => .record ⟨"email", recipient, "simulated",
      "[" ++ upper r.message.severity ++ "] " ++ r.message.title ++ ": " ++ r.message.detail⟩ := by
  have hemail : PyText.lower (PyText.strip "email") = "email" := by decide +kernel
  rw [SendRequest.plan, hchannels, List.map_singleton, hemail, List.flatMap_singleton,
    SendRequest.dispatches, if_neg (by decide), if_neg (by decide), if_pos rfl, if_neg h]

/-- Nothing is posted for a mail, so it does not matter what would come of it. -/
theorem mail_args {r : SendRequest} (hchannels : r.channels = ["email"]) (h : r.emailTo ≠ [])
    (outcome : PostOutcome) :
    List.Forall₂ (fun x o => (Dispatch.args liveNetwork o x).isSome) (r.plan upper)
      (r.emailTo.map fun _ => outcome) := by
  rw [plan_email hchannels h, List.forall₂_map_left_iff, List.forall₂_map_right_iff,
    List.forall₂_same]
  exact fun _ _ => rfl

/-- The ids of a mail that is the first thing a hub sends. -/
theorem nodup_first_mail {r : SendRequest} (hchannels : r.channels = ["email"])
    (h : r.emailTo ≠ []) (now : Instant) (outcome : PostOutcome) :
    (Run.exec (step upper liveNetwork) {}
      (sendSteps i r now (r.emailTo.map fun _ => outcome))).returnedIds.Nodup ↔
      r.emailTo.length ≤ 1001 := by
  rw [returnedIds_sendSteps sound_init rfl rfl now (mail_args hchannels h outcome),
    plan_email hchannels h, List.length_map]
  show ([] ++ lateIds _ 0 _).Nodup ↔ _
  rw [List.nil_append, nodup_lateIds]
  omega

/-- A mail to 1002 recipients. -/
def longMail : SendRequest :=
  { message := { title := "Budget", detail := "exceeded", severity := "warning" }
    channels := ["email"]
    emailTo := List.replicate 1002 "ops@corp" }

/-- Two of its deliveries have one id. -/
theorem ids_repeat_in_long_mail :
    ¬ Run.Always (step PyText.upper false) (fun s => s.returnedIds.Nodup) {}
      (sendSteps 0 longMail 0 (longMail.emailTo.map fun _ => .response 200)) := by
  intro h
  have hlength : longMail.emailTo.length = 1002 := List.length_replicate
  have hsome : longMail.emailTo ≠ [] := List.ne_nil_of_length_pos (by rw [hlength]; omega)
  have hshort := (nodup_first_mail rfl hsome 0 _).1 (h _ List.prefix_rfl)
  omega

end HubState
end ComputeIntelligence
