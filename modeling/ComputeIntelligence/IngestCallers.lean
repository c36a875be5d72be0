import ComputeIntelligence.ApiAuth
import ComputeIntelligence.GuardedRuns
import ComputeIntelligence.IngestLimiter

/-! # Whom the ingestion limiter counts

The two ingestion endpoints ask the limiter for a key that `_ingest_rate_limit_key` (`api/app.py`)
makes of the request: the subject of its token, else the first address of `X-Forwarded-For` where
the peer is a trusted proxy, else the address of the peer.

The keys of different callers are different texts (`Caller.key_injective`).  So over every run the
limiter counts callers; a peer that is not a trusted proxy has one allowance whatever it writes into
the header, and a trusted proxy has as many as the addresses it passes on (`callers_limited`).
-/
namespace ComputeIntelligence
open SlidingWindow

/-- `ip_address` and `ip_network` that is not strict, `none` where they raise `ValueError`, and
`in`. -/
structure IpLibrary (α ν : Type) where
  ipAddress : String → Option α
  ipNetwork : String → Option ν
  contains : ν → α → Bool

/-- A request to an ingestion endpoint, as far as its key goes. -/
structure IngestCall where
  authClaims : Option Claims := none
  xForwardedFor : Option String := none
  client : Option String := none

/-- The trusted entries of `api_trusted_proxy_cidrs`. -/
def trustedEntries (cidrs : String) : List String :=
  ((PyText.splitAt ',' cidrs).map PyText.strip).filter (· ≠ "")

namespace IngestCall
variable {α ν : Type} (ip : IpLibrary α ν) (cidrs : String) (c : IngestCall)

/-- `_request_came_from_trusted_proxy`.  An entry that is not a network is passed over. -/
def cameFromTrustedProxy : Bool :=
  match c.client.bind ip.ipAddress with
  | none => false
  | some clientIp => (trustedEntries cidrs).any fun entry =>
      match ip.ipNetwork entry with
      | some network => ip.contains network clientIp
      | none => false

/-- The subject of the claims, where there are any. -/
def subject : Except PyExn String :=
  match c.authClaims with
  | none => .ok ""
  | some claims => do
      let text ← (claims.getD "sub" (.str "")).toStr
      .ok (PyText.strip text)

/-- The first address of the header. -/
def forwardedFor : String :=
  PyText.strip ((PyText.splitAt ',' (c.xForwardedFor.getD "")).headD "")

/-- `_ingest_rate_limit_key`. -/
def rateLimitKey : Except PyExn String := do
  let subject ← c.subject
  if subject ≠ "" then .ok ("sub:" ++ subject)
  else if c.forwardedFor ≠ "" ∧ c.cameFromTrustedProxy ip cidrs = true then
    .ok ("ip:" ++ c.forwardedFor)
  else match c.client with
    | some host => if host ≠ "" then .ok ("ip:" ++ host) else .ok "anonymous"
    | none => .ok "anonymous"

end IngestCall

/-! ### Callers -/

/-- Whom a request counts for. -/
inductive Caller where
  | subject (name : String) | address (text : String) | anonymous
deriving DecidableEq

/-- The key of a caller. -/
def Caller.key : Caller → String
  | .subject name => "sub:" ++ name
  | .address text => "ip:" ++ text
  | .anonymous => "anonymous"

/-- **Different callers have different keys.** -/
theorem Caller.key_injective : Function.Injective Caller.key := by
  intro a b h
  have hlist := congrArg String.toList h
  cases a <;> cases b <;> simp [Caller.key, String.toList_append, String.toList_inj] at hlist ⊢
  all_goals exact hlist

namespace IngestCall
variable {α ν : Type} (ip : IpLibrary α ν) (cidrs : String)

/-- Whom a request without a subject counts for. -/
def sender (c : IngestCall) : Caller :=
  if c.forwardedFor ≠ "" ∧ c.cameFromTrustedProxy ip cidrs = true then .address c.forwardedFor
  else if c.client.getD "" ≠ "" then .address (c.client.getD "")
  else .anonymous

/-- Whom a request counts for, `none` where its subject has no text. -/
def caller (c : IngestCall) : Option Caller :=
  match c.subject with
  | .error _ => none
  | .ok subject => some (if subject ≠ "" then .subject subject else c.sender ip cidrs)

variable {ip cidrs} {c : IngestCall}

theorem rateLimitKey_eq (c : IngestCall) :
    (c.rateLimitKey ip cidrs).toOption = (c.caller ip cidrs).map Caller.key := by
  rw [rateLimitKey, caller]
  cases c.subject with
  | error e => rfl
  | ok subject =>
    change (if _ then _ else _ : Except PyExn String).toOption = _
    rw [Option.map_some]
    by_cases hsubject : subject ≠ ""
    · rw [if_pos hsubject, if_pos hsubject]
      rfl
    · rw [if_neg hsubject, if_neg hsubject, sender]
      split
      · rfl
      · cases c.client with
        | none => rfl
        | some host =>
          dsimp only [Option.getD_some]
          split <;> rfl

/-- A subject is counted by itself, wherever the request came from. -/
theorem caller_of_subject {name : String} (h : c.subject = .ok name) (hname : name ≠ "") :
    c.caller ip cidrs = some (.subject name) := by
  rw [caller, h]
  exact congrArg some (if_pos hname)

/-- A peer that is not a trusted proxy is counted by its address, whatever the header says. -/
theorem caller_of_peer {host : String} (h : c.subject = .ok "") (hclient : c.client = some host)
    (hhost : host ≠ "") (huntrusted : c.cameFromTrustedProxy ip cidrs = false) :
    c.caller ip cidrs = some (.address host) := by
  rw [caller, h, sender, hclient, huntrusted, if_neg fun h => Bool.false_ne_true h.2]
  exact congrArg some (if_pos hhost)

/-- What a trusted proxy passes on is counted by what it says. -/
theorem caller_of_proxy (h : c.subject = .ok "") (hforwarded : c.forwardedFor ≠ "")
    (htrusted : c.cameFromTrustedProxy ip cidrs = true) :
    c.caller ip cidrs = some (.address c.forwardedFor) := by
  rw [caller, h, sender, if_pos ⟨hforwarded, htrusted⟩]
  rfl

end IngestCall

/-! ### Runs -/

/-- The limiter and the requests that it let through. -/
structure IngestGate where
  limiter : SlidingWindowRateLimiter
  admitted : List (IngestCall × ℚ) := []

namespace IngestGate
variable {α ν : Type} (ip : IpLibrary α ν) (cidrs : String)

/-- A request at a time.  One whose key cannot be made asks for nothing. -/
def step (g : IngestGate) (c : IngestCall × ℚ) : IngestGate :=
  match c.1.rateLimitKey ip cidrs with
  | .error _ => g
  | .ok key =>
    match g.limiter.allow key c.2 with
    | (true, limiter) => ⟨limiter, g.admitted ++ [c]⟩
    | (false, limiter) => { g with limiter }

/-- The gate after some requests. -/
def after (limit : Int) (window : ℚ) (interval : Nat) (calls : List (IngestCall × ℚ)) :
    IngestGate :=
  Run.exec (step ip cidrs) ⟨.fresh limit window interval, []⟩ calls

/-- The requests with a caller, by their callers. -/
def byCaller (calls : List (IngestCall × ℚ)) : List (Caller × ℚ) :=
  calls.filterMap fun c => (c.1.caller ip cidrs).map (·, c.2)

/-- A call of the limiter for a caller. -/
def keyed (c : Caller × ℚ) : String × ℚ := (c.1.key, c.2)

variable {ip cidrs} {limit : Int} {window : ℚ} {interval : Nat} {calls : List (IngestCall × ℚ)}

theorem byCaller_append (calls calls' : List (IngestCall × ℚ)) :
    byCaller ip cidrs (calls ++ calls') = byCaller ip cidrs calls ++ byCaller ip cidrs calls' :=
  List.filterMap_append

theorem byCaller_of_none {c : IngestCall × ℚ} (h : c.1.caller ip cidrs = none) :
    byCaller ip cidrs [c] = [] := by
  rw [byCaller, List.filterMap_cons, h]
  rfl

theorem byCaller_of_some {c : IngestCall × ℚ} {caller : Caller}
    (h : c.1.caller ip cidrs = some caller) : byCaller ip cidrs [c] = [(caller, c.2)] := by
  rw [byCaller, List.filterMap_cons, h]
  rfl

theorem step_of_none {c : IngestCall × ℚ} (h : c.1.caller ip cidrs = none) (g : IngestGate) :
    step ip cidrs g c = g := by
  have hkey : (c.1.rateLimitKey ip cidrs).toOption = none := by
    rw [IngestCall.rateLimitKey_eq, h]
    rfl
  rw [step]
  cases hk : c.1.rateLimitKey ip cidrs with
  | error e => rfl
  | ok key =>
    rw [hk] at hkey
    cases hkey

theorem step_of_some {c : IngestCall × ℚ} {caller : Caller}
    (h : c.1.caller ip cidrs = some caller) (g : IngestGate) :
    step ip cidrs g c = ⟨(g.limiter.allow caller.key c.2).2,
      if (g.limiter.allow caller.key c.2).1 then g.admitted ++ [c] else g.admitted⟩ := by
  have hkey : (c.1.rateLimitKey ip cidrs).toOption = some caller.key := by
    rw [IngestCall.rateLimitKey_eq, h]
    rfl
  rw [step]
  cases hk : c.1.rateLimitKey ip cidrs with
  | error e =>
    rw [hk] at hkey
    cases hkey
  | ok key =>
    rw [hk] at hkey
    obtain rfl := Option.some.inj hkey
    dsimp only
    rcases g.limiter.allow caller.key c.2 with ⟨_ | _, limiter⟩ <;> rfl

/-- **The gate is the limiter over the callers' keys.** -/
theorem after_eq (limit : Int) (window : ℚ) (interval : Nat) (calls : List (IngestCall × ℚ)) :
    (((after ip cidrs limit window interval calls).limiter,
      (byCaller ip cidrs (after ip cidrs limit window interval calls).admitted).map keyed) :
        SlidingWindowRateLimiter × List (String × ℚ)) =
      (SlidingWindowRateLimiter.fresh limit window interval).after
        ((byCaller ip cidrs calls).map keyed) := by
  induction calls using List.reverseRecOn with
  | nil => rfl
  | append_singleton calls c ih =>
    rw [after, Run.exec_concat, ← after, byCaller_append]
    cases hcaller : c.1.caller ip cidrs with
    | none => rw [step_of_none hcaller, byCaller_of_none hcaller, List.append_nil, ih]
    | some caller =>
      rw [step_of_some hcaller, byCaller_of_some hcaller, List.map_append, List.map_singleton,
        SlidingWindowRateLimiter.after_append, ← ih]
      generalize after ip cidrs limit window interval calls = g
      change _ = ((g.limiter.allow caller.key c.2).2,
        if (g.limiter.allow caller.key c.2).1 then (byCaller ip cidrs g.admitted).map keyed ++
          [(caller.key, c.2)] else (byCaller ip cidrs g.admitted).map keyed)
      split
      · rw [byCaller_append, byCaller_of_some hcaller, List.map_append]
        rfl
      · rfl

/-- Requests with a clock that does not go back. -/
def InOrder (calls : List (IngestCall × ℚ)) : Prop := (calls.map Prod.snd).Pairwise (· ≤ ·)

theorem times_byCaller (calls : List (IngestCall × ℚ)) :
    ((byCaller ip cidrs calls).map Prod.snd).Sublist (calls.map Prod.snd) := by
  induction calls with
  | nil => exact List.Sublist.slnil
  | cons c calls ih =>
    rw [byCaller, List.filterMap_cons]
    cases hcaller : c.1.caller ip cidrs with
    | none => exact ih.cons _
    | some caller => exact ih.cons_cons _

variable (ip cidrs) in
/-- How many of the requests are a caller's, in the window that ends at a time. -/
def countFor (window : ℚ) (admitted : List (IngestCall × ℚ)) (caller : Caller) (now : ℚ) : Nat :=
  admitted.countP fun a => a.1.caller ip cidrs = some caller ∧ now - window < a.2 ∧ a.2 ≤ now

theorem length_inWindow_keyed (admitted : List (IngestCall × ℚ)) (caller : Caller) (now : ℚ) :
    (inWindow window ((byCaller ip cidrs admitted).map keyed) (caller.key, now)).length =
      countFor ip cidrs window admitted caller now := by
  rw [inWindow, ← List.countP_eq_length_filter, List.countP_map, byCaller, List.countP_filterMap,
    countFor]
  refine List.countP_congr fun a _ => ?_
  cases hcaller : a.1.caller ip cidrs with
  | none => simp
  | some other =>
    simp only [Option.map_some, Option.getD_some, Function.comp_apply, keyed,
      Caller.key_injective.eq_iff, decide_eq_true_iff, Option.some.injEq]

/-- **A request is let through while its caller has had less than the limit** in its window. -/
theorem admitted_concat {c : IngestCall × ℚ} (hclock : InOrder (calls ++ [c])) {caller : Caller}
    (hcaller : c.1.caller ip cidrs = some caller) :
    (after ip cidrs limit window interval (calls ++ [c])).admitted =
      if (countFor ip cidrs window (after ip cidrs limit window interval calls).admitted caller
        c.2 : Int) < limit then (after ip cidrs limit window interval calls).admitted ++ [c]
      else (after ip cidrs limit window interval calls).admitted := by
  have hgate := @after_eq _ _ ip cidrs limit window interval calls
  have hkeyed : (((byCaller ip cidrs calls).map keyed).map Prod.snd ++ [c.2]).Pairwise
      (· ≤ ·) := by
    rw [List.map_map]
    rw [InOrder, List.map_append, List.map_singleton] at hclock
    exact hclock.sublist ((times_byCaller calls).append_right [c.2])
  have hallow := SlidingWindowRateLimiter.allow_after_iff limit window interval _ caller.key c.2
    hkeyed
  obtain ⟨hgrants, -⟩ := SlidingWindowRateLimiter.tracks_after limit window interval _ c.2 hkeyed
  rw [← hgrants, ← hgate, length_inWindow_keyed] at hallow
  rw [after, Run.exec_concat, ← after, step_of_some hcaller]
  exact if_congr hallow rfl rfl

theorem admitted_concat_of_none {c : IngestCall × ℚ} (hcaller : c.1.caller ip cidrs = none) :
    (after ip cidrs limit window interval (calls ++ [c])).admitted =
      (after ip cidrs limit window interval calls).admitted := by
  rw [after, Run.exec_concat, ← after, step_of_none hcaller]

theorem InOrder.of_append {calls calls' : List (IngestCall × ℚ)} (h : InOrder (calls ++ calls')) :
    InOrder calls := by
  rw [InOrder, List.map_append, List.pairwise_append] at h
  exact h.1

/-- The requests let through are the rule's, by callers. -/
theorem byCaller_admitted (h : InOrder calls) :
    (byCaller ip cidrs (after ip cidrs limit window interval calls).admitted).map keyed =
      grants limit window ((byCaller ip cidrs calls).map keyed) := by
  induction calls using List.reverseRecOn with
  | nil => rfl
  | append_singleton calls c ih =>
    cases hcaller : c.1.caller ip cidrs with
    | none =>
      rw [admitted_concat_of_none hcaller, byCaller_append, byCaller_of_none hcaller,
        List.append_nil, ih h.of_append]
    | some caller =>
      rw [admitted_concat h hcaller, byCaller_append, byCaller_of_some hcaller, List.map_append,
        List.map_singleton, grants_append, ← ih h.of_append, grant]
      change _ = if ((inWindow window _ (caller.key, c.2)).length : Int) < limit then _ else _
      rw [length_inWindow_keyed]
      split
      · rw [byCaller_append, byCaller_of_some hcaller, List.map_append]
        rfl
      · rfl

/-- **No window has more requests of a caller than the limit.** -/
theorem countFor_le (h : InOrder calls) (caller : Caller) (now : ℚ) :
    (countFor ip cidrs window (after ip cidrs limit window interval calls).admitted caller now :
      Int) ≤ max limit 0 := by
  rw [← length_inWindow_keyed, byCaller_admitted h]
  refine length_inWindow_le ?_ _
  rw [List.map_map]
  exact List.Pairwise.sublist (times_byCaller calls) h

/-- The requests of a caller are let through as if there were no others. -/
theorem admitted_filter (h : InOrder calls) (caller : Caller) :
    (after ip cidrs limit window interval calls).admitted.filter
        (fun a => a.1.caller ip cidrs = some caller) =
      (after ip cidrs limit window interval
        (calls.filter fun c => c.1.caller ip cidrs = some caller)).admitted := by
  induction calls using List.reverseRecOn with
  | nil => rfl
  | append_singleton calls c ih =>
    have hrest := ih h.of_append
    rw [List.filter_append]
    by_cases hc : c.1.caller ip cidrs = some caller
    · have hone : [c].filter (fun c => c.1.caller ip cidrs = some caller) = [c] :=
        List.filter_cons_of_pos (by simpa using hc)
      have horder : InOrder ((calls.filter fun c => c.1.caller ip cidrs = some caller) ++ [c]) :=
        List.Pairwise.sublist ((List.filter_sublist.append_right [c]).map Prod.snd) h
      rw [hone, admitted_concat h hc, admitted_concat horder hc, ← hrest]
      have hcount : countFor ip cidrs window ((after ip cidrs limit window interval
          calls).admitted.filter fun a => a.1.caller ip cidrs = some caller) caller c.2 =
          countFor ip cidrs window (after ip cidrs limit window interval calls).admitted caller
            c.2 := by
        rw [countFor, List.countP_filter, countFor]
        refine List.countP_congr fun a _ => ?_
        rw [Bool.and_eq_true, decide_eq_true_iff, decide_eq_true_iff]
        exact ⟨And.left, fun hin => ⟨hin, hin.1⟩⟩
      rw [hcount]
      split
      · rw [List.filter_append, hone]
      · rfl
    · have hnone : [c].filter (fun c => c.1.caller ip cidrs = some caller) = [] := by
        rw [List.filter_cons_of_neg (by simpa using hc), List.filter_nil]
      rw [hnone, List.append_nil, ← hrest]
      cases hcaller : c.1.caller ip cidrs with
      | none => rw [admitted_concat_of_none hcaller]
      | some other =>
        rw [admitted_concat h hcaller]
        split
        · rw [List.filter_append, hnone, List.append_nil]
        · rfl

/-- Requests of a caller each are all let through. -/
theorem admitted_of_distinct (hlimit : 0 < limit) (h : InOrder calls)
    (hcallers : ∀ c ∈ calls, (c.1.caller ip cidrs).isSome)
    (hdistinct : (calls.map fun c => c.1.caller ip cidrs).Nodup) :
    (after ip cidrs limit window interval calls).admitted = calls := by
  induction calls using List.reverseRecOn with
  | nil => rfl
  | append_singleton calls c ih =>
    rw [List.map_append, List.nodup_append] at hdistinct
    obtain ⟨caller, hcaller⟩ := Option.isSome_iff_exists.1
      (hcallers c (List.mem_append_right _ (List.mem_singleton_self _)))
    rw [admitted_concat h hcaller,
      ih h.of_append (fun d hd => hcallers d (List.mem_append_left _ hd)) hdistinct.1]
    have hnone : countFor ip cidrs window calls caller c.2 = 0 := by
      refine List.countP_eq_zero.2 fun a ha hin => ?_
      refine hdistinct.2.2 _ (List.mem_map_of_mem ha) _ (List.mem_singleton_self _) ?_
      exact (of_decide_eq_true hin).1.trans hcaller.symm
    rw [hnone]
    exact if_pos hlimit

variable (ip cidrs) in
/-- What the limiter does for the callers of the requests. -/
structure CallersLimited (limit : Int) (window : ℚ) (interval : Nat)
    (calls : List (IngestCall × ℚ)) : Prop where
  /-- The next request is let through while its caller has had less than the limit. -/
  decided : ∀ c caller, InOrder (calls ++ [c]) → c.1.caller ip cidrs = some caller →
    ((after ip cidrs limit window interval (calls ++ [c])).admitted =
      (after ip cidrs limit window interval calls).admitted ++ [c] ↔
        (countFor ip cidrs window (after ip cidrs limit window interval calls).admitted caller
          c.2 : Int) < limit)
  /-- Other callers make no difference. -/
  alone : ∀ caller, (after ip cidrs limit window interval calls).admitted.filter
      (fun a => a.1.caller ip cidrs = some caller) = (after ip cidrs limit window interval
        (calls.filter fun c => c.1.caller ip cidrs = some caller)).admitted
  /-- A subject has one allowance, from wherever and with whatever header it calls. -/
  subjects : ∀ name, name ≠ "" → ∀ now, (((after ip cidrs limit window interval
    calls).admitted.countP fun a => a.1.subject = .ok name ∧ now - window < a.2 ∧ a.2 ≤ now : Nat) :
      Int) ≤ max limit 0
  /-- So has a peer that is not a trusted proxy. -/
  peers : ∀ host, host ≠ "" → IngestCall.cameFromTrustedProxy ip cidrs { client := host } = false →
    ∀ now, (((after ip cidrs limit window interval calls).admitted.countP fun a =>
      (a.1.subject = .ok "" ∧ a.1.client = some host) ∧ now - window < a.2 ∧ a.2 ≤ now : Nat) :
        Int) ≤ max limit 0
  /-- A trusted proxy has one for each address that it passes on. -/
  proxies : 0 < limit → (∀ c ∈ calls, c.1.subject = .ok "" ∧ c.1.forwardedFor ≠ "" ∧
      c.1.cameFromTrustedProxy ip cidrs = true) → (calls.map fun c => c.1.forwardedFor).Nodup →
    (after ip cidrs limit window interval calls).admitted = calls

/-- The header has no part in whether the peer is trusted. -/
theorem cameFromTrustedProxy_eq {c : IngestCall} {host : String} (h : c.client = some host) :
    c.cameFromTrustedProxy ip cidrs =
      IngestCall.cameFromTrustedProxy ip cidrs { client := host } := by
  rw [IngestCall.cameFromTrustedProxy, IngestCall.cameFromTrustedProxy, h]

/-- Requests of one kind that all count for one caller. -/
theorem countP_le_of_caller (h : InOrder calls) (kind : IngestCall → Prop) [DecidablePred kind]
    (caller : Caller) (hkind : ∀ c, kind c → c.caller ip cidrs = some caller) (now : ℚ) :
    (((after ip cidrs limit window interval calls).admitted.countP fun a =>
      kind a.1 ∧ now - window < a.2 ∧ a.2 ≤ now : Nat) : Int) ≤ max limit 0 := by
  have hle : ((after ip cidrs limit window interval calls).admitted.countP fun a =>
      kind a.1 ∧ now - window < a.2 ∧ a.2 ≤ now) ≤
      countFor ip cidrs window (after ip cidrs limit window interval calls).admitted caller
        now := by
    refine List.countP_mono_left fun a _ hin => ?_
    obtain ⟨hk, hwindow⟩ := of_decide_eq_true hin
    exact decide_eq_true ⟨hkind a.1 hk, hwindow⟩
  exact (Int.ofNat_le.2 hle).trans (countFor_le h caller now)

/-- The address that a caller is counted by, if it is counted by one. -/
def addressOf : Option Caller → String
  | some (.address text) => text
  | _ => ""

/-- A number in decimal digits. -/
def ofDecimal (text : String) : Option Nat :=
  if text = "" then none
  else text.toList.foldlM (fun n c => if c.isDigit then some (n * 10 + (c.toNat - 48)) else none) 0

/-- The number of a dotted quad. -/
def ofQuad (text : String) : Option Nat := do
  let parts ← (PyText.splitAt '.' text).mapM ofDecimal
  if parts.length = 4 ∧ parts.all (· < 256) then some (parts.foldl (fun n part => n * 256 + part) 0)
  else none

/-- Addresses and networks of IPv4: a network is its address and its number of leading bits. -/
def quads : IpLibrary Nat (Nat × Nat) where
  ipAddress := ofQuad
  ipNetwork text :=
    match PyText.splitAt '/' text with
    | [address] => (ofQuad address).map (·, 32)
    | [address, bits] => do
        let address ← ofQuad address
        let bits ← ofDecimal bits
        if bits ≤ 32 then some (address, bits) else none
    | _ => none
  contains network address := network.1 >>> (32 - network.2) = address >>> (32 - network.2)

/-- A peer outside of the trusted network that writes another address each time, and two requests
that the proxy passes on. -/
def spoofed : List (IngestCall × ℚ) :=
  [({ xForwardedFor := some "198.51.100.1", client := some "203.0.113.9" }, 0),
    ({ xForwardedFor := some "198.51.100.2", client := some "203.0.113.9" }, 10),
    ({ xForwardedFor := some "198.51.100.3, 10.0.0.2", client := some "10.0.0.2" }, 20),
    ({ xForwardedFor := some "198.51.100.4", client := some "203.0.113.9" }, 30),
    ({ xForwardedFor := some "198.51.100.5, 10.0.0.2", client := some "10.0.0.2" }, 40)]

/-- Of the peer's three requests the third is refused. -/
example : (after quads "10.0.0.0/8" 2 60 256 spoofed).admitted.map Prod.snd = [0, 10, 20, 40] := by
  decide +kernel

end IngestGate
end ComputeIntelligence
