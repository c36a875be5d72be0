import ComputeIntelligence.GuardedRuns
import ComputeIntelligence.OnceCell
import ComputeIntelligence.PyValue
import Mathlib.Data.Finset.Card
import Mathlib.Data.Finset.Image

/-! # The runtime of the API

`api/runtime.py`: the application state that every request gets, made under a lock by the first that
finds none, and the route keys it answers.

`ensure_app_state` makes at most one state, whatever the order in which requests come to it
(`ensured`).  `resolve_route_key` answers with the normalized route until it has met as many routes
as it keeps; from then on with the service, also for the routes it has met (`routes_exact`).  So the
keys of calls that name a service are bounded by the routes it keeps and the services there are.
-/
namespace ComputeIntelligence

/-! ### The application state -/

/-- What `app.state.platform_state` can hold: an `AppState`, known by its identity, or anything
else. -/
inductive PlatformState where
  | appState (identity : Nat)
  | other
deriving DecidableEq

/-- `isinstance(state, AppState)`, or the text of the `TypeError`. -/
def PlatformState.checked : PlatformState → Except String Nat
  | .appState identity => .ok identity
  | .other => .error "app.state.platform_state must be an AppState instance"

/-- A step of `ensure_app_state` in one of the threads: `ask` reads the attribute, `acquire` takes
`_APP_STATE_LOCK`, `check` reads it again, `make` is `AppState()`, which may raise, `store` writes
the attribute, and `leave` gives the lock back. -/
def ensureAction {ι : Type} : OnceCell.Action ι Nat → OnceCell.Action ι PlatformState
  | .ask i => .ask i
  | .acquire i => .acquire i
  | .check i => .check i
  | .make i identity => .make i (identity.map .appState)
  | .store i => .store i
  | .leave i => .leave i

variable {ι : Type} [DecidableEq ι]

/-- The threads' steps, from what the attribute holds. -/
def ensureRun (platformState : Option PlatformState) (as : List (OnceCell.Action ι Nat)) :
    OnceCell.State ι PlatformState :=
  Run.exec OnceCell.step { cell := platformState } (as.map ensureAction)

/-- What the calls of `ensure_app_state` have come to: each answers with the state, or raises. -/
def ensureAnswers (s : OnceCell.State ι PlatformState) : List (ι × Except String Nat) :=
  s.answered.map fun p => (p.1, p.2.checked)

theorem made_step {s : OnceCell.State ι PlatformState} (a : OnceCell.Action ι Nat)
    (h : ∀ p ∈ s.made, ∃ identity, p = .appState identity) :
    ∀ p ∈ (OnceCell.step s (ensureAction a)).made, ∃ identity, p = .appState identity := by
  cases a with
  | make i identity =>
    cases identity with
    | none =>
      simp only [ensureAction, Option.map_none, OnceCell.step]
      split
      · next hvalue => cases hvalue
      · exact h
      · exact h
    | some identity =>
      simp only [ensureAction, Option.map_some, OnceCell.step]
      split
      · next v hphase hvalue =>
        intro p hp
        rcases List.mem_append.1 hp with hold | hnew
        · exact h p hold
        · exact ⟨identity, (List.mem_singleton.1 hnew).trans (Option.some.inj hvalue).symm⟩
      · exact h
      · exact h
  | ask i => rw [ensureAction, OnceCell.step]; split <;> exact h
  | acquire i => rw [ensureAction, OnceCell.step]; split <;> exact h
  | check i => rw [ensureAction, OnceCell.step]; split <;> exact h
  | store i => rw [ensureAction, OnceCell.step]; split <;> exact h
  | leave i => rw [ensureAction, OnceCell.step]; split <;> exact h

/-- What is made is an `AppState`. -/
theorem made_ensureRun (platformState : Option PlatformState)
    (as : List (OnceCell.Action ι Nat)) :
    ∀ p ∈ (ensureRun platformState as).made, ∃ identity, p = .appState identity := by
  induction as using List.reverseRecOn with
  | nil => exact nofun
  | append_singleton as a ih =>
    rw [ensureRun, List.map_append, List.map_singleton, Run.exec_concat]
    exact made_step a ih

/-- What `ensure_app_state` keeps to: from an attribute that is not set, one `AppState` at most is
made, and every call that is answered is answered with it; from one that is set none is made, and
the answers are what was set, or the error. -/
structure Ensured (platformState : Option PlatformState) (s : OnceCell.State ι PlatformState) :
    Prop where
  once : s.made.length ≤ 1
  same : platformState = none → ∀ p ∈ ensureAnswers s, ∃ identity,
    p.2 = .ok identity ∧ s.made = [.appState identity]
  preset : ∀ held, platformState = some held → s.made = [] ∧ ∀ p ∈ ensureAnswers s, p.2 = held.checked

/-- **`ensure_app_state` in any number of threads**, whatever the order of their steps and whichever
constructions fail. -/
theorem ensured (platformState : Option PlatformState) (as : List (OnceCell.Action ι Nat)) :
    Ensured platformState (ensureRun platformState as) := by
  cases platformState with
  | none =>
    obtain ⟨hlength, hanswered⟩ := OnceCell.once (as.map ensureAction)
    refine ⟨hlength, fun _ p hp => ?_, nofun⟩
    obtain ⟨q, hq, rfl⟩ := List.mem_map.1 hp
    have hmade := hanswered q hq
    obtain ⟨identity, hidentity⟩ := made_ensureRun none as q.2 (by
      rw [ensureRun, hmade]
      exact List.mem_singleton_self _)
    refine ⟨identity, ?_, ?_⟩
    · rw [hidentity]
      rfl
    · rw [ensureRun, hmade, hidentity]
  | some held =>
    obtain ⟨hmade, hanswered⟩ := OnceCell.filled held (as.map ensureAction)
    refine ⟨?_, nofun, fun held' hheld => ⟨hmade, fun p hp => ?_⟩⟩
    · rw [ensureRun, hmade]
      exact Nat.zero_le _
    · obtain rfl := Option.some.inj hheld
      obtain ⟨q, hq, rfl⟩ := List.mem_map.1 hp
      exact congrArg PlatformState.checked (hanswered q hq)

/-! ### Route keys -/

section
variable (lower : String → String)

/-- `_normalize_route`; `lower` is `str.lower`. -/
def normalizeRoute (route : String) : String :=
  let normalized := lower (PyText.strip route)
  if normalized = "" then ""
  else "/" ++ PyText.join "/" ((PyText.splitAt '/' normalized).filter (· ≠ ""))

/-- The route templates that are kept, no more than `_route_cardinality_limit` of them. -/
structure RouteTemplates (limit : Nat) where
  templates : Finset String
  bounded : templates.card ≤ limit

variable {limit : Nat}

/-- `_route_templates` of a new state. -/
def RouteTemplates.start (limit : Nat) : RouteTemplates limit := ⟨∅, Nat.zero_le limit⟩

/-- `self._route_templates.add(normalized_route)`, where there is room. -/
def RouteTemplates.add (r : RouteTemplates limit) (template : String)
    (h : r.templates.card < limit) : RouteTemplates limit :=
  ⟨insert template r.templates, (Finset.card_insert_le _ _).trans h⟩

structure RouteCall where
  route : String
  serviceName : String
deriving DecidableEq

def serviceKey (serviceName : String) : String := "SERVICE:" ++ serviceName

/-- `resolve_route_key`. -/
def resolveRouteKey (r : RouteTemplates limit) (c : RouteCall) : String × RouteTemplates limit :=
  let normalizedRoute := normalizeRoute lower c.route
  if normalizedRoute = "" then
    (if c.serviceName = "" then "" else serviceKey c.serviceName, r)
  else if h : r.templates.card < limit then (normalizedRoute, r.add normalizedRoute h)
  else (if c.serviceName = "" then normalizedRoute else serviceKey c.serviceName, r)

/-- The templates after some calls. -/
def routesAfter (limit : Nat) (calls : List RouteCall) : RouteTemplates limit :=
  Run.exec (fun r c => (resolveRouteKey lower r c).2) (.start limit) calls

/-- The key of a call that comes after others. -/
def routeKeyAfter (limit : Nat) (calls : List RouteCall) (c : RouteCall) : String :=
  (resolveRouteKey lower (routesAfter lower limit calls) c).1

/-- The routes that were asked for. -/
def askedRoutes (calls : List RouteCall) : Finset String :=
  ((calls.map fun c => normalizeRoute lower c.route).filter (· ≠ "")).toFinset

/-- Until as many are kept as there is room for, every route that was asked for is kept. -/
structure KeepsRoutes (r : RouteTemplates limit) (calls : List RouteCall) : Prop where
  asked : r.templates ⊆ askedRoutes lower calls
  all : r.templates.card < limit → r.templates = askedRoutes lower calls

variable {lower}

theorem askedRoutes_concat (calls : List RouteCall) (c : RouteCall) :
    askedRoutes lower (calls ++ [c]) =
      if normalizeRoute lower c.route = "" then askedRoutes lower calls
      else insert (normalizeRoute lower c.route) (askedRoutes lower calls) := by
  rw [askedRoutes, List.map_append, List.filter_append, List.toFinset_append, List.map_singleton]
  by_cases h : normalizeRoute lower c.route = ""
  · rw [if_pos h, h]
    exact Finset.union_empty _
  · have hlast : [normalizeRoute lower c.route].filter (· ≠ "") = [normalizeRoute lower c.route] :=
      List.filter_cons_of_pos (decide_eq_true h)
    rw [if_neg h, hlast, Finset.union_comm]
    rfl

theorem KeepsRoutes.resolve {r : RouteTemplates limit} {calls : List RouteCall}
    (h : KeepsRoutes lower r calls) (c : RouteCall) :
    KeepsRoutes lower (resolveRouteKey lower r c).2 (calls ++ [c]) := by
  rw [resolveRouteKey]
  split
  · next hempty =>
    refine ⟨?_, fun hroom => ?_⟩
    · rw [askedRoutes_concat, if_pos hempty]
      exact h.asked
    · rw [askedRoutes_concat, if_pos hempty]
      exact h.all hroom
  · next hroute =>
    split
    · next hroom =>
      have hsame : (r.add (normalizeRoute lower c.route) hroom).templates =
          askedRoutes lower (calls ++ [c]) := by
        rw [askedRoutes_concat, if_neg hroute, ← h.all hroom]
        rfl
      exact ⟨hsame.subset, fun _ => hsame⟩
    · next hfull =>
      refine ⟨?_, fun hroom => absurd hroom hfull⟩
      rw [askedRoutes_concat, if_neg hroute]
      exact h.asked.trans (Finset.subset_insert _ _)

theorem keepsRoutes (limit : Nat) (calls : List RouteCall) :
    KeepsRoutes lower (routesAfter lower limit calls) calls := by
  induction calls using List.reverseRecOn with
  | nil => exact ⟨Finset.Subset.refl _, fun _ => rfl⟩
  | append_singleton calls c ih =>
    rw [routesAfter, Run.exec_concat]
    exact ih.resolve c

/-- There is room as long as fewer routes were asked for. -/
theorem room_iff (limit : Nat) (calls : List RouteCall) :
    (routesAfter lower limit calls).templates.card < limit ↔
      (askedRoutes lower calls).card < limit := by
  have h : KeepsRoutes lower (routesAfter lower limit calls) calls := keepsRoutes limit calls
  constructor
  · intro hroom
    rw [← h.all hroom]
    exact hroom
  · exact fun hroom => (Finset.card_le_card h.asked).trans_lt hroom

theorem routeKeyAfter_eq (limit : Nat) (calls : List RouteCall) (c : RouteCall) :
    routeKeyAfter lower limit calls c =
      if normalizeRoute lower c.route = "" then
        if c.serviceName = "" then "" else serviceKey c.serviceName
      else if (askedRoutes lower calls).card < limit ∨ c.serviceName = "" then
        normalizeRoute lower c.route
      else serviceKey c.serviceName := by
  rw [routeKeyAfter, resolveRouteKey]
  by_cases hempty : normalizeRoute lower c.route = ""
  · rw [if_pos hempty, if_pos hempty]
  · rw [if_neg hempty, if_neg hempty]
    by_cases hroom : (askedRoutes lower calls).card < limit
    · rw [dif_pos ((room_iff limit calls).2 hroom), if_pos (Or.inl hroom)]
    · rw [dif_neg fun h => hroom ((room_iff limit calls).1 h)]
      by_cases hservice : c.serviceName = ""
      · rw [if_pos (Or.inr hservice)]
        exact if_pos hservice
      · rw [if_neg (not_or.2 ⟨hroom, hservice⟩)]
        exact if_neg hservice

/-- What a run of calls answers, each with its call. -/
def routeKeys (lower : String → String) (limit : Nat) :
    List RouteCall → List RouteCall → List (RouteCall × String)
  | _, [] => []
  | before, c :: calls =>
      (c, routeKeyAfter lower limit before c) :: routeKeys lower limit (before ++ [c]) calls

theorem mem_routeKeys {before calls : List RouteCall} {p : RouteCall × String}
    (h : p ∈ routeKeys lower limit before calls) :
    ∃ done rest, calls = done ++ p.1 :: rest ∧
      p.2 = routeKeyAfter lower limit (before ++ done) p.1 := by
  induction calls generalizing before with
  | nil => exact absurd h List.not_mem_nil
  | cons c calls ih =>
    rcases List.mem_cons.1 h with rfl | hmem
    · exact ⟨[], calls, rfl, by rw [List.append_nil]⟩
    · obtain ⟨done, rest, rfl, hkey⟩ := ih hmem
      refine ⟨c :: done, rest, rfl, ?_⟩
      rw [hkey, List.append_assoc]
      rfl

theorem templates_subset_resolve (r : RouteTemplates limit) (c : RouteCall) :
    r.templates ⊆ (resolveRouteKey lower r c).2.templates := by
  rw [resolveRouteKey]
  split
  · exact Finset.Subset.refl _
  · split
    · exact Finset.subset_insert _ _
    · exact Finset.Subset.refl _

/-- No template is forgotten. -/
theorem templates_subset_after (before rest : List RouteCall) :
    (routesAfter lower limit before).templates ⊆
      (routesAfter lower limit (before ++ rest)).templates := by
  rw [routesAfter, routesAfter, Run.exec_append]
  generalize Run.exec (fun r c => (resolveRouteKey lower r c).2) (.start limit) before = first
  exact Run.exec_invariant (I := fun r : RouteTemplates limit => first.templates ⊆ r.templates)
    (fun r c hr => Finset.Subset.trans hr (templates_subset_resolve r c))
    (Finset.Subset.refl _) rest

/-- The key of a call that names a service is a template that is kept, or the service's. -/
theorem key_mem_of_service (before : List RouteCall) {c : RouteCall} (hc : c.serviceName ≠ "") :
    routeKeyAfter lower limit before c ∈ (routesAfter lower limit (before ++ [c])).templates ∨
      routeKeyAfter lower limit before c = serviceKey c.serviceName := by
  rw [routesAfter, Run.exec_concat, ← routesAfter, routeKeyAfter, resolveRouteKey]
  split
  · exact .inr rfl
  · split
    · exact .inl (Finset.mem_insert_self _ _)
    · exact .inr rfl

theorem serviceKey_inj {s t : String} (h : serviceKey s = serviceKey t) : s = t := by
  have hlist := congrArg String.toList h
  rw [serviceKey, serviceKey, String.toList_append, String.toList_append] at hlist
  exact String.toList_inj.1 (List.append_cancel_left hlist)

/-- A normalized route begins with a slash. -/
theorem normalizeRoute_ne_serviceKey (route serviceName : String) :
    normalizeRoute lower route ≠ serviceKey serviceName := by
  intro h
  have hlist := congrArg String.toList h
  rw [normalizeRoute, serviceKey, String.toList_append] at hlist
  split at hlist
  · cases hlist
  · rw [String.toList_append] at hlist
    have hhead := congrArg List.head? hlist
    cases hhead

/-- What the route keys of a run are. -/
structure RouteKeys (lower : String → String) (limit : Nat) (calls : List RouteCall) : Prop where
  /-- The key of a call is its normalized route as long as fewer than `limit` routes were asked for
  before it, or where it names no service. -/
  exact : ∀ before c rest, calls = before ++ c :: rest → routeKeyAfter lower limit before c =
    if normalizeRoute lower c.route = "" then
      if c.serviceName = "" then "" else serviceKey c.serviceName
    else if (askedRoutes lower before).card < limit ∨ c.serviceName = "" then
      normalizeRoute lower c.route
    else serviceKey c.serviceName
  /-- The calls that name a service have no more keys than there are templates and services. -/
  bounded : (((routeKeys lower limit [] calls).filter fun p => p.1.serviceName ≠ "").map
      Prod.snd).toFinset.card ≤ limit + (calls.map RouteCall.serviceName).toFinset.card
  /-- No key is of two services, or of a service and a route. -/
  apart : ∀ s t route, (serviceKey s = serviceKey t → s = t) ∧
    normalizeRoute lower route ≠ serviceKey s

/-- **The route keys of a run**: which they are, that they are bounded, and that none means two
things. -/
theorem routes_exact (lower : String → String) (limit : Nat) (calls : List RouteCall) :
    RouteKeys lower limit calls := by
  refine ⟨fun before c _ _ => routeKeyAfter_eq limit before c, ?_,
    fun s t route => ⟨serviceKey_inj, normalizeRoute_ne_serviceKey route s⟩⟩
  let templates := (routesAfter lower limit calls).templates
  let services := (calls.map RouteCall.serviceName).toFinset
  have hsubset : (((routeKeys lower limit [] calls).filter fun p => p.1.serviceName ≠ "").map
      Prod.snd).toFinset ⊆ templates ∪ services.image serviceKey := by
    intro key hkey
    obtain ⟨p, hp, rfl⟩ := List.mem_map.1 (List.mem_toFinset.1 hkey)
    obtain ⟨hmem, hservice⟩ := List.mem_filter.1 hp
    obtain ⟨done, rest, hcalls, hanswer⟩ := mem_routeKeys hmem
    rw [List.nil_append] at hanswer
    rw [hanswer, Finset.mem_union]
    rcases @key_mem_of_service lower limit done _ (of_decide_eq_true hservice) with ht | hs
    · refine .inl ?_
      have hkept := @templates_subset_after lower limit (done ++ [p.1]) rest
      rw [List.append_assoc, List.singleton_append, ← hcalls] at hkept
      exact hkept ht
    · refine .inr (Finset.mem_image.2 ⟨p.1.serviceName, List.mem_toFinset.2 ?_, hs.symm⟩)
      rw [hcalls]
      exact List.mem_map_of_mem (List.mem_append_right _ List.mem_cons_self)
  calc _ ≤ (templates ∪ services.image serviceKey).card := Finset.card_le_card hsubset
    _ ≤ templates.card + (services.image serviceKey).card := Finset.card_union_le _ _
    _ ≤ limit + services.card :=
        Nat.add_le_add (routesAfter lower limit calls).bounded Finset.card_image_le

/-- With room for one route, that route is not answered by its name again. -/
example : (routeKeys id 1 [] [⟨"/v1/a", "svc"⟩, ⟨"/v1/a", "svc"⟩, ⟨"/v1/a", ""⟩]).map Prod.snd =
    ["/v1/a", "SERVICE:svc", "/v1/a"] := by decide +kernel

end
end ComputeIntelligence
