import ComputeIntelligence.HreEngine

/-! # Attribution and the order of Python sets

The ids of the teams and the recent users of a service account are Python sets, walked
through in an order that differs from one process to the next.  The first reaches R3 as
the order of its patterns, the second R5 as the order of its scores; both keep the first
of the best.

So the owner of a workload depends on the order only through a tie between two teams or
between two users who have no better claim (`TeamTie`, `UserTie`).  Any of those that tie
can come first, so the owner is the same in every order exactly when the choice among them
makes no difference to it (`TiesAgree`); where R3 alone speaks, as in every context the
processor builds, a tie of teams does (`orderIndependent_iff`).
-/
namespace ComputeIntelligence
variable {F : Type} [ScoreArith F]
open FirstMax ScoreArith HeuristicReconciliationEngine

/-! ### The two walks -/

/-- The context of an event: what the graph says, and the rest as given. -/
def contextOf (setOrder : SetOrder) (graph : InMemoryGraphStore) (base : ReconciliationContext F)
    (workloadId : String) (eventTime : Instant) (now : String → Instant) :
    ReconciliationContext F :=
  { base with
    identityMappings := identityMappingsOf graph workloadId eventTime (now workloadId)
    namingPatterns := namingPatternsOf setOrder graph now }

/-- The sets in the order in which the model stores them. -/
def SetOrder.stored : SetOrder := ⟨id, fun _ => .refl _⟩

/-- A set with one element moved to the front. -/
def SetOrder.front (x : String) : SetOrder where
  order l := if x ∈ l then x :: l.erase x else l
  perm l := by
    split
    · exact (List.perm_cons_erase (by assumption)).symm
    · exact .refl _

/-- The patterns of the teams, each with its team. -/
def graphPatterns (graph : InMemoryGraphStore) (now : String → Instant) : List (String × String) :=
  teamPatterns (namingPatternsOf .stored graph now).items

/-- The similarity of a workload to a pattern. -/
def patternScore (workloadId : String) (p : String × String) : F :=
  similarity (normalizeName workloadId) p.2

/-- Two teams share the best similarity to the workload, and it is enough for R3. -/
def TeamTie (F : Type) [ScoreArith F] (patterns : List (String × String)) (workloadId : String) :
    Prop :=
  ∃ p q, Best (patternScore (F := F) workloadId) patterns p ∧
    Best (patternScore (F := F) workloadId) patterns q ∧ p.1 ≠ q.1 ∧
    (lit 0 : F) < patternScore workloadId p ∧ (dec 4 1 : F) ≤ patternScore workloadId p

/-- The recent users who are neither deployer nor code owner. -/
def newUsers (scores : PyDict String F) (recent : List String) : List String :=
  recent.filter fun u => u ∉ scores.keys

/-- The deployer and the code owners, with what they have as recent users. -/
def ownerItems (scores : PyDict String F) (recent : List String) : List (String × F) :=
  scores.items.map fun p => if p.1 ∈ recent then (p.1, p.2 + userShare recent) else p

/-- Two recent users share the best score of R5: no deployer or code owner has as much. -/
def UserTie (context : ReconciliationContext F) (eventTime : Instant) : Prop :=
  ∃ deployments, sortedDeployments context.deploymentOwners = .ok deployments ∧
    let scores := ownerScores (F := F) eventTime deployments context.codeOwners
    let recent := recentSet eventTime context.recentUsers
    2 ≤ (newUsers scores recent).length ∧
      ∀ p ∈ ownerItems scores recent, p.2 < lit 0 + userShare recent

/-- The owner that an order of the teams and an order of the recent users lead to. -/
def ownerIn (settings : HreSettings F) (graph : InMemoryGraphStore)
    (base : ReconciliationContext F) (workloadId : String) (eventTime : Instant)
    (now : String → Instant) (teams users : SetOrder) : Except PyExn (String × F) :=
  (resolve settings users workloadId eventTime
    (contextOf teams graph base workloadId eventTime now)).map Resolution.owner

/-- The owner does not depend on the order of the sets. -/
def OrderIndependent (settings : HreSettings F) (graph : InMemoryGraphStore)
    (base : ReconciliationContext F) (workloadId : String) (eventTime : Instant)
    (now : String → Instant) : Prop :=
  ∀ teams users teams' users' : SetOrder,
    ownerIn settings graph base workloadId eventTime now teams users =
      ownerIn settings graph base workloadId eventTime now teams' users'

/-! ### R3 -/

theorem get?_addPatterns (graph : InMemoryGraphStore) (now : String → Instant)
    (d : PyDict String (List String)) (team : GraphNode) (k : String) :
    (addPatterns graph now d team).get? k =
      if team.nodeId = k ∧ teamLabels graph k (now k) ≠ [] then some (teamLabels graph k (now k))
      else d.get? k := by
  unfold addPatterns
  dsimp only
  by_cases hk : team.nodeId = k
  · subst hk
    by_cases hlabels : teamLabels graph team.nodeId (now team.nodeId) = []
    · have hnot : ¬ (team.nodeId = team.nodeId ∧
          teamLabels graph team.nodeId (now team.nodeId) ≠ []) := fun h => h.2 hlabels
      rw [if_pos hlabels, if_neg hnot]
    · rw [if_neg hlabels, if_pos ⟨rfl, hlabels⟩, PyDict.get?_set, if_pos rfl]
  · have hnot : ¬ (team.nodeId = k ∧ teamLabels graph k (now k) ≠ []) := fun h => hk h.1
    rw [if_neg hnot]
    split
    · rfl
    · rw [PyDict.get?_set, if_neg (Ne.symm hk)]

theorem get?_foldl_addPatterns (graph : InMemoryGraphStore) (now : String → Instant)
    (teams : List GraphNode) (d : PyDict String (List String)) (k : String) :
    (teams.foldl (addPatterns graph now) d).get? k =
      if (∃ team ∈ teams, team.nodeId = k) ∧ teamLabels graph k (now k) ≠ [] then
        some (teamLabels graph k (now k))
      else d.get? k := by
  induction teams generalizing d with
  | nil => simp
  | cons team teams ih =>
    rw [List.foldl_cons, ih, get?_addPatterns]
    by_cases hlabels : teamLabels graph k (now k) = []
    · simp [hlabels]
    · by_cases hk : team.nodeId = k
      · simp [hlabels, hk]
      · simp [hlabels, hk]

/-- Two orders of the teams give the same patterns, in some order. -/
theorem namingPatternsOf_perm (o o' : SetOrder) (graph : InMemoryGraphStore)
    (now : String → Instant) :
    (namingPatternsOf o graph now).items.Perm (namingPatternsOf o' graph now).items := by
  refine PyDict.perm_of_get?_eq fun k => ?_
  unfold namingPatternsOf
  rw [get?_foldl_addPatterns, get?_foldl_addPatterns]
  have hperm := ((o.perm (graph.nodesByType.getD .team [])).trans
    (o'.perm (graph.nodesByType.getD .team [])).symm).filterMap graph.nodes.get?
  simp only [hperm.mem_iff]

theorem graphPatterns_perm (o : SetOrder) (graph : InMemoryGraphStore) (now : String → Instant) :
    (graphPatterns graph now).Perm (teamPatterns (namingPatternsOf o graph now).items) :=
  (namingPatternsOf_perm .stored o graph now).flatMap_right _

/-- What R3 says about the best pattern. -/
def r3Signal (workloadId : String) (p : String × String) : Option (Signal F) :=
  if (lit 0 : F) < patternScore workloadId p ∧ (dec 4 1 : F) ≤ patternScore workloadId p then
    some ⟨"R3", p.1, round 3 (min (dec 9 1) (patternScore workloadId p * dec 9 1))⟩
  else none

theorem r3Resolve_eq (workloadId : String) (patterns : PyDict String (List String)) :
    r3Resolve (F := F) workloadId patterns =
      (firstMax (patternScore (F := F) workloadId) (teamPatterns patterns.items)).bind
        (r3Signal workloadId) := by
  have hscan : scan (fun p => similarity (F := F) (normalizeName workloadId) p.2) (lit 0)
      (teamPatterns patterns.items) = _ :=
    @scan_eq _ _ _ (patternScore (F := F) workloadId) _ (lit 0)
  unfold r3Resolve
  dsimp only
  rw [hscan]
  cases firstMax (patternScore (F := F) workloadId) (teamPatterns patterns.items) with
  | none => rfl
  | some p =>
    obtain ⟨team, pattern⟩ := p
    dsimp only [Option.bind_some]
    unfold r3Signal
    by_cases hpos : (lit 0 : F) < patternScore workloadId (team, pattern)
    · by_cases hmin : patternScore workloadId (team, pattern) < (dec 4 1 : F)
      · simp [hpos, hmin]
      · simp [hpos, hmin, not_lt.1 hmin]
    · simp [hpos]

/-- **R3** says the same of two orders of its patterns, unless teams tie. -/
theorem r3Resolve_perm {workloadId : String} {patterns patterns' : PyDict String (List String)}
    (hp : patterns.items.Perm patterns'.items)
    (h : ¬ TeamTie F (teamPatterns patterns.items) workloadId) :
    r3Resolve (F := F) workloadId patterns = r3Resolve workloadId patterns' := by
  have hpairs : (teamPatterns patterns.items).Perm (teamPatterns patterns'.items) :=
    hp.flatMap_right _
  rw [r3Resolve_eq, r3Resolve_eq]
  refine firstMax_bind_eq hpairs fun p q hp hq => ?_
  have hscore : patternScore (F := F) workloadId p = patternScore workloadId q := hp.score_eq hq
  unfold r3Signal
  rw [← hscore]
  by_cases hc : (lit 0 : F) < patternScore workloadId p ∧ (dec 4 1 : F) ≤ patternScore workloadId p
  · rw [if_pos hc, if_pos hc]
    have hteam : p.1 = q.1 := by
      by_contra hne
      exact h ⟨p, q, hp, hq, hne, hc.1, hc.2⟩
    rw [hteam]
  · rw [if_neg hc, if_neg hc]

/-! ### R5 -/

section
variable (x : F) {scores : PyDict String F} {u : String}

/-- A user who is there keeps the place. -/
theorem items_addScore_of_get? {v : F} (hv : scores.get? u = some v) :
    (addScore x scores u).items = scores.items.map fun p => if p.1 = u then (u, v + x) else p := by
  have hmem : u ∈ scores.keys := PyDict.mem_keys_iff.2 (hv ▸ rfl)
  unfold addScore PyDict.getD
  rw [hv]
  exact PyDict.put_of_mem _ scores.nodup hmem

/-- A new user comes last. -/
theorem items_addScore_of_not_mem (hmem : u ∉ scores.keys) :
    (addScore x scores u).items = scores.items ++ [(u, lit 0 + x)] := by
  unfold addScore PyDict.getD
  rw [PyDict.get?_eq_none_iff.2 hmem]
  exact PyDict.put_of_not_mem _ hmem

theorem keys_addScore_of_mem (hmem : u ∈ scores.keys) : (addScore x scores u).keys = scores.keys := by
  obtain ⟨v, hv⟩ := Option.isSome_iff_exists.1 (PyDict.mem_keys_iff.1 hmem)
  unfold PyDict.keys
  rw [items_addScore_of_get? x hv, List.map_map]
  refine List.map_congr_left fun p _ => ?_
  dsimp only [Function.comp]
  split
  · exact Eq.symm (by assumption)
  · rfl

theorem keys_addScore_of_not_mem (hmem : u ∉ scores.keys) :
    (addScore x scores u).keys = scores.keys ++ [u] := by
  unfold PyDict.keys
  rw [items_addScore_of_not_mem x hmem, List.map_append]
  rfl

end

/-- Adding a score to users, all different: those who are there get it on top, the others
come after them. -/
theorem items_foldl_addScore (x : F) {users : List String} (hn : users.Nodup)
    (scores : PyDict String F) :
    (users.foldl (addScore x) scores).items =
      (scores.items.map fun p => if p.1 ∈ users then (p.1, p.2 + x) else p) ++
        (users.filter fun u => u ∉ scores.keys).map fun u => (u, lit 0 + x) := by
  induction users generalizing scores with
  | nil => simp
  | cons u users ih =>
    obtain ⟨hu, hrest⟩ := List.nodup_cons.1 hn
    rw [List.foldl_cons, ih hrest]
    by_cases hmem : u ∈ scores.keys
    · obtain ⟨v, hv⟩ := Option.isSome_iff_exists.1 (PyDict.mem_keys_iff.1 hmem)
      rw [items_addScore_of_get? x hv, keys_addScore_of_mem x hmem, List.map_map]
      congr 1
      · refine List.map_congr_left fun p hp => ?_
        by_cases hpu : p.1 = u
        · have hpv : p.2 = v := Option.some.inj ((PyDict.get?_of_mem hp).symm.trans (hpu ▸ hv))
          simp [hpu, hpv, hu]
        · simp [hpu]
      · simp [hmem]
    · -- a new user changes no old score, and the later ones are new with it or without
      have hold : (scores.items.map fun p => if p.1 ∈ users then (p.1, p.2 + x) else p) =
          scores.items.map fun p => if p.1 ∈ u :: users then (p.1, p.2 + x) else p := by
        refine List.map_congr_left fun p hp => ?_
        have hpu : p.1 ≠ u := fun h => hmem (h ▸ List.mem_map_of_mem hp)
        simp [hpu]
      have hnew : (users.filter fun w => w ∉ scores.keys ++ [u]) =
          users.filter fun w => w ∉ scores.keys := by
        refine List.filter_congr fun w hw => ?_
        have hwu : w ≠ u := fun h => hu (h ▸ hw)
        simp [hwu]
      rw [items_addScore_of_not_mem x hmem, keys_addScore_of_not_mem x hmem, List.map_append, hold,
        hnew, List.append_assoc]
      simp [hu, hmem]

/-- The scores of R5: the deployer and the code owners, then the new users, all with the
same share. -/
theorem r5Scores_items (o : SetOrder) (scores : PyDict String F) {recent : List String}
    (hn : recent.Nodup) :
    ((o.order recent).foldl (addScore (userShare recent)) scores).items =
      ownerItems scores recent ++
        (newUsers scores (o.order recent)).map fun u => (u, lit 0 + userShare recent) := by
  rw [items_foldl_addScore _ ((o.perm recent).nodup_iff.2 hn)]
  unfold ownerItems
  congr 1
  refine List.map_congr_left fun p _ => ?_
  simp only [(o.perm recent).mem_iff]

/-- Among equals, the first is the best. -/
theorem firstMax_of_equal {users : List String} {b : F} :
    firstMax Prod.snd (users.map fun u => (u, b)) = (users.map fun u => (u, b)).head? := by
  cases users with
  | nil => rfl
  | cons u users =>
    refine firstMax_cons_of_best fun p hp => ?_
    obtain ⟨w, -, rfl⟩ := List.mem_map.1 hp
    exact le_rfl

/-- Lists of at most one element have one order. -/
theorem eq_of_perm_of_length_lt {xs ys : List String} (hp : xs.Perm ys) (h : ys.length < 2) :
    xs = ys := by
  match ys with
  | [] => exact hp.eq_nil
  | [y] => exact List.perm_singleton.1 hp
  | _ :: _ :: _ =>
    simp only [List.length_cons] at h
    omega

/-- The owner that R5 finds, unless users tie. -/
theorem firstMax_r5Scores (o o' : SetOrder) (scores : PyDict String F) {recent : List String}
    (hn : recent.Nodup)
    (h : ¬ (2 ≤ (newUsers scores recent).length ∧
      ∀ p ∈ ownerItems scores recent, p.2 < lit 0 + userShare recent)) :
    firstMax Prod.snd ((o.order recent).foldl (addScore (userShare recent)) scores).items =
      firstMax Prod.snd ((o'.order recent).foldl (addScore (userShare recent)) scores).items := by
  rw [r5Scores_items o scores hn, r5Scores_items o' scores hn]
  by_cases hlength : (newUsers scores recent).length < 2
  · have hnew : ∀ o : SetOrder, newUsers scores (o.order recent) = newUsers scores recent :=
      fun o => eq_of_perm_of_length_lt ((o.perm recent).filter _) hlength
    rw [hnew o, hnew o']
  · have hbetter : ∃ p ∈ ownerItems scores recent, lit 0 + userShare recent ≤ p.2 := by
      by_contra hnone
      refine h ⟨Nat.le_of_not_lt hlength, fun p hp => ?_⟩
      exact not_le.1 fun hle => hnone ⟨p, hp, hle⟩
    obtain ⟨p, hp, hle⟩ := hbetter
    cases hx : firstMax Prod.snd (ownerItems scores recent) with
    | none =>
      rw [firstMax_eq_none.1 hx] at hp
      cases hp
    | some x =>
      have hmax : ∀ users : List String, ∀ q ∈ users.map fun u => (u, lit 0 + userShare recent),
          q.2 ≤ x.2 := by
        intro users q hq
        obtain ⟨u, -, rfl⟩ := List.mem_map.1 hq
        exact le_trans hle ((firstMax_best hx).2 p hp)
      rw [firstMax_append_of_le hx (hmax _), firstMax_append_of_le hx (hmax _)]

theorem recentSet_nodup (now : Instant) (users : List (String × PyDateTime)) :
    (recentSet now users).Nodup :=
  List.nodup_dedup _

/-- **R5** says the same in every order of the recent users, unless users tie. -/
theorem r5Resolve_order (o o' : SetOrder) {context : ReconciliationContext F}
    {eventTime : Instant} (h : ¬ UserTie context eventTime) :
    r5Resolve (F := F) o context.deploymentOwners context.codeOwners context.recentUsers eventTime =
      r5Resolve o' context.deploymentOwners context.codeOwners context.recentUsers eventTime := by
  unfold r5Resolve
  cases hd : sortedDeployments context.deploymentOwners with
  | error e => rfl
  | ok deployments =>
    have hmax := firstMax_r5Scores (F := F) o o'
      (ownerScores eventTime deployments context.codeOwners)
      (recentSet_nodup eventTime context.recentUsers)
      fun htie => h ⟨deployments, hd, htie⟩
    change Except.ok (Option.map _ (firstMax Prod.snd _)) = Except.ok (Option.map _ _)
    rw [hmax]

/-! ### The engine -/

/-- **No ties**: the workload is known to the graph, or neither teams nor users tie. -/
def NoTie (graph : InMemoryGraphStore) (base : ReconciliationContext F) (workloadId : String)
    (eventTime : Instant) (now : String → Instant) : Prop :=
  identityTargets graph workloadId eventTime (now workloadId) ≠ [] ∨
    (¬ TeamTie F (graphPatterns graph now) workloadId ∧ ¬ UserTie base eventTime)

theorem teamTie_perm {patterns patterns' : List (String × String)} (hp : patterns.Perm patterns')
    {workloadId : String} (h : TeamTie F patterns workloadId) : TeamTie F patterns' workloadId := by
  obtain ⟨p, q, hbp, hbq, hne, hpos, hmin⟩ := h
  exact ⟨p, q, hbp.perm hp, hbq.perm hp, hne, hpos, hmin⟩

/-- Without ties the order of the sets does not matter. -/
theorem orderIndependent_of_noTie (settings : HreSettings F) {graph : InMemoryGraphStore}
    {base : ReconciliationContext F} {workloadId : String} {eventTime : Instant}
    {now : String → Instant} (h : NoTie graph base workloadId eventTime now) :
    OrderIndependent settings graph base workloadId eventTime now := by
  intro teams users teams' users'
  unfold ownerIn
  congr 1
  unfold resolve contextOf
  dsimp only
  rw [r1Resolve_of_graph]
  cases hlast : (identityTargets graph workloadId eventTime (now workloadId)).getLast? with
  | some target => rfl
  | none =>
    obtain ⟨hteam, huser⟩ := h.resolve_left fun hne => hne (List.getLast?_eq_none_iff.1 hlast)
    have hteam' : ¬ TeamTie F (teamPatterns (namingPatternsOf teams graph now).items) workloadId :=
      fun htie => hteam (teamTie_perm (graphPatterns_perm teams graph now).symm htie)
    rw [r3Resolve_perm (namingPatternsOf_perm teams teams' graph now) hteam',
      r5Resolve_order users users' huser]

/-! ### Contexts from the graph alone -/

/-- One signal is the answer, if any cluster is combined and its confidence is positive. -/
def Decisive (settings : HreSettings F) (s : Signal F) : Prop :=
  1 ≤ settings.maxClusterTargets ∧ lit 0 < clusterConfidence settings.combination [s]

theorem rankedClusters_single (limit : Int) (s : Signal F) :
    rankedClusters limit [s] = if 1 ≤ limit then [(s.targetEntity, [s])] else [] := by
  have hclusters : (clusterByTarget [s]).items = [(s.targetEntity, [s])] := rfl
  unfold rankedClusters
  rw [hclusters]
  dsimp only [List.length_singleton]
  by_cases hlimit : 1 ≤ limit
  · rw [if_neg (by omega), if_pos hlimit]
  · rw [if_pos (by omega), if_neg hlimit]
    change firstItems limit [(s.targetEntity, [s])] = []
    unfold firstItems
    split
    · rw [show limit.toNat = 0 by omega]
      rfl
    · rw [show [(s.targetEntity, [s])].length - limit.natAbs = 0 by
        rw [List.length_singleton]
        omega]
      rfl

theorem combineSignals_of_decisive {settings : HreSettings F} {s : Signal F}
    (h : Decisive settings s) : (combineSignals settings [s]).map Resolution.owner =
      some (s.targetEntity, clusterConfidence settings.combination [s]) := by
  unfold combineSignals
  rw [rankedClusters_single, if_pos h.1, scan_eq]
  simp [firstMax, h.2, Resolution.owner]

theorem combineSignals_of_not_decisive {settings : HreSettings F} {s : Signal F}
    (h : ¬ Decisive settings s) : combineSignals settings [s] = none := by
  unfold combineSignals
  rw [rankedClusters_single, scan_eq]
  by_cases hlimit : 1 ≤ settings.maxClusterTargets
  · have hconf : ¬ lit 0 < clusterConfidence settings.combination [s] := fun hc => h ⟨hlimit, hc⟩
    rw [if_pos hlimit]
    simp [firstMax, hconf]
  · rw [if_neg hlimit]
    rfl

/-- The answer for a workload that the graph does not know, from the naming patterns. -/
theorem resolve_of_graph (settings : HreSettings F) (o users : SetOrder) {graph : InMemoryGraphStore}
    {workloadId tenantId : String} {eventTime : Instant} {now : String → Instant}
    (h : identityTargets graph workloadId eventTime (now workloadId) = []) :
    resolve settings users workloadId eventTime
        (contextOf o graph { tenantId } workloadId eventTime now) =
      .ok ((combineSignals settings
        (r3Resolve workloadId (namingPatternsOf o graph now)).toList).getD
          (fallback PyDict.empty)) := by
  have hlast : lastItems settings.maxHistoricalSignals ([] : List (String × F)) = [] := by
    unfold lastItems
    split
    · exact List.drop_nil
    · exact List.drop_nil
  have hr5 : r5Resolve (F := F) users [] [] [] eventTime = .ok none := by
    have hset : users.order (recentSet eventTime []) = [] := (users.perm []).eq_nil
    unfold r5Resolve
    change Except.ok (Option.map _ (firstMax Prod.snd
      ((users.order (recentSet eventTime [])).foldl _ PyDict.empty).items)) = _
    rw [hset]
    rfl
  unfold resolve contextOf
  dsimp only
  rw [r1Resolve_of_graph, h, hlast, hr5]
  have hr2 : r2Resolve (F := F) eventTime [] = none := rfl
  have hr4 : r4Resolve ([] : List (String × F)) = none := rfl
  change Except.ok ((combineSignals settings ((r2Resolve eventTime []).toList ++ _ ++
    (r4Resolve []).toList ++ [])).getD _) = _
  rw [hr2, hr4]
  simp only [Option.toList_none, List.nil_append, List.append_nil]

/-- The team at the front of the order is at the front of the patterns. -/
theorem head_foldl_addPatterns (graph : InMemoryGraphStore) (now : String → Instant)
    (teams : List GraphNode) {d : PyDict String (List String)} {t : String}
    (h : ∃ rest, d.items = (t, teamLabels graph t (now t)) :: rest) :
    ∃ rest, (teams.foldl (addPatterns graph now) d).items =
      (t, teamLabels graph t (now t)) :: rest := by
  induction teams generalizing d with
  | nil => exact h
  | cons team teams ih =>
    obtain ⟨rest, hitems⟩ := h
    refine ih ?_
    unfold addPatterns
    dsimp only
    split
    · exact ⟨rest, hitems⟩
    · by_cases ht : t = team.nodeId
      · subst ht
        refine ⟨rest, ?_⟩
        change PyDict.put _ _ d.items = _
        rw [hitems, PyDict.put, if_pos rfl]
      · refine ⟨PyDict.put team.nodeId (teamLabels graph team.nodeId (now team.nodeId)) rest, ?_⟩
        change PyDict.put _ _ d.items = _
        rw [hitems, PyDict.put, if_neg ht]

/-- Every team with patterns can come first. -/
theorem namingPatternsOf_front {graph : InMemoryGraphStore} (hg : graph.WellTyped)
    {now : String → Instant} {t : String} {labels : List String}
    (h : (namingPatternsOf .stored graph now).get? t = some labels) :
    ∃ rest, (namingPatternsOf (.front t) graph now).items = (t, labels) :: rest := by
  unfold namingPatternsOf at h
  rw [get?_foldl_addPatterns] at h
  split at h
  · rename_i hc
    obtain ⟨⟨team, hteam, hid⟩, hlabels⟩ := hc
    obtain rfl := Option.some.inj h
    obtain ⟨id, hmem, hget⟩ := List.mem_filterMap.1 hteam
    obtain rfl : id = t := (hg.named hget).symm.trans hid
    unfold namingPatternsOf SetOrder.front
    dsimp only
    rw [if_pos (show id ∈ graph.nodesByType.getD .team [] from hmem), List.filterMap_cons, hget,
      List.foldl_cons]
    refine head_foldl_addPatterns graph now _ ⟨[], ?_⟩
    unfold addPatterns
    rw [hid, if_neg hlabels]
    rfl
  · cases h

/-- A team that ties for the best similarity is found when it comes first. -/
theorem r3Resolve_front {graph : InMemoryGraphStore} (hg : graph.WellTyped)
    {now : String → Instant} {workloadId : String} {p : String × String}
    (hp : Best (patternScore (F := F) workloadId) (graphPatterns graph now) p) :
    r3Resolve (F := F) workloadId (namingPatternsOf (.front p.1) graph now) =
      r3Signal workloadId p := by
  obtain ⟨t, label⟩ := p
  -- the team's patterns, in any order of the teams
  obtain ⟨entry, hentry, hpattern⟩ := List.mem_flatMap.1 hp.1
  obtain ⟨label', hlabel, heq⟩ := List.mem_map.1 hpattern
  obtain ⟨rfl, rfl⟩ := Prod.mk.inj heq
  obtain ⟨rest, hitems⟩ := namingPatternsOf_front hg (PyDict.get?_of_mem hentry)
  have hbest := hp.perm (graphPatterns_perm (.front entry.1) graph now)
  have hsplit : teamPatterns (namingPatternsOf (.front entry.1) graph now).items =
      (entry.2.map fun pattern => (entry.1, pattern)) ++ teamPatterns rest := by
    rw [hitems]
    rfl
  rw [r3Resolve_eq]
  cases hx : firstMax (patternScore (F := F) workloadId)
      (entry.2.map fun pattern => (entry.1, pattern)) with
  | none =>
    have hnil := firstMax_eq_none.1 hx
    rw [List.map_eq_nil_iff] at hnil
    rw [hnil] at hlabel
    cases hlabel
  | some x =>
    have hxbest := firstMax_best hx
    obtain ⟨pattern, -, rfl⟩ := List.mem_map.1 hxbest.1
    have hle : patternScore (F := F) workloadId (entry.1, label') ≤
        patternScore workloadId (entry.1, pattern) :=
      hxbest.2 _ (List.mem_map.2 ⟨label', hlabel, rfl⟩)
    have hmem : (entry.1, pattern) ∈ teamPatterns (namingPatternsOf (.front entry.1) graph now).items :=
      hsplit ▸ List.mem_append_left _ hxbest.1
    have hscore : patternScore (F := F) workloadId (entry.1, pattern) =
        patternScore workloadId (entry.1, label') := le_antisymm (hbest.2 _ hmem) hle
    have hrest : ∀ z ∈ teamPatterns rest, patternScore (F := F) workloadId z ≤
        patternScore workloadId (entry.1, pattern) := fun z hz =>
      le_trans (hbest.2 z (hsplit ▸ List.mem_append_right _ hz)) hle
    rw [hsplit, firstMax_append_of_le hx hrest]
    dsimp only [Option.bind_some]
    unfold r3Signal
    rw [hscore]

/-- Two teams tie, and their signal is the answer. -/
def DecisiveTie (settings : HreSettings F) (patterns : List (String × String))
    (workloadId : String) : Prop :=
  ∃ p q s, Best (patternScore (F := F) workloadId) patterns p ∧
    Best (patternScore (F := F) workloadId) patterns q ∧ p.1 ≠ q.1 ∧
    r3Signal workloadId p = some s ∧ Decisive settings s

theorem r3Signal_eq_some {workloadId : String} {p : String × String} {s : Signal F}
    (h : r3Signal workloadId p = some s) :
    (lit 0 : F) < patternScore workloadId p ∧ (dec 4 1 : F) ≤ patternScore workloadId p ∧
      s = ⟨"R3", p.1, round 3 (min (dec 9 1) (patternScore workloadId p * dec 9 1))⟩ := by
  unfold r3Signal at h
  split at h
  · rename_i hc
    exact ⟨hc.1, hc.2, (Option.some.inj h).symm⟩
  · exact nomatch h

/-- The signals of two best patterns differ in the team. -/
theorem r3Signal_of_best {workloadId : String} {patterns : List (String × String)}
    {p q : String × String} {s : Signal F}
    (hp : Best (patternScore (F := F) workloadId) patterns p)
    (hq : Best (patternScore (F := F) workloadId) patterns q) (h : r3Signal workloadId p = some s) :
    r3Signal workloadId q = some { s with targetEntity := q.1 } := by
  obtain ⟨hpos, hmin, rfl⟩ := r3Signal_eq_some h
  have hscore : patternScore (F := F) workloadId p = patternScore workloadId q := hp.score_eq hq
  unfold r3Signal
  rw [hscore] at hpos hmin ⊢
  rw [if_pos ⟨hpos, hmin⟩]

/-- Where every order finds an indecisive signal or none, the answer is the fallback. -/
theorem combine_of_not_decisive {settings : HreSettings F} {graph : InMemoryGraphStore}
    {workloadId : String} {now : String → Instant} (o : SetOrder)
    (htie : TeamTie F (graphPatterns graph now) workloadId)
    (h : ¬ DecisiveTie settings (graphPatterns graph now) workloadId) :
    combineSignals settings (r3Resolve workloadId (namingPatternsOf o graph now)).toList = none := by
  rw [r3Resolve_eq]
  cases hx : firstMax (patternScore (F := F) workloadId)
      (teamPatterns (namingPatternsOf o graph now).items) with
  | none => exact combineSignals_nil settings
  | some x =>
    have hbest := (firstMax_best hx).perm (graphPatterns_perm o graph now).symm
    rw [Option.bind_some]
    cases hs : r3Signal (F := F) workloadId x with
    | none => exact combineSignals_nil settings
    | some s =>
      refine combineSignals_of_not_decisive fun hdecisive => h ?_
      obtain ⟨p, q, hp, hq, hne, -⟩ := htie
      by_cases hxp : x.1 = p.1
      · exact ⟨x, q, s, hbest, hq, hxp ▸ hne, hs, hdecisive⟩
      · exact ⟨x, p, s, hbest, hp, hxp, hs, hdecisive⟩

theorem not_userTie_bare (tenantId : String) (eventTime : Instant) :
    ¬ UserTie (F := F) { tenantId } eventTime := by
  rintro ⟨deployments, -, hlength, -⟩
  change 2 ≤ 0 at hlength
  omega

/-- **In the contexts that the processor builds**, the owner depends on the order of the
teams exactly when teams tie decisively. -/
theorem orderIndependent_graph_iff (settings : HreSettings F) {graph : InMemoryGraphStore}
    (hg : graph.WellTyped) (workloadId tenantId : String) (eventTime : Instant)
    (now : String → Instant) :
    OrderIndependent settings graph { tenantId } workloadId eventTime now ↔
      identityTargets graph workloadId eventTime (now workloadId) ≠ [] ∨
        ¬ DecisiveTie settings (graphPatterns graph now) workloadId := by
  by_cases hknown : identityTargets graph workloadId eventTime (now workloadId) = []
  · rw [or_iff_right (fun h => h hknown)]
    constructor
    · rintro hindep ⟨p, q, s, hp, hq, hne, hs, hdecisive⟩
      -- two orders, each with another of the tied teams in front
      have hsq := r3Signal_of_best hp hq hs
      have hfound := hindep (.front p.1) .stored (.front q.1) .stored
      unfold ownerIn at hfound
      rw [resolve_of_graph settings _ _ hknown, resolve_of_graph settings _ _ hknown,
        r3Resolve_front hg hp, r3Resolve_front hg hq, hs, hsq] at hfound
      have hp' := combineSignals_of_decisive hdecisive
      have hq' := @combineSignals_of_decisive _ _ settings { s with targetEntity := q.1 } hdecisive
      simp only [Option.toList_some] at hfound
      cases hcp : combineSignals settings [s] with
      | none =>
        rw [hcp] at hp'
        exact nomatch hp'
      | some r =>
        cases hcq : combineSignals settings [{ s with targetEntity := q.1 }] with
        | none =>
          rw [hcq] at hq'
          exact nomatch hq'
        | some r' =>
          rw [hcp] at hp'
          rw [hcq] at hq'
          rw [hcp, hcq] at hfound
          have howner : r.owner = r'.owner := Except.ok.inj hfound
          rw [Option.some.inj hp', Option.some.inj hq'] at howner
          have hteam : s.targetEntity = q.1 := congrArg Prod.fst howner
          rw [(r3Signal_eq_some hs).2.2] at hteam
          exact hne hteam
    · intro h
      by_cases htie : TeamTie F (graphPatterns graph now) workloadId
      · -- a tie that decides nothing gives the same answer in every order
        intro teams users teams' users'
        unfold ownerIn
        rw [resolve_of_graph settings _ _ hknown, resolve_of_graph settings _ _ hknown,
          combine_of_not_decisive teams htie h, combine_of_not_decisive teams' htie h]
      · exact orderIndependent_of_noTie settings (.inr ⟨htie, not_userTie_bare tenantId eventTime⟩)
  · exact ⟨fun _ => .inl hknown, fun _ => orderIndependent_of_noTie settings (.inl hknown)⟩

/-! ### Any context -/

/-- What R3 says when it takes one of the best patterns. -/
def TeamAnswer (patterns : List (String × String)) (workloadId : String)
    (s : Option (Signal F)) : Prop :=
  (patterns = [] ∧ s = none) ∨
    ∃ p, Best (patternScore (F := F) workloadId) patterns p ∧ s = r3Signal workloadId p

/-- The signal of a user and its score. -/
def r5Signal (item : String × F) : Signal F :=
  ⟨"R5", item.1, round 3 (min (dec 75 2) item.2)⟩

/-- What R5 says when it takes one of the users that tie, or the best when none do. -/
def UserAnswer (scores : PyDict String F) (recent : List String) (s : Option (Signal F)) : Prop :=
  s = (firstMax Prod.snd (ownerItems scores recent ++
      (newUsers scores recent).map fun u => (u, lit 0 + userShare recent))).map r5Signal ∨
    (∀ p ∈ ownerItems scores recent, p.2 < lit 0 + userShare recent) ∧
      ∃ u ∈ newUsers scores recent, s = some (r5Signal (u, lit 0 + userShare recent))

/-- The answer from what R3 and R5 say, the rest of the context as it is. -/
def combined (settings : HreSettings F) (context : ReconciliationContext F) (eventTime : Instant)
    (r3 r5 : Option (Signal F)) : Resolution F :=
  let r2 := r2Resolve eventTime context.temporalEvents
  let r4 := r4Resolve (lastItems settings.maxHistoricalSignals context.historicalAttributions)
  (combineSignals settings (r2.toList ++ r3.toList ++ r4.toList ++ r5.toList)).getD
    (fallback context.proportionalUsers)

/-- **The ties agree**: whichever of the best teams and of the users that tie is taken, the
other signals of the context outweigh the difference. -/
def TiesAgree (settings : HreSettings F) (patterns : List (String × String))
    (context : ReconciliationContext F) (workloadId : String) (eventTime : Instant) : Prop :=
  ∀ deployments, sortedDeployments context.deploymentOwners = .ok deployments →
    let users := UserAnswer (ownerScores (F := F) eventTime deployments context.codeOwners)
      (recentSet eventTime context.recentUsers)
    ∀ r3 r3' r5 r5', TeamAnswer patterns workloadId r3 → TeamAnswer patterns workloadId r3' →
      users r5 → users r5' →
      (combined settings context eventTime r3 r5).owner =
        (combined settings context eventTime r3' r5').owner

/-- Some order of the teams leads to each answer of R3, and to no other. -/
theorem teamAnswer_iff {graph : InMemoryGraphStore} (hg : graph.WellTyped)
    {now : String → Instant} {workloadId : String} {s : Option (Signal F)} :
    TeamAnswer (graphPatterns graph now) workloadId s ↔
      ∃ o : SetOrder, r3Resolve workloadId (namingPatternsOf o graph now) = s := by
  constructor
  · rintro (⟨hnil, rfl⟩ | ⟨p, hp, rfl⟩)
    · refine ⟨.stored, ?_⟩
      rw [r3Resolve_eq]
      change (firstMax _ (graphPatterns graph now)).bind _ = none
      rw [hnil]
      rfl
    · exact ⟨.front p.1, r3Resolve_front hg hp⟩
  · rintro ⟨o, rfl⟩
    rw [r3Resolve_eq]
    cases hx : firstMax (patternScore (F := F) workloadId)
        (teamPatterns (namingPatternsOf o graph now).items) with
    | none =>
      have hperm := graphPatterns_perm o graph now
      rw [firstMax_eq_none.1 hx] at hperm
      exact .inl ⟨hperm.eq_nil, rfl⟩
    | some p => exact .inr ⟨p, (firstMax_best hx).perm (graphPatterns_perm o graph now).symm, rfl⟩

/-- Among users that tie, the one at the front of the order is the best. -/
theorem firstMax_front {scores : PyDict String F} {recent : List String} {u : String}
    (hu : u ∈ newUsers scores recent)
    (h : ∀ p ∈ ownerItems scores recent, p.2 < lit 0 + userShare recent) :
    firstMax Prod.snd (ownerItems scores recent ++
      (newUsers scores ((SetOrder.front u).order recent)).map
        fun u => (u, lit 0 + userShare recent)) = some (u, lit 0 + userShare recent) := by
  refine firstMax_append_of_lt ?_ h
  have hfilter := List.mem_filter.1 hu
  have hfront : newUsers scores ((SetOrder.front u).order recent) =
      u :: newUsers scores (recent.erase u) := by
    unfold newUsers SetOrder.front
    dsimp only
    rw [if_pos hfilter.1]
    exact List.filter_cons_of_pos hfilter.2
  rw [hfront, firstMax_of_equal]
  rfl

/-- Some order of the users leads to each answer of R5, and to no other. -/
theorem userAnswer_iff {scores : PyDict String F} {recent : List String} (hn : recent.Nodup)
    {s : Option (Signal F)} :
    UserAnswer scores recent s ↔
      ∃ o : SetOrder, (firstMax Prod.snd ((o.order recent).foldl
        (addScore (userShare recent)) scores).items).map r5Signal = s := by
  simp only [r5Scores_items _ scores hn]
  constructor
  · rintro (rfl | ⟨hless, u, hu, rfl⟩)
    · exact ⟨.stored, rfl⟩
    · exact ⟨.front u, by rw [firstMax_front hu hless]; rfl⟩
  · rintro ⟨o, rfl⟩
    by_cases htie : 2 ≤ (newUsers scores recent).length ∧
        ∀ p ∈ ownerItems scores recent, p.2 < lit 0 + userShare recent
    · -- all the new users tie, and they are not none
      have hperm : (newUsers scores (o.order recent)).Perm (newUsers scores recent) :=
        (o.perm recent).filter _
      obtain ⟨u, users, hcons⟩ := List.exists_cons_of_length_pos
        (show 0 < (newUsers scores (o.order recent)).length by rw [hperm.length_eq]; omega)
      have hmax : firstMax Prod.snd (ownerItems scores recent ++
          (newUsers scores (o.order recent)).map fun u => (u, lit 0 + userShare recent)) =
          some (u, lit 0 + userShare recent) := by
        refine firstMax_append_of_lt ?_ htie.2
        rw [hcons, firstMax_of_equal]
        rfl
      rw [hmax]
      exact .inr ⟨htie.2, u, hperm.mem_iff.1 (hcons ▸ List.mem_cons_self), rfl⟩
    · left
      have hsame := firstMax_r5Scores o .stored scores hn htie
      rw [r5Scores_items o scores hn, r5Scores_items .stored scores hn] at hsame
      rw [hsame]
      rfl

/-- The owner of a workload that the graph does not know, from what R3 and R5 say. -/
theorem ownerIn_eq {settings : HreSettings F} {graph : InMemoryGraphStore}
    {base : ReconciliationContext F} {workloadId : String} {eventTime : Instant}
    {now : String → Instant} {deployments : List (String × PyDateTime)}
    (hknown : identityTargets graph workloadId eventTime (now workloadId) = [])
    (hd : sortedDeployments base.deploymentOwners = .ok deployments) (teams users : SetOrder) :
    ownerIn settings graph base workloadId eventTime now teams users =
      .ok (combined settings base eventTime
        (r3Resolve workloadId (namingPatternsOf teams graph now))
        ((firstMax Prod.snd ((users.order (recentSet eventTime base.recentUsers)).foldl
          (addScore (userShare (recentSet eventTime base.recentUsers)))
          (ownerScores eventTime deployments base.codeOwners)).items).map r5Signal)).owner := by
  unfold ownerIn resolve contextOf
  dsimp only
  rw [r1Resolve_of_graph, hknown]
  unfold r5Resolve
  rw [hd]
  rfl

/-- **In every context**, the owner depends on the orders exactly when the workload is
unknown to the graph and the ties do not agree. -/
theorem orderIndependent_context_iff (settings : HreSettings F) {graph : InMemoryGraphStore}
    (hg : graph.WellTyped) (base : ReconciliationContext F) (workloadId : String)
    (eventTime : Instant) (now : String → Instant) :
    OrderIndependent settings graph base workloadId eventTime now ↔
      identityTargets graph workloadId eventTime (now workloadId) ≠ [] ∨
        TiesAgree settings (graphPatterns graph now) base workloadId eventTime := by
  by_cases hknown : identityTargets graph workloadId eventTime (now workloadId) = []
  · rw [or_iff_right (fun h => h hknown)]
    have hnodup := recentSet_nodup eventTime base.recentUsers
    constructor
    · intro hindep deployments hd users r3 r3' r5 r5' h3 h3' h5 h5'
      obtain ⟨t, rfl⟩ := (teamAnswer_iff hg).1 h3
      obtain ⟨t', rfl⟩ := (teamAnswer_iff hg).1 h3'
      obtain ⟨u, rfl⟩ := (userAnswer_iff hnodup).1 h5
      obtain ⟨u', rfl⟩ := (userAnswer_iff hnodup).1 h5'
      have hsame := hindep t u t' u'
      rw [ownerIn_eq hknown hd, ownerIn_eq hknown hd] at hsame
      exact Except.ok.inj hsame
    · intro hagree teams users teams' users'
      cases hd : sortedDeployments base.deploymentOwners with
      | error e =>
        unfold ownerIn resolve contextOf
        dsimp only
        rw [r1Resolve_of_graph, hknown]
        unfold r5Resolve
        rw [hd]
        rfl
      | ok deployments =>
        rw [ownerIn_eq hknown hd, ownerIn_eq hknown hd]
        exact congrArg Except.ok (hagree deployments hd _ _ _ _
          ((teamAnswer_iff hg).2 ⟨teams, rfl⟩) ((teamAnswer_iff hg).2 ⟨teams', rfl⟩)
          ((userAnswer_iff hnodup).2 ⟨users, rfl⟩) ((userAnswer_iff hnodup).2 ⟨users', rfl⟩))
  · exact ⟨fun _ => .inl hknown, fun _ => orderIndependent_of_noTie settings (.inl hknown)⟩

/-- **Order of sets.**  The owner depends on it exactly when the workload is unknown to the
graph and the ties do not agree: never without ties, and in the contexts that the processor
builds exactly when two teams tie and the signal of one is enough for an answer. -/
theorem orderIndependent_iff (settings : HreSettings F) {graph : InMemoryGraphStore}
    (hg : graph.WellTyped) (base : ReconciliationContext F) (workloadId : String)
    (eventTime : Instant) (now : String → Instant) :
    (OrderIndependent settings graph base workloadId eventTime now ↔
      identityTargets graph workloadId eventTime (now workloadId) ≠ [] ∨
        TiesAgree settings (graphPatterns graph now) base workloadId eventTime) ∧
    (NoTie graph base workloadId eventTime now →
      OrderIndependent settings graph base workloadId eventTime now) ∧
    ∀ tenantId, OrderIndependent settings graph { tenantId } workloadId eventTime now ↔
      identityTargets graph workloadId eventTime (now workloadId) ≠ [] ∨
        ¬ DecisiveTie settings (graphPatterns graph now) workloadId :=
  ⟨orderIndependent_context_iff settings hg base workloadId eventTime now,
    orderIndependent_of_noTie settings,
    fun tenantId => orderIndependent_graph_iff settings hg workloadId tenantId eventTime now⟩

/-- A team and its repository. -/
def withTeam (graph : InMemoryGraphStore) (team repository label : String) : InMemoryGraphStore :=
  let graph := graph.upsertNode
    { nodeId := team, nodeType := .team, label := team, createdAt := 0, updatedAt := 0 } 0
  let graph := graph.upsertNode
    { nodeId := repository, nodeType := .repository, label, createdAt := 0, updatedAt := 0 } 0
  graph.addEdge
    { edgeType := .ownsCode, fromId := team, toId := repository, confidence := fullScore,
      weight := fullScore, validFrom := 0,
      provenance := { source := "scm", method := "sync", createdAt := 0 } } 0

/-- Two teams with a repository of the same name each. -/
def twoTeams : InMemoryGraphStore :=
  withTeam (withTeam {} "team:a" "repo:a" "payments") "team:b" "repo:b" "payments"

theorem wellTyped_withTeam {graph : InMemoryGraphStore} (hg : graph.WellTyped)
    (team repository label : String) : (withTeam graph team repository label).WellTyped :=
  ((hg.upsertNode _ _).upsertNode _ _).addEdge _ _

theorem wellTyped_twoTeams : twoTeams.WellTyped :=
  wellTyped_withTeam (wellTyped_withTeam InMemoryGraphStore.wellTyped_empty _ _ _) _ _ _

/-- No order matters to a workload whose name is unlike all the patterns. -/
theorem orderIndependent_twoTeams :
    OrderIndependent (F := Double) .default twoTeams {} "search-index" 10 (fun _ => 10) := by
  have hunlike : ∀ p ∈ graphPatterns twoTeams (fun _ => 10),
      ¬ (dec 4 1 : Double) ≤ patternScore "search-index" p := by decide +kernel
  have hteam : ¬ TeamTie Double (graphPatterns twoTeams fun _ => 10) "search-index" := by
    rintro ⟨p, q, hp, -, -, -, hmin⟩
    exact hunlike p hp.1 hmin
  exact (orderIndependent_iff .default wellTyped_twoTeams {} "search-index" 10 fun _ => 10).2.1
    (.inr ⟨hteam, not_userTie_bare "default" 10⟩)

/-- With one order of the teams a workload belongs to the one, with another to the other. -/
theorem not_orderIndependent :
    ¬ OrderIndependent (F := Double) .default twoTeams {} "payments-api" 10 (fun _ => 10) := by
  intro h
  have hsame := h .stored .stored (.front "team:b") .stored
  have hleft : ownerIn (F := Double) .default twoTeams {} "payments-api" 10 (fun _ => 10)
      .stored .stored = .ok ("team:a", dec 9 1) := by decide +kernel
  have hright : ownerIn (F := Double) .default twoTeams {} "payments-api" 10 (fun _ => 10)
      (.front "team:b") .stored = .ok ("team:b", dec 9 1) := by decide +kernel
  rw [hleft, hright] at hsame
  exact absurd (Prod.mk.inj (Except.ok.inj hsame)).1 (by decide)

end ComputeIntelligence
