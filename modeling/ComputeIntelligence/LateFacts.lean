import ComputeIntelligence.HashOrder

/-! # Attribution and later facts

The owner of a past event should not depend on an edge that becomes valid after it.  The
identity mappings are read at the event's time, so such an edge reaches them only through
the version of its key that it supersedes, which ends when it is added.  The naming
patterns are read at the current time, so such an edge reaches them as soon as it is valid.

Adding an edge takes the version it ends out of every query and puts itself at its end
(`getEdgesFrom_addEdge`).  From there, the context of the event is the same exactly when
the owner's edge stays the last, and the labels of the team's repositories do not change
(`ignoresLater_iff`).
-/
namespace ComputeIntelligence
open FirstMax ScoreArith HeuristicReconciliationEngine

/-- The edge is open until `x` is added at `added`, which ends it by the instant. -/
def endedBy (x : GraphEdge) (added at_ : Instant) (e : GraphEdge) : Prop :=
  e.key = x.key ∧ e.validTo = none ∧ added ≤ at_

instance (x : GraphEdge) (added at_ : Instant) (e : GraphEdge) :
    Decidable (endedBy x added at_ e) := inferInstanceAs (Decidable (_ ∧ _))

variable {graph : InMemoryGraphStore} {x : GraphEdge} {added : Instant}

/-! ### Queries -/

/-- What is valid once `x` has been added. -/
theorem endKey_mem_iff {at_ : Instant} {e : GraphEdge} :
    (GraphEdge.endKey x.key added e).span.Mem at_ ↔ e.span.Mem at_ ∧ ¬ endedBy x added at_ e := by
  unfold GraphEdge.endKey endedBy
  by_cases hkey : e.key = x.key
  · rw [if_pos hkey]
    unfold GraphEdge.endedAt GraphEdge.span Span.Mem
    cases hto : e.validTo with
    | none => simp [hkey]
    | some u => simp [hkey]
  · rw [if_neg hkey]
    simp [hkey]

/-- **A query once `x` has been added**: without the version that it ends, and with `x` at
the end. -/
theorem getEdgesFrom_addEdge (hs : graph.WellIndexed) (n : String) (atTime : Option Instant)
    (now : Instant) : (graph.addEdge x added).getEdgesFrom n atTime now =
      ((graph.getEdgesFrom n atTime now).filter fun e =>
        ¬ endedBy x added (atTime.getD now) e).map (GraphEdge.endKey x.key added) ++
      if x.fromId = n ∧ x.span.Mem (atTime.getD now) then [x] else [] := by
  rw [(hs.addEdge x added).getEdgesFrom_eq, hs.addEdge_edges, hs.getEdgesFrom_eq,
    List.filter_append, List.filter_map, List.filter_filter]
  congr 1
  · congr 1
    refine List.filter_congr fun e _ => ?_
    dsimp only [Function.comp]
    rw [InMemoryGraphStore.endKey_fromId, Bool.eq_iff_iff]
    simp only [Bool.and_eq_true, decide_eq_true_eq, endKey_mem_iff]
    tauto
  · by_cases hlate : x.fromId = n ∧ x.span.Mem (atTime.getD now)
    · rw [if_pos hlate]
      simp [hlate.1, hlate.2]
    · rw [if_neg hlate]
      simpa using hlate

/-- What depends on the target of an edge only, over a query. -/
theorem filterMap_addEdge (hs : graph.WellIndexed) {f : GraphEdge → Option String}
    (hf : ∀ e, f (GraphEdge.endKey x.key added e) = f e) (n : String) (atTime : Option Instant)
    (now : Instant) : ((graph.addEdge x added).getEdgesFrom n atTime now).filterMap f =
      ((graph.getEdgesFrom n atTime now).filter fun e =>
        ¬ endedBy x added (atTime.getD now) e).filterMap f ++
      if x.fromId = n ∧ x.span.Mem (atTime.getD now) then (f x).toList else [] := by
  rw [getEdgesFrom_addEdge hs, List.filterMap_append, List.filterMap_map]
  congr 1
  · refine List.filterMap_congr fun e _ => hf e
  · split
    · cases hx : f x with
      | none => simp [hx]
      | some label => simp [hx]
    · rfl

/-! ### The owner -/

/-- The edges from the nodes of a workload at an instant. -/
def workloadEdges (graph : InMemoryGraphStore) (workloadId : String) (eventTime now : Instant) :
    List GraphEdge :=
  (candidateGraphNodeIds workloadId).flatMap fun lookupId =>
    graph.getEdgesFrom lookupId (some eventTime) now

/-- The last edge that leads to an owner. -/
def ownerEdge (graph : InMemoryGraphStore) (edges : List GraphEdge) : Option GraphEdge :=
  (edges.filter fun e => (ownerTarget graph e).isSome).getLast?

/-- The version that `x` ends is not the owner's edge at the event's time, or the last of
the other edges leads to the same owner. -/
def OwnerKept (graph : InMemoryGraphStore) (x : GraphEdge) (added : Instant) (workloadId : String)
    (eventTime now : Instant) : Prop :=
  ∀ e, ownerEdge graph (workloadEdges graph workloadId eventTime now) = some e →
    endedBy x added eventTime e →
    ∃ e', ownerEdge graph ((workloadEdges graph workloadId eventTime now).filter fun e =>
        ¬ endedBy x added eventTime e) = some e' ∧ ownerTarget graph e' = ownerTarget graph e

/-- The last result of a partial function is that of the last argument it is defined on. -/
theorem getLast?_filterMap {f : GraphEdge → Option String} (edges : List GraphEdge) :
    (edges.filterMap f).getLast? = (edges.filter fun e => (f e).isSome).getLast?.bind f := by
  induction edges using List.reverseRecOn with
  | nil => rfl
  | append_singleton edges e ih =>
    rw [List.filterMap_append, List.filter_append]
    cases he : f e with
    | none => simpa [he] using ih
    | some owner => simp [he]

theorem ownerTarget_endKey (graph : InMemoryGraphStore) (k : EdgeKey) (t : Instant)
    (e : GraphEdge) : ownerTarget graph (GraphEdge.endKey k t e) = ownerTarget graph e := by
  unfold ownerTarget
  rw [InMemoryGraphStore.endKey_toId]

theorem identityTargets_eq (graph : InMemoryGraphStore) (workloadId : String)
    (eventTime now : Instant) : identityTargets graph workloadId eventTime now =
      (workloadEdges graph workloadId eventTime now).filterMap (ownerTarget graph) := by
  unfold identityTargets workloadEdges
  rw [List.filterMap_flatMap]

/-- The owners once `x` has been added: without the version that it ends. -/
theorem identityTargets_addEdge (hs : graph.WellIndexed) {eventTime : Instant}
    (hx : eventTime < x.validFrom) (workloadId : String) (now : Instant) :
    identityTargets (graph.addEdge x added) workloadId eventTime now =
      ((workloadEdges graph workloadId eventTime now).filter fun e =>
        ¬ endedBy x added eventTime e).filterMap (ownerTarget graph) := by
  unfold identityTargets workloadEdges
  rw [List.filter_flatMap, List.filterMap_flatMap]
  refine List.flatMap_congr fun lookupId _ => ?_
  have hlate : ¬ (x.fromId = lookupId ∧ x.span.Mem eventTime) :=
    fun h => absurd h.2.1 (not_le.2 hx)
  change (((graph.addEdge x added).getEdgesFrom lookupId (some eventTime) now).filterMap
    (ownerTarget graph)) = _
  rw [filterMap_addEdge hs (ownerTarget_endKey graph _ _), Option.getD_some, if_neg hlate,
    List.append_nil]

/-- The owner is the same exactly when it is kept. -/
theorem ownerKept_iff (hs : graph.WellIndexed) {eventTime : Instant}
    (hx : eventTime < x.validFrom) (workloadId : String) (now : Instant) :
    (identityTargets (graph.addEdge x added) workloadId eventTime now).getLast? =
        (identityTargets graph workloadId eventTime now).getLast? ↔
      OwnerKept graph x added workloadId eventTime now := by
  rw [identityTargets_addEdge hs hx, identityTargets_eq, getLast?_filterMap, getLast?_filterMap]
  unfold OwnerKept ownerEdge
  set edges := workloadEdges graph workloadId eventTime now
  -- the owner edges that are left are those of the owner edges that do not end
  have hcomm : (edges.filter fun e => ¬ endedBy x added eventTime e).filter
      (fun e => (ownerTarget graph e).isSome) =
      (edges.filter fun e => (ownerTarget graph e).isSome).filter fun e =>
        ¬ endedBy x added eventTime e := by
    rw [List.filter_filter, List.filter_filter]
    exact List.filter_congr fun e _ => Bool.and_comm _ _
  rw [hcomm]
  have howner : ∀ e ∈ edges.filter (fun e => (ownerTarget graph e).isSome),
      (ownerTarget graph e).isSome = true := fun e he => (List.mem_filter.1 he).2
  revert howner
  induction edges.filter (fun e => (ownerTarget graph e).isSome) using List.reverseRecOn with
  | nil => simp
  | append_singleton edges e _ =>
    intro howner
    obtain ⟨owner, hsome⟩ := Option.isSome_iff_exists.1 (howner e (by simp))
    rw [List.getLast?_concat, List.filter_append, Option.bind_some, hsome]
    by_cases hended : endedBy x added eventTime e
    · have hnone : [e].filter (fun e => decide (¬ endedBy x added eventTime e)) = [] := by
        simp [hended]
      rw [hnone, List.append_nil]
      constructor
      · intro hlast e' he' _
        obtain rfl := Option.some.inj he'
        rw [hsome]
        exact Option.bind_eq_some_iff.1 hlast
      · intro hkept
        obtain ⟨e', he', howner'⟩ := hkept e rfl hended
        rw [he', Option.bind_some, howner', hsome]
    · have hkeep : [e].filter (fun e => decide (¬ endedBy x added eventTime e)) = [e] := by
        simp [hended]
      rw [hkeep, List.getLast?_concat, Option.bind_some, hsome]
      refine ⟨fun _ e' he' hended' => ?_, fun _ => rfl⟩
      obtain rfl := Option.some.inj he'
      exact absurd hended' hended

/-! ### The naming patterns -/

/-- Where `x` leads from a team to a repository: `x` is valid exactly if the version that
it ends no longer is, and the repositories after that version have the same label. -/
def LabelsKept (graph : InMemoryGraphStore) (x : GraphEdge) (added now : Instant) : Prop :=
  (∃ team ∈ graph.getNodesByType .team, team.nodeId = x.fromId) →
  ∀ label, repositoryLabel graph x = some label →
    (x.span.Mem now ↔ ∃ e ∈ graph.getEdgesFrom x.fromId none now, endedBy x added now e) ∧
    ∀ before e later, graph.getEdgesFrom x.fromId none now = before ++ e :: later →
      endedBy x added now e → ∀ l ∈ later.filterMap (repositoryLabel graph), l = label

theorem repositoryLabel_endKey (graph : InMemoryGraphStore) (k : EdgeKey) (t : Instant)
    (e : GraphEdge) : repositoryLabel graph (GraphEdge.endKey k t e) = repositoryLabel graph e := by
  unfold repositoryLabel
  rw [InMemoryGraphStore.endKey_toId]

/-- An edge that ends leads where `x` does. -/
theorem repositoryLabel_of_endedBy {at_ : Instant} {e : GraphEdge} (h : endedBy x added at_ e) :
    repositoryLabel graph e = repositoryLabel graph x := by
  have htarget : e.toId = x.toId := congrArg (·.2.1) h.1
  unfold repositoryLabel
  rw [htarget]

theorem teamLabels_addEdge (hs : graph.WellIndexed) (teamId : String) (now : Instant) :
    teamLabels (graph.addEdge x added) teamId now =
      ((graph.getEdgesFrom teamId none now).filter fun e =>
        ¬ endedBy x added now e).filterMap (repositoryLabel graph) ++
      if x.fromId = teamId ∧ x.span.Mem now then (repositoryLabel graph x).toList else [] :=
  filterMap_addEdge hs (repositoryLabel_endKey graph _ _) teamId none now

/-- The labels of another team do not change. -/
theorem teamLabels_addEdge_of_ne (hs : graph.WellIndexed) {teamId : String}
    (h : x.fromId ≠ teamId) (now : Instant) :
    teamLabels (graph.addEdge x added) teamId now = teamLabels graph teamId now := by
  have hstay : ∀ e ∈ graph.getEdgesFrom teamId none now,
      decide (¬ endedBy x added now e) = true := by
    intro e he
    rw [hs.getEdgesFrom_eq] at he
    have hfrom := (Bool.and_eq_true_iff.1 (List.mem_filter.1 he).2).1
    refine decide_eq_true fun hended => h ?_
    rw [← of_decide_eq_true hfrom]
    exact (congrArg (·.1) hended.1).symm
  rw [teamLabels_addEdge hs, List.filter_eq_self.2 hstay, if_neg fun hboth => h hboth.1,
    List.append_nil]
  rfl

/-- At most one edge of a query ends. -/
theorem endedBy_unique (hs : graph.WellIndexed) {n : String} {now : Instant}
    {before later : List GraphEdge} {e : GraphEdge}
    (h : graph.getEdgesFrom n none now = before ++ e :: later) (he : endedBy x added now e) :
    ∀ e' ∈ before ++ later, ¬ endedBy x added now e' := by
  have hsub : (graph.getEdgesFrom n none now).Sublist graph.edges := by
    rw [hs.getEdgesFrom_eq]
    exact List.filter_sublist
  have hnodup := (((hsub.filter fun e : GraphEdge => decide (e.validTo = none)).map
    GraphEdge.key).nodup hs.openKeys_nodup)
  rw [h, List.filter_append, List.filter_cons, if_pos (decide_eq_true he.2.1), List.map_append,
    List.map_cons, List.nodup_middle, ← List.map_append, ← List.filter_append] at hnodup
  intro e' he' hended
  refine (List.nodup_cons.1 hnodup).1 (List.mem_map.2 ⟨e', ?_, hended.1.trans he.1.symm⟩)
  exact List.mem_filter.2 ⟨he', decide_eq_true hended.2.1⟩

theorem cons_eq_concat_iff {α : Type} {a : α} {l : List α} :
    a :: l = l ++ [a] ↔ ∀ b ∈ l, b = a := by
  induction l with
  | nil => simp
  | cons b l ih =>
    rw [List.cons_append, List.cons.injEq, List.forall_mem_cons]
    constructor
    · rintro ⟨rfl, hrest⟩
      exact ⟨rfl, ih.1 hrest⟩
    · rintro ⟨rfl, hrest⟩
      exact ⟨rfl, ih.2 hrest⟩

/-- The labels of the team of `x`, where a version of `x` ends. -/
theorem teamLabels_addEdge_of_ended (hs : graph.WellIndexed) {now : Instant} {label : String}
    (hlabel : repositoryLabel graph x = some label) {before later : List GraphEdge} {e : GraphEdge}
    (h : graph.getEdgesFrom x.fromId none now = before ++ e :: later)
    (he : endedBy x added now e) :
    teamLabels (graph.addEdge x added) x.fromId now = teamLabels graph x.fromId now ↔
      x.span.Mem now ∧ ∀ l ∈ later.filterMap (repositoryLabel graph), l = label := by
  have hstay : ((before ++ e :: later).filter fun e => decide (¬ endedBy x added now e)) =
      before ++ later := by
    have hothers := endedBy_unique hs h he
    rw [List.filter_append, List.filter_cons, if_neg (by simpa using he), ← List.filter_append]
    exact List.filter_eq_self.2 fun e' he' => decide_eq_true (hothers e' he')
  have hsame : repositoryLabel graph e = some label :=
    (repositoryLabel_of_endedBy he).trans hlabel
  rw [teamLabels_addEdge hs, h, hstay, hlabel]
  unfold teamLabels
  rw [h, List.filterMap_append, List.filterMap_append, List.filterMap_cons_some hsame,
    List.append_assoc, List.append_cancel_left_eq]
  -- the label leaves its place, and comes back at the end if the new version is valid
  by_cases hvalid : x.span.Mem now
  · rw [if_pos ⟨rfl, hvalid⟩, and_iff_right hvalid, ← cons_eq_concat_iff]
    exact eq_comm
  · rw [if_neg fun hboth => hvalid hboth.2, List.append_nil]
    refine ⟨fun hlist => ?_, fun hboth => absurd hboth.1 hvalid⟩
    have hlength := congrArg List.length hlist
    simp at hlength

/-- The labels of the team of `x`, where no version of `x` ends. -/
theorem teamLabels_addEdge_of_not_ended (hs : graph.WellIndexed) {now : Instant}
    (h : ∀ e ∈ graph.getEdgesFrom x.fromId none now, ¬ endedBy x added now e) :
    teamLabels (graph.addEdge x added) x.fromId now = teamLabels graph x.fromId now ↔
      ∀ label, repositoryLabel graph x = some label → ¬ x.span.Mem now := by
  rw [teamLabels_addEdge hs, List.filter_eq_self.2 fun e he => decide_eq_true (h e he)]
  change teamLabels graph x.fromId now ++ _ = _ ↔ _
  rw [List.append_right_eq_self]
  by_cases hvalid : x.span.Mem now
  · rw [if_pos ⟨rfl, hvalid⟩]
    cases repositoryLabel graph x with
    | none => simp
    | some label => simpa using hvalid
  · rw [if_neg fun hboth => hvalid hboth.2]
    exact ⟨fun _ _ _ => hvalid, fun _ => rfl⟩

/-- The labels of the team of `x`, where `x` leads to no repository. -/
theorem teamLabels_addEdge_of_none (hs : graph.WellIndexed) {now : Instant}
    (h : repositoryLabel graph x = none) :
    teamLabels (graph.addEdge x added) x.fromId now = teamLabels graph x.fromId now := by
  have hnothing : (if x.fromId = x.fromId ∧ x.span.Mem now then
      (none : Option String).toList else []) = [] := by
    split
    · rfl
    · rfl
  rw [teamLabels_addEdge hs, h, hnothing, List.append_nil, List.filterMap_filter]
  refine List.filterMap_congr fun e _ => ?_
  by_cases hended : endedBy x added now e
  · rw [if_neg (by simpa using hended), repositoryLabel_of_endedBy hended, h]
  · rw [if_pos (decide_eq_true hended)]

/-- The naming patterns are the same exactly when the labels are kept. -/
theorem labelsKept_iff (hs : graph.WellIndexed) (now : Instant) :
    ((∃ team ∈ graph.getNodesByType .team, team.nodeId = x.fromId) →
      teamLabels (graph.addEdge x added) x.fromId now = teamLabels graph x.fromId now) ↔
    LabelsKept graph x added now := by
  unfold LabelsKept
  refine imp_congr_right fun _ => ?_
  cases hlabel : repositoryLabel graph x with
  | none => simp [teamLabels_addEdge_of_none hs hlabel]
  | some label =>
    by_cases hended : ∃ e ∈ graph.getEdgesFrom x.fromId none now, endedBy x added now e
    · obtain ⟨e, he, hends⟩ := hended
      constructor
      · intro hsame label' hlabel'
        obtain rfl := Option.some.inj hlabel'
        obtain ⟨before, later, hsplit⟩ := List.append_of_mem he
        have hvalid := ((teamLabels_addEdge_of_ended hs hlabel hsplit hends).1 hsame).1
        refine ⟨⟨fun _ => ⟨e, he, hends⟩, fun _ => hvalid⟩, ?_⟩
        intro before' e' later' hsplit' hends'
        exact ((teamLabels_addEdge_of_ended hs hlabel hsplit' hends').1 hsame).2
      · intro hkept
        obtain ⟨hvalid, hlater⟩ := hkept label rfl
        obtain ⟨before, later, hsplit⟩ := List.append_of_mem he
        exact (teamLabels_addEdge_of_ended hs hlabel hsplit hends).2
          ⟨hvalid.2 ⟨e, he, hends⟩, hlater before e later hsplit hends⟩
    · have hnone : ∀ e ∈ graph.getEdgesFrom x.fromId none now, ¬ endedBy x added now e :=
        fun e he hends => hended ⟨e, he, hends⟩
      rw [teamLabels_addEdge_of_not_ended hs hnone, hlabel]
      constructor
      · intro hnot label' hlabel'
        refine ⟨iff_of_false (hnot label' hlabel') hended, fun before e later hsplit hends => ?_⟩
        exact absurd hends (hnone e (hsplit ▸ List.mem_append_right _ List.mem_cons_self))
      · intro hkept label' hlabel' hvalid
        exact hended ((hkept label' hlabel').1.1 hvalid)

/-- The patterns of a team are its labels, in the stored order of the teams. -/
theorem getD_namingPatternsOf (graph : InMemoryGraphStore) {now : String → Instant} {k : String}
    (h : ∃ team ∈ graph.getNodesByType .team, team.nodeId = k) :
    (namingPatternsOf .stored graph now).getD k [] = teamLabels graph k (now k) := by
  have hteam : ∃ team ∈ (SetOrder.stored.order (graph.nodesByType.getD .team [])).filterMap
      graph.nodes.get?, team.nodeId = k := h
  unfold namingPatternsOf PyDict.getD
  rw [get?_foldl_addPatterns]
  by_cases hlabels : teamLabels graph k (now k) = []
  · rw [if_neg fun hboth => hboth.2 hlabels, hlabels]
    rfl
  · rw [if_pos ⟨hteam, hlabels⟩]
    rfl

theorem namingPatternsOf_addEdge_iff (hs : graph.WellIndexed) (now : String → Instant) :
    (∀ teams : SetOrder, namingPatternsOf teams (graph.addEdge x added) now =
      namingPatternsOf teams graph now) ↔ LabelsKept graph x added (now x.fromId) := by
  rw [← labelsKept_iff hs]
  constructor
  · intro hsame hteam
    have hget := congrArg (·.getD x.fromId []) (hsame .stored)
    exact (getD_namingPatternsOf (graph.addEdge x added) hteam).symm.trans
      (hget.trans (getD_namingPatternsOf graph hteam))
  · intro hlabels teams
    unfold namingPatternsOf
    refine List.foldl_ext _ _ _ fun patterns team hmem => ?_
    have hteam : team ∈ graph.getNodesByType .team :=
      ((teams.perm (graph.nodesByType.getD .team [])).filterMap graph.nodes.get?).mem_iff.1 hmem
    have hsame : teamLabels (graph.addEdge x added) team.nodeId (now team.nodeId) =
        teamLabels graph team.nodeId (now team.nodeId) := by
      by_cases hx : x.fromId = team.nodeId
      · have htaken := hlabels ⟨team, hteam, hx.symm⟩
        rwa [hx] at htaken
      · exact teamLabels_addEdge_of_ne hs hx _
    unfold addPatterns
    rw [hsame]

/-! ### The context -/

variable {F : Type} [ScoreArith F]

/-- The context of an event, and with it its owner, are the same with and without `x`. -/
def IgnoresLater (F : Type) [ScoreArith F] (graph : InMemoryGraphStore) (x : GraphEdge)
    (added : Instant) (workloadId : String) (eventTime : Instant) (now : String → Instant) : Prop :=
  ∀ (settings : HreSettings F) (teams users : SetOrder) (tenantId : String),
    let before : ReconciliationContext F := buildContext teams graph workloadId eventTime tenantId now
    let later := buildContext teams (graph.addEdge x added) workloadId eventTime tenantId now
    later = before ∧
      resolve settings users workloadId eventTime later =
        resolve settings users workloadId eventTime before

theorem single_injective {key : String} {a b : Option String} (h : single key a = single key b) :
    a = b := by
  have hget := congrArg (·.get? key) h
  cases a with
  | none => cases b with
    | none => rfl
    | some b => simp [single, PyDict.get?_set] at hget
  | some a => cases b with
    | none => simp [single, PyDict.get?_set] at hget
    | some b => simpa [single, PyDict.get?_set] using hget

/-- **Later facts.**  The context of an event does not change with an edge that becomes valid
after it exactly when the owner and the labels are kept. -/
theorem ignoresLater_iff (hs : graph.WellIndexed) {workloadId : String} {eventTime : Instant}
    (hx : eventTime < x.validFrom) (now : String → Instant) :
    IgnoresLater F graph x added workloadId eventTime now ↔
      OwnerKept graph x added workloadId eventTime (now workloadId) ∧
        LabelsKept graph x added (now x.fromId) := by
  rw [← ownerKept_iff hs hx, ← namingPatternsOf_addEdge_iff hs]
  constructor
  · intro hsame
    constructor
    · -- any settings and any tenant show the change
      have hcontext := (hsame .default .stored .stored "").1
      have hidentity := congrArg ReconciliationContext.identityMappings hcontext
      change identityMappingsOf _ _ _ _ = identityMappingsOf _ _ _ _ at hidentity
      rw [identityMappingsOf_eq, identityMappingsOf_eq] at hidentity
      exact single_injective hidentity
    · intro teams
      have hcontext := (hsame .default teams .stored "").1
      exact congrArg ReconciliationContext.namingPatterns hcontext
  · rintro ⟨howner, hpatterns⟩ settings teams users tenantId
    have hcontext : buildContext (F := F) teams (graph.addEdge x added) workloadId eventTime tenantId
        now = buildContext teams graph workloadId eventTime tenantId now := by
      unfold buildContext
      rw [identityMappingsOf_eq, identityMappingsOf_eq, howner, hpatterns teams]
    dsimp only
    rw [hcontext]
    exact ⟨rfl, rfl⟩

/-- An edge that is valid from the instant 20. -/
def lateEdge (edgeType : EdgeType) (fromId toId : String) : GraphEdge :=
  { edgeType, fromId, toId, confidence := fullScore, weight := fullScore, validFrom := 20,
    provenance := { source := "scm", method := "sync", createdAt := 20 } }

theorem wellIndexed_twoTeams : twoTeams.WellIndexed := by
  have hteam : ∀ {graph : InMemoryGraphStore}, graph.WellIndexed → ∀ team repository label,
      (withTeam graph team repository label).WellIndexed := fun hg _ _ _ =>
    ((hg.upsertNode _ _).upsertNode _ _).addEdge _ _
  exact hteam (hteam InMemoryGraphStore.wellIndexed_empty _ _ _) _ _ _

/-- An owner from later on is not one at the event's time. -/
theorem ignoresLater_owner : IgnoresLater Double twoTeams
    (lateEdge .attributedTo "resource:search-index" "team:a") 20 "search-index" 10 fun _ => 30 := by
  refine (ignoresLater_iff wellIndexed_twoTeams (by decide) fun _ => 30).2 ⟨?_, ?_⟩
  · intro e howner
    have hnone : ownerEdge twoTeams (workloadEdges twoTeams "search-index" 10 30) = none := by
      decide +kernel
    rw [hnone] at howner
    cases howner
  · intro hteam
    exact absurd hteam (by decide +kernel)

/-- A team with a repository, and a repository of no team. -/
def oneTeam : InMemoryGraphStore :=
  (withTeam {} "team:a" "repo:a" "payments").upsertNode
    { nodeId := "repo:b", nodeType := .repository, label := "search-index", createdAt := 0,
      updatedAt := 0 } 0

/-- A repository that a team owns from later on gives a past event its owner. -/
theorem not_ignoresLater : ¬ IgnoresLater Double oneTeam
    (lateEdge .ownsCode "team:a" "repo:b") 20 "search-index" 10 fun _ => 30 := by
  intro h
  have hsame := congrArg (Except.map Resolution.owner) (h .default .stored .stored "default").2
  have hbefore : (resolve (F := Double) .default .stored "search-index" 10
      (buildContext .stored oneTeam "search-index" 10 "default" fun _ => 30)).map
      Resolution.owner = .ok ("unresolved", lit 0) := by decide +kernel
  have hlater : (resolve (F := Double) .default .stored "search-index" 10
      (buildContext .stored (oneTeam.addEdge (lateEdge .ownsCode "team:a" "repo:b") 20)
        "search-index" 10 "default" fun _ => 30)).map Resolution.owner =
      .ok ("team:a", dec 9 1) := by decide +kernel
  rw [hbefore, hlater] at hsame
  exact absurd (Prod.mk.inj (Except.ok.inj hsame)).1 (by decide)

end ComputeIntelligence
