import ComputeIntelligence.Processor
import Mathlib.Data.List.Chain

/-! # Does membership depend on the order of handling?

A person moves through a chain of teams, one `ORG_CHANGE` event a move.  Messages are
keyed by their dedup key, so nothing fixes the order in which the processor handles
them.  Handling a move closes the membership it leaves at the time of the event and
opens the one it enters; closing a membership that no handled event has opened does
nothing.

Which memberships are open after some moves is decided by the last move that names
each team (`TeamMove.inTeam`), and which of them ended late by the moves that enter a
team that is still open (`TeamMove.Overstays`): `Tracks` states this of a store, and one
handler keeps it.  So the person ends up in exactly the last team of the chain if and
only if the order of handling settles there (`membership_settled_iff`).  The order of
the event times always does; a swap of two moves already may not
(`reversed_moves_keep_left_team`).
-/
namespace ComputeIntelligence

/-- A handled move: the teams, the time of the event, and the clock reading at which
an open membership of the entered team is superseded. -/
structure TeamMove where
  previousTeam : String
  newTeam : String
  eventTime : Instant
  now : Instant
deriving DecidableEq

namespace TeamMove

/-- The move changes the team, and both are named. -/
def Proper (m : TeamMove) : Prop :=
  m.previousTeam ≠ "" ∧ m.newTeam ≠ "" ∧ m.previousTeam ≠ m.newTeam

/-- The last of the moves that names the team enters it. -/
def inTeam (team : String) (moves : List TeamMove) : Bool :=
  moves.foldl (fun member m =>
    if m.newTeam = team then true else if m.previousTeam = team then false else member) false

/-- Some move enters the team while it is entered and not left, at a clock reading
after `limit`. -/
def Overstays (limit : Instant) (team : String) (moves : List TeamMove) : Prop :=
  ∃ before m after, moves = before ++ m :: after ∧ m.newTeam = team ∧
    inTeam team before = true ∧ limit < m.now

/-- The order of the moves settles on one team: it is the only one whose last move is
an entry, and no other was entered again, while still open, at a reading after `limit`. -/
structure Settles (limit : Instant) (team : String) (moves : List TeamMove) : Prop where
  last : ∀ t, inTeam t moves = true ↔ t = team
  prompt : ∀ t, t ≠ team → ¬ Overstays limit t moves

@[simp] theorem inTeam_nil (team : String) : inTeam team [] = false := rfl

theorem inTeam_concat (team : String) (moves : List TeamMove) (m : TeamMove) :
    inTeam team (moves ++ [m]) =
      if m.newTeam = team then true
      else if m.previousTeam = team then false else inTeam team moves := by
  unfold inTeam
  rw [List.foldl_append]
  rfl

theorem not_overstays_nil (limit : Instant) (team : String) : ¬ Overstays limit team [] := by
  rintro ⟨before, m, after, h, -⟩
  simp at h

theorem overstays_concat {limit : Instant} {team : String} {moves : List TeamMove}
    {m : TeamMove} : Overstays limit team (moves ++ [m]) ↔
      Overstays limit team moves ∨
        (m.newTeam = team ∧ inTeam team moves = true ∧ limit < m.now) := by
  constructor
  · rintro ⟨before, m', after, h, hm⟩
    -- the move in question is the new one exactly when nothing comes after it
    rcases List.eq_nil_or_concat after with rfl | ⟨after, m₁, rfl⟩
    · obtain ⟨rfl, hm'⟩ := List.append_inj' h rfl
      cases hm'
      exact .inr hm
    · rw [List.concat_eq_append, ← List.cons_append, ← List.append_assoc] at h
      obtain ⟨hmoves, -⟩ := List.append_inj' h rfl
      exact .inl ⟨before, m', after, hmoves, hm⟩
  · rintro (⟨before, m', after, rfl, hm⟩ | hm)
    · exact ⟨before, m', after ++ [m], by simp, hm⟩
    · exact ⟨moves, m, [], rfl, hm⟩

/-- In the order of a chain, the one open team is the last one entered, and no team is
entered while it is open. -/
theorem chain_moves {moves : List TeamMove} {m : TeamMove} (limit : Instant)
    (hproper : ∀ m' ∈ moves ++ [m], m'.Proper)
    (hlinked : (moves ++ [m]).IsChain fun a b => a.newTeam = b.previousTeam) :
    (∀ t, inTeam t (moves ++ [m]) = true ↔ t = m.newTeam) ∧
      ∀ t, ¬ Overstays limit t (moves ++ [m]) := by
  induction moves using List.reverseRecOn generalizing m with
  | nil =>
    refine ⟨fun t => ?_, fun t hover => ?_⟩
    · rw [inTeam_concat, inTeam_nil]
      by_cases h : m.newTeam = t
      · simp [h]
      · simp [h, Ne.symm h]
    · rcases overstays_concat.mp hover with h | ⟨-, hin, -⟩
      · exact not_overstays_nil _ _ h
      · cases hin
  | append_singleton moves m₀ ih =>
    obtain ⟨hlast, hprompt⟩ := ih (m := m₀)
      (fun m' hm' => hproper m' (List.mem_append_left _ hm')) (List.isChain_append.mp hlinked).1
    have hlink : m₀.newTeam = m.previousTeam :=
      (List.isChain_append.mp hlinked).2.2 m₀ (by simp) m (by simp)
    obtain ⟨-, -, hne⟩ := hproper m (List.mem_append_right _ List.mem_cons_self)
    refine ⟨fun t => ?_, fun t hover => ?_⟩
    · rw [inTeam_concat]
      by_cases hnew : m.newTeam = t
      · simp [hnew]
      by_cases hprev : m.previousTeam = t
      · simp [hnew, hprev, Ne.symm hnew]
      · -- no third team is open: the open one is the one this move leaves
        rw [if_neg hnew, if_neg hprev, hlast t, hlink]
        simp [Ne.symm hnew, Ne.symm hprev]
    · rcases overstays_concat.mp hover with h | ⟨rfl, hin, -⟩
      · exact hprompt t h
      · exact hne (hlink.symm.trans ((hlast m.newTeam).mp hin).symm)

/-- **Moves in the order of a chain settle** on the last team, whatever the clock. -/
theorem settles_of_chain {moves : List TeamMove} {m : TeamMove} (limit : Instant)
    (hproper : ∀ m' ∈ moves ++ [m], m'.Proper)
    (hlinked : (moves ++ [m]).IsChain fun a b => a.newTeam = b.previousTeam) :
    Settles limit m.newTeam (moves ++ [m]) := by
  obtain ⟨hlast, hprompt⟩ := chain_moves limit hproper hlinked
  exact ⟨hlast, fun t _ => hprompt t⟩

end TeamMove

/-! ## Open and late versions of a key -/

/-- Some version of the key has no end. -/
def OpenAt (edges : List GraphEdge) (k : EdgeKey) : Prop :=
  ∃ e ∈ edges, e.key = k ∧ e.validTo = none

/-- Some version of the key ends after `limit`. -/
def EndsAfter (limit : Instant) (edges : List GraphEdge) (k : EdgeKey) : Prop :=
  ∃ e ∈ edges, e.key = k ∧ ∃ u ∈ e.validTo, limit < u

theorem openAt_endKey {edges : List GraphEdge} {k k' : EdgeKey} {t : Instant} :
    OpenAt (edges.map (GraphEdge.endKey k t)) k' ↔ k' ≠ k ∧ OpenAt edges k' := by
  constructor
  · rintro ⟨e', he', hkey, hopen⟩
    obtain ⟨e, he, rfl⟩ := List.mem_map.mp he'
    obtain ⟨hne, hnone⟩ := InMemoryGraphStore.endKey_open hopen
    rw [GraphEdge.endKey_key] at hkey
    exact ⟨hkey ▸ hne, e, he, hkey, hnone⟩
  · rintro ⟨hne, e, he, hkey, hnone⟩
    have hsame : GraphEdge.endKey k t e = e := if_neg (hkey ▸ hne)
    exact ⟨e, List.mem_map.mpr ⟨e, he, hsame⟩, hkey, hnone⟩

theorem endsAfter_endKey {limit : Instant} {edges : List GraphEdge} {k k' : EdgeKey}
    {t : Instant} : EndsAfter limit (edges.map (GraphEdge.endKey k t)) k' ↔
      EndsAfter limit edges k' ∨ (k' = k ∧ limit < t ∧ OpenAt edges k) := by
  constructor
  · rintro ⟨e', he', hkey, u, hu, hlate⟩
    obtain ⟨e, he, rfl⟩ := List.mem_map.mp he'
    rw [GraphEdge.endKey_key] at hkey
    by_cases hk : e.key = k
    · rw [GraphEdge.endKey, if_pos hk] at hu
      cases hend : e.validTo with
      | none =>
        -- this version was open, and ends at `t` now
        have hut : t = u := by simpa [GraphEdge.endedAt, hend] using hu
        exact .inr ⟨hkey.symm.trans hk, hut ▸ hlate, e, he, hk, hend⟩
      | some v =>
        have huv : v = u := by simpa [GraphEdge.endedAt, hend] using hu
        exact .inl ⟨e, he, hkey, v, hend, huv ▸ hlate⟩
    · rw [GraphEdge.endKey, if_neg hk] at hu
      exact .inl ⟨e, he, hkey, u, hu, hlate⟩
  · rintro (⟨e, he, hkey, u, hu, hlate⟩ | ⟨rfl, hlate, e, he, hkey, hnone⟩)
    · refine ⟨GraphEdge.endKey k t e, List.mem_map.mpr ⟨e, he, rfl⟩, ?_, u, ?_, hlate⟩
      · rw [GraphEdge.endKey_key, hkey]
      · unfold GraphEdge.endKey
        split
        · rw [GraphEdge.endedAt_of_closed (by rw [hu]; exact Option.some_ne_none u)]
          exact hu
        · exact hu
    · refine ⟨GraphEdge.endKey k' t e, List.mem_map.mpr ⟨e, he, rfl⟩, ?_, t, ?_, hlate⟩
      · rw [GraphEdge.endKey_key, hkey]
      · rw [GraphEdge.endKey, if_pos hkey, GraphEdge.endedAt_of_open hnone]
        rfl

theorem openAt_concat {edges : List GraphEdge} {edge : GraphEdge} {k : EdgeKey} :
    OpenAt (edges ++ [edge]) k ↔ OpenAt edges k ∨ (edge.key = k ∧ edge.validTo = none) := by
  unfold OpenAt
  simp [or_and_right, exists_or]

theorem endsAfter_concat {limit : Instant} {edges : List GraphEdge} {edge : GraphEdge}
    {k : EdgeKey} (hopen : edge.validTo = none) :
    EndsAfter limit (edges ++ [edge]) k ↔ EndsAfter limit edges k := by
  unfold EndsAfter
  simp [or_and_right, exists_or, hopen]

/-! ## What handling a move does -/

namespace AttributionProcessor

/-- The key of a membership. -/
def memberKey (person team : String) : EdgeKey := ("person:" ++ person, "team:" ++ team, .memberOf)

theorem memberKey_inj {person team team' : String} :
    memberKey person team = memberKey person team' ↔ team = team' := by
  constructor
  · intro h
    exact (String.append_right_inj _).mp (congrArg (·.2.1) h)
  · rintro rfl
    rfl

/-- The move an event reports, as handled with some clock readings. -/
def moveOf (x : AcceptedEvent × Readings) : TeamMove where
  previousTeam := x.1.1.text "previous_team" ""
  newTeam := x.1.1.text "new_team" ""
  eventTime := x.1.1.eventTime.instant
  now := x.2 2

/-- Handle events in the order of the list. -/
def handleAll (g : InMemoryGraphStore) (order : List (AcceptedEvent × Readings)) :
    InMemoryGraphStore :=
  order.foldl (fun g x => handle g x.1 x.2) g

/-- The team nodes that `get_edges_from` reports the person a member of at `t`. -/
def memberTeams (g : InMemoryGraphStore) (person : String) (t : Instant) : List String :=
  ((g.getEdgesFrom ("person:" ++ person) (some t) t).filter fun e =>
    e.edgeType = .memberOf).map GraphEdge.toId

/-- The event is a move of the person. -/
structure IsMove (person : String) (e : AcceptedEvent) : Prop where
  orgChange : e.1.eventType = .orgChange
  mover : e.1.text "person_id" "" = person
  named : person ≠ ""
  leaves : e.1.text "previous_team" "" ≠ ""
  enters : e.1.text "new_team" "" ≠ ""
  changes : e.1.text "previous_team" "" ≠ e.1.text "new_team" ""

theorem IsMove.proper {person : String} {e : AcceptedEvent} (h : IsMove person e)
    (clock : Readings) : (moveOf (e, clock)).Proper :=
  ⟨h.leaves, h.enters, h.changes⟩

/-- **What handling a move does to the edges**: the membership it leaves ends at the
time of the event, an open one of the team it enters at the clock reading, and the new
one is appended. -/
theorem IsMove.handle_edges {person : String} {e : AcceptedEvent} (h : IsMove person e)
    {g : InMemoryGraphStore} (hg : g.WellIndexed) (clock : Readings) :
    (handle g e clock).WellIndexed ∧
      (handle g e clock).edges =
        ((g.edges.map (GraphEdge.endKey (memberKey person (moveOf (e, clock)).previousTeam)
          e.1.eventTime.instant)).map
            (GraphEdge.endKey (memberKey person (moveOf (e, clock)).newTeam) (clock 2))) ++
          [eventEdge .memberOf ("person:" ++ person) ("team:" ++ (moveOf (e, clock)).newTeam) "hr"
            e.1.eventTime.instant (clock 1)] := by
  unfold handle
  rw [h.orgChange]
  dsimp only
  unfold handleOrgChange
  simp only [h.mover, if_neg h.named, if_pos (And.intro h.leaves h.changes),
    if_pos (And.intro h.enters h.changes)]
  have hclosed := hg.closeEdge .memberOf ("person:" ++ person)
    ("team:" ++ e.1.text "previous_team" "") (some e.1.eventTime.instant) (clock 0)
  refine ⟨hclosed.addEdge _ _, ?_⟩
  rw [hclosed.addEdge_edges, hg.closeEdge_edges]
  rfl

/-- The memberships of a person in a store, against the moves handled so far: which are
open, and which ended after `limit`. -/
structure Tracks (person : String) (limit : Instant) (g : InMemoryGraphStore)
    (moves : List TeamMove) : Prop where
  indexed : g.WellIndexed
  member : ∀ e ∈ g.edges, e.fromId = "person:" ++ person → e.edgeType = .memberOf →
    (∃ team, e.toId = "team:" ++ team) ∧ e.validFrom ≤ limit
  opened : ∀ team, OpenAt g.edges (memberKey person team) ↔ TeamMove.inTeam team moves = true
  late : ∀ team, EndsAfter limit g.edges (memberKey person team) ↔
    TeamMove.Overstays limit team moves

/-- **One move**: the store follows. -/
theorem Tracks.handle {person : String} {limit : Instant} {g : InMemoryGraphStore}
    {moves : List TeamMove} (h : Tracks person limit g moves) {e : AcceptedEvent}
    (he : IsMove person e) (hlimit : e.1.eventTime.instant ≤ limit) (clock : Readings) :
    Tracks person limit (handle g e clock) (moves ++ [moveOf (e, clock)]) := by
  obtain ⟨hindexed, hedges⟩ := he.handle_edges h.indexed clock
  obtain ⟨-, -, hne⟩ := he.proper clock
  refine ⟨hindexed, ?_, ?_, ?_⟩
  · intro edge hmem hfrom htype
    rw [hedges, List.map_map, List.mem_append, List.mem_map, List.mem_singleton] at hmem
    rcases hmem with ⟨old, hold, rfl⟩ | rfl
    · -- ending a version changes its end only
      have hsame : ∀ (k : EdgeKey) (t : Instant) (e : GraphEdge),
          (GraphEdge.endKey k t e).fromId = e.fromId ∧ (GraphEdge.endKey k t e).toId = e.toId ∧
          (GraphEdge.endKey k t e).edgeType = e.edgeType ∧
          (GraphEdge.endKey k t e).validFrom = e.validFrom := by
        intro k t e
        unfold GraphEdge.endKey
        split <;> exact ⟨rfl, rfl, rfl, rfl⟩
      simp only [Function.comp_apply, hsame] at hfrom htype ⊢
      exact h.member old hold hfrom htype
    · exact ⟨⟨_, rfl⟩, hlimit⟩
  · intro team
    rw [hedges, openAt_concat, openAt_endKey, openAt_endKey, h.opened, TeamMove.inTeam_concat]
    have hkey : (eventEdge .memberOf ("person:" ++ person)
        ("team:" ++ (moveOf (e, clock)).newTeam) "hr" e.1.eventTime.instant (clock 1)).key =
        memberKey person (moveOf (e, clock)).newTeam := rfl
    rw [hkey]
    simp only [ne_eq, memberKey_inj]
    by_cases hnew : (moveOf (e, clock)).newTeam = team
    · simp [hnew, eventEdge]
    by_cases hprev : (moveOf (e, clock)).previousTeam = team
    · simp [hnew, hprev]
    · simp [hnew, hprev, Ne.symm hnew, Ne.symm hprev]
  · intro team
    rw [hedges, endsAfter_concat rfl, endsAfter_endKey, endsAfter_endKey, openAt_endKey,
      h.late, h.opened, TeamMove.overstays_concat]
    have hnotLate : ¬ limit < e.1.eventTime.instant := not_lt.mpr hlimit
    simp only [ne_eq, memberKey_inj, hnotLate, false_and, and_false, or_false, Ne.symm hne,
      not_false_eq_true, true_and]
    constructor
    · rintro (hover | ⟨rfl, hlate, hin⟩)
      · exact .inl hover
      · exact .inr ⟨rfl, (h.opened _).mp hin, hlate⟩
    · rintro (hover | ⟨rfl, hin, hlate⟩)
      · exact .inl hover
      · exact .inr ⟨rfl, hlate, (h.opened _).mpr hin⟩

/-- **A run of moves**: the store follows. -/
theorem Tracks.handleAll {person : String} {limit : Instant} {g : InMemoryGraphStore}
    {moves : List TeamMove} (h : Tracks person limit g moves)
    {order : List (AcceptedEvent × Readings)}
    (horder : ∀ x ∈ order, IsMove person x.1 ∧ x.1.1.eventTime.instant ≤ limit) :
    Tracks person limit (handleAll g order) (moves ++ order.map moveOf) := by
  induction order generalizing g moves with
  | nil => simpa [AttributionProcessor.handleAll] using h
  | cons x order ih =>
    obtain ⟨hmove, hlimit⟩ := horder x List.mem_cons_self
    have hrest := ih (h.handle hmove hlimit x.2) fun y hy => horder y (List.mem_cons_of_mem _ hy)
    simpa [AttributionProcessor.handleAll, List.append_assoc] using hrest

/-- A store that knows no membership of the person. -/
theorem tracks_of_no_membership {person : String} (limit : Instant) {g : InMemoryGraphStore}
    (hg : g.WellIndexed)
    (hnone : ∀ e ∈ g.edges, e.fromId = "person:" ++ person → e.edgeType ≠ .memberOf) :
    Tracks person limit g [] := by
  have hkey : ∀ e ∈ g.edges, ∀ team, e.key ≠ memberKey person team := by
    intro e he team hk
    exact hnone e he (congrArg (·.1) hk) (congrArg (·.2.2) hk)
  refine ⟨hg, ?_, ?_, ?_⟩
  · intro e he hfrom htype
    exact absurd htype (hnone e he hfrom)
  · intro team
    constructor
    · rintro ⟨e, he, hk, -⟩
      exact absurd hk (hkey e he team)
    · intro hin
      cases hin
  · intro team
    constructor
    · rintro ⟨e, he, hk, -⟩
      exact absurd hk (hkey e he team)
    · intro hover
      exact absurd hover (TeamMove.not_overstays_nil _ _)

/-! ## Where the person ends up -/

/-- A team is reported at a time from `limit` on exactly when a version of its key is
open, or ends after that time. -/
theorem Tracks.mem_memberTeams {person : String} {limit : Instant} {g : InMemoryGraphStore}
    {moves : List TeamMove} (h : Tracks person limit g moves) {t : Instant} (ht : limit ≤ t)
    (x : String) : x ∈ memberTeams g person t ↔
      ∃ team, x = "team:" ++ team ∧
        (OpenAt g.edges (memberKey person team) ∨ EndsAfter t g.edges (memberKey person team)) := by
  unfold memberTeams
  rw [h.indexed.getEdgesFrom_eq]
  simp only [List.mem_map, List.mem_filter, Bool.and_eq_true, decide_eq_true_eq,
    Option.getD_some]
  constructor
  · rintro ⟨e, ⟨⟨he, hfrom, hmem⟩, htype⟩, rfl⟩
    obtain ⟨⟨team, hteam⟩, -⟩ := h.member e he hfrom htype
    have hkey : e.key = memberKey person team := by
      unfold GraphEdge.key memberKey
      rw [hfrom, hteam, htype]
    refine ⟨team, hteam, ?_⟩
    cases hend : e.validTo with
    | none => exact .inl ⟨e, he, hkey, hend⟩
    | some u => exact .inr ⟨e, he, hkey, u, hend, hmem.2 u hend⟩
  · rintro ⟨team, rfl, hversion⟩
    -- open or not, the version has not ended by then
    obtain ⟨e, he, hkey, hend⟩ : ∃ e ∈ g.edges, e.key = memberKey person team ∧
        ∀ u, e.validTo = some u → t < u := by
      rcases hversion with ⟨e, he, hkey, hend⟩ | ⟨e, he, hkey, u, hu, hlt⟩
      · exact ⟨e, he, hkey, fun u hu => by cases hend.symm.trans hu⟩
      · refine ⟨e, he, hkey, fun v hv => ?_⟩
        obtain rfl := Option.some.inj (Eq.trans (Eq.symm hu) hv)
        exact hlt
    obtain ⟨hfrom, hto, htype⟩ : e.fromId = "person:" ++ person ∧ e.toId = "team:" ++ team ∧
        e.edgeType = .memberOf := by simpa [GraphEdge.key, memberKey] using hkey
    have hstart := (h.member e he hfrom htype).2
    exact ⟨e, ⟨⟨he, hfrom, hstart.trans ht, hend⟩, htype⟩, hto⟩

/-- All ends of the edges of a store lie before some time. -/
theorem exists_not_endsAfter (edges : List GraphEdge) (limit : Instant) :
    ∃ t, limit ≤ t ∧ ∀ k, ¬ EndsAfter t edges k := by
  induction edges with
  | nil => exact ⟨limit, le_refl _, fun k ⟨e, he, _⟩ => by cases he⟩
  | cons e edges ih =>
    obtain ⟨t, ht, hnone⟩ := ih
    refine ⟨max t (e.validTo.getD t), le_trans ht (le_max_left _ _), ?_⟩
    rintro k ⟨e', he', hk, u, hu, hlt⟩
    rcases List.mem_cons.mp he' with rfl | hmem
    · have hend : e'.validTo = some u := hu
      rw [hend, Option.getD_some] at hlt
      exact absurd hlt (not_lt.mpr (le_max_right _ _))
    · exact hnone k ⟨e', hmem, hk, u, hu, lt_of_le_of_lt (le_max_left _ _) hlt⟩

/-- **The person is in exactly one team from `limit` on if and only if the moves settle
on it.** -/
theorem Tracks.settled_iff {person : String} {limit : Instant} {g : InMemoryGraphStore}
    {moves : List TeamMove} (h : Tracks person limit g moves) (team : String) :
    (∀ t, limit ≤ t → ∀ x, x ∈ memberTeams g person t ↔ x = "team:" ++ team) ↔
      TeamMove.Settles limit team moves := by
  constructor
  · intro hexact
    have hlate : ∀ t, t ≠ team → ¬ TeamMove.Overstays limit t moves := by
      intro t hne hover
      have hx := (hexact limit (le_refl _) ("team:" ++ t)).mp
        ((h.mem_memberTeams (le_refl _) _).mpr ⟨t, rfl, .inr ((h.late t).mpr hover)⟩)
      exact hne ((String.append_right_inj _).mp hx)
    refine ⟨fun t => ⟨fun hin => ?_, ?_⟩, hlate⟩
    · have hx := (hexact limit (le_refl _) ("team:" ++ t)).mp
        ((h.mem_memberTeams (le_refl _) _).mpr ⟨t, rfl, .inl ((h.opened t).mpr hin)⟩)
      exact (String.append_right_inj _).mp hx
    · rintro rfl
      -- late enough, only an open membership is still reported
      obtain ⟨later, hle, hnone⟩ := exists_not_endsAfter g.edges limit
      obtain ⟨t', hteam, hopen | hends⟩ :=
        (h.mem_memberTeams hle _).mp ((hexact later hle ("team:" ++ t)).mpr rfl)
      · rw [(String.append_right_inj _).mp hteam]
        exact (h.opened t').mp hopen
      · exact absurd hends (hnone _)
  · intro hsettles t ht x
    rw [h.mem_memberTeams ht]
    constructor
    · rintro ⟨team', rfl, hopen | ⟨e, he, hkey, u, hu, hlt⟩⟩
      · rw [(hsettles.last team').mp ((h.opened team').mp hopen)]
      · by_contra hne
        refine hsettles.prompt team' (fun heq => hne (by rw [heq])) ((h.late team').mp ?_)
        exact ⟨e, he, hkey, u, hu, lt_of_le_of_lt ht hlt⟩
    · rintro rfl
      exact ⟨team, rfl, .inl ((h.opened team).mpr ((hsettles.last team).mpr rfl))⟩

/-! ## Chains of moves -/

/-- The events report a chain of moves of the person: each leaves the team the one
before it entered, at a later time. -/
structure MoveChain (person : String) (chain : List AcceptedEvent) : Prop where
  moves : ∀ e ∈ chain, IsMove person e
  linked : chain.IsChain fun e e' => e.1.text "new_team" "" = e'.1.text "previous_team" ""
  ordered : chain.Pairwise fun e e' => e.1.eventTime.instant < e'.1.eventTime.instant

/-- No event of a chain is later than its last. -/
theorem MoveChain.le_last {person : String} {chain : List AcceptedEvent} {last : AcceptedEvent}
    (h : MoveChain person (chain ++ [last])) {e : AcceptedEvent} (he : e ∈ chain ++ [last]) :
    e.1.eventTime.instant ≤ last.1.eventTime.instant := by
  rcases List.mem_append.mp he with hmem | hmem
  · exact le_of_lt ((List.pairwise_append.mp h.ordered).2.2 e hmem last List.mem_cons_self)
  · rw [List.mem_singleton.mp hmem]

/-- **Membership after a chain of moves.**  Handled in the order of their times, the
moves leave the person in exactly the last team, at every time from the last move on.
Handled in another order, they leave the same teams exactly when that order settles on
the last team: of the moves naming a team, the one handled last enters it only for the
last team of the chain, and no other team is entered, while still open, at a clock
reading after the last move. -/
theorem membership_settled_iff {person : String} {chain : List AcceptedEvent}
    {last : AcceptedEvent} (hchain : MoveChain person (chain ++ [last])) {g : InMemoryGraphStore}
    (hg : g.WellIndexed)
    (hnone : ∀ e ∈ g.edges, e.fromId = "person:" ++ person → e.edgeType ≠ .memberOf)
    {inOrder order : List (AcceptedEvent × Readings)}
    (hinOrder : inOrder.map Prod.fst = chain ++ [last])
    (horder : (order.map Prod.fst).Perm (chain ++ [last])) :
    (∀ t, last.1.eventTime.instant ≤ t → ∀ x, x ∈ memberTeams (handleAll g inOrder) person t ↔
        x = "team:" ++ last.1.text "new_team" "") ∧
      ((∀ t, last.1.eventTime.instant ≤ t → ∀ x,
          x ∈ memberTeams (handleAll g order) person t ↔
            x ∈ memberTeams (handleAll g inOrder) person t) ↔
        TeamMove.Settles last.1.eventTime.instant (last.1.text "new_team" "")
          (order.map moveOf)) := by
  have hstart := tracks_of_no_membership last.1.eventTime.instant hg hnone
  have hof : ∀ (xs : List (AcceptedEvent × Readings)), (∀ e ∈ xs.map Prod.fst, e ∈ chain ++ [last]) →
      ∀ x ∈ xs, IsMove person x.1 ∧ x.1.1.eventTime.instant ≤ last.1.eventTime.instant := by
    intro xs hxs x hx
    have hmem := hxs x.1 (List.mem_map_of_mem hx)
    exact ⟨hchain.moves _ hmem, hchain.le_last hmem⟩
  -- in the order of the chain the moves settle
  have hexact : ∀ t, last.1.eventTime.instant ≤ t → ∀ x,
      x ∈ memberTeams (handleAll g inOrder) person t ↔
        x = "team:" ++ last.1.text "new_team" "" := by
    have htracks := hstart.handleAll (hof inOrder fun e he => hinOrder ▸ he)
    rw [htracks.settled_iff]
    rcases List.eq_nil_or_concat inOrder with rfl | ⟨front, x, rfl⟩
    · simp at hinOrder
    · rw [List.concat_eq_append, List.map_append] at hinOrder
      obtain ⟨hfront, hx⟩ := List.append_inj' hinOrder rfl
      have hx' : x.1 = last := by simpa using hx
      have hlinked := hchain.linked
      have hmoves := hchain.moves
      rw [← hinOrder, ← List.map_append] at hlinked hmoves
      have hsettles := @TeamMove.settles_of_chain (front.map moveOf) (moveOf x)
        last.1.eventTime.instant ?_ ?_
      · simpa [List.concat_eq_append, ← hx', moveOf] using hsettles
      · intro m hm
        rw [← List.map_singleton, ← List.map_append] at hm
        obtain ⟨y, hy, rfl⟩ := List.mem_map.mp hm
        exact (hmoves y.1 (List.mem_map_of_mem hy)).proper y.2
      · rw [← List.map_singleton, ← List.map_append, List.isChain_map]
        rw [List.isChain_map] at hlinked
        exact hlinked
  refine ⟨hexact, ?_⟩
  have htracks := hstart.handleAll (hof order fun e he => horder.mem_iff.mp he)
  rw [List.nil_append] at htracks
  rw [← htracks.settled_iff]
  constructor
  · intro hsame t ht x
    rw [hsame t ht x, hexact t ht x]
  · intro hsame t ht x
    rw [hsame t ht x, hexact t ht x]

/-- The attributes of a move from `alpha` to `beta`. -/
def alphaToBeta : {d : PyDict String PyVal // payloadFits d} :=
  ⟨⟨[("person_id", .str "ada"), ("previous_team", .str "alpha"), ("new_team", .str "beta")],
    by decide⟩, by decide +kernel⟩

/-- The attributes of a move from `beta` to `gamma`. -/
def betaToGamma : {d : PyDict String PyVal // payloadFits d} :=
  ⟨⟨[("person_id", .str "ada"), ("previous_team", .str "beta"), ("new_team", .str "gamma")],
    by decide⟩, by decide +kernel⟩

theorem alphaToBeta_accepts : orgChangePayload.Accepts alphaToBeta.1 := by decide +kernel

theorem betaToGamma_accepts : orgChangePayload.Accepts betaToGamma.1 := by decide +kernel

/-- The two moves, a second apart. -/
def firstMove : AcceptedEvent :=
  ⟨{ eventId := "m1", eventType := .orgChange, subjectId := "ada", attributes := alphaToBeta,
     eventTime := AwareDateTime.utc 1000000, ingestTime := AwareDateTime.utc 1000000,
     source := "workday", idempotencyKey := "m1", tenantId := "acme" }, ⟨rfl, alphaToBeta_accepts⟩⟩

@[inherit_doc firstMove]
def secondMove : AcceptedEvent :=
  ⟨{ eventId := "m2", eventType := .orgChange, subjectId := "ada", attributes := betaToGamma,
     eventTime := AwareDateTime.utc 2000000, ingestTime := AwareDateTime.utc 2000000,
     source := "workday", idempotencyKey := "m2", tenantId := "acme" }, ⟨rfl, betaToGamma_accepts⟩⟩

theorem firstMove_isMove : IsMove "ada" firstMove := by
  constructor <;> decide +kernel

theorem secondMove_isMove : IsMove "ada" secondMove := by
  constructor <;> decide +kernel

theorem moves_chain : MoveChain "ada" ([firstMove] ++ [secondMove]) := by
  refine ⟨fun e he => ?_, ?_, ?_⟩
  · simp only [List.cons_append, List.nil_append, List.mem_cons, List.not_mem_nil, or_false] at he
    rcases he with rfl | rfl
    · exact firstMove_isMove
    · exact secondMove_isMove
  · exact List.isChain_pair.mpr (by decide +kernel)
  · exact List.pairwise_pair.mpr (by decide +kernel)

/-- Handled in order, the two moves leave `ada` in `gamma`. -/
theorem moves_in_order_settle :
    "team:gamma" ∈ memberTeams
      (handleAll {} [(firstMove, fun _ => 3000000), (secondMove, fun _ => 3000000)]) "ada"
      5000000 := by
  have hswapped : (([(secondMove, fun _ => 3000000), (firstMove, fun _ => 3000000)] :
      List (AcceptedEvent × Readings)).map Prod.fst).Perm ([firstMove] ++ [secondMove]) :=
    List.Perm.swap _ _ []
  refine ((membership_settled_iff moves_chain (g := {}) InMemoryGraphStore.wellIndexed_empty
    (fun e he => by cases he) rfl hswapped).1 5000000 (by decide +kernel) _).mpr
      (by decide +kernel)

/-- Handled in the other order, they also leave `ada` in `beta`. -/
theorem reversed_moves_keep_left_team :
    ¬ ∀ (person : String) (chain : List AcceptedEvent) (last : AcceptedEvent)
        (g : InMemoryGraphStore) (inOrder order : List (AcceptedEvent × Readings)),
      MoveChain person (chain ++ [last]) → g.WellIndexed →
      (∀ e ∈ g.edges, e.fromId = "person:" ++ person → e.edgeType ≠ .memberOf) →
      inOrder.map Prod.fst = chain ++ [last] →
      (order.map Prod.fst).Perm (chain ++ [last]) →
      ∀ t, last.1.eventTime.instant ≤ t → ∀ x,
        x ∈ memberTeams (handleAll g order) person t ↔
          x ∈ memberTeams (handleAll g inOrder) person t := by
  intro h
  have hsame := h "ada" [firstMove] secondMove {}
    [(firstMove, fun _ => 3000000), (secondMove, fun _ => 3000000)]
    [(secondMove, fun _ => 3000000), (firstMove, fun _ => 3000000)] moves_chain
    InMemoryGraphStore.wellIndexed_empty (fun e he => by cases he) rfl (List.Perm.swap _ _ [])
    2000000 (by decide +kernel) "team:beta"
  have hboth : "team:beta" ∈ memberTeams
      (handleAll {} [(secondMove, fun _ => 3000000), (firstMove, fun _ => 3000000)]) "ada"
      2000000 := by decide +kernel
  have hone : "team:beta" ∉ memberTeams
      (handleAll {} [(firstMove, fun _ => 3000000), (secondMove, fun _ => 3000000)]) "ada"
      2000000 := by decide +kernel
  exact hone (hsame.mp hboth)

end AttributionProcessor
end ComputeIntelligence
