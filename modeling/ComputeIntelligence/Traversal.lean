import ComputeIntelligence.BoundedWalks
import ComputeIntelligence.StoreInvariant
import Mathlib.Data.List.Chain
import Mathlib.Data.List.Sigma

/-! # Attribution traversal

`traverse_attribution` of the mixin that the graph stores share, on the memory store: a
depth-first search that pushes edges on one path, marks the nodes of that path as visited and
takes both back when it returns.

The multigraph `validAt` has the stored edges by their positions, so that two equal edges are
two.  The search lists the walks of that multigraph (`dfs_eq`), and `IsAttribution` says which
chains of edges these are.
-/
namespace ComputeIntelligence

/-- What a traversal changes: the path it is on, the paths it has listed, the visited nodes,
and the calls of `get_edges_from` so far. -/
structure Search where
  currentPath : List GraphEdge := []
  allPaths : List (List GraphEdge) := []
  visited : List String := []
  calls : Nat := 0

namespace Search

def push (st : Search) (edge : GraphEdge) : Search :=
  { st with currentPath := st.currentPath ++ [edge] }

def pop (st : Search) : Search := { st with currentPath := st.currentPath.dropLast }

def record (st : Search) : Search := { st with allPaths := st.allPaths ++ [st.currentPath] }

def enter (st : Search) (nodeId : String) : Search :=
  { st with visited := st.visited.insert nodeId, calls := st.calls + 1 }

def leave (st : Search) (nodeId : String) : Search :=
  { st with visited := st.visited.erase nodeId }

/-- The state after a search that has found `found` beyond the path it began on. -/
def listing (st : Search) (k : Nat) (found : List (List (GraphEdge × Nat))) (calls : Nat) :
    Search :=
  { st with
    allPaths := (st.allPaths ++ found.map (st.currentPath ++ ·.map Prod.fst)).take k
    calls := calls }

@[simp] theorem pop_push (st : Search) (edge : GraphEdge) : (st.push edge).pop = st := by
  unfold push pop
  rw [List.dropLast_concat]

theorem take_take_append {α : Type} (k : Nat) (xs ys : List α) :
    (xs.take k ++ ys).take k = (xs ++ ys).take k := by
  rw [List.take_append, List.take_append, List.take_take, Nat.min_self, List.length_take]
  congr 2
  omega

theorem take_of_full {α : Type} {k : Nat} {xs : List α} (h : xs.length ≤ k) (hfull : k ≤ xs.length)
    (ys : List α) : (xs ++ ys).take k = xs := by
  obtain rfl : xs.length = k := Nat.le_antisymm h hfull
  exact List.take_left

theorem listing_nil {st : Search} {k : Nat} (hmax : st.allPaths.length ≤ k) :
    st.listing k [] st.calls = st := by
  unfold listing
  rw [List.map_nil, List.append_nil, List.take_of_length_le hmax]

theorem listing_of_full {st : Search} {k : Nat} (hmax : st.allPaths.length ≤ k)
    (hfull : k ≤ st.allPaths.length) (found : List (List (GraphEdge × Nat))) :
    st.listing k found st.calls = st := by
  unfold listing
  rw [take_of_full hmax hfull]

theorem listing_listing (st : Search) (k calls calls' : Nat)
    (found found' : List (List (GraphEdge × Nat))) :
    (st.listing k found calls).listing k found' calls' = st.listing k (found ++ found') calls' := by
  unfold listing
  rw [take_take_append, List.append_assoc, List.map_append]

theorem record_eq_listing {st : Search} {k : Nat} (hroom : st.allPaths.length < k) :
    st.record = st.listing k [[]] st.calls := by
  unfold record listing
  rw [List.map_singleton, List.map_nil, List.append_nil, List.take_of_length_le]
  rw [List.length_append]
  exact hroom

theorem listing_push (st : Search) (k calls : Nat) (p : GraphEdge × Nat)
    (found : List (List (GraphEdge × Nat))) :
    (st.push p.1).listing k found calls =
      (st.listing k (found.map (p :: ·)) calls).push p.1 := by
  unfold listing push
  simp only [List.map_map, Function.comp_def, List.map_cons, List.append_assoc, List.cons_append,
    List.nil_append]

/-- Leaving a node undoes entering it. -/
theorem leave_listing_enter {st : Search} {nodeId : String} (hfresh : nodeId ∉ st.visited)
    (k calls : Nat) (found : List (List (GraphEdge × Nat))) :
    ((st.enter nodeId).listing k found calls).leave nodeId = st.listing k found calls := by
  unfold listing leave enter
  simp only [List.insert_of_not_mem hfresh, List.erase_cons_head]

end Search

namespace InMemoryGraphStore

/-- The node is a cost center or a budget. -/
def isTerminal (s : InMemoryGraphStore) (nodeId : String) : Bool :=
  match s.getNode nodeId with
  | some node => node.nodeType = .costCenter || node.nodeType = .budget
  | none => false

/-- The loop of `_dfs` over the edges; `recurse` is the call of `_dfs` in it. -/
def follow (s : InMemoryGraphStore) (maxPaths : Int) (recurse : String → Search → Option Search) :
    List GraphEdge → Search → Option Search
  | [], st => some st
  | edge :: edges, st =>
    if maxPaths ≤ st.allPaths.length then some st
    else
      let st := st.push edge
      let st := if s.isTerminal edge.toId then some st.record else recurse edge.toId st
      st.bind fun st => s.follow maxPaths recurse edges st.pop

/-- `_dfs`, at most `fuel` calls deep.  `clock i` is the time at the call `i` of
`get_edges_from`. -/
def dfs (s : InMemoryGraphStore) (atTime : Option Instant) (clock : Nat → Instant)
    (maxDepth maxPaths : Int) : Nat → String → Search → Option Search
  | 0, _, _ => none
  | fuel + 1, nodeId, st =>
    if maxPaths ≤ st.allPaths.length then some st
    else if maxDepth ≤ st.currentPath.length then some st
    else if nodeId ∈ st.visited then some st
    else
      let edges := s.getEdgesFrom nodeId atTime (clock st.calls)
      let st := st.enter nodeId
      if edges.isEmpty then
        some ((if st.currentPath.isEmpty then st else st.record).leave nodeId)
      else
        (s.follow maxPaths (s.dfs atTime clock maxDepth maxPaths fuel) edges st).map
          (·.leave nodeId)

/-- `traverse_attribution`. -/
def traverseAttribution (s : InMemoryGraphStore) (startNodeId : String) (atTime : Option Instant)
    (clock : Nat → Instant) (maxDepth : Int := 8) (maxPaths : Int := 10000) :
    Option (List (List GraphEdge)) :=
  (s.dfs atTime clock maxDepth maxPaths (maxDepth.toNat + 1) startNodeId {}).map (·.allPaths)

variable {s : InMemoryGraphStore} {t : Instant}

/-! ### The search lists walks -/

/-- The edges valid at an instant, each with its position. -/
def validAt (s : InMemoryGraphStore) (t : Instant) : Multigraph String (GraphEdge × Nat) where
  out nodeId := s.edges.zipIdx.filter fun p =>
    decide (p.1.fromId = nodeId) && decide (p.1.span.Mem t)
  target p := p.1.toId
  stops := s.isTerminal

theorem WellIndexed.getEdgesFrom_validAt (hs : WellIndexed s) (nodeId : String) (now : Instant) :
    s.getEdgesFrom nodeId (some t) now = ((s.validAt t).out nodeId).map Prod.fst := by
  rw [hs.getEdgesFrom_eq]
  unfold validAt
  conv_lhs => rw [← List.zipIdx_map_fst 0 s.edges]
  rw [List.filter_map]
  rfl

/-- The loop, when the recursive call lists what `rest` says. -/
theorem follow_eq {maxPaths : Int} {recurse : String → Search → Option Search}
    {rest : String → List (List (GraphEdge × Nat))} {path : List GraphEdge} {visited : List String}
    (hrecurse : ∀ (nodeId : String) (edge : GraphEdge) (st : Search),
      st.currentPath = path ++ [edge] → st.visited = visited →
      st.allPaths.length ≤ maxPaths.toNat →
      ∃ calls, recurse nodeId st = some (st.listing maxPaths.toNat (rest nodeId) calls))
    (edges : List (GraphEdge × Nat)) {st : Search} (hpath : st.currentPath = path)
    (hvisited : st.visited = visited) (hmax : st.allPaths.length ≤ maxPaths.toNat) :
    ∃ calls, s.follow maxPaths recurse (edges.map Prod.fst) st =
      some (st.listing maxPaths.toNat (edges.flatMap ((s.validAt t).through rest)) calls) := by
  induction edges generalizing st with
  | nil => exact ⟨st.calls, congrArg some (Search.listing_nil hmax).symm⟩
  | cons p edges ih =>
    rw [List.map_cons, List.flatMap_cons]
    unfold follow
    split
    · -- the limit is reached, and nothing more fits
      rename_i hfull
      exact ⟨st.calls, congrArg some (Search.listing_of_full hmax (Int.toNat_le.2 hfull) _).symm⟩
    · rename_i hroom
      have hlt : st.allPaths.length < maxPaths.toNat := by omega
      -- what the edge itself leads to
      obtain ⟨calls, hedge⟩ : ∃ calls, (if s.isTerminal p.1.toId then some (st.push p.1).record
          else recurse p.1.toId (st.push p.1)) = some ((st.listing maxPaths.toNat
            ((s.validAt t).through rest p) calls).push p.1) := by
        split
        · rename_i hterminal
          rw [Multigraph.through_of_stops (show (s.validAt t).stops _ = true from hterminal)]
          have hrecord : (st.push p.1).record =
              (st.push p.1).listing maxPaths.toNat [[]] st.calls :=
            Search.record_eq_listing hlt
          exact ⟨st.calls, congrArg some (hrecord.trans (Search.listing_push st _ _ p [[]]))⟩
        · rename_i hpass
          rw [Multigraph.through_of_passes (show ¬ (s.validAt t).stops _ = true from hpass)]
          obtain ⟨calls, hcalls⟩ := hrecurse p.1.toId p.1 (st.push p.1)
            (congrArg (· ++ [p.1]) hpath) hvisited hmax
          exact ⟨calls, hcalls.trans (congrArg some (Search.listing_push st _ calls p _))⟩
      obtain ⟨calls', hloop⟩ : ∃ calls', s.follow maxPaths recurse (edges.map Prod.fst)
          (st.listing maxPaths.toNat ((s.validAt t).through rest p) calls) =
            some (Search.listing _ _ _ calls') :=
        ih hpath hvisited (List.length_take_le _ _)
      refine ⟨calls', ?_⟩
      dsimp only
      rw [hedge, Option.bind_some, Search.pop_push, hloop, Search.listing_listing]

/-- A search stops where it may not go deeper, at a node of its path, and when it has listed
enough. -/
theorem dfs_eq_of_stopped (clock : Nat → Instant) {maxDepth maxPaths : Int} {fuel : Nat}
    {nodeId : String} {st : Search} (hmax : st.allPaths.length ≤ maxPaths.toNat)
    (hstop : maxPaths ≤ st.allPaths.length ∨ maxDepth ≤ st.currentPath.length ∨
      nodeId ∈ st.visited) :
    s.dfs (some t) clock maxDepth maxPaths (fuel + 1) nodeId st =
      some (st.listing maxPaths.toNat ((s.validAt t).walks
        (maxDepth.toNat - st.currentPath.length) st.visited nodeId) st.calls) := by
  unfold dfs
  split
  · rename_i hfull
    rw [Search.listing_of_full hmax (Int.toNat_le.2 hfull)]
  · -- no walk begins too deep, or at a node of the path
    rename_i hroom
    have hwalks : (s.validAt t).walks (maxDepth.toNat - st.currentPath.length) st.visited nodeId =
        [] := by
      rcases hstop.resolve_left hroom with hdeep | hmem
      · have hzero : maxDepth.toNat - st.currentPath.length = 0 := by omega
        rw [hzero]
        rfl
      · exact Multigraph.walks_of_visited hmem
    rw [hwalks, Search.listing_nil hmax]
    split
    · rfl
    · rename_i hshallow
      rw [if_pos ((hstop.resolve_left hroom).resolve_left hshallow)]

/-- The search is never too deep, and lists the walks that go on from its path. -/
theorem dfs_eq (hs : WellIndexed s) (clock : Nat → Instant) {maxDepth maxPaths : Int} {fuel : Nat}
    {nodeId : String} {st : Search} (hfuel : maxDepth.toNat ≤ st.currentPath.length + fuel)
    (hpath : st.currentPath ≠ [] ∨ (s.validAt t).out nodeId ≠ [])
    (hmax : st.allPaths.length ≤ maxPaths.toNat) :
    ∃ calls, s.dfs (some t) clock maxDepth maxPaths (fuel + 1) nodeId st =
      some (st.listing maxPaths.toNat ((s.validAt t).walks
        (maxDepth.toNat - st.currentPath.length) st.visited nodeId) calls) := by
  -- on the fuel: at the last call the path is as long as it may be
  induction fuel generalizing nodeId st with
  | zero =>
    refine ⟨st.calls, dfs_eq_of_stopped clock hmax (.inr (.inl ?_))⟩
    omega
  | succ fuel ih =>
    by_cases hstop : maxPaths ≤ st.allPaths.length ∨ maxDepth ≤ st.currentPath.length ∨
        nodeId ∈ st.visited
    · exact ⟨st.calls, dfs_eq_of_stopped clock hmax hstop⟩
    · simp only [not_or] at hstop
      obtain ⟨hroom, hshallow, hfresh⟩ := hstop
      obtain ⟨d, hd⟩ : ∃ d, maxDepth.toNat - st.currentPath.length = d + 1 :=
        Nat.exists_eq_succ_of_ne_zero (by omega)
      have henter : (st.enter nodeId).visited = nodeId :: st.visited :=
        List.insert_of_not_mem hfresh
      unfold dfs
      rw [if_neg hroom, if_neg hshallow, if_neg hfresh, hs.getEdgesFrom_validAt, hd]
      dsimp only
      by_cases hout : (s.validAt t).out nodeId = []
      · -- the path ends here
        rw [Multigraph.walks_of_no_out hfresh hout, hout, List.map_nil, List.isEmpty_nil,
          if_pos rfl]
        have hne : (st.enter nodeId).currentPath.isEmpty = false :=
          List.isEmpty_eq_false_iff.2 (hpath.resolve_right (not_not_intro hout))
        refine ⟨st.calls + 1, congrArg some ?_⟩
        rw [if_neg (ne_true_of_eq_false hne),
          Search.record_eq_listing (k := maxPaths.toNat) (by show st.allPaths.length < _; omega)]
        exact Search.leave_listing_enter hfresh _ _ _
      · have hne : (((s.validAt t).out nodeId).map Prod.fst).isEmpty = false :=
          List.isEmpty_eq_false_iff.2 (List.map_eq_nil_iff.not.2 hout)
        rw [Multigraph.walks_of_out hfresh hout, if_neg (ne_true_of_eq_false hne)]
        -- the recursive call is one edge deeper
        have hrecurse : ∀ (target : String) (edge : GraphEdge) (st' : Search),
            st'.currentPath = st.currentPath ++ [edge] → st'.visited = nodeId :: st.visited →
            st'.allPaths.length ≤ maxPaths.toNat →
            ∃ calls, s.dfs (some t) clock maxDepth maxPaths (fuel + 1) target st' =
              some (st'.listing maxPaths.toNat
                ((s.validAt t).walks d (nodeId :: st.visited) target) calls) := by
          intro target edge st' hpath' hvisited' hmax'
          have hlength : st'.currentPath.length = st.currentPath.length + 1 := by
            rw [hpath', List.length_append, List.length_singleton]
          have hdepth : maxDepth.toNat - st'.currentPath.length = d := by omega
          have hne' : st'.currentPath ≠ [] := List.ne_nil_of_length_eq_add_one hlength
          rw [← hdepth, ← hvisited']
          exact ih (by omega) (.inl hne') hmax'
        obtain ⟨calls, hloop⟩ : ∃ calls, s.follow maxPaths
            (s.dfs (some t) clock maxDepth maxPaths (fuel + 1))
            (((s.validAt t).out nodeId).map Prod.fst) (st.enter nodeId) =
              some (Search.listing _ _ _ calls) :=
          follow_eq hrecurse ((s.validAt t).out nodeId) rfl henter hmax
        refine ⟨calls, ?_⟩
        rw [hloop, Option.map_some, Search.leave_listing_enter hfresh]

theorem traverseAttribution_eq (hs : WellIndexed s) (start : String) (t : Instant)
    (clock : Nat → Instant) (maxDepth maxPaths : Int) :
    s.traverseAttribution start (some t) clock maxDepth maxPaths =
      some (((((s.validAt t).walks maxDepth.toNat [] start).filter (· ≠ [])).take
        maxPaths.toNat).map (·.map Prod.fst)) := by
  unfold traverseAttribution
  by_cases hout : (s.validAt t).out start = []
  · -- the empty path is not listed
    have hnone : ((s.validAt t).walks maxDepth.toNat [] start).filter (· ≠ []) = [] := by
      rw [List.filter_eq_nil_iff]
      intro w hw
      have hwalk := (Multigraph.mem_walks (fun u hu => (List.not_mem_nil hu).elim)).1 hw
      rw [decide_eq_true_eq, not_not]
      cases w with
      | nil => rfl
      | cons p w =>
        have hmem := hwalk.follows.1
        rw [hout] at hmem
        exact (List.not_mem_nil hmem).elim
    rw [hnone, List.take_nil, List.map_nil]
    unfold dfs
    split
    · rfl
    · split
      · rfl
      · rw [if_neg List.not_mem_nil, hs.getEdgesFrom_validAt, hout]
        rfl
  · obtain ⟨calls, hdfs⟩ : ∃ calls,
        s.dfs (some t) clock maxDepth maxPaths (maxDepth.toNat + 1) start {} = _ :=
      dfs_eq hs clock (Nat.le_add_left _ _) (.inr hout) (Nat.zero_le _)
    have hall : ((s.validAt t).walks maxDepth.toNat [] start).filter (· ≠ []) =
        (s.validAt t).walks maxDepth.toNat [] start := by
      rw [List.filter_eq_self]
      intro w hw
      have hwalk := (Multigraph.mem_walks (fun u hu => (List.not_mem_nil hu).elim)).1 hw
      rw [decide_eq_true_eq]
      rintro rfl
      exact hout (Multigraph.isWalk_nil.1 hwalk).2
    rw [hdfs, hall]
    unfold Search.listing
    simp only [Option.map_some, List.nil_append, List.length_nil, Nat.sub_zero, List.map_take]

/-! ### Which chains these are -/

/-- The chains of edges that a traversal lists, as the edges with their positions. -/
structure IsAttribution (s : InMemoryGraphStore) (t : Instant) (start : String) (maxDepth : Int)
    (chain : List (GraphEdge × Nat)) : Prop where
  nonempty : chain ≠ []
  stored : ∀ p ∈ chain, s.edges[p.2]? = some p.1
  valid : ∀ p ∈ chain, p.1.span.Mem t
  starts : ∀ p ∈ chain.head?, p.1.fromId = start
  linked : chain.IsChain fun p q => p.1.toId = q.1.fromId
  bounded : (chain.length : Int) ≤ maxDepth
  distinct : (chain.map fun p => p.1.fromId).Nodup
  passes : ∀ p ∈ chain.dropLast, s.isTerminal p.1.toId = false
  ends : ∀ p ∈ chain.getLast?, s.isTerminal p.1.toId = true ∨
    ((chain.length : Int) < maxDepth ∧ ∀ e ∈ s.edges, e.fromId = p.1.toId → ¬ e.span.Mem t)

theorem mem_out {nodeId : String} {p : GraphEdge × Nat} :
    p ∈ (s.validAt t).out nodeId ↔
      s.edges[p.2]? = some p.1 ∧ p.1.fromId = nodeId ∧ p.1.span.Mem t := by
  show p ∈ List.filter _ _ ↔ _
  rw [List.mem_filter, List.mem_zipIdx_iff_getElem?, Bool.and_eq_true, decide_eq_true_eq,
    decide_eq_true_eq]

theorem out_eq_nil {nodeId : String} :
    (s.validAt t).out nodeId = [] ↔ ∀ e ∈ s.edges, e.fromId = nodeId → ¬ e.span.Mem t := by
  rw [List.eq_nil_iff_forall_not_mem]
  constructor
  · intro h e he hfrom hmem
    obtain ⟨i, hi⟩ := List.getElem?_of_mem he
    exact h (e, i) (mem_out.2 ⟨hi, hfrom, hmem⟩)
  · intro h p hp
    obtain ⟨hi, hfrom, hmem⟩ := mem_out.1 hp
    exact h p.1 (List.mem_of_getElem? hi) hfrom hmem

theorem out_nodup (nodeId : String) : ((s.validAt t).out nodeId).Nodup := by
  refine List.Nodup.filter _ (List.Nodup.of_map Prod.snd ?_)
  exact List.nodup_zipIdx_map_snd s.edges

theorem follows_iff {nodeId : String} {chain : List (GraphEdge × Nat)} :
    (s.validAt t).Follows nodeId chain ↔
      (∀ p ∈ chain, s.edges[p.2]? = some p.1) ∧ (∀ p ∈ chain, p.1.span.Mem t) ∧
      (∀ p ∈ chain.head?, p.1.fromId = nodeId) ∧
      chain.IsChain fun p q => p.1.toId = q.1.fromId := by
  induction chain generalizing nodeId with
  | nil => simp [Multigraph.Follows]
  | cons p chain ih =>
    unfold Multigraph.Follows
    rw [mem_out, ih, List.isChain_cons, List.forall_mem_cons, List.forall_mem_cons]
    constructor
    · rintro ⟨⟨hstored, hfrom, hvalid⟩, hallstored, hallvalid, hstarts, hlinked⟩
      refine ⟨⟨hstored, hallstored⟩, ⟨hvalid, hallvalid⟩, ?_,
        fun q hq => (hstarts q hq).symm, hlinked⟩
      intro q hq
      obtain rfl : p = q := Option.some.inj hq
      exact hfrom
    · rintro ⟨⟨hstored, hallstored⟩, ⟨hvalid, hallvalid⟩, hstarts, hlinks, hlinked⟩
      exact ⟨⟨hstored, hstarts p rfl, hvalid⟩, hallstored, hallvalid,
        fun q hq => (hlinks q hq).symm, hlinked⟩

theorem sources_eq {nodeId : String} {chain : List (GraphEdge × Nat)}
    (h : (s.validAt t).Follows nodeId chain) :
    (s.validAt t).sources nodeId chain = chain.map fun p => p.1.fromId := by
  induction chain generalizing nodeId with
  | nil => rfl
  | cons p chain ih =>
    unfold Multigraph.sources
    rw [ih h.2, List.map_cons, (mem_out.1 h.1).2.1]

theorem final_eq {nodeId : String} {chain : List (GraphEdge × Nat)} {p : GraphEdge × Nat}
    (h : p ∈ chain.getLast?) : (s.validAt t).final nodeId chain = p.1.toId := by
  induction chain generalizing nodeId with
  | nil => cases h
  | cons q chain ih =>
    unfold Multigraph.final
    cases chain with
    | nil =>
      obtain rfl : q = p := Option.some.inj h
      rfl
    | cons r chain => exact ih (by rwa [List.getLast?_cons_cons] at h)

theorem isAttribution_iff {start : String} {maxDepth : Int} {chain : List (GraphEdge × Nat)} :
    s.IsAttribution t start maxDepth chain ↔
      chain ≠ [] ∧ (s.validAt t).IsWalk maxDepth.toNat [] start chain := by
  constructor
  · intro h
    have hfollows := follows_iff.2 ⟨h.stored, h.valid, h.starts, h.linked⟩
    have hbounded := h.bounded
    refine ⟨h.nonempty, hfollows, by omega, ?_, fun _ _ => List.not_mem_nil, h.passes, ?_⟩
    · rw [sources_eq hfollows]
      exact h.distinct
    · obtain ⟨p, hp⟩ := List.getLast?_isSome.2 h.nonempty |> Option.isSome_iff_exists.1
      rcases h.ends p hp with hterminal | ⟨hlt, hdead⟩
      · exact .inl ⟨p, hp, hterminal⟩
      · rw [final_eq hp, out_eq_nil]
        exact .inr ⟨by omega, hdead⟩
  · rintro ⟨hne, h⟩
    obtain ⟨hstored, hvalid, hstarts, hlinked⟩ := follows_iff.1 h.follows
    have hpos : 0 < chain.length := List.length_pos_iff.2 hne
    have hbounded := h.bounded
    refine ⟨hne, hstored, hvalid, hstarts, hlinked, by omega, ?_, h.passes, ?_⟩
    · rw [← sources_eq h.follows]
      exact h.distinct
    · intro p hp
      rcases h.ends with ⟨q, hq, hterminal⟩ | ⟨hlt, hdead⟩
      · obtain rfl : p = q := Option.some.inj (hp.symm.trans hq)
        exact .inl hterminal
      · rw [final_eq hp, out_eq_nil] at hdead
        exact .inr ⟨by omega, hdead⟩

/-- What a traversal from `start` lists when nothing limits the number of paths; with a limit it
lists the first of these. -/
structure IsTraversal (s : InMemoryGraphStore) (t : Instant) (start : String) (maxDepth : Int)
    (chains : List (List (GraphEdge × Nat))) : Prop where
  once : chains.Nodup
  lists : ∀ chain, chain ∈ chains ↔ s.IsAttribution t start maxDepth chain
  firsts : ∀ (clock : Nat → Instant) (maxPaths : Int),
    s.traverseAttribution start (some t) clock maxDepth maxPaths =
      some ((chains.take maxPaths.toNat).map (·.map Prod.fst))

theorem WellIndexed.isTraversal (hs : WellIndexed s) (t : Instant) (start : String)
    (maxDepth : Int) :
    IsTraversal s t start maxDepth
      (((s.validAt t).walks maxDepth.toNat [] start).filter (· ≠ [])) where
  once := (Multigraph.walks_nodup out_nodup _ _ _).filter _
  lists chain := by
    rw [List.mem_filter, Multigraph.mem_walks (fun u hu => (List.not_mem_nil hu).elim),
      decide_eq_true_eq, isAttribution_iff, and_comm]
  firsts clock maxPaths := traverseAttribution_eq hs start t clock maxDepth maxPaths

/-- **Attribution traversal is exact** on every graph that calls on a new store build. -/
theorem traverses_exactly (calls : List GraphCall) (t : Instant) (start : String)
    (maxDepth : Int) :
    ∃ chains, IsTraversal (Run.exec called {} calls) t start maxDepth chains := by
  have hs : Consistent (Run.exec called {} calls) :=
    Run.exec_invariant (fun _ c h => h.called c) consistent_empty calls
  exact ⟨_, hs.indexed.isTraversal t start maxDepth⟩

end InMemoryGraphStore
end ComputeIntelligence
