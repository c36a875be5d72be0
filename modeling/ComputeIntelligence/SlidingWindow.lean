import Mathlib.Algebra.Order.Group.Defs
import Mathlib.Algebra.Order.Sub.Basic
import Mathlib.Data.List.Induction
import Mathlib.Order.Lattice

/-! # Counting in a sliding window

A limiter that counts what it has let through in a window of time needs, at a cutoff, only what
came after it.  `Holds` says that a queue of times still has all of these; it goes on to hold when
the cutoff moves, when the queue is trimmed from the front, when a queue whose last time is stale
is dropped, and when a time is added (`Holds.later`, `Holds.trim`, `Holds.drop`, `Holds.push`).

`grants` is the rule that such a limiter implements, over calls with keys: a call is let through
when fewer calls than the limit, with its key, were let through in its window.  The calls with one
key decide for themselves (`grants_filter`), calls with keys of their own are all let through
(`grants_of_distinct`), and no window at all has more calls of a key than the limit
(`length_inWindow_le`).
-/
namespace SlidingWindow

/-! ### Queues -/

section Queues
variable {K : Type} [LinearOrder K] {cutoff cutoff' now : K} {queue history : List K}

/-- What came after the cutoff. -/
def recent (cutoff : K) (times : List K) : List K := times.filter fun t => cutoff < t

theorem recent_append (cutoff : K) (xs ys : List K) :
    recent cutoff (xs ++ ys) = recent cutoff xs ++ recent cutoff ys :=
  List.filter_append ..

theorem recent_recent (h : cutoff ≤ cutoff') (times : List K) :
    recent cutoff' (recent cutoff times) = recent cutoff' times := by
  unfold recent
  rw [List.filter_filter]
  refine List.filter_congr fun t _ => ?_
  by_cases ht : cutoff' < t
  · rw [decide_eq_true ht, decide_eq_true (lt_of_le_of_lt h ht)]
    rfl
  · rw [decide_eq_false ht, Bool.false_and]

/-- What is left of a queue, oldest first, when its front is trimmed. -/
theorem dropWhile_eq_recent (h : queue.Pairwise (· ≤ ·)) (cutoff : K) :
    queue.dropWhile (· ≤ cutoff) = recent cutoff queue := by
  unfold recent
  induction queue with
  | nil => rfl
  | cons t queue ih =>
    obtain ⟨hhead, htail⟩ := List.pairwise_cons.1 h
    by_cases ht : t ≤ cutoff
    · rw [List.dropWhile_cons_of_pos (by simpa using ht),
        List.filter_cons_of_neg (by simpa using ht), ih htail]
    · -- the front is recent, and so is all that is behind it
      rw [List.dropWhile_cons_of_neg (by simpa using ht), eq_comm, List.filter_eq_self]
      intro u hu
      apply decide_eq_true
      rcases List.mem_cons.1 hu with rfl | hu
      · exact not_le.1 ht
      · exact lt_of_lt_of_le (not_le.1 ht) (hhead u hu)

/-- The queue, oldest first, has all of the history that came after the cutoff. -/
structure Holds (cutoff : K) (queue history : List K) : Prop where
  sorted : queue.Pairwise (· ≤ ·)
  recent_eq : recent cutoff queue = recent cutoff history

theorem holds_nil (cutoff : K) : Holds cutoff [] [] := ⟨List.Pairwise.nil, rfl⟩

/-- The cutoff moves on. -/
theorem Holds.later (h : Holds cutoff queue history) (hle : cutoff ≤ cutoff') :
    Holds cutoff' queue history := by
  refine ⟨h.sorted, ?_⟩
  rw [← recent_recent hle queue, h.recent_eq, recent_recent hle]

/-- The front is trimmed. -/
theorem Holds.trim (h : Holds cutoff queue history) :
    Holds cutoff (queue.dropWhile (· ≤ cutoff)) history := by
  refine ⟨h.sorted.sublist (List.dropWhile_sublist _), ?_⟩
  rw [dropWhile_eq_recent h.sorted, recent_recent le_rfl, h.recent_eq]

/-- A trimmed queue is what came after the cutoff. -/
theorem Holds.trimmed_eq (h : Holds cutoff queue history) :
    queue.dropWhile (· ≤ cutoff) = recent cutoff history := by
  rw [dropWhile_eq_recent h.sorted, h.recent_eq]

/-- A queue whose last time is stale has nothing to lose. -/
theorem Holds.drop (h : Holds cutoff queue history) (hlast : ∀ t ∈ queue.getLast?, t ≤ cutoff) :
    Holds cutoff [] history := by
  refine ⟨List.Pairwise.nil, ?_⟩
  rw [← h.recent_eq, eq_comm]
  unfold recent
  rw [List.filter_nil, List.filter_eq_nil_iff]
  intro t ht
  have hle : t ≤ cutoff := by
    obtain ⟨front, last, rfl⟩ : ∃ front last, queue = front ++ [last] :=
      ⟨_, _, (List.dropLast_concat_getLast (List.ne_nil_of_mem ht)).symm⟩
    have hstale := hlast last (by simp)
    rcases List.mem_append.1 ht with ht | ht
    · exact ((List.pairwise_append.1 h.sorted).2.2 t ht last (List.mem_singleton_self _)).trans
        hstale
    · rwa [List.mem_singleton.1 ht]
  simpa using hle

/-- A time is added. -/
theorem Holds.push (h : Holds cutoff queue history) (hnow : ∀ t ∈ queue, t ≤ now) :
    Holds cutoff (queue ++ [now]) (history ++ [now]) := by
  constructor
  · rw [List.pairwise_append]
    refine ⟨h.sorted, List.pairwise_singleton _ _, fun t ht u hu => ?_⟩
    rw [List.mem_singleton.1 hu]
    exact hnow t ht
  · rw [recent_append, recent_append, h.recent_eq]

end Queues

/-! ### The rule -/

section Rule
variable {κ K : Type} [DecidableEq κ] [LinearOrder K] [Sub K] (limit : Int) (window : K)

/-- The calls with the key of this one in its window. -/
def inWindow (granted : List (κ × K)) (c : κ × K) : List (κ × K) :=
  granted.filter fun g => g.1 = c.1 ∧ c.2 - window < g.2 ∧ g.2 ≤ c.2

/-- One call. -/
def grant (granted : List (κ × K)) (c : κ × K) : List (κ × K) :=
  if (inWindow window granted c).length < limit then granted ++ [c] else granted

/-- The calls that are let through. -/
def grants (calls : List (κ × K)) : List (κ × K) := calls.foldl (grant limit window) []

variable {limit window}

theorem grants_append (calls : List (κ × K)) (c : κ × K) :
    grants limit window (calls ++ [c]) = grant limit window (grants limit window calls) c := by
  rw [grants, List.foldl_append]
  rfl

/-- Calls with other keys are not in the window. -/
theorem inWindow_filter (granted : List (κ × K)) (c : κ × K) :
    inWindow window (granted.filter fun g => g.1 = c.1) c = inWindow window granted c := by
  unfold inWindow
  rw [List.filter_filter]
  refine List.filter_congr fun g _ => ?_
  by_cases hg : g.1 = c.1
  · simp [hg]
  · simp [hg]

/-- **Independence of the keys**: the calls with a key are let through as if there were no
others. -/
theorem grants_filter (calls : List (κ × K)) (k : κ) :
    (grants limit window calls).filter (fun g => g.1 = k) =
      grants limit window (calls.filter fun c => c.1 = k) := by
  induction calls using List.reverseRecOn with
  | nil => rfl
  | append_singleton calls c ih =>
    rw [grants_append, List.filter_append]
    by_cases hc : c.1 = k
    · rw [List.filter_cons_of_pos (by simpa using hc), List.filter_nil, grants_append, ← ih]
      unfold grant
      rw [← hc, inWindow_filter]
      split
      · rw [List.filter_append, List.filter_cons_of_pos (by simp), List.filter_nil]
      · rfl
    · rw [List.filter_cons_of_neg (by simpa using hc), List.filter_nil, List.append_nil, ← ih]
      unfold grant
      split
      · rw [List.filter_append, List.filter_cons_of_neg (by simpa using hc), List.filter_nil,
          List.append_nil]
      · rfl

theorem inWindow_concat (granted : List (κ × K)) (c d : κ × K) :
    inWindow window (granted ++ [d]) c = inWindow window granted c ++
      if d.1 = c.1 ∧ c.2 - window < d.2 ∧ d.2 ≤ c.2 then [d] else [] := by
  rw [inWindow, inWindow, List.filter_append]
  by_cases hd : d.1 = c.1 ∧ c.2 - window < d.2 ∧ d.2 ≤ c.2
  · rw [if_pos hd, List.filter_cons_of_pos (by simpa using hd), List.filter_nil]
  · rw [if_neg hd, List.filter_cons_of_neg (by simpa using hd), List.filter_nil]

theorem grants_subset (calls : List (κ × K)) : grants limit window calls ⊆ calls := by
  induction calls using List.reverseRecOn with
  | nil => exact fun _ h => h
  | append_singleton calls c ih =>
    rw [grants_append, grant]
    have hkept : grants limit window calls ⊆ calls ++ [c] :=
      fun g hg => List.mem_append_left _ (ih hg)
    split
    · intro g hg
      rcases List.mem_append.1 hg with hg | hg
      · exact hkept hg
      · exact List.mem_append_right _ hg
    · exact hkept

/-- Calls with keys of their own are all let through. -/
theorem grants_of_distinct {calls : List (κ × K)} (hlimit : 0 < limit)
    (h : (calls.map Prod.fst).Nodup) : grants limit window calls = calls := by
  induction calls using List.reverseRecOn with
  | nil => rfl
  | append_singleton calls c ih =>
    rw [List.map_append, List.nodup_append] at h
    have hnone : inWindow window calls c = [] := by
      refine List.filter_eq_nil_iff.2 fun g hg => ?_
      have hne : g.1 ≠ c.1 := h.2.2 _ (List.mem_map_of_mem hg) _ (List.mem_singleton_self _)
      simp [hne]
    rw [grants_append, ih h.1, grant, hnone]
    exact if_pos hlimit

end Rule

section Bound
variable {κ K : Type} [DecidableEq κ] [AddCommGroup K] [LinearOrder K] [IsOrderedAddMonoid K]
  {limit : Int} {window : K}

/-- What is in a window was in the window of a later call of it, but for what came after. -/
theorem length_inWindow_mono {granted : List (κ × K)} {c d : κ × K} (hkey : d.1 = c.1)
    (hle : d.2 ≤ c.2) (hpast : ∀ g ∈ granted, g.2 ≤ d.2) :
    (inWindow window granted c).length ≤ (inWindow window granted d).length := by
  rw [inWindow, inWindow, ← List.countP_eq_length_filter, ← List.countP_eq_length_filter]
  refine List.countP_mono_left fun g hg hin => ?_
  obtain ⟨hk, hlate, -⟩ := of_decide_eq_true hin
  have hstart : d.2 - window ≤ c.2 - window := sub_le_sub_right hle window
  exact decide_eq_true ⟨hk.trans hkey.symm, hstart.trans_lt hlate, hpast g hg⟩

/-- **No window has more than the limit**: not only the windows that end with a call. -/
theorem length_inWindow_le {calls : List (κ × K)}
    (hclock : (calls.map Prod.snd).Pairwise (· ≤ ·)) (c : κ × K) :
    ((inWindow window (grants limit window calls) c).length : Int) ≤ max limit 0 := by
  induction calls using List.reverseRecOn with
  | nil => exact le_max_right limit 0
  | append_singleton calls d ih =>
    rw [List.map_append, List.map_singleton, List.pairwise_append] at hclock
    obtain ⟨hcalls, -, hlast⟩ := hclock
    have hpast : ∀ g ∈ grants limit window calls, g.2 ≤ d.2 := fun g hg =>
      hlast _ (List.mem_map_of_mem (grants_subset calls hg)) _ (List.mem_singleton_self _)
    rw [grants_append, grant]
    split
    · next hroom =>
      rw [inWindow_concat, List.length_append]
      split
      · next hd =>
        have hmono : (inWindow window (grants limit window calls) c).length ≤
            (inWindow window (grants limit window calls) d).length :=
          length_inWindow_mono hd.1 hd.2.2 hpast
        rw [List.length_singleton]
        omega
      · rw [List.length_nil, Nat.add_zero]
        exact ih hcalls
    · exact ih hcalls

end Bound

end SlidingWindow
