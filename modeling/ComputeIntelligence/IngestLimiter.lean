import ComputeIntelligence.PyDict
import ComputeIntelligence.SlidingWindow
import Mathlib.Data.Rat.Defs
import Mathlib.Tactic.Linarith

/-! # The ingestion limiter

`SlidingWindowRateLimiter` (`api/runtime.py`).  A call trims the queue of its key, cleans up stale
queues once in a while, and is let through when its own queue is shorter than the limit.  Whatever
is trimmed or cleaned up came before the window of every later call, so the limiter lets through
exactly what the counting rule `SlidingWindow.grants` does (`tracks_after`).
-/
namespace ComputeIntelligence
open SlidingWindow

structure SlidingWindowRateLimiter where
  limit : Int
  windowSeconds : ℚ := 60
  events : PyDict String (List ℚ) := PyDict.empty
  opsSinceCleanup : Nat := 0
  cleanupIntervalOps : Nat := 256

namespace SlidingWindowRateLimiter

/-- The queue of a key, oldest first. -/
def bucket (s : SlidingWindowRateLimiter) (key : String) : List ℚ := s.events.getD key []

/-- The other keys whose queue is empty or ends before the cutoff. -/
def staleKeys (events : PyDict String (List ℚ)) (key : String) (cutoff : ℚ) : List String :=
  (events.items.filter fun e =>
    e.1 ≠ key ∧ e.2.getLast?.all (fun last => decide (last ≤ cutoff)) = true).map Prod.fst

/-- The clean-up is due with this call. -/
def cleansUp (s : SlidingWindowRateLimiter) : Bool := s.cleanupIntervalOps ≤ s.opsSinceCleanup + 1

/-- The queue of a call, trimmed. -/
def trimmed (s : SlidingWindowRateLimiter) (key : String) (now : ℚ) : List ℚ :=
  (s.bucket key).dropWhile (· ≤ now - s.windowSeconds)

/-- The queues after the trimming, and the clean-up where it is due. -/
def kept (s : SlidingWindowRateLimiter) (key : String) (now : ℚ) : PyDict String (List ℚ) :=
  let events := s.events.set key (s.trimmed key now)
  if s.cleansUp then
    (staleKeys events key (now - s.windowSeconds)).foldl PyDict.erase events
  else events

/-- `allow`, at the time `now`, under the lock. -/
def allow (s : SlidingWindowRateLimiter) (key : String) (now : ℚ) :
    Bool × SlidingWindowRateLimiter :=
  let bucket := s.trimmed key now
  let s := { s with
    events := s.kept key now
    opsSinceCleanup := if s.cleansUp then 0 else s.opsSinceCleanup + 1 }
  if s.limit ≤ (bucket.length : Int) then (false, s)
  else (true, { s with events := s.events.set key (bucket ++ [now]) })

/-! ### Runs -/

/-- A call, and the calls that have been let through. -/
def step (r : SlidingWindowRateLimiter × List (String × ℚ)) (c : String × ℚ) :
    SlidingWindowRateLimiter × List (String × ℚ) :=
  let (answer, s) := r.1.allow c.1 c.2
  (s, if answer then r.2 ++ [c] else r.2)

/-- The limiter after a list of calls, and the calls of these that were let through. -/
def after (s : SlidingWindowRateLimiter) (calls : List (String × ℚ)) :
    SlidingWindowRateLimiter × List (String × ℚ) :=
  calls.foldl step (s, [])

theorem after_append (s : SlidingWindowRateLimiter) (calls : List (String × ℚ)) (c : String × ℚ) :
    s.after (calls ++ [c]) = step (s.after calls) c := by
  rw [after, List.foldl_append]
  rfl

/-- A new limiter. -/
def fresh (limit : Int) (windowSeconds : ℚ) (cleanupIntervalOps : Nat) : SlidingWindowRateLimiter :=
  { limit, windowSeconds, cleanupIntervalOps }

/-! ### What the limiter has kept -/

/-- The times of a key's calls. -/
def timesOf (granted : List (String × ℚ)) (key : String) : List ℚ :=
  (granted.filter fun g => g.1 = key).map Prod.snd

/-- Every queue still has what a call from `now` on counts, and nothing came after `now`. -/
structure Tracks (limit : Int) (window now : ℚ) (granted : List (String × ℚ))
    (s : SlidingWindowRateLimiter) : Prop where
  limit_eq : s.limit = limit
  window_eq : s.windowSeconds = window
  holds : ∀ key, Holds (now - window) (s.bucket key) (timesOf granted key)
  past : ∀ key, ∀ t ∈ s.bucket key, t ≤ now
  granted_past : ∀ g ∈ granted, g.2 ≤ now

variable {limit : Int} {window now now' cutoff : ℚ} {granted : List (String × ℚ)}
  {s : SlidingWindowRateLimiter} {key other : String}

theorem tracks_fresh (limit : Int) (window : ℚ) (interval : Nat) (now : ℚ) :
    Tracks limit window now [] (fresh limit window interval) where
  limit_eq := rfl
  window_eq := rfl
  holds key := holds_nil _
  past key t ht := by cases ht
  granted_past g hg := by cases hg

/-- Time goes on. -/
theorem Tracks.later (h : Tracks limit window now granted s) (hle : now ≤ now') :
    Tracks limit window now' granted s where
  limit_eq := h.limit_eq
  window_eq := h.window_eq
  holds key := (h.holds key).later (sub_le_sub_right hle window)
  past key t ht := (h.past key t ht).trans hle
  granted_past g hg := (h.granted_past g hg).trans hle

theorem mem_staleKeys {events : PyDict String (List ℚ)} :
    other ∈ staleKeys events key cutoff ↔ other ≠ key ∧ ∃ queue, events.get? other = some queue ∧
      ∀ last ∈ queue.getLast?, last ≤ cutoff := by
  unfold staleKeys
  rw [List.mem_map]
  constructor
  · rintro ⟨⟨k, queue⟩, hmem, rfl⟩
    obtain ⟨hmem, hstale⟩ := List.mem_filter.1 hmem
    obtain ⟨hne, hlast⟩ := of_decide_eq_true hstale
    refine ⟨hne, queue, PyDict.get?_of_mem hmem, fun last hl => ?_⟩
    rw [Option.mem_def.1 hl, Option.all_some] at hlast
    exact of_decide_eq_true hlast
  · rintro ⟨hne, queue, hget, hlast⟩
    refine ⟨(other, queue), List.mem_filter.2 ⟨PyDict.mem_of_find hget, ?_⟩, rfl⟩
    refine decide_eq_true ⟨hne, ?_⟩
    cases hl : queue.getLast? with
    | none => rfl
    | some last => exact decide_eq_true (hlast last hl)

/-- The clean-up leaves a queue, or drops one that was stale. -/
theorem getD_cleanUp (events : PyDict String (List ℚ)) (key : String) (cutoff : ℚ)
    (other : String) :
    ((staleKeys events key cutoff).foldl PyDict.erase events).getD other [] =
        events.getD other [] ∨
      (other ≠ key ∧ (∀ last ∈ (events.getD other []).getLast?, last ≤ cutoff) ∧
        ((staleKeys events key cutoff).foldl PyDict.erase events).getD other [] = []) := by
  unfold PyDict.getD
  rw [PyDict.get?_foldl_erase]
  by_cases hstale : other ∈ staleKeys events key cutoff
  · obtain ⟨hne, queue, hget, hlast⟩ := mem_staleKeys.1 hstale
    rw [if_pos hstale, hget]
    exact .inr ⟨hne, hlast, rfl⟩
  · rw [if_neg hstale]
    exact .inl rfl

theorem getD_set (events : PyDict String (List ℚ)) (key : String) (queue : List ℚ)
    (other : String) : (events.set key queue).getD other [] =
      if other = key then queue else events.getD other [] := by
  unfold PyDict.getD
  rw [PyDict.get?_set]
  split <;> rfl

/-- The call's own queue is trimmed. -/
theorem getD_kept_self (s : SlidingWindowRateLimiter) (key : String) (now : ℚ) :
    (s.kept key now).getD key [] = s.trimmed key now := by
  have hset : (s.events.set key (s.trimmed key now)).getD key [] = s.trimmed key now := by
    rw [getD_set, if_pos rfl]
  unfold kept
  dsimp only
  split
  · obtain heq | ⟨hne, -⟩ := getD_cleanUp (s.events.set key (s.trimmed key now)) key
      (now - s.windowSeconds) key
    · rw [heq, hset]
    · exact absurd rfl hne
  · exact hset

/-- Another queue is left alone, or dropped when it was stale. -/
theorem getD_kept_of_ne (s : SlidingWindowRateLimiter) (now : ℚ) (hne : other ≠ key) :
    (s.kept key now).getD other [] = s.bucket other ∨
      (∀ last ∈ (s.bucket other).getLast?, last ≤ now - s.windowSeconds) ∧
        (s.kept key now).getD other [] = [] := by
  have hset : (s.events.set key (s.trimmed key now)).getD other [] = s.bucket other := by
    rw [getD_set, if_neg hne]
    rfl
  unfold kept
  dsimp only
  split
  · obtain heq | ⟨-, hlast, hnil⟩ := getD_cleanUp (s.events.set key (s.trimmed key now)) key
      (now - s.windowSeconds) other
    · exact .inl (heq.trans hset)
    · exact .inr ⟨hset ▸ hlast, hnil⟩
  · exact .inl hset

/-- After the trimming and the clean-up every queue has what it needs. -/
theorem Tracks.holds_kept (h : Tracks limit window now granted s) (key other : String) :
    Holds (now - window) ((s.kept key now).getD other []) (timesOf granted other) := by
  have hholds := h.holds other
  by_cases hne : other = key
  · rw [hne, getD_kept_self, trimmed, h.window_eq]
    exact (h.holds key).trim
  · obtain heq | ⟨hlast, hnil⟩ := getD_kept_of_ne s now hne
    · rwa [heq]
    · rw [h.window_eq] at hlast
      rw [hnil]
      exact hholds.drop hlast

theorem Tracks.past_kept (h : Tracks limit window now granted s) (key other : String) :
    ∀ t ∈ (s.kept key now).getD other [], t ≤ now := by
  intro t ht
  by_cases hne : other = key
  · rw [hne, getD_kept_self] at ht
    exact h.past key t ((List.dropWhile_sublist _).subset ht)
  · obtain heq | ⟨-, hnil⟩ := getD_kept_of_ne s now hne
    · rw [heq] at ht
      exact h.past other t ht
    · rw [hnil] at ht
      cases ht

/-- The call's own queue is as long as the calls in its window are many. -/
theorem Tracks.length_trimmed (h : Tracks limit window now granted s) (key : String) :
    (s.trimmed key now).length = (inWindow window granted (key, now)).length := by
  have hrecent := (h.holds key).trimmed_eq
  rw [trimmed, h.window_eq, hrecent]
  unfold recent timesOf inWindow
  rw [List.filter_map, List.length_map, List.filter_filter]
  refine congrArg List.length (List.filter_congr fun g hg => ?_)
  have hpast := h.granted_past g hg
  by_cases hkey : g.1 = key
  · simp [hkey, hpast]
  · simp [hkey]

theorem timesOf_append (granted : List (String × ℚ)) (key other : String) (now : ℚ) :
    timesOf (granted ++ [(key, now)]) other =
      if other = key then timesOf granted other ++ [now] else timesOf granted other := by
  unfold timesOf
  rw [List.filter_append, List.map_append]
  by_cases hkey : other = key
  · rw [if_pos hkey, List.filter_cons_of_pos (by simpa using hkey.symm)]
    rfl
  · rw [if_neg hkey, List.filter_cons_of_neg (by simpa using Ne.symm hkey)]
    exact List.append_nil _

/-- A call is let through when the rule lets it through, and the limiter goes on tracking. -/
theorem Tracks.step (h : Tracks limit window now granted s) (key : String) :
    ∃ s', SlidingWindowRateLimiter.step (s, granted) (key, now) =
        (s', grant limit window granted (key, now)) ∧
      Tracks limit window now (grant limit window granted (key, now)) s' := by
  have hlength := h.length_trimmed key
  unfold SlidingWindowRateLimiter.step allow grant
  dsimp only
  rw [hlength, h.limit_eq]
  by_cases hfull : limit ≤ ((inWindow window granted (key, now)).length : Int)
  · rw [if_pos hfull, if_neg (not_lt.2 hfull)]
    exact ⟨_, rfl, ⟨rfl, h.window_eq, h.holds_kept key, h.past_kept key, h.granted_past⟩⟩
  · rw [if_neg hfull, if_pos (not_le.1 hfull)]
    refine ⟨_, rfl, ⟨rfl, h.window_eq, fun other => ?_, fun other => ?_, fun g hg => ?_⟩⟩
    · have hkept := h.holds_kept key other
      rw [bucket, getD_set, timesOf_append]
      by_cases hkey : other = key
      · rw [hkey, getD_kept_self] at hkept
        rw [if_pos hkey, if_pos hkey, hkey]
        exact hkept.push fun t ht => h.past_kept key key t ((getD_kept_self s key now).symm ▸ ht)
      · rwa [if_neg hkey, if_neg hkey]
    · rw [bucket, getD_set]
      have hpast := h.past_kept key other
      by_cases hkey : other = key
      · rw [hkey, getD_kept_self] at hpast
        rw [if_pos hkey]
        intro t ht
        rcases List.mem_append.1 ht with ht | ht
        · exact hpast t ht
        · rw [List.mem_singleton.1 ht]
      · rwa [if_neg hkey]
    · rcases List.mem_append.1 hg with hg | hg
      · exact h.granted_past g hg
      · rw [List.mem_singleton.1 hg]

/-- **The limiter follows the rule**: after calls with a clock that does not go back, it has let
through those that the rule lets through, and it tracks them. -/
theorem tracks_after (limit : Int) (window : ℚ) (interval : Nat) (calls : List (String × ℚ))
    (now : ℚ) (hclock : (calls.map Prod.snd ++ [now]).Pairwise (· ≤ ·)) :
    ((fresh limit window interval).after calls).2 = grants limit window calls ∧
      Tracks limit window now (grants limit window calls)
        ((fresh limit window interval).after calls).1 := by
  induction calls using List.reverseRecOn generalizing now with
  | nil => exact ⟨rfl, tracks_fresh limit window interval now⟩
  | append_singleton calls c ih =>
    rw [List.map_append, List.map_singleton] at hclock
    obtain ⟨hcalls, -, hlater⟩ := List.pairwise_append.1 hclock
    obtain ⟨hgranted, htracks⟩ := ih c.2 hcalls
    obtain ⟨s', hstep, hnext⟩ := htracks.step c.1
    have hrun : (fresh limit window interval).after (calls ++ [c]) =
        (s', grants limit window (calls ++ [c])) := by
      rw [after_append, grants_append, ← hstep, ← hgranted]
    rw [hrun, grants_append]
    refine ⟨rfl, hnext.later (hlater c.2 ?_ now (List.mem_singleton_self _))⟩
    exact List.mem_append_right _ (List.mem_singleton_self _)

/-- The next answer is the rule's. -/
theorem allow_after_iff (limit : Int) (window : ℚ) (interval : Nat) (calls : List (String × ℚ))
    (key : String) (now : ℚ) (hclock : (calls.map Prod.snd ++ [now]).Pairwise (· ≤ ·)) :
    (((fresh limit window interval).after calls).1.allow key now).1 = true ↔
      (inWindow window (grants limit window calls) (key, now)).length < limit := by
  obtain ⟨-, htracks⟩ := tracks_after limit window interval calls now hclock
  unfold allow
  dsimp only
  rw [htracks.length_trimmed, htracks.limit_eq]
  split
  · rename_i hfull
    exact iff_of_false (by simp) (not_lt.2 hfull)
  · rename_i hroom
    exact iff_of_true rfl (not_le.1 hroom)

/-- **The limiter is exact**: with a clock that does not go back, a call is let through exactly when
fewer calls of its key than the limit were let through in its window; the clean-up and the calls of
other keys make no difference. -/
theorem allow_exact (limit : Int) (window : ℚ) (interval : Nat) (calls : List (String × ℚ))
    (key : String) (now : ℚ) (hclock : (calls.map Prod.snd ++ [now]).Pairwise (· ≤ ·)) :
    ((((fresh limit window interval).after calls).1.allow key now).1 = true ↔
      (((fresh limit window interval).after calls).2.filter fun g =>
        g.1 = key ∧ now - window < g.2 ∧ g.2 ≤ now).length < limit) ∧
    (∀ interval', (((fresh limit window interval').after calls).1.allow key now).1 =
      (((fresh limit window interval).after calls).1.allow key now).1) ∧
    (((fresh limit window interval).after (calls.filter fun c => c.1 = key)).1.allow key now).1 =
      (((fresh limit window interval).after calls).1.allow key now).1 := by
  have hanswer := allow_after_iff limit window interval calls key now hclock
  refine ⟨?_, fun interval' => ?_, ?_⟩
  · obtain ⟨hgranted, -⟩ := tracks_after limit window interval calls now hclock
    rw [hgranted]
    exact hanswer
  · have hother := allow_after_iff limit window interval' calls key now hclock
    exact Bool.eq_iff_iff.2 (hother.trans hanswer.symm)
  · have hsublist : ((calls.filter fun c => c.1 = key).map Prod.snd ++ [now]).Sublist
        (calls.map Prod.snd ++ [now]) := (List.filter_sublist.map _).append_right [now]
    have hown := allow_after_iff limit window interval (calls.filter fun c => c.1 = key) key now
      (hclock.sublist hsublist)
    have hsame : inWindow window (grants limit window (calls.filter fun c => c.1 = key))
        (key, now) = inWindow window (grants limit window calls) (key, now) := by
      rw [← grants_filter]
      exact inWindow_filter _ (key, now)
    rw [hsame] at hown
    exact Bool.eq_iff_iff.2 (hown.trans hanswer.symm)

/-- Two calls in a minute are let through, the third is not, and the first makes room after a
minute. -/
theorem allow_exact_minute :
    (((fresh 2 60 256).after [("tenant-a", 0), ("tenant-b", 10), ("tenant-a", 20)]).1.allow
        "tenant-a" 30).1 = true ↔
      (((fresh 2 60 256).after [("tenant-a", 0), ("tenant-b", 10), ("tenant-a", 20)]).2.filter
        fun g => g.1 = "tenant-a" ∧ (30 : ℚ) - 60 < g.2 ∧ g.2 ≤ 30).length < (2 : Int) :=
  (allow_exact 2 60 256 [("tenant-a", 0), ("tenant-b", 10), ("tenant-a", 20)] "tenant-a" 30
    (by decide +kernel)).1

end SlidingWindowRateLimiter
end ComputeIntelligence
