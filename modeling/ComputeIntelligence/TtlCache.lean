import Mathlib.Data.List.Induction
import ComputeIntelligence.PyDict

/-! # Caches with a time to live

A cache keeps the answers of a computation under a key, for a while and up to a number of
entries; the least recently used answer goes first.  A call is answered from the cache or
computed, and an error is not kept.

Whatever the calls, the times and the limits, an answer is the computation's own or that of an
earlier call with the same key that was stored no longer ago than the time to live
(`answer_spec`): so what the answers of the computation have in common, those of the cache have
too (`answer_of_fresh`), and where calls with one key have one answer the cache shows nothing
(`answer_eq_fresh`).
-/
namespace TtlCache
variable {κ ν ε : Type} [DecidableEq κ]

/-- The limits of a cache. -/
structure Limits where
  ttl : Int
  maxEntries : Nat

/-- A fresh entry, which becomes the most recent one; a stale entry is dropped. -/
def lookup (limits : Limits) (cache : PyDict κ (Int × ν)) (key : κ) (now : Int) :
    Option ν × PyDict κ (Int × ν) :=
  match cache.get? key with
  | none => (none, cache)
  | some (storedAt, v) =>
      if limits.ttl < now - storedAt then (none, cache.erase key)
      else (some v, cache.moveToEnd key)

/-- Drop the oldest entries until the cache is small enough. -/
def trim (maxEntries : Nat) : Nat → PyDict κ (Int × ν) → PyDict κ (Int × ν)
  | 0, cache => cache
  | fuel + 1, cache =>
      if maxEntries < cache.size then
        match cache.popFirst with
        | none => cache
        | some (_, rest) => trim maxEntries fuel rest
      else cache

/-- Keep an answer. -/
def store (limits : Limits) (cache : PyDict κ (Int × ν)) (key : κ) (v : ν) (now : Int) :
    PyDict κ (Int × ν) :=
  let cache := cache.setLast key (now, v)
  trim limits.maxEntries cache.size cache

/-- A call: its key, what the computation answers, and when the cache is asked and an answer
stored. -/
structure Call (κ ν ε : Type) where
  key : κ
  fresh : Except ε ν
  asked : Int
  stored : Int

/-- Answer a call. -/
def answer (limits : Limits) (cache : PyDict κ (Int × ν)) (c : Call κ ν ε) :
    Except ε ν × PyDict κ (Int × ν) :=
  match lookup limits cache c.key c.asked with
  | (some v, cache) => (.ok v, cache)
  | (none, cache) =>
      match c.fresh with
      | .ok v => (.ok v, store limits cache c.key v c.stored)
      | .error e => (.error e, cache)

/-- The cache after some calls. -/
def after (limits : Limits) (calls : List (Call κ ν ε)) : PyDict κ (Int × ν) :=
  calls.foldl (fun cache c => (answer limits cache c).2) PyDict.empty

variable {limits : Limits} {cache : PyDict κ (Int × ν)} {calls : List (Call κ ν ε)}
  {c : Call κ ν ε}

/-! ### What a cache holds -/

theorem get?_of_trim {maxEntries fuel : Nat} {key : κ} {item : Int × ν}
    (h : (trim maxEntries fuel cache).get? key = some item) : cache.get? key = some item := by
  induction fuel generalizing cache with
  | zero => exact h
  | succ fuel ih =>
    rw [trim] at h
    split at h
    · split at h
      · exact h
      · rename_i hpop
        have hrest := ih h
        rw [PyDict.get?_popFirst hpop] at hrest
        split at hrest
        · cases hrest
        · exact hrest
    · exact h

theorem get?_of_store {key key' : κ} {v : ν} {now : Int} {item : Int × ν}
    (h : (store limits cache key v now).get? key' = some item) :
    (key' = key ∧ item = (now, v)) ∨ cache.get? key' = some item := by
  have hset := get?_of_trim h
  rw [PyDict.get?_setLast] at hset
  split at hset
  · rename_i hkey
    exact .inl ⟨hkey, (Option.some.inj hset).symm⟩
  · exact .inr hset

theorem lookup_spec {key : κ} {now : Int} {v : ν} (h : (lookup limits cache key now).1 = some v) :
    ∃ storedAt, cache.get? key = some (storedAt, v) ∧ now - storedAt ≤ limits.ttl := by
  unfold lookup at h
  split at h
  · cases h
  · rename_i storedAt w hget
    split at h
    · cases h
    · rename_i hfresh
      obtain rfl := Option.some.inj h
      exact ⟨storedAt, hget, Int.not_lt.1 hfresh⟩

theorem get?_of_lookup {key key' : κ} {now : Int} {item : Int × ν}
    (h : (lookup limits cache key now).2.get? key' = some item) : cache.get? key' = some item := by
  unfold lookup at h
  split at h
  · exact h
  · split at h
    · rw [PyDict.get?_erase] at h
      split at h
      · cases h
      · exact h
    · rwa [PyDict.get?_moveToEnd] at h

/-- Every entry is the answer of a call. -/
def Known (calls : List (Call κ ν ε)) (cache : PyDict κ (Int × ν)) : Prop :=
  ∀ key storedAt v, cache.get? key = some (storedAt, v) →
    ∃ d ∈ calls, d.key = key ∧ d.stored = storedAt ∧ d.fresh = .ok v

/-- One call. -/
theorem Known.answer (h : Known calls cache) (c : Call κ ν ε) :
    Known (calls ++ [c]) (answer limits cache c).2 := by
  have hold : ∀ key storedAt v, (lookup limits cache c.key c.asked).2.get? key =
      some (storedAt, v) → ∃ d ∈ calls ++ [c], d.key = key ∧ d.stored = storedAt ∧
        d.fresh = .ok v := by
    intro key storedAt v hget
    obtain ⟨d, hd, hspec⟩ := h key storedAt v (get?_of_lookup hget)
    exact ⟨d, List.mem_append_left _ hd, hspec⟩
  unfold TtlCache.answer
  split
  · rename_i hlookup
    rw [hlookup] at hold
    exact hold
  · rename_i hlookup
    rw [hlookup] at hold
    split
    · rename_i v hfresh
      intro key storedAt w hget
      rcases get?_of_store hget with ⟨rfl, hitem⟩ | hget
      · obtain ⟨rfl, rfl⟩ := Prod.mk.inj hitem
        exact ⟨c, List.mem_append_right _ (List.mem_singleton_self c), rfl, rfl, hfresh⟩
      · exact hold key storedAt w hget
    · exact hold

/-- All calls. -/
theorem known_after (limits : Limits) (calls : List (Call κ ν ε)) :
    Known calls (after limits calls) := by
  induction calls using List.reverseRecOn with
  | nil =>
    intro key storedAt v h
    cases h
  | append_singleton calls c ih =>
    unfold after
    rw [List.foldl_append]
    exact ih.answer c

/-- What every answer of the computation has beside its key, every entry has. -/
theorem answer_entries {P : κ → ν → Prop}
    (hcache : ∀ key storedAt v, cache.get? key = some (storedAt, v) → P key v)
    (hfresh : ∀ v, c.fresh = .ok v → P c.key v) :
    ∀ key storedAt v, (answer limits cache c).2.get? key = some (storedAt, v) → P key v := by
  have hold : ∀ key storedAt v, (lookup limits cache c.key c.asked).2.get? key =
      some (storedAt, v) → P key v := fun key storedAt v hget =>
    hcache key storedAt v (get?_of_lookup hget)
  unfold answer
  split
  · rename_i hlookup
    rw [hlookup] at hold
    exact hold
  · rename_i hlookup
    rw [hlookup] at hold
    split
    · rename_i v hv
      intro key storedAt w hget
      rcases get?_of_store hget with ⟨rfl, hitem⟩ | hget
      · obtain ⟨-, rfl⟩ := Prod.mk.inj hitem
        exact hfresh _ hv
      · exact hold key storedAt w hget
    · exact hold

/-! ### What it answers -/

/-- **An answer is fresh or remembered**: the computation's own, or that of an earlier call with
the same key, no older than the time to live. -/
theorem answer_spec (limits : Limits) (calls : List (Call κ ν ε)) (c : Call κ ν ε) :
    (answer limits (after limits calls) c).1 = c.fresh ∨
      ∃ d ∈ calls, ∃ v, d.key = c.key ∧ d.fresh = .ok v ∧ c.asked - d.stored ≤ limits.ttl ∧
        (answer limits (after limits calls) c).1 = .ok v := by
  unfold answer
  split
  · rename_i v cache hlookup
    obtain ⟨storedAt, hget, hage⟩ := lookup_spec (congrArg Prod.fst hlookup)
    obtain ⟨d, hd, hkey, rfl, hfresh⟩ := known_after limits calls _ _ _ hget
    exact .inr ⟨d, hd, v, hkey, hfresh, hage, rfl⟩
  · left
    cases c.fresh with
    | ok v => rfl
    | error e => rfl

/-- What holds of every computed answer holds of every answer. -/
theorem answer_of_fresh {P : ν → Prop} {v : ν}
    (h : ∀ d ∈ calls ++ [c], ∀ w, d.fresh = .ok w → P w)
    (hv : (answer limits (after limits calls) c).1 = .ok v) : P v := by
  rcases answer_spec limits calls c with heq | ⟨d, hd, w, -, hfresh, -, heq⟩
  · rw [heq] at hv
    exact h c (List.mem_append_right _ (List.mem_singleton_self c)) v hv
  · rw [heq] at hv
    obtain rfl := Except.ok.inj hv
    exact h d (List.mem_append_left _ hd) w hfresh

/-- Where calls with one key have one answer, the cache shows nothing. -/
theorem answer_eq_fresh
    (h : ∀ d ∈ calls, ∀ v, d.key = c.key → d.fresh = .ok v → c.asked - d.stored ≤ limits.ttl →
      c.fresh = .ok v) :
    (answer limits (after limits calls) c).1 = c.fresh := by
  rcases answer_spec limits calls c with heq | ⟨d, hd, v, hkey, hfresh, hage, heq⟩
  · exact heq
  · rw [heq, h d hd v hkey hfresh hage]

end TtlCache
