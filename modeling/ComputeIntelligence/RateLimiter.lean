import Mathlib.Algebra.Order.Field.Rat
import Mathlib.Order.Bounds.Basic
import Mathlib.Tactic.NormNum
import ComputeIntelligence.GuardedRuns
import ComputeIntelligence.TokenBucket

/-! # The token bucket in Redis

`RedisTokenBucketRateLimiter.allow` (`api/runtime.py`) and its Lua script.  The script
stores the caller's clock even when it is behind the stored one, so a reading that
falls lets the next one refill the same seconds again.

What is allowed is bounded by the capacity and the climb of the readings, whatever the
clocks do (`allowed_le_climb`); it is bounded by their range when no reading is behind
the one before (`withinRange_of_inOrder`).
-/
namespace ComputeIntelligence

/-- `HMGET key tokens updated_at`. -/
structure RedisBucket where
  tokens : Option ℚ
  updatedAt : Option ℚ
deriving DecidableEq

/-- The hash before the first call. -/
def RedisBucket.absent : RedisBucket := ⟨none, none⟩

/-- `RedisTokenBucketRateLimiter`, in exact arithmetic; the settings admit only a positive
limit, and the window is a minute. -/
structure RedisTokenBucketRateLimiter where
  limit : Nat
  windowSeconds : ℚ := 60
  limit_pos : 0 < limit
  window_pos : 0 < windowSeconds := by norm_num

namespace RedisTokenBucketRateLimiter

def capacity (l : RedisTokenBucketRateLimiter) : ℚ := l.limit

def refillRatePerSecond (l : RedisTokenBucketRateLimiter) : ℚ := l.limit / l.windowSeconds

/-- `_TOKEN_BUCKET_LUA`, without the time to live. -/
def tokenBucketScript (capacity refillRate now requested : ℚ) (bucket : RedisBucket) :
    Bool × RedisBucket :=
  let tokens := bucket.tokens.getD capacity
  let updatedAt := bucket.updatedAt.getD now
  let elapsed := max 0 (now - updatedAt)
  let tokens := min capacity (tokens + elapsed * refillRate)
  if requested ≤ tokens then (true, ⟨some (tokens - requested), some now⟩)
  else (false, ⟨some tokens, some now⟩)

/-- `allow`; without Redis every request is allowed. -/
def allow (l : RedisTokenBucketRateLimiter) (redisAvailable : Bool) (now : ℚ)
    (bucket : RedisBucket) : Bool × RedisBucket :=
  if redisAvailable then tokenBucketScript l.capacity l.refillRatePerSecond now 1 bucket
  else (true, bucket)

end RedisTokenBucketRateLimiter

/-- A call of `allow` for the key, by a replica and with its reading of the clock. -/
structure AllowCall where
  replica : Nat
  now : ℚ

/-- The bucket of one key, the number of calls it has allowed and their readings, newest
first. -/
structure KeyUsage where
  bucket : RedisBucket
  allowed : Nat := 0
  readings : List ℚ := []

namespace KeyUsage
open TokenBucket

/-- One call, in any interleaving of the replicas' calls. -/
def step (l : RedisTokenBucketRateLimiter) (s : KeyUsage) (c : AllowCall) : KeyUsage :=
  let (allowed, bucket) := l.allow true c.now s.bucket
  { bucket, allowed := s.allowed + allowed.toNat, readings := c.now :: s.readings }

/-- The calls allowed are at most the capacity and the refill over the range of the
readings. -/
def WithinRange (l : RedisTokenBucketRateLimiter) (s : KeyUsage) : Prop :=
  ∀ lo hi, IsLeast {r | r ∈ s.readings} lo → IsGreatest {r | r ∈ s.readings} hi →
    (s.allowed : ℚ) ≤ l.capacity + l.refillRatePerSecond * (hi - lo)

/-- The reading is not behind the one before. -/
def InOrder (s : KeyUsage) (c : AllowCall) : Prop := ∀ r ∈ s.readings.head?, r ≤ c.now

/-! ### What a call does -/

/-- The bucket the script works on. -/
def effective (l : RedisTokenBucketRateLimiter) (bucket : RedisBucket) (now : ℚ) : Bucket ℚ :=
  ⟨bucket.tokens.getD l.capacity, bucket.updatedAt.getD now⟩

/-- A call is a draw of one token. -/
theorem allow_eq (l : RedisTokenBucketRateLimiter) (bucket : RedisBucket) (now : ℚ) :
    l.allow true now bucket =
      ((draw l.capacity l.refillRatePerSecond now 1 (effective l bucket now)).1,
        ⟨some (draw l.capacity l.refillRatePerSecond now 1 (effective l bucket now)).2.tokens,
          some now⟩) := by
  unfold RedisTokenBucketRateLimiter.allow RedisTokenBucketRateLimiter.tokenBucketScript draw refill
    effective
  dsimp only
  rw [if_pos rfl]
  split <;> rfl

theorem capacity_nonneg (l : RedisTokenBucketRateLimiter) : 0 ≤ l.capacity := Nat.cast_nonneg _

theorem refillRate_nonneg (l : RedisTokenBucketRateLimiter) : 0 ≤ l.refillRatePerSecond :=
  div_nonneg (Nat.cast_nonneg _) l.window_pos.le

/-- The tokens are not overdrawn, and what was allowed and what is left is within the
capacity and the refill over the climb of the readings. -/
structure Funded (l : RedisTokenBucketRateLimiter) (s : KeyUsage) : Prop where
  tokens_nonneg : ∀ t ∈ s.bucket.tokens, 0 ≤ t
  fresh : s.readings = [] → s.allowed = 0
  spent : ∀ r rest, s.readings = r :: rest → ∃ t, s.bucket = ⟨some t, some r⟩ ∧
    (s.allowed : ℚ) + t ≤ l.capacity + l.refillRatePerSecond * climb s.readings

theorem Funded.effective_nonneg {l : RedisTokenBucketRateLimiter} {s : KeyUsage} (h : s.Funded l)
    (now : ℚ) : 0 ≤ (effective l s.bucket now).tokens := by
  unfold effective
  cases ht : s.bucket.tokens with
  | none => exact capacity_nonneg l
  | some t => exact h.tokens_nonneg t ht

theorem Funded.step {l : RedisTokenBucketRateLimiter} {s : KeyUsage} (h : s.Funded l)
    (c : AllowCall) : (step l s c).Funded l := by
  have hleft := draw_tokens_nonneg c.now 1 (capacity_nonneg l) (refillRate_nonneg l)
    (h.effective_nonneg c.now)
  have hsum := draw_add_tokens l.capacity l.refillRatePerSecond c.now 1 (effective l s.bucket c.now)
  unfold KeyUsage.step
  rw [allow_eq]
  dsimp only
  refine ⟨?_, fun hnil => absurd hnil (List.cons_ne_nil _ _), ?_⟩
  · intro t ht
    obtain rfl := Option.some.inj ht
    exact hleft
  · intro r rest hr
    obtain ⟨rfl, rfl⟩ := List.cons.inj hr
    refine ⟨_, rfl, ?_⟩
    -- the call and what it leaves are the refilled bucket
    have hcast : ((s.allowed + (draw l.capacity l.refillRatePerSecond c.now 1
          (effective l s.bucket c.now)).1.toNat : Nat) : ℚ) +
        (draw l.capacity l.refillRatePerSecond c.now 1 (effective l s.bucket c.now)).2.tokens =
          s.allowed + refill l.capacity l.refillRatePerSecond c.now (effective l s.bucket c.now) := by
      rw [← hsum]
      cases (draw l.capacity l.refillRatePerSecond c.now 1 (effective l s.bucket c.now)).1 with
      | true => simp [add_assoc]
      | false => simp
    rw [hcast]
    cases hreadings : s.readings with
    | nil =>
      rw [h.fresh hreadings, climb_singleton, Nat.cast_zero, zero_add, mul_zero, add_zero]
      exact refill_le_capacity _ _ _ _
    | cons r rest =>
      obtain ⟨t, hbucket, hle⟩ := h.spent r rest hreadings
      have hrefill := refill_le l.capacity l.refillRatePerSecond c.now (effective l s.bucket c.now)
      have heff : effective l s.bucket c.now = ⟨t, r⟩ := by
        unfold effective
        rw [hbucket]
        rfl
      rw [heff] at hrefill ⊢
      rw [hreadings] at hle
      rw [climb_cons_cons, mul_add]
      dsimp only at hrefill
      linarith

/-! ### Runs -/

/-- The use of a key, counted from a bucket on. -/
def counting (bucket : RedisBucket) : KeyUsage := { bucket }

theorem funded_absent (l : RedisTokenBucketRateLimiter) : (counting .absent).Funded l :=
  ⟨nofun, fun _ => rfl, fun _ _ h => nomatch h⟩

theorem Funded.counting {l : RedisTokenBucketRateLimiter} {s : KeyUsage} (h : s.Funded l) :
    (counting s.bucket).Funded l :=
  ⟨h.tokens_nonneg, fun _ => rfl, fun _ _ h => nomatch h⟩

/-- After any calls, the key can be counted from its bucket on. -/
theorem funded_after (l : RedisTokenBucketRateLimiter) (earlier : List AllowCall) :
    (counting (Run.exec (step l) (counting .absent) earlier).bucket).Funded l :=
  (Run.exec_invariant (I := Funded l) (fun _ c h => h.step c) (funded_absent l) earlier).counting

/-- **The budget of any clocks**: the calls allowed are at most the capacity and the refill
over the climb of their readings. -/
theorem allowed_le_climb (l : RedisTokenBucketRateLimiter) (earlier calls : List AllowCall) :
    let start := counting (Run.exec (step l) (counting .absent) earlier).bucket
    ((Run.exec (step l) start calls).allowed : ℚ) ≤ l.capacity +
      l.refillRatePerSecond * climb (Run.exec (step l) start calls).readings := by
  intro start
  have h : (Run.exec (step l) start calls).Funded l :=
    Run.exec_invariant (I := Funded l) (fun _ c h => h.step c) (funded_after l earlier) calls
  cases hr : (Run.exec (step l) start calls).readings with
  | nil =>
    rw [h.fresh hr, climb_nil, mul_zero, add_zero]
    exact capacity_nonneg l
  | cons r rest =>
    obtain ⟨t, hbucket, hle⟩ := h.spent r rest hr
    rw [hr] at hle
    have ht : 0 ≤ t := h.tokens_nonneg t (by rw [hbucket]; rfl)
    linarith

/-- Readings that were never behind the one before, newest first. -/
def Sorted (s : KeyUsage) : Prop := s.readings.Pairwise (· ≥ ·)

theorem Sorted.step {l : RedisTokenBucketRateLimiter} {s : KeyUsage} (h : s.Sorted) {c : AllowCall}
    (hc : s.InOrder c) : (step l s c).Sorted := by
  change (c.now :: s.readings).Pairwise (· ≥ ·)
  refine List.pairwise_cons.2 ⟨fun r hr => ?_, h⟩
  unfold Sorted at h
  cases hreadings : s.readings with
  | nil => exact absurd hr (by simp [hreadings])
  | cons newest rest =>
    rw [hreadings] at h hr
    have hnewest : newest ≤ c.now := hc newest (by rw [hreadings]; rfl)
    rcases List.mem_cons.1 hr with rfl | hr
    · exact hnewest
    · exact ((List.pairwise_cons.1 h).1 r hr).trans hnewest

theorem withinRange_of_funded {l : RedisTokenBucketRateLimiter} {s : KeyUsage} (h : s.Funded l)
    (hsorted : s.Sorted) : s.WithinRange l := by
  intro lo hi hlo hhi
  cases hr : s.readings with
  | nil => exact absurd hlo.1 (by simp [hr])
  | cons r rest =>
    obtain ⟨t, hbucket, hle⟩ := h.spent r rest hr
    have ht : 0 ≤ t := h.tokens_nonneg t (by rw [hbucket]; rfl)
    have hclimb : climb s.readings ≤ hi - lo :=
      climb_le_of_pairwise (by simp [hr]) hsorted (fun _ hx => hlo.2 hx) fun _ hx => hhi.2 hx
    have hrefill := mul_le_mul_of_nonneg_left hclimb (refillRate_nonneg l)
    linarith

/-- **The limit holds while no reading is behind the one before**, whichever replicas they
come from, from any bucket that earlier calls left. -/
theorem withinRange_of_inOrder (l : RedisTokenBucketRateLimiter) (earlier calls : List AllowCall)
    (h : Run.Guarded (step l) InOrder
      (counting (Run.exec (step l) (counting .absent) earlier).bucket) calls) :
    Run.Always (step l) (WithinRange l)
      (counting (Run.exec (step l) (counting .absent) earlier).bucket) calls :=
  h.always (I := fun s => s.Funded l ∧ s.Sorted)
    (fun _ c hs hc => ⟨hs.1.step c, hs.2.step hc⟩)
    (fun _ hs => withinRange_of_funded hs.1 hs.2)
    ⟨funded_after l earlier, List.Pairwise.nil⟩

/-- One call a minute. -/
def oneAMinute : RedisTokenBucketRateLimiter := { limit := 1, limit_pos := by decide }

theorem withinRange_twoReplicas :
    Run.Always (step oneAMinute) (WithinRange oneAMinute)
      (counting (Run.exec (step oneAMinute) (counting .absent) []).bucket)
      [⟨0, 0⟩, ⟨1, 60⟩, ⟨0, 60⟩] :=
  withinRange_of_inOrder oneAMinute [] _
    ⟨nofun, fun _ hr => by obtain rfl := Option.some.inj hr; norm_num,
      fun _ hr => by obtain rfl := Option.some.inj hr; norm_num, trivial⟩

/-- Two replicas whose clocks stand still a minute apart, in turn. -/
def aMinuteApart : List AllowCall := [⟨0, 0⟩, ⟨1, 60⟩, ⟨0, 0⟩, ⟨1, 60⟩]

/-- Every second call is a minute later than the stored time, again: three calls are
allowed, and the range of the readings pays for two. -/
theorem not_withinRange :
    aMinuteApart.Pairwise (fun a b => a.replica = b.replica → a.now ≤ b.now) ∧
      (Run.exec (step oneAMinute) (counting .absent) aMinuteApart).allowed = 3 ∧
      ¬ WithinRange oneAMinute (Run.exec (step oneAMinute) (counting .absent) aMinuteApart) := by
  have hallowed : (Run.exec (step oneAMinute) (counting .absent) aMinuteApart).allowed = 3 := by
    decide +kernel
  refine ⟨by decide +kernel, hallowed, fun h => ?_⟩
  have hreadings : (Run.exec (step oneAMinute) (counting .absent) aMinuteApart).readings =
      [60, 0, 60, 0] := rfl
  have hle := h 0 60 (by rw [hreadings]; exact ⟨by simp, by simp [lowerBounds]⟩)
    (by rw [hreadings]; exact ⟨by simp, by simp [upperBounds]⟩)
  rw [hallowed] at hle
  norm_num [oneAMinute, RedisTokenBucketRateLimiter.capacity,
    RedisTokenBucketRateLimiter.refillRatePerSecond] at hle

end KeyUsage
end ComputeIntelligence
