import Mathlib.Data.List.Sort
import ComputeIntelligence.FirstMax
import ComputeIntelligence.PyDict
import ComputeIntelligence.PyValue
import ComputeIntelligence.SequenceMatcher

/-! # The reconciliation methods

The methods R1 to R6 of `hre/methods.py`.  A score is a number of a `ScoreArith`: an order
and operations of which nothing is assumed, so that what is proved holds of floats with all
their rounding; `Double` is the arithmetic of the finite doubles.

The text of a signal's evidence and its features go into the explanation only and are left
out.  R5 walks through a Python set: the order in which it does is a parameter.
-/
/-- `_to_utc`: a naive reading is one of UTC. -/
def PyDateTime.toUtc (t : PyDateTime) : Instant := t.wall - t.utcoffset.getD 0

namespace ComputeIntelligence

/-- The numbers that scores are. -/
class ScoreArith (F : Type) extends LinearOrder F, Add F, Sub F, Mul F, Div F where
  /-- A literal, or a quotient of integers. -/
  lit : ℚ → F
  /-- `round(x, n)`. -/
  round : Nat → F → F

/-- A finite double. -/
structure Double where
  value : ℚ
deriving DecidableEq

namespace Double

/-- The nearest double; the scores of the engine never overflow. -/
def nearest (q : ℚ) : Double := match PyFloat.ofRat q with
  | .finite m => ⟨m⟩
  | _ => ⟨q⟩

instance : LinearOrder Double :=
  LinearOrder.lift' Double.value fun a b h => by cases a; cases b; exact congrArg Double.mk h

instance : ScoreArith Double where
  add a b := nearest (a.value + b.value)
  sub a b := nearest (a.value - b.value)
  mul a b := nearest (a.value * b.value)
  div a b := nearest (a.value / b.value)
  lit := nearest
  round n a :=
    let m : ℚ := PyFloat.roundHalfEven (|a.value| * 10 ^ n) / 10 ^ n
    nearest (if 0 ≤ a.value then m else -m)

end Double

/-- `ReconciliationSignal`, without the evidence. -/
structure Signal (F : Type) where
  method : String
  targetEntity : String
  confidence : F

/-- An order in which a Python set is walked through. -/
structure SetOrder where
  order : List String → List String
  perm : ∀ l, (order l).Perm l

variable {F : Type} [ScoreArith F]
open FirstMax ScoreArith

/-- The decimal literal `n / 10 ^ k`. -/
abbrev dec (n : Int) (k : Nat) : F := lit (n / 10 ^ k : ℚ)

/-- `sum(xs)`. -/
def total (xs : List F) : F := xs.foldl (· + ·) (lit 0)

/-- `R1DirectMatch.resolve`; `lower` is Unicode's `str.lower`. -/
def r1Resolve (lower : String → String) (entityId : String)
    (identityMappings : PyDict String String) : Option (Signal F) :=
  match identityMappings.get? entityId with
  | some target => some ⟨"R1", target, lit 1⟩
  | none =>
      let normalized := PyText.strip (lower entityId)
      (identityMappings.items.find? fun p => PyText.strip (lower p.1) = normalized).map
        fun p => ⟨"R1", p.2, dec 98 2⟩

/-! ### R2 -/

/-- The closest event so far, and the number of events in the window. -/
structure Closest (F : Type) where
  best : Option (F × String)
  competing : Nat

/-- One candidate of R2. -/
def closer (sourceTime : Instant) (maxWindow : F) (c : Closest F)
    (candidate : PyDateTime × String × String) : Closest F :=
  let delta : F := lit (|sourceTime - candidate.1.toUtc| / 1000000 : ℚ)
  if delta ≤ maxWindow then
    { best := match c.best with
        | none => some (delta, candidate.2.1)
        | some (d, target) => if delta < d then some (delta, candidate.2.1) else some (d, target)
      competing := c.competing + 1 }
  else c

/-- `R2TemporalCorrelation.resolve`, with its window of 300 seconds. -/
def r2Resolve (eventTime : Instant) (candidates : List (PyDateTime × String × String)) :
    Option (Signal F) :=
  let maxWindow : F := lit 300
  let closest := candidates.foldl (closer eventTime maxWindow) ⟨none, 0⟩
  closest.best.map fun (delta, target) =>
    let base := max (dec 4 1) (lit 1 - delta / maxWindow)
    let base :=
      if 1 < closest.competing then
        max (dec 3 1) (base - dec 15 2 * lit (closest.competing - 1 : ℚ))
      else base
    ⟨"R2", target, round 3 base⟩

/-! ### R3 -/

/-- `_normalize`: what is not a lower-case letter or a digit of ASCII becomes a blank. -/
def normalizeName (name : String) : String :=
  let keep (c : Char) : Char :=
    if ('a' ≤ c ∧ c ≤ 'z') ∨ ('0' ≤ c ∧ c ≤ '9') then c else ' '
  PyText.strip (String.ofList ((PyText.lower name).toList.map keep))

/-- `_token_overlap`. -/
def tokenOverlap (a b : String) : F :=
  let tokensA := (PyText.words a).dedup
  let tokensB := (PyText.words b).dedup
  if tokensA = [] ∨ tokensB = [] then lit 0
  else lit ((tokensA.filter (· ∈ tokensB)).length / max tokensA.length tokensB.length : ℚ)

/-- The similarity of a normalized name to a pattern. -/
def similarity (normalized pattern : String) : F :=
  let normPattern := normalizeName pattern
  let ratio : F := lit (SequenceMatcher.ratio normalized.toList normPattern.toList)
  let ratio :=
    if PyText.contains normPattern normalized || PyText.contains normalized normPattern then
      min (lit 1) (ratio + dec 15 2)
    else ratio
  min (lit 1) (ratio + tokenOverlap normalized normPattern * dec 1 1)

/-- The patterns, each with its team, in the order of the loops. -/
def teamPatterns (patterns : List (String × List String)) : List (String × String) :=
  patterns.flatMap fun (team, patterns) => patterns.map fun pattern => (team, pattern)

/-- `R3NamingConvention.resolve`, with its threshold of 0.4. -/
def r3Resolve (entityName : String) (patterns : PyDict String (List String)) :
    Option (Signal F) :=
  let normalized := normalizeName entityName
  match scan (fun p => similarity (F := F) normalized p.2) (lit 0) (teamPatterns patterns.items) with
  | (_, none) => none
  | (bestScore, some (team, _)) =>
      if bestScore < dec 4 1 then none
      else some ⟨"R3", team, round 3 (min (dec 9 1) (bestScore * dec 9 1))⟩

/-! ### R4 -/

/-- `R4HistoricalPattern.resolve`, with its minimum of three entries. -/
def r4Resolve (history : List (String × F)) : Option (Signal F) :=
  if history.length < 3 then none
  else
    let scores : PyDict String F := history.foldl
      (fun scores (team, conf) => scores.set team (scores.getD team (lit 0) + conf)) PyDict.empty
    (firstMax Prod.snd scores.items).map fun (bestTeam, bestWeight) =>
      let totalWeight := total (scores.items.map Prod.snd)
      let dominance := if lit 0 < totalWeight then bestWeight / totalWeight else lit 0
      let count := history.countP fun p => p.1 = bestTeam
      let countFactor := min (lit 1) (lit (count / 10 : ℚ))
      ⟨"R4", bestTeam, round 3 (min (dec 85 2) (dominance * dec 7 1 + countFactor * dec 2 1))⟩

/-! ### R5 -/

/-- `scores[owner] = scores.get(owner, 0.0) + x`. -/
def addScore (x : F) (scores : PyDict String F) (owner : String) : PyDict String F :=
  scores.set owner (scores.getD owner (lit 0) + x)

/-- Thirty days. -/
def lookback : Instant := 30 * 86400 * 1000000

/-- `sorted(deployment_owners, key=lambda x: x[1], reverse=True)`: naive and aware
datetimes do not compare. -/
def sortedDeployments (owners : List (String × PyDateTime)) :
    Except PyExn (List (String × PyDateTime)) :=
  if owners.any (fun p => p.2.utcoffset.isNone) && owners.any (fun p => p.2.utcoffset.isSome) then
    .error .typeError
  else .ok (owners.insertionSort fun a b => b.2.toUtc ≤ a.2.toUtc)

/-- The scores of the most recent deployer and of the code owners. -/
def ownerScores (now : Instant) (deployments : List (String × PyDateTime))
    (codeOwners : List String) : PyDict String F :=
  let scores := match deployments.find? fun p => now - p.2.toUtc ≤ lookback with
    | some (owner, _) => addScore (dec 35 2) PyDict.empty owner
    | none => PyDict.empty
  codeOwners.foldl (addScore (dec 25 2)) scores

/-- `recent_set`. -/
def recentSet (now : Instant) (recentUsers : List (String × PyDateTime)) : List String :=
  ((recentUsers.filter fun p => now - p.2.toUtc ≤ lookback).map Prod.fst).dedup

/-- What each recent user adds. -/
def userShare (recent : List String) : F := dec 15 2 / lit (max 1 recent.length : ℚ)

/-- `R5ServiceAccountResolution.resolve` with a reference time. -/
def r5Resolve (setOrder : SetOrder) (deploymentOwners : List (String × PyDateTime))
    (codeOwners : List String) (recentUsers : List (String × PyDateTime)) (now : Instant) :
    Except PyExn (Option (Signal F)) := do
  let deployments ← sortedDeployments deploymentOwners
  let recent := recentSet now recentUsers
  let scores := (setOrder.order recent).foldl (addScore (userShare (F := F) recent))
    (ownerScores now deployments codeOwners)
  return (firstMax Prod.snd scores.items).map fun (owner, score) =>
    ⟨"R5", owner, round 3 (min (dec 75 2) score)⟩

/-! ### R6 -/

/-- A signal of R6, with its `allocation_weight`. -/
structure Allocation (F : Type) where
  team : String
  weight : F
  confidence : F

/-- `R6ProportionalAllocation.resolve`. -/
def r6Resolve (knownUsers : PyDict String F) : List (Allocation F) :=
  let positiveUsers := knownUsers.items.filter fun p => lit 0 < p.2
  let totalWeight := total (positiveUsers.map Prod.snd)
  if totalWeight ≤ lit 0 then []
  else positiveUsers.map fun (team, weight) =>
    let proportion := weight / totalWeight
    { team, weight := round 3 proportion,
      confidence := round 3 (min (dec 65 2) (dec 3 1 + proportion * dec 4 1)) }

end ComputeIntelligence
