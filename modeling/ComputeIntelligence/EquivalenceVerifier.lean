import ComputeIntelligence.ExceptRules
import ComputeIntelligence.HreMethods
import ComputeIntelligence.IsoTime

/-! # Equivalence verification

`EquivalenceVerifier` (`equivalence/verifier.py`) with the verifications of
`models/carbon.py`.  A score is a float: of the operations on floats nothing is assumed, so
that NaN and rounding are covered, and a mean or a deviation that Python refuses raises.
The truncated hash of `_make_id` is a parameter.

Whatever the mode, a verification falls back to the fail-safe, raises, or is cached
(`verify_cases`).
-/
namespace ComputeIntelligence

/-- The operations on floats that the evaluations use. -/
class Scoring (F : Type) extends Add F, Sub F, Mul F, Div F where
  /-- A literal, or a quotient of integers. -/
  lit : ℚ → F
  /-- `x <= y`. -/
  le : F → F → Bool
  /-- `round(x, n)`. -/
  round : Nat → F → F
  /-- `statistics.mean`. -/
  mean : List F → Except PyExn F
  /-- `statistics.stdev`. -/
  stdev : List F → Except PyExn F
  /-- `n ** 0.5`. -/
  sqrt : Nat → F

namespace Double

/-- The double nearest to a square root: past the binary place 600, what remains of the root
only says that it is not exact. -/
def nearestSqrt (q : ℚ) : Double :=
  let scaled : ℚ := q * 4 ^ 600
  let root : Nat := Nat.sqrt scaled.floor.toNat
  let root : ℚ := if (root * root : ℚ) = scaled then root else root + 1 / 2
  nearest (root / 2 ^ 600)

instance : Scoring Double where
  lit := nearest
  le a b := a.value ≤ b.value
  round := ScoreArith.round
  mean xs :=
    if xs = [] then .error .valueError
    else .ok (nearest ((xs.map value).sum / xs.length))
  stdev xs :=
    if xs.length < 2 then .error .valueError
    else
      let mean := (xs.map value).sum / xs.length
      .ok (nearestSqrt ((xs.map fun x => (x.value - mean) ^ 2).sum / (xs.length - 1)))
  sqrt n := nearestSqrt n

end Double

/-- `EquivalenceConfig`. -/
structure EquivalenceConfig (F : Type) where
  minShadowSamples : Int := 100
  minJudgeSamples : Int := 200
  ttlDays : Int := 7
  qualityDelta : F

/-- `EquivalenceMode`. -/
inductive EquivalenceMode where
  | policy | empirical | judge | contractual
deriving DecidableEq

/-- `EquivalenceClass`, with what its decisions read. -/
structure EquivalenceClass where
  classId : String
  approvedModels : List String

/-- `is_approved`. -/
def EquivalenceClass.isApproved (c : EquivalenceClass) (model : String) : Bool :=
  model ∈ c.approvedModels

/-- `ShadowEvaluationResult`. -/
structure ShadowEvaluationResult (F : Type) where
  baselineScore : F
  candidateScore : F

/-- What is asked about: `source_model`, `candidate_model` and `class_id`. -/
structure Query where
  sourceModel : String
  candidateModel : String
  classId : String
deriving DecidableEq

/-- `EquivalenceVerification`. -/
structure EquivalenceVerification (F : Type) where
  verificationId : String
  sourceModel : String
  candidateModel : String
  equivalenceClassId : String
  mode : EquivalenceMode
  isEquivalent : Bool
  sampleCount : Nat := 0
  baselineScore : Option F := none
  candidateScore : Option F := none
  qualityDelta : Option F := none
  confidenceInterval : Option (F × F) := none
  expiresAt : Option Instant := none
  failSafeTriggered : Bool := false

/-- What a verification is about. -/
def EquivalenceVerification.query {F : Type} (v : EquivalenceVerification F) : Query :=
  ⟨v.sourceModel, v.candidateModel, v.equivalenceClassId⟩

/-- The three names joined. -/
def Query.joined (q : Query) : String := q.sourceModel ++ ":" ++ q.candidateModel ++ ":" ++ q.classId

/-- What a verification is based on, by its mode. -/
inductive Evidence (F : Type) where
  | policy
  | empirical (results : List (ShadowEvaluationResult F))
  | judge (scores : List (F × F))

/-- The mode of an evidence. -/
def Evidence.mode {F : Type} : Evidence F → EquivalenceMode
  | .policy => .policy
  | .empirical _ => .empirical
  | .judge _ => .judge

/-- The state of `EquivalenceVerifier`. -/
structure EquivalenceVerifier (F : Type) where
  equivalenceClasses : PyDict String EquivalenceClass := PyDict.empty
  verifications : PyDict String (EquivalenceVerification F) := PyDict.empty

variable {F : Type} [Scoring F]
open Scoring

/-- The validator of `confidence_interval`; comparing with NaN is false. -/
def EquivalenceVerification.check (v : EquivalenceVerification F) :
    Except PyExn (EquivalenceVerification F) :=
  match v.confidenceInterval with
  | none => .ok v
  | some (low, high) => if le high low && !le low high then .error .validationError else .ok v

namespace EquivalenceVerifier
variable (config : EquivalenceConfig F) (digest : String → String)

/-! ### The modes -/

/-- `datetime.now(UTC) + timedelta(days=ttl_days)`. -/
def expiry (now : Instant) : Except PyExn Instant :=
  let expiresAt := now + config.ttlDays * 86400000000
  if PyDateTime.InRange expiresAt then .ok expiresAt else .error .overflowError

/-- `_make_id`. -/
def makeId (q : Query) : String := digest q.joined

/-- `_fail_safe`. -/
def failSafe (q : Query) (mode : EquivalenceMode) : EquivalenceVerification F :=
  { verificationId := makeId digest q, sourceModel := q.sourceModel,
    candidateModel := q.candidateModel, equivalenceClassId := q.classId, mode,
    isEquivalent := false, failSafeTriggered := true }

/-- The verification of a policy. -/
def policyVerification (eqClass : EquivalenceClass) (q : Query) (now : Instant) :
    Except PyExn (EquivalenceVerification F) := do
  let isEquivalent := eqClass.isApproved q.sourceModel && eqClass.isApproved q.candidateModel
  let expiresAt ← expiry config now
  EquivalenceVerification.check
    { verificationId := makeId digest q, sourceModel := q.sourceModel,
      candidateModel := q.candidateModel, equivalenceClassId := q.classId, mode := .policy,
      isEquivalent, expiresAt := some expiresAt }

/-- The 95% confidence interval of the candidate. -/
def confidenceInterval (candidateScores : List F) (candidateMean : F) : Except PyExn (F × F) :=
  if 1 < candidateScores.length then do
    let deviation ← stdev candidateScores
    let stderr := deviation / sqrt candidateScores.length
    return (candidateMean - lit (196 / 100) * stderr, candidateMean + lit (196 / 100) * stderr)
  else return (candidateMean, candidateMean)

/-- The verification of a shadow evaluation. -/
def empiricalVerification (results : List (ShadowEvaluationResult F)) (q : Query)
    (now : Instant) : Except PyExn (EquivalenceVerification F) := do
  let candidateScores := results.map ShadowEvaluationResult.candidateScore
  let baselineMean ← Scoring.mean (results.map ShadowEvaluationResult.baselineScore)
  let candidateMean ← Scoring.mean candidateScores
  let (ciLower, ciUpper) ← confidenceInterval candidateScores candidateMean
  let threshold := baselineMean - config.qualityDelta
  let expiresAt ← expiry config now
  EquivalenceVerification.check
    { verificationId := makeId digest q, sourceModel := q.sourceModel,
      candidateModel := q.candidateModel, equivalenceClassId := q.classId, mode := .empirical,
      isEquivalent := le threshold ciLower, sampleCount := results.length,
      baselineScore := some (round 4 baselineMean), candidateScore := some (round 4 candidateMean),
      qualityDelta := some (round 4 (candidateMean - baselineMean)),
      confidenceInterval := some (round 4 ciLower, round 4 ciUpper), expiresAt := some expiresAt }

/-- The verification of a judge's scores. -/
def judgeVerification (scores : List (F × F)) (q : Query) (now : Instant) :
    Except PyExn (EquivalenceVerification F) := do
  let baselineMean ← Scoring.mean (scores.map Prod.fst)
  let candidateMean ← Scoring.mean (scores.map Prod.snd)
  let wins := scores.countP fun s => le s.1 s.2
  let winRate : F := lit (wins / scores.length : ℚ)
  let isEquivalent :=
    le (baselineMean - config.qualityDelta) candidateMean && le (lit (45 / 100)) winRate
  let expiresAt ← expiry config now
  EquivalenceVerification.check
    { verificationId := makeId digest q, sourceModel := q.sourceModel,
      candidateModel := q.candidateModel, equivalenceClassId := q.classId, mode := .judge,
      isEquivalent, sampleCount := scores.length,
      baselineScore := some (round 4 baselineMean), candidateScore := some (round 4 candidateMean),
      qualityDelta := some (round 4 (candidateMean - baselineMean)), expiresAt := some expiresAt }

/-! ### The operations -/

variable (s : EquivalenceVerifier F)

/-- `register_class`. -/
def registerClass (eqClass : EquivalenceClass) : EquivalenceVerifier F :=
  { s with equivalenceClasses := s.equivalenceClasses.set eqClass.classId eqClass }

/-- `_cache`. -/
def cache (v : EquivalenceVerification F) : EquivalenceVerifier F :=
  { s with verifications := s.verifications.set v.verificationId v }

/-- A verification is cached and returned, unless it raised. -/
def cached (answer : Except PyExn (EquivalenceVerification F)) :
    Except PyExn (EquivalenceVerification F) × EquivalenceVerifier F :=
  match answer with
  | .ok v => (.ok v, s.cache v)
  | .error e => (.error e, s)

/-- `verify_policy`. -/
def verifyPolicy (q : Query) (now : Instant) :
    Except PyExn (EquivalenceVerification F) × EquivalenceVerifier F :=
  match s.equivalenceClasses.get? q.classId with
  | none => (.ok (failSafe digest q .policy), s)
  | some eqClass => s.cached (policyVerification config digest eqClass q now)

/-- `verify_empirical`. -/
def verifyEmpirical (q : Query) (results : List (ShadowEvaluationResult F)) (now : Instant) :
    Except PyExn (EquivalenceVerification F) × EquivalenceVerifier F :=
  if results.length < config.minShadowSamples then (.ok (failSafe digest q .empirical), s)
  else s.cached (empiricalVerification config digest results q now)

/-- `verify_judge`. -/
def verifyJudge (q : Query) (scores : List (F × F)) (now : Instant) :
    Except PyExn (EquivalenceVerification F) × EquivalenceVerifier F :=
  if scores.length < config.minJudgeSamples then (.ok (failSafe digest q .judge), s)
  else s.cached (judgeVerification config digest scores q now)

/-- The verification of a mode. -/
def verify (q : Query) (now : Instant) :
    Evidence F → Except PyExn (EquivalenceVerification F) × EquivalenceVerifier F
  | .policy => s.verifyPolicy config digest q now
  | .empirical results => s.verifyEmpirical config digest q results now
  | .judge scores => s.verifyJudge config digest q scores now

/-- A verification has expired. -/
def expired (v : EquivalenceVerification F) (now : Instant) : Bool :=
  v.expiresAt.any fun expiresAt => expiresAt < now

/-- `get_cached_verification`. -/
def getCachedVerification (q : Query) (now : Instant) :
    Option (EquivalenceVerification F) × EquivalenceVerifier F :=
  match s.verifications.get? (makeId digest q) with
  | none => (none, s)
  | some v =>
      if expired v now then
        (none, { s with verifications := s.verifications.erase (makeId digest q) })
      else (some v, s)

/-- The verifier of the repository's tests: too few samples, equal scores, lower scores. -/
example :
    let config : EquivalenceConfig Double :=
      { minShadowSamples := 3, qualityDelta := Double.nearest (5 / 100) }
    let verdict (n : Nat) (candidate : ℚ) := (verifyEmpirical config id {} ⟨"a", "b", "c"⟩
      (List.replicate n ⟨Double.nearest (9 / 10), Double.nearest candidate⟩) 0).1.toOption.map
        fun v => (v.isEquivalent, v.failSafeTriggered)
    verdict 2 (9 / 10) = some (false, true) ∧ verdict 3 (88 / 100) = some (true, false) ∧
      verdict 3 (6 / 10) = some (false, false) := by decide +kernel

/-! ### What a verification does -/

/-- A verification of a query by one of the modes, to be cached under the query's id. -/
def Verified (q : Query) (v : EquivalenceVerification F) : Prop :=
  v.query = q ∧ v.verificationId = makeId digest q ∧ v.failSafeTriggered = false

variable {config digest s} {q : Query} {now : Instant}

theorem check_ensures {v : EquivalenceVerification F} (h : Verified digest q v) :
    v.check.Ensures (Verified digest q) := by
  unfold EquivalenceVerification.check
  split
  · exact Except.ensures_ok h
  · exact Except.ensures_ite Except.ensures_error (Except.ensures_ok h)

theorem policyVerification_ensures (eqClass : EquivalenceClass) :
    (policyVerification config digest eqClass q now).Ensures (Verified digest q) :=
  Except.ensures_bind fun _ => check_ensures ⟨rfl, rfl, rfl⟩

theorem empiricalVerification_ensures (results : List (ShadowEvaluationResult F)) :
    (empiricalVerification config digest results q now).Ensures (Verified digest q) :=
  Except.ensures_bind fun _ => Except.ensures_bind fun _ => Except.ensures_bind fun _ =>
    Except.ensures_bind fun _ => check_ensures ⟨rfl, rfl, rfl⟩

theorem judgeVerification_ensures (scores : List (F × F)) :
    (judgeVerification config digest scores q now).Ensures (Verified digest q) :=
  Except.ensures_bind fun _ => Except.ensures_bind fun _ => Except.ensures_bind fun _ =>
    check_ensures ⟨rfl, rfl, rfl⟩

omit [Scoring F] in
theorem cached_cases {answer : Except PyExn (EquivalenceVerification F)}
    (h : answer.Ensures (Verified digest q)) :
    (∃ e, s.cached answer = (.error e, s)) ∨
      ∃ v, s.cached answer = (.ok v, s.cache v) ∧ Verified digest q v := by
  cases answer with
  | error e => exact .inl ⟨e, rfl⟩
  | ok v => exact .inr ⟨v, rfl, h v rfl⟩

/-- **A verification** falls back to the fail-safe, raises, or is cached under the query's
id. -/
theorem verify_cases (evidence : Evidence F) :
    (∃ mode, s.verify config digest q now evidence = (.ok (failSafe digest q mode), s)) ∨
    (∃ e, s.verify config digest q now evidence = (.error e, s)) ∨
    ∃ v, s.verify config digest q now evidence = (.ok v, s.cache v) ∧ Verified digest q v := by
  cases evidence with
  | policy =>
    unfold verify verifyPolicy
    dsimp only
    cases s.equivalenceClasses.get? q.classId with
    | none => exact .inl ⟨_, rfl⟩
    | some eqClass => exact .inr (cached_cases (policyVerification_ensures eqClass))
  | empirical results =>
    unfold verify verifyEmpirical
    dsimp only
    split
    · exact .inl ⟨_, rfl⟩
    · exact .inr (cached_cases (empiricalVerification_ensures results))
  | judge scores =>
    unfold verify verifyJudge
    dsimp only
    split
    · exact .inl ⟨_, rfl⟩
    · exact .inr (cached_cases (judgeVerification_ensures scores))

end EquivalenceVerifier
end ComputeIntelligence
