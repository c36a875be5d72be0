import Mathlib.Logic.Equiv.Basic
import ComputeIntelligence.EquivalenceVerifier

/-! # What the equivalence cache vouches for

The cache has one slot for each id, and the id joins three names with colons.  Two slips
follow.  Names that contain a colon can be joined to the same text in two ways, so a slot
can answer a query that it is not about.  And a fail-safe is returned but not cached, so an
older positive verification stays.

There are no others: after any history of calls, with any clocks, the cache vouches only
for what was verified exactly when no cached verification has a name with a colon, and the
latest verification of no positive one fell back to the fail-safe (`vouches_iff`).
-/
namespace ComputeIntelligence
namespace EquivalenceVerifier
variable {F : Type} [Scoring F]

/-- A call of the verifier, with the clock it reads. -/
inductive Call (F : Type) where
  | registerClass (eqClass : EquivalenceClass)
  | verify (q : Query) (evidence : Evidence F) (now : Instant)
  | getCachedVerification (q : Query) (now : Instant)

variable (config : EquivalenceConfig F) (digest : String → String)

/-- The state after a call. -/
def step (s : EquivalenceVerifier F) : Call F → EquivalenceVerifier F
  | .registerClass eqClass => s.registerClass eqClass
  | .verify q evidence now => (s.verify config digest q now evidence).2
  | .getCachedVerification q now => (s.getCachedVerification digest q now).2

/-- The state after a history, newest call first. -/
def after : List (Call F) → EquivalenceVerifier F
  | [] => {}
  | call :: earlier => step config digest (after earlier) call

/-- What the latest verification of a query returned, or raised. -/
def lastVerify (q : Query) : List (Call F) → Option (Except PyExn (EquivalenceVerification F))
  | [] => none
  | .verify q' evidence now :: earlier =>
      if q' = q then some ((after config digest earlier).verify config digest q' now evidence).1
      else lastVerify q earlier
  | _ :: earlier => lastVerify q earlier

/-- The latest verification of a query returned that it is not equivalent. -/
def Refused (history : List (Call F)) (q : Query) : Prop :=
  ∃ v, lastVerify config digest q history = some (.ok v) ∧ v.isEquivalent = false

/-- The latest verification of a query fell back to the fail-safe. -/
def FellBack (history : List (Call F)) (q : Query) : Prop :=
  ∃ v, lastVerify config digest q history = some (.ok v) ∧ v.failSafeTriggered = true

/-- The cache vouches only for what was verified: an answer has not expired, is about the
query, and is not positive where the latest verification of the query was refused. -/
def Vouches (history : List (Call F)) : Prop :=
  ∀ q now v, ((after config digest history).getCachedVerification digest q now).1 = some v →
    expired v now = false ∧ v.query = q ∧
      (v.isEquivalent = true → ¬ Refused config digest history q)

/-- No name has a colon. -/
def Plain (q : Query) : Prop :=
  ':' ∉ q.sourceModel.toList ∧ ':' ∉ q.candidateModel.toList ∧ ':' ∉ q.classId.toList

/-- No cached verification has a name with a colon, and no positive one is of a query whose
latest verification fell back to the fail-safe. -/
def Sound (history : List (Call F)) : Prop :=
  ∀ id v, (after config digest history).verifications.get? id = some v →
    Plain v.query ∧ (v.isEquivalent = true → ¬ FellBack config digest history v.query)

variable {config digest}

/-! ### Names joined with colons -/

theorem joined_toList (q : Query) : q.joined.toList =
    q.sourceModel.toList ++ ':' :: (q.candidateModel.toList ++ ':' :: q.classId.toList) := by
  unfold Query.joined
  simp [String.toList_append]

/-- Names without a colon are joined in one way only. -/
theorem eq_of_joined_eq {q q' : Query} (hq : Plain q) (h : q.joined = q'.joined) : q = q' := by
  obtain ⟨hsource, hcandidate, hclass⟩ := hq
  have hlist := congrArg String.toList h
  rw [joined_toList, joined_toList] at hlist
  -- both joins have two colons, so there is none in the names of the other query
  have hcount := congrArg (List.count ':') hlist
  simp only [List.count_append, List.count_cons_self, List.count_eq_zero.2 hsource,
    List.count_eq_zero.2 hcandidate, List.count_eq_zero.2 hclass] at hcount
  have hsource' : ':' ∉ q'.sourceModel.toList := List.count_eq_zero.1 (by omega)
  have hcandidate' : ':' ∉ q'.candidateModel.toList := List.count_eq_zero.1 (by omega)
  obtain ⟨hfirst, hrest⟩ := PyText.append_sep_inj hsource hsource' hlist
  obtain ⟨hsecond, hthird⟩ := PyText.append_sep_inj hcandidate hcandidate' hrest
  cases q
  cases q'
  rw [Query.mk.injEq]
  exact ⟨String.toList_inj.1 hfirst, String.toList_inj.1 hsecond, String.toList_inj.1 hthird⟩

/-- Names with a colon are joined in another way too. -/
theorem exists_joined_eq {q : Query} (hq : ¬ Plain q) :
    ∃ q' : Query, q' ≠ q ∧ q'.joined = q.joined := by
  by_cases hsource : ':' ∈ q.sourceModel.toList
  · obtain ⟨x, y, hxy⟩ := List.append_of_mem hsource
    refine ⟨⟨.ofList x, .ofList y ++ ":" ++ q.candidateModel, q.classId⟩, fun heq => ?_, ?_⟩
    · have hlength := congrArg (fun q => q.sourceModel.toList.length) heq
      simp [hxy] at hlength
    · refine String.toList_inj.1 ?_
      simp [joined_toList, hxy]
  · by_cases hcandidate : ':' ∈ q.candidateModel.toList
    · obtain ⟨x, y, hxy⟩ := List.append_of_mem hcandidate
      refine ⟨⟨q.sourceModel ++ ":" ++ .ofList x, .ofList y, q.classId⟩, fun heq => ?_, ?_⟩
      · have hlength := congrArg (fun q => q.sourceModel.toList.length) heq
        simp at hlength
      · refine String.toList_inj.1 ?_
        simp [joined_toList, hxy]
    · have hclass : ':' ∈ q.classId.toList := by
        by_contra hclass
        exact hq ⟨hsource, hcandidate, hclass⟩
      obtain ⟨x, y, hxy⟩ := List.append_of_mem hclass
      refine ⟨⟨q.sourceModel, q.candidateModel ++ ":" ++ .ofList x, .ofList y⟩, fun heq => ?_, ?_⟩
      · have hlength := congrArg (fun q => q.candidateModel.toList.length) heq
        simp at hlength
      · refine String.toList_inj.1 ?_
        simp [joined_toList, hxy]

/-! ### The cache along a history -/

/-- A fail-safe says that the models are not equivalent. -/
theorem not_equivalent_of_fellBack {history : List (Call F)} {q : Query}
    {v : EquivalenceVerification F} (hlast : lastVerify config digest q history = some (.ok v))
    (h : v.failSafeTriggered = true) : v.isEquivalent = false := by
  induction history with
  | nil => cases hlast
  | cons call earlier ih =>
    cases call with
    | registerClass eqClass => exact ih hlast
    | getCachedVerification q' now => exact ih hlast
    | verify q' evidence now =>
      unfold lastVerify at hlast
      split at hlast
      · rcases @verify_cases F _ config digest (after config digest earlier) q' now evidence with
          ⟨mode, hverify⟩ | ⟨e, hverify⟩ | ⟨w, hverify, -, -, hnot⟩
        · rw [hverify] at hlast
          obtain rfl := Except.ok.inj (Option.some.inj hlast)
          rfl
        · rw [hverify] at hlast
          cases Option.some.inj hlast
        · rw [hverify] at hlast
          obtain rfl := Except.ok.inj (Option.some.inj hlast)
          rw [hnot] at h
          cases h
      · exact ih hlast

theorem exists_answer_ite {α : Type} {p : Prop} [Decidable p] {r : α} {o : Option α} {P : α → Prop}
    (hr : P r) (ho : ∃ a, o = some a ∧ P a) : ∃ a, (if p then some r else o) = some a ∧ P a := by
  by_cases hp : p
  · rw [if_pos hp]
    exact ⟨r, rfl, hr⟩
  · rw [if_neg hp]
    exact ho

/-- A cached verification is under its own id, and it is what the latest verification of its
query returned, unless that raised or fell back to the fail-safe. -/
theorem cached_after {history : List (Call F)} {id : String} {v : EquivalenceVerification F}
    (h : (after config digest history).verifications.get? id = some v) :
    id = makeId digest v.query ∧ ∃ answer, lastVerify config digest v.query history = some answer ∧
      ∀ v', answer = .ok v' → v' = v ∨ v'.failSafeTriggered = true := by
  induction history with
  | nil => cases h
  | cons call earlier ih =>
    cases call with
    | registerClass eqClass => exact ih h
    | getCachedVerification q now =>
      refine ih ?_
      change PyDict.get? (getCachedVerification digest _ q now).2.verifications id = some v at h
      unfold getCachedVerification at h
      split at h
      · exact h
      · split at h
        · dsimp only at h
          rw [PyDict.get?_erase] at h
          split at h
          · cases h
          · exact h
        · exact h
    | verify q evidence now =>
      change PyDict.get? (verify config digest (after config digest earlier) q now
        evidence).2.verifications id = some v at h
      unfold lastVerify
      rcases @verify_cases F _ config digest (after config digest earlier) q now evidence with
        ⟨mode, hverify⟩ | ⟨e, hverify⟩ | ⟨w, hverify, rfl, hid, -⟩
      · -- a fail-safe is returned and not cached
        rw [hverify] at h ⊢
        obtain ⟨hown, hanswer⟩ := ih h
        exact ⟨hown, exists_answer_ite (fun v' hv' => .inr (Except.ok.inj hv' ▸ rfl)) hanswer⟩
      · rw [hverify] at h ⊢
        obtain ⟨hown, hanswer⟩ := ih h
        exact ⟨hown, exists_answer_ite (fun v' hv' => by cases hv') hanswer⟩
      · rw [hverify] at h ⊢
        unfold cache at h
        dsimp only at h
        rw [PyDict.get?_set] at h
        by_cases hslot : id = w.verificationId
        · rw [if_pos hslot] at h
          obtain rfl := Option.some.inj h
          rw [if_pos rfl]
          exact ⟨hslot.trans hid, _, rfl, fun v' hv' => .inl (Except.ok.inj hv').symm⟩
        · rw [if_neg hslot] at h
          obtain ⟨hown, answer, hlast, hanswer⟩ := ih h
          refine ⟨hown, ?_⟩
          -- of another slot, so of another query
          have hq : w.query ≠ v.query := fun heq => hslot (by rw [hown, hid, heq])
          rw [if_neg hq]
          exact ⟨answer, hlast, hanswer⟩

omit [Scoring F] in
/-- A cached verification answers every query with its id, before it expires. -/
theorem getCachedVerification_eq_some {s : EquivalenceVerifier F} {q : Query} {now : Instant}
    {v : EquivalenceVerification F} : (s.getCachedVerification digest q now).1 = some v ↔
      s.verifications.get? (makeId digest q) = some v ∧ expired v now = false := by
  unfold getCachedVerification
  cases s.verifications.get? (makeId digest q) with
  | none => simp
  | some w =>
    dsimp only
    split
    · rename_i hexpired
      refine ⟨(fun h => nomatch h), fun h => ?_⟩
      obtain rfl := Option.some.inj h.1
      rw [hexpired] at h
      cases h.2
    · rename_i hlive
      refine ⟨fun h => ⟨h, ?_⟩, And.left⟩
      obtain rfl := Option.some.inj h
      exact Bool.eq_false_iff.2 hlive

omit [Scoring F] in
theorem exists_not_expired (v : EquivalenceVerification F) : ∃ now, expired v now = false := by
  unfold expired
  cases v.expiresAt with
  | none => exact ⟨0, rfl⟩
  | some expiresAt => exact ⟨expiresAt, by simp⟩

/-- **What the cache vouches for.**  After any history, the cache vouches only for what was
verified exactly when it is sound. -/
theorem vouches_iff (hdigest : Function.Injective digest) (history : List (Call F)) :
    Vouches config digest history ↔ Sound config digest history := by
  constructor
  · intro hvouches id v hget
    obtain ⟨rfl, -⟩ := cached_after hget
    obtain ⟨now, hlive⟩ := exists_not_expired v
    constructor
    · by_contra hnot
      obtain ⟨q, hne, hjoined⟩ := exists_joined_eq hnot
      have hsame : makeId digest q = makeId digest v.query := congrArg digest hjoined
      rw [← hsame] at hget
      have hanswer := hvouches q now v (getCachedVerification_eq_some.2 ⟨hget, hlive⟩)
      exact hne hanswer.2.1.symm
    · rintro hpositive ⟨v', hlast, hfell⟩
      have hanswer := hvouches v.query now v (getCachedVerification_eq_some.2 ⟨hget, hlive⟩)
      exact hanswer.2.2 hpositive ⟨v', hlast, not_equivalent_of_fellBack hlast hfell⟩
  · intro hsound q now v hanswer
    obtain ⟨hget, hlive⟩ := getCachedVerification_eq_some.1 hanswer
    obtain ⟨hplain, hpositive⟩ := hsound _ v hget
    obtain ⟨hid, answer, hlast, hcached⟩ := cached_after hget
    have hquery : v.query = q := eq_of_joined_eq hplain (hdigest hid).symm
    refine ⟨hlive, hquery, ?_⟩
    rintro hequivalent ⟨v', hlast', hrefused⟩
    rw [← hquery] at hlast'
    have hok : answer = .ok v' := Option.some.inj (hlast.symm.trans hlast')
    rcases hcached v' hok with rfl | hfell
    · rw [hequivalent] at hrefused
      cases hrefused
    · exact hpositive hequivalent ⟨v', hlast', hfell⟩

/-- The default settings. -/
def defaultConfig : EquivalenceConfig Double := { qualityDelta := Double.nearest (5 / 100) }

/-- Two models of one class. -/
def chat : Query := ⟨"gpt-4o", "gpt-4o-mini", "cs-chat"⟩

/-- The two are verified by policy. -/
def policyHistory : List (Call Double) :=
  [.verify chat .policy 0, .registerClass ⟨"cs-chat", ["gpt-4o", "gpt-4o-mini"]⟩]

/-- An injection that agrees with the truncated hash on the names of `chat`. -/
def chatDigest : Equiv.Perm String := Equiv.swap "gpt-4o:gpt-4o-mini:cs-chat" "a9f0274790ca2be8"

theorem vouches_policyHistory : Vouches defaultConfig chatDigest policyHistory := by
  refine (vouches_iff chatDigest.injective policyHistory).2 fun id v hget => ?_
  obtain ⟨-, answer, hlast, -⟩ := cached_after hget
  have hquery : chat = v.query := by
    by_contra hne
    unfold policyHistory lastVerify at hlast
    rw [if_neg hne] at hlast
    cases hlast
  rw [← hquery]
  refine ⟨by unfold Plain; decide +kernel, ?_⟩
  rintro - ⟨v', hlast', hfell⟩
  have hverified : (lastVerify defaultConfig chatDigest chat policyHistory).map
      (fun answer => answer.toOption.map EquivalenceVerification.failSafeTriggered) =
      some (some false) := by decide +kernel
  rw [hlast'] at hverified
  have hnot := Option.some.inj (Option.some.inj hverified)
  rw [hfell] at hnot
  cases hnot

/-- Names with a colon, verified by policy. -/
def colonHistory : List (Call Double) :=
  [.verify ⟨"claude-v2:1", "gpt-4o", "cs-chat"⟩ .policy 0,
    .registerClass ⟨"cs-chat", ["claude-v2:1", "gpt-4o"]⟩]

/-- A query with other names answers; and a positive verification answers after an
evaluation with too few samples. -/
theorem not_vouches : ¬ Vouches defaultConfig id colonHistory ∧
    ¬ Vouches defaultConfig id (.verify chat (.empirical []) 0 :: policyHistory) := by
  constructor
  · intro h
    have hfound : ((after defaultConfig id colonHistory).getCachedVerification id
        ⟨"claude-v2", "1:gpt-4o", "cs-chat"⟩ 0).1.map EquivalenceVerification.query =
        some ⟨"claude-v2:1", "gpt-4o", "cs-chat"⟩ := by decide +kernel
    obtain ⟨v, hv, hquery⟩ := Option.map_eq_some_iff.1 hfound
    have hsame := (h _ _ v hv).2.1
    rw [hquery] at hsame
    exact absurd hsame (by decide)
  · intro h
    have hfound : ((after defaultConfig id (.verify chat (.empirical []) 0 ::
        policyHistory)).getCachedVerification id chat 0).1.map
        EquivalenceVerification.isEquivalent = some true := by decide +kernel
    obtain ⟨v, hv, hpositive⟩ := Option.map_eq_some_iff.1 hfound
    refine (h _ _ v hv).2.2 hpositive ⟨failSafe id chat .empirical, ?_, rfl⟩
    unfold lastVerify
    rw [if_pos rfl]
    rfl

end EquivalenceVerifier
end ComputeIntelligence
