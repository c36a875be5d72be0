import ComputeIntelligence.Combination

/-! # Learned correlations

The learned map is merged over the configured one key by key, the key of a pair is looked up
in both orientations, and the two lookups are joined by a test of truth.  So a configured
key in the order of the signals wins over a learned one in the other order, and a discount
of 0 is passed over.

`inForce` is the value that is meant: the learned one, in either orientation, and the
configured one where nothing is learned.
-/
namespace ComputeIntelligence
variable {F : Type}
open ScoreArith

/-- Correlations, by pairs of methods. -/
abbrev Correlations (F : Type) := PyDict (String × String) F

namespace Correlations

/-- The value of a pair, in either orientation. -/
def known (m : Correlations F) (a b : String) : Option F := (m.get? (a, b)).or (m.get? (b, a))

/-- No pair of methods is there in both orientations. -/
def OneOrientation (m : Correlations F) : Prop :=
  ∀ a b, a ≠ b → m.get? (a, b) ≠ none → m.get? (b, a) = none

/-- The same values, in other orientations perhaps. -/
structure Reoriented (m m' : Correlations F) : Prop where
  oneOrientation : OneOrientation m'
  known_eq : ∀ a b, m'.known a b = m.known a b

/-- The pair `a`, `b` turned to that orientation. -/
def orient (m : Correlations F) (a b : String) : Correlations F :=
  match m.known a b with
  | none => m
  | some x => (m.erase (b, a)).set (a, b) x

/-- The value that is meant for a pair. -/
def inForce (config : CombinationConfig F) (learned : Correlations F) (a b : String) : Option F :=
  (known learned a b).or (known config.correlatedPairs a b)

variable {m m' : Correlations F} {a b : String}

theorem oneOrientation_of_keys
    (h : ∀ k ∈ m.keys, k.1 ≠ k.2 → (k.2, k.1) ∉ m.keys) : OneOrientation m := by
  intro a b hab hne
  apply PyDict.get?_eq_none_iff.2
  refine h (a, b) ?_ hab
  by_contra hnot
  exact hne (PyDict.get?_eq_none_iff.2 hnot)

theorem OneOrientation.known_comm (h : OneOrientation m) (a b : String) :
    m.known b a = m.known a b := by
  unfold known
  by_cases hab : a = b
  · rw [hab]
  · rcases h1 : m.get? (a, b) with _ | x
    · rw [Option.or_none, Option.none_or]
    · rw [h a b hab (by rw [h1]; exact Option.some_ne_none x), Option.or_none, Option.none_or]

/-- Turning a pair puts its value where it was turned to. -/
theorem get?_orient (hab : a ≠ b) :
    (m.orient a b).get? (a, b) = m.known a b ∧ (m.orient a b).get? (b, a) = none := by
  have hkey : (b, a) ≠ (a, b) := fun h => hab (Prod.mk.inj h).2
  unfold orient
  rcases hk : m.known a b with _ | x
  · obtain ⟨h1, h2⟩ := Option.or_eq_none_iff.1 hk
    exact ⟨h1, h2⟩
  · dsimp only
    rw [PyDict.get?_set, if_pos rfl, PyDict.get?_set, if_neg hkey, PyDict.get?_erase, if_pos rfl]
    exact ⟨rfl, rfl⟩

/-- Turning a pair changes no other. -/
theorem get?_orient_of_ne {k : String × String} (h1 : k ≠ (a, b)) (h2 : k ≠ (b, a)) :
    (m.orient a b).get? k = m.get? k := by
  unfold orient
  rcases m.known a b with _ | x
  · rfl
  · dsimp only
    rw [PyDict.get?_set, if_neg h1, PyDict.get?_erase, if_neg h2]

theorem swap_ne {c d : String} (h : (c, d) ≠ (a, b)) : (d, c) ≠ (b, a) := by
  intro he
  obtain ⟨rfl, rfl⟩ := Prod.mk.inj he
  exact h rfl

theorem OneOrientation.reoriented_orient (h : OneOrientation m) (hab : a ≠ b) :
    Reoriented m (m.orient a b) := by
  obtain ⟨hput, hclear⟩ := get?_orient (m := m) hab
  constructor
  · intro c d hcd hne
    by_cases h1 : (c, d) = (a, b)
    · obtain ⟨rfl, rfl⟩ := Prod.mk.inj h1
      exact hclear
    · by_cases h2 : (c, d) = (b, a)
      · obtain ⟨rfl, rfl⟩ := Prod.mk.inj h2
        exact absurd hclear hne
      · rw [get?_orient_of_ne h1 h2] at hne
        rw [get?_orient_of_ne (swap_ne h2) (swap_ne h1)]
        exact h c d hcd hne
  · intro c d
    by_cases h1 : (c, d) = (a, b)
    · obtain ⟨rfl, rfl⟩ := Prod.mk.inj h1
      rw [known, hput, hclear, Option.or_none]
    · by_cases h2 : (c, d) = (b, a)
      · obtain ⟨rfl, rfl⟩ := Prod.mk.inj h2
        rw [known, hput, hclear, Option.none_or, h.known_comm]
      · rw [known, get?_orient_of_ne h1 h2, get?_orient_of_ne (swap_ne h2) (swap_ne h1)]
        rfl

theorem OneOrientation.reoriented (h : OneOrientation m) : Reoriented m m := ⟨h, fun _ _ => rfl⟩

variable [ScoreArith F] {config : CombinationConfig F} {learned : Correlations F}

/-- The discount found for a pair that is turned against the order of the signals, learned and
configured alike. -/
theorem discountOf_orient_ba (hab : a ≠ b) :
    discountOf (mergedCorrelations { config with
      correlatedPairs := orient config.correlatedPairs b a } (orient learned b a)) a b =
        (learned.known b a).or (known config.correlatedPairs b a) := by
  obtain ⟨hl, hl'⟩ := get?_orient (m := learned) (Ne.symm hab)
  obtain ⟨hc, hc'⟩ := get?_orient (m := config.correlatedPairs) (Ne.symm hab)
  unfold discountOf
  simp only [get?_mergedCorrelations, hl, hl', hc, hc', Option.none_or]

/-- The discount found for a pair that is turned to the order of the signals: a value of 0 is
passed over. -/
theorem discountOf_orient_ab (hab : a ≠ b) :
    discountOf (mergedCorrelations { config with
      correlatedPairs := orient config.correlatedPairs a b } (orient learned a b)) a b =
        ((learned.known a b).or (known config.correlatedPairs a b)).filter (· ≠ lit 0) := by
  obtain ⟨hl, hl'⟩ := get?_orient (m := learned) hab
  obtain ⟨hc, hc'⟩ := get?_orient (m := config.correlatedPairs) hab
  unfold discountOf
  simp only [get?_mergedCorrelations, hl, hl', hc, hc', Option.none_or]
  rcases (learned.known a b).or (known config.correlatedPairs a b) with _ | x
  · rfl
  · by_cases hx : x = lit 0 <;> simp [Option.filter, hx]

/-- With the learned pair against the order of the signals and the configured one in it, the
configured value is found, unless it is 0. -/
theorem discountOf_orient_mixed (hab : a ≠ b) {c : F} (hc : known config.correlatedPairs a b = some c)
    (h0 : c ≠ lit 0) :
    discountOf (mergedCorrelations { config with
      correlatedPairs := orient config.correlatedPairs a b } (orient learned b a)) a b = some c := by
  obtain ⟨-, hl'⟩ := get?_orient (m := learned) (Ne.symm hab)
  obtain ⟨hput, -⟩ := get?_orient (m := config.correlatedPairs) hab
  unfold discountOf
  simp only [get?_mergedCorrelations, hl', hput, hc, Option.none_or, if_neg h0]

/-- The values that the lookup handles whatever the orientation: the value in force is not 0,
and a configured value that is learned too is the learned one or 0. -/
structure Robust (config : CombinationConfig F) (learned : Correlations F) (a b : String) :
    Prop where
  inForce_ne : inForce config learned a b ≠ some (lit 0)
  overridden : ∀ x c, learned.known a b = some x → known config.correlatedPairs a b = some c →
    c = x ∨ c = lit 0

/-- A robust pair is discounted as is meant. -/
theorem Robust.discountOf_eq (h : Robust config learned a b) (hab : a ≠ b)
    (hl : OneOrientation learned) :
    discountOf (mergedCorrelations config learned) a b = inForce config learned a b := by
  obtain ⟨hforce, hover⟩ := h
  have hl1 := hl a b hab
  unfold inForce known at hforce
  unfold known at hover
  unfold discountOf inForce known
  simp only [get?_mergedCorrelations]
  rcases hx : learned.get? (a, b) with _ | x
  · rcases hy : learned.get? (b, a) with _ | y
    · -- nothing is learned: the configured value, which is not 0
      rw [hx, hy] at hforce
      rcases hc : config.correlatedPairs.get? (a, b) with _ | c
      · rfl
      · have hne : c ≠ lit 0 := fun h0 => hforce (by rw [hc, h0]; rfl)
        simp [hne]
    · -- learned against the order: the configured value is met first
      have hyne : y ≠ lit 0 := fun h0 => hforce (by rw [hx, hy, h0]; rfl)
      rcases hc : config.correlatedPairs.get? (a, b) with _ | c
      · rfl
      · rcases hover y c (by rw [hx, hy]; rfl) (by rw [hc]; rfl) with rfl | rfl
        · simp [hyne]
        · simp
  · -- learned in the order of the signals
    have hne : x ≠ lit 0 := fun h0 => hforce (by rw [hx, h0]; rfl)
    simp [hne]

/-- A method that occurs twice is looked up under one key. -/
theorem discountOf_self (config : CombinationConfig F) (learned : Correlations F) (a : String) :
    discountOf (mergedCorrelations config learned) a a = inForce config learned a a := by
  unfold discountOf inForce known
  rw [get?_mergedCorrelations]
  rcases learned.get? (a, a) with _ | x
  · rcases config.correlatedPairs.get? (a, a) with _ | c
    · rfl
    · by_cases h : c = lit 0 <;> simp [h]
  · by_cases h : x = lit 0 <;> simp [h]

/-- The learned correlations override the configured ones: every pair of signals is discounted
by the value in force, and the result is the same whatever the orientation of the keys. -/
structure Overrides (config : CombinationConfig F) (learned : Correlations F)
    (signals : List (String × F)) : Prop where
  discount_eq : ∀ p ∈ pairsOf signals,
    discountOf (mergedCorrelations config learned) p.1.1 p.2.1 =
      inForce config learned p.1.1 p.2.1
  result_eq : ∀ pairs' learned', Reoriented config.correlatedPairs pairs' →
    Reoriented learned learned' →
      combineEvidenceResult { config with correlatedPairs := pairs' } learned' signals =
        combineEvidenceResult config learned signals

theorem Robust.reoriented {pairs' learned' : Correlations F} (h : Robust config learned a b)
    (hp : Reoriented config.correlatedPairs pairs') (hl : Reoriented learned learned') :
    Robust { config with correlatedPairs := pairs' } learned' a b := by
  constructor
  · show (known learned' a b).or (known pairs' a b) ≠ some (lit 0)
    rw [hl.known_eq, hp.known_eq]
    exact h.inForce_ne
  · intro x c hx hc
    rw [hl.known_eq] at hx
    exact h.overridden x c hx ((hp.known_eq a b).symm.trans hc)

/-- Where the result does not depend on the orientation, the pairs are robust. -/
theorem robust_of_result_eq {signals : List (String × F)}
    (hl : OneOrientation learned) (hc : OneOrientation config.correlatedPairs)
    (h : ∀ pairs' learned', Reoriented config.correlatedPairs pairs' →
      Reoriented learned learned' →
        combineEvidenceResult { config with correlatedPairs := pairs' } learned' signals =
          combineEvidenceResult config learned signals)
    {p : (String × F) × (String × F)} (hp : p ∈ pairsOf signals) (hne : p.1.1 ≠ p.2.1) :
    Robust config learned p.1.1 p.2.1 := by
  -- turned against the order of the signals, the value in force is the discount
  have hback := discountOf_eq_of_result_eq
    (h _ _ (hc.reoriented_orient (Ne.symm hne)) (hl.reoriented_orient (Ne.symm hne))) hp
  rw [discountOf_orient_ba hne, hl.known_comm, hc.known_comm] at hback
  constructor
  · intro hzero
    have hahead := discountOf_eq_of_result_eq
      (h _ _ (hc.reoriented_orient hne) (hl.reoriented_orient hne)) hp
    rw [discountOf_orient_ab hne, ← hback] at hahead
    unfold inForce at hzero
    rw [hzero] at hahead
    simp [Option.filter] at hahead
  · intro x c hx hcc
    by_cases h0 : c = lit 0
    · exact .inr h0
    · have hmixed := discountOf_eq_of_result_eq
        (h _ _ (hc.reoriented_orient hne) (hl.reoriented_orient (Ne.symm hne))) hp
      rw [discountOf_orient_mixed hne hcc h0, ← hback, hx] at hmixed
      exact .inl (Option.some.inj hmixed)

/-- Learned correlations override the configured ones exactly when every pair of different
methods is robust. -/
theorem overrides_iff (hl : OneOrientation learned)
    (hc : OneOrientation config.correlatedPairs) (signals : List (String × F)) :
    Overrides config learned signals ↔
      ∀ p ∈ pairsOf signals, p.1.1 ≠ p.2.1 → Robust config learned p.1.1 p.2.1 := by
  constructor
  · intro h p hp hne
    exact robust_of_result_eq hl hc h.result_eq hp hne
  · intro h
    have hdiscount : ∀ p ∈ pairsOf signals,
        discountOf (mergedCorrelations config learned) p.1.1 p.2.1 =
          inForce config learned p.1.1 p.2.1 := by
      intro p hp
      by_cases hne : p.1.1 = p.2.1
      · rw [hne]
        exact discountOf_self config learned p.2.1
      · exact (h p hp hne).discountOf_eq hne hl
    refine ⟨hdiscount, fun pairs' learned' hp' hl' => combineEvidenceResult_congr fun p hp => ?_⟩
    rw [hdiscount p hp]
    have hforce : inForce { config with correlatedPairs := pairs' } learned' p.1.1 p.2.1 =
        inForce config learned p.1.1 p.2.1 := by
      show (known learned' p.1.1 p.2.1).or (known pairs' p.1.1 p.2.1) = _
      rw [hl'.known_eq, hp'.known_eq]
      rfl
    rw [← hforce]
    by_cases hne : p.1.1 = p.2.1
    · rw [hne]
      exact discountOf_self _ learned' p.2.1
    · exact ((h p hp hne).reoriented hp' hl').discountOf_eq hne hl'.oneOrientation

theorem oneOrientation_default :
    OneOrientation (CombinationConfig.default : CombinationConfig F).correlatedPairs := by
  have hkeys : (CombinationConfig.default : CombinationConfig F).correlatedPairs.keys =
      [("R3", "R4"), ("R2", "R5"), ("R4", "R5")] := rfl
  apply oneOrientation_of_keys
  rw [hkeys]
  decide

omit [ScoreArith F] in
theorem oneOrientation_single (a b : String) (x : F) :
    OneOrientation (PyDict.ofList [((a, b), x)]) := by
  have hkeys : (PyDict.ofList [((a, b), x)]).keys = [(a, b)] := rfl
  apply oneOrientation_of_keys
  rw [hkeys]
  rintro k hk hne hrev
  obtain rfl := List.mem_singleton.1 hk
  exact hne (Prod.mk.inj (List.mem_singleton.1 hrev)).2

/-- A learned correlation of R4 and R3 does not override the configured one of R3 and R4. -/
theorem not_overrides :
    ¬ ∀ (config : CombinationConfig Double) (learned : Correlations Double)
      (signals : List (String × Double)), OneOrientation learned →
        OneOrientation config.correlatedPairs → Overrides config learned signals := by
  intro h
  have hpair := (h .default (PyDict.ofList [(("R4", "R3"), dec 9 1)])
    [("R3", dec 6 1), ("R4", dec 5 1)] (oneOrientation_single _ _ _)
    oneOrientation_default).discount_eq _ (List.mem_singleton_self _)
  revert hpair
  decide +kernel

/-- A pair that is learned and not configured is discounted as is meant. -/
theorem overrides_learned :
    Overrides (CombinationConfig.default : CombinationConfig Double)
      (PyDict.ofList [(("R3", "R2"), dec 7 1)]) [("R2", dec 6 1), ("R3", dec 5 1)] := by
  refine (overrides_iff (oneOrientation_single _ _ _) oneOrientation_default _).2 ?_
  intro p hp hne
  obtain rfl := List.mem_singleton.1 hp
  have hnone : known (CombinationConfig.default : CombinationConfig Double).correlatedPairs
      "R2" "R3" = none := rfl
  constructor
  · decide +kernel
  · intro x c _ hc
    cases hnone.symm.trans hc

end Correlations
end ComputeIntelligence
