import Mathlib.Algebra.BigOperators.Ring.List
import ComputeIntelligence.ScoreRange
import ComputeIntelligence.UnitRoundoff

/-! # The shares of R6

R6 shares a resource among the teams that are known to use it.  A team's allocation weight is
its share of the usage rounded to three decimals, each on its own: the weights of `n` teams
add up to 1 within `n` half thousandths, and a share of at most half a thousandth is rounded
to nothing.  The `FractionalAttribution`s of the engine are these weights.
-/
namespace ComputeIntelligence
open FirstMax ScoreArith RoundedArith UnitRoundoff HeuristicReconciliationEngine

section
variable {F : Type} [ScoreArith F]

/-- `positive_users`. -/
def positiveUsers (knownUsers : PyDict String F) : List (String × F) :=
  knownUsers.items.filter fun p => lit 0 < p.2

/-- `total_weight`. -/
def totalWeight (knownUsers : PyDict String F) : F :=
  total ((positiveUsers knownUsers).map Prod.snd)

theorem r6Resolve_eq (knownUsers : PyDict String F) :
    r6Resolve knownUsers =
      if totalWeight knownUsers ≤ lit 0 then []
      else (positiveUsers knownUsers).map fun p =>
        { team := p.1, weight := round 3 (p.2 / totalWeight knownUsers),
          confidence := round 3
            (min (dec 65 2) (dec 3 1 + p.2 / totalWeight knownUsers * dec 4 1)) } := rfl

/-- The fallback hands on the shares of R6. -/
theorem fractional_fallback (knownUsers : PyDict String F) :
    (fallback knownUsers).fractional = r6Resolve knownUsers := by
  unfold fallback
  dsimp only
  cases hbest : firstMax Allocation.confidence (r6Resolve knownUsers) with
  | some best => rfl
  | none => exact (firstMax_eq_none.1 hbest).symm

/-- Every other result of the engine has no shares. -/
theorem fractional_resolveWithin {settings : HreSettings F} {maxResolveMs : F} {clock : Nat → F}
    {setOrder : SetOrder} {entityId : String} {eventTime : Instant}
    {context : ReconciliationContext F} {r : Resolution F}
    (h : resolveWithin settings maxResolveMs clock setOrder entityId eventTime context = .ok r) :
    r.fractional = [] ∨ r = fallback context.proportionalUsers := by
  have hgetD : ∀ {found : Option (Resolution F)}, (∀ r ∈ found, r.fractional = []) →
      (found.getD (fallback context.proportionalUsers)).fractional = [] ∨
        found.getD (fallback context.proportionalUsers) = fallback context.proportionalUsers := by
    intro found hfound
    cases found with
    | none => exact .inr rfl
    | some r => exact .inl (hfound r rfl)
  unfold resolveWithin at h
  split at h
  · obtain rfl := Except.ok.inj h
    exact .inl rfl
  · obtain ⟨signals, -, h⟩ := Except.bind_eq_ok h
    split at h
    · obtain rfl := Except.ok.inj h
      exact .inr rfl
    · split at h
      · obtain rfl := Except.ok.inj h
        apply hgetD
        intro r hr
        obtain ⟨best, -, rfl⟩ := Option.map_eq_some_iff.1 hr
        rfl
      · obtain rfl := Except.ok.inj h
        apply hgetD
        intro r hr
        unfold combineWithin at hr
        split at hr
        · cases hr
        · obtain rfl := Option.some.inj hr
          rfl

end

variable {F : Type} [UnitRoundoff F]

/-! ### One share -/

theorem roundHalfEven_pos_iff {q : ℚ} (h : 0 ≤ q) : 0 < PyFloat.roundHalfEven q ↔ 1 / 2 < q := by
  constructor
  · intro hpos
    by_contra hle
    have hhalf : PyFloat.roundHalfEven q ≤ PyFloat.roundHalfEven (1 / 2) :=
      PyFloat.roundHalfEven_mono (not_lt.1 hle)
    have hzero : PyFloat.roundHalfEven (1 / 2) = 0 := by decide +kernel
    omega
  · intro hlt
    have hdist := (PyFloat.roundHalfEven_dist h).1
    have hcast : (0 : ℚ) < (PyFloat.roundHalfEven q : ℚ) := by linarith
    exact_mod_cast hcast

/-- A score rounded to three decimals is not zero if it is over half a thousandth. -/
theorem val_round_pos_iff {a : F} (ha : IsScore a) : 0 < val (round 3 a) ↔ 1 / 2000 < val a := by
  have hform := PyFloat.decimalRound_of_nonneg 3 ha.1
  have hscaled : (0 : ℚ) ≤ val a * 10 ^ 3 := mul_nonneg ha.1 (by norm_num)
  have hiff : 1 / 2000 < val a ↔ 0 < PyFloat.roundHalfEven (val a * 10 ^ 3) := by
    rw [roundHalfEven_pos_iff hscaled]
    constructor
    · intro h
      linarith
    · intro h
      linarith
  rw [hiff, val_round, hform]
  constructor
  · intro h
    by_contra hzero
    rw [Nat.eq_zero_of_not_pos hzero, Nat.cast_zero, zero_div, rnd_zero] at h
    exact lt_irrefl _ h
  · intro h
    -- a thousandth is more than a number with one bit
    have hone : (1 : ℚ) ≤ (PyFloat.roundHalfEven (val a * 10 ^ 3) : ℚ) := by exact_mod_cast h
    have hle : (1 : ℚ) / 2 ^ 10 ≤ (PyFloat.roundHalfEven (val a * 10 ^ 3) : ℚ) / 10 ^ 3 := by
      rw [div_le_div_iff₀ (by norm_num) (by norm_num)]
      linarith
    calc (0 : ℚ) < 1 / 2 ^ 10 := by norm_num
      _ = rnd F (1 / 2 ^ 10) := (rnd_inverse_pow (by norm_num)).symm
      _ ≤ rnd F ((PyFloat.roundHalfEven (val a * 10 ^ 3) : ℚ) / 10 ^ 3) := rnd_mono hle

theorem val_round_dist {a : F} (ha : IsScore a) :
    |val (round 3 a) - val a| ≤ 1 / 2000 + unit F := by
  obtain ⟨hlo, hhi⟩ := PyFloat.decimalRound_dist 3 ha.1
  have hone : PyFloat.decimalRound 3 1 = 1 := by decide +kernel
  have hle : PyFloat.decimalRound 3 (val a) ≤ 1 :=
    le_of_le_of_eq (PyFloat.decimalRound_mono 3 ha.2) hone
  obtain ⟨hdlo, hdhi⟩ := abs_le.1 (rnd_dist (F := F) (PyFloat.decimalRound_nonneg 3 ha.1) hle)
  rw [val_round, abs_le]
  norm_num at hlo hhi
  constructor
  · linarith
  · linarith

/-- A quotient that is a score, divided and rounded. -/
theorem val_share_dist {a b : F} (h0 : 0 ≤ val a / val b) (h1 : val a / val b ≤ 1) :
    |val (round 3 (a / b)) - val a / val b| ≤ 1 / 2000 + 2 * unit F := by
  have hscore : IsScore (a / b) := by
    unfold IsScore
    rw [val_div]
    exact ⟨rnd_nonneg h0, rnd_le_one h1⟩
  have hround := val_round_dist hscore
  have hdiv := rnd_dist (F := F) h0 h1
  rw [← val_div] at hdiv
  have htriangle := abs_sub_le (val (round 3 (a / b))) (val (a / b)) (val a / val b)
  linarith

/-- Quantities that are each near another add up near its sum. -/
theorem sum_dist {α : Type} {f g : α → ℚ} {e : ℚ} (xs : List α)
    (h : ∀ x ∈ xs, |f x - g x| ≤ e) : |(xs.map f).sum - (xs.map g).sum| ≤ xs.length * e := by
  induction xs with
  | nil => simp
  | cons x xs ih =>
    have hx := h x List.mem_cons_self
    have hrest := ih fun y hy => h y (List.mem_cons_of_mem x hy)
    rw [List.map_cons, List.map_cons, List.sum_cons, List.sum_cons, List.length_cons, add_sub_add_comm]
    refine le_trans (abs_add_le _ _) ?_
    push_cast
    linarith

/-! ### All shares -/

/-- The usage of all teams together, without rounding. -/
def usage (knownUsers : PyDict String F) : ℚ :=
  (((positiveUsers knownUsers).map Prod.snd).map val).sum

/-- The allocations follow the usage: they go to the teams with positive usage and to nobody
else, and each is the team's share to three decimals, so that they add up to 1 within half a
thousandth for each team. -/
structure FollowsUsage (knownUsers : PyDict String F) (allocations : List (Allocation F)) : Prop where
  teams : allocations.map Allocation.team = (positiveUsers knownUsers).map Prod.fst
  score : ∀ a ∈ allocations, IsScore a.weight
  share : ∀ a ∈ allocations, ∃ w, knownUsers.get? a.team = some w ∧
    (0 < val a.weight ↔ 1 / 2000 < val (w / totalWeight knownUsers)) ∧
    |val a.weight - val w / usage knownUsers| ≤
      1 / 2000 + 2 * unit F + drift F (positiveUsers knownUsers).length
  sum : |(allocations.map fun a => val a.weight).sum - 1| ≤
    (positiveUsers knownUsers).length * (1 / 2000 + 2 * unit F) +
      drift F (positiveUsers knownUsers).length

theorem positive_of_mem {knownUsers : PyDict String F} {p : String × F}
    (h : p ∈ positiveUsers knownUsers) : 0 < val p.2 :=
  lit_zero_lt_iff.1 (of_decide_eq_true (List.mem_filter.1 h).2)

theorem nonneg_of_mem_weights {knownUsers : PyDict String F} {x : F}
    (h : x ∈ (positiveUsers knownUsers).map Prod.snd) : 0 ≤ val x := by
  obtain ⟨p, hp, rfl⟩ := List.mem_map.1 h
  exact le_of_lt (positive_of_mem hp)

theorem usage_pos {knownUsers : PyDict String F} (h : ∃ p ∈ knownUsers.items, lit 0 < p.2) :
    0 < usage knownUsers := by
  obtain ⟨p, hp, hpos⟩ := h
  have hmem : p ∈ positiveUsers knownUsers := List.mem_filter.2 ⟨hp, decide_eq_true hpos⟩
  have hle : val p.2 ≤ usage knownUsers := by
    apply List.single_le_sum
    · intro q hq
      obtain ⟨x, hx, rfl⟩ := List.mem_map.1 hq
      exact nonneg_of_mem_weights hx
    · exact List.mem_map_of_mem (List.mem_map_of_mem hmem)
  exact lt_of_lt_of_le (positive_of_mem hmem) hle

theorem weight_le_totalWeight {knownUsers : PyDict String F} {p : String × F}
    (h : p ∈ positiveUsers knownUsers) : val p.2 ≤ val (totalWeight knownUsers) := by
  rw [val_le_val]
  exact le_total_of_mem (fun x hx => lit_zero_le_iff.2 (nonneg_of_mem_weights hx))
    (List.mem_map_of_mem h)

theorem totalWeight_pos {knownUsers : PyDict String F} (h : ∃ p ∈ knownUsers.items, lit 0 < p.2) :
    0 < val (totalWeight knownUsers) := by
  obtain ⟨p, hp, hpos⟩ := h
  have hmem : p ∈ positiveUsers knownUsers := List.mem_filter.2 ⟨hp, decide_eq_true hpos⟩
  exact lt_of_lt_of_le (positive_of_mem hmem) (weight_le_totalWeight hmem)

/-- The share of a team, of the rounded total. -/
theorem val_share_bounds {knownUsers : PyDict String F} {p : String × F}
    (h : p ∈ positiveUsers knownUsers) :
    0 ≤ val p.2 / val (totalWeight knownUsers) ∧
      val p.2 / val (totalWeight knownUsers) ≤ 1 := by
  have hpos := positive_of_mem h
  have hle := weight_le_totalWeight h
  refine ⟨div_nonneg (le_of_lt hpos) (le_trans (le_of_lt hpos) hle), ?_⟩
  exact div_le_one_of_le₀ hle (le_trans (le_of_lt hpos) hle)

/-- The allocations of R6 follow the usage. -/
theorem followsUsage_r6 {knownUsers : PyDict String F} (h : ∃ p ∈ knownUsers.items, lit 0 < p.2) :
    FollowsUsage knownUsers (r6Resolve knownUsers) := by
  have hpos := totalWeight_pos h
  have husage := usage_pos h
  have hnot : ¬totalWeight knownUsers ≤ lit 0 := not_le.2 (lit_zero_lt_iff.2 hpos)
  have hdrift : |usage knownUsers / val (totalWeight knownUsers) - 1| ≤
      drift F (positiveUsers knownUsers).length := by
    have hsum := sum_div_total_dist (fun _ => nonneg_of_mem_weights) husage
    rwa [List.length_map] at hsum
  rw [r6Resolve_eq, if_neg hnot]
  refine ⟨?_, ?_, ?_, ?_⟩
  · rw [List.map_map]
    rfl
  · intro a ha
    have hmem : a ∈ r6Resolve knownUsers := by
      rw [r6Resolve_eq, if_neg hnot]
      exact ha
    exact (isScore_r6 hmem).1
  · intro a ha
    obtain ⟨p, hp, rfl⟩ := List.mem_map.1 ha
    obtain ⟨h0, h1⟩ := val_share_bounds hp
    refine ⟨p.2, PyDict.get?_of_mem (List.mem_filter.1 hp).1, ?_, ?_⟩
    · apply val_round_pos_iff
      unfold IsScore
      rw [val_div]
      exact ⟨rnd_nonneg h0, rnd_le_one h1⟩
    · -- the rounded total is off by the drift, and the share is at most the whole
      have hshare := val_share_dist h0 h1
      have hform : val p.2 / val (totalWeight knownUsers) - val p.2 / usage knownUsers =
          val p.2 / usage knownUsers * (usage knownUsers / val (totalWeight knownUsers) - 1) := by
        field_simp
      have hpart : val p.2 / usage knownUsers ≤ 1 := by
        apply div_le_one_of_le₀ ?_ (le_of_lt husage)
        apply List.single_le_sum
        · intro q hq
          obtain ⟨x, hx, rfl⟩ := List.mem_map.1 hq
          exact nonneg_of_mem_weights hx
        · exact List.mem_map_of_mem (List.mem_map_of_mem hp)
      have hwhole : 0 ≤ val p.2 / usage knownUsers :=
        div_nonneg (le_of_lt (positive_of_mem hp)) (le_of_lt husage)
      have hoff : |val p.2 / val (totalWeight knownUsers) - val p.2 / usage knownUsers| ≤
          drift F (positiveUsers knownUsers).length := by
        rw [hform, abs_mul, abs_of_nonneg hwhole]
        exact le_trans (mul_le_of_le_one_left (abs_nonneg _) hpart) hdrift
      have htriangle := abs_sub_le (val (round 3 (p.2 / totalWeight knownUsers)))
        (val p.2 / val (totalWeight knownUsers)) (val p.2 / usage knownUsers)
      dsimp only
      linarith
  · rw [List.map_map]
    have hsum := sum_dist (positiveUsers knownUsers) fun p hp =>
      val_share_dist (val_share_bounds hp).1 (val_share_bounds hp).2
    have hparts : ((positiveUsers knownUsers).map fun p =>
        val p.2 / val (totalWeight knownUsers)).sum =
          usage knownUsers / val (totalWeight knownUsers) := by
      unfold usage
      simp only [div_eq_mul_inv, List.map_map]
      exact List.sum_map_mul_right _ _ _
    rw [hparts] at hsum
    refine le_trans (abs_sub_le _ (usage knownUsers / val (totalWeight knownUsers)) _) ?_
    exact add_le_add hsum hdrift

/-- What would be needed for no cost to be lost or invented. -/
def Conserves (knownUsers : PyDict String F) (allocations : List (Allocation F)) : Prop :=
  allocations.map Allocation.team = (positiveUsers knownUsers).map Prod.fst ∧
    (∀ a ∈ allocations, 0 < val a.weight) ∧ (allocations.map fun a => val a.weight).sum = 1

/-- Three teams of equal usage. -/
def threeTeams : PyDict String Binary64 :=
  ⟨[("team-a", lit 1), ("team-b", lit 1), ("team-c", lit 1)], by decide⟩

/-- A team of little usage. -/
def smallTeam : PyDict String Binary64 :=
  ⟨[("team-a", lit 1), ("team-b", lit (1 / 10000))], by decide⟩

end ComputeIntelligence
