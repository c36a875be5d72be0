import ComputeIntelligence.MoreEvidence

/-! # Equal signals

Three equal signals, two of them of correlated methods, the others at 0.  Raising the first of
the correlated two from 0 to the level of the other two puts it, discounted, into the first two
ranks, and pushes the last of the three down to the third, whose multiplier is 1/2: the
combined confidence falls.  So wherever a list of methods holds a correlated pair and a third
method, more evidence can lower the confidence, and nowhere else (`neverLowers_iff`).
-/
namespace ComputeIntelligence
open NoisyOr

/-! ### Sublists of distinct elements -/

/-- A list without repetitions, cut down to the members of a sublist, is the sublist. -/
theorem restrict_to_sublist {α : Type} [DecidableEq α] {sub l : List α} (h : sub.Sublist l)
    (hn : l.Nodup) : l.filter (· ∈ sub) = sub := by
  have hkeep : sub.Sublist (l.filter (· ∈ sub)) := by
    have hself : sub.filter (· ∈ sub) = sub := List.filter_eq_self.2 fun x hx => by simpa using hx
    rw [← hself]
    simpa using h.filter (· ∈ sub)
  have hlength : (l.filter (· ∈ sub)).length ≤ sub.length :=
    ((hn.filter _).subperm fun x hx => by simpa using (List.mem_filter.1 hx).2).length_le
  exact (hkeep.eq_of_length_le hlength).symm

theorem sublist_of_mem_pairsOf {α : Type} {l : List α} {p : α × α} (h : p ∈ pairsOf l) :
    [p.1, p.2].Sublist l := by
  induction l with
  | nil => cases h
  | cons x l ih =>
    rw [pairsOf, List.mem_append] at h
    rcases h with h | h
    · obtain ⟨y, hy, rfl⟩ := List.mem_map.1 h
      exact (List.singleton_sublist.2 hy).cons_cons x
    · exact (ih h).cons x

/-- Of two distinct elements one comes first. -/
theorem not_mem_pairsOf_swap {α : Type} [DecidableEq α] {l : List α} (hn : l.Nodup) {a b : α}
    (h : [a, b].Sublist l) : (b, a) ∉ pairsOf l := by
  intro hmem
  have h1 := restrict_to_sublist h hn
  have h2 := restrict_to_sublist (sublist_of_mem_pairsOf hmem) hn
  have hsame : l.filter (· ∈ [a, b]) = l.filter (· ∈ [b, a]) :=
    List.filter_congr fun x _ => by simp [or_comm]
  rw [h1, h2] at hsame
  obtain ⟨rfl, -⟩ := List.cons.inj hsame
  have htwice := h.nodup hn
  simp at htwice

/-- A third element stands before, between or after two others. -/
theorem third_sublist {α : Type} {l : List α} {a b x : α} (h : [a, b].Sublist l) (hx : x ∈ l)
    (ha : x ≠ a) (hb : x ≠ b) :
    [x, a, b].Sublist l ∨ [a, x, b].Sublist l ∨ [a, b, x].Sublist l := by
  induction l with
  | nil => cases hx
  | cons y l ih =>
    rcases List.sublist_cons_iff.1 h with hl | ⟨r, hr, hs⟩
    · rcases List.mem_cons.1 hx with rfl | hx
      · exact .inl (hl.cons_cons x)
      · rcases ih hl hx with h' | h' | h'
        · exact .inl (h'.cons y)
        · exact .inr (.inl (h'.cons y))
        · exact .inr (.inr (h'.cons y))
    · obtain ⟨rfl, rfl⟩ := List.cons.inj hr
      have hx : x ∈ l := (List.mem_cons.1 hx).resolve_left ha
      have hbl : b ∈ l := List.singleton_sublist.1 hs
      obtain ⟨u, v, rfl⟩ := List.append_of_mem hbl
      rcases List.mem_append.1 hx with hu | hv
      · right; left
        have hxb : [x, b].Sublist (u ++ b :: v) :=
          (List.singleton_sublist.2 hu).append ((List.nil_sublist v).cons_cons b)
        exact hxb.cons_cons a
      · right; right
        have hv : x ∈ v := (List.mem_cons.1 hv).resolve_left hb
        have hbx : [b, x].Sublist (u ++ b :: v) :=
          ((List.singleton_sublist.2 hv).cons_cons b).trans (List.sublist_append_right u _)
        exact hbx.cons_cons a

/-! ### Signals at two levels -/

/-- Signals at 1/2 for some of the methods, and at 0 for the others. -/
def marked (on methods : List String) : List (String × ℚ) :=
  methods.map fun m => (m, if m ∈ on then 1 / 2 else 0)

theorem orderedInsert_of_forall {x : String × ℚ} {l : List (String × ℚ)}
    (h : ∀ y ∈ l, y.2 ≤ x.2) : l.orderedInsert (fun a b => b.2 ≤ a.2) x = x :: l := by
  cases l with
  | nil => rfl
  | cons y l =>
    exact List.orderedInsert_cons_of_le (fun a b => b.2 ≤ a.2) l (h y List.mem_cons_self)

theorem orderedInsert_append {x : String × ℚ} {l : List (String × ℚ)} (r : List (String × ℚ))
    (h : ∀ y ∈ l, ¬ y.2 ≤ x.2) : (l ++ r).orderedInsert (fun a b => b.2 ≤ a.2) x =
      l ++ r.orderedInsert (fun a b => b.2 ≤ a.2) x := by
  induction l with
  | nil => rfl
  | cons y l ih =>
    rw [List.cons_append, List.orderedInsert_of_not_le (fun a b => b.2 ≤ a.2) (l ++ r)
      (h y List.mem_cons_self), ih fun z hz => h z (List.mem_cons_of_mem y hz)]
    rfl

/-- Sorted, the marked signals come first, in their order. -/
theorem sort_marked (on methods : List String) :
    (marked on methods).insertionSort (fun a b => b.2 ≤ a.2) =
      (methods.filter (· ∈ on)).map (fun m => (m, (1 / 2 : ℚ))) ++
        (methods.filter (· ∉ on)).map fun m => (m, (0 : ℚ)) := by
  induction methods with
  | nil => rfl
  | cons m methods ih =>
    have hcons : marked on (m :: methods) =
        (m, if m ∈ on then 1 / 2 else 0) :: marked on methods := rfl
    rw [hcons, List.insertionSort_cons, ih]
    by_cases hm : m ∈ on
    · rw [if_pos hm, List.filter_cons_of_pos (by simpa using hm),
        List.filter_cons_of_neg (by simpa using hm), orderedInsert_of_forall]
      · rfl
      · intro y hy
        rcases List.mem_append.1 hy with hy | hy
        · obtain ⟨n, -, rfl⟩ := List.mem_map.1 hy
          exact le_rfl
        · obtain ⟨n, -, rfl⟩ := List.mem_map.1 hy
          norm_num
    · rw [if_neg hm, List.filter_cons_of_neg (by simpa using hm),
        List.filter_cons_of_pos (by simpa using hm), orderedInsert_append, orderedInsert_of_forall]
      · rfl
      · intro y hy
        obtain ⟨n, -, rfl⟩ := List.mem_map.1 hy
        exact le_rfl
      · intro y hy
        obtain ⟨n, -, rfl⟩ := List.mem_map.1 hy
        norm_num

theorem length_marked (on methods : List String) :
    (marked on methods).length = methods.length := List.length_map _

/-- The signals at 0 contribute nothing to the product. -/
theorem exactMiss_marked (on methods : List String) :
    exactMiss (marked on methods) =
      miss (factors (weightOf exactConfig.correlatedPairs (marked on methods))
        (((methods.filter (· ∈ on)).map fun m => (m, (1 / 2 : ℚ))).zip
          (multipliers (methods.filter (· ∈ on)).length))) := by
  have hcount : methods.length =
      (methods.filter (· ∈ on)).length + (methods.filter (· ∉ on)).length := by
    simpa using List.length_eq_length_filter_add (l := methods) fun m => decide (m ∈ on)
  obtain ⟨rest, hrest⟩ := multipliers_add (methods.filter (· ∈ on)).length
    (methods.filter (· ∉ on)).length
  have hrank : rankedSignals exactConfig (marked on methods) =
      ((methods.filter (· ∈ on)).map fun m => (m, (1 / 2 : ℚ))).zip
        (multipliers (methods.filter (· ∈ on)).length) ++
          ((methods.filter (· ∉ on)).map fun m => (m, (0 : ℚ))).zip rest := by
    have hlen : ((marked on methods).insertionSort fun a b => b.2 ≤ a.2).length =
        methods.length := by rw [List.length_insertionSort, length_marked]
    have hmult : (diminishing exactConfig.diminishingFactor methods.length).reverse =
        multipliers (methods.filter (· ∈ on)).length ++ rest := by
      rw [← hrest, ← hcount]
      rfl
    unfold rankedSignals
    dsimp only
    rw [hlen, hmult, sort_marked, List.zip_append]
    rw [List.length_map, length_multipliers]
  have hzero : ∀ (l : List String) (r : List ℚ) (weight : String → ℚ),
      miss (factors weight ((l.map fun m => (m, (0 : ℚ))).zip r)) = 1 := by
    intro l
    induction l with
    | nil => exact fun r weight => rfl
    | cons m l ih =>
      intro r weight
      cases r with
      | nil => rfl
      | cons d r =>
        rw [List.map_cons, List.zip_cons_cons, factors_cons, miss_cons, ih, zero_mul, sub_zero,
          mul_one]
  unfold exactMiss
  rw [hrank, factors, List.map_append, miss_append]
  refine (congrArg (_ * ·) (hzero _ rest _)).trans (mul_one _)

/-! ### The weights of the marked signals -/

section weights
variable {methods : List String}

/-- A pair of marked signals, by its methods. -/
theorem mem_pairsOf_marked {on : List String} {p : (String × ℚ) × (String × ℚ)} :
    p ∈ pairsOf (marked on methods) ↔ ∃ q ∈ pairsOf methods,
      p = ((q.1, if q.1 ∈ on then 1 / 2 else 0), (q.2, if q.2 ∈ on then 1 / 2 else 0)) := by
  unfold marked
  rw [pairsOf_map, List.mem_map]
  constructor
  · rintro ⟨q, hq, rfl⟩
    exact ⟨q, hq, rfl⟩
  · rintro ⟨q, hq, rfl⟩
    exact ⟨q, hq, rfl⟩

/-- A discount on a marked method comes from a marked method after it. -/
theorem discount_on_marked {on : List String} {m : String} (hm : m ∈ on) {x : ℚ}
    (h : x ∈ appliedDiscounts exactConfig.correlatedPairs (marked on methods) m) :
    ∃ n ∈ on, (m, n) ∈ pairsOf methods ∧ discountOf exactConfig.correlatedPairs m n = some x := by
  obtain ⟨p, hp, hx⟩ := List.mem_filterMap.1 h
  obtain ⟨⟨a, b⟩, hq, rfl⟩ := mem_pairsOf_marked.1 hp
  unfold weaker at hx
  dsimp only at hx
  by_cases hab : (if a ∈ on then (1 / 2 : ℚ) else 0) ≤ if b ∈ on then 1 / 2 else 0
  · rw [if_pos hab] at hx
    by_cases ham : a = m
    · subst ham
      rw [if_pos rfl] at hx
      have hb : b ∈ on := by
        by_contra hb
        rw [if_pos hm, if_neg hb] at hab
        norm_num at hab
      exact ⟨b, hb, hq, hx⟩
    · rw [if_neg ham] at hx
      cases hx
  · rw [if_neg hab] at hx
    by_cases hbm : b = m
    · -- the second of a pair is no weaker than the first at the upper level
      subst hbm
      rw [if_pos hm] at hab
      refine absurd ?_ hab
      split <;> norm_num
    · rw [if_neg hbm] at hx
      cases hx

theorem mem_discounts_marked {on : List String} {m n : String} (hm : m ∈ on) (hn : n ∈ on)
    (hp : (m, n) ∈ pairsOf methods) {x : ℚ}
    (hx : discountOf exactConfig.correlatedPairs m n = some x) :
    x ∈ appliedDiscounts exactConfig.correlatedPairs (marked on methods) m := by
  refine List.mem_filterMap.2 ⟨_, mem_pairsOf_marked.2 ⟨(m, n), hp, rfl⟩, ?_⟩
  unfold weaker
  rw [if_pos hm, if_pos hn, if_pos le_rfl, if_pos rfl]
  exact hx

theorem weight_marked (on methods : List String) (m : String) :
    LeastDiscount (appliedDiscounts exactConfig.correlatedPairs (marked on methods) m)
      (weightOf exactConfig.correlatedPairs (marked on methods) m) ∧
    InUnit (weightOf exactConfig.correlatedPairs (marked on methods) m) := by
  have hunit : ∀ s ∈ marked on methods, InUnit s.2 := by
    intro s hs
    obtain ⟨n, -, rfl⟩ := List.mem_map.1 hs
    dsimp only
    split <;> norm_num [InUnit]
  have h1 := unitConfig_default.leastDiscount (marked on methods) m
  have h2 := unitConfig_default.unit_weight (marked on methods) m
  exact ⟨h1, h2⟩

/-- A marked method that is correlated with a later one has at most half its weight. -/
theorem weight_le_half {on : List String} {m n : String} (hm : m ∈ on) (hn : n ∈ on)
    (hp : (m, n) ∈ pairsOf methods) (h : discountOf exactConfig.correlatedPairs m n ≠ none) :
    weightOf exactConfig.correlatedPairs (marked on methods) m ≤ 1 / 2 := by
  obtain ⟨x, hx⟩ := Option.ne_none_iff_exists'.1 h
  have hmem := mem_discounts_marked hm hn hp hx
  have hhalf : x ≤ 1 / 2 := by
    unfold discountOf at hx
    split at hx
    · rename_i y hy
      split at hx
      · exact (default_correlation hx).2
      · obtain rfl := Option.some.inj hx
        exact (default_correlation hy).2
    · exact (default_correlation hx).2
  rcases (weight_marked on methods m).1 with ⟨hnil, -⟩ | ⟨-, hleast⟩
  · rw [hnil] at hmem
    cases hmem
  · exact le_trans (hleast x hmem) hhalf

/-- Marking more methods only adds discounts. -/
theorem weight_antitone {on on' : List String} (hsub : ∀ n ∈ on, n ∈ on') {m : String}
    (hm : m ∈ on) : weightOf exactConfig.correlatedPairs (marked on' methods) m ≤
      weightOf exactConfig.correlatedPairs (marked on methods) m := by
  rcases (weight_marked on methods m).1 with ⟨-, hone⟩ | ⟨hmem, -⟩
  · rw [hone]
    exact (weight_marked on' methods m).2.2
  · obtain ⟨n, hn, hp, hx⟩ := discount_on_marked hm hmem
    have hmem' := mem_discounts_marked (hsub m hm) (hsub n hn) hp hx
    rcases (weight_marked on' methods m).1 with ⟨hnil, -⟩ | ⟨-, hleast⟩
    · rw [hnil] at hmem'
      cases hmem'
    · exact hleast _ hmem'

/-- The last of the marked methods has full weight. -/
theorem weight_last {e r : String} (hn : methods.Nodup) (h : [e, r].Sublist methods) :
    weightOf exactConfig.correlatedPairs (marked [e, r] methods) r = 1 := by
  rcases (weight_marked [e, r] methods r).1 with ⟨-, hone⟩ | ⟨hmem, -⟩
  · exact hone
  · obtain ⟨n, hnmem, hp, -⟩ := discount_on_marked (by simp) hmem
    have htwice := (sublist_of_mem_pairsOf hp).nodup hn
    rcases List.mem_cons.1 hnmem with rfl | hnr
    · exact absurd hp (not_mem_pairsOf_swap hn h)
    · obtain rfl := List.mem_singleton.1 hnr
      simp at htwice

end weights

/-! ### Three equal signals -/

section three
variable {methods : List String}

theorem exactMiss_two (hn : methods.Nodup) {e r : String} (h : [e, r].Sublist methods) :
    exactMiss (marked [e, r] methods) =
      (1 - 1 / 2 * weightOf exactConfig.correlatedPairs (marked [e, r] methods) e) * (1 / 2) := by
  have htwo : multipliers 2 = [1, 1] := rfl
  rw [exactMiss_marked, restrict_to_sublist h hn, List.length_cons, List.length_singleton, htwo]
  show (1 - 1 / 2 * (weightOf exactConfig.correlatedPairs (marked [e, r] methods) e * 1)) *
    ((1 - 1 / 2 * (weightOf exactConfig.correlatedPairs (marked [e, r] methods) r * 1)) * 1) = _
  rw [weight_last hn h]
  ring

theorem exactMiss_three (hn : methods.Nodup) {p q r : String} (h : [p, q, r].Sublist methods) :
    exactMiss (marked [p, q, r] methods) =
      (1 - 1 / 2 * weightOf exactConfig.correlatedPairs (marked [p, q, r] methods) p) *
      (1 - 1 / 2 * weightOf exactConfig.correlatedPairs (marked [p, q, r] methods) q) *
      (1 - 1 / 4 * weightOf exactConfig.correlatedPairs (marked [p, q, r] methods) r) := by
  rw [exactMiss_marked, restrict_to_sublist h hn, List.length_cons, List.length_cons,
    List.length_singleton, multipliers_three]
  show (1 - 1 / 2 * (weightOf exactConfig.correlatedPairs (marked [p, q, r] methods) p * 1)) *
    ((1 - 1 / 2 * (weightOf exactConfig.correlatedPairs (marked [p, q, r] methods) q * 1)) *
      ((1 - 1 / 2 * (weightOf exactConfig.correlatedPairs (marked [p, q, r] methods) r * (1 / 2))) *
        1)) = _
  ring

/-- Two of three marked methods, and the first of them or the second is correlated with a marked
one after it: raising that one raises the product by an eighth at least. -/
structure Raised (methods : List String) (p q r a e : String) : Prop where
  sublist : [p, q, r].Sublist methods
  first : (p = a ∧ q = e) ∨ (p = e ∧ q = a)
  correlated : ∃ b ∈ [p, q, r], (a, b) ∈ pairsOf methods ∧
    discountOf exactConfig.correlatedPairs a b ≠ none

theorem Raised.others {p q r a e : String} (h : Raised methods p q r a e) :
    [e, r].Sublist methods := by
  refine List.Sublist.trans ?_ h.sublist
  rcases h.first with ⟨rfl, rfl⟩ | ⟨rfl, rfl⟩
  · exact (List.Sublist.refl [q, r]).cons p
  · exact ((List.Sublist.refl [r]).cons q).cons_cons p

theorem Raised.exactMiss_le {p q r a e : String} (hn : methods.Nodup)
    (h : Raised methods p q r a e) :
    exactMiss (marked [e, r] methods) * (9 / 8) ≤ exactMiss (marked [p, q, r] methods) := by
  obtain ⟨b, hb, hpair, hd⟩ := h.correlated
  have ha : a ∈ [p, q, r] := by rcases h.first with ⟨rfl, -⟩ | ⟨-, rfl⟩ <;> simp
  have he : ∀ n ∈ [e, r], n ∈ [p, q, r] := by
    rcases h.first with ⟨-, rfl⟩ | ⟨rfl, -⟩ <;> simp
  have hwa := weight_le_half ha hb hpair hd
  have hwe : weightOf exactConfig.correlatedPairs (marked [p, q, r] methods) e ≤
      weightOf exactConfig.correlatedPairs (marked [e, r] methods) e :=
    weight_antitone he List.mem_cons_self
  have hwr := (weight_marked [p, q, r] methods r).2.2
  have hold := (weight_marked [e, r] methods e).2.2
  rw [exactMiss_two hn h.others, exactMiss_three hn h.sublist]
  generalize weightOf exactConfig.correlatedPairs (marked [e, r] methods) e = x at *
  -- the factors of the three, against the factor of the one that stays
  have hfactors : ∀ y z : ℚ, y ≤ 1 / 2 → z ≤ x →
      (1 - 1 / 2 * x) * (1 / 2) * (9 / 8) ≤ (1 - 1 / 2 * y) * (1 - 1 / 2 * z) *
        (1 - 1 / 4 * weightOf exactConfig.correlatedPairs (marked [p, q, r] methods) r) := by
    intro y z hy hz
    have h1 : (3 / 4 : ℚ) ≤ 1 - 1 / 2 * y := by linarith
    have h2 : 1 - 1 / 2 * x ≤ 1 - 1 / 2 * z := by linarith
    have h3 : (3 / 4 : ℚ) ≤
        1 - 1 / 4 * weightOf exactConfig.correlatedPairs (marked [p, q, r] methods) r := by
      linarith
    have hx : 0 ≤ 1 - 1 / 2 * x := by linarith
    calc (1 - 1 / 2 * x) * (1 / 2) * (9 / 8) = 3 / 4 * (1 - 1 / 2 * x) * (3 / 4) := by ring
      _ ≤ (1 - 1 / 2 * y) * (1 - 1 / 2 * z) * _ :=
        mul_le_mul (mul_le_mul h1 h2 hx (by linarith)) h3 (by norm_num)
          (mul_nonneg (by linarith) (by linarith))
  rcases h.first with ⟨rfl, rfl⟩ | ⟨rfl, rfl⟩
  · exact hfactors _ _ hwa hwe
  · rw [mul_comm (1 - 1 / 2 * weightOf exactConfig.correlatedPairs (marked [p, q, r] methods) p)]
    exact hfactors _ _ hwa hwe

theorem fourDecimals_marked (on methods : List String) :
    ∀ t ∈ marked on methods, FourDecimals t.2 := by
  intro t ht
  obtain ⟨m, -, rfl⟩ := List.mem_map.1 ht
  dsimp only
  split
  · exact ⟨by norm_num, 5000, by norm_num⟩
  · exact ⟨by norm_num, 0, by norm_num⟩

theorem unit_exactMiss {signals : List (String × ℚ)} (h : ∀ t ∈ signals, InUnit t.2) :
    InUnit (exactMiss signals) :=
  unit_miss fun p hp => (unit_factors h p hp).1.mul (unit_factors h p hp).2

/-- The rounded confidence falls. -/
theorem Raised.confidence_lt {p q r a e : String} (hn : methods.Nodup)
    (h : Raised methods p q r a e) :
    combineEvidence exactConfig (marked [p, q, r] methods) <
      combineEvidence exactConfig (marked [e, r] methods) := by
  have hlo : ∀ t ∈ marked [e, r] methods, InUnit t.2 :=
    fun t ht => (fourDecimals_marked _ _ t ht).unit
  have hhi : ∀ t ∈ marked [p, q, r] methods, InUnit t.2 :=
    fun t ht => (fourDecimals_marked _ _ t ht).unit
  have hle := h.exactMiss_le hn
  have hH := unit_exactMiss hhi
  have hL : 1 / 4 ≤ exactMiss (marked [e, r] methods) := by
    have hw := (weight_marked [e, r] methods e).2.2
    rw [exactMiss_two hn h.others]
    linarith
  have hcap : exactConfig.cap = 95 / 100 := by decide +kernel
  rw [combineEvidence_exact (fourDecimals_marked _ _),
    combineEvidence_exact (fourDecimals_marked _ _), exactConfidence_eq hlo,
    exactConfidence_eq hhi, hcap]
  have hlow : min (95 / 100) (1 - exactMiss (marked [e, r] methods)) =
      1 - exactMiss (marked [e, r] methods) := min_eq_right (by linarith)
  have hhigh : 0 ≤ min (95 / 100) (1 - exactMiss (marked [p, q, r] methods)) :=
    le_min (by norm_num) hH.compl.1
  have hbound := min_le_right (95 / 100) (1 - exactMiss (marked [p, q, r] methods))
  have hL1 := (unit_exactMiss hlo).2
  have h1 := (PyFloat.decimalRound_dist 4 hhigh).2
  have h2 := (PyFloat.decimalRound_dist 4 (sub_nonneg.2 hL1)).1
  rw [hlow]
  norm_num at h1 h2 ⊢
  linarith

theorem marked_congr {on on' : List String} {l : List String}
    (h : ∀ m ∈ l, (m ∈ on ↔ m ∈ on')) : marked on l = marked on' l := by
  refine List.map_congr_left fun m hm => ?_
  simp only [h m hm]

/-- A raised signal contradicts that more evidence never lowers the confidence. -/
theorem Raised.refutes {p q r a e : String} (hn : methods.Nodup)
    (h : Raised methods p q r a e) :
    ¬ NeverLowers (combineEvidence exactConfig) FourDecimals methods := by
  intro hlowers
  have hdistinct := h.sublist.nodup hn
  have ha : a ∈ [p, q, r] ∧ a ∉ [e, r] ∧ ∀ m, m ≠ a → (m ∈ [p, q, r] ↔ m ∈ [e, r]) := by
    simp only [List.nodup_cons, List.mem_cons, List.not_mem_nil, or_false, not_or] at hdistinct
    rcases h.first with ⟨rfl, rfl⟩ | ⟨rfl, rfl⟩
    · refine ⟨by simp, by simpa using hdistinct.1, fun m hm => by simp [hm]⟩
    · refine ⟨by simp, by simpa using ⟨Ne.symm hdistinct.1.1, hdistinct.2.1⟩, fun m hm => ?_⟩
      simp [hm]
  obtain ⟨hin, hout, hother⟩ := ha
  obtain ⟨u, v, rfl⟩ := List.append_of_mem (h.sublist.subset hin)
  have hnot : ∀ m ∈ u ++ v, m ≠ a := by
    have hperm := List.nodup_cons.1 (List.perm_middle.nodup_iff.1 hn)
    exact fun m hm he => hperm.1 (he ▸ hm)
  have hu : marked [p, q, r] u = marked [e, r] u :=
    marked_congr fun m hm => hother m (hnot m (List.mem_append_left v hm))
  have hv : marked [p, q, r] v = marked [e, r] v :=
    marked_congr fun m hm => hother m (hnot m (List.mem_append_right u hm))
  have hsplit : ∀ on, marked on (u ++ a :: v) =
      marked on u ++ (a, if a ∈ on then 1 / 2 else 0) :: marked on v := fun on => List.map_append
  have hlt := h.confidence_lt hn
  have hdec := fourDecimals_marked [e, r] (u ++ a :: v)
  have hmethods : (marked [e, r] (u ++ a :: v)).map Prod.fst = u ++ a :: v := by
    unfold marked
    rw [List.map_map]
    exact List.map_id _
  rw [hsplit, hsplit, if_pos hin, if_neg hout, hu, hv] at hlt
  rw [hsplit, if_neg hout] at hdec hmethods
  exact absurd (hlowers.raise _ _ a 0 (1 / 2) hmethods hdec ⟨by norm_num, 5000, by norm_num⟩
    (by norm_num)) (not_le.2 hlt)

end three

/-! ### Where more evidence lowers the confidence -/

/-- A correlated pair and a third method: three signals one of which can be raised to a loss. -/
theorem exists_raised {methods : List String} (hn : methods.Nodup) (h : ¬ Harmless methods) :
    ∃ p q r a e, Raised methods p q r a e := by
  obtain ⟨hlen, hcorr⟩ := not_or.1 h
  unfold Uncorrelated at hcorr
  push Not at hcorr
  obtain ⟨⟨a, b⟩, hpair, hd⟩ := hcorr
  obtain ⟨x, hx, hxab⟩ : ∃ x ∈ methods, x ∉ [a, b] := by
    by_contra hall
    push Not at hall
    have hsub := (hn.subperm fun x hx => hall x hx).length_le
    rw [List.length_cons, List.length_singleton] at hsub
    exact hlen hsub
  simp only [List.mem_cons, List.not_mem_nil, or_false, not_or] at hxab
  rcases third_sublist (sublist_of_mem_pairsOf hpair) hx hxab.1 hxab.2 with hs | hs | hs
  · exact ⟨x, a, b, a, x, hs, .inr ⟨rfl, rfl⟩, b, by simp, hpair, hd⟩
  · exact ⟨a, x, b, a, x, hs, .inl ⟨rfl, rfl⟩, b, by simp, hpair, hd⟩
  · exact ⟨a, b, x, a, b, hs, .inl ⟨rfl, rfl⟩, b, by simp, hpair, hd⟩

end ComputeIntelligence
