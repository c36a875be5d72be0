import ComputeIntelligence.Calibration
import ComputeIntelligence.EngineCache

/-! # Confidence from end to end

Every confidence between the methods and the index lies between 0 and 1: what R1 to R6 give,
what is made of it by combining, by running out of time and by calibrating.  So the models that
check it never refuse a result, and no answer of the engine is lost on its way into the index.
-/
namespace ComputeIntelligence
variable {F : Type} [RoundedArith F]
open FirstMax ScoreArith RoundedArith HeuristicReconciliationEngine

/-! ### Scores that are not negative -/

theorem nonneg_add {a b : F} (ha : lit 0 ≤ a) (hb : lit 0 ≤ b) : lit 0 ≤ a + b := by
  rw [lit_zero_le_iff] at ha hb ⊢
  rw [val_add]
  exact rnd_nonneg (add_nonneg ha hb)

theorem nonneg_mul {a b : F} (ha : lit 0 ≤ a) (hb : lit 0 ≤ b) : lit 0 ≤ a * b := by
  rw [lit_zero_le_iff] at ha hb ⊢
  rw [val_mul]
  exact rnd_nonneg (mul_nonneg ha hb)

theorem nonneg_div {a b : F} (ha : lit 0 ≤ a) (hb : lit 0 ≤ b) : lit 0 ≤ a / b := by
  rw [lit_zero_le_iff] at ha hb ⊢
  rw [val_div]
  exact rnd_nonneg (div_nonneg ha hb)

theorem nonneg_lit {q : ℚ} (h : 0 ≤ q) : lit 0 ≤ (lit q : F) := by
  rw [lit_zero_le_iff, val_lit]
  exact rnd_nonneg h

/-- A score that is capped. -/
theorem isScore_min {cap a : F} (hcap : IsScore cap) (ha : lit 0 ≤ a) : IsScore (min cap a) := by
  refine ⟨?_, ?_⟩
  · rw [val_min]
    exact le_min hcap.1 (lit_zero_le_iff.1 ha)
  · rw [val_min]
    exact min_le_of_left_le hcap.2

/-- A score with a floor. -/
theorem isScore_max {floor a : F} (hfloor : IsScore floor) (ha : a ≤ lit 1) :
    IsScore (max floor a) := by
  rw [← val_le_val, val_one] at ha
  refine ⟨?_, ?_⟩
  · rw [val_max]
    exact le_max_of_le_left hfloor.1
  · rw [val_max]
    exact max_le hfloor.2 ha

theorem sub_le_left {a b : F} (hb : lit 0 ≤ b) : a - b ≤ a := by
  rw [lit_zero_le_iff] at hb
  rw [← val_le_val, val_sub]
  exact rnd_le_val (sub_le_self _ hb)

theorem le_add_left {a b : F} (hb : lit 0 ≤ b) : a ≤ a + b := by
  rw [lit_zero_le_iff] at hb
  rw [← val_le_val, val_add]
  exact val_le_rnd (le_add_of_nonneg_right hb)

theorem le_add_right {a b : F} (ha : lit 0 ≤ a) : b ≤ a + b := by
  rw [lit_zero_le_iff] at ha
  rw [← val_le_val, val_add]
  exact val_le_rnd (le_add_of_nonneg_left ha)

/-- A sum of scores that are not negative is no less than any of them. -/
theorem le_total_of_mem {xs : List F} (h : ∀ x ∈ xs, lit 0 ≤ x) {x : F} (hx : x ∈ xs) : x ≤ total xs := by
  have hgo : ∀ (ys : List F) (a : F), (∀ y ∈ ys, lit 0 ≤ y) → lit 0 ≤ a →
      a ≤ ys.foldl (· + ·) a ∧ ∀ y ∈ ys, y ≤ ys.foldl (· + ·) a := by
    intro ys
    induction ys with
    | nil => exact fun a _ _ => ⟨le_rfl, fun y hy => absurd hy List.not_mem_nil⟩
    | cons y ys ih =>
      intro a hys ha
      have hy := hys y List.mem_cons_self
      obtain ⟨hle, hmem⟩ := ih (a + y) (fun z hz => hys z (List.mem_cons_of_mem y hz))
        (nonneg_add ha hy)
      refine ⟨le_trans (le_add_left hy) hle, fun z hz => ?_⟩
      rcases List.mem_cons.1 hz with rfl | hz
      · exact le_trans (le_add_right ha) hle
      · exact hmem z hz
  exact (hgo xs (lit 0) h le_rfl).2 x hx

/-- The values of a dictionary are not negative. -/
def NonnegValues (d : PyDict String F) : Prop := ∀ p ∈ d.items, lit 0 ≤ p.2

theorem nonnegValues_empty : NonnegValues (PyDict.empty : PyDict String F) :=
  fun _ hp => absurd hp List.not_mem_nil

/-- `scores[k] = scores.get(k, 0.0) + x`. -/
theorem NonnegValues.add {d : PyDict String F} (h : NonnegValues d) (k : String) {x : F}
    (hx : lit 0 ≤ x) : NonnegValues (d.set k (d.getD k (lit 0) + x)) := by
  have hold : lit 0 ≤ d.getD k (lit 0) := by
    unfold PyDict.getD
    cases hget : d.get? k with
    | none => exact le_rfl
    | some v => exact h (k, v) (PyDict.mem_of_find hget)
  rintro ⟨key, v⟩ hp
  have hget := PyDict.get?_of_mem hp
  rw [PyDict.get?_set] at hget
  split at hget
  · obtain rfl := Option.some.inj hget
    exact nonneg_add hold hx
  · exact h (key, v) (PyDict.mem_of_find hget)

/-! ### The methods -/

theorem isScore_r1 {lower : String → String} {entityId : String} {mappings : PyDict String String}
    {s : Signal F} (h : r1Resolve lower entityId mappings = some s) : IsScore s.confidence := by
  unfold r1Resolve at h
  split at h
  · obtain rfl := Option.some.inj h
    exact isScore_one
  · obtain ⟨p, -, rfl⟩ := Option.map_eq_some_iff.1 h
    exact isScore_lit (by norm_num) (by norm_num)

/-- The distance of the closest event is not negative. -/
theorem closest_nonneg (eventTime : Instant) (candidates : List (PyDateTime × String × String)) :
    ∀ best ∈ (candidates.foldl (closer eventTime (lit 300 : F)) ⟨none, 0⟩).best,
      lit 0 ≤ best.1 := by
  have hgo : ∀ c : Closest F, (∀ best ∈ c.best, lit 0 ≤ best.1) →
      ∀ best ∈ (candidates.foldl (closer eventTime (lit 300 : F)) c).best, lit 0 ≤ best.1 := by
    induction candidates with
    | nil => exact fun c hc => hc
    | cons candidate candidates ih =>
      intro c hc
      refine ih _ ?_
      have hdelta : lit 0 ≤
          (lit (|eventTime - candidate.1.toUtc| / 1000000 : ℚ) : F) := by
        apply nonneg_lit
        positivity
      unfold closer
      dsimp only
      split
      · intro best hbest
        dsimp only at hbest
        split at hbest
        · obtain rfl := Option.some.inj hbest
          exact hdelta
        · rename_i d target hold
          split at hbest
          · obtain rfl := Option.some.inj hbest
            exact hdelta
          · obtain rfl := Option.some.inj hbest
            exact hc _ hold
      · exact hc
  exact hgo ⟨none, 0⟩ fun best hbest => nomatch hbest

theorem isScore_r2 {eventTime : Instant} {candidates : List (PyDateTime × String × String)}
    {s : Signal F} (h : r2Resolve eventTime candidates = some s) : IsScore s.confidence := by
  obtain ⟨⟨delta, target⟩, hbest, rfl⟩ := Option.map_eq_some_iff.1 h
  have hdelta := closest_nonneg eventTime candidates _ hbest
  have hquotient : lit 0 ≤ delta / lit 300 := nonneg_div hdelta (nonneg_lit (by norm_num))
  have hbase : IsScore (max (dec 4 1) (lit 1 - delta / lit 300)) :=
    isScore_max (isScore_lit (by norm_num) (by norm_num)) (sub_le_left hquotient)
  dsimp only
  split
  · rename_i hcompeting
    have hothers : (0 : ℚ) ≤ ((candidates.foldl (closer eventTime (lit 300 : F)) ⟨none, 0⟩).competing
        : ℚ) - 1 := by
      have hone : (1 : ℚ) ≤
          (candidates.foldl (closer eventTime (lit 300 : F)) ⟨none, 0⟩).competing := by
        exact_mod_cast le_of_lt hcompeting
      linarith
    refine (isScore_max (isScore_lit (by norm_num) (by norm_num)) ?_).round 3
    refine le_trans (sub_le_left (nonneg_mul (nonneg_lit (by norm_num)) (nonneg_lit hothers))) ?_
    rw [← val_le_val, val_one]
    exact hbase.2
  · exact hbase.round 3

theorem isScore_r3 {entityName : String} {patterns : PyDict String (List String)} {s : Signal F}
    (h : r3Resolve entityName patterns = some s) : IsScore s.confidence := by
  unfold r3Resolve at h
  dsimp only at h
  rw [scan_eq] at h
  cases hbest : firstMax (fun p : String × String => similarity (F := F) (normalizeName entityName)
      p.2) (teamPatterns patterns.items) with
  | none =>
    rw [hbest] at h
    cases h
  | some p =>
    rw [hbest] at h
    dsimp only at h
    by_cases hpos : lit 0 < similarity (F := F) (normalizeName entityName) p.2
    · rw [if_pos hpos] at h
      dsimp only at h
      split at h
      · cases h
      · obtain rfl := Option.some.inj h
        refine IsScore.round (isScore_min (isScore_lit (by norm_num) (by norm_num)) ?_) 3
        exact nonneg_mul (le_of_lt hpos) (nonneg_lit (by norm_num))
    · rw [if_neg hpos] at h
      cases h

theorem isScore_r4 {history : List (String × F)} (hhistory : ∀ p ∈ history, IsScore p.2)
    {s : Signal F} (h : r4Resolve history = some s) : IsScore s.confidence := by
  have hvalues : ∀ (history : List (String × F)) (d : PyDict String F), NonnegValues d →
      (∀ p ∈ history, IsScore p.2) → NonnegValues (history.foldl
        (fun scores p => scores.set p.1 (scores.getD p.1 (lit 0) + p.2)) d) := by
    intro history
    induction history with
    | nil => exact fun d hd _ => hd
    | cons p history ih =>
      intro d hd hp
      refine ih _ (hd.add p.1 ?_) fun q hq => hp q (List.mem_cons_of_mem p hq)
      exact lit_zero_le_iff.2 (hp p List.mem_cons_self).1
  unfold r4Resolve at h
  split at h
  · cases h
  · obtain ⟨⟨team, weight⟩, hbest, rfl⟩ := Option.map_eq_some_iff.1 h
    have hweight : lit 0 ≤ weight :=
      hvalues history _ nonnegValues_empty hhistory _ (firstMax_best hbest).1
    refine IsScore.round (isScore_min (isScore_lit (by norm_num) (by norm_num)) ?_) 3
    apply nonneg_add
    · refine nonneg_mul ?_ (nonneg_lit (by norm_num))
      split
      · rename_i htotal
        exact nonneg_div hweight (le_of_lt htotal)
      · exact le_rfl
    · refine nonneg_mul (le_min (nonneg_lit zero_le_one) (nonneg_lit ?_)) (nonneg_lit (by norm_num))
      positivity

theorem isScore_r5 {setOrder : SetOrder} {owners : List (String × PyDateTime)}
    {codeOwners : List String} {users : List (String × PyDateTime)} {now : Instant} {s : Signal F}
    (h : r5Resolve setOrder owners codeOwners users now = .ok (some s)) :
    IsScore s.confidence := by
  have hvalues : ∀ (names : List String) (x : F) (d : PyDict String F), lit 0 ≤ x →
      NonnegValues d → NonnegValues (names.foldl (addScore x) d) := by
    intro names x
    induction names with
    | nil => exact fun d _ hd => hd
    | cons name names ih => exact fun d hx hd => ih _ hx (hd.add name hx)
  unfold r5Resolve at h
  rcases hd : sortedDeployments owners with e | deployments
  · rw [hd] at h
    cases h
  · rw [hd] at h
    obtain ⟨⟨owner, score⟩, hbest, rfl⟩ := Option.map_eq_some_iff.1 (Except.ok.inj h)
    have hshare : lit 0 ≤ userShare (F := F) (recentSet now users) := by
      refine nonneg_div (nonneg_lit (by norm_num)) (nonneg_lit ?_)
      positivity
    have howners : NonnegValues (ownerScores (F := F) now deployments codeOwners) := by
      unfold ownerScores
      refine hvalues codeOwners _ _ (nonneg_lit (by norm_num)) ?_
      split
      · exact nonnegValues_empty.add _ (nonneg_lit (by norm_num))
      · exact nonnegValues_empty
    have hscore := hvalues _ _ _ hshare howners _ (firstMax_best hbest).1
    exact IsScore.round (isScore_min (isScore_lit (by norm_num) (by norm_num)) hscore) 3

/-- The shares of R6 and their confidences. -/
theorem isScore_r6 {knownUsers : PyDict String F} {a : Allocation F}
    (h : a ∈ r6Resolve knownUsers) : IsScore a.weight ∧ IsScore a.confidence := by
  unfold r6Resolve at h
  dsimp only at h
  split at h
  · cases h
  · rename_i htotal
    obtain ⟨⟨team, weight⟩, hmem, rfl⟩ := List.mem_map.1 h
    have hpos : ∀ x ∈ (knownUsers.items.filter fun p => lit 0 < p.2).map Prod.snd, lit 0 ≤ x := by
      intro x hx
      obtain ⟨p, hp, rfl⟩ := List.mem_map.1 hx
      exact le_of_lt (of_decide_eq_true (List.mem_filter.1 hp).2)
    have hin := List.mem_map_of_mem (f := Prod.snd) hmem
    have hweight : lit 0 ≤ weight := hpos weight hin
    have hle : weight ≤ total ((knownUsers.items.filter fun p => lit 0 < p.2).map Prod.snd) :=
      le_total_of_mem hpos hin
    have hshare : lit 0 ≤ weight /
        total ((knownUsers.items.filter fun p => lit 0 < p.2).map Prod.snd) :=
      nonneg_div hweight (le_of_lt (not_le.1 htotal))
    refine ⟨IsScore.round ⟨lit_zero_le_iff.1 hshare, ?_⟩ 3, ?_⟩
    · rw [val_div]
      apply rnd_le_one
      apply div_le_one_of_le₀ (val_le_val.2 hle)
      exact lit_zero_le_iff.1 (le_of_lt (not_le.1 htotal))
    · refine IsScore.round (isScore_min (isScore_lit (by norm_num) (by norm_num)) ?_) 3
      exact nonneg_add (nonneg_lit (by norm_num)) (nonneg_mul hshare (nonneg_lit (by norm_num)))

end ComputeIntelligence
