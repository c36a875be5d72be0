import ComputeIntelligence.HashOrder
import ComputeIntelligence.ScoreBounds

/-! # What a naming match rests on

R3 compares normalized names, in which every delimiter is a blank.  Two names that have no
letter and no digit in common contain neither one another nor a common token, so nothing is
added to the ratio of their sequences; but the blanks between the letters are matched as
characters, and two names of delimiters alone are equal once they are normalized.
-/
namespace PyText

/-- The pieces of a split list are made of elements that do not separate. -/
theorem mem_of_mem_splitOnP {α : Type} {p : α → Bool} {xs w : List α} (hw : w ∈ xs.splitOnP p)
    {c : α} (hc : c ∈ w) : c ∈ xs ∧ p c = false := by
  induction xs generalizing w with
  | nil =>
    rw [List.splitOnP_nil, List.mem_singleton] at hw
    rw [hw] at hc
    exact absurd hc List.not_mem_nil
  | cons x xs ih =>
    rw [List.splitOnP_cons_eq_if_modifyHead] at hw
    split at hw
    · rcases List.mem_cons.1 hw with rfl | hw
      · exact absurd hc List.not_mem_nil
      · obtain ⟨hmem, hp⟩ := ih hw hc
        exact ⟨List.mem_cons_of_mem x hmem, hp⟩
    · rename_i hx
      cases hrest : xs.splitOnP p with
      | nil =>
        rw [hrest] at hw
        exact absurd hw List.not_mem_nil
      | cons v rest =>
        rw [hrest] at hw ih
        rcases List.mem_cons.1 hw with rfl | hw
        · rcases List.mem_cons.1 hc with rfl | hc
          · exact ⟨List.mem_cons_self, Bool.eq_false_iff.2 hx⟩
          · obtain ⟨hmem, hp⟩ := ih List.mem_cons_self hc
            exact ⟨List.mem_cons_of_mem x hmem, hp⟩
        · obtain ⟨hmem, hp⟩ := ih (List.mem_cons_of_mem v hw) hc
          exact ⟨List.mem_cons_of_mem x hmem, hp⟩

/-- A word has a character, and each is a character of the text. -/
theorem exists_mem_of_mem_words {s w : String} (h : w ∈ words s) :
    ∃ c ∈ w.toList, c ∈ s.toList ∧ isSpace c = false := by
  obtain ⟨cs, hcs, rfl⟩ := List.mem_map.1 h
  obtain ⟨hpiece, hne⟩ := List.mem_filter.1 hcs
  obtain ⟨c, hc⟩ := List.exists_mem_of_ne_nil cs (of_decide_eq_true hne)
  refine ⟨c, ?_, mem_of_mem_splitOnP hpiece hc⟩
  rw [String.toList_ofList]
  exact hc

/-- What contains a text has its characters. -/
theorem mem_of_contains {pat s : String} (h : contains pat s = true) {c : Char}
    (hc : c ∈ pat.toList) : c ∈ s.toList := by
  obtain ⟨tail, htail, hprefix⟩ := List.any_eq_true.1 h
  have hmem := (List.isPrefixOf_iff_prefix.1 hprefix).subset hc
  exact ((List.mem_tails _ _).1 htail).subset hmem

/-- The characters of a stripped text, the first of which is no blank. -/
theorem mem_of_mem_strip {s : String} {c : Char} (h : c ∈ (strip s).toList) : c ∈ s.toList := by
  unfold strip at h
  rw [String.toList_ofList, List.mem_reverse] at h
  have h := (List.dropWhile_sublist _).subset h
  rw [List.mem_reverse] at h
  exact (List.dropWhile_sublist _).subset h

theorem exists_mem_strip {s : String} (h : strip s ≠ "") :
    ∃ c ∈ (strip s).toList, isSpace c = false := by
  unfold strip at h ⊢
  rw [String.toList_ofList]
  cases hback : (s.toList.dropWhile isSpace).reverse.dropWhile isSpace with
  | nil =>
    rw [hback] at h
    exact absurd rfl h
  | cons c rest =>
    have hne : (s.toList.dropWhile isSpace).reverse.dropWhile isSpace ≠ [] := by
      rw [hback]
      exact List.cons_ne_nil c rest
    have hhead := List.head_dropWhile_not isSpace hne
    simp only [hback, List.head_cons] at hhead
    exact ⟨c, List.mem_reverse.2 List.mem_cons_self, hhead⟩

end PyText

namespace SequenceMatcher
variable {α : Type} [DecidableEq α] {junk : α → Bool}

/-- A row of an element that the other sequence does not have. -/
theorem nextRow_of_not_mem {x : α} {ys : List α} (h : x ∉ ys) (diag : Nat) (row : List Nat) :
    ∀ k ∈ nextRow junk x diag row ys, k = 0 := by
  induction ys generalizing diag row with
  | nil =>
    intro k hk
    cases row with
    | nil => exact absurd hk List.not_mem_nil
    | cons _ _ => exact absurd hk List.not_mem_nil
  | cons y ys ih =>
    intro k hk
    rw [List.mem_cons, not_or] at h
    cases row with
    | nil => exact absurd hk List.not_mem_nil
    | cons up row =>
      rw [nextRow, if_neg fun heq => h.1 heq.1] at hk
      rcases List.mem_cons.1 hk with rfl | hk
      · rfl
      · exact ih h.2 up row k hk

theorem improve_of_zeros {row : List Nat} (h : ∀ k ∈ row, k = 0) (i : Nat) (best : Block) :
    improve i best row = best := by
  have hzip : ∀ kj ∈ row.zipIdx, kj.1 = 0 := fun kj hkj => h kj.1 (List.fst_mem_of_mem_zipIdx hkj)
  unfold improve
  revert hzip
  generalize row.zipIdx = entries
  intro hzip
  induction entries with
  | nil => rfl
  | cons kj entries ih =>
    have hstep : ¬best.size < kj.1 := by
      rw [hzip kj List.mem_cons_self]
      exact Nat.not_lt_zero _
    rw [List.foldl_cons]
    dsimp only
    rw [if_neg hstep]
    exact ih fun entry hentry => hzip entry (List.mem_cons_of_mem kj hentry)

/-- Sequences without a common element have no block in common. -/
theorem matched_of_disjoint {xs ys : List α} (h : ∀ x ∈ xs, x ∉ ys) (fuel : Nat) :
    matched junk fuel xs ys = 0 := by
  have hrows : ∀ (zs : List α), (∀ z ∈ zs, z ∉ ys) → ∀ (i : Nat) (row : List Nat) (best : Block),
      scanRows junk ys i zs row best = best := by
    intro zs
    induction zs with
    | nil => exact fun _ _ _ _ => rfl
    | cons z zs ih =>
      intro hzs i row best
      rw [scanRows, improve_of_zeros (nextRow_of_not_mem (hzs z List.mem_cons_self) 0 row)]
      exact ih (fun w hw => hzs w (List.mem_cons_of_mem z hw)) _ _ _
  have hprefix : commonPrefix xs ys = 0 := by
    cases xs with
    | nil => rfl
    | cons x xs =>
      cases ys with
      | nil => rfl
      | cons y ys =>
        rw [commonPrefix]
        refine if_neg fun heq => ?_
        exact h x List.mem_cons_self (by rw [heq]; exact List.mem_cons_self)
  have hblock : (findLongestMatch junk xs ys).size = 0 := by
    unfold findLongestMatch
    rw [hrows xs h]
    dsimp only [extendLeft]
    rw [Nat.add_zero, List.drop_zero, List.drop_zero, hprefix]
  cases fuel with
  | zero => rfl
  | succ fuel =>
    rw [matched]
    exact if_pos hblock

end SequenceMatcher

namespace ComputeIntelligence
open FirstMax ScoreArith

/-- `[a-z0-9]`. -/
abbrev IsKept (c : Char) : Prop := ('a' ≤ c ∧ c ≤ 'z') ∨ ('0' ≤ c ∧ c ≤ '9')

/-- Two names have a letter or a digit in common once they are normalized. -/
def SharesCharacter (name pattern : String) : Prop :=
  ∃ c ∈ (normalizeName name).toList, IsKept c ∧ c ∈ (normalizeName pattern).toList

instance (name pattern : String) : Decidable (SharesCharacter name pattern) :=
  List.decidableBEx (fun c => IsKept c ∧ c ∈ (normalizeName pattern).toList) _

theorem isKept_or_blank {name : String} {c : Char} (h : c ∈ (normalizeName name).toList) :
    IsKept c ∨ c = ' ' := by
  have hmem := PyText.mem_of_mem_strip h
  rw [String.toList_ofList] at hmem
  obtain ⟨d, -, rfl⟩ := List.mem_map.1 hmem
  split
  · rename_i hkept
    exact .inl hkept
  · exact .inr rfl

theorem isKept_of_mem_normalizeName {name : String} {c : Char}
    (h : c ∈ (normalizeName name).toList) (hc : PyText.isSpace c = false) : IsKept c := by
  rcases isKept_or_blank h with hkept | rfl
  · exact hkept
  · exact absurd hc (by decide)

/-- A normalized name that is not empty has a letter or a digit. -/
theorem exists_kept {name : String} (h : normalizeName name ≠ "") :
    ∃ c ∈ (normalizeName name).toList, IsKept c := by
  obtain ⟨c, hc, hspace⟩ := PyText.exists_mem_strip h
  exact ⟨c, hc, isKept_of_mem_normalizeName hc hspace⟩

/-! ### Names with nothing in common -/

section
variable {F : Type} [ScoreArith F] {name pattern : String}

theorem tokenOverlap_of_not_shares (h : ¬SharesCharacter name pattern) :
    tokenOverlap (F := F) (normalizeName name) (normalizeName pattern) = lit 0 := by
  have hnone : (PyText.words (normalizeName name)).dedup.filter
      (· ∈ (PyText.words (normalizeName pattern)).dedup) = [] := by
    rw [List.filter_eq_nil_iff]
    intro w hw hcommon
    obtain ⟨c, hcw, hc, hspace⟩ := PyText.exists_mem_of_mem_words (List.mem_dedup.1 hw)
    obtain ⟨cs, hcs, rfl⟩ := List.mem_map.1 (List.mem_dedup.1 (of_decide_eq_true hcommon))
    rw [String.toList_ofList] at hcw
    have hpattern := PyText.mem_of_mem_splitOnP (List.mem_filter.1 hcs).1 hcw
    exact h ⟨c, hc, isKept_of_mem_normalizeName hc hspace, hpattern.1⟩
  unfold tokenOverlap
  dsimp only
  split
  · rfl
  · rw [hnone, List.length_nil, Nat.cast_zero, zero_div]

theorem not_contains_of_not_shares (h : ¬SharesCharacter name pattern)
    (hname : normalizeName name ≠ "") (hpattern : normalizeName pattern ≠ "") :
    (PyText.contains (normalizeName pattern) (normalizeName name) ||
      PyText.contains (normalizeName name) (normalizeName pattern)) = false := by
  rw [Bool.or_eq_false_iff]
  constructor
  · rw [Bool.eq_false_iff]
    intro hcontains
    obtain ⟨c, hc, hkept⟩ := exists_kept hpattern
    exact h ⟨c, PyText.mem_of_contains hcontains hc, hkept, hc⟩
  · rw [Bool.eq_false_iff]
    intro hcontains
    obtain ⟨c, hc, hkept⟩ := exists_kept hname
    exact h ⟨c, hc, hkept, PyText.mem_of_contains hcontains hc⟩

end

section
variable {F : Type} [RoundedArith F] {name pattern : String}
open RoundedArith

/-- The ratio of the two normalized names. -/
def nameRatio (name pattern : String) : ℚ :=
  SequenceMatcher.ratio (normalizeName name).toList (normalizeName pattern).toList

theorem length_eq_zero_iff {s : String} : s.toList.length = 0 ↔ s = "" := by
  rw [List.length_eq_zero_iff, String.toList_eq_nil_iff]

theorem nameRatio_of_empty (hname : normalizeName name = "") (hpattern : normalizeName pattern = "") :
    nameRatio name pattern = 1 := by
  unfold nameRatio SequenceMatcher.ratio
  rw [hname, hpattern]
  rfl

/-- Names without a common character are not alike, unless both are empty. -/
theorem nameRatio_of_disjoint (hempty : ¬(normalizeName name = "" ∧ normalizeName pattern = ""))
    (h : ∀ c ∈ (normalizeName name).toList, c ∉ (normalizeName pattern).toList) :
    nameRatio name pattern = 0 := by
  have hlen : ¬(normalizeName name).toList.length + (normalizeName pattern).toList.length = 0 := by
    rw [Nat.add_eq_zero_iff, length_eq_zero_iff, length_eq_zero_iff]
    exact hempty
  unfold nameRatio SequenceMatcher.ratio
  rw [if_neg hlen, SequenceMatcher.matched_of_disjoint h, Nat.cast_zero, mul_zero, zero_div]

/-- An empty name is like no other. -/
theorem nameRatio_of_one_empty (h : ¬(normalizeName name = "" ↔ normalizeName pattern = "")) :
    nameRatio name pattern = 0 := by
  apply nameRatio_of_disjoint
  · exact fun hboth => h ⟨fun _ => hboth.2, fun _ => hboth.1⟩
  · intro c hname hpattern
    refine h ⟨fun hempty => ?_, fun hempty => ?_⟩
    · rw [hempty] at hname
      exact absurd hname List.not_mem_nil
    · rw [hempty] at hpattern
      exact absurd hpattern List.not_mem_nil

theorem val_forty : (3 : ℚ) / 8 ≤ val (dec 4 1 : F) ∧ val (dec 4 1 : F) ≤ 1 := by
  constructor
  · have hdyadic := rnd_dyadic (F := F) (k := 3) (n := 3) (by norm_num) (by norm_num)
    rw [val_lit]
    calc (3 : ℚ) / 8 = rnd F (3 / 8) := by
          norm_num at hdyadic
          exact hdyadic.symm
      _ ≤ rnd F ((4 : Int) / 10 ^ 1 : ℚ) := rnd_mono (by norm_num)
  · rw [val_lit]
    exact rnd_le_one (by norm_num)

/-- Between names with nothing in common only the ratio counts. -/
theorem similarity_of_not_shares (h : ¬SharesCharacter name pattern) :
    (dec 4 1 : F) ≤ similarity (normalizeName name) pattern ↔
      (dec 4 1 : F) ≤ lit (nameRatio name pattern) := by
  obtain ⟨hlow, hhigh⟩ := val_forty (F := F)
  have hsum : ∀ x : F, x + lit 0 * dec 1 1 = x := by
    intro x
    rw [← val_inj, val_add, val_mul, val_zero, zero_mul, rnd_zero, add_zero, rnd_val]
  have hmin : ∀ x : F, (dec 4 1 : F) ≤ min (lit 1) x ↔ (dec 4 1 : F) ≤ x := by
    intro x
    rw [le_min_iff, ← val_le_val, val_one]
    exact and_iff_right hhigh
  unfold similarity
  dsimp only
  rw [tokenOverlap_of_not_shares h, hsum, hmin]
  change (dec 4 1 : F) ≤ (if _ then min (lit 1) (lit (nameRatio name pattern) + dec 15 2)
    else lit (nameRatio name pattern)) ↔ _
  split
  · rename_i hcontains
    rw [hmin]
    by_cases hboth : normalizeName name = "" ↔ normalizeName pattern = ""
    · by_cases hname : normalizeName name = ""
      · -- two empty names are equal, with or without the bonus
        have hbonus : 0 ≤ val (dec 15 2 : F) := by
          rw [val_lit]
          exact rnd_nonneg (by norm_num)
        rw [nameRatio_of_empty hname (hboth.1 hname), ← val_le_val (F := F), ← val_le_val (F := F),
          val_add, val_one]
        refine ⟨fun _ => hhigh, fun _ => le_trans hhigh ?_⟩
        rw [← rnd_one F]
        exact rnd_mono (by linarith [rnd_one F])
      · rw [not_contains_of_not_shares h hname fun hempty => hname (hboth.2 hempty)] at hcontains
        exact absurd hcontains Bool.false_ne_true
    · -- the bonus alone is not enough
      have hbonus : val (dec 15 2 : F) ≤ 1 / 4 := by
        have hquarter := rnd_inverse_pow (F := F) (n := 2) (by norm_num)
        rw [val_lit]
        calc rnd F ((15 : Int) / 10 ^ 2 : ℚ) ≤ rnd F (1 / 2 ^ 2) := rnd_mono (by norm_num)
          _ = 1 / 4 := by rw [hquarter]; norm_num
      rw [nameRatio_of_one_empty hboth, ← val_le_val (F := F), ← val_le_val (F := F), val_add,
        val_zero, zero_add, rnd_val]
      constructor
      · intro hle
        linarith
      · intro hle
        linarith
  · rfl

end

/-! ### The matched pattern -/

/-- `R3NamingConvention.resolve` with the `matched_pattern` of the signal's features. -/
def r3Matched (F : Type) [ScoreArith F] (entityName : String)
    (patterns : PyDict String (List String)) : Option (Signal F × String) :=
  let normalized := normalizeName entityName
  match scan (fun p => similarity (F := F) normalized p.2) (lit 0) (teamPatterns patterns.items) with
  | (_, none) => none
  | (bestScore, some (team, pattern)) =>
      if bestScore < dec 4 1 then none
      else some (⟨"R3", team, round 3 (min (dec 9 1) (bestScore * dec 9 1))⟩, pattern)

theorem r3Resolve_eq_map {F : Type} [ScoreArith F] (entityName : String)
    (patterns : PyDict String (List String)) :
    r3Resolve (F := F) entityName patterns = (r3Matched F entityName patterns).map Prod.fst := by
  unfold r3Resolve r3Matched
  dsimp only
  generalize scan (fun p => similarity (F := F) (normalizeName entityName) p.2) (lit 0)
    (teamPatterns patterns.items) = found
  obtain ⟨bestScore, - | ⟨team, pattern⟩⟩ := found
  · rfl
  · dsimp only
    split
    · rfl
    · rfl

section
variable (F : Type) [RoundedArith F] (entityName : String) (patterns : PyDict String (List String))
open RoundedArith

/-- The signal of R3, if there is one, rests on a letter or a digit. -/
def RestsOnCharacter : Prop :=
  ∀ s pattern, r3Matched F entityName patterns = some (s, pattern) →
    SharesCharacter entityName pattern

/-- A pattern without a letter or a digit of the name has enough blanks in common with it. -/
def BlankMatch (pattern : String) : Prop :=
  ¬SharesCharacter entityName pattern ∧ (dec 4 1 : F) ≤ lit (nameRatio entityName pattern)

variable {F entityName} in
/-- Without a blank there is no blank match. -/
theorem not_blankMatch_of_no_blank {pattern : String} (hname : normalizeName entityName ≠ "")
    (h : ' ' ∉ (normalizeName entityName).toList) : ¬BlankMatch F entityName pattern := by
  rintro ⟨hshares, hratio⟩
  have hzero : nameRatio entityName pattern = 0 := by
    apply nameRatio_of_disjoint (fun hboth => hname hboth.1)
    intro c hc hpattern
    rcases isKept_or_blank hc with hkept | rfl
    · exact hshares ⟨c, hc, hkept, hpattern⟩
    · exact h hc
  rw [hzero, ← val_le_val, val_zero] at hratio
  linarith [(val_forty (F := F)).1]

/-- Every blank match is outdone, by a pattern before it that is as similar to the name or by
one after it that is more similar. -/
def BlanksOutdone : Prop :=
  ∀ before p after, teamPatterns patterns.items = before ++ p :: after → BlankMatch F entityName p.2 →
    (∃ q ∈ before, patternScore (F := F) entityName p ≤ patternScore entityName q) ∨
      ∃ q ∈ after, patternScore (F := F) entityName p < patternScore entityName q

variable {F entityName patterns}

/-- The matched pattern is the first of the most similar, if it is similar enough. -/
theorem r3Matched_eq_some_iff {pattern : String} :
    (∃ s, r3Matched F entityName patterns = some (s, pattern)) ↔
      ∃ p, p.2 = pattern ∧
        firstMax (patternScore (F := F) entityName) (teamPatterns patterns.items) = some p ∧
          (dec 4 1 : F) ≤ patternScore entityName p := by
  have hscan : scan (fun p => similarity (F := F) (normalizeName entityName) p.2) (lit 0)
      (teamPatterns patterns.items) = _ :=
    @scan_eq _ _ _ (patternScore (F := F) entityName) _ (lit 0)
  have hzero : (lit 0 : F) < dec 4 1 := by
    rw [← val_lt_val, val_zero]
    linarith [(val_forty (F := F)).1]
  unfold r3Matched
  dsimp only
  rw [hscan]
  cases firstMax (patternScore (F := F) entityName) (teamPatterns patterns.items) with
  | none =>
    constructor
    · rintro ⟨s, hs⟩
      cases hs
    · rintro ⟨p, -, hp, -⟩
      cases hp
  | some p =>
    by_cases hmin : patternScore entityName p < (dec 4 1 : F)
    · -- too little for a signal, whether the loop keeps it or not
      constructor
      · rintro ⟨s, hs⟩
        dsimp only at hs
        split at hs
        · cases hs
        · rename_i hfound
          split at hfound
          · obtain ⟨rfl, -⟩ := Prod.mk.inj hfound
            rw [if_pos hmin] at hs
            cases hs
          · cases (Prod.mk.inj hfound).2
      · rintro ⟨q, -, hq, hle⟩
        obtain rfl := Option.some.inj hq
        exact absurd hmin (not_lt.2 hle)
    · have hpos : (lit 0 : F) < patternScore entityName p := lt_of_lt_of_le hzero (not_lt.1 hmin)
      dsimp only
      rw [if_pos hpos]
      dsimp only
      rw [if_neg hmin]
      constructor
      · rintro ⟨s, hs⟩
        exact ⟨p, (Prod.mk.inj (Option.some.inj hs)).2, rfl, not_lt.1 hmin⟩
      · rintro ⟨q, hpattern, hq, -⟩
        obtain rfl := Option.some.inj hq
        exact ⟨_, by rw [hpattern]⟩

/-- A naming match rests on a letter or a digit exactly when every pattern that reaches the
threshold on blanks alone is outdone by another. -/
theorem restsOnCharacter_iff :
    RestsOnCharacter F entityName patterns ↔ BlanksOutdone F entityName patterns := by
  constructor
  · intro h before p after hsplit hblank
    by_contra hnot
    have hfirst : firstMax (patternScore (F := F) entityName) (teamPatterns patterns.items) =
        some p := by
      refine firstMax_eq_some_iff.2 ⟨before, after, hsplit, fun q hq => ?_, fun q hq => ?_⟩
      · exact not_le.1 fun hle => hnot (.inl ⟨q, hq, hle⟩)
      · exact not_lt.1 fun hlt => hnot (.inr ⟨q, hq, hlt⟩)
    obtain ⟨s, hs⟩ := r3Matched_eq_some_iff.2
      ⟨p, rfl, hfirst, (similarity_of_not_shares hblank.1).2 hblank.2⟩
    exact hblank.1 (h s p.2 hs)
  · intro h s pattern hs
    by_contra hshares
    obtain ⟨p, rfl, hfirst, hmin⟩ := r3Matched_eq_some_iff.1 ⟨s, hs⟩
    obtain ⟨before, after, hsplit, hbefore, hafter⟩ := firstMax_eq_some_iff.1 hfirst
    rcases h before p after hsplit ⟨hshares, (similarity_of_not_shares hshares).1 hmin⟩ with
      ⟨q, hq, hle⟩ | ⟨q, hq, hlt⟩
    · exact absurd (hbefore q hq) (not_lt.2 hle)
    · exact absurd (hafter q hq) (not_le.2 hlt)

end

/-- A team with a pattern of three letters. -/
def spacedPatterns : PyDict String (List String) := ⟨[("team-x", ["x-y-z"])], by decide⟩

/-- A team with a pattern of delimiters. -/
def blankPatterns : PyDict String (List String) := ⟨[("team-blank", ["___"])], by decide⟩

/-- Two blanks in common are enough for a match, and so is having nothing but delimiters. -/
theorem matches_on_blanks :
    ¬RestsOnCharacter Binary64 "a-b-c" spacedPatterns ∧
      ¬RestsOnCharacter Binary64 "---" blankPatterns := by
  have hspaced : (r3Matched Binary64 "a-b-c" spacedPatterns).map Prod.snd = some "x-y-z" := by
    decide +kernel
  have hblank : (r3Matched Binary64 "---" blankPatterns).map Prod.snd = some "___" := by
    decide +kernel
  constructor
  · intro h
    obtain ⟨⟨s, pattern⟩, hmatched, rfl⟩ := Option.map_eq_some_iff.1 hspaced
    exact absurd (h s "x-y-z" hmatched) (by decide +kernel)
  · intro h
    obtain ⟨⟨s, pattern⟩, hmatched, rfl⟩ := Option.map_eq_some_iff.1 hblank
    exact absurd (h s "___" hmatched) (by decide +kernel)

end ComputeIntelligence
