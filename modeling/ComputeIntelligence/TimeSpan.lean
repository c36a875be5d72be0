import Mathlib.Order.Lattice
import Mathlib.Order.MinMax
import Mathlib.Data.List.Pairwise

/-! # Half-open spans of time

A span `[start, stop)` over a linear order, with no `stop` for a span that has not
ended.  Two spans share no instant exactly when one of them ends before the other
starts, or one of them is empty (`Span.apart_iff`).  For a list of versions, each with a
key and a span, at most one version of a key contains an instant exactly when the versions
of a key are pairwise apart (`Span.atMostOne_iff_pairwise`).
-/

/-- A half-open span, without an end while it is open. -/
structure Span (τ : Type) where
  start : τ
  stop : Option τ
deriving DecidableEq

namespace Span
variable {τ : Type} [LinearOrder τ]

/-- The instants of a span. -/
def Mem (s : Span τ) (t : τ) : Prop := s.start ≤ t ∧ ∀ u ∈ s.stop, t < u

/-- The span ends no later than `t`. -/
def EndsBy (s : Span τ) (t : τ) : Prop := ∃ u ∈ s.stop, u ≤ t

/-- A span that does not end before it starts. -/
def Ordered (s : Span τ) : Prop := ∀ u ∈ s.stop, s.start ≤ u

/-- One span ends by the start of the other, or one of them is empty. -/
def Apart (a b : Span τ) : Prop :=
  a.EndsBy b.start ∨ b.EndsBy a.start ∨ a.EndsBy a.start ∨ b.EndsBy b.start

instance (s : Span τ) (t : τ) : Decidable (s.Mem t) :=
  inferInstanceAs (Decidable (_ ∧ _))

instance (s : Span τ) (t : τ) : Decidable (s.EndsBy t) :=
  match h : s.stop with
  | none => isFalse (by rintro ⟨u, hu, -⟩; rw [h] at hu; cases hu)
  | some u => decidable_of_iff (u ≤ t) ⟨fun hle => ⟨u, h, hle⟩, by
      rintro ⟨v, hv, hle⟩
      rw [h] at hv
      cases hv
      exact hle⟩

instance (s : Span τ) : Decidable s.Ordered := inferInstanceAs (Decidable (∀ u ∈ s.stop, _))

instance (a b : Span τ) : Decidable (a.Apart b) := inferInstanceAs (Decidable (_ ∨ _ ∨ _ ∨ _))

theorem not_mem_of_endsBy {s : Span τ} {t t' : τ} (h : s.EndsBy t) (ht : t ≤ t') : ¬ s.Mem t' := by
  obtain ⟨u, hu, hle⟩ := h
  intro hm
  exact absurd (hm.2 u hu) (not_lt_of_ge (hle.trans ht))

theorem lt_of_not_endsBy {s : Span τ} {t u : τ} (h : ¬ s.EndsBy t) (hu : u ∈ s.stop) : t < u :=
  lt_of_not_ge fun hle => h ⟨u, hu, hle⟩

/-- **Apart spans are the disjoint ones.** -/
theorem apart_iff {a b : Span τ} : a.Apart b ↔ ∀ t, ¬ (a.Mem t ∧ b.Mem t) := by
  constructor
  · rintro (h | h | h | h) t ⟨ha, hb⟩
    · exact not_mem_of_endsBy h hb.1 ha
    · exact not_mem_of_endsBy h ha.1 hb
    · exact not_mem_of_endsBy h ha.1 ha
    · exact not_mem_of_endsBy h hb.1 hb
  · intro h
    by_contra hn
    obtain ⟨hab, hba, haa, hbb⟩ : ¬ a.EndsBy b.start ∧ ¬ b.EndsBy a.start ∧
        ¬ a.EndsBy a.start ∧ ¬ b.EndsBy b.start := by simpa [Apart, not_or] using hn
    -- the later of the two starts belongs to both
    refine h (max a.start b.start) ⟨⟨le_max_left _ _, fun u hu => ?_⟩,
      le_max_right _ _, fun u hu => ?_⟩
    · exact max_lt (lt_of_not_endsBy haa hu) (lt_of_not_endsBy hab hu)
    · exact max_lt (lt_of_not_endsBy hba hu) (lt_of_not_endsBy hbb hu)

/-! ### Lists of versions -/

section Versions
variable {α κ : Type} [DecidableEq κ] (key : α → κ) (span : α → Span τ)

/-- At every instant, at most one version of each key. -/
def AtMostOne (l : List α) : Prop :=
  ∀ k t, (l.filter fun a => decide (key a = k) && decide ((span a).Mem t)).length ≤ 1

/-- Versions of one key never overlap. -/
def VersionsApart (l : List α) : Prop :=
  l.Pairwise fun a b => key a = key b → (span a).Apart (span b)

variable {key span}

theorem filter_eq_nil_of_apart {a : α} {l : List α}
    (h : ∀ b ∈ l, key a = key b → (span a).Apart (span b)) {t : τ} (ht : (span a).Mem t) :
    l.filter (fun b => decide (key b = key a) && decide ((span b).Mem t)) = [] := by
  refine List.filter_eq_nil_iff.mpr fun b hb hsel => ?_
  obtain ⟨hk, hm⟩ : key b = key a ∧ (span b).Mem t := by simpa using hsel
  exact apart_iff.mp (h b hb hk.symm) t ⟨ht, hm⟩

/-- **At most one version at a time, exactly when versions never overlap.** -/
theorem atMostOne_iff_pairwise {l : List α} : AtMostOne key span l ↔ VersionsApart key span l := by
  unfold VersionsApart
  induction l with
  | nil => simp [AtMostOne]
  | cons a l ih =>
    rw [List.pairwise_cons, ← ih]
    constructor
    · intro h
      refine ⟨fun b hb hk => apart_iff.mpr ?_, fun k t => ?_⟩
      · rintro t ⟨hma, hmb⟩
        have hsel : b ∈ l.filter fun c => decide (key c = key a) && decide ((span c).Mem t) :=
          List.mem_filter.mpr ⟨hb, by simp [hk, hmb]⟩
        have hlen := h (key a) t
        rw [List.filter_cons_of_pos (by simp [hma]), List.length_cons] at hlen
        have := List.length_pos_of_mem hsel
        omega
      · exact le_trans (List.Sublist.length_le (List.Sublist.filter _ (List.sublist_cons_self a l)))
          (h k t)
    · rintro ⟨hapart, hl⟩ k t
      rw [List.filter_cons]
      split
      · rename_i hsel
        obtain ⟨rfl, hma⟩ : key a = k ∧ (span a).Mem t := by simpa using hsel
        rw [filter_eq_nil_of_apart hapart hma]
        simp
      · exact hl k t

end Versions

end Span
