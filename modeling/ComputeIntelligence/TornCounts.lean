import ComputeIntelligence.GuardedRuns
import Mathlib.Algebra.BigOperators.Group.List.Basic
import Mathlib.Algebra.Order.BigOperators.Group.List
import Mathlib.Algebra.Order.Ring.Nat
import Mathlib.Algebra.Group.Nat.Hom
import Mathlib.Data.List.Count
import Mathlib.Data.List.Nodup

/-! # Counting cells that change meanwhile

Cells are counted in several passes: each pass reads every cell once, and takes those that it
accepts.  The passes that count together accept each value at most once, so a cell at rest is
counted by one of them.  A cell that is written while the passes go on may be counted by none, or
by several.

What goes wrong is no more than what is written: with `w` writes between the reads, the passes
together count at most `w` too many and at most `w` too few (`count_bounds`); without a write, they
count what is there (`taken_of_untouched`).
-/
namespace TornCount
variable {S α κ ν π : Type}

/-- Cells in a shared state, and the writes to them: a write changes at most the cell it is to. -/
structure Cells (S α κ ν : Type) where
  look : S → κ → ν
  write : S → α → S
  target : S → α → Option κ
  frame : ∀ s a k, target s a ≠ some k → look (write s a) k = look s k

/-- Passes under way: the reads to come, what was taken, and the cells written while reads
remained. -/
structure Scan (S κ ν π : Type) where
  shared : S
  todo : List (π × κ)
  taken : List (π × κ × ν) := []
  touched : List κ := []

/-- Somebody writes, or the next read is made. -/
inductive Step (α : Type) where
  | write (a : α)
  | read

section
variable (cells : Cells S α κ ν) (accepts : π → ν → Bool)

/-- What a read takes. -/
def take (s : S) (r : π × κ) : List (π × κ × ν) :=
  if accepts r.1 (cells.look s r.2) then [(r.1, r.2, cells.look s r.2)] else []

def step (s : Scan S κ ν π) : Step α → Scan S κ ν π
  | .write a =>
      { s with
        shared := cells.write s.shared a
        touched := s.touched ++ match s.todo with
          | [] => []
          | _ => (cells.target s.shared a).toList }
  | .read => match s.todo with
      | [] => s
      | r :: todo => { s with todo, taken := s.taken ++ take cells accepts s.shared r }

end

variable {cells : Cells S α κ ν} {accepts : π → ν → Bool}

/-! ### Passes without a write -/

/-- As long as no cell is written, the reads are those of one state. -/
structure Undisturbed (cells : Cells S α κ ν) (accepts : π → ν → Bool) (start : S)
    (reads : List (π × κ)) (s : Scan S κ ν π) : Prop where
  read : ∃ made, reads = made ++ s.todo ∧ s.taken = made.flatMap (take cells accepts start)
  same : s.todo ≠ [] → ∀ k, cells.look s.shared k = cells.look start k

theorem Undisturbed.step {start : S} {reads : List (π × κ)} {s : Scan S κ ν π} {a : Step α}
    (h : Undisturbed cells accepts start reads s)
    (hquiet : (step cells accepts s a).touched = []) :
    Undisturbed cells accepts start reads (TornCount.step cells accepts s a) := by
  obtain ⟨made, hreads, htaken⟩ := h.read
  cases a with
  | write a =>
    refine ⟨⟨made, hreads, htaken⟩, fun hne k => ?_⟩
    obtain ⟨r, todo, htodo⟩ := List.exists_cons_of_ne_nil hne
    have htodo' : s.todo = r :: todo := htodo
    rw [TornCount.step, htodo'] at hquiet
    have hnone : cells.target s.shared a = none := by
      have htail := (List.append_eq_nil_iff.1 hquiet).2
      cases htarget : cells.target s.shared a with
      | none => rfl
      | some k => rw [htarget] at htail; cases htail
    exact (cells.frame s.shared a k (by rw [hnone]; exact nofun)).trans
      (h.same (by rw [htodo']; exact nofun) k)
  | read =>
    rw [TornCount.step]
    match htodo : s.todo with
    | [] => exact h
    | r :: todo =>
      have hlook := h.same (by rw [htodo]; exact nofun)
      refine ⟨⟨made ++ [r], by rw [hreads, htodo]; simp, ?_⟩, fun _ => hlook⟩
      rw [List.flatMap_append, List.flatMap_singleton]
      exact congrArg₂ (· ++ ·) htaken (by rw [take, take, hlook r.2])

theorem touched_eq_nil_of_step {s : Scan S κ ν π} {a : Step α}
    (h : (step cells accepts s a).touched = []) : s.touched = [] := by
  cases a with
  | write a => exact (List.append_eq_nil_iff.1 h).1
  | read =>
    rw [step] at h
    match htodo : s.todo with
    | [] => rw [htodo] at h; exact h
    | r :: todo => rw [htodo] at h; exact h

/-- **Passes that no write disturbs** take what one state shows. -/
theorem taken_of_untouched {start : S} {reads : List (π × κ)} {steps : List (Step α)}
    (hquiet : (Run.exec (step cells accepts) ⟨start, reads, [], []⟩ steps).touched = [])
    (hdone : (Run.exec (step cells accepts) ⟨start, reads, [], []⟩ steps).todo = []) :
    (Run.exec (step cells accepts) ⟨start, reads, [], []⟩ steps).taken =
      reads.flatMap (take cells accepts start) := by
  have hall : Undisturbed cells accepts start reads
      (Run.exec (step cells accepts) ⟨start, reads, [], []⟩ steps) := by
    clear hdone
    induction steps using List.reverseRecOn with
    | nil => exact ⟨⟨[], rfl, rfl⟩, fun _ _ => rfl⟩
    | append_singleton steps a ih =>
      rw [Run.exec_concat] at hquiet ⊢
      exact (ih (touched_eq_nil_of_step hquiet)).step hquiet
  obtain ⟨made, hreads, htaken⟩ := hall.read
  rw [hdone, List.append_nil] at hreads
  rw [htaken, hreads]

/-- The reads of several passes over the same cells. -/
def reads (passes : List π) (keys : List κ) : List (π × κ) :=
  passes.flatMap fun p => keys.map fun k => (p, k)

/-- What one of the passes took, where no write disturbs them. -/
theorem pass_of_untouched [DecidableEq π] {start : S} {passes : List π} {keys : List κ}
    {steps : List (Step α)} {s : Scan S κ ν π}
    (hs : Run.exec (step cells accepts) ⟨start, reads passes keys, [], []⟩ steps = s)
    (hquiet : s.touched = []) (hdone : s.todo = []) (hnodup : passes.Nodup) {q : π}
    (hq : q ∈ passes) :
    s.taken.filter (fun t => t.1 = q) =
      (keys.map fun k => (q, k)).flatMap (take cells accepts start) := by
  subst hs
  rw [taken_of_untouched hquiet hdone, reads, List.flatMap_assoc]
  have htag : ∀ p, ∀ t ∈ (keys.map fun k => (p, k)).flatMap (take cells accepts start),
      t.1 = p := by
    intro p t ht
    obtain ⟨r, hr, htaken⟩ := List.mem_flatMap.1 ht
    obtain ⟨k, _, rfl⟩ := List.mem_map.1 hr
    rw [take] at htaken
    split at htaken
    · rw [List.mem_singleton.1 htaken]
    · exact absurd htaken List.not_mem_nil
  clear hquiet hdone
  induction passes with
  | nil => exact absurd hq List.not_mem_nil
  | cons p passes ih =>
    obtain ⟨hfresh, hrest⟩ := List.nodup_cons.1 hnodup
    rw [List.flatMap_cons, List.filter_append]
    by_cases hp : p = q
    · -- the other passes take nothing under this one's name
      subst hp
      rw [List.filter_eq_self.2 fun t ht => decide_eq_true (htag p t ht),
        List.filter_eq_nil_iff.2 fun t ht => ?_, List.append_nil]
      obtain ⟨p', hp', hmem⟩ := List.mem_flatMap.1 ht
      rw [decide_eq_true_eq, htag p' t hmem]
      exact fun he => hfresh (he ▸ hp')
    · rw [List.filter_eq_nil_iff.2 fun t ht => by
        rw [decide_eq_true_eq, htag p t ht]
        exact hp, List.nil_append]
      exact ih hrest ((List.mem_cons.1 hq).resolve_left (Ne.symm hp))

/-- What was taken is of the keys that were to be read. -/
theorem taken_known {keys : List κ} {start : S} {reads : List (π × κ)}
    (hknown : ∀ r ∈ reads, r.2 ∈ keys) (steps : List (Step α)) :
    ∀ t ∈ (Run.exec (step cells accepts) ⟨start, reads, [], []⟩ steps).taken, t.2.1 ∈ keys := by
  have hall : ∀ s : Scan S κ ν π, ((∀ r ∈ s.todo, r.2 ∈ keys) ∧ ∀ t ∈ s.taken, t.2.1 ∈ keys) →
      ∀ a : Step α, (∀ r ∈ (step cells accepts s a).todo, r.2 ∈ keys) ∧
        ∀ t ∈ (step cells accepts s a).taken, t.2.1 ∈ keys := by
    rintro s ⟨htodo, htaken⟩ a
    cases a with
    | write a => exact ⟨htodo, htaken⟩
    | read =>
      rw [step]
      match hs : s.todo with
      | [] => exact ⟨htodo, htaken⟩
      | r :: todo =>
        rw [hs] at htodo
        refine ⟨fun r' hr' => htodo r' (List.mem_cons_of_mem _ hr'), fun t ht => ?_⟩
        rcases List.mem_append.1 ht with hold | hnew
        · exact htaken t hold
        · rw [take] at hnew
          split at hnew
          · rw [List.mem_singleton.1 hnew]
            exact htodo r List.mem_cons_self
          · exact absurd hnew List.not_mem_nil
  exact (Run.exec_invariant (fun s a hs => hall s hs a)
    (s := (⟨start, reads, [], []⟩ : Scan S κ ν π)) ⟨hknown, nofun⟩ steps).2

/-! ### How far off the counts are -/

section
variable [DecidableEq κ] (accepts) (counted : π → Bool)

/-- How often a cell was counted. -/
def hits (s : Scan S κ ν π) (k : κ) : Nat :=
  s.taken.countP fun t => decide (t.2.1 = k) && counted t.1

/-- How many of these reads would count a cell with this value. -/
def left (todo : List (π × κ)) (k : κ) (v : ν) : Nat :=
  todo.countP fun r => decide (r.2 = k) && (counted r.1 && accepts r.1 v)

/-- What the reads to come may still count, and what the writes have made of what was. -/
structure Accounted (cells : Cells S α κ ν) (k : κ) (s : Scan S κ ν π) : Prop where
  single : ∀ v, left accepts counted s.todo k v ≤ 1
  upper : hits counted s k + left accepts counted s.todo k (cells.look s.shared k) ≤
    1 + s.touched.count k
  lower : 1 ≤ hits counted s k + s.touched.count k +
    left accepts counted s.todo k (cells.look s.shared k)

variable {accepts counted}

theorem left_cons (r : π × κ) (todo : List (π × κ)) (k : κ) (v : ν) :
    left accepts counted (r :: todo) k v = left accepts counted todo k v +
      if r.2 = k ∧ counted r.1 = true ∧ accepts r.1 v = true then 1 else 0 := by
  rw [left, List.countP_cons, left]
  simp

theorem Accounted.read {k : κ} {s : Scan S κ ν π} (h : Accounted accepts counted cells k s) :
    Accounted accepts counted cells k (step cells accepts s .read) := by
  rw [step]
  match htodo : s.todo with
  | [] => exact h
  | r :: todo =>
    obtain ⟨hsingle, hupper, hlower⟩ := h
    rw [htodo] at hsingle hupper hlower
    have hhits : hits counted { s with todo, taken := s.taken ++ take cells accepts s.shared r } k =
        hits counted s k +
          if r.2 = k ∧ counted r.1 = true ∧ accepts r.1 (cells.look s.shared k) = true
            then 1 else 0 := by
      simp only [hits, take, List.countP_append]
      by_cases hk : r.2 = k
      · subst hk
        by_cases hacc : accepts r.1 (cells.look s.shared r.2) = true
        · simp [hacc]
        · simp [hacc]
      · by_cases hacc : accepts r.1 (cells.look s.shared r.2) = true
        · simp [hacc, hk]
        · simp [hacc, hk]
    refine ⟨fun v => ?_, ?_, ?_⟩
    · have hv := hsingle v
      rw [left_cons] at hv
      exact le_trans (Nat.le_add_right _ _) hv
    · rw [left_cons] at hupper
      rw [hhits]
      change _ + left accepts counted todo k (cells.look s.shared k) ≤ 1 + s.touched.count k
      omega
    · rw [left_cons] at hlower
      rw [hhits]
      change 1 ≤ _ + s.touched.count k + left accepts counted todo k (cells.look s.shared k)
      omega

theorem Accounted.write {k : κ} {s : Scan S κ ν π} (h : Accounted accepts counted cells k s)
    (a : α) : Accounted accepts counted cells k (step cells accepts s (.write a)) := by
  obtain ⟨hsingle, hupper, hlower⟩ := h
  match htodo : s.todo with
  | [] =>
    -- No read is left: what the cell holds now is counted no more.
    rw [htodo] at hupper hlower
    have hsame : step cells accepts s (.write a) =
        { s with shared := cells.write s.shared a } := by
      rw [step, htodo, List.append_nil]
    rw [hsame]
    refine ⟨hsingle, ?_, ?_⟩
    · change hits counted s k + left accepts counted s.todo k _ ≤ 1 + s.touched.count k
      rw [htodo]
      exact hupper
    · change 1 ≤ hits counted s k + s.touched.count k + left accepts counted s.todo k _
      rw [htodo]
      exact hlower
  | r :: todo =>
    have hnow : (step cells accepts s (.write a)).touched =
        s.touched ++ (cells.target s.shared a).toList := by rw [step, htodo]
    have hcount : (step cells accepts s (.write a)).touched.count k =
        s.touched.count k + (cells.target s.shared a).toList.count k := by
      rw [hnow, List.count_append]
    by_cases htarget : cells.target s.shared a = some k
    · -- A write to the cell: it may be counted once more, or not at all any more.
      have hone : (cells.target s.shared a).toList.count k = 1 := by
        rw [htarget, Option.toList_some, List.count_singleton_self]
      have hbefore := hsingle (cells.look s.shared k)
      have hafter := hsingle (cells.look (cells.write s.shared a) k)
      refine ⟨hsingle, ?_, ?_⟩
      · rw [hcount, hone]
        change hits counted s k +
          left accepts counted s.todo k (cells.look (cells.write s.shared a) k) ≤ _
        omega
      · rw [hcount, hone]
        change 1 ≤ hits counted s k + _ +
          left accepts counted s.todo k (cells.look (cells.write s.shared a) k)
        omega
    · have hlook := cells.frame s.shared a k htarget
      refine ⟨hsingle, ?_, ?_⟩
      · rw [hcount]
        change hits counted s k +
          left accepts counted s.todo k (cells.look (cells.write s.shared a) k) ≤ _
        rw [hlook]
        omega
      · rw [hcount]
        change 1 ≤ hits counted s k + _ +
          left accepts counted s.todo k (cells.look (cells.write s.shared a) k)
        rw [hlook]
        omega

theorem Accounted.exec {k : κ} {s : Scan S κ ν π} (h : Accounted accepts counted cells k s)
    (steps : List (Step α)) :
    Accounted accepts counted cells k (Run.exec (step cells accepts) s steps) := by
  refine Run.exec_invariant (fun s a hs => ?_) h steps
  cases a with
  | write a => exact hs.write a
  | read => exact hs.read

/-- The cells of a list of keys, counted one by one. -/
theorem sum_countP_of_nodup {ρ : Type} (key : ρ → κ) (P : ρ → Bool) :
    ∀ {keys : List κ}, keys.Nodup → ∀ xs : List ρ,
      (keys.map fun k => xs.countP fun x => decide (key x = k) && P x).sum =
        xs.countP fun x => decide (key x ∈ keys) && P x
  | [], _, xs => by simp
  | k :: keys, hnodup, xs => by
    obtain ⟨hfresh, hrest⟩ := List.nodup_cons.1 hnodup
    rw [List.map_cons, List.sum_cons, sum_countP_of_nodup key P hrest xs]
    induction xs with
    | nil => rfl
    | cons x xs ih =>
      rw [List.countP_cons, List.countP_cons, List.countP_cons, ← ih]
      by_cases hk : key x = k
      · simp only [hk, hfresh, decide_true, decide_false, Bool.true_and, Bool.false_and,
          List.mem_cons, true_or]
        grind
      · simp only [hk, decide_false, Bool.false_and, List.mem_cons, false_or]
        grind

theorem left_reads (passes : List π) (keys : List κ) (k : κ) (v : ν) :
    left accepts counted (reads passes keys) k v =
      (passes.countP fun p => counted p && accepts p v) * keys.count k := by
  induction passes with
  | nil => exact (Nat.zero_mul _).symm
  | cons p passes ih =>
    have hpass : ((keys.map fun k => (p, k)).countP fun r =>
        decide (r.2 = k) && (counted r.1 && accepts r.1 v)) =
          if (counted p && accepts p v) = true then keys.count k else 0 := by
      rw [List.countP_map, List.count]
      split
      · next h => exact List.countP_congr fun a _ => by simp_all
      · next h => exact List.countP_eq_zero.2 fun a _ => by simp_all
    rw [left, reads, List.flatMap_cons, List.countP_append, hpass, List.countP_cons, Nat.add_mul]
    rw [left, reads] at ih
    rw [ih, Nat.add_comm]
    split
    · rw [Nat.one_mul]
    · rw [Nat.zero_mul]

/-- Passes that count each value at most once, and every cell as it is when they start. -/
structure Passes (accepts : π → ν → Bool) (counted : π → Bool) (cells : Cells S α κ ν)
    (start : S) (passes : List π) (keys : List κ) : Prop where
  nodup : keys.Nodup
  once : ∀ v, (passes.countP fun p => counted p && accepts p v) ≤ 1
  some : ∀ k ∈ keys, (passes.countP fun p => counted p && accepts p (cells.look start k)) = 1

theorem Passes.accounted {start : S} {passes : List π} {keys : List κ}
    (h : Passes accepts counted cells start passes keys) {k : κ} (hk : k ∈ keys) :
    Accounted accepts counted cells k ⟨start, reads passes keys, [], []⟩ := by
  have hcount : keys.count k = 1 := List.count_eq_one_of_mem h.nodup hk
  have hone : left accepts counted (reads passes keys) k (cells.look start k) = 1 := by
    rw [left_reads, h.some k hk, hcount]
  refine ⟨fun v => ?_, ?_, ?_⟩
  · rw [left_reads, hcount, Nat.mul_one]
    exact h.once v
  · change 0 + left accepts counted (reads passes keys) k (cells.look start k) ≤ 1 + 0
    omega
  · change 1 ≤ 0 + 0 + left accepts counted (reads passes keys) k (cells.look start k)
    omega

theorem sum_count_le (keys : List κ) (hnodup : keys.Nodup) (touched : List κ) :
    (keys.map fun k => touched.count k).sum ≤ touched.length := by
  have hsum := sum_countP_of_nodup (fun k : κ => k) (fun _ => true) hnodup touched
  simp only [Bool.and_true] at hsum
  calc (keys.map fun k => touched.count k).sum
      = (keys.map fun k => touched.countP fun x => decide (x = k)).sum := by
        simp only [List.count, beq_eq_decide]
    _ ≤ touched.length := hsum ▸ List.countP_le_length

/-- **What the passes count together**, once every read is made: at most one too many and at most
one too few for each write that fell between the reads. -/
theorem count_bounds {start : S} {passes : List π} {keys : List κ}
    (h : Passes accepts counted cells start passes keys) {steps : List (Step α)}
    {s : Scan S κ ν π}
    (hs : Run.exec (step cells accepts) ⟨start, reads passes keys, [], []⟩ steps = s)
    (hdone : s.todo = []) :
    s.taken.countP (fun t => counted t.1) ≤ keys.length + s.touched.length ∧
      keys.length ≤ s.taken.countP (fun t => counted t.1) + s.touched.length := by
  have hreads : ∀ r ∈ reads passes keys, r.2 ∈ keys := by
    intro r hr
    obtain ⟨p, _, hp⟩ := List.mem_flatMap.1 hr
    obtain ⟨k, hk, rfl⟩ := List.mem_map.1 hp
    exact hk
  have hknown : ∀ t ∈ (Run.exec (step cells accepts)
      ⟨start, reads passes keys, [], []⟩ steps).taken, t.2.1 ∈ keys := taken_known hreads steps
  have heach : ∀ k ∈ keys, Accounted accepts counted cells k s :=
    fun k hk => hs ▸ (h.accounted hk).exec steps
  rw [hs] at hknown
  have htotal : (keys.map fun k => hits counted s k).sum =
      s.taken.countP fun t => counted t.1 := by
    refine (sum_countP_of_nodup (fun t : π × κ × ν => t.2.1) (fun t => counted t.1)
      h.nodup s.taken).trans (List.countP_congr fun t ht => ?_)
    simp [hknown t ht]
  have hnone : ∀ k v, left accepts counted s.todo k v = 0 := by
    intro k v
    rw [hdone]
    rfl
  have htouched := sum_count_le keys h.nodup s.touched
  rw [← htotal]
  constructor
  · have hle : (keys.map fun k => hits counted s k).sum ≤
        (keys.map fun k => 1 + s.touched.count k).sum := by
      refine List.sum_le_sum fun k hk => ?_
      have hupper := (heach k hk).upper
      rw [hnone] at hupper
      exact hupper
    have hsplit : (keys.map fun k => 1 + s.touched.count k).sum =
        keys.length + (keys.map fun k => s.touched.count k).sum := by
      rw [List.sum_map_add, List.map_const', List.sum_replicate, Nat.nsmul_eq_mul, mul_one]
    omega
  · have hle : (keys.map fun _ => 1).sum ≤
        (keys.map fun k => hits counted s k + s.touched.count k).sum := by
      refine List.sum_le_sum fun k hk => ?_
      have hlower := (heach k hk).lower
      rw [hnone] at hlower
      exact hlower
    have hones : (keys.map fun _ => 1).sum = keys.length := by
      rw [List.map_const', List.sum_replicate, Nat.nsmul_eq_mul, mul_one]
    have hsplit : (keys.map fun k => hits counted s k + s.touched.count k).sum =
        (keys.map fun k => hits counted s k).sum + (keys.map fun k => s.touched.count k).sum :=
      List.sum_map_add
    omega

end
end TornCount
