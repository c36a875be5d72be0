import ComputeIntelligence.GuardedRuns
import Mathlib.Logic.Function.Basic

/-! # A cell that is filled once

Threads ask for the value of a cell.  One that finds the cell empty takes a lock, looks again, and
only if the cell is empty still makes a value and stores it; making one may fail.  Whatever the
order of their steps, at most one value is made, and it is what every thread is answered
(`Sound`, `sound_exec`).
-/
namespace OnceCell
variable {ι V : Type}

/-- What a thread is about to do. -/
inductive Phase (V : Type) where
  | idle
  /-- It found the cell empty, and wants the lock. -/
  | waiting
  /-- It has the lock, and looks again. -/
  | checking
  | making
  | storing (v : V)
  | leaving (v : V)
deriving DecidableEq

/-- The phases with the lock. -/
def Phase.inside : Phase V → Bool
  | .idle | .waiting => false
  | _ => true

/-- `made` and `answered` are the history: the values that were made, and the answers. -/
structure State (ι V : Type) where
  cell : Option V
  lock : Option ι := none
  phase : ι → Phase V := fun _ => .idle
  made : List V := []
  answered : List (ι × V) := []

inductive Action (ι V : Type) where
  | ask (i : ι)
  | acquire (i : ι)
  | check (i : ι)
  /-- The value, or `none` where making it fails. -/
  | make (i : ι) (value : Option V)
  | store (i : ι)
  | leave (i : ι)

variable [DecidableEq ι]

def State.goto (s : State ι V) (i : ι) (p : Phase V) : State ι V :=
  { s with phase := Function.update s.phase i p }

/-- A step: an action that is not the thread's next one does nothing. -/
def step (s : State ι V) : Action ι V → State ι V
  | .ask i => match s.phase i, s.cell with
      | .idle, some v => { s with answered := s.answered ++ [(i, v)] }
      | .idle, none => s.goto i .waiting
      | _, _ => s
  | .acquire i => match s.phase i, s.lock with
      | .waiting, none => { s.goto i .checking with lock := some i }
      | _, _ => s
  | .check i => match s.phase i, s.cell with
      | .checking, some v => s.goto i (.leaving v)
      | .checking, none => s.goto i .making
      | _, _ => s
  | .make i value => match s.phase i, value with
      | .making, some v => { s.goto i (.storing v) with made := s.made ++ [v] }
      | .making, none => { s.goto i .idle with lock := none }
      | _, _ => s
  | .store i => match s.phase i with
      | .storing v => { s.goto i (.leaving v) with cell := some v }
      | _ => s
  | .leave i => match s.phase i with
      | .leaving v =>
          { s.goto i .idle with lock := none, answered := s.answered ++ [(i, v)] }
      | _ => s

/-- What holds of the cell, the lock and the threads, from a cell that held `first`. -/
structure Sound (first : Option V) (s : State ι V) : Prop where
  owner : ∀ i, (s.phase i).inside = true ↔ s.lock = some i
  making : ∀ i, s.phase i = .making → s.cell = none ∧ s.made = []
  storing : ∀ i v, s.phase i = .storing v → s.cell = none ∧ s.made = [v]
  leaving : ∀ i v, s.phase i = .leaving v → s.cell = some v
  /-- Where nobody is storing, what was made is what the cell holds. -/
  made : (∀ i v, s.phase i ≠ .storing v) → first = none → s.made = s.cell.toList
  kept : ∀ v, first = some v → s.cell = some v ∧ s.made = []
  answered : ∀ p ∈ s.answered, s.cell = some p.2

omit [DecidableEq ι] in
/-- One thread is inside. -/
theorem Sound.alone {first : Option V} {s : State ι V} (h : Sound first s) {i j : ι}
    (hi : (s.phase i).inside = true) (hj : (s.phase j).inside = true) : i = j :=
  Option.some.inj (((h.owner i).1 hi).symm.trans ((h.owner j).1 hj))

omit [DecidableEq ι] in
theorem sound_start (first : Option V) : Sound first ({ cell := first } : State ι V) where
  owner _ := iff_of_false nofun nofun
  making _ h := nomatch h
  storing _ _ h := nomatch h
  leaving _ _ h := nomatch h
  made _ hfirst := by rw [hfirst]; rfl
  kept v hv := ⟨hv, rfl⟩
  answered _ h := absurd h List.not_mem_nil

theorem phase_goto (s : State ι V) (i j : ι) (p : Phase V) :
    (s.goto i p).phase j = if j = i then p else s.phase j :=
  Function.update_apply s.phase i p j

/-- A thread goes from one phase to another without taking or giving back the lock, storing or
making anything. -/
theorem Sound.goto {first : Option V} {s : State ι V} (h : Sound first s) {i : ι} {p : Phase V}
    (hinside : p.inside = (s.phase i).inside) (hbefore : ∀ v, s.phase i ≠ .storing v)
    (hmaking : p = .making → s.cell = none ∧ s.made = [])
    (hstoring : ∀ v, p ≠ .storing v) (hleaving : ∀ v, p = .leaving v → s.cell = some v) :
    Sound first (s.goto i p) := by
  refine ⟨fun j => ?_, fun j hj => ?_, fun j v hj => ?_, fun j v hj => ?_, fun hnone => ?_,
    h.kept, h.answered⟩
  · rw [phase_goto]
    split
    · next hji => rw [hji, hinside]; exact h.owner i
    · exact h.owner j
  · rw [phase_goto] at hj
    split at hj
    · exact hmaking hj
    · exact h.making j hj
  · rw [phase_goto] at hj
    split at hj
    · exact absurd hj (hstoring v)
    · exact h.storing j v hj
  · rw [phase_goto] at hj
    split at hj
    · exact hleaving v hj
    · exact h.leaving j v hj
  · refine h.made fun j v hj => ?_
    by_cases hji : j = i
    · exact hbefore v (hji ▸ hj)
    · exact hnone j v (by rw [phase_goto, if_neg hji]; exact hj)

theorem Sound.ask {first : Option V} {s : State ι V} (h : Sound first s) (i : ι) :
    Sound first (step s (.ask i)) := by
  rw [step]
  split
  · next v hphase hcell =>
    refine ⟨h.owner, h.making, h.storing, h.leaving, h.made, h.kept, fun p hp => ?_⟩
    rcases List.mem_append.1 hp with hold | hnew
    · exact h.answered p hold
    · rw [List.mem_singleton.1 hnew]
      exact hcell
  · next hphase hcell =>
    exact h.goto (by rw [hphase]; rfl) (by rw [hphase]; exact nofun) nofun nofun nofun
  · exact h

theorem Sound.check {first : Option V} {s : State ι V} (h : Sound first s) (i : ι) :
    Sound first (step s (.check i)) := by
  rw [step]
  split
  · next v hphase hcell =>
    refine h.goto (by rw [hphase]; rfl) (by rw [hphase]; exact nofun) nofun nofun fun w hw => ?_
    rw [hcell, Phase.leaving.inj hw]
  · next hphase hcell =>
    refine h.goto (by rw [hphase]; rfl) (by rw [hphase]; exact nofun) (fun _ => ⟨hcell, ?_⟩)
      nofun nofun
    -- the one inside is checking, so nobody is storing
    have hnobody : ∀ j v, s.phase j ≠ .storing v := by
      intro j v hj
      obtain rfl : i = j := h.alone (by rw [hphase]; rfl) (by rw [hj]; rfl)
      rw [hphase] at hj
      cases hj
    cases hfirst : first with
    | none => rw [h.made hnobody hfirst, hcell]; rfl
    | some w => exact (h.kept w hfirst).2
  · exact h

theorem Sound.acquire {first : Option V} {s : State ι V} (h : Sound first s) (i : ι) :
    Sound first (step s (.acquire i)) := by
  rw [step]
  split
  · next hphase hlock =>
    have hnobody : ∀ j, (s.phase j).inside = false := by
      intro j
      by_contra hj
      have howner := (h.owner j).1 (by simpa using hj)
      rw [hlock] at howner
      cases howner
    refine ⟨fun j => ?_, fun j hj => ?_, fun j v hj => ?_, fun j v hj => ?_, fun _ => ?_,
      h.kept, h.answered⟩
    · change ((s.goto i .checking).phase j).inside = true ↔ some i = some j
      rw [phase_goto]
      split
      · next hji => rw [hji]; exact iff_of_true rfl rfl
      · next hji =>
        rw [hnobody j]
        exact iff_of_false nofun fun he => hji (Option.some.inj he).symm
    all_goals
      try change (s.goto i .checking).phase j = _ at hj
      try rw [phase_goto] at hj
    · split at hj
      · cases hj
      · exact h.making j hj
    · split at hj
      · cases hj
      · exact h.storing j v hj
    · split at hj
      · cases hj
      · exact h.leaving j v hj
    · refine h.made fun j v hj => ?_
      have := hnobody j
      rw [hj] at this
      cases this
  · exact h

/-- The thread inside leaves, and nothing is left to say of it. -/
theorem Sound.release {first : Option V} {s : State ι V} (h : Sound first s) {i : ι}
    (hinside : (s.phase i).inside = true) (hbefore : ∀ v, s.phase i ≠ .storing v) :
    Sound first { s.goto i .idle with lock := none } := by
  have hothers : ∀ j, j ≠ i → (s.phase j).inside = false := by
    intro j hji
    by_contra hj
    exact hji (h.alone (by simpa using hj) hinside)
  have hphase : ∀ j, ((s.goto i .idle).phase j).inside = false := by
    intro j
    rw [phase_goto]
    split
    · rfl
    · next hji => exact hothers j hji
  have hnot : ∀ {j : ι} {p : Phase V}, (s.goto i .idle).phase j = p → p.inside = true → False := by
    intro j p hj hp
    have houtside := hphase j
    rw [hj, hp] at houtside
    cases houtside
  refine ⟨fun j => iff_of_false (fun hj => ?_) nofun, fun j hj => (hnot hj rfl).elim,
    fun j v hj => (hnot hj rfl).elim, fun j v hj => (hnot hj rfl).elim, fun _ => ?_, h.kept,
    h.answered⟩
  · change ((s.goto i .idle).phase j).inside = true at hj
    rw [hphase j] at hj
    cases hj
  · refine h.made fun j v hj => ?_
    by_cases hji : j = i
    · exact hbefore v (hji ▸ hj)
    · have houtside := hothers j hji
      rw [hj] at houtside
      cases houtside

theorem Sound.leave {first : Option V} {s : State ι V} (h : Sound first s) (i : ι) :
    Sound first (step s (.leave i)) := by
  rw [step]
  split
  · next v hphase =>
    have hout := h.release (i := i) (by rw [hphase]; rfl) (by rw [hphase]; exact nofun)
    refine ⟨hout.owner, hout.making, hout.storing, hout.leaving, hout.made, hout.kept,
      fun p hp => ?_⟩
    rcases List.mem_append.1 hp with hold | hnew
    · exact h.answered p hold
    · rw [List.mem_singleton.1 hnew]
      exact h.leaving i v hphase
  · exact h

theorem Sound.make {first : Option V} {s : State ι V} (h : Sound first s) (i : ι)
    (value : Option V) : Sound first (step s (.make i value)) := by
  simp only [step]
  split
  · next v hphase =>
    obtain ⟨hcell, hmade⟩ := h.making i hphase
    have hinside : (s.phase i).inside = true := by rw [hphase]; rfl
    refine ⟨fun j => ?_, fun j hj => ?_, fun j w hj => ?_, fun j w hj => ?_, fun hnone => ?_,
      fun w hw => ?_, h.answered⟩
    · change ((s.goto i (.storing v)).phase j).inside = true ↔ _
      rw [phase_goto]
      split
      · next hji => rw [hji]; exact iff_of_true rfl ((h.owner i).1 hinside)
      · exact h.owner j
    · change (s.goto i (.storing v)).phase j = _ at hj
      rw [phase_goto] at hj
      split at hj
      · cases hj
      · next hji => exact absurd (h.alone (by rw [hj]; rfl) hinside) hji
    · change (s.goto i (.storing v)).phase j = _ at hj
      rw [phase_goto] at hj
      split at hj
      · refine ⟨hcell, ?_⟩
        change s.made ++ [v] = [w]
        rw [hmade, Phase.storing.inj hj, List.nil_append]
      · next hji => exact absurd (h.alone (by rw [hj]; rfl) hinside) hji
    · change (s.goto i (.storing v)).phase j = _ at hj
      rw [phase_goto] at hj
      split at hj
      · cases hj
      · next hji => exact absurd (h.alone (by rw [hj]; rfl) hinside) hji
    · exact absurd ((phase_goto s i i (.storing v)).trans (if_pos rfl)) (hnone i v)
    · have hfull := (h.kept w hw).1
      rw [hcell] at hfull
      cases hfull
  · next hphase => exact h.release (by rw [hphase]; rfl) (by rw [hphase]; exact nofun)
  · exact h

theorem Sound.store {first : Option V} {s : State ι V} (h : Sound first s) (i : ι) :
    Sound first (step s (.store i)) := by
  rw [step]
  split
  · next v hphase =>
    obtain ⟨hcell, hmade⟩ := h.storing i v hphase
    have hinside : (s.phase i).inside = true := by rw [hphase]; rfl
    have hfirst : first = none := by
      cases hf : first with
      | none => rfl
      | some w =>
        have hfull := (h.kept w hf).1
        rw [hcell] at hfull
        cases hfull
    have hanswered : s.answered = [] := by
      refine List.eq_nil_iff_forall_not_mem.2 fun p hp => ?_
      have hfull := h.answered p hp
      rw [hcell] at hfull
      cases hfull
    refine ⟨fun j => ?_, fun j hj => ?_, fun j w hj => ?_, fun j w hj => ?_, fun _ _ => hmade,
      fun w hw => ?_, fun p hp => ?_⟩
    · change ((s.goto i (.leaving v)).phase j).inside = true ↔ _
      rw [phase_goto]
      split
      · next hji => rw [hji]; exact iff_of_true rfl ((h.owner i).1 hinside)
      · exact h.owner j
    · change (s.goto i (.leaving v)).phase j = _ at hj
      rw [phase_goto] at hj
      split at hj
      · cases hj
      · next hji => exact absurd (h.alone (by rw [hj]; rfl) hinside) hji
    · change (s.goto i (.leaving v)).phase j = _ at hj
      rw [phase_goto] at hj
      split at hj
      · cases hj
      · next hji => exact absurd (h.alone (by rw [hj]; rfl) hinside) hji
    · change (s.goto i (.leaving v)).phase j = _ at hj
      rw [phase_goto] at hj
      split at hj
      · exact congrArg some (Phase.leaving.inj hj)
      · next hji => exact absurd (h.alone (by rw [hj]; rfl) hinside) hji
    · rw [hfirst] at hw
      cases hw
    · change p ∈ s.answered at hp
      rw [hanswered] at hp
      exact absurd hp List.not_mem_nil
  · exact h

theorem Sound.exec {first : Option V} {s : State ι V} (h : Sound first s)
    (as : List (Action ι V)) : Sound first (Run.exec step s as) := by
  refine Run.exec_invariant (fun s a hs => ?_) h as
  cases a with
  | ask i => exact hs.ask i
  | acquire i => exact hs.acquire i
  | check i => exact hs.check i
  | make i value => exact hs.make i value
  | store i => exact hs.store i
  | leave i => exact hs.leave i

/-- **Whatever the order of the steps**, from an empty cell at most one value is made, and nobody is
answered another. -/
theorem once (as : List (Action ι V)) :
    (Run.exec step ({ cell := none } : State ι V) as).made.length ≤ 1 ∧
      ∀ p ∈ (Run.exec step ({ cell := none } : State ι V) as).answered,
        (Run.exec step ({ cell := none } : State ι V) as).made = [p.2] := by
  have h := (sound_start (none : Option V)).exec (ι := ι) as
  generalize Run.exec step ({ cell := none } : State ι V) as = s at h
  by_cases hstoring : ∃ i v, s.phase i = .storing v
  · obtain ⟨i, v, hi⟩ := hstoring
    obtain ⟨hcell, hmade⟩ := h.storing i v hi
    refine ⟨by rw [hmade]; exact le_rfl, fun p hp => ?_⟩
    have hfull := h.answered p hp
    rw [hcell] at hfull
    cases hfull
  · have hmade : s.made = s.cell.toList :=
      h.made (fun i v hi => hstoring ⟨i, v, hi⟩) rfl
    refine ⟨by rw [hmade]; exact Option.length_toList_le, fun p hp => ?_⟩
    rw [hmade, h.answered p hp]
    rfl

/-- From a cell that is filled nothing is made, and everybody is answered what it holds. -/
theorem filled (first : V) (as : List (Action ι V)) :
    (Run.exec step ({ cell := some first } : State ι V) as).made = [] ∧
      ∀ p ∈ (Run.exec step ({ cell := some first } : State ι V) as).answered, p.2 = first := by
  have h := (sound_start (some first)).exec (ι := ι) as
  obtain ⟨hcell, hmade⟩ := h.kept first rfl
  refine ⟨hmade, fun p hp => ?_⟩
  exact (Option.some.inj (hcell.symm.trans (h.answered p hp))).symm

end OnceCell
