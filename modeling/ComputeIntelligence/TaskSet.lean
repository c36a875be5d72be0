import ComputeIntelligence.GuardedRuns
import Mathlib.Data.Finset.Basic
import Mathlib.Logic.Function.Basic

/-! # Tasks that a shutdown waits for

A task is in a set from when it is started until, some time after it has ended, its callback takes
it out.  Whoever shuts down takes the tasks of the set, waits until each of them has ended, and
empties the set.

What is started meanwhile is not waited for, and the set forgets it.  So when a shutdown returns,
each task that was started before it began has ended, or it was started while another shutdown was
waiting (`Sound.returned`); and these are the only tasks that go on outside of the set
(`Sound.untracked`).
-/
namespace TaskSet
variable {ι κ ω : Type}

/-- What a caller of shutdown is doing.  The lists are history: the tasks that had been started when
it began, and when it returned. -/
inductive Wait (ι : Type) where
  | idle
  | waiting (before : List ι) (awaited : Finset ι)
  | returned (before upTo : List ι)
  | abandoned

/-- The set, and the history of the tasks: which were started, and how they ended. -/
structure State (ι κ ω : Type) where
  tracked : Finset ι := ∅
  started : List ι := []
  ended : List (ι × ω) := []
  waits : κ → Wait ι := fun _ => .idle

/-- The task has ended. -/
def State.Ended (s : State ι κ ω) (i : ι) : Prop := i ∈ s.ended.map Prod.fst

inductive Action (ι κ ω : Type) where
  | start (i : ι)
  /-- A task that has ended by the time it is started, and never comes into the set. -/
  | direct (i : ι) (outcome : ω)
  | finish (i : ι) (outcome : ω)
  /-- The callback of a task. -/
  | discard (i : ι)
  | shutdown (k : κ)
  /-- Everything that a shutdown waits for has ended. -/
  | gathered (k : κ)
  /-- Whoever shuts down is cancelled. -/
  | abandon (k : κ)

section
variable [DecidableEq ι] [DecidableEq κ]

instance (s : State ι κ ω) (i : ι) : Decidable (s.Ended i) :=
  inferInstanceAs (Decidable (i ∈ s.ended.map Prod.fst))

def State.goto (s : State ι κ ω) (k : κ) (w : Wait ι) : State ι κ ω :=
  { s with waits := Function.update s.waits k w }

/-- A step; an action that cannot be taken does nothing. -/
def step (s : State ι κ ω) : Action ι κ ω → State ι κ ω
  | .start i =>
      if i ∈ s.started then s
      else { s with tracked := insert i s.tracked, started := s.started ++ [i] }
  | .direct i outcome =>
      if i ∈ s.started then s
      else { s with started := s.started ++ [i], ended := s.ended ++ [(i, outcome)] }
  | .finish i outcome =>
      if i ∈ s.started ∧ ¬ s.Ended i then { s with ended := s.ended ++ [(i, outcome)] } else s
  | .discard i => if s.Ended i then { s with tracked := s.tracked.erase i } else s
  | .shutdown k => match s.waits k with
      | .idle =>
          if s.tracked = ∅ then s.goto k (.returned s.started s.started)
          else s.goto k (.waiting s.started s.tracked)
      | _ => s
  | .gathered k => match s.waits k with
      | .waiting before awaited =>
          if ∀ i ∈ awaited, s.Ended i then
            { s.goto k (.returned before s.started) with tracked := ∅ }
          else s
      | _ => s
  | .abandon k => match s.waits k with
      | .waiting _ _ => s.goto k .abandoned
      | _ => s

end

/-- The task was started while a shutdown was waiting, which has returned. -/
def State.Missed (s : State ι κ ω) (i : ι) : Prop :=
  ∃ k before upTo, s.waits k = .returned before upTo ∧ i ∈ upTo ∧ i ∉ before

/-- What holds of a caller of shutdown.  It waits for nothing that was started after it began; and
once it has returned, whatever was started before it began has ended, or was missed. -/
def State.Fits (s : State ι κ ω) : Wait ι → Prop
  | .idle | .abandoned => True
  | .waiting before awaited => before <+: s.started ∧ (∀ i ∈ awaited, i ∈ before) ∧
      ∀ i ∈ before, s.Ended i ∨ i ∈ awaited ∨ s.Missed i
  | .returned before upTo => (before <+: upTo ∧ upTo <+: s.started) ∧
      ∀ i ∈ before, s.Ended i ∨ s.Missed i

/-- What holds of the set, of the tasks and of those who shut down. -/
structure Sound (s : State ι κ ω) : Prop where
  /-- No task ends twice, and none that was not started. -/
  once : (s.ended.map Prod.fst).Nodup ∧ ∀ i, s.Ended i → i ∈ s.started
  tracked : ∀ i ∈ s.tracked, i ∈ s.started
  /-- A task goes on outside of the set only if it was missed. -/
  untracked : ∀ i ∈ s.started, s.Ended i ∨ i ∈ s.tracked ∨ s.Missed i
  waits : ∀ k, s.Fits (s.waits k)

theorem sound_start : Sound ({} : State ι κ ω) where
  once := ⟨List.nodup_nil, fun _ h => absurd h List.not_mem_nil⟩
  tracked _ h := absurd h (Finset.notMem_empty _)
  untracked _ h := absurd h List.not_mem_nil
  waits _ := trivial

/-! ### What a step keeps -/

/-- Nothing that has happened is undone. -/
structure Later (s s' : State ι κ ω) : Prop where
  started : s.started <+: s'.started
  ended : ∀ i, s.Ended i → s'.Ended i
  missed : ∀ i, s.Missed i → s'.Missed i

theorem State.Fits.later {s s' : State ι κ ω} (hl : Later s s') {w : Wait ι} (h : s.Fits w) :
    s'.Fits w := by
  cases w with
  | idle => trivial
  | abandoned => trivial
  | waiting before awaited =>
    obtain ⟨hbegins, hawaited, hall⟩ := h
    refine ⟨hbegins.trans hl.started, hawaited, fun i hi => ?_⟩
    rcases hall i hi with hended | hwait | hmissed
    · exact .inl (hl.ended i hended)
    · exact .inr (.inl hwait)
    · exact .inr (.inr (hl.missed i hmissed))
  | returned before upTo =>
    obtain ⟨⟨hbefore, hupTo⟩, hall⟩ := h
    exact ⟨⟨hbefore, hupTo.trans hl.started⟩,
      fun i hi => (hall i hi).imp (hl.ended i) (hl.missed i)⟩

/-- A step that leaves the callers alone. -/
theorem later_of_waits {s s' : State ι κ ω} (hwaits : s'.waits = s.waits)
    (hstarted : s.started <+: s'.started) (hended : ∀ i, s.Ended i → s'.Ended i) : Later s s' where
  started := hstarted
  ended := hended
  missed _ := by
    rintro ⟨k, before, upTo, hk, hi⟩
    exact ⟨k, before, upTo, by rw [hwaits]; exact hk, hi⟩

/-- A caller that has not returned goes on. -/
theorem later_goto [DecidableEq κ] {s : State ι κ ω} {k : κ} (w : Wait ι)
    (hk : ∀ before upTo, s.waits k ≠ .returned before upTo) : Later s (s.goto k w) where
  started := List.prefix_rfl
  ended _ h := h
  missed _ := by
    rintro ⟨k', before, upTo, hk', hi⟩
    have hne : k' ≠ k := by
      rintro rfl
      exact hk before upTo hk'
    exact ⟨k', before, upTo, (Function.update_of_ne hne ..).trans hk', hi⟩

/-- Where one caller goes on, it is the only one to look at. -/
theorem waits_goto [DecidableEq κ] {s s' : State ι κ ω} {k : κ} {w : Wait ι}
    (h : ∀ k, s.Fits (s.waits k)) (hl : Later s s')
    (hwaits : s'.waits = Function.update s.waits k w) (hw : s'.Fits w) :
    ∀ k, s'.Fits (s'.waits k) := by
  intro k'
  rw [hwaits]
  by_cases hkk : k' = k
  · subst hkk
    rwa [Function.update_self]
  · rw [Function.update_of_ne hkk]
    exact (h k').later hl

theorem Sound.start [DecidableEq ι] {s : State ι κ ω} (h : Sound s) {i : ι} (hi : i ∉ s.started) :
    Sound { s with tracked := insert i s.tracked, started := s.started ++ [i] } := by
  have hl : Later s { s with tracked := insert i s.tracked, started := s.started ++ [i] } :=
    later_of_waits rfl (List.prefix_append _ _) fun _ h => h
  refine ⟨⟨h.once.1, fun j hj => hl.started.mem (h.once.2 j hj)⟩, fun j hj => ?_, fun j hj => ?_,
    fun k => (h.waits k).later hl⟩
  · rcases Finset.mem_insert.1 hj with rfl | hold
    · exact List.mem_append_right _ (List.mem_singleton.2 rfl)
    · exact hl.started.mem (h.tracked j hold)
  · rcases List.mem_append.1 hj with hold | hnew
    · exact (h.untracked j hold).imp id (Or.imp (Finset.mem_insert_of_mem) (hl.missed j))
    · exact .inr (.inl (Finset.mem_insert.2 (.inl (List.mem_singleton.1 hnew))))

theorem mem_ended_concat {ended : List (ι × ω)} {i j : ι} {outcome : ω} :
    j ∈ (ended ++ [(i, outcome)]).map Prod.fst ↔ j ∈ ended.map Prod.fst ∨ j = i := by
  rw [List.map_append, List.mem_append, List.map_singleton, List.mem_singleton]

theorem nodup_ended_concat {ended : List (ι × ω)} {i : ι} {outcome : ω}
    (h : (ended.map Prod.fst).Nodup) (hi : i ∉ ended.map Prod.fst) :
    ((ended ++ [(i, outcome)]).map Prod.fst).Nodup := by
  rw [List.map_append, List.map_singleton]
  exact List.nodup_append_comm.1 (List.nodup_cons.2 ⟨hi, h⟩)

theorem Sound.direct {s : State ι κ ω} (h : Sound s) {i : ι} (outcome : ω) (hi : i ∉ s.started) :
    Sound { s with started := s.started ++ [i], ended := s.ended ++ [(i, outcome)] } := by
  have hl : Later s { s with started := s.started ++ [i], ended := s.ended ++ [(i, outcome)] } :=
    later_of_waits rfl (List.prefix_append _ _) fun j hj => mem_ended_concat.2 (.inl hj)
  have hnew : i ∈ s.started ++ [i] := List.mem_append_right _ (List.mem_singleton.2 rfl)
  refine ⟨⟨nodup_ended_concat h.once.1 fun hended => hi (h.once.2 i hended), fun j hj => ?_⟩,
    fun j hj => hl.started.mem (h.tracked j hj), fun j hj => ?_, fun k => (h.waits k).later hl⟩
  · rcases mem_ended_concat.1 hj with hold | rfl
    · exact hl.started.mem (h.once.2 j hold)
    · exact hnew
  · rcases List.mem_append.1 hj with hold | hlast
    · exact (h.untracked j hold).imp (hl.ended j) (Or.imp id (hl.missed j))
    · exact .inl (mem_ended_concat.2 (.inr (List.mem_singleton.1 hlast)))

theorem Sound.finish {s : State ι κ ω} (h : Sound s) {i : ι} (outcome : ω) (hi : i ∈ s.started)
    (hended : ¬ s.Ended i) : Sound { s with ended := s.ended ++ [(i, outcome)] } := by
  have hl : Later s { s with ended := s.ended ++ [(i, outcome)] } :=
    later_of_waits rfl List.prefix_rfl fun j hj => mem_ended_concat.2 (.inl hj)
  refine ⟨⟨nodup_ended_concat h.once.1 hended, fun j hj => ?_⟩, h.tracked,
    fun j hj => (h.untracked j hj).imp (hl.ended j) (Or.imp id (hl.missed j)),
    fun k => (h.waits k).later hl⟩
  rcases mem_ended_concat.1 hj with hold | rfl
  · exact h.once.2 j hold
  · exact hi

theorem Sound.discard [DecidableEq ι] {s : State ι κ ω} (h : Sound s) {i : ι} (hi : s.Ended i) :
    Sound { s with tracked := s.tracked.erase i } := by
  have hl : Later s { s with tracked := s.tracked.erase i } :=
    later_of_waits rfl List.prefix_rfl fun _ h => h
  refine ⟨h.once, fun j hj => h.tracked j (Finset.mem_of_mem_erase hj), fun j hj => ?_,
    fun k => (h.waits k).later hl⟩
  by_cases hij : j = i
  · subst hij
    exact .inl hi
  · exact (h.untracked j hj).imp id
      (Or.imp (fun ht => Finset.mem_erase.2 ⟨hij, ht⟩) (hl.missed j))

/-- A caller that goes on without touching the set. -/
theorem Sound.goto [DecidableEq κ] {s : State ι κ ω} (h : Sound s) {k : κ} {w : Wait ι}
    (hk : ∀ before upTo, s.waits k ≠ .returned before upTo) (hw : s.Fits w) :
    Sound (s.goto k w) := by
  have hl := later_goto w hk
  exact ⟨h.once, h.tracked, fun j hj => (h.untracked j hj).imp id (Or.imp id (hl.missed j)),
    waits_goto h.waits hl rfl (hw.later hl)⟩

theorem Sound.shutdown [DecidableEq ι] [DecidableEq κ] {s : State ι κ ω} (h : Sound s) {k : κ}
    (hk : s.waits k = .idle) : Sound (step s (.shutdown k)) := by
  have hfresh : ∀ before upTo, s.waits k ≠ .returned before upTo := by
    intro before upTo hreturned
    rw [hk] at hreturned
    cases hreturned
  rw [step, hk]
  dsimp only
  split
  · next hempty =>
    refine h.goto hfresh ⟨⟨List.prefix_rfl, List.prefix_rfl⟩, fun i hi => ?_⟩
    rcases h.untracked i hi with hended | htracked | hmissed
    · exact .inl hended
    · rw [hempty] at htracked
      exact absurd htracked (Finset.notMem_empty _)
    · exact .inr hmissed
  · exact h.goto hfresh ⟨List.prefix_rfl, h.tracked, h.untracked⟩

/-- The one that returns empties the set: what it did not wait for is missed from here on. -/
theorem Sound.gathered [DecidableEq κ] {s : State ι κ ω} (h : Sound s) {k : κ} {before : List ι}
    {awaited : Finset ι} (hk : s.waits k = .waiting before awaited)
    (hall : ∀ i ∈ awaited, s.Ended i) :
    Sound { s.goto k (.returned before s.started) with tracked := ∅ } := by
  have hfresh : ∀ before' upTo, s.waits k ≠ .returned before' upTo := by
    intro before' upTo hreturned
    rw [hk] at hreturned
    cases hreturned
  have hgoto := later_goto (.returned before s.started) hfresh
  have hl : Later s { s.goto k (.returned before s.started) with tracked := ∅ } :=
    ⟨hgoto.started, hgoto.ended, hgoto.missed⟩
  have hfits := h.waits k
  rw [hk] at hfits
  obtain ⟨hbegins, -, hbefore⟩ := hfits
  have hdone : ∀ i ∈ before, s.Ended i ∨ s.Missed i := by
    intro i hi
    rcases hbefore i hi with hended | hwait | hmissed
    · exact .inl hended
    · exact .inl (hall i hwait)
    · exact .inr hmissed
  refine ⟨h.once, fun i hi => absurd hi (Finset.notMem_empty i), fun i hi => ?_,
    waits_goto h.waits hl rfl ⟨⟨hbegins, List.prefix_rfl⟩, fun i hi =>
      (hdone i hi).imp id (hl.missed i)⟩⟩
  by_cases hib : i ∈ before
  · exact (hdone i hib).imp id fun hmissed => .inr (hl.missed i hmissed)
  · exact .inr (.inr ⟨k, before, s.started, Function.update_self .., hi, hib⟩)

theorem Sound.step [DecidableEq ι] [DecidableEq κ] {s : State ι κ ω} (h : Sound s)
    (a : Action ι κ ω) : Sound (step s a) := by
  cases a with
  | start i =>
    rw [TaskSet.step]
    split
    · exact h
    · next hi => exact h.start hi
  | direct i outcome =>
    rw [TaskSet.step]
    split
    · exact h
    · next hi => exact h.direct outcome hi
  | finish i outcome =>
    rw [TaskSet.step]
    split
    · next hi => exact h.finish outcome hi.1 hi.2
    · exact h
  | discard i =>
    rw [TaskSet.step]
    split
    · next hi => exact h.discard hi
    · exact h
  | shutdown k =>
    cases hk : s.waits k with
    | idle => exact h.shutdown hk
    | waiting _ _ => rw [TaskSet.step, hk]; exact h
    | returned _ _ => rw [TaskSet.step, hk]; exact h
    | abandoned => rw [TaskSet.step, hk]; exact h
  | gathered k =>
    cases hk : s.waits k with
    | waiting before awaited =>
      rw [TaskSet.step, hk]
      dsimp only
      split
      · next hall => exact h.gathered hk hall
      · exact h
    | idle => rw [TaskSet.step, hk]; exact h
    | returned _ _ => rw [TaskSet.step, hk]; exact h
    | abandoned => rw [TaskSet.step, hk]; exact h
  | abandon k =>
    cases hk : s.waits k with
    | waiting before awaited =>
      rw [TaskSet.step, hk]
      exact h.goto (fun _ _ hreturned => by rw [hk] at hreturned; cases hreturned) trivial
    | idle => rw [TaskSet.step, hk]; exact h
    | returned _ _ => rw [TaskSet.step, hk]; exact h
    | abandoned => rw [TaskSet.step, hk]; exact h

/-- The task that an action starts. -/
def Action.starts : Action ι κ ω → Option ι
  | .start i | .direct i _ => some i
  | _ => none

theorem started_step [DecidableEq ι] [DecidableEq κ] (s : State ι κ ω) (a : Action ι κ ω) :
    (step s a).started = match a.starts with
      | some i => if i ∈ s.started then s.started else s.started ++ [i]
      | none => s.started := by
  cases a with
  | start i =>
    rw [step, Action.starts]
    dsimp only
    split <;> rfl
  | direct i outcome =>
    rw [step, Action.starts]
    dsimp only
    split <;> rfl
  | finish i outcome =>
    change _ = s.started
    rw [step]
    split <;> rfl
  | discard i =>
    change _ = s.started
    rw [step]
    split <;> rfl
  | shutdown k =>
    change _ = s.started
    rw [step]
    split
    · split <;> rfl
    · rfl
  | gathered k =>
    change _ = s.started
    rw [step]
    split
    · split <;> rfl
    · rfl
  | abandon k =>
    change _ = s.started
    rw [step]
    split <;> rfl

/-- Who has returned stays so. -/
theorem returned_step [DecidableEq ι] [DecidableEq κ] {s : State ι κ ω} {k : κ}
    {before upTo : List ι} (hk : s.waits k = .returned before upTo) (a : Action ι κ ω) :
    (step s a).waits k = .returned before upTo := by
  have hgoto : ∀ k' w, (∀ before upTo, s.waits k' ≠ .returned before upTo) →
      (s.goto k' w).waits k = .returned before upTo := by
    intro k' w hfresh
    have hne : k ≠ k' := by
      rintro rfl
      exact hfresh before upTo hk
    exact (Function.update_of_ne hne ..).trans hk
  cases a with
  | start i => rw [step]; split <;> exact hk
  | direct i outcome => rw [step]; split <;> exact hk
  | finish i outcome => rw [step]; split <;> exact hk
  | discard i => rw [step]; split <;> exact hk
  | shutdown k' =>
    cases hk' : s.waits k' with
    | idle =>
      have hfresh : ∀ before upTo, s.waits k' ≠ .returned before upTo := fun _ _ => by
        rw [hk']
        exact nofun
      rw [step, hk']
      dsimp only
      split
      · exact hgoto k' _ hfresh
      · exact hgoto k' _ hfresh
    | waiting _ _ => rw [step, hk']; exact hk
    | returned _ _ => rw [step, hk']; exact hk
    | abandoned => rw [step, hk']; exact hk
  | gathered k' =>
    cases hk' : s.waits k' with
    | waiting before' awaited =>
      rw [step, hk']
      dsimp only
      split
      · exact hgoto k' _ fun _ _ => by rw [hk']; exact nofun
      · exact hk
    | idle => rw [step, hk']; exact hk
    | returned _ _ => rw [step, hk']; exact hk
    | abandoned => rw [step, hk']; exact hk
  | abandon k' =>
    cases hk' : s.waits k' with
    | waiting _ _ =>
      rw [step, hk']
      exact hgoto k' _ fun _ _ => by rw [hk']; exact nofun
    | idle => rw [step, hk']; exact hk
    | returned _ _ => rw [step, hk']; exact hk
    | abandoned => rw [step, hk']; exact hk

/-- **In every run**, whatever the order of its steps. -/
theorem sound_exec [DecidableEq ι] [DecidableEq κ] (as : List (Action ι κ ω)) :
    Sound (Run.exec step {} as) :=
  Run.exec_invariant (fun _ a h => h.step a) sound_start as

end TaskSet
