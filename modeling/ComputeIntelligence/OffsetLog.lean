import ComputeIntelligence.GuardedRuns
import Mathlib.Algebra.Order.Group.Int
import Mathlib.Data.List.Nodup
import Mathlib.Logic.Function.Basic

/-! # Readers of a log that commit offsets

Records are kept in several logs, one for each key, in the order of their offsets.  Any number of
readers fetch records from a position of their own, work on what they have fetched one record after
the other, and commit the offset after a record; a reader that starts, or is assigned a log, takes
its position from the committed offset.  Nothing keeps two readers from the same log.

`work` ends in one of three ways: the record is not processed, and the reader stops; it is
processed, and the reader goes on; it is processed, and the reader stops.  A commit comes only
with a processed record, and may be missing even then.

Whatever the readers do, a committed offset never passes a record that was not processed
(`Covers`, `covers_exec`).
-/
namespace OffsetLog
variable {κ ρ : Type}

/-- A reader: where it fetches next in each log, and what it has fetched and not worked on. -/
structure Reader (κ ρ : Type) where
  position : κ → Int
  pending : List ρ
  running : Bool

/-- The logs, the offset after the last record of each, the committed offsets, the readers, and
the records processed so far. -/
@[ext]
structure Group (κ ρ : Type) where
  log : κ → List ρ
  logEnd : κ → Int
  committed : κ → Int
  readers : Nat → Reader κ ρ
  processed : List ρ

/-- How a reader's work on a record ends. -/
inductive Outcome where
  | unprocessed
  | processed (committed goesOn : Bool)
deriving DecidableEq

/-- What happens to a group. -/
inductive Action (κ ρ : Type) where
  | append (record : ρ)
  | restart (reader : Nat)
  | assign (reader : Nat) (log : κ)
  | poll (reader : Nat) (counts : List (κ × Nat))
  | work (reader : Nat) (outcome : Outcome)

section
variable [DecidableEq κ] (key : ρ → κ) (offset : ρ → Int)

/-- Up to so many records of one log, from a position on. -/
def batch (log : κ → List ρ) (position : κ → Int) (want : κ × Nat) : List ρ :=
  ((log want.1).filter fun r => position want.1 ≤ offset r).take want.2

/-- The position after these records of a log. -/
def beyond (position : κ → Int) (k : κ) (records : List ρ) : κ → Int :=
  match records.getLast? with
  | some r => Function.update position k (offset r + 1)
  | none => position

/-- Fetch from one log. -/
def fetch (log : κ → List ρ) (reader : Reader κ ρ) (want : κ × Nat) : Reader κ ρ :=
  { reader with
    position := beyond offset reader.position want.1 (batch offset log reader.position want)
    pending := reader.pending ++ batch offset log reader.position want }

/-- The reader after its work on the first record that is pending. -/
def Reader.worked (reader : Reader κ ρ) (rest : List ρ) : Outcome → Reader κ ρ
  | .processed _ true => { reader with pending := rest }
  | _ => { reader with pending := [], running := false }

/-- The committed offsets after the work on a record. -/
def commitAfter (committed : κ → Int) (r : ρ) : Outcome → κ → Int
  | .processed true _ => Function.update committed (key r) (offset r + 1)
  | _ => committed

/-- The records processed, after the work on one more. -/
def processedAfter (processed : List ρ) (r : ρ) : Outcome → List ρ
  | .processed _ _ => processed ++ [r]
  | .unprocessed => processed

/-- One step.  A record whose offset is taken is not appended, a reader fetches only when nothing
is pending, and works only while it runs. -/
def step (s : Group κ ρ) : Action κ ρ → Group κ ρ
  | .append r =>
      if s.logEnd (key r) ≤ offset r then
        { s with
          log := Function.update s.log (key r) (s.log (key r) ++ [r])
          logEnd := Function.update s.logEnd (key r) (offset r + 1) }
      else s
  | .restart c =>
      { s with readers := Function.update s.readers c ⟨s.committed, [], true⟩ }
  | .assign c k =>
      { s with
        readers := Function.update s.readers c
          { s.readers c with
            position := Function.update (s.readers c).position k (s.committed k) } }
  | .poll c counts =>
      if (s.readers c).running && (s.readers c).pending.isEmpty then
        { s with
          readers := Function.update s.readers c
            (counts.foldl (fetch offset s.log) (s.readers c)) }
      else s
  | .work c outcome =>
      match (s.readers c).pending with
      | [] => s
      | r :: rest =>
          if (s.readers c).running then
            { s with
              committed := commitAfter key offset s.committed r outcome
              readers := Function.update s.readers c ((s.readers c).worked rest outcome)
              processed := processedAfter s.processed r outcome }
          else s

/-! ### The invariant -/

/-- The logs are in order, and nothing has run ahead of them. -/
structure Ordered (log : κ → List ρ) (logEnd : κ → Int) : Prop where
  sorted : ∀ k, (log k).Pairwise fun a b => offset a < offset b
  keyed : ∀ k, ∀ r ∈ log k, key r = k
  ends : ∀ k, ∀ r ∈ log k, offset r < logEnd k

/-- What a running reader has passed is processed, or it is still going to work on it. -/
structure Follows (log : κ → List ρ) (logEnd : κ → Int) (processed : List ρ)
    (reader : Reader κ ρ) : Prop where
  inside : ∀ k, reader.position k ≤ logEnd k
  stored : ∀ m ∈ reader.pending, m ∈ log (key m)
  passed : ∀ k, ∀ r ∈ log k, offset r < reader.position k → r ∈ processed ∨ r ∈ reader.pending
  ahead : ∀ pre m post, reader.pending = pre ++ m :: post → ∀ r ∈ log (key m),
    offset r < offset m → r ∈ processed ∨ r ∈ pre

/-- **What is committed is processed.** -/
structure Covers (s : Group κ ρ) : Prop where
  ordered : Ordered key offset s.log s.logEnd
  inside : ∀ k, s.committed k ≤ s.logEnd k
  covered : ∀ k, ∀ r ∈ s.log k, offset r < s.committed k → r ∈ s.processed
  follows : ∀ c, (s.readers c).running = true →
    Follows key offset s.log s.logEnd s.processed (s.readers c)

variable {key offset} {log : κ → List ρ} {logEnd : κ → Int} {processed : List ρ}
  {reader : Reader κ ρ} {s : Group κ ρ}

omit [DecidableEq κ] in
/-- In a log in order, an offset belongs to one record. -/
theorem Ordered.eq_of_offset (h : Ordered key offset log logEnd) {k : κ} {a b : ρ}
    (ha : a ∈ log k) (hb : b ∈ log k) (heq : offset a = offset b) : a = b := by
  have hnodup : ((log k).map offset).Nodup :=
    List.pairwise_map.2 ((h.sorted k).imp fun hlt => ne_of_lt hlt)
  exact List.inj_on_of_nodup_map hnodup ha hb heq

/-- A front of a list in order has all that is not beyond one of its members. -/
theorem mem_take_of_le {xs : List ρ} (h : xs.Pairwise fun a b => offset a < offset b) {n : Nat}
    {x y : ρ} (hy : y ∈ xs.take n) (hx : x ∈ xs) (hle : offset x ≤ offset y) : x ∈ xs.take n := by
  rw [← List.take_append_drop n xs] at h hx
  rcases List.mem_append.1 hx with hfront | hback
  · exact hfront
  · have hlt := (List.pairwise_append.1 h).2.2 y hy x hback
    omega

omit [DecidableEq κ] in
theorem Follows.mono {processed' : List ρ} (h : Follows key offset log logEnd processed reader)
    (hsub : ∀ r ∈ processed, r ∈ processed') :
    Follows key offset log logEnd processed' reader where
  inside := h.inside
  stored := h.stored
  passed k r hr hlt := (h.passed k r hr hlt).imp_left (hsub r)
  ahead pre m post heq r hr hlt := (h.ahead pre m post heq r hr hlt).imp_left (hsub r)

/-! ### Fetching -/

omit [DecidableEq κ] in
theorem mem_log_of_mem_batch {position : κ → Int} {want : κ × Nat} {m : ρ}
    (hm : m ∈ batch offset log position want) : m ∈ log want.1 :=
  (List.mem_filter.1 (List.mem_of_mem_take hm)).1

omit [DecidableEq κ] in
theorem Ordered.batch (ho : Ordered key offset log logEnd) (position : κ → Int) (want : κ × Nat) :
    (batch offset log position want).Pairwise fun a b => offset a < offset b :=
  ((ho.sorted want.1).filter _).sublist (List.take_sublist _ _)

omit [DecidableEq κ] in
/-- A record that is not beyond a fetched one was passed before, or is fetched with it. -/
theorem Follows.reach (ho : Ordered key offset log logEnd)
    (h : Follows key offset log logEnd processed reader) {want : κ × Nat} {r m : ρ}
    (hr : r ∈ log want.1) (hm : m ∈ batch offset log reader.position want)
    (hle : offset r ≤ offset m) :
    (r ∈ processed ∨ r ∈ reader.pending) ∨ r ∈ batch offset log reader.position want := by
  by_cases hlt : offset r < reader.position want.1
  · exact .inl (h.passed want.1 r hr hlt)
  · have hin : r ∈ (log want.1).filter fun r => reader.position want.1 ≤ offset r :=
      List.mem_filter.2 ⟨hr, by simpa using hlt⟩
    exact .inr (mem_take_of_le ((ho.sorted want.1).filter _) hm hin hle)

/-- What lies before the new position was passed before, or is fetched. -/
theorem Follows.passed_beyond (ho : Ordered key offset log logEnd)
    (h : Follows key offset log logEnd processed reader) (want : κ × Nat) {k : κ} {r : ρ}
    (hr : r ∈ log k)
    (hlt : offset r < beyond offset reader.position want.1
      (OffsetLog.batch offset log reader.position want) k) :
    (r ∈ processed ∨ r ∈ reader.pending) ∨ r ∈ OffsetLog.batch offset log reader.position want := by
  unfold beyond at hlt
  cases hlast : (OffsetLog.batch offset log reader.position want).getLast? with
  | none =>
    rw [hlast] at hlt
    exact .inl (h.passed k r hr hlt)
  | some l =>
    rw [hlast] at hlt
    by_cases hk : k = want.1
    · subst hk
      have hle : offset r ≤ offset l := by
        simp only [Function.update_self] at hlt
        omega
      exact h.reach ho hr (List.mem_of_getLast? hlast) hle
    · simp only [Function.update_of_ne hk] at hlt
      exact .inl (h.passed k r hr hlt)

theorem Follows.beyond_le (ho : Ordered key offset log logEnd)
    (h : Follows key offset log logEnd processed reader) (want : κ × Nat) (k : κ) :
    beyond offset reader.position want.1 (OffsetLog.batch offset log reader.position want) k ≤
      logEnd k := by
  unfold beyond
  cases hlast : (OffsetLog.batch offset log reader.position want).getLast? with
  | none => exact h.inside k
  | some l =>
    by_cases hk : k = want.1
    · subst hk
      have hend := ho.ends want.1 l (mem_log_of_mem_batch (List.mem_of_getLast? hlast))
      simp only [Function.update_self]
      omega
    · simp only [Function.update_of_ne hk]
      exact h.inside k

/-- **Fetching skips nothing.** -/
theorem Follows.fetch (ho : Ordered key offset log logEnd)
    (h : Follows key offset log logEnd processed reader) (want : κ × Nat) :
    Follows key offset log logEnd processed (fetch offset log reader want) where
  inside := h.beyond_le ho want
  stored := by
    intro m hm
    rcases List.mem_append.1 hm with hold | hnew
    · exact h.stored m hold
    · have hlog := mem_log_of_mem_batch hnew
      rwa [ho.keyed want.1 m hlog]
  passed := by
    intro k r hr hlt
    rcases h.passed_beyond ho want hr hlt with (hp | hp) | hp
    · exact .inl hp
    · exact .inr (List.mem_append.2 (.inl hp))
    · exact .inr (List.mem_append.2 (.inr hp))
  ahead := by
    intro pre m post heq r hr hlt
    -- a record of the batch comes after all that was pending
    have hnew : ∀ mid, pre = reader.pending ++ mid →
        OffsetLog.batch offset log reader.position want = mid ++ m :: post →
        r ∈ processed ∨ r ∈ pre := by
      intro mid hpre hbatch
      have hm : m ∈ OffsetLog.batch offset log reader.position want := by
        rw [hbatch]
        exact List.mem_append.2 (.inr List.mem_cons_self)
      rw [ho.keyed want.1 m (mem_log_of_mem_batch hm)] at hr
      have hsorted := ho.batch reader.position want
      rw [hbatch] at hsorted
      rcases h.reach ho hr hm (Int.le_of_lt hlt) with (hp | hp) | hp
      · exact .inl hp
      · exact .inr (by rw [hpre]; exact List.mem_append.2 (.inl hp))
      · rw [hbatch] at hp
        rcases List.mem_append.1 hp with hmid | hrest
        · exact .inr (by rw [hpre]; exact List.mem_append.2 (.inr hmid))
        · rcases List.mem_cons.1 hrest with hself | hpost
          · rw [hself] at hlt
            omega
          · have hbeyond :=
              (List.pairwise_cons.1 (List.pairwise_append.1 hsorted).2.1).1 r hpost
            omega
    rcases List.append_eq_append_iff.1 heq with ⟨mid, hpre, hbatch⟩ | ⟨mid, hpend, htail⟩
    · exact hnew mid hpre hbatch
    · cases mid with
      | nil => exact hnew [] (by simpa using hpend.symm) (by simpa using htail.symm)
      | cons m' mid =>
        obtain ⟨rfl, -⟩ := List.cons.inj htail
        exact h.ahead pre m mid hpend r hr hlt

theorem Follows.fetchAll (ho : Ordered key offset log logEnd)
    (h : Follows key offset log logEnd processed reader) (counts : List (κ × Nat)) :
    Follows key offset log logEnd processed (counts.foldl (OffsetLog.fetch offset log) reader) := by
  induction counts generalizing reader with
  | nil => exact h
  | cons want counts ih => exact ih (h.fetch ho want)

/-! ### Steps and runs -/

/-- Appending a record beyond the end keeps the log in order. -/
theorem Ordered.append (h : Ordered key offset log logEnd) {r : ρ}
    (hr : logEnd (key r) ≤ offset r) :
    Ordered key offset (Function.update log (key r) (log (key r) ++ [r]))
      (Function.update logEnd (key r) (offset r + 1)) := by
  refine ⟨fun k => ?_, fun k m hm => ?_, fun k m hm => ?_⟩
  · by_cases hk : k = key r
    · subst hk
      rw [Function.update_self, List.pairwise_append]
      refine ⟨h.sorted _, List.pairwise_singleton _ _, fun a ha b hb => ?_⟩
      rw [List.mem_singleton.1 hb]
      have hend := h.ends _ a ha
      omega
    · rw [Function.update_of_ne hk]
      exact h.sorted k
  · by_cases hk : k = key r
    · subst hk
      rw [Function.update_self] at hm
      rcases List.mem_append.1 hm with hold | hnew
      · exact h.keyed _ m hold
      · rw [List.mem_singleton.1 hnew]
    · rw [Function.update_of_ne hk] at hm
      exact h.keyed k m hm
  · by_cases hk : k = key r
    · subst hk
      rw [Function.update_self] at hm ⊢
      rcases List.mem_append.1 hm with hold | hnew
      · have hend := h.ends _ m hold
        omega
      · rw [List.mem_singleton.1 hnew]
        omega
    · rw [Function.update_of_ne hk] at hm ⊢
      exact h.ends k m hm

/-- A record of the longer log is one of the shorter, or the new one. -/
theorem mem_append_log {r m : ρ} {k : κ}
    (hm : m ∈ Function.update log (key r) (log (key r) ++ [r]) k) :
    m ∈ log k ∨ m = r ∧ k = key r := by
  by_cases hk : k = key r
  · subst hk
    rw [Function.update_self] at hm
    rcases List.mem_append.1 hm with hold | hnew
    · exact .inl hold
    · exact .inr ⟨List.mem_singleton.1 hnew, rfl⟩
  · rw [Function.update_of_ne hk] at hm
    exact .inl hm

/-- A new record is ahead of every reader. -/
theorem Follows.append (ho : Ordered key offset log logEnd)
    (h : Follows key offset log logEnd processed reader) {r : ρ}
    (hr : logEnd (key r) ≤ offset r) :
    Follows key offset (Function.update log (key r) (log (key r) ++ [r]))
      (Function.update logEnd (key r) (offset r + 1)) processed reader where
  inside := by
    intro k
    have hin := h.inside k
    by_cases hk : k = key r
    · subst hk
      rw [Function.update_self]
      omega
    · rwa [Function.update_of_ne hk]
  stored := by
    intro m hm
    have hlog := h.stored m hm
    by_cases hk : key m = key r
    · rw [hk] at hlog ⊢
      rw [Function.update_self]
      exact List.mem_append.2 (.inl hlog)
    · rwa [Function.update_of_ne hk]
  passed := by
    intro k m hm hlt
    rcases mem_append_log hm with hold | ⟨rfl, rfl⟩
    · exact h.passed k m hold hlt
    · have hin := h.inside (key m)
      omega
  ahead := by
    intro pre m post heq m' hm' hlt
    rcases mem_append_log hm' with hold | ⟨rfl, hk⟩
    · exact h.ahead pre m post heq m' hold hlt
    · have hmem : m ∈ reader.pending := by
        rw [heq]
        exact List.mem_append.2 (.inr List.mem_cons_self)
      have hend := ho.ends _ m (h.stored m hmem)
      rw [hk] at hend
      omega

omit [DecidableEq κ] in
/-- A reader that starts from the committed offsets has passed only what is processed. -/
theorem Covers.follows_start (h : Covers key offset s) :
    Follows key offset s.log s.logEnd s.processed ⟨s.committed, [], true⟩ where
  inside := h.inside
  stored := nofun
  passed k r hr hlt := .inl (h.covered k r hr hlt)
  ahead pre m post heq := by simp at heq

/-- So has one that takes up another log. -/
theorem Covers.follows_assign (h : Covers key offset s)
    (hf : Follows key offset s.log s.logEnd s.processed reader) (k : κ) :
    Follows key offset s.log s.logEnd s.processed
      { reader with position := Function.update reader.position k (s.committed k) } where
  inside := by
    intro k'
    by_cases hk : k' = k
    · subst hk
      simp only [Function.update_self]
      exact h.inside k'
    · simp only [Function.update_of_ne hk]
      exact hf.inside k'
  stored := hf.stored
  passed := by
    intro k' r hr hlt
    by_cases hk : k' = k
    · subst hk
      simp only [Function.update_self] at hlt
      exact .inl (h.covered k' r hr hlt)
    · simp only [Function.update_of_ne hk] at hlt
      exact hf.passed k' r hr hlt
  ahead := hf.ahead

omit [DecidableEq κ] in
/-- The reader goes on after a processed record. -/
theorem Follows.next (h : Follows key offset log logEnd processed reader) {r : ρ} {rest : List ρ}
    (hp : reader.pending = r :: rest) :
    Follows key offset log logEnd (processed ++ [r]) { reader with pending := rest } where
  inside := h.inside
  stored m hm := h.stored m (by rw [hp]; exact List.mem_cons_of_mem r hm)
  passed := by
    intro k m hm hlt
    rcases h.passed k m hm hlt with hd | hd
    · exact .inl (List.mem_append.2 (.inl hd))
    · rw [hp] at hd
      rcases List.mem_cons.1 hd with rfl | hd
      · exact .inl (List.mem_append.2 (.inr (List.mem_singleton.2 rfl)))
      · exact .inr hd
  ahead := by
    intro pre m post heq m' hm' hlt
    have hsplit : reader.pending = (r :: pre) ++ m :: post := by
      rw [hp]
      exact congrArg (r :: ·) heq
    rcases h.ahead (r :: pre) m post hsplit m' hm' hlt with hd | hd
    · exact .inl (List.mem_append.2 (.inl hd))
    · rcases List.mem_cons.1 hd with rfl | hd
      · exact .inl (List.mem_append.2 (.inr (List.mem_singleton.2 rfl)))
      · exact .inr hd

omit [DecidableEq κ] in
/-- All that comes before the first record that is pending is processed. -/
theorem Follows.before_first (h : Follows key offset log logEnd processed reader) {r m : ρ}
    {rest : List ρ} (hp : reader.pending = r :: rest) (hm : m ∈ log (key r))
    (hlt : offset m < offset r) : m ∈ processed := by
  rcases h.ahead [] r rest hp m hm hlt with hd | hd
  · exact hd
  · cases hd

omit [DecidableEq κ] in
/-- The readers that are not touched follow a group in which more is processed. -/
theorem Covers.follows_others (h : Covers key offset s) {processed' : List ρ}
    (hsub : ∀ r ∈ s.processed, r ∈ processed') {c c' : Nat} {reader : Reader κ ρ}
    (hself : reader.running = true →
      Follows key offset s.log s.logEnd processed' reader)
    (hrun : (Function.update s.readers c reader c').running = true) :
    Follows key offset s.log s.logEnd processed' (Function.update s.readers c reader c') := by
  by_cases hc : c' = c
  · subst hc
    rw [Function.update_self] at hrun ⊢
    exact hself hrun
  · rw [Function.update_of_ne hc] at hrun ⊢
    exact (h.follows c' hrun).mono hsub

/-- The work on a record keeps the cover. -/
theorem Covers.work (h : Covers key offset s) {c : Nat} {r : ρ} {rest : List ρ}
    (hp : (s.readers c).pending = r :: rest) (hrunning : (s.readers c).running = true)
    (outcome : Outcome) :
    Covers key offset
      { s with
        committed := commitAfter key offset s.committed r outcome
        readers := Function.update s.readers c ((s.readers c).worked rest outcome)
        processed := processedAfter s.processed r outcome } := by
  have hf := h.follows c hrunning
  have hlog : r ∈ s.log (key r) := hf.stored r (by rw [hp]; exact List.mem_cons_self)
  cases outcome with
  | unprocessed =>
    exact ⟨h.ordered, h.inside, h.covered, fun c' hrun =>
      h.follows_others (fun _ hm => hm) (fun hstop => by cases hstop) hrun⟩
  | processed committed goesOn =>
    have hsub : ∀ m ∈ s.processed, m ∈ s.processed ++ [r] :=
      fun m hm => List.mem_append.2 (.inl hm)
    have hnew : r ∈ s.processed ++ [r] := List.mem_append.2 (.inr (List.mem_singleton.2 rfl))
    refine ⟨h.ordered, ?_, ?_, ?_⟩
    · intro k
      have hin := h.inside k
      cases committed with
      | false => exact hin
      | true =>
        by_cases hk : k = key r
        · subst hk
          have hend := h.ordered.ends _ r hlog
          simp only [commitAfter, Function.update_self]
          omega
        · simp only [commitAfter, Function.update_of_ne hk]
          exact hin
    · intro k m hm hlt
      cases committed with
      | false => exact hsub m (h.covered k m hm hlt)
      | true =>
        by_cases hk : k = key r
        · subst hk
          simp only [commitAfter, Function.update_self] at hlt
          -- the committed offset is just beyond the record, and all before it is processed
          by_cases heq : offset m = offset r
          · rw [h.ordered.eq_of_offset hm hlog heq]
            exact hnew
          · exact hsub m (hf.before_first hp hm (by omega))
        · simp only [commitAfter, Function.update_of_ne hk] at hlt
          exact hsub m (h.covered k m hm hlt)
    · intro c' hrun
      refine h.follows_others hsub (fun hgoes => ?_) hrun
      cases goesOn with
      | false => cases hgoes
      | true => exact hf.next hp

/-- **One step** keeps what is committed processed. -/
theorem Covers.step (h : Covers key offset s) (a : Action κ ρ) :
    Covers key offset (step key offset s a) := by
  cases a with
  | append r =>
    rw [OffsetLog.step]
    by_cases hr : s.logEnd (key r) ≤ offset r
    · rw [if_pos hr]
      refine ⟨h.ordered.append hr, ?_, ?_, fun c hrun => (h.follows c hrun).append h.ordered hr⟩
      · intro k
        have hin := h.inside k
        by_cases hk : k = key r
        · subst hk
          simp only [Function.update_self]
          omega
        · simp only [Function.update_of_ne hk]
          exact hin
      · intro k m hm hlt
        rcases mem_append_log hm with hold | ⟨rfl, rfl⟩
        · exact h.covered k m hold hlt
        · have hin := h.inside (key m)
          have hcommitted : offset m < s.committed (key m) := hlt
          omega
    · rw [if_neg hr]
      exact h
  | restart c =>
    exact ⟨h.ordered, h.inside, h.covered, fun c' hrun =>
      h.follows_others (fun _ hm => hm) (fun _ => h.follows_start) hrun⟩
  | assign c k =>
    exact ⟨h.ordered, h.inside, h.covered, fun c' hrun =>
      h.follows_others (fun _ hm => hm)
        (fun hstill => h.follows_assign (h.follows c hstill) k) hrun⟩
  | poll c counts =>
    rw [OffsetLog.step]
    by_cases hready : ((s.readers c).running && (s.readers c).pending.isEmpty) = true
    · rw [if_pos hready]
      have hrunning : (s.readers c).running = true := by
        simp only [Bool.and_eq_true] at hready
        exact hready.1
      exact ⟨h.ordered, h.inside, h.covered, fun c' hrun =>
        h.follows_others (fun _ hm => hm)
          (fun _ => (h.follows c hrunning).fetchAll h.ordered counts) hrun⟩
    · rw [if_neg hready]
      exact h
  | work c outcome =>
    rw [OffsetLog.step]
    cases hp : (s.readers c).pending with
    | nil => exact h
    | cons r rest =>
      by_cases hrunning : (s.readers c).running = true
      · simp only [hrunning, if_true]
        exact h.work hp hrunning outcome
      · simp only [hrunning]
        exact h

/-- Nobody reads yet, and the committed offsets are at the beginning of the logs. -/
structure Fresh (key : ρ → κ) (offset : ρ → Int) (s : Group κ ρ) : Prop where
  ordered : Ordered key offset s.log s.logEnd
  inside : ∀ k, s.committed k ≤ s.logEnd k
  earliest : ∀ k, ∀ r ∈ s.log k, s.committed k ≤ offset r
  stopped : ∀ c, (s.readers c).running = false

omit [DecidableEq κ] in
theorem Fresh.covers (h : Fresh key offset s) : Covers key offset s where
  ordered := h.ordered
  inside := h.inside
  covered k r hr hlt := by
    have hfirst := h.earliest k r hr
    omega
  follows c hrun := by
    rw [h.stopped c] at hrun
    cases hrun

/-- **Whatever the readers do, a committed offset passes only records that were processed.** -/
theorem covers_exec (h : Fresh key offset s) (actions : List (Action κ ρ)) :
    Covers key offset (Run.exec (step key offset) s actions) :=
  Run.exec_invariant (fun _ a hs => hs.step a) h.covers actions

end
end OffsetLog
