import ComputeIntelligence.GuardedRuns
import ComputeIntelligence.PyDict
import Mathlib.Data.List.Dedup
import Mathlib.Data.List.Perm.Subperm

/-! # Lists in order of use

The abstract cache that drops what was used least recently: a list of entries, oldest first,
with distinct keys.  Putting a key and finding it move it to the recent end; what does not fit
is dropped from the other end, and the keys dropped so far are kept beside the list.

The use of the cache is that a key stays while it is used often enough.  `Near` is the
invariant behind it: every entry more recent than `k` was used since `k` was.  So `k` is
found, with the value it had, as long as it is not removed and fewer distinct keys than there
is room for have been used since (`lookup_of_recent`).
-/
namespace LruList
variable {K V : Type} [DecidableEq K]

/-- The entries, oldest first, and the keys dropped for want of room. -/
structure State (K V : Type) where
  entries : List (K × V) := []
  dropped : List K := []

/-- What is done to the cache.  The value put may depend on the one that is there. -/
inductive Op (K V : Type) where
  | put (k : K) (update : Option V → V)
  | get (k : K)
  | remove (k : K)
  | clear

/-- The value at a key. -/
def lookup (s : State K V) (k : K) : Option V := PyDict.find k s.entries

/-- The entries with one of them at the recent end. -/
def latest (k : K) (v : V) (entries : List (K × V)) : List (K × V) :=
  PyDict.without k entries ++ [(k, v)]

/-- What fits, the oldest entries being dropped. -/
def trim (capacity : Nat) (s : State K V) : State K V where
  entries := s.entries.drop (s.entries.length - capacity)
  dropped := s.dropped ++ (s.entries.take (s.entries.length - capacity)).map Prod.fst

/-- One operation. -/
def step (capacity : Nat) (s : State K V) : Op K V → State K V
  | .put k update => trim capacity { s with entries := latest k (update (lookup s k)) s.entries }
  | .get k => match lookup s k with
    | some v => { s with entries := latest k v s.entries }
    | none => s
  | .remove k => { s with entries := PyDict.without k s.entries }
  | .clear => { s with entries := [] }

/-- The key that an operation uses. -/
def used (s : State K V) : Op K V → Option K
  | .put k _ => some k
  | .get k => if (lookup s k).isSome then some k else none
  | .remove _ | .clear => none

/-- The keys that the operations of a run use, in order. -/
def usedBy (capacity : Nat) : State K V → List (Op K V) → List K
  | _, [] => []
  | s, op :: ops => (used s op).toList ++ usedBy capacity (step capacity s op) ops

/-- The operation removes the key. -/
def Removes (k : K) : Op K V → Prop
  | .remove k' => k' = k
  | .clear => True
  | _ => False

/-! ### Distinct keys and room -/

/-- No two entries have the same key. -/
def Distinct (s : State K V) : Prop := (s.entries.map Prod.fst).Nodup

theorem distinct_latest {entries : List (K × V)} (h : (entries.map Prod.fst).Nodup) (k : K) (v : V) :
    ((latest k v entries).map Prod.fst).Nodup := by
  unfold latest
  rw [List.map_append, List.nodup_append]
  refine ⟨PyDict.sublist_nodup List.filter_sublist h, List.nodup_singleton k, ?_⟩
  intro a ha b hb hab
  obtain ⟨p, hp, rfl⟩ := List.mem_map.1 ha
  have hne := of_decide_eq_true (List.mem_filter.1 hp).2
  exact hne (hab.trans (List.mem_singleton.1 hb))

theorem Distinct.step {s : State K V} (h : Distinct s) (capacity : Nat) (op : Op K V) :
    Distinct (step capacity s op) := by
  cases op with
  | put k update => exact PyDict.sublist_nodup (List.drop_sublist _ _) (distinct_latest h k _)
  | get k =>
    unfold LruList.step
    dsimp only
    split
    · exact distinct_latest h k _
    · exact h
  | remove k => exact PyDict.sublist_nodup List.filter_sublist h
  | clear => exact List.nodup_nil

/-- There is room for the entries. -/
def Fits (capacity : Nat) (s : State K V) : Prop := s.entries.length ≤ capacity

omit [DecidableEq K] in
theorem fits_trim (capacity : Nat) (s : State K V) : Fits capacity (trim capacity s) := by
  unfold Fits trim
  rw [List.length_drop]
  omega

/-- Moving an entry adds none. -/
theorem length_latest_le {entries : List (K × V)} {k : K} {v : V}
    (h : PyDict.find k entries = some v) (w : V) :
    (latest k w entries).length ≤ entries.length := by
  have hlt : (PyDict.without k entries).length < entries.length :=
    List.length_filter_lt_length_iff_exists.2 ⟨(k, v), PyDict.mem_of_find h, by simp⟩
  unfold latest
  rw [List.length_append, List.length_singleton]
  omega

theorem Fits.step {capacity : Nat} {s : State K V} (h : Fits capacity s) (op : Op K V) :
    Fits capacity (step capacity s op) := by
  cases op with
  | put k update => exact fits_trim capacity _
  | get k =>
    unfold LruList.step
    dsimp only
    split
    · rename_i hfound
      exact le_trans (length_latest_le hfound _) h
    · exact h
  | remove k => exact le_trans (List.length_filter_le _ _) h
  | clear => exact Nat.zero_le _

/-! ### What stays -/

/-- The entry of `k` is there, and all that are more recent have keys in `since`. -/
def Near (k : K) (v : V) (since : List K) (s : State K V) : Prop :=
  ∃ older newer, s.entries = older ++ (k, v) :: newer ∧ ∀ p ∈ newer, p.1 ∈ since

/-- As many entries are more recent as distinct keys were used since, at most. -/
theorem length_newer_le {entries older newer : List (K × V)} {p : K × V} {since : List K}
    (hdistinct : (entries.map Prod.fst).Nodup) (hentries : entries = older ++ p :: newer)
    (hsince : ∀ q ∈ newer, q.1 ∈ since) : newer.length ≤ since.dedup.length := by
  have hnodup : (newer.map Prod.fst).Nodup := by
    apply PyDict.sublist_nodup ?_ hdistinct
    rw [hentries]
    exact (List.sublist_cons_self p newer).trans (List.sublist_append_right older _)
  have hsubset : newer.map Prod.fst ⊆ since.dedup := by
    intro a ha
    obtain ⟨q, hq, rfl⟩ := List.mem_map.1 ha
    exact List.mem_dedup.2 (hsince q hq)
  have hle := (List.Nodup.subperm hnodup hsubset).length_le
  rwa [List.length_map] at hle

theorem Near.lookup_eq {k : K} {v : V} {since : List K} {s : State K V} (h : Near k v since s)
    (hdistinct : Distinct s) : lookup s k = some v := by
  obtain ⟨older, newer, hentries, -⟩ := h
  apply PyDict.find_of_mem hdistinct
  rw [hentries]
  exact List.mem_append_right older List.mem_cons_self

theorem without_split {k k' : K} (hne : k ≠ k') (v : V) (older newer : List (K × V)) :
    PyDict.without k' (older ++ (k, v) :: newer) =
      PyDict.without k' older ++ (k, v) :: PyDict.without k' newer := by
  have hkeep : decide ((k, v).1 ≠ k') = true := decide_eq_true hne
  unfold PyDict.without
  rw [List.filter_append, List.filter_cons, if_pos hkeep]

/-- Another key at the recent end. -/
theorem Near.latest {k k' : K} {v v' : V} {since : List K} {s : State K V} (h : Near k v since s)
    (hne : k ≠ k') : Near k v (since ++ [k']) { s with entries := latest k' v' s.entries } := by
  obtain ⟨older, newer, hentries, hsince⟩ := h
  refine ⟨PyDict.without k' older, PyDict.without k' newer ++ [(k', v')], ?_, ?_⟩
  · unfold LruList.latest
    dsimp only
    rw [hentries, without_split hne, List.append_assoc, List.cons_append]
  · intro p hp
    rcases List.mem_append.1 hp with hp | hp
    · exact List.mem_append_left [k'] (hsince p (List.mem_filter.1 hp).1)
    · rw [List.mem_singleton.1 hp]
      exact List.mem_append_right since (List.mem_singleton_self k')

/-- What is near enough is not dropped. -/
theorem Near.trim {k : K} {v : V} {since : List K} {s : State K V} (h : Near k v since s)
    (hdistinct : Distinct s) {capacity : Nat} (hroom : since.dedup.length < capacity) :
    Near k v since (trim capacity s) := by
  obtain ⟨older, newer, hentries, hsince⟩ := h
  have hnewer := length_newer_le hdistinct hentries hsince
  have hlength : s.entries.length = older.length + (newer.length + 1) := by
    rw [hentries, List.length_append, List.length_cons]
  refine ⟨older.drop (s.entries.length - capacity), newer, ?_, hsince⟩
  -- what has to go is older than the key
  have hdrop : s.entries.length - capacity ≤ older.length := by omega
  show s.entries.drop (s.entries.length - capacity) = _
  generalize s.entries.length - capacity = n at hdrop
  rw [hentries, List.drop_append_of_le_length hdrop]

/-- The key that was just used has nothing more recent. -/
theorem near_of_used {k : K} {s : State K V} {op : Op K V} (hused : used s op = some k)
    (hdistinct : Distinct s) {capacity : Nat} (hroom : 0 < capacity) :
    ∃ v, Near k v [] (step capacity s op) := by
  have hlast : ∀ v, Near k v [] { s with entries := latest k v s.entries } := fun v =>
    ⟨PyDict.without k s.entries, [], rfl, fun p hp => absurd hp List.not_mem_nil⟩
  cases op with
  | put k' update =>
    obtain rfl : k' = k := Option.some.inj hused
    refine ⟨update (lookup s k'), (hlast _).trim (distinct_latest hdistinct k' _) ?_⟩
    exact hroom
  | get k' =>
    unfold used at hused
    cases hfound : lookup s k' with
    | none =>
      simp only [hfound] at hused
      cases hused
    | some v =>
      simp only [hfound] at hused
      obtain rfl : k' = k := Option.some.inj hused
      refine ⟨v, ?_⟩
      simp only [step, hfound]
      exact hlast v
  | remove k' => cases hused
  | clear => cases hused

/-- One operation that neither uses nor removes the key. -/
theorem Near.step {k : K} {v : V} {since : List K} {s : State K V} (h : Near k v since s)
    (hdistinct : Distinct s) {capacity : Nat} {op : Op K V} (hremoves : ¬Removes k op)
    (hused : used s op ≠ some k)
    (hroom : (since ++ (used s op).toList).dedup.length < capacity) :
    Near k v (since ++ (used s op).toList) (step capacity s op) := by
  cases op with
  | put k' update =>
    have hne : k ≠ k' := fun heq => hused (congrArg some heq.symm)
    exact (h.latest hne).trim (distinct_latest hdistinct k' _) hroom
  | get k' =>
    -- a hit moves the other key to the recent end, a miss moves nothing
    unfold used at hused hroom ⊢
    cases hfound : lookup s k' with
    | none =>
      simp only [LruList.step, hfound]
      rw [show (if (none : Option V).isSome = true then some k' else none).toList = [] from rfl,
        List.append_nil]
      exact h
    | some w =>
      simp only [hfound] at hused
      have hne : k ≠ k' := fun heq => hused (congrArg some heq.symm)
      simp only [LruList.step, hfound]
      exact h.latest hne
  | remove k' =>
    have hne : k ≠ k' := fun heq => hremoves heq.symm
    obtain ⟨older, newer, hentries, hsince⟩ := h
    refine ⟨PyDict.without k' older, PyDict.without k' newer, ?_, fun p hp => ?_⟩
    · show PyDict.without k' s.entries = _
      rw [hentries, without_split hne]
    · exact List.mem_append_left _ (hsince p (List.mem_filter.1 hp).1)
  | clear => exact absurd trivial hremoves

theorem length_dedup_append_le (xs ys : List K) : xs.dedup.length ≤ (xs ++ ys).dedup.length := by
  have hsubset : xs.dedup ⊆ (xs ++ ys).dedup := fun a ha =>
    List.mem_dedup.2 (List.mem_append_left ys (List.mem_dedup.1 ha))
  exact (List.Nodup.subperm (List.nodup_dedup xs) hsubset).length_le

/-- A key stays, with its value, while fewer keys are used than there is room for. -/
theorem Near.exec {k : K} {v : V} {capacity : Nat} {ops : List (Op K V)} {since : List K}
    {s : State K V} (h : Near k v since s) (hdistinct : Distinct s)
    (hremoves : ∀ op ∈ ops, ¬Removes k op) (hused : k ∉ usedBy capacity s ops)
    (hroom : (since ++ usedBy capacity s ops).dedup.length < capacity) :
    ∃ since, Near k v since (Run.exec (LruList.step capacity) s ops) := by
  -- `since` grows by what each operation uses, and stays small enough to the end
  induction ops generalizing s since with
  | nil => exact ⟨since, h⟩
  | cons op ops ih =>
    rw [usedBy, List.mem_append, not_or] at hused
    rw [usedBy, ← List.append_assoc] at hroom
    have hnext : Near k v (since ++ (used s op).toList) (LruList.step capacity s op) :=
      h.step hdistinct (hremoves op List.mem_cons_self)
        (fun heq => hused.1 (by rw [heq]; exact List.mem_singleton_self k))
        (lt_of_le_of_lt (length_dedup_append_le _ _) hroom)
    exact ih hnext (hdistinct.step capacity op)
      (fun op' hop' => hremoves op' (List.mem_cons_of_mem op hop')) hused.2 hroom

/-- A key that was used is found, with the value it had then, while it is not removed and fewer
distinct keys than there is room for are used after it. -/
theorem lookup_of_recent {k : K} {capacity : Nat} (hcapacity : 0 < capacity) {s : State K V}
    (hdistinct : Distinct s) {op : Op K V} (hop : used s op = some k) {ops : List (Op K V)}
    (hremoves : ∀ op ∈ ops, ¬Removes k op) (hused : k ∉ usedBy capacity (step capacity s op) ops)
    (hroom : (usedBy capacity (step capacity s op) ops).dedup.length < capacity) :
    ∃ v, lookup (step capacity s op) k = some v ∧
      lookup (Run.exec (step capacity) (step capacity s op) ops) k = some v := by
  obtain ⟨v, hnear⟩ := near_of_used hop hdistinct hcapacity
  have hnext := hdistinct.step capacity op
  obtain ⟨since, hlater⟩ := hnear.exec hnext hremoves hused hroom
  refine ⟨v, hnear.lookup_eq hnext, hlater.lookup_eq ?_⟩
  exact Run.exec_invariant (fun _ op h => h.step capacity op) hnext ops

end LruList
