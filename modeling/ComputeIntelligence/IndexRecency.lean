import ComputeIntelligence.DurableIndex
import ComputeIntelligence.LruList

/-! # The index without Redis

Without a durable backend an `AttributionIndexStore` is a list in order of use: its ordered
dictionary holds the entries of the list, its version map the versions of these entries, and
its eviction counter the number of keys the list has dropped.  Each of the four calls keeps
that relation, so what is known of the list holds of every run of the store.
-/
namespace ComputeIntelligence.AttributionIndexStore

/-- A call on the store. -/
inductive LocalCall where
  | materialize (entry : AttributionIndexEntry) (now : Instant)
  | lookup (workloadId : String)
  | evict (workloadId : String)
  | clear

namespace LocalCall

/-- The operation on the list.  The version that is put is one above the one that is there. -/
def op : LocalCall → LruList.Op String AttributionIndexEntry
  | materialize entry now =>
      .put entry.workloadId fun old =>
        { entry with
          version := (old.map AttributionIndexEntry.version).getD 0 + 1, materializedAt := now }
  | lookup w => .get w
  | evict w => .remove w
  | clear => .clear

/-- The call takes the workload out of the index. -/
def Removes (w : String) : LocalCall → Prop
  | evict w' => w' = w
  | clear => True
  | _ => False

end LocalCall

/-- One call.  Nothing reads or writes the database. -/
def call (db : RedisDb) (s : AttributionIndexStore) : LocalCall → AttributionIndexStore
  | .materialize entry now => (s.materialize db entry now).1
  | .lookup w => (s.lookup db w).1
  | .evict w => (s.evict db w).1
  | .clear => (s.clear db).1

/-- A new store without Redis. -/
def withoutRedis (maxEntries : Nat) : AttributionIndexStore := { settings := { maxEntries } }

/-- The workload that a call materializes or hits. -/
def touched (s : AttributionIndexStore) : LocalCall → Option String
  | .materialize entry _ => some entry.workloadId
  | .lookup w => if s.index.contains w then some w else none
  | .evict _ | .clear => none

/-- The workloads that the calls of a run materialize or hit, in order. -/
def touchedBy (db : RedisDb) : AttributionIndexStore → List LocalCall → List String
  | _, [] => []
  | s, c :: calls => (s.touched c).toList ++ touchedBy db (s.call db c) calls

/-- The entry and the time of a workload's last materialization. -/
def lastMaterialized (w : String) (calls : List LocalCall) :
    Option (AttributionIndexEntry × Instant) :=
  calls.foldl (fun last c => match c with
    | .materialize entry now => if entry.workloadId = w then some (entry, now) else last
    | _ => last) none

/-! ### The list behind the store -/

/-- The store holds the entries of the list. -/
structure Refines (s : AttributionIndexStore) (l : LruList.State String AttributionIndexEntry) :
    Prop where
  alone : s.settings.durableEnabled = false
  coherent : s.Coherent
  entries : s.index.items = l.entries
  evictions : s.counters.evictions = l.dropped.length

theorem Refines.lookup_eq {s : AttributionIndexStore}
    {l : LruList.State String AttributionIndexEntry} (h : Refines s l) (w : String) :
    LruList.lookup l w = s.index.get? w := by
  unfold LruList.lookup PyDict.get?
  rw [h.entries]

theorem Refines.distinct {s : AttributionIndexStore}
    {l : LruList.State String AttributionIndexEntry} (h : Refines s l) : LruList.Distinct l := by
  unfold LruList.Distinct
  rw [← h.entries]
  exact s.index.nodup

/-- The loop drops the oldest entries that do not fit, and counts them. -/
theorem evictOverflow_spec (fuel : Nat) {s : AttributionIndexStore} (h : s.index.size ≤ fuel) :
    (evictOverflow fuel s).index.items =
        s.index.items.drop (s.index.size - s.settings.maxEntries) ∧
      (evictOverflow fuel s).counters.evictions =
        s.counters.evictions + (s.index.size - s.settings.maxEntries) := by
  induction fuel generalizing s with
  | zero =>
    have hzero : s.index.size - s.settings.maxEntries = 0 := by omega
    rw [hzero]
    exact ⟨rfl, rfl⟩
  | succ fuel ih =>
    unfold evictOverflow
    by_cases hlarge : s.settings.maxEntries < s.index.size
    · rw [if_pos hlarge]
      cases hpop : s.index.popFirst with
      | none =>
        have hitems : s.index.items = [] := by
          unfold PyDict.popFirst at hpop
          split at hpop
          · rename_i hnil
            rw [hnil]
          · cases hpop
        have hsize : s.index.size = 0 := by rw [PyDict.size, hitems]; rfl
        omega
      | some popped =>
        obtain ⟨⟨evicted, old⟩, rest⟩ := popped
        have hitems := PyDict.items_popFirst hpop
        have hsize : s.index.size = rest.size + 1 := by
          rw [PyDict.size, hitems]
          rfl
        dsimp only
        obtain ⟨hdrop, hcount⟩ := ih (s := ({ s with
          index := rest, versions := s.versions.erase evicted } : AttributionIndexStore).count
            fun c => { c with evictions := c.evictions + 1 }) (by
              show rest.size ≤ fuel
              omega)
        change _ = rest.items.drop (rest.size - s.settings.maxEntries) at hdrop
        change _ = s.counters.evictions + 1 + (rest.size - s.settings.maxEntries) at hcount
        have hsucc : s.index.size - s.settings.maxEntries =
            rest.size - s.settings.maxEntries + 1 := by omega
        rw [hdrop, hcount, hsucc, hitems, List.drop_succ_cons]
        exact ⟨rfl, by omega⟩
    · have hzero : s.index.size - s.settings.maxEntries = 0 := by omega
      rw [if_neg hlarge, hzero]
      exact ⟨rfl, rfl⟩

/-! ### One call -/

theorem materialize_of_alone {s : AttributionIndexStore} (halone : s.settings.durableEnabled = false)
    (db : RedisDb) (entry : AttributionIndexEntry) (now : Instant) :
    (s.materialize db entry now).1.index = (s.insertLocalLocked (s.stamp entry now)).index ∧
      (s.materialize db entry now).1.settings = s.settings ∧
        (s.materialize db entry now).1.counters.evictions =
            (s.insertLocalLocked (s.stamp entry now)).counters.evictions ∧
          (s.materialize db entry now).1.versions =
            (s.insertLocalLocked (s.stamp entry now)).versions.set entry.workloadId
              (s.stamp entry now).version := by
  have hsettings : (s.insertLocalLocked (s.stamp entry now)).settings = s.settings :=
    evictOverflow_settings _ _
  unfold materialize writeDurableEntry
  simp only [count_settings, hsettings, halone, Bool.false_eq_true, if_false]
  exact ⟨rfl, trivial, rfl, rfl⟩

/-- A materialization without Redis is an insertion of the stamped entry. -/
theorem materialize_inserts {s : AttributionIndexStore} (halone : s.settings.durableEnabled = false)
    (hcoherent : s.Coherent) (hmax : 1 ≤ s.settings.maxEntries) (db : RedisDb)
    (entry : AttributionIndexEntry) (now : Instant) :
    Inserts s (s.materialize db entry now).1 (s.stamp entry now) := by
  obtain ⟨hindex, hsettings, -, hversions⟩ := materialize_of_alone halone db entry now
  have hins := insertLocalLocked_inserts hcoherent hmax (s.stamp entry now)
  refine ⟨hsettings, fun w => ?_, ?_, fun w e => ?_⟩
  · rw [hversions, hindex]
    exact hins.coherent_again w
  · rw [hindex]
    exact hins.new
  · rw [hindex]
    exact hins.old w e

theorem Refines.materialize {s : AttributionIndexStore}
    {l : LruList.State String AttributionIndexEntry} (h : Refines s l)
    (hmax : 1 ≤ s.settings.maxEntries) (db : RedisDb) (entry : AttributionIndexEntry)
    (now : Instant) :
    Refines (s.materialize db entry now).1
      (LruList.step s.settings.maxEntries l (LocalCall.materialize entry now).op) := by
  obtain ⟨hindex, hsettings, hevictions, -⟩ := materialize_of_alone h.alone db entry now
  have hversion : s.versions.getD entry.workloadId 0 =
      ((LruList.lookup l entry.workloadId).map AttributionIndexEntry.version).getD 0 := by
    unfold PyDict.getD
    rw [h.coherent, h.lookup_eq]
  have hstamp : (s.stamp entry now) =
      { entry with
        version := ((LruList.lookup l entry.workloadId).map
          AttributionIndexEntry.version).getD 0 + 1, materializedAt := now } := by
    unfold stamp
    rw [hversion]
  let inserted : AttributionIndexStore := { s with
    index := s.index.setLast entry.workloadId (s.stamp entry now)
    versions := s.versions.set entry.workloadId (s.stamp entry now).version }
  obtain ⟨hitems, hcount⟩ := evictOverflow_spec inserted.index.size (s := inserted) le_rfl
  have hlatest : inserted.index.items =
      LruList.latest entry.workloadId (s.stamp entry now) l.entries := by
    rw [← h.entries]
    rfl
  have hsize : inserted.index.size =
      (LruList.latest entry.workloadId (s.stamp entry now) l.entries).length := by
    rw [← hlatest]
    rfl
  refine ⟨hsettings ▸ h.alone, (materialize_inserts h.alone h.coherent hmax db entry now).coherent,
    ?_, ?_⟩
  · rw [hindex]
    show (evictOverflow inserted.index.size inserted).index.items = _
    rw [hitems, hlatest, hsize, hstamp]
    rfl
  · rw [hevictions]
    show (evictOverflow inserted.index.size inserted).counters.evictions = _
    rw [hcount, hsize, hstamp]
    show s.counters.evictions + _ = (l.dropped ++ _).length
    rw [List.length_append, List.length_map, List.length_take, h.evictions]
    have hle : ∀ n m : Nat, min (n - m) n = n - m := by omega
    exact congrArg _ (hle _ _).symm

theorem lookup_of_alone {s : AttributionIndexStore} (halone : s.settings.durableEnabled = false)
    (db : RedisDb) (w : String) :
    (s.lookup db w).2 = s.index.get? w ∧ (s.lookup db w).1.index = s.index.moveToEnd w ∧
      (s.lookup db w).1.settings = s.settings ∧ (s.lookup db w).1.versions = s.versions ∧
        (s.lookup db w).1.counters.evictions = s.counters.evictions := by
  unfold AttributionIndexStore.lookup
  cases hget : s.index.get? w with
  | some entry => exact ⟨rfl, rfl, rfl, rfl, rfl⟩
  | none =>
    have hmove : s.index.moveToEnd w = s.index := by
      unfold PyDict.moveToEnd
      rw [hget]
    have hload : (s.count fun c => { c with misses := c.misses + 1 }).loadDurableEntry db w =
        (s.count fun c => { c with misses := c.misses + 1 }, none) := by
      unfold loadDurableEntry
      rw [count_settings, halone]
      rfl
    dsimp only
    rw [hload]
    exact ⟨rfl, hmove.symm, rfl, rfl, rfl⟩

theorem Refines.lookup {s : AttributionIndexStore}
    {l : LruList.State String AttributionIndexEntry} (h : Refines s l) (db : RedisDb) (w : String) :
    Refines (s.lookup db w).1 (LruList.step s.settings.maxEntries l (LocalCall.lookup w).op) := by
  obtain ⟨-, hindex, hsettings, hversions, hevictions⟩ := lookup_of_alone h.alone db w
  refine ⟨hsettings ▸ h.alone, fun w' => ?_, ?_, ?_⟩
  · rw [hversions, hindex, PyDict.get?_moveToEnd]
    exact h.coherent w'
  · rw [hindex]
    unfold PyDict.moveToEnd LruList.step LocalCall.op
    dsimp only
    rw [h.lookup_eq]
    cases s.index.get? w with
    | none => exact h.entries
    | some entry =>
      show PyDict.without w s.index.items ++ _ = PyDict.without w l.entries ++ _
      rw [h.entries]
  · rw [hevictions, h.evictions]
    unfold LruList.step LocalCall.op
    dsimp only
    split
    · rfl
    · rfl

theorem without_of_get?_none {d : PyDict String AttributionIndexEntry} {w : String}
    (h : d.get? w = none) : PyDict.without w d.items = d.items := by
  have hkeys := PyDict.get?_eq_none_iff.1 h
  refine List.filter_eq_self.2 fun p hp => decide_eq_true fun heq => ?_
  exact hkeys (List.mem_map.2 ⟨p, hp, heq⟩)

theorem Refines.evict {s : AttributionIndexStore}
    {l : LruList.State String AttributionIndexEntry} (h : Refines s l) (db : RedisDb) (w : String) :
    Refines (s.evict db w).1 (LruList.step s.settings.maxEntries l (LocalCall.evict w).op) := by
  unfold AttributionIndexStore.evict PyDict.contains
  cases hget : s.index.get? w with
  | none =>
    refine ⟨h.alone, h.coherent, ?_, h.evictions⟩
    show s.index.items = PyDict.without w l.entries
    rw [← h.entries, without_of_get?_none hget]
  | some entry =>
    refine ⟨h.alone, fun w' => ?_, ?_, h.evictions⟩
    · show (s.versions.erase w).get? w' = ((s.index.erase w).get? w').map _
      rw [PyDict.get?_erase, PyDict.get?_erase, h.coherent]
      split
      · rfl
      · rfl
    · show PyDict.without w s.index.items = PyDict.without w l.entries
      rw [h.entries]

theorem Refines.clear {s : AttributionIndexStore}
    {l : LruList.State String AttributionIndexEntry} (h : Refines s l) (db : RedisDb) :
    Refines (s.clear db).1 (LruList.step s.settings.maxEntries l LocalCall.clear.op) :=
  ⟨h.alone, fun _ => rfl, rfl, h.evictions⟩

/-- Every call keeps the relation. -/
theorem Refines.call {s : AttributionIndexStore}
    {l : LruList.State String AttributionIndexEntry} (h : Refines s l)
    (hmax : 1 ≤ s.settings.maxEntries) (db : RedisDb) (c : LocalCall) :
    Refines (s.call db c) (LruList.step s.settings.maxEntries l c.op) ∧
      (s.call db c).settings = s.settings := by
  cases c with
  | materialize entry now =>
    exact ⟨h.materialize hmax db entry now, (materialize_of_alone h.alone db entry now).2.1⟩
  | lookup w => exact ⟨h.lookup db w, (lookup_of_alone h.alone db w).2.2.1⟩
  | evict w =>
    refine ⟨h.evict db w, ?_⟩
    show (s.evict db w).1.settings = s.settings
    unfold AttributionIndexStore.evict
    dsimp only
    split
    · rfl
    · rfl
  | clear => exact ⟨h.clear db, rfl⟩

theorem Refines.touched_eq {s : AttributionIndexStore}
    {l : LruList.State String AttributionIndexEntry} (h : Refines s l) (c : LocalCall) :
    LruList.used l c.op = s.touched c := by
  cases c with
  | materialize entry now => rfl
  | lookup w =>
    show (if (LruList.lookup l w).isSome then some w else none) = _
    rw [h.lookup_eq]
    rfl
  | evict w => rfl
  | clear => rfl

/-! ### Runs -/

section
variable {maxEntries : Nat} {s : AttributionIndexStore}
  {l : LruList.State String AttributionIndexEntry}

theorem Refines.exec (h : Refines s l) (db : RedisDb) (hsettings : s.settings.maxEntries = maxEntries)
    (hmax : 1 ≤ maxEntries) (calls : List LocalCall) :
    Refines (Run.exec (AttributionIndexStore.call db) s calls)
        (Run.exec (LruList.step maxEntries) l (calls.map LocalCall.op)) ∧
      (Run.exec (AttributionIndexStore.call db) s calls).settings.maxEntries = maxEntries := by
  induction calls generalizing s l with
  | nil => exact ⟨h, hsettings⟩
  | cons c calls ih =>
    obtain ⟨hnext, hkept⟩ := h.call (by omega) db c
    rw [hsettings] at hnext
    exact ih hnext (by rw [hkept, hsettings])

theorem Refines.touchedBy_eq (h : Refines s l) (db : RedisDb) (hsettings : s.settings.maxEntries = maxEntries)
    (hmax : 1 ≤ maxEntries) (calls : List LocalCall) :
    LruList.usedBy maxEntries l (calls.map LocalCall.op) = touchedBy db s calls := by
  induction calls generalizing s l with
  | nil => rfl
  | cons c calls ih =>
    obtain ⟨hnext, hkept⟩ := h.call (by omega) db c
    rw [hsettings] at hnext
    rw [List.map_cons, LruList.usedBy, touchedBy, h.touched_eq, ih hnext (by rw [hkept, hsettings])]

end

theorem refines_withoutRedis (maxEntries : Nat) : Refines (withoutRedis maxEntries) {} :=
  ⟨rfl, fun _ => rfl, rfl, rfl⟩

theorem refines_exec {maxEntries : Nat} (hmax : 1 ≤ maxEntries) (db : RedisDb)
    (calls : List LocalCall) :
    Refines (Run.exec (call db) (withoutRedis maxEntries) calls)
        (Run.exec (LruList.step maxEntries) {} (calls.map LocalCall.op)) ∧
      (Run.exec (call db) (withoutRedis maxEntries) calls).settings.maxEntries = maxEntries :=
  (refines_withoutRedis maxEntries).exec db rfl hmax calls

theorem lastMaterialized_concat (w : String) (calls : List LocalCall) (c : LocalCall) :
    lastMaterialized w (calls ++ [c]) = match c with
      | .materialize entry now =>
          if entry.workloadId = w then some (entry, now) else lastMaterialized w calls
      | _ => lastMaterialized w calls := by
  unfold lastMaterialized
  rw [List.foldl_append]
  rfl

/-- Whatever is resident is what was last materialized, with a version and its time. -/
theorem resident_lastMaterialized {maxEntries : Nat} (hmax : 1 ≤ maxEntries) (db : RedisDb)
    (calls : List LocalCall) {w : String} {e : AttributionIndexEntry}
    (h : (Run.exec (call db) (withoutRedis maxEntries) calls).index.get? w = some e) :
    ∃ entry now, lastMaterialized w calls = some (entry, now) ∧
      e = { entry with version := e.version, materializedAt := now } := by
  induction calls using List.reverseRecOn generalizing e with
  | nil => cases h
  | append_singleton calls c ih =>
    obtain ⟨href, hsettings⟩ := refines_exec hmax db calls
    rw [Run.exec_concat] at h
    rw [lastMaterialized_concat]
    generalize Run.exec (call db) (withoutRedis maxEntries) calls = s at h ih href hsettings
    cases c with
    | materialize entry now =>
      have hins := materialize_inserts href.alone href.coherent (by omega) db entry now
      rcases hins.cases h with ⟨rfl, rfl⟩ | ⟨hne, hold⟩
      · exact ⟨entry, now, if_pos rfl, rfl⟩
      · obtain ⟨entry', now', hlast, he⟩ := ih hold
        exact ⟨entry', now', (if_neg fun heq => hne heq.symm).trans hlast, he⟩
    | lookup w' =>
      have hindex := (lookup_of_alone href.alone db w').2.1
      change (s.lookup db w').1.index.get? w = some e at h
      rw [hindex, PyDict.get?_moveToEnd] at h
      exact ih h
    | evict w' =>
      have hold : s.index.get? w = some e := by
        change (s.evict db w').1.index.get? w = some e at h
        unfold AttributionIndexStore.evict at h
        dsimp only at h
        split at h
        · rw [PyDict.get?_erase] at h
          split at h
          · cases h
          · exact h
        · exact h
      exact ih hold
    | clear => cases h

/-- What a run of calls on a store without Redis leaves: the list in order of use. -/
structure IsLru (maxEntries : Nat) (db : RedisDb) (calls : List LocalCall)
    (s : AttributionIndexStore) (l : LruList.State String AttributionIndexEntry) : Prop where
  keys : ∀ w, w ∈ s.versions.keys ↔ w ∈ s.index.keys
  versions : ∀ w e, s.index.get? w = some e → s.versions.get? w = some e.version
  size : s.index.size ≤ maxEntries
  entries : s.index.items = l.entries
  answers : ∀ w, (s.lookup db w).2 = LruList.lookup l w
  evictions : s.counters.evictions = l.dropped.length
  payload : ∀ w e, (s.lookup db w).2 = some e → ∃ entry now,
    lastMaterialized w calls = some (entry, now) ∧
      e = { entry with version := e.version, materializedAt := now }
  /-- A workload is found unless it was taken out, or as many others as there is room for were
  materialized or hit, since it was last touched. -/
  recent : ∀ before c after w, calls = before ++ c :: after →
    (Run.exec (call db) (withoutRedis maxEntries) before).touched c = some w →
    (∀ c' ∈ after, ¬c'.Removes w) →
    w ∉ touchedBy db (Run.exec (call db) (withoutRedis maxEntries) (before ++ [c])) after →
    (touchedBy db (Run.exec (call db) (withoutRedis maxEntries)
      (before ++ [c])) after).dedup.length < maxEntries →
    ∃ e, (s.lookup db w).2 = some e
  increases : ∀ entry now old, s.index.get? entry.workloadId = some old →
    ∃ new, (s.materialize db entry now).1.index.get? entry.workloadId = some new ∧
      old.version < new.version

/-- The index without Redis is the list in order of use, after every run. -/
theorem isLru_exec {maxEntries : Nat} (hmax : 1 ≤ maxEntries) (db : RedisDb)
    (calls : List LocalCall) :
    IsLru maxEntries db calls (Run.exec (call db) (withoutRedis maxEntries) calls)
      (Run.exec (LruList.step maxEntries) {} (calls.map LocalCall.op)) := by
  obtain ⟨href, hsettings⟩ := refines_exec hmax db calls
  have hfits : LruList.Fits maxEntries
      (Run.exec (LruList.step maxEntries) {} (calls.map LocalCall.op)) :=
    Run.exec_invariant (I := LruList.Fits maxEntries) (fun _ op h => h.step op) (Nat.zero_le _) _
  have hlookup : ∀ w, ((Run.exec (call db) (withoutRedis maxEntries) calls).lookup db w).2 =
      (Run.exec (call db) (withoutRedis maxEntries) calls).index.get? w := fun w =>
    (lookup_of_alone href.alone db w).1
  constructor
  · intro w
    rw [PyDict.mem_keys_iff, PyDict.mem_keys_iff, href.coherent, Option.isSome_map]
  · intro w e he
    rw [href.coherent, he]
    rfl
  · show (Run.exec (call db) (withoutRedis maxEntries) calls).index.items.length ≤ maxEntries
    rw [href.entries]
    exact hfits
  · exact href.entries
  · intro w
    rw [hlookup, href.lookup_eq]
  · exact href.evictions
  · intro w e he
    rw [hlookup] at he
    exact resident_lastMaterialized hmax db calls he
  · intro before c after w hsplit htouched hremoves hused hroom
    obtain ⟨hbefore, hkept⟩ := refines_exec hmax db before
    obtain ⟨hnext, hkept'⟩ := hbefore.call (by omega) db c
    rw [hkept] at hnext
    rw [Run.exec_concat, ← hnext.touchedBy_eq db (by rw [hkept', hkept]) hmax] at hused hroom
    have hnone : ∀ op ∈ after.map LocalCall.op, ¬LruList.Removes w op := by
      intro op hop
      obtain ⟨c', hc', rfl⟩ := List.mem_map.1 hop
      intro hremove
      apply hremoves c' hc'
      cases c' with
      | evict w' => exact hremove
      | clear => trivial
      | materialize entry now => exact hremove
      | lookup w' => exact hremove
    obtain ⟨e, -, he⟩ := LruList.lookup_of_recent hmax hbefore.distinct
      ((hbefore.touched_eq c).trans htouched) hnone hused hroom
    refine ⟨e, ?_⟩
    rw [hlookup, ← href.lookup_eq, hsplit, List.map_append, List.map_cons, Run.exec_append,
      Run.exec_cons]
    exact he
  · intro entry now old hold
    have hins := materialize_inserts href.alone href.coherent (by omega) db entry now
    refine ⟨_, hins.new, ?_⟩
    have hversion : (Run.exec (call db) (withoutRedis maxEntries) calls).versions.getD
        entry.workloadId 0 = old.version := by
      unfold PyDict.getD
      rw [href.coherent, hold]
      rfl
    show old.version < _ + 1
    rw [hversion]
    exact Nat.lt_succ_self _

/-- An entry that is looked up and materialized again. -/
def ownerRun : List LocalCall :=
  [.materialize (DurableSystem.ownedBy "team-a") 0, .lookup "svc", .materialize (DurableSystem.ownedBy "team-b") 1]

/-- A store with room for one entry. -/
theorem isLru_exec_one :
    1 ≤ 1 ∧ IsLru 1 PyDict.empty ownerRun (Run.exec (call PyDict.empty) (withoutRedis 1) ownerRun)
      (Run.exec (LruList.step 1) {} (ownerRun.map LocalCall.op)) :=
  ⟨le_rfl, isLru_exec le_rfl PyDict.empty ownerRun⟩

end ComputeIntelligence.AttributionIndexStore
