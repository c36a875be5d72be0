import ComputeIntelligence.AttributionIndex
import ComputeIntelligence.GuardedRuns

/-! # Does the durable index keep the last materialization?

The system of this module is one `AttributionIndexStore` process in front of a Redis
database, driven by `materialize`, `lookup`, `evict`, `clear` and process restarts;
LRU eviction happens inside the first two.  What the pair is for is a map from
workload to its last materialization, and `LastWriteWins` states it: Redis keeps,
and `lookup` serves, exactly the entry the latest `materialize` stored.

It does not always hold.  A version counter is popped with its LRU victim and is
gone after a restart, so the next `materialize` of that workload is stamped with
version 1; if Redis is past version 1 the upsert script discards it, and a later
miss serves the older entry again (`restart_serves_older_entry`).

`ScriptAccepts` is the exact condition: the script takes its writing branch.  As
long as every `materialize` of a run meets it, the last write wins in every state of
the run, and it fails as soon as one does not
(`lastWriteWins_iff_script_accepts`).
-/
namespace ComputeIntelligence
namespace AttributionIndexStore

/-! ## What one operation does to the store -/

/-- `_versions` has exactly the keys of `_index`, each with its entry's version. -/
def Coherent (s : AttributionIndexStore) : Prop :=
  ∀ w, s.versions.get? w = (s.index.get? w).map AttributionIndexEntry.version

theorem evictOverflow_settings (fuel : Nat) (s : AttributionIndexStore) :
    (evictOverflow fuel s).settings = s.settings := by
  induction fuel generalizing s with
  | zero => rfl
  | succ fuel ih =>
    unfold evictOverflow
    split
    · split
      · rfl
      · exact ih _
    · rfl

theorem evictOverflow_coherent (fuel : Nat) {s : AttributionIndexStore} (h : s.Coherent) :
    (evictOverflow fuel s).Coherent := by
  induction fuel generalizing s with
  | zero => exact h
  | succ fuel ih =>
    unfold evictOverflow
    split
    · split
      · exact h
      · rename_i evicted _ rest hpop
        refine ih fun w => ?_
        rw [count_versions, count_index, PyDict.get?_erase, PyDict.get?_popFirst hpop, h w]
        by_cases hw : w = evicted <;> simp [hw]
    · exact h

/-- Eviction only removes entries. -/
theorem evictOverflow_get? (fuel : Nat) {s : AttributionIndexStore} {w : String}
    {e : AttributionIndexEntry} (h : (evictOverflow fuel s).index.get? w = some e) :
    s.index.get? w = some e := by
  induction fuel generalizing s with
  | zero => exact h
  | succ fuel ih =>
    unfold evictOverflow at h
    split at h
    · split at h
      · exact h
      · rename_i evicted _ rest hpop
        have hrest := ih h
        rw [count_index, PyDict.get?_popFirst hpop] at hrest
        split at hrest
        · cases hrest
        · exact hrest
    · exact h

/-- The most recent entry survives eviction, if any entry may stay at all. -/
theorem evictOverflow_last (fuel : Nat) {s : AttributionIndexStore}
    (hmax : 1 ≤ s.settings.maxEntries) {xs : List (String × AttributionIndexEntry)} {w : String}
    {e : AttributionIndexEntry} (h : s.index.items = xs ++ [(w, e)]) :
    (evictOverflow fuel s).index.get? w = some e := by
  have hlast : s.index.get? w = some e := PyDict.get?_of_mem (by rw [h]; simp)
  induction fuel generalizing s xs with
  | zero => exact hlast
  | succ fuel ih =>
    unfold evictOverflow
    split
    · rename_i hlarge
      split
      · exact hlast
      · rename_i evicted old rest hpop
        have hitems := PyDict.items_popFirst hpop
        rw [h] at hitems
        cases xs with
        | nil =>
          -- a single entry is not an overflow
          have hsize : s.index.size = 1 := by rw [PyDict.size, h]; rfl
          omega
        | cons x xs =>
          obtain ⟨-, hxs⟩ := List.cons.inj hitems
          exact ih hmax hxs.symm (PyDict.get?_of_mem (by rw [count_index, ← hxs]; simp))
    · exact hlast

theorem evictOverflow_of_fits (fuel : Nat) {s : AttributionIndexStore}
    (h : s.index.size ≤ s.settings.maxEntries) : evictOverflow fuel s = s := by
  cases fuel with
  | zero => rfl
  | succ fuel => exact if_neg (Nat.not_lt.mpr h)

/-- An insertion that does not overflow. -/
theorem insertLocalLocked_of_fits {s : AttributionIndexStore} {entry : AttributionIndexEntry}
    (h : (s.index.setLast entry.workloadId entry).size ≤ s.settings.maxEntries) :
    s.insertLocalLocked entry =
      { s with
        index := s.index.setLast entry.workloadId entry
        versions := s.versions.set entry.workloadId entry.version } :=
  evictOverflow_of_fits (s := { s with
    index := s.index.setLast entry.workloadId entry
    versions := s.versions.set entry.workloadId entry.version }) _ h

/-- The effect of an insertion on the local part of a store: the new entry is
resident, every other resident entry was resident before, versions follow entries. -/
structure Inserts (s s' : AttributionIndexStore) (entry : AttributionIndexEntry) : Prop where
  settings : s'.settings = s.settings
  coherent : s'.Coherent
  new : s'.index.get? entry.workloadId = some entry
  old : ∀ w e, s'.index.get? w = some e → w ≠ entry.workloadId → s.index.get? w = some e

/-- A resident entry is the new one, or it was resident before. -/
theorem Inserts.cases {s s' : AttributionIndexStore} {entry : AttributionIndexEntry}
    (h : Inserts s s' entry) {w : String} {e : AttributionIndexEntry}
    (he : s'.index.get? w = some e) :
    (w = entry.workloadId ∧ e = entry) ∨
      (w ≠ entry.workloadId ∧ s.index.get? w = some e) := by
  by_cases hw : w = entry.workloadId
  · rw [hw, h.new] at he
    exact .inl ⟨hw, (Option.some.inj he).symm⟩
  · exact .inr ⟨hw, h.old w e he hw⟩

/-- Writing the version of the new entry a second time changes nothing. -/
theorem Inserts.coherent_again {s s' : AttributionIndexStore} {entry : AttributionIndexEntry}
    (h : Inserts s s' entry) (w : String) :
    (s'.versions.set entry.workloadId entry.version).get? w =
      (s'.index.get? w).map AttributionIndexEntry.version := by
  rw [PyDict.get?_set]
  by_cases hw : w = entry.workloadId
  · rw [if_pos hw, hw, h.new]
    rfl
  · rw [if_neg hw]
    exact h.coherent w

/-- **What `_insert_local_locked` does.** -/
theorem insertLocalLocked_inserts {s : AttributionIndexStore} (h : s.Coherent)
    (hmax : 1 ≤ s.settings.maxEntries) (entry : AttributionIndexEntry) :
    Inserts s (s.insertLocalLocked entry) entry := by
  let s' : AttributionIndexStore := { s with
    index := s.index.setLast entry.workloadId entry
    versions := s.versions.set entry.workloadId entry.version }
  have hcoh : s'.Coherent := by
    intro w
    show (s.versions.set entry.workloadId entry.version).get? w = _
    rw [PyDict.get?_set, PyDict.get?_setLast, h w]
    by_cases hw : w = entry.workloadId <;> simp [hw]
  have hlast : s'.index.items = PyDict.without entry.workloadId s.index.items ++
      [(entry.workloadId, entry)] := rfl
  have hmax' : 1 ≤ s'.settings.maxEntries := hmax
  refine ⟨evictOverflow_settings _ s', evictOverflow_coherent _ hcoh,
    evictOverflow_last _ hmax' hlast, ?_⟩
  intro w e he hne
  have hbefore : s'.index.get? w = some e := evictOverflow_get? _ he
  rw [PyDict.get?_setLast, if_neg hne] at hbefore
  exact hbefore

theorem redisUpsertScript_accepts {db : RedisDb} {key : String} {v : Nat}
    (h : ((db.get? key).map DurableRecord.version).getD 0 ≤ v) (e : AttributionIndexEntry)
    (schemaV : Nat) : redisUpsertScript key e v schemaV db = db.set key ⟨e, v, schemaV⟩ :=
  if_neg (Nat.not_lt.mpr h)

theorem redisUpsertScript_refuses {db : RedisDb} {key : String} {v : Nat}
    (h : ¬ ((db.get? key).map DurableRecord.version).getD 0 ≤ v) (e : AttributionIndexEntry)
    (schemaV : Nat) : redisUpsertScript key e v schemaV db = db :=
  if_pos (Nat.lt_of_not_le h)

/-- **What `materialize` does**, on a store with a durable backend: it inserts the
stamped entry and runs the upsert script on it. -/
theorem materialize_spec {s : AttributionIndexStore} (h : s.Coherent)
    (hmax : 1 ≤ s.settings.maxEntries) (hon : s.settings.durableEnabled = true) (db : RedisDb)
    (entry : AttributionIndexEntry) (now : Instant) :
    Inserts s (s.materialize db entry now).1 (s.stamp entry now) ∧
    (s.materialize db entry now).2 =
      redisUpsertScript (redisKey s.settings entry.workloadId) (s.stamp entry now)
        (s.versions.getD entry.workloadId 0 + 1) s.settings.schemaVersion db := by
  have hins := insertLocalLocked_inserts h hmax (s.stamp entry now)
  have hset := hins.settings
  unfold materialize writeDurableEntry
  simp only [count_settings, hset, hon, if_true]
  refine ⟨⟨rfl, ?_, hins.new, hins.old⟩, rfl⟩
  intro w
  simp only [count_versions, count_index]
  exact hins.coherent_again w

/-- **What a hit does**: it serves the entry and only reorders the index. -/
theorem lookup_hit {s : AttributionIndexStore} {w : String} {e : AttributionIndexEntry}
    (h : s.index.get? w = some e) (db : RedisDb) :
    (s.lookup db w).2 = some e ∧ (s.lookup db w).1.settings = s.settings ∧
    (s.lookup db w).1.versions = s.versions ∧
    ∀ w', (s.lookup db w).1.index.get? w' = s.index.get? w' := by
  unfold lookup
  rw [h]
  exact ⟨rfl, rfl, rfl, fun w' => PyDict.get?_moveToEnd _ _ _⟩

/-- **What a miss does**: it serves what Redis holds, and inserts it locally. -/
theorem lookup_miss {s : AttributionIndexStore} (hcoh : s.Coherent)
    (hmax : 1 ≤ s.settings.maxEntries) (hon : s.settings.durableEnabled = true) {w : String}
    (h : s.index.get? w = none) (db : RedisDb) :
    (s.lookup db w).2 = (db.get? (redisKey s.settings w)).map DurableRecord.payload ∧
    match db.get? (redisKey s.settings w) with
    | none => (s.lookup db w).1.settings = s.settings ∧
        (s.lookup db w).1.versions = s.versions ∧ (s.lookup db w).1.index = s.index
    | some r => Inserts s (s.lookup db w).1 r.payload := by
  unfold lookup
  rw [h]
  simp only [loadDurableEntry, count_settings, hon, if_true]
  cases db.get? (redisKey s.settings w) with
  | none => exact ⟨rfl, rfl, rfl, rfl⟩
  | some r =>
    refine ⟨rfl, ?_⟩
    let missed : AttributionIndexStore := (s.count fun c => { c with misses := c.misses + 1 }).count
      fun c => { c with durableHits := c.durableHits + 1 }
    have hmissed : missed.Coherent := hcoh
    have hins := insertLocalLocked_inserts hmissed hmax r.payload
    exact ⟨hins.settings, hins.coherent, hins.new, hins.old⟩

end AttributionIndexStore

/-! ## Runs of one process in front of Redis -/

/-- The actions of a run. -/
inductive IndexAction where
  | materialize (entry : AttributionIndexEntry) (now : Instant)
  | lookup (workloadId : String)
  | evict (workloadId : String)
  | clear
  | restart

/-- The running process, the database, and for each workload the entry its latest
`materialize` stored since it was last evicted or cleared. -/
structure DurableSystem where
  store : AttributionIndexStore
  db : RedisDb
  latest : String → Option AttributionIndexEntry

namespace DurableSystem
open AttributionIndexStore

/-- A fresh process on an empty Redis. -/
def init (maxEntries : Nat) : DurableSystem where
  store := { settings := { maxEntries, durableEnabled := true } }
  db := PyDict.empty
  latest := fun _ => none

/-- One action.  `latest` is bookkeeping: no operation reads it. -/
def step (s : DurableSystem) : IndexAction → DurableSystem
  | .materialize entry now =>
      ⟨(s.store.materialize s.db entry now).1, (s.store.materialize s.db entry now).2,
        fun w => if w = entry.workloadId then some (s.store.stamp entry now) else s.latest w⟩
  | .lookup w => ⟨(s.store.lookup s.db w).1, s.db, s.latest⟩
  | .evict w =>
      ⟨(s.store.evict s.db w).1, (s.store.evict s.db w).2.1,
        fun w' => if w' = w then none else s.latest w'⟩
  | .clear => ⟨(s.store.clear s.db).1, (s.store.clear s.db).2, fun _ => none⟩
  | .restart => ⟨s.store.restart, s.db, s.latest⟩

/-- The hash Redis holds for a workload. -/
def record (s : DurableSystem) (w : String) : Option DurableRecord :=
  s.db.get? (redisKey s.store.settings w)

/-- **What the durable index is for**: for every workload that has been materialized
since it was last removed, Redis keeps, and `lookup` serves, exactly the entry its
latest `materialize` stored. -/
def LastWriteWins (s : DurableSystem) : Prop :=
  ∀ w e, s.latest w = some e →
    (s.record w).map DurableRecord.payload = some e ∧ (s.store.lookup s.db w).2 = some e

/-- The upsert script of this action takes its writing branch: the version Redis
holds is at most one above the process's own counter for the workload. -/
def ScriptAccepts (s : DurableSystem) : IndexAction → Prop
  | .materialize entry _ =>
      ((s.record entry.workloadId).map DurableRecord.version).getD 0 ≤
        s.store.versions.getD entry.workloadId 0 + 1
  | _ => True

instance (s : DurableSystem) : ∀ a, Decidable (s.ScriptAccepts a)
  | .materialize _ _ => inferInstanceAs (Decidable (_ ≤ _))
  | .lookup _ | .evict _ | .clear | .restart => isTrue trivial

/-- The standing invariant: every resident entry is the one Redis keeps, and every
record is filed under its own workload with its own version. -/
structure Valid (s : DurableSystem) : Prop where
  enabled : s.store.settings.durableEnabled = true
  capacity : 1 ≤ s.store.settings.maxEntries
  coherent : s.store.Coherent
  keyed : ∀ w e, s.store.index.get? w = some e → e.workloadId = w
  durable : ∀ w e, s.store.index.get? w = some e →
    (s.record w).map DurableRecord.payload = some e
  filed : ∀ w r, s.record w = some r → r.payload.workloadId = w ∧ r.payload.version = r.version

theorem init_valid {maxEntries : Nat} (h : 1 ≤ maxEntries) : Valid (init maxEntries) where
  enabled := rfl
  capacity := h
  coherent := fun _ => rfl
  keyed := fun _ _ he => by cases he
  durable := fun _ _ he => by cases he
  filed := fun _ _ hr => by cases hr

theorem redisKey_inj {settings : IndexSettings} {w w' : String}
    (h : redisKey settings w = redisKey settings w') : w = w' :=
  (String.append_right_inj _).mp h

/-- In a valid state `lookup` answers with what Redis keeps, hit or miss. -/
theorem Valid.lookup_eq {s : DurableSystem} (h : s.Valid) (w : String) :
    (s.store.lookup s.db w).2 = (s.record w).map DurableRecord.payload := by
  cases hi : s.store.index.get? w with
  | some e => rw [(lookup_hit hi s.db).1, h.durable w e hi]
  | none => exact (lookup_miss h.coherent h.capacity h.enabled hi s.db).1

/-- In a valid state serving the last write is keeping it. -/
theorem Valid.lastWriteWins_iff {s : DurableSystem} (h : s.Valid) :
    s.LastWriteWins ↔
      ∀ w e, s.latest w = some e → (s.record w).map DurableRecord.payload = some e := by
  constructor
  · exact fun hs w e hw => (hs w e hw).1
  · intro hs w e hw
    exact ⟨hs w e hw, (h.lookup_eq w).trans (hs w e hw)⟩

/-! ### Each action keeps the invariant -/

theorem record_congr {s s' : DurableSystem} (hdb : s'.db = s.db)
    (hset : s'.store.settings = s.store.settings) (w : String) : s'.record w = s.record w := by
  unfold record
  rw [hdb, hset]

/-- Inserting the entry that Redis now keeps leaves the state valid. -/
theorem Valid.insert {s s' : DurableSystem} (h : s.Valid) {e : AttributionIndexEntry}
    (hins : Inserts s.store s'.store e)
    (hrec : ∀ w, w ≠ e.workloadId → s'.record w = s.record w) {r : DurableRecord}
    (hr : s'.record e.workloadId = some r) (hpay : r.payload = e) (hver : e.version = r.version) :
    s'.Valid := by
  refine ⟨hins.settings ▸ h.enabled, hins.settings ▸ h.capacity, hins.coherent, ?_, ?_, ?_⟩
  · intro w e' he'
    rcases hins.cases he' with ⟨rfl, rfl⟩ | ⟨-, hold⟩
    · rfl
    · exact h.keyed w e' hold
  · intro w e' he'
    rcases hins.cases he' with ⟨rfl, rfl⟩ | ⟨hw, hold⟩
    · rw [hr, Option.map_some, hpay]
    · rw [hrec w hw]
      exact h.durable w e' hold
  · intro w r' hr'
    by_cases hw : w = e.workloadId
    · subst hw
      obtain rfl := Option.some.inj (hr.symm.trans hr')
      exact ⟨by rw [hpay], by rw [hpay, hver]⟩
    · exact h.filed w r' (hrec w hw ▸ hr')

/-- A step that removes local entries, or only reorders them, and leaves Redis alone
leaves the state valid. -/
theorem Valid.shrink {s s' : DurableSystem} (h : s.Valid)
    (hset : s'.store.settings = s.store.settings) (hdb : s'.db = s.db) (hcoh : s'.store.Coherent)
    (hindex : ∀ w e, s'.store.index.get? w = some e → s.store.index.get? w = some e) :
    s'.Valid := by
  have hrec : ∀ w, s'.record w = s.record w := record_congr hdb hset
  refine ⟨hset ▸ h.enabled, hset ▸ h.capacity, hcoh, ?_, ?_, ?_⟩
  · exact fun w e he => h.keyed w e (hindex w e he)
  · exact fun w e he => (hrec w).symm ▸ h.durable w e (hindex w e he)
  · exact fun w r hr => h.filed w r (hrec w ▸ hr)

theorem Valid.lookup_step {s : DurableSystem} (h : s.Valid) (w : String) :
    (s.step (.lookup w)).Valid := by
  cases hi : s.store.index.get? w with
  | some e =>
    obtain ⟨-, hset, hver, hindex⟩ := lookup_hit hi s.db
    refine h.shrink hset rfl (fun w' => ?_) (fun w' e' he' => ?_)
    · show (s.store.lookup s.db w).1.versions.get? w' = _
      rw [hver, h.coherent w', ← hindex w']
      rfl
    · exact (hindex w').symm.trans he'
  | none =>
    obtain ⟨-, hmiss⟩ := lookup_miss h.coherent h.capacity h.enabled hi s.db
    cases hr : s.db.get? (redisKey s.store.settings w) with
    | none =>
      rw [hr] at hmiss
      obtain ⟨hset, hver, hindex⟩ := hmiss
      refine h.shrink hset rfl (fun w' => ?_) (fun w' e' he' => ?_)
      · show (s.store.lookup s.db w).1.versions.get? w' = _
        rw [hver, h.coherent w', ← hindex]
        rfl
      · exact hindex ▸ he'
    | some r =>
      rw [hr] at hmiss
      obtain ⟨hw, hver⟩ := h.filed w r hr
      have hrec : ∀ w', (s.step (.lookup w)).record w' = s.record w' :=
        record_congr rfl hmiss.settings
      have hkept : (s.step (.lookup w)).record r.payload.workloadId = some r := by
        rw [hw, hrec w]
        exact hr
      exact h.insert hmiss (fun w' _ => hrec w') hkept rfl hver

theorem Valid.restart_step {s : DurableSystem} (h : s.Valid) : (s.step .restart).Valid :=
  h.shrink rfl rfl (fun _ => rfl) (fun _ _ he => by cases he)

/-- `evict` deletes the hash of its own workload and no other. -/
theorem Valid.record_evict {s : DurableSystem} (h : s.Valid) (w w' : String) :
    (s.step (.evict w)).record w' = if w' = w then none else s.record w' := by
  have hset : (s.store.evict s.db w).1.settings = s.store.settings := by
    unfold AttributionIndexStore.evict
    dsimp only
    split <;> rfl
  have hdb : (s.store.evict s.db w).2.1 = s.db.erase (redisKey s.store.settings w) := by
    unfold AttributionIndexStore.evict
    rw [h.enabled]
    rfl
  show PyDict.get? (s.store.evict s.db w).2.1
    (redisKey (s.store.evict s.db w).1.settings w') = _
  rw [hset, hdb, PyDict.get?_erase]
  by_cases hw : w' = w
  · rw [hw]; simp
  · rw [if_neg hw, if_neg (fun hk => hw (redisKey_inj hk))]
    rfl

theorem Valid.evict_step {s : DurableSystem} (h : s.Valid) (w : String) :
    (s.step (.evict w)).Valid := by
  have hstore : (s.store.evict s.db w).1.settings = s.store.settings ∧
      (s.store.evict s.db w).1.Coherent ∧
      ∀ w' e, (s.store.evict s.db w).1.index.get? w' = some e →
        w' ≠ w ∧ s.store.index.get? w' = some e := by
    unfold AttributionIndexStore.evict PyDict.contains
    cases hi : s.store.index.get? w with
    | none =>
      refine ⟨rfl, h.coherent, fun w' e he => ⟨?_, he⟩⟩
      rintro rfl
      exact absurd (hi.symm.trans he) (by simp)
    | some e =>
      refine ⟨rfl, fun w' => ?_, fun w' e' he' => ?_⟩
      · show (s.store.versions.erase w).get? w' = _
        rw [PyDict.get?_erase, h.coherent w']
        show _ = ((s.store.index.erase w).get? w').map _
        rw [PyDict.get?_erase]
        by_cases hw : w' = w <;> simp [hw]
      · have he'' : (s.store.index.erase w).get? w' = some e' := he'
        rw [PyDict.get?_erase] at he''
        split at he''
        · cases he''
        · exact ⟨‹_›, he''⟩
  obtain ⟨hset, hcoh, hindex⟩ := hstore
  refine ⟨hset ▸ h.enabled, hset ▸ h.capacity, hcoh, ?_, ?_, ?_⟩
  · exact fun w' e he => h.keyed w' e (hindex w' e he).2
  · intro w' e he
    rw [h.record_evict, if_neg (hindex w' e he).1]
    exact h.durable w' e (hindex w' e he).2
  · intro w' r hr
    rw [h.record_evict] at hr
    split at hr
    · cases hr
    · exact h.filed w' r hr

/-- `clear` leaves no hash under the store's prefix. -/
theorem Valid.record_clear {s : DurableSystem} (h : s.Valid) (w : String) :
    (s.step .clear).record w = none := by
  show PyDict.get? (s.store.clear s.db).2 (redisKey s.store.settings w) = none
  unfold AttributionIndexStore.clear
  rw [h.enabled, if_pos rfl, PyDict.get?_foldl_erase]
  split
  · rfl
  · rename_i hnot
    refine PyDict.get?_eq_none_iff.mpr fun hmem => hnot (List.mem_filter.mpr ⟨hmem, ?_⟩)
    unfold PyText.startsWith redisKey
    rw [List.isPrefixOf_iff_prefix, String.toList_append (s := _ ++ ":")]
    exact List.prefix_append _ _

theorem Valid.clear_step {s : DurableSystem} (h : s.Valid) : (s.step .clear).Valid where
  enabled := h.enabled
  capacity := h.capacity
  coherent := fun _ => rfl
  keyed := fun _ _ he => by cases he
  durable := fun _ _ he => by cases he
  filed := fun w r hr => by rw [h.record_clear w] at hr; cases hr

/-- The hash of a workload after `materialize`: when the script accepts, it is the
stamped entry; other workloads keep theirs. -/
theorem Valid.record_materialize {s : DurableSystem} (h : s.Valid) (entry : AttributionIndexEntry)
    (now : Instant) (w : String) :
    (s.step (.materialize entry now)).record w =
      if w = entry.workloadId ∧ s.ScriptAccepts (.materialize entry now) then
        some ⟨s.store.stamp entry now, s.store.versions.getD entry.workloadId 0 + 1,
          s.store.settings.schemaVersion⟩
      else s.record w := by
  obtain ⟨hins, hdb⟩ := materialize_spec h.coherent h.capacity h.enabled s.db entry now
  show PyDict.get? (s.store.materialize s.db entry now).2
    (redisKey (s.store.materialize s.db entry now).1.settings w) = _
  rw [hins.settings, hdb]
  by_cases hacc : s.ScriptAccepts (.materialize entry now)
  · rw [redisUpsertScript_accepts hacc, PyDict.get?_set]
    by_cases hw : w = entry.workloadId
    · rw [hw]; simp [hacc]
    · rw [if_neg (fun hk => hw (redisKey_inj hk)), if_neg (fun hc => hw hc.1)]
      rfl
  · rw [redisUpsertScript_refuses hacc, if_neg (fun hc => hacc hc.2)]
    rfl

theorem Valid.materialize_step {s : DurableSystem} (h : s.Valid) {entry : AttributionIndexEntry}
    {now : Instant} (hacc : s.ScriptAccepts (.materialize entry now)) :
    (s.step (.materialize entry now)).Valid := by
  obtain ⟨hins, -⟩ := materialize_spec h.coherent h.capacity h.enabled s.db entry now
  have hnew := h.record_materialize entry now entry.workloadId
  rw [if_pos ⟨rfl, hacc⟩] at hnew
  refine h.insert hins (fun w hw => ?_) hnew rfl rfl
  rw [h.record_materialize, if_neg (fun hc => hw hc.1)]

/-- **Every action that meets the condition keeps the invariant.** -/
theorem Valid.step {s : DurableSystem} (h : s.Valid) {a : IndexAction} (hacc : s.ScriptAccepts a) :
    (s.step a).Valid := by
  cases a with
  | materialize entry now => exact h.materialize_step hacc
  | lookup w => exact h.lookup_step w
  | evict w => exact h.evict_step w
  | clear => exact h.clear_step
  | restart => exact h.restart_step

/-! ### The last write wins exactly as long as the script accepts -/

/-- Actions other than `materialize` change what Redis keeps for a workload only by
forgetting it, as `latest` does. -/
theorem Valid.kept_step {s : DurableSystem} (h : s.Valid) {a : IndexAction}
    (ha : ∀ entry now, a ≠ .materialize entry now)
    (hkept : ∀ w e, s.latest w = some e → (s.record w).map DurableRecord.payload = some e)
    {w : String} {e : AttributionIndexEntry} (hw : (s.step a).latest w = some e) :
    ((s.step a).record w).map DurableRecord.payload = some e := by
  cases a with
  | materialize entry now => exact absurd rfl (ha entry now)
  | lookup w' =>
    have hset : (s.store.lookup s.db w').1.settings = s.store.settings := by
      cases hi : s.store.index.get? w' with
      | some e' => exact (lookup_hit hi s.db).2.1
      | none =>
        have hmiss := (lookup_miss h.coherent h.capacity h.enabled hi s.db).2
        cases hr : s.db.get? (redisKey s.store.settings w') with
        | none => rw [hr] at hmiss; exact hmiss.1
        | some r => rw [hr] at hmiss; exact hmiss.settings
    have hrec : (s.step (.lookup w')).record w = s.record w :=
      record_congr (s := s) (by rfl) hset w
    rw [hrec]
    exact hkept w e hw
  | evict w' =>
    rw [h.record_evict]
    have hw' : (if w = w' then none else s.latest w) = some e := hw
    split at hw'
    · cases hw'
    · rw [if_neg ‹_›]
      exact hkept w e hw'
  | clear => cases hw
  | restart => exact hkept w e hw

/-- **One action**: from a valid state in which the last write wins, it still wins
after the action exactly when the action meets the condition. -/
theorem Valid.lastWriteWins_step_iff {s : DurableSystem} (h : s.Valid) (hs : s.LastWriteWins)
    (a : IndexAction) : (s.step a).LastWriteWins ↔ s.ScriptAccepts a := by
  have hkept := h.lastWriteWins_iff.mp hs
  constructor
  · intro hnext
    cases a with
    | materialize entry now =>
      -- a refused write leaves a record with a larger version than the stamp
      by_contra hacc
      have hlatest : (s.step (.materialize entry now)).latest entry.workloadId =
          some (s.store.stamp entry now) := if_pos rfl
      have hpay := (hnext _ _ hlatest).1
      rw [h.record_materialize, if_neg (fun hc => hacc hc.2)] at hpay
      obtain ⟨r, hr, hpr⟩ := Option.map_eq_some_iff.mp hpay
      have hver := (h.filed _ _ hr).2
      rw [hpr] at hver
      apply hacc
      show ((s.record entry.workloadId).map DurableRecord.version).getD 0 ≤ _
      rw [hr]
      exact Nat.le_of_eq hver.symm
    | _ => trivial
  · intro hacc
    refine (h.step hacc).lastWriteWins_iff.mpr fun w e hw => ?_
    cases a with
    | materialize entry now =>
      rw [h.record_materialize]
      have hw' : (if w = entry.workloadId then some (s.store.stamp entry now)
        else s.latest w) = some e := hw
      split at hw'
      · obtain rfl := Option.some.inj hw'
        rw [if_pos ⟨‹_›, hacc⟩]
        rfl
      · rw [if_neg (fun hc => by exact absurd hc.1 ‹_›)]
        exact hkept w e hw'
    | lookup w' => exact h.kept_step (fun _ _ he => by cases he) hkept hw
    | evict w' => exact h.kept_step (fun _ _ he => by cases he) hkept hw
    | clear => exact h.kept_step (fun _ _ he => by cases he) hkept hw
    | restart => exact h.kept_step (fun _ _ he => by cases he) hkept hw

/-- **The durable index keeps the last write exactly as long as the script accepts.**
For every capacity of at least one entry and every run from a fresh process on an
empty Redis: Redis keeps, and `lookup` serves, the latest materialization of every
workload in every state of the run, if and only if every `materialize` of the run
finds Redis at most one version ahead of the process's own counter. -/
theorem lastWriteWins_iff_script_accepts {maxEntries : Nat} (hmax : 1 ≤ maxEntries)
    (actions : List IndexAction) :
    Run.Always step LastWriteWins (init maxEntries) actions ↔
      Run.Guarded step ScriptAccepts (init maxEntries) actions :=
  Run.always_iff_guarded (fun _ _ h _ hacc => h.step hacc)
    (fun _ a h hs => h.lastWriteWins_step_iff hs a) (init_valid hmax)
    (fun _ _ hw => by cases hw)

/-- An entry of workload `svc` owned by a team. -/
def ownedBy (team : String) : AttributionIndexEntry where
  workloadId := "svc"
  teamId := team
  teamName := team
  costCenterId := ""
  confidence := fullScore
  confidenceTier := "chargeback_ready"
  methodUsed := "R1"
  materializedAt := 0

/-- Two materializations, a restart that finds the second one, and one more. -/
theorem lastWriteWins_after_lookup :
    Run.Always step LastWriteWins (init 1)
      [.materialize (ownedBy "a") 1, .materialize (ownedBy "b") 2, .restart, .lookup "svc",
        .materialize (ownedBy "c") 3] :=
  (lastWriteWins_iff_script_accepts (by decide) _).mpr (by decide)

/-- Two materializations for team `a`, a restart, and one for team `b`. -/
def ownerChange : List IndexAction :=
  [.materialize (ownedBy "a") 1, .materialize (ownedBy "a") 2, .restart,
    .materialize (ownedBy "b") 3]

/-- **A restart brings an older owner back.**  After the restart the entry for team
`b` is stamped with version 1, and the script keeps version 2: after one more restart
`lookup` serves team `a` again, though the last materialization was for team `b`. -/
theorem restart_serves_older_entry :
    (let s := Run.exec step (init 1) (ownerChange ++ [.restart]);
      (s.latest "svc").map AttributionIndexEntry.teamId = some "b" ∧
      (s.store.lookup s.db "svc").2.map AttributionIndexEntry.teamId = some "a") ∧
    ¬ ∀ maxEntries, 1 ≤ maxEntries → ∀ actions,
        Run.Always step LastWriteWins (init maxEntries) actions := by
  refine ⟨⟨by decide, by decide⟩, fun h => ?_⟩
  have hlast := h 1 (by decide) ownerChange ownerChange (List.prefix_rfl) "svc"
    { ownedBy "b" with version := 1, materializedAt := 3 } (by decide)
  exact absurd hlast.1 (by decide)

end DurableSystem
end ComputeIntelligence
