import ComputeIntelligence.DurableIndex

/-! # Can the attribution index travel back in time?

The operations of `AttributionIndexStore` hold its lock only for their local part.  A
`lookup` that misses releases it, reads Redis, and takes it again to install what it
read; `materialize`, `evict` and `clear` release it before they write to Redis.  This
module interleaves these parts, for any number of callers (`IndexSystem.step`).

Two things are asked of every interleaving: the version of a resident entry never
decreases, `evict` and `clear` apart, and a `lookup` that starts after an `evict` of its
workload has completed, with no `materialize` of it since, answers `None`.  A stale
payload breaks both: `install` puts it into the index whatever has happened since it was
read (`stale_install_resurrects`).

`Timely` says when a part comes in time, and a run whose parts all do keeps both
(`timely_runs_keep_time`): a payload is installed while Redis still holds it and no
newer one is on its way there, an entry is written to Redis while its workload is
resident, and a key is deleted from Redis while its workload is not.
-/
namespace ComputeIntelligence
namespace AttributionIndexStore

/-! ## The parts of the operations -/

/-- `lookup` under its first lock. -/
def lookupLocked (s : AttributionIndexStore) (w : String) :
    AttributionIndexStore × Option AttributionIndexEntry :=
  match s.index.get? w with
  | some entry =>
      ({ s with index := s.index.moveToEnd w }.count fun c => { c with hits := c.hits + 1 },
        some entry)
  | none => (s.count fun c => { c with misses := c.misses + 1 }, none)

/-- `lookup` under its second lock. -/
def installLocked (s : AttributionIndexStore) (durable : AttributionIndexEntry) :
    AttributionIndexStore :=
  (s.count fun c => { c with durableHits := c.durableHits + 1 }).insertLocalLocked durable

/-- `materialize` under its lock: the store and the entry to be written to Redis. -/
def materializeLocked (s : AttributionIndexStore) (entry : AttributionIndexEntry) (now : Instant) :
    AttributionIndexStore × AttributionIndexEntry :=
  let entryWithVersion := s.stamp entry now
  let inserted := (s.insertLocalLocked entryWithVersion).count
    fun c => { c with materializations := c.materializations + 1 }
  ({ inserted with
    versions := inserted.versions.set entry.workloadId entryWithVersion.version }, entryWithVersion)

/-- `evict` under its lock. -/
def evictLocked (s : AttributionIndexStore) (w : String) : AttributionIndexStore :=
  if s.index.contains w then { s with index := s.index.erase w, versions := s.versions.erase w }
  else s

/-- `clear` under its lock. -/
def clearLocked (s : AttributionIndexStore) : AttributionIndexStore :=
  { s with index := PyDict.empty, versions := PyDict.empty }

/-- The keys of the store in Redis. -/
def redisKeys (s : AttributionIndexStore) (db : RedisDb) : List String :=
  db.keys.filter (PyText.startsWith (s.settings.redisPrefix ++ ":"))

/-- The parts of `lookup`, one after the other. -/
theorem lookup_eq_parts (s : AttributionIndexStore) (db : RedisDb) (w : String) :
    s.lookup db w =
      match s.lookupLocked w with
      | (s', some entry) => (s', some entry)
      | (s', none) => match s'.loadDurableEntry db w with
          | (loaded, none) => (loaded, none)
          | (loaded, some durable) => (loaded.installLocked durable, some durable) := by
  unfold lookup lookupLocked
  cases s.index.get? w <;> rfl

/-- The parts of `materialize`, one after the other. -/
theorem materialize_eq_parts (s : AttributionIndexStore) (db : RedisDb)
    (entry : AttributionIndexEntry) (now : Instant) :
    s.materialize db entry now = (s.materializeLocked entry now).1.writeDurableEntry db
      (s.materializeLocked entry now).2 := rfl

/-- The parts of `evict`, one after the other. -/
theorem evict_eq_parts {s : AttributionIndexStore} (hon : s.settings.durableEnabled = true)
    (db : RedisDb) (w : String) :
    s.evict db w =
      (s.evictLocked w, db.erase (redisKey s.settings w), s.index.contains w) := by
  unfold evict
  rw [hon]
  rfl

/-- The parts of `clear`, one after the other. -/
theorem clear_eq_parts {s : AttributionIndexStore} (hon : s.settings.durableEnabled = true)
    (db : RedisDb) :
    s.clear db = (s.clearLocked, (s.redisKeys db).foldl PyDict.erase db) := by
  unfold clear
  rw [hon]
  rfl

end AttributionIndexStore

/-! ## Interleavings -/

/-- A call after its first lock.  A lookup remembers whether it started after an `evict`
of its workload had completed, with no `materialize` of it since. -/
inductive IndexCall where
  | reading (w : String) (afterEvict : Bool)
  | installing (w : String) (record : DurableRecord) (afterEvict : Bool)
  | answered (w : String) (answer : Option AttributionIndexEntry) (afterEvict : Bool)
  | writing (entry : AttributionIndexEntry)
  | deleting (w : String)
  | scanning
  | purging (keys : List String)
  | done
deriving DecidableEq

/-- The first part of a call, or the next part of the call at a position. -/
inductive IndexStep where
  | lookup (w : String)
  | materialize (entry : AttributionIndexEntry) (now : Instant)
  | evict (w : String)
  | clear
  | proceed (i : Nat)
deriving DecidableEq

/-- The store, Redis, the calls in the order they started, and the workloads whose
`evict` has completed with no `materialize` since. -/
structure IndexSystem where
  store : AttributionIndexStore
  db : RedisDb
  calls : List IndexCall := []
  gone : String → Bool := fun _ => false

/-- A `materialize` of the workload has come in between. -/
def IndexCall.forget (w : String) : IndexCall → IndexCall
  | .reading w' afterEvict => .reading w' (afterEvict && w' ≠ w)
  | .installing w' record afterEvict => .installing w' record (afterEvict && w' ≠ w)
  | c => c

namespace IndexSystem
open AttributionIndexStore

/-- The hash Redis holds for a workload. -/
def record (s : IndexSystem) (w : String) : Option DurableRecord :=
  s.db.get? (redisKey s.store.settings w)

/-- The next part of the call at `i`. -/
def proceed (s : IndexSystem) (i : Nat) : IndexCall → IndexSystem
  | .reading w afterEvict => match s.record w with
      | none =>
          { s with
            store := s.store.count fun c => { c with durableMisses := c.durableMisses + 1 }
            calls := s.calls.set i (.answered w none afterEvict) }
      | some r => { s with calls := s.calls.set i (.installing w r afterEvict) }
  | .installing w r afterEvict =>
      { s with
        store := s.store.installLocked r.payload
        calls := s.calls.set i (.answered w (some r.payload) afterEvict) }
  | .writing entry =>
      { s with
        store := s.store.count fun c => { c with durableWrites := c.durableWrites + 1 }
        db := redisUpsertScript (redisKey s.store.settings entry.workloadId) entry entry.version
          s.store.settings.schemaVersion s.db
        calls := s.calls.set i .done }
  | .deleting w =>
      { s with
        db := s.db.erase (redisKey s.store.settings w)
        calls := s.calls.set i .done
        gone := fun w' => if w' = w then true else s.gone w' }
  | .scanning => { s with calls := s.calls.set i (.purging (s.store.redisKeys s.db)) }
  | .purging keys =>
      { s with db := keys.foldl PyDict.erase s.db, calls := s.calls.set i .done }
  | .answered _ _ _ | .done => s

/-- One step of an interleaving, on a store with a Redis backend. -/
def step (s : IndexSystem) : IndexStep → IndexSystem
  | .lookup w => match s.store.lookupLocked w with
      | (store, some entry) =>
          { s with store, calls := s.calls ++ [.answered w (some entry) (s.gone w)] }
      | (store, none) => { s with store, calls := s.calls ++ [.reading w (s.gone w)] }
  | .materialize entry now =>
      { s with
        store := (s.store.materializeLocked entry now).1
        calls := s.calls.map (IndexCall.forget entry.workloadId) ++
          [.writing (s.store.materializeLocked entry now).2]
        gone := fun w => if w = entry.workloadId then false else s.gone w }
  | .evict w =>
      { s with store := s.store.evictLocked w, calls := s.calls ++ [.deleting w] }
  | .clear => { s with store := s.store.clearLocked, calls := s.calls ++ [.scanning] }
  | .proceed i => match s.calls[i]? with
      | some call => s.proceed i call
      | none => s

/-- A process on a Redis database. -/
def start (settings : IndexSettings) (db : RedisDb) : IndexSystem :=
  { store := { settings := { settings with durableEnabled := true } }, db }

/-! ## What is asked of a run -/

/-- The step takes entries of the workload out of the index on purpose. -/
def Removes (w : String) : IndexStep → Prop
  | .evict w' => w' = w
  | .clear => True
  | _ => False

/-- The step does not lower the version of any resident entry it does not remove. -/
def KeepsVersions (s : IndexSystem) (a : IndexStep) : Prop :=
  ∀ w e, s.store.index.get? w = some e → ¬ Removes w a →
    ∃ e', (s.step a).store.index.get? w = some e' ∧ e.version ≤ e'.version

/-- Every lookup that started after a completed `evict`, with no `materialize` since, and
has answered, has answered `None`. -/
def EvictedStayGone (s : IndexSystem) : Prop :=
  ∀ w answer, IndexCall.answered w answer true ∈ s.calls → answer = none

/-- The step evicts nothing from the index for want of room. -/
def Fits (s : IndexSystem) : IndexStep → Prop
  | .materialize entry now =>
      (s.store.index.setLast entry.workloadId (s.store.stamp entry now)).size ≤
        s.store.settings.maxEntries
  | .proceed i => match s.calls[i]? with
      | some (.installing _ r _) =>
          (s.store.index.setLast r.payload.workloadId r.payload).size ≤ s.store.settings.maxEntries
      | _ => True
  | _ => True

/-- The step comes in time: a payload is installed while Redis still holds it and no
`materialize` of the workload has its own write outstanding; an entry is written to Redis
while its workload is resident; keys are deleted from Redis while their workloads are not. -/
def Timely (s : IndexSystem) : IndexStep → Prop
  | .proceed i => match s.calls[i]? with
      | some (.installing w r _) =>
          s.record w = some r ∧ ∀ entry, IndexCall.writing entry ∈ s.calls → entry.workloadId ≠ w
      | some (.writing entry) => s.store.index.get? entry.workloadId ≠ none
      | some (.deleting w) => s.store.index.get? w = none
      | some (.purging keys) =>
          ∀ w, redisKey s.store.settings w ∈ keys → s.store.index.get? w = none
      | _ => True
  | _ => True

/-! ## The invariant -/

/-- What is known of a call in progress. -/
def CallSound (gone : String → Bool) : IndexCall → Prop
  | .reading w afterEvict => afterEvict = true → gone w = true
  | .installing w r afterEvict =>
      r.payload.workloadId = w ∧ r.payload.version = r.version ∧ afterEvict = false
  | .answered _ answer afterEvict => afterEvict = true → answer = none
  | _ => True

/-- Some write of the workload on its way to Redis, or Redis itself, is as new as `v`. -/
def Covered (s : IndexSystem) (w : String) (v : Nat) : Prop :=
  (∃ entry, IndexCall.writing entry ∈ s.calls ∧ entry.workloadId = w ∧ v ≤ entry.version) ∨
    ∃ r, s.record w = some r ∧ v ≤ r.version

/-- The invariant of timely runs. -/
structure Sound (s : IndexSystem) : Prop where
  coherent : s.store.Coherent
  keyed : ∀ w e, s.store.index.get? w = some e → e.workloadId = w
  filed : ∀ w r, s.record w = some r → r.payload.workloadId = w ∧ r.payload.version = r.version
  covered : ∀ w e, s.store.index.get? w = some e → s.Covered w e.version
  gone : ∀ w, s.gone w = true → s.store.index.get? w = none ∧ s.record w = none
  calls : ∀ c ∈ s.calls, CallSound s.gone c

/-- Redis holds records of the store's own making. -/
def Filed (settings : IndexSettings) (db : RedisDb) : Prop :=
  ∀ w r, db.get? (redisKey settings w) = some r →
    r.payload.workloadId = w ∧ r.payload.version = r.version

theorem start_sound {settings : IndexSettings} {db : RedisDb} (h : Filed settings db) :
    Sound (start settings db) where
  coherent := fun _ => rfl
  keyed := fun _ _ he => by cases he
  filed := h
  covered := fun _ _ he => by cases he
  gone := fun _ h => by cases h
  calls := fun _ hc => by cases hc

/-- A call that another one is put in the place of stays, if it is not that one. -/
theorem mem_set_of_ne {calls : List IndexCall} {i : Nat} {old new c : IndexCall}
    (hi : calls[i]? = some old) (hc : c ∈ calls) (hne : c ≠ old) : c ∈ calls.set i new := by
  obtain ⟨j, hj⟩ := List.getElem?_of_mem hc
  have hij : i ≠ j := by
    rintro rfl
    exact hne (Option.some.inj (hj.symm.trans hi))
  refine List.mem_of_getElem? (i := j) ?_
  rw [List.getElem?_set_ne hij]
  exact hj

variable {s : IndexSystem}

/-- A step that changes neither the entries nor Redis, and puts a sound call in the place
of one that is not a write, or adds one. -/
theorem Sound.of_calls (h : s.Sound) {s' : IndexSystem}
    (hsettings : s'.store.settings = s.store.settings)
    (hindex : ∀ w, s'.store.index.get? w = s.store.index.get? w)
    (hversions : s'.store.versions = s.store.versions) (hdb : s'.db = s.db)
    (hgone : s'.gone = s.gone)
    (hwriting : ∀ entry, IndexCall.writing entry ∈ s.calls → IndexCall.writing entry ∈ s'.calls)
    (hcalls : ∀ c ∈ s'.calls, c ∈ s.calls ∨ CallSound s.gone c) : s'.Sound := by
  have hrecord : ∀ w, s'.record w = s.record w := by
    intro w
    unfold record
    rw [hdb, hsettings]
  refine ⟨fun w => ?_, fun w e he => ?_, fun w r hr => ?_, fun w e he => ?_, fun w hw => ?_,
    fun c hc => ?_⟩
  · rw [hversions, hindex]
    exact h.coherent w
  · exact h.keyed w e (hindex w ▸ he)
  · exact h.filed w r (hrecord w ▸ hr)
  · rcases h.covered w e (hindex w ▸ he) with ⟨entry, hentry, hwv⟩ | hr
    · exact .inl ⟨entry, hwriting entry hentry, hwv⟩
    · exact .inr (by rw [hrecord]; exact hr)
  · rw [hindex, hrecord]
    exact h.gone w (hgone ▸ hw)
  · rw [hgone]
    rcases hcalls c hc with hold | hnew
    · exact h.calls c hold
    · exact hnew

theorem mem_append_call {calls : List IndexCall} {new : IndexCall} {gone : String → Bool}
    (hnew : CallSound gone new) : ∀ c ∈ calls ++ [new], c ∈ calls ∨ CallSound gone c := by
  intro c hc
  rcases List.mem_append.mp hc with hold | hc
  · exact .inl hold
  · rw [List.mem_singleton.mp hc]
    exact .inr hnew

theorem mem_set_call {calls : List IndexCall} {i : Nat} {new : IndexCall} {gone : String → Bool}
    (hnew : CallSound gone new) : ∀ c ∈ calls.set i new, c ∈ calls ∨ CallSound gone c := by
  intro c hc
  rcases List.mem_or_eq_of_mem_set hc with hold | rfl
  · exact .inl hold
  · exact .inr hnew

/-- No workload that is resident counts as evicted. -/
theorem Sound.not_gone (h : s.Sound) {w : String} (hw : s.store.index.get? w ≠ none) :
    s.gone w = false := by
  by_contra hgone
  exact hw (h.gone w (by simpa using hgone)).1

/-- The two ways the first part of a lookup ends. -/
theorem step_lookup (s : IndexSystem) (w : String) :
    (∃ entry, s.store.index.get? w = some entry ∧ s.step (.lookup w) =
      { s with
        store := (s.store.lookupLocked w).1
        calls := s.calls ++ [.answered w (some entry) (s.gone w)] }) ∨
    (s.store.index.get? w = none ∧ s.step (.lookup w) =
      { s with
        store := (s.store.lookupLocked w).1
        calls := s.calls ++ [.reading w (s.gone w)] }) := by
  cases hget : s.store.index.get? w with
  | some entry => exact .inl ⟨entry, rfl, by simp [step, lookupLocked, hget]⟩
  | none => exact .inr ⟨rfl, by simp [step, lookupLocked, hget]⟩

theorem lookupLocked_spec (store : AttributionIndexStore) (w : String) :
    (store.lookupLocked w).1.settings = store.settings ∧
      (store.lookupLocked w).1.versions = store.versions ∧
      ∀ w', (store.lookupLocked w).1.index.get? w' = store.index.get? w' := by
  unfold lookupLocked
  split
  · exact ⟨rfl, rfl, fun w' => PyDict.get?_moveToEnd _ _ _⟩
  · exact ⟨rfl, rfl, fun _ => rfl⟩

theorem Sound.lookup_step (h : s.Sound) (w : String) : (s.step (.lookup w)).Sound := by
  obtain ⟨hsettings, hversions, hindex⟩ := lookupLocked_spec s.store w
  rcases step_lookup s w with ⟨entry, hget, hstep⟩ | ⟨hget, hstep⟩
  · rw [hstep]
    refine h.of_calls hsettings hindex hversions rfl rfl
      (fun entry hentry => List.mem_append_left _ hentry)
      (mem_append_call fun hgone => ?_)
    rw [h.not_gone (by rw [hget]; simp)] at hgone
    cases hgone
  · rw [hstep]
    exact h.of_calls hsettings hindex hversions rfl rfl
      (fun entry hentry => List.mem_append_left _ hentry)
      (mem_append_call fun hgone => hgone)

/-! ### Materializing -/

/-- What `materialize` does under its lock, when nothing overflows. -/
theorem materializeLocked_spec {store : AttributionIndexStore} {entry : AttributionIndexEntry}
    {now : Instant} (hcoh : store.Coherent)
    (hfits : (store.index.setLast entry.workloadId (store.stamp entry now)).size ≤
      store.settings.maxEntries) :
    (store.materializeLocked entry now).1.settings = store.settings ∧
      (store.materializeLocked entry now).1.Coherent ∧
      ∀ w, (store.materializeLocked entry now).1.index.get? w =
        if w = entry.workloadId then some (store.stamp entry now) else store.index.get? w := by
  have hins := @insertLocalLocked_of_fits store (store.stamp entry now) hfits
  have hindex : (store.materializeLocked entry now).1.index =
      store.index.setLast entry.workloadId (store.stamp entry now) := by
    unfold materializeLocked
    dsimp only
    rw [hins]
    rfl
  refine ⟨?_, ?_, ?_⟩
  · unfold materializeLocked
    dsimp only
    rw [hins]
    rfl
  · intro w
    rw [hindex, PyDict.get?_setLast]
    unfold materializeLocked
    dsimp only
    rw [hins, PyDict.get?_set]
    by_cases hw : w = entry.workloadId
    · rw [if_pos hw, if_pos hw]
      rfl
    · rw [if_neg hw, if_neg hw]
      show (store.versions.set entry.workloadId _).get? w = _
      rw [PyDict.get?_set, if_neg hw]
      exact hcoh w
  · intro w
    rw [hindex, PyDict.get?_setLast]

theorem forget_writing {calls : List IndexCall} {w : String} {entry : AttributionIndexEntry}
    (h : IndexCall.writing entry ∈ calls) :
    IndexCall.writing entry ∈ calls.map (IndexCall.forget w) :=
  List.mem_map.mpr ⟨_, h, rfl⟩

/-- A call stays sound when its workload is materialized. -/
theorem CallSound.forget {gone : String → Bool} {c : IndexCall} (h : CallSound gone c)
    (w : String) :
    CallSound (fun w' => if w' = w then false else gone w') (c.forget w) := by
  cases c with
  | reading w' afterEvict =>
    intro hafter
    simp only [Bool.and_eq_true, decide_eq_true_eq] at hafter
    exact (if_neg hafter.2).trans (h hafter.1)
  | installing w' r afterEvict =>
    obtain ⟨hw, hv, hafter⟩ := h
    exact ⟨hw, hv, by rw [hafter]; rfl⟩
  | answered w' answer afterEvict => exact h
  | _ => trivial

theorem Sound.materialize_step (h : s.Sound) {entry : AttributionIndexEntry} {now : Instant}
    (hfits : s.Fits (.materialize entry now)) : (s.step (.materialize entry now)).Sound := by
  obtain ⟨hsettings, hcoh, hindex⟩ := materializeLocked_spec h.coherent hfits
  have hrecord : ∀ w, (s.step (.materialize entry now)).record w = s.record w := by
    intro w
    show s.db.get? (redisKey (s.store.materializeLocked entry now).1.settings w) = _
    rw [hsettings]
    rfl
  have hget : ∀ w, (s.step (.materialize entry now)).store.index.get? w =
      if w = entry.workloadId then some (s.store.stamp entry now) else s.store.index.get? w :=
    hindex
  refine ⟨hcoh, fun w e he => ?_, fun w r hr => ?_, fun w e he => ?_, fun w hw => ?_,
    fun c hc => ?_⟩
  · rw [hget] at he
    split at he
    · rename_i hw
      cases he
      exact hw.symm
    · exact h.keyed w e he
  · rw [hrecord] at hr
    exact h.filed w r hr
  · rw [hget] at he
    split at he
    · rename_i hw
      cases he
      exact .inl ⟨s.store.stamp entry now, List.mem_append_right _ List.mem_cons_self, hw.symm,
        le_refl _⟩
    · rcases h.covered w e he with ⟨p, hp, hpw⟩ | hr
      · exact .inl ⟨p, List.mem_append_left _ (forget_writing hp), hpw⟩
      · exact .inr (by rw [hrecord]; exact hr)
  · have hboth : w ≠ entry.workloadId ∧ s.gone w = true := by
      change (if w = entry.workloadId then false else s.gone w) = true at hw
      split at hw
      · cases hw
      · exact ⟨‹_›, hw⟩
    rw [hget, hrecord, if_neg hboth.1]
    exact h.gone w hboth.2
  · rcases List.mem_append.mp hc with hold | hnew
    · obtain ⟨c₀, hc₀, rfl⟩ := List.mem_map.mp hold
      exact (h.calls c₀ hc₀).forget entry.workloadId
    · rw [List.mem_singleton.mp hnew]
      trivial

/-! ### Removing -/

/-- A step that only takes entries out of the index. -/
theorem Sound.of_removal (h : s.Sound) {s' : IndexSystem} {new : IndexCall}
    (hsettings : s'.store.settings = s.store.settings) (hcoh : s'.store.Coherent)
    (hindex : ∀ w e, s'.store.index.get? w = some e → s.store.index.get? w = some e)
    (hdb : s'.db = s.db) (hgone : s'.gone = s.gone) (hcalls : s'.calls = s.calls ++ [new])
    (hnew : CallSound s.gone new) : s'.Sound := by
  have hrecord : ∀ w, s'.record w = s.record w := by
    intro w
    unfold record
    rw [hdb, hsettings]
  refine ⟨hcoh, fun w e he => h.keyed w e (hindex w e he), fun w r hr => ?_, fun w e he => ?_,
    fun w hw => ?_, fun c hc => ?_⟩
  · exact h.filed w r (hrecord w ▸ hr)
  · rcases h.covered w e (hindex w e he) with ⟨entry, hentry, hwv⟩ | hr
    · exact .inl ⟨entry, by rw [hcalls]; exact List.mem_append_left _ hentry, hwv⟩
    · exact .inr (by rw [hrecord]; exact hr)
  · rw [hgone] at hw
    obtain ⟨hnone, hrec⟩ := h.gone w hw
    refine ⟨?_, by rw [hrecord]; exact hrec⟩
    cases hget : s'.store.index.get? w with
    | none => rfl
    | some e =>
      have hold := hindex w e hget
      rw [hnone] at hold
      cases hold
  · rw [hgone]
    rw [hcalls] at hc
    rcases mem_append_call hnew c hc with hold | hnew'
    · exact h.calls c hold
    · exact hnew'

theorem evictLocked_spec {store : AttributionIndexStore} (hcoh : store.Coherent) (w : String) :
    (store.evictLocked w).settings = store.settings ∧ (store.evictLocked w).Coherent ∧
      ∀ w', (store.evictLocked w).index.get? w' =
        if w' = w then none else store.index.get? w' := by
  unfold evictLocked PyDict.contains
  cases hget : store.index.get? w with
  | none =>
    refine ⟨rfl, hcoh, fun w' => ?_⟩
    by_cases hw : w' = w
    · rw [if_pos hw, hw]
      exact hget
    · rw [if_neg hw]
      rfl
  | some e =>
    refine ⟨rfl, fun w' => ?_, fun w' => PyDict.get?_erase _ _ _⟩
    show (store.versions.erase w).get? w' = ((store.index.erase w).get? w').map _
    rw [PyDict.get?_erase, PyDict.get?_erase, hcoh w']
    split <;> rfl

theorem Sound.evict_step (h : s.Sound) (w : String) : (s.step (.evict w)).Sound := by
  obtain ⟨hsettings, hcoh, hindex⟩ := evictLocked_spec h.coherent w
  refine h.of_removal hsettings hcoh (fun w' e he => ?_) rfl rfl rfl trivial
  change (s.store.evictLocked w).index.get? w' = some e at he
  rw [hindex] at he
  split at he
  · cases he
  · exact he

theorem Sound.clear_step (h : s.Sound) : (s.step .clear).Sound :=
  h.of_removal rfl (fun _ => rfl) (fun _ _ he => by cases he) rfl rfl rfl trivial

/-! ### Proceeding -/

/-- The parts that change neither the entries nor Redis: a read, and a scan. -/
theorem Sound.reading_step (h : s.Sound) {i : Nat} {w : String} {afterEvict : Bool}
    (hi : s.calls[i]? = some (.reading w afterEvict)) :
    (s.proceed i (.reading w afterEvict)).Sound := by
  have hwriting : ∀ (new : IndexCall) entry, IndexCall.writing entry ∈ s.calls →
      IndexCall.writing entry ∈ s.calls.set i new := by
    intro new entry hentry
    exact mem_set_of_ne hi hentry (by simp)
  have hcall := h.calls _ (List.mem_of_getElem? hi)
  cases hrecord : s.record w with
  | none =>
    simp only [proceed, hrecord]
    exact h.of_calls rfl (fun _ => rfl) rfl rfl rfl (hwriting _)
      (mem_set_call fun _ => rfl)
  | some r =>
    simp only [proceed, hrecord]
    refine h.of_calls rfl (fun _ => rfl) rfl rfl rfl (hwriting _)
      (mem_set_call ?_)
    obtain ⟨hw, hv⟩ := h.filed w r hrecord
    refine ⟨hw, hv, ?_⟩
    -- after a completed evict there is nothing to read
    by_contra hafter
    have hgone := hcall (by simpa using hafter)
    rw [(h.gone w hgone).2] at hrecord
    cases hrecord

theorem Sound.scanning_step (h : s.Sound) {i : Nat} (hi : s.calls[i]? = some .scanning) :
    (s.proceed i .scanning).Sound :=
  h.of_calls rfl (fun _ => rfl) rfl rfl rfl
    (fun _ hentry => mem_set_of_ne hi hentry (by simp))
    (mem_set_call trivial)

/-- What the installation of a payload does, when nothing overflows. -/
theorem installLocked_spec {store : AttributionIndexStore} {payload : AttributionIndexEntry}
    (hcoh : store.Coherent)
    (hfits : (store.index.setLast payload.workloadId payload).size ≤ store.settings.maxEntries) :
    (store.installLocked payload).settings = store.settings ∧
      (store.installLocked payload).Coherent ∧
      ∀ w, (store.installLocked payload).index.get? w =
        if w = payload.workloadId then some payload else store.index.get? w := by
  have hins := insertLocalLocked_of_fits
    (s := store.count fun c => { c with durableHits := c.durableHits + 1 }) hfits
  unfold installLocked
  rw [hins]
  refine ⟨rfl, fun w => ?_, fun w => PyDict.get?_setLast _ _ _ _⟩
  show (store.versions.set payload.workloadId payload.version).get? w =
    ((store.index.setLast payload.workloadId payload).get? w).map _
  rw [PyDict.get?_set, PyDict.get?_setLast, hcoh w]
  split <;> rfl

theorem Sound.installing_step (h : s.Sound) {i : Nat} {w : String} {r : DurableRecord}
    {afterEvict : Bool} (hi : s.calls[i]? = some (.installing w r afterEvict))
    (hfits : s.Fits (.proceed i)) (htimely : s.Timely (.proceed i)) :
    (s.proceed i (.installing w r afterEvict)).Sound := by
  obtain ⟨hw, hv, hafter⟩ := h.calls _ (List.mem_of_getElem? hi)
  simp only [Fits, hi] at hfits
  simp only [Timely, hi] at htimely
  obtain ⟨hsettings, hcoh, hindex⟩ := installLocked_spec h.coherent hfits
  have hrecord : ∀ w', (s.proceed i (.installing w r afterEvict)).record w' = s.record w' := by
    intro w'
    show s.db.get? (redisKey (s.store.installLocked r.payload).settings w') = _
    rw [hsettings]
    rfl
  have hget : ∀ w', (s.proceed i (.installing w r afterEvict)).store.index.get? w' =
      if w' = w then some r.payload else s.store.index.get? w' := by
    intro w'
    rw [← hw]
    exact hindex w'
  refine ⟨hcoh, fun w' e he => ?_, fun w' r' hr => ?_, fun w' e he => ?_, fun w' hgone => ?_,
    fun c hc => ?_⟩
  · rw [hget] at he
    split at he
    · rename_i heq
      cases he
      rw [heq]
      exact hw
    · exact h.keyed w' e he
  · exact h.filed w' r' (hrecord w' ▸ hr)
  · rw [hget] at he
    split at he
    · rename_i heq
      cases he
      exact .inr ⟨r, by rw [hrecord, heq]; exact htimely.1, by rw [hv]⟩
    · rcases h.covered w' e he with ⟨entry, hentry, hwv⟩ | hr
      · exact .inl ⟨entry, mem_set_of_ne hi hentry (by simp), hwv⟩
      · exact .inr (by rw [hrecord]; exact hr)
  · obtain ⟨hnone, hrec⟩ := h.gone w' hgone
    have hne : w' ≠ w := by
      rintro rfl
      rw [htimely.1] at hrec
      cases hrec
    rw [hget, if_neg hne, hrecord]
    exact ⟨hnone, hrec⟩
  · have hanswered : CallSound s.gone (.answered w (some r.payload) afterEvict) := by
      intro hT
      rw [hafter] at hT
      cases hT
    rcases mem_set_call hanswered c hc with hold | hnew
    · exact h.calls c hold
    · exact hnew

/-- What the upsert script does to the record of its own key: the newer of the two stays. -/
theorem redisUpsertScript_get (key : String) (entry : AttributionIndexEntry) (schemaV : Nat)
    (db : RedisDb) :
    (∀ key', key' ≠ key →
      (redisUpsertScript key entry entry.version schemaV db).get? key' = db.get? key') ∧
    ((redisUpsertScript key entry entry.version schemaV db).get? key =
        some ⟨entry, entry.version, schemaV⟩ ∧
          (∀ r, db.get? key = some r → r.version ≤ entry.version) ∨
      ∃ r, db.get? key = some r ∧ entry.version < r.version ∧
        (redisUpsertScript key entry entry.version schemaV db).get? key = some r) := by
  by_cases haccepts : ((db.get? key).map DurableRecord.version).getD 0 ≤ entry.version
  · rw [redisUpsertScript_accepts haccepts]
    refine ⟨fun key' hne => by rw [PyDict.get?_set, if_neg hne], .inl ⟨?_, fun r hr => ?_⟩⟩
    · rw [PyDict.get?_set, if_pos rfl]
    · rw [hr] at haccepts
      exact haccepts
  · rw [redisUpsertScript_refuses haccepts]
    refine ⟨fun _ _ => rfl, .inr ?_⟩
    cases hget : db.get? key with
    | none =>
      rw [hget] at haccepts
      exact absurd (Nat.zero_le _) haccepts
    | some r =>
      rw [hget] at haccepts
      exact ⟨r, rfl, not_le.mp haccepts, rfl⟩

theorem Sound.writing_step (h : s.Sound) {i : Nat} {entry : AttributionIndexEntry}
    (hi : s.calls[i]? = some (.writing entry)) (htimely : s.Timely (.proceed i)) :
    (s.proceed i (.writing entry)).Sound := by
  simp only [Timely, hi] at htimely
  obtain ⟨hothers, hown⟩ := redisUpsertScript_get (redisKey s.store.settings entry.workloadId)
    entry s.store.settings.schemaVersion s.db
  have hrecord : ∀ w, w ≠ entry.workloadId →
      (s.proceed i (.writing entry)).record w = s.record w :=
    fun w hne => hothers _ fun hkey => hne (DurableSystem.redisKey_inj hkey)
  -- whatever the script decides, Redis is as new as both its record and the entry
  have hnewer : ∃ r, (s.proceed i (.writing entry)).record entry.workloadId = some r ∧
      entry.version ≤ r.version ∧ (∀ r₀, s.record entry.workloadId = some r₀ → r₀.version ≤ r.version) ∧
      r.payload.workloadId = entry.workloadId ∧ r.payload.version = r.version := by
    rcases hown with ⟨hset, hle⟩ | ⟨r, hold, hlt, hkept⟩
    · exact ⟨_, hset, le_refl _, hle, rfl, rfl⟩
    · obtain ⟨hw, hv⟩ := h.filed _ r hold
      refine ⟨r, hkept, le_of_lt hlt, fun r₀ hr₀ => ?_, hw, hv⟩
      rw [Option.some.inj (hr₀.symm.trans hold)]
  obtain ⟨r, hr, hentry, hold, hw, hv⟩ := hnewer
  refine ⟨h.coherent, h.keyed, fun w r' hr' => ?_, fun w e he => ?_, fun w hgone => ?_,
    fun c hc => ?_⟩
  · by_cases heq : w = entry.workloadId
    · rw [heq] at hr' ⊢
      obtain rfl := Option.some.inj (hr.symm.trans hr')
      exact ⟨hw, hv⟩
    · exact h.filed w r' (hrecord w heq ▸ hr')
  · by_cases heq : w = entry.workloadId
    · rcases h.covered w e he with ⟨p, hp, hpw, hpv⟩ | ⟨r₀, hr₀, hle⟩
      · by_cases hpe : p = entry
        · exact .inr ⟨r, heq ▸ hr, hpv.trans (hpe ▸ hentry)⟩
        · exact .inl ⟨p, mem_set_of_ne hi hp (by simpa using hpe), hpw, hpv⟩
      · exact .inr ⟨r, heq ▸ hr, hle.trans (hold r₀ (heq ▸ hr₀))⟩
    · rcases h.covered w e he with ⟨p, hp, hpw, hpv⟩ | hr₀
      · refine .inl ⟨p, mem_set_of_ne hi hp ?_, hpw, hpv⟩
        intro hpe
        cases hpe
        exact heq hpw.symm
      · exact .inr (by rw [hrecord w heq]; exact hr₀)
  · obtain ⟨hnone, hrec⟩ := h.gone w hgone
    have hne : w ≠ entry.workloadId := by
      rintro rfl
      exact htimely hnone
    rw [hrecord w hne]
    exact ⟨hnone, hrec⟩
  · have hdone : CallSound s.gone .done := trivial
    rcases mem_set_call hdone c hc with hold' | hnew
    · exact h.calls c hold'
    · exact hnew

/-- A step that deletes records of workloads that are not resident, and may declare some
of them gone. -/
theorem Sound.of_deletion (h : s.Sound) {s' : IndexSystem} {i : Nat} {old : IndexCall}
    (hi : s.calls[i]? = some old) (hnot : ∀ entry, old ≠ .writing entry)
    (hstore : s'.store = s.store) (hcalls : s'.calls = s.calls.set i .done)
    (hkeeps : ∀ w, s.store.index.get? w ≠ none → s'.record w = s.record w)
    (hdeletes : ∀ w r, s'.record w = some r → s.record w = some r)
    (hgone : ∀ w, s'.gone w = true →
      s.gone w = true ∨ (s.store.index.get? w = none ∧ s'.record w = none))
    (hmono : ∀ w, s.gone w = true → s'.gone w = true) : s'.Sound := by
  refine ⟨hstore ▸ h.coherent, hstore ▸ h.keyed, fun w r hr => h.filed w r (hdeletes w r hr),
    fun w e he => ?_, fun w hw => ?_, fun c hc => ?_⟩
  · rw [hstore] at he
    rcases h.covered w e he with ⟨entry, hentry, hwv⟩ | hr
    · refine .inl ⟨entry, ?_, hwv⟩
      rw [hcalls]
      exact mem_set_of_ne hi hentry fun heq => hnot entry heq.symm
    · exact .inr (by rw [hkeeps w (by rw [he]; simp)]; exact hr)
  · rw [hstore]
    rcases hgone w hw with hold | hnew
    · obtain ⟨hnone, hrec⟩ := h.gone w hold
      refine ⟨hnone, ?_⟩
      cases hr : s'.record w with
      | none => rfl
      | some r =>
        have hbefore := hdeletes w r hr
        rw [hrec] at hbefore
        cases hbefore
    · exact hnew
  · rw [hcalls] at hc
    have hsound : CallSound s.gone c := by
      have hdone : CallSound s.gone .done := trivial
      rcases mem_set_call hdone c hc with hold | hnew
      · exact h.calls c hold
      · exact hnew
    cases c with
    | reading w afterEvict => exact fun hafter => hmono w (hsound hafter)
    | installing w r afterEvict => exact hsound
    | answered w answer afterEvict => exact hsound
    | _ => trivial

theorem Sound.deleting_step (h : s.Sound) {i : Nat} {w : String}
    (hi : s.calls[i]? = some (.deleting w)) (htimely : s.Timely (.proceed i)) :
    (s.proceed i (.deleting w)).Sound := by
  simp only [Timely, hi] at htimely
  have hrecord : ∀ w', (s.proceed i (.deleting w)).record w' =
      if w' = w then none else s.record w' := by
    intro w'
    show (s.db.erase (redisKey s.store.settings w)).get? (redisKey s.store.settings w') = _
    rw [PyDict.get?_erase]
    by_cases hw : w' = w
    · rw [if_pos hw, if_pos (by rw [hw])]
    · rw [if_neg hw, if_neg fun hkey => hw (DurableSystem.redisKey_inj hkey)]
      rfl
  refine h.of_deletion hi (by simp) rfl rfl (fun w' hres => ?_) (fun w' r hr => ?_)
    (fun w' hgone => ?_) (fun w' hgone => ?_)
  · rw [hrecord, if_neg fun heq : w' = w => hres (heq ▸ htimely)]
  · rw [hrecord] at hr
    split at hr
    · cases hr
    · exact hr
  · by_cases hw : w' = w
    · exact .inr ⟨hw ▸ htimely, by rw [hrecord, if_pos hw]⟩
    · change (if w' = w then true else s.gone w') = true at hgone
      rw [if_neg hw] at hgone
      exact .inl hgone
  · show (if w' = w then true else s.gone w') = true
    split
    · rfl
    · exact hgone

theorem Sound.purging_step (h : s.Sound) {i : Nat} {keys : List String}
    (hi : s.calls[i]? = some (.purging keys)) (htimely : s.Timely (.proceed i)) :
    (s.proceed i (.purging keys)).Sound := by
  simp only [Timely, hi] at htimely
  have hrecord : ∀ w, (s.proceed i (.purging keys)).record w =
      if redisKey s.store.settings w ∈ keys then none else s.record w :=
    fun w => PyDict.get?_foldl_erase keys s.db _
  refine h.of_deletion hi (by simp) rfl rfl (fun w hres => ?_) (fun w r hr => ?_)
    (fun w hgone => .inl hgone) (fun w hgone => hgone)
  · rw [hrecord, if_neg fun hkey => hres (htimely w hkey)]
  · rw [hrecord] at hr
    split at hr
    · cases hr
    · exact hr

theorem step_proceed {i : Nat} {call : IndexCall} (hi : s.calls[i]? = some call) :
    s.step (.proceed i) = s.proceed i call := by
  simp only [IndexSystem.step, hi]

theorem step_proceed_none {i : Nat} (hi : s.calls[i]? = none) : s.step (.proceed i) = s := by
  simp only [IndexSystem.step, hi]

/-- **A timely step keeps the invariant.** -/
theorem Sound.step (h : s.Sound) (a : IndexStep) (hfits : s.Fits a) (htimely : s.Timely a) :
    (s.step a).Sound := by
  cases a with
  | lookup w => exact h.lookup_step w
  | materialize entry now => exact h.materialize_step hfits
  | evict w => exact h.evict_step w
  | clear => exact h.clear_step
  | proceed i =>
    cases hi : s.calls[i]? with
    | none =>
      rw [step_proceed_none hi]
      exact h
    | some call =>
      rw [step_proceed hi]
      cases call with
      | reading w afterEvict => exact h.reading_step hi
      | installing w r afterEvict => exact h.installing_step hi hfits htimely
      | answered w answer afterEvict => exact h
      | writing entry => exact h.writing_step hi htimely
      | deleting w => exact h.deleting_step hi htimely
      | scanning => exact h.scanning_step hi
      | purging keys => exact h.purging_step hi htimely
      | done => exact h

/-! ## Timely runs -/

/-- **A timely step keeps versions.** -/
theorem Sound.keepsVersions (h : s.Sound) (a : IndexStep) (hfits : s.Fits a)
    (htimely : s.Timely a) : s.KeepsVersions a := by
  intro w e he hnot
  cases a with
  | lookup w' =>
    obtain ⟨-, -, hindex⟩ := lookupLocked_spec s.store w'
    refine ⟨e, ?_, le_refl _⟩
    rcases step_lookup s w' with ⟨entry, -, hstep⟩ | ⟨-, hstep⟩ <;>
    · rw [hstep, hindex]
      exact he
  | materialize entry now =>
    obtain ⟨-, -, hindex⟩ := materializeLocked_spec h.coherent hfits
    have hget : (s.step (.materialize entry now)).store.index.get? w =
        if w = entry.workloadId then some (s.store.stamp entry now) else s.store.index.get? w :=
      hindex w
    by_cases hw : w = entry.workloadId
    · refine ⟨s.store.stamp entry now, by rw [hget, if_pos hw], ?_⟩
      -- the stamp is one above the version of the resident entry
      have hversion : s.store.versions.getD entry.workloadId 0 = e.version := by
        rw [PyDict.getD, h.coherent, ← hw, he]
        rfl
      show e.version ≤ s.store.versions.getD entry.workloadId 0 + 1
      omega
    · exact ⟨e, by rw [hget, if_neg hw]; exact he, le_refl _⟩
  | evict w' =>
    obtain ⟨-, -, hindex⟩ := evictLocked_spec h.coherent w'
    refine ⟨e, ?_, le_refl _⟩
    show (s.store.evictLocked w').index.get? w = some e
    rw [hindex, if_neg fun heq => hnot heq.symm]
    exact he
  | clear => exact absurd trivial hnot
  | proceed i =>
    cases hi : s.calls[i]? with
    | none => exact ⟨e, by rw [step_proceed_none hi]; exact he, le_refl _⟩
    | some call =>
      rw [step_proceed hi]
      cases call with
      | installing w' r afterEvict =>
        obtain ⟨hw', hv, -⟩ := h.calls _ (List.mem_of_getElem? hi)
        simp only [Fits, hi] at hfits
        simp only [Timely, hi] at htimely
        obtain ⟨-, -, hindex⟩ := installLocked_spec h.coherent hfits
        have hget : (s.proceed i (.installing w' r afterEvict)).store.index.get? w =
            if w = r.payload.workloadId then some r.payload else s.store.index.get? w := hindex w
        by_cases hw : w = r.payload.workloadId
        · refine ⟨r.payload, by rw [hget, if_pos hw], ?_⟩
          -- no write is outstanding, so Redis is as new as the resident entry
          rcases h.covered w e he with ⟨entry, hentry, heq, -⟩ | ⟨r', hr', hle⟩
          · exact absurd (heq.trans (hw.trans hw')) (htimely.2 entry hentry)
          · rw [hw, hw', htimely.1] at hr'
            cases hr'
            rw [hv]
            exact hle
        · exact ⟨e, by rw [hget, if_neg hw]; exact he, le_refl _⟩
      | reading w' afterEvict =>
        refine ⟨e, ?_, le_refl _⟩
        cases hrecord : s.record w' <;> simp only [proceed, hrecord]
        · exact he
        · exact he
      | _ => exact ⟨e, he, le_refl _⟩

/-- **A run of timely steps does not travel back in time**: no step lowers the version of
a resident entry, `evict` and `clear` apart, and a lookup that starts after a completed
`evict`, with no `materialize` since, answers `None`. -/
theorem timely_runs_keep_time {settings : IndexSettings} {db : RedisDb} (hdb : Filed settings db)
    (as : List IndexStep) (hfits : Run.Guarded step Fits (start settings db) as)
    (htimely : Run.Guarded step Timely (start settings db) as) :
    (∀ pre a, pre ++ [a] <+: as → (Run.exec step (start settings db) pre).KeepsVersions a) ∧
      Run.Always step EvictedStayGone (start settings db) as := by
  have hboth := Run.guarded_and.mpr ⟨hfits, htimely⟩
  have hstep : ∀ s a, Sound s → s.Fits a ∧ s.Timely a → Sound (s.step a) :=
    fun s a hs ha => hs.step a ha.1 ha.2
  constructor
  · intro pre a hpre
    obtain ⟨hbefore, ⟨hfits', htimely'⟩, -⟩ := Run.guarded_append.mp (hboth.of_prefix hpre)
    have hsound := hbefore.invariant hstep (start_sound hdb)
    exact hsound.keepsVersions a hfits' htimely'
  · refine hboth.always hstep (fun s hs => ?_) (start_sound hdb)
    intro w answer hanswer
    exact hs.calls _ hanswer rfl

theorem filed_empty (settings : IndexSettings) : Filed settings PyDict.empty :=
  fun _ _ hr => by cases hr

/-- A materialization, an eviction, and a lookup: each in its own time. -/
theorem timely_eviction :
    Run.Always step EvictedStayGone (start {} PyDict.empty)
      [.materialize (DurableSystem.ownedBy "a") 1, .proceed 0, .evict "svc", .proceed 1,
        .lookup "svc", .proceed 2] := by
  refine (timely_runs_keep_time (filed_empty {}) _ ?_ ?_).2
  · exact ⟨Nat.le_of_ble_eq_true rfl, trivial, trivial, trivial, trivial, trivial, trivial⟩
  · refine ⟨trivial, ?_, trivial, ?_, trivial, trivial, trivial⟩
    · show (Run.exec step (start {} PyDict.empty)
        [.materialize (DurableSystem.ownedBy "a") 1]).store.index.get? "svc" ≠ none
      decide
    · show (Run.exec step (start {} PyDict.empty)
        [.materialize (DurableSystem.ownedBy "a") 1, .proceed 0,
          .evict "svc"]).store.index.get? "svc" = none
      decide

/-- A lookup reads the payload before an eviction deletes it, and installs it after. -/
def staleInstall : List IndexStep :=
  [.materialize (DurableSystem.ownedBy "a") 1, .proceed 0, .evict "svc", .lookup "svc", .proceed 2,
    .proceed 1, .proceed 2, .lookup "svc"]

/-- **A stale payload brings an evicted workload back.**  The last lookup starts after the
eviction has completed, and is answered with the entry that was evicted. -/
theorem stale_install_resurrects :
    ¬ ∀ (settings : IndexSettings) (db : RedisDb) (as : List IndexStep), Filed settings db →
      Run.Guarded step Fits (start settings db) as →
      (∀ pre a, pre ++ [a] <+: as → (Run.exec step (start settings db) pre).KeepsVersions a) ∧
        Run.Always step EvictedStayGone (start settings db) as := by
  intro h
  have hfits : Run.Guarded step Fits (start {} PyDict.empty) staleInstall :=
    ⟨Nat.le_of_ble_eq_true rfl, trivial, trivial, trivial, trivial, trivial,
      Nat.le_of_ble_eq_true rfl, trivial, trivial⟩
  have hanswers := (h {} PyDict.empty staleInstall (filed_empty {}) hfits).2 staleInstall
    List.prefix_rfl "svc"
    (some { DurableSystem.ownedBy "a" with version := 1, materializedAt := 1 }) (by decide)
  cases hanswers

end IndexSystem
end ComputeIntelligence
