import ComputeIntelligence.PyDict
import ComputeIntelligence.PyValue

/-! # The attribution index

`AttributionIndexStore` (`index/materializer.py`): an in-process LRU map from
workload to `AttributionIndexEntry`, in front of a Redis hash per workload.  The
store is the state of one process; the Redis database outlives it.

The version counter of a workload lives beside the local entry and leaves with it:
an LRU eviction pops it, a restart starts with none.  The Lua upsert script, on the
other side, compares the incoming version with the one Redis holds and keeps the
larger.

The JSON text of a durable payload is represented by the entry it encodes, and the
TTL is not modelled: the results below are about a Redis that neither errs nor
expires keys.  Counters are kept; log lines are not.
-/
namespace ComputeIntelligence

/-- A score that pydantic has checked to lie between 0 and 1. -/
abbrev UnitScore := {q : ℚ // 0 ≤ q ∧ q ≤ 1}

/-- The score `1.0`. -/
def fullScore : UnitScore := ⟨1, by norm_num⟩

/-- An entry of the attribution index (`models/attribution.py`), keyed by
`workloadId`. -/
structure AttributionIndexEntry where
  workloadId : String
  teamId : String
  teamName : String
  costCenterId : String
  costCenterName : String := ""
  personId : String := ""
  personName : String := ""
  repository : String := ""
  serviceName : String := ""
  confidence : UnitScore
  confidenceTier : String
  methodUsed : String
  budgetRemainingUsd : Option PyFloat := none
  budgetLimitUsd : Option PyFloat := none
  modelAllowlist : List String := []
  costCeilingPerRequestUsd : Option PyFloat := none
  tokenBudgetOutput : Option Int := none
  tokenBudgetInput : Option Int := none
  equivalenceClassId : Option String := none
  approvedAlternatives : List String := []
  carbonMethodologyLayer : Int := 2
  gridRegion : String := ""
  version : Nat := 1
  materializedAt : Instant
  sourceEventIds : List String := []
  timeBucket : String := ""
deriving DecidableEq

/-- The Redis hash of one workload. -/
structure DurableRecord where
  payload : AttributionIndexEntry
  version : Nat
  schemaV : Nat
deriving DecidableEq

/-- The Redis database: one hash per key. -/
abbrev RedisDb := PyDict String DurableRecord

/-- The settings a store is built with. -/
structure IndexSettings where
  maxEntries : Nat := 250000
  durableEnabled : Bool := false
  redisPrefix : String := "aci:index"
  schemaVersion : Nat := 1
deriving DecidableEq

/-- The counters reported by `stats`. -/
structure IndexCounters where
  hits : Nat := 0
  misses : Nat := 0
  materializations : Nat := 0
  evictions : Nat := 0
  durableHits : Nat := 0
  durableMisses : Nat := 0
  durableWrites : Nat := 0
deriving DecidableEq

/-- The state of one `AttributionIndexStore` process. -/
structure AttributionIndexStore where
  index : PyDict String AttributionIndexEntry := PyDict.empty
  versions : PyDict String Nat := PyDict.empty
  settings : IndexSettings := {}
  counters : IndexCounters := {}

namespace AttributionIndexStore

/-- Update a counter. -/
def count (s : AttributionIndexStore) (f : IndexCounters → IndexCounters) : AttributionIndexStore :=
  { s with counters := f s.counters }

@[simp] theorem count_index (s : AttributionIndexStore) (f : IndexCounters → IndexCounters) :
    (s.count f).index = s.index := rfl

@[simp] theorem count_versions (s : AttributionIndexStore) (f : IndexCounters → IndexCounters) :
    (s.count f).versions = s.versions := rfl

@[simp] theorem count_settings (s : AttributionIndexStore) (f : IndexCounters → IndexCounters) :
    (s.count f).settings = s.settings := rfl

/-- `_redis_key`. -/
def redisKey (settings : IndexSettings) (workloadId : String) : String :=
  settings.redisPrefix ++ ":" ++ workloadId

/-- The LRU loop of `_insert_local_locked`: while the index is too large, drop its
oldest entry together with its version.  `fuel` bounds the number of rounds; one
round per entry is enough. -/
def evictOverflow : Nat → AttributionIndexStore → AttributionIndexStore
  | 0, s => s
  | fuel + 1, s =>
      if s.settings.maxEntries < s.index.size then
        match s.index.popFirst with
        | none => s
        | some ((evicted, _), rest) =>
            evictOverflow fuel
              ({ s with index := rest, versions := s.versions.erase evicted }.count
                fun c => { c with evictions := c.evictions + 1 })
      else s

/-- `_insert_local_locked`. -/
def insertLocalLocked (s : AttributionIndexStore) (entry : AttributionIndexEntry) :
    AttributionIndexStore :=
  let s' := { s with
    index := s.index.setLast entry.workloadId entry
    versions := s.versions.set entry.workloadId entry.version }
  evictOverflow s'.index.size s'

/-- The Lua upsert script: an incoming version below the stored one leaves the hash
as it is; otherwise the hash is overwritten. -/
def redisUpsertScript (key : String) (payload : AttributionIndexEntry)
    (incomingVersion schemaV : Nat) (db : RedisDb) : RedisDb :=
  let currentVersion := ((db.get? key).map DurableRecord.version).getD 0
  if incomingVersion < currentVersion then db
  else db.set key ⟨payload, incomingVersion, schemaV⟩

/-- `_write_durable_entry`. -/
def writeDurableEntry (s : AttributionIndexStore) (db : RedisDb) (entry : AttributionIndexEntry) :
    AttributionIndexStore × RedisDb :=
  if s.settings.durableEnabled then
    (s.count fun c => { c with durableWrites := c.durableWrites + 1 },
      redisUpsertScript (redisKey s.settings entry.workloadId) entry entry.version
        s.settings.schemaVersion db)
  else (s, db)

/-- `_load_durable_entry`. -/
def loadDurableEntry (s : AttributionIndexStore) (db : RedisDb) (workloadId : String) :
    AttributionIndexStore × Option AttributionIndexEntry :=
  if s.settings.durableEnabled then
    match db.get? (redisKey s.settings workloadId) with
    | none => (s.count fun c => { c with durableMisses := c.durableMisses + 1 }, none)
    | some record => (s, some record.payload)
  else (s, none)

/-- The stamped entry that `materialize` stores: one version above the local
counter, at the current time. -/
def stamp (s : AttributionIndexStore) (entry : AttributionIndexEntry) (now : Instant) :
    AttributionIndexEntry :=
  { entry with version := s.versions.getD entry.workloadId 0 + 1, materializedAt := now }

/-- `materialize`. -/
def materialize (s : AttributionIndexStore) (db : RedisDb) (entry : AttributionIndexEntry)
    (now : Instant) : AttributionIndexStore × RedisDb :=
  let entryWithVersion := s.stamp entry now
  let inserted := (s.insertLocalLocked entryWithVersion).count
    fun c => { c with materializations := c.materializations + 1 }
  let versioned := { inserted with
    versions := inserted.versions.set entry.workloadId entryWithVersion.version }
  versioned.writeDurableEntry db entryWithVersion

/-- `lookup`: a local hit is bumped to the recent end; a miss falls back to Redis
and inserts what it finds there. -/
def lookup (s : AttributionIndexStore) (db : RedisDb) (workloadId : String) :
    AttributionIndexStore × Option AttributionIndexEntry :=
  match s.index.get? workloadId with
  | some entry =>
      ({ s with index := s.index.moveToEnd workloadId }.count
        fun c => { c with hits := c.hits + 1 }, some entry)
  | none =>
      let missed := s.count fun c => { c with misses := c.misses + 1 }
      match missed.loadDurableEntry db workloadId with
      | (loaded, none) => (loaded, none)
      | (loaded, some durable) =>
          ((loaded.count fun c => { c with durableHits := c.durableHits + 1 }).insertLocalLocked
            durable, some durable)

/-- `evict`. -/
def evict (s : AttributionIndexStore) (db : RedisDb) (workloadId : String) :
    AttributionIndexStore × RedisDb × Bool :=
  let removed := s.index.contains workloadId
  let s' := if removed then
      { s with index := s.index.erase workloadId, versions := s.versions.erase workloadId }
    else s
  (s', if s.settings.durableEnabled then db.erase (redisKey s.settings workloadId) else db, removed)

/-- `clear`: every local entry, and every Redis key under the store's own prefix. -/
def clear (s : AttributionIndexStore) (db : RedisDb) : AttributionIndexStore × RedisDb :=
  ({ s with index := PyDict.empty, versions := PyDict.empty },
    if s.settings.durableEnabled then
      (db.keys.filter (PyText.startsWith (s.settings.redisPrefix ++ ":"))).foldl PyDict.erase db
    else db)

/-- A process restart: a fresh store with the same settings. -/
def restart (s : AttributionIndexStore) : AttributionIndexStore :=
  { settings := s.settings }

end AttributionIndexStore

end ComputeIntelligence
