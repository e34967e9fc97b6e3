import AioMoqt.Delivery.History
import AioMoqt.Lib.Counter
import AioMoqt.Relay.Fanout

/-!
# The relay's object cache

`_CacheBudget` of `tools/moq_interop_relay.py` and the methods of `_RelayedTrack` that put
objects into a track's cache and drop them.  Every one of them keeps the byte counters, the
groups' counts and the relay's order of use by hand; whatever they look up may be missing,
and whatever they take the least or the largest of may be empty.
-/

namespace AioMoqt.Relay

open AioMoqt.Lib AioMoqt.Lib.BigEndian AioMoqt.Messages

/-! ## A track's cache -/

/-- `CACHE_BYTES`. -/
def cacheBytesLimit : Nat := 32 * 1024 * 1024

/-- An object of the cache, and when it arrived (in ms). -/
structure CacheRecord where
  object : RelayObject
  born : Int

namespace CacheRecord

variable (c : CacheRecord)

def group : Nat := c.object.groupId

def objectId : Nat := c.object.objectId

def location : Location := c.object.location

/-- `retained_object_bytes`. -/
def size : Nat :=
  Delivery.objectRecordBytes + c.object.payload.length +
    (Delivery.Properties.block c.object.extensions : Delivery.Properties Unit).charge

end CacheRecord

/-- What the cached objects of a list weigh. -/
def retained (cache : List CacheRecord) : Nat := (cache.map CacheRecord.size).sum

/-- What else a track knows of its objects; `maxAge` is MAX_CACHE_DURATION (in ms), and
`subscribed` says that the session of a subscriber is live. -/
structure CacheNotes where
  largest : Option Location := none
  gaps : List (Location × Option Location) := []
  ended : List (Nat × Int) := []
  opened : List (Nat × Int) := []
  heads : List Nat := []
  backfilled : List Location := []
  stopped : List (Nat × Nat × Int) := []
  maxAge : Option Int := none
  subscribed : Bool := false

/-- The cache of a `_RelayedTrack`. -/
structure CachedTrack where
  cache : List CacheRecord := []
  cacheBytes : Int := 0
  groups : Dict Nat Int := .empty
  uncached : Option Nat := none
  lost : Dict Nat Nat := .empty
  notes : CacheNotes := {}

/-- What raises: a key that is missing, and the least or the largest of nothing.  `endless`
is a loop that does not end. -/
inductive CacheError where
  | keyError
  | valueError
  | endless
deriving DecidableEq

namespace CachedTrack

variable (t : CachedTrack)

/-- `note_largest`. -/
def noteLargest (loc : Location) : CachedTrack :=
  { t with notes := { t.notes with largest := some (t.notes.largest.elim loc (max loc)) } }

/-- `_note_lost`. -/
def noteLost (group objectId : Nat) : CachedTrack :=
  if ∃ lost ∈ t.lost.get? group, objectId ≤ lost then t
  else { t with lost := t.lost.insert group objectId }

/-- `_evictable`. -/
def evictable : Bool := 1 < t.groups.size ∨ (0 < t.groups.size ∧ ¬ t.notes.subscribed)

/-- A record that leaves: it is noted as lost, and its group counts one less. -/
def uncount (c : CacheRecord) : Except CacheError CachedTrack :=
  match t.groups.countDown c.group with
  | none => .error .keyError
  | some groups => .ok { t.noteLost c.group c.objectId with groups }

/-- What `_prune` forgets of a track. -/
def prune : CachedTrack :=
  let floor := (t.cache.head?.map (·.group)).getD (t.notes.largest.elim 0 (·.group))
  let pruned := { t with
    lost := t.lost.filterKeys (floor ≤ ·)
    notes := { t.notes with
      gaps := t.notes.gaps.filter fun gap =>
        ∀ stop ∈ gap.2, ∃ oldest ∈ t.cache.head?, oldest.location < stop } }
  match t.cache.head? with
  | none => pruned
  | some first => { pruned with
      notes := { pruned.notes with
        ended := t.notes.ended.filter (first.group ≤ ·.1)
        opened := t.notes.opened.filter (first.group ≤ ·.1)
        heads := t.notes.heads.filter (first.group ≤ ·)
        backfilled := t.notes.backfilled.filter (first.group ≤ ·.group)
        stopped := t.notes.stopped.filter (first.group ≤ ·.2.1) } }

/-- The loop of `_evict`, with the cache and the bytes of the budget so far. -/
def evict (t : CachedTrack) (budget : Int) :
    List CacheRecord → Except CacheError (CachedTrack × Int)
  | [] => .ok ({ t with cache := [] }, budget)
  | c :: rest =>
      if cacheGroups < t.groups.size ∨ (cacheBytesLimit : Int) < t.cacheBytes then do
        let t ← t.uncount c
        evict { t with cacheBytes := t.cacheBytes - c.size } (budget - c.size) rest
      else .ok ({ t with cache := c :: rest }, budget)

/-- `_drop_group` up to its `_prune`. -/
def dropGroup (budget : Int) (group : Nat) : Except CacheError (CachedTrack × Int) :=
  let out := t.cache.filter (·.group = group)
  match (out.map CacheRecord.objectId).max?, t.groups.get? group with
  | none, _ => .error .valueError
  | some _, none => .error .keyError
  | some last, some _ => .ok ({ t.noteLost group last with
      cache := t.cache.filter (·.group ≠ group)
      groups := t.groups.erase group
      cacheBytes := t.cacheBytes - retained out }, budget - retained out)

/-- The fetched objects the cache does not hold. -/
def newRecords (objs : List FetchTuple) (now : Int) : List CacheRecord :=
  (objs.filter fun o => o.location ∉ t.cache.map CacheRecord.location).map
    fun o => { object := { o with shape := none }, born := now }

/-- The newest Location of `_expire_cache` that is past its age: it goes, with every object
before it. -/
def expiredTo (now : Int) : Option Location :=
  t.notes.maxAge.bind fun age =>
    ((t.cache.filter fun c => c.born < now - age).map CacheRecord.location).max?

/-- `_expire_cache` up to its `_prune`, with the objects to `last` out of date. -/
def expire (budget : Int) (last : Location) : Except CacheError (CachedTrack × Int) := do
  let out := t.cache.filter (·.location ≤ last)
  let t ← out.foldlM uncount t
  .ok ({ t with
    cache := t.cache.filter (last < ·.location)
    cacheBytes := t.cacheBytes - retained out }, budget - retained out)

end CachedTrack

/-! ## The relay -/

/-- `_CacheBudget`: `lru` has the tracks whose cache holds objects, the least recently used
first. -/
structure CacheBudget (κ : Type) where
  lru : List κ := []
  bytes : Int := 0
  evictions : Nat := 0
  truncations : Nat := 0
  overrun : Bool := false

/-- The tracks of a relay, and its `_budget`. -/
structure RelayCache (κ : Type) where
  tracks : κ → CachedTrack := fun _ => {}
  budget : CacheBudget κ := {}

namespace RelayCache

variable {κ : Type} [DecidableEq κ] (s : RelayCache κ) (k : κ)

/-- The track `k` as a step left it, with the bytes of the budget. -/
def put (out : CachedTrack × Int) : RelayCache κ where
  tracks := Function.update s.tracks k out.1
  budget := { s.budget with bytes := out.2 }

/-- What other code notes of a track. -/
def note (notes : CacheNotes) : RelayCache κ :=
  s.put k ({ s.tracks k with notes }, s.budget.bytes)

/-- `_CacheBudget.touch`. -/
def touch : RelayCache κ :=
  if (s.tracks k).cache.isEmpty then s
  else { s with budget := { s.budget with lru := s.budget.lru.erase k ++ [k] } }

/-- `_CacheBudget.forget`. -/
def forget : RelayCache κ :=
  { s with budget := { s.budget with lru := s.budget.lru.erase k } }

/-- `_prune`. -/
def prune : RelayCache κ :=
  let s := s.put k ((s.tracks k).prune, s.budget.bytes)
  if (s.tracks k).cache.isEmpty then s.forget k else s

/-- `_drop_group`. -/
def dropGroup (group : Nat) : Except CacheError (RelayCache κ) := do
  .ok ((s.put k (← (s.tracks k).dropGroup s.budget.bytes group)).prune k)

/-- `_drop_oldest_group`. -/
def dropOldestGroup : Except CacheError (RelayCache κ) :=
  match (s.tracks k).groups.keys.min? with
  | none => .error .valueError
  | some group => s.dropGroup k group

/-- `_truncate_live`. -/
def truncateLive : Except CacheError (RelayCache κ) :=
  match (s.tracks k).groups.keys.max? with
  | none => .error .valueError
  | some group =>
      (s.put k ({ s.tracks k with uncached := some group }, s.budget.bytes)).dropGroup k group

/-- `max(self.lru, key=lambda t: t._cache_bytes, default=None)`: the first of the largest. -/
def largest : List κ → Option κ
  | [] => none
  | k :: rest => match largest rest with
    | none => some k
    | some k' => if (s.tracks k).cacheBytes < (s.tracks k').cacheBytes then some k' else some k

/-- `_CacheBudget.enforce`, for a budget of `limit` bytes. -/
def enforce (limit : Nat) : Nat → RelayCache κ → Except CacheError (RelayCache κ)
  | 0, _ => .error .endless
  | fuel + 1, s =>
      if s.budget.bytes ≤ limit then .ok { s with budget := { s.budget with overrun := false } }
      else
        match s.budget.lru.find? fun k => (s.tracks k).evictable with
        | some victim => do
            let s ← s.dropOldestGroup victim
            enforce limit fuel
              { s with budget := { s.budget with evictions := s.budget.evictions + 1 } }
        | none =>
            if s.budget.bytes ≤ limit + cacheBytesLimit then
              .ok { s with budget := { s.budget with overrun := true } }
            else
              match s.largest s.budget.lru with
              | none => .ok { s with budget := { s.budget with overrun := true } }
              | some largest => do
                  let s ← s.truncateLive largest
                  enforce limit fuel
                    { s with budget := { s.budget with truncations := s.budget.truncations + 1 } }

/-- The objects the relay holds. -/
def held : Nat := (s.budget.lru.map fun k => (s.tracks k).cache.length).sum

/-- `_evict`; every turn of `enforce` drops an object. -/
def evict (limit : Nat) : Except CacheError (RelayCache κ) := do
  let s := (s.put k (← (s.tracks k).evict s.budget.bytes (s.tracks k).cache)).prune k
  s.enforce limit (s.held + 1)

/-- The records `new` come into the cache, which is `cache` then. -/
def store (cache new : List CacheRecord) (largest : Option Location) : RelayCache κ :=
  let t := s.tracks k
  touch (s.put k ({ t with
    cache
    cacheBytes := t.cacheBytes + retained new
    groups := new.foldl (fun groups c => groups.countUp c.group) t.groups
    notes := { t.notes with largest } }, s.budget.bytes + retained new)) k

/-- `_remember`. -/
def remember (limit : Nat) (c : CacheRecord) : Except CacheError (RelayCache κ) :=
  let t := s.tracks k
  if t.uncached = some c.group then
    .ok (s.put k ((t.noteLargest c.location).noteLost c.group c.objectId, s.budget.bytes))
  else
    let t := if ∃ group ∈ t.uncached, group < c.group then { t with uncached := none } else t
    ((s.put k (t, s.budget.bytes)).store k (t.cache ++ [c]) [c]
      (t.noteLargest c.location).notes.largest).evict k limit

/-- `_backfill` once its FETCH was answered, for delivery that is complete from `cf`. -/
def backfill (limit : Nat) (cf : Location) (objs : List FetchTuple) (now : Int) :
    Except CacheError (RelayCache κ) := do
  let t := s.tracks k
  let new := t.newRecords objs now
  let cache := (new ++ t.cache).mergeSort fun a b => a.location ≤ b.location
  let s ← (s.store k cache new t.notes.largest).evict k limit
  let notes := (s.tracks k).notes
  .ok (s.note k { notes with
    backfilled := notes.backfilled ++ new.map CacheRecord.location
    ended := notes.ended ++
      (new.filter (·.group < cf.group)).map fun c => (c.group, c.object.subgroupId) })

/-- `_expire_cache`. -/
def expire (now : Int) : Except CacheError (RelayCache κ) :=
  match (s.tracks k).expiredTo now with
  | none => .ok s
  | some last => do
      .ok ((s.put k (← (s.tracks k).expire s.budget.bytes last)).prune k)

/-- What `_replay` and `cached_range` do with the cache, of which they want some. -/
def serve (now : Int) (wanted : CacheRecord → Bool) : Except CacheError (RelayCache κ) := do
  let s ← s.expire k now
  .ok (if (s.tracks k).cache.any wanted then s.touch k else s)

/-- `_drop_cache`. -/
def drop : RelayCache κ :=
  forget (s.put k ({ s.tracks k with cache := [], cacheBytes := 0, groups := .empty },
    s.budget.bytes - (s.tracks k).cacheBytes)) k

end RelayCache

/-! ## Runs -/

/-- What happens to the cache of a track. -/
inductive CacheEvent where
  | note (notes : CacheNotes)
  | remember (c : CacheRecord)
  | backfill (cf : Location) (objs : List FetchTuple) (now : Int)
  | expire (now : Int)
  | serve (now : Int) (wanted : CacheRecord → Bool)
  | drop

namespace RelayCache

variable {κ : Type} [DecidableEq κ]

def step (limit : Nat) (s : RelayCache κ) : κ × CacheEvent → Except CacheError (RelayCache κ)
  | (k, .note notes) => .ok (s.note k notes)
  | (k, .remember c) => s.remember k limit c
  | (k, .backfill cf objs now) => s.backfill k limit cf objs now
  | (k, .expire now) => s.expire k now
  | (k, .serve now wanted) => s.serve k now wanted
  | (k, .drop) => .ok (s.drop k)

/-- What the relay has after the events, whichever tracks they are of. -/
def run (limit : Nat) (events : List (κ × CacheEvent)) : Except CacheError (RelayCache κ) :=
  events.foldlM (step limit) {}

end RelayCache

end AioMoqt.Relay
