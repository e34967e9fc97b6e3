import AioMoqt.Messages.FetchObject
import AioMoqt.Messages.Location

/-!
# A FETCH answered from the publisher

The half of `_on_fetch` in `tools/moq_interop_relay.py` that follows `_fetch_upstream`:
the publisher's objects become tuples, are merged with what the cache holds around a gap,
filtered, put in the requested order and served.  Where it sent none, what the cache holds by then
goes out.
-/

namespace AioMoqt.Relay

open AioMoqt.Messages AioMoqt.Lib.BigEndian

/-- The tuple form of a fetched or a cached object. -/
structure FetchTuple where
  groupId : Nat
  subgroupId : Int
  objectId : Nat
  payload : Bytes
  extensions : Option KeyValuePairs
  priority : Int
  status : ObjectStatus

def FetchTuple.location (o : FetchTuple) : Location := .mk o.groupId o.objectId

/-- What `_drain_stream` puts in the sink of `_install_fetch_sink`: End of Range markers
go to `on_fetch_gap`, which the relay leaves unset. -/
def collected (items : List FetchObject) : List FetchObject :=
  items.filter fun o => o.endOfRange.isNone

/-- The tuple `_on_fetch` makes of an upstream object. -/
def fetchTuple (o : FetchObject) : FetchTuple where
  groupId := o.groupId
  subgroupId := o.subgroupId
  objectId := o.objectId
  payload := o.payload
  extensions := o.extensions
  priority := o.publisherPriority
  status := o.status

/-- `_merged`: one object per Location, those of the publisher first, in Location
order. -/
def merged (objs cached : List FetchTuple) : List FetchTuple :=
  if objs.isEmpty then cached
  else (objs ++ cached.filter fun c => c.location ∉ objs.map FetchTuple.location).mergeSort
    fun a b => a.location ≤ b.location

/-- `cached_range`: the records of the cache from `start` to `stop`, both included, in
Location order. -/
def cachedRange (cache : List FetchTuple) (start : Location) (stop : Option Location) :
    List FetchTuple :=
  (cache.filter fun o => start ≤ o.location ∧ ∀ last ∈ stop, o.location ≤ last).mergeSort
    fun a b => a.location ≤ b.location

/-- `sorted(objs, key=lambda o: (-o[0], o[2]))`. -/
def descending (objs : List FetchTuple) : List FetchTuple :=
  objs.mergeSort fun a b =>
    b.groupId < a.groupId ∨ a.groupId = b.groupId ∧ a.objectId ≤ b.objectId

/-- The FetchObject `_counted_fetch` makes of a tuple. -/
def countedFetch (o : FetchTuple) : FetchObject where
  groupId := o.groupId
  subgroupId := o.subgroupId
  objectId := o.objectId
  publisherPriority := o.priority
  extensions := o.extensions
  payload := o.payload
  status := o.status

/-- The objects `serve_fetch` writes: where FETCH carries no status, none that has one. -/
def served (prof : DraftProfile) (objs : List FetchObject) : List FetchObject :=
  objs.filter fun o => prof.fetchObjectStatus || o.endOfRange.isSome || o.status = .normal

/-! ## The answer -/

/-- The cache of a track and the range asked of it. -/
structure CacheQuery where
  cache : List FetchTuple
  start : Location
  stop : Option Location

namespace CacheQuery

variable (query : CacheQuery)

def objects : List FetchTuple := cachedRange query.cache query.start query.stop

/-- `group_end`. -/
def groupEnd (group : Nat) : Location :=
  let held := (query.cache.filter (·.groupId = group)).map FetchTuple.objectId
  max query.start (.mk group (held.max?.getD 0))

/-- The End Location of objects from the cache: the requested End, with a whole End Group up to its
last object. -/
def endLocation : Option Location :=
  match query.stop with
  | none => query.objects.getLast?.map FetchTuple.location
  | some stop => some (if stop.object = u64Max then query.groupEnd stop.group else stop)

end CacheQuery

/-- A live track whose cache covers the start of the range. -/
structure LiveTrack where
  query : CacheQuery
  properties : Option KeyValuePairs

section

/-! `around` is what `track.cached_range(start, end)` reads where the range crosses a gap
and the cache covers its start, `live` the track once upstream has answered, and `admits` the
Range Filters of the request. -/

variable (prof : DraftProfile) (order : GroupOrder) (around : Option CacheQuery)
variable (live : Option LiveTrack) (admits : FetchTuple → Bool)

/-- The track that answers where upstream sent no object: it cached some meanwhile. -/
def cachedMeanwhile (items : List FetchObject) : Option LiveTrack :=
  if (collected items).isEmpty then live.filter (! ·.query.objects.isEmpty) else none

/-- The objects of the answer before the filters. -/
def relayedObjects (items : List FetchObject) : List FetchTuple :=
  match cachedMeanwhile live items with
  | some track => track.query.objects
  | none =>
      match around with
      | some query => merged ((collected items).map fetchTuple) query.objects
      | none => (collected items).map fetchTuple

/-- The End Location the objects give: without the cache, that of the last one. -/
def relayedEnd (items : List FetchObject) : Option Location :=
  match cachedMeanwhile live items with
  | some track => track.query.endLocation
  | none => (relayedObjects around live items).getLast?.map FetchTuple.location

/-- The End of FETCH_OK, the last object plus one: the publisher's if there is no object. -/
def endNext (upOk : FetchOk) : Option Location → Nat × Nat
  | some last => (last.group, last.object + 1)
  | none =>
      if upOk.largestObjectId = 0 ∧ prof.fetchLocationFilter then (upOk.largestGroupId, 1)
      else (upOk.largestGroupId, upOk.largestObjectId)

/-- `int(objs[-1][6] == ObjectStatus.END_OF_TRACK)`. -/
def endsTrack (objs : List FetchTuple) : Nat :=
  if objs.getLast?.any (·.status = .endOfTrack) then 1 else 0

/-- The FETCH_OK that `_on_fetch` sends. -/
def relayedOk (requestId : Nat) (upOk : FetchOk) (items : List FetchObject) : FetchOk :=
  let stop := endNext prof upOk (relayedEnd around live items)
  let fromCache := cachedMeanwhile live items
  { requestId := some requestId
    endOfTrack := fromCache.elim upOk.endOfTrack fun track => endsTrack track.query.objects
    largestGroupId := stop.1
    largestObjectId := stop.2
    groupOrder := some (if order = .descending then 2 else 1)
    parameters := .empty
    trackExtensions := fromCache.elim upOk.trackExtensions LiveTrack.properties }

/-- The objects that `_on_fetch` serves. -/
def relayedStream (items : List FetchObject) : List FetchObject :=
  let objs := (relayedObjects around live items).filter admits
  served prof ((if order = .descending then descending objs else objs).map countedFetch)

end

end AioMoqt.Relay
