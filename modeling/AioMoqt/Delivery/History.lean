import AioMoqt.Lib.Dict
import AioMoqt.Messages.FetchObject
import AioMoqt.Messages.Location

/-!
# Recently published objects

`ObjectHistory` of `delivery.py`, from which a publisher answers FETCH.  Records are kept
by group in the order of publication and evicted in batches, the oldest group first.  What
is lost is known by its largest Location only.
-/

namespace AioMoqt.Delivery

open AioMoqt.Lib AioMoqt.Lib.BigEndian AioMoqt.Messages

/-! ## Records -/

/-- `OBJECT_RECORD_BYTES`. -/
def objectRecordBytes : Nat := 224

/-- `MAX_OBJECT_ID`. -/
def maxObjectId : Nat := 2 ^ 62 - 1

/-- `_COMPACT_AT`. -/
def compactAt : Nat := 1024

/-- Properties as they were given: a block, or what makes one for the session that
fetches. -/
inductive Properties (σ : Type) where
  | block (exts : Option KeyValuePairs)
  | made (make : σ → Option KeyValuePairs)

/-- The properties' share of `retained_object_bytes`. -/
def Properties.charge {σ : Type} : Properties σ → Nat
  | .block (some exts) => (exts.dict.entries.map fun entry =>
      match entry.2 with
      | .int _ => 16
      | .bytes v => 16 + v.length).sum
  | _ => 0

/-- An object as it is added: a subgroup of none is a datagram, and `charge` is what its
properties cost where that is known. -/
structure Added (σ : Type) where
  groupId : Nat
  objectId : Nat
  payload : Bytes
  subgroupId : Option Nat := some 0
  properties : Properties σ := .block none
  priority : Nat := 128
  charge : Option Nat := none

/-- A record of a group. -/
structure Record (σ : Type) where
  objectId : Nat
  subgroupId : Option Nat
  payload : Bytes
  properties : Properties σ
  cost : Nat

variable {σ : Type}

/-- The record of an object. -/
def Added.record (obj : Added σ) : Record σ where
  objectId := obj.objectId
  subgroupId := obj.subgroupId
  payload := obj.payload
  properties := obj.properties
  cost := objectRecordBytes + obj.payload.length + obj.charge.getD obj.properties.charge

/-- `_HeldGroup`: the records before `head` are evicted, and `evicted` is the largest Object
ID among them.  `priorities` has the records that are not at `priority`, by index. -/
structure HeldGroup (σ : Type) where
  records : List (Record σ) := []
  head : Nat := 0
  bytes : Int := 0
  evicted : Option Nat := none
  priority : Nat
  priorities : Nat → Option Nat := fun _ => none

namespace HeldGroup

variable (grp : HeldGroup σ)

/-- `held`: the records that are not evicted, with their indices. -/
def held : List (Record σ × Nat) := (grp.records.drop grp.head).zipIdx grp.head

/-- `priority_of`. -/
def priorityOf (index : Nat) : Nat := (grp.priorities index).getD grp.priority

/-- `compact`. -/
def compact : HeldGroup σ :=
  { grp with
    records := grp.records.drop grp.head
    priorities := fun i => grp.priorities (i + grp.head)
    head := 0 }

/-- A record is appended. -/
def append (rec : Record σ) (priority : Nat) : HeldGroup σ :=
  { grp with
    records := grp.records ++ [rec]
    bytes := grp.bytes + rec.cost
    priorities :=
      if priority = grp.priority then grp.priorities
      else Function.update grp.priorities grp.records.length (some priority) }

/-- The record at `head` is evicted; past `_COMPACT_AT` such slots the group is compacted. -/
def evictHead (rec : Record σ) : HeldGroup σ :=
  let grp' := { grp with
    head := grp.head + 1
    bytes := grp.bytes - rec.cost
    evicted := some (grp.evicted.elim rec.objectId (max rec.objectId)) }
  if compactAt ≤ grp.head ∧ grp.records.length ≤ 2 * grp.head then grp'.compact else grp'

/-- The largest Object ID of records and of what was evicted before. -/
def largest (ids : List Nat) (evicted : Option Nat) : Nat := (evicted.toList ++ ids).foldl max 0

end HeldGroup

/-- `ObjectHistory`.  The groups stand as in its table, oldest first, so `_oldest` is the
first of them; `_last` is the table's entry for the last add.  `slack` is set when it was
given. -/
structure ObjectHistory (σ : Type) where
  maxBytes : Nat
  slack : Option Nat := none
  groups : Dict Nat (HeldGroup σ) := .empty
  bytes : Int := 0
  through : Option Location := none

namespace ObjectHistory

variable (h : ObjectHistory σ)

/-- `_slack`. -/
def slackBytes : Nat := h.slack.getD (h.maxBytes / 8)

/-! ## Eviction -/

/-- `evicted_through`: below it, what became of an object is not known. -/
def evictedThrough : Option Location :=
  match h.groups.entries with
  | (group, grp) :: _ => match grp.evicted with
    | some object => some (h.through.elim (.mk group object) (max (.mk group object)))
    | none => h.through
  | [] => h.through

/-- `_drop_oldest`: its largest Location joins those that are lost. -/
def dropOldest (group : Nat) (grp : HeldGroup σ) : ObjectHistory σ :=
  let gone := Location.mk group
    (HeldGroup.largest (grp.held.map fun entry => entry.1.objectId) grp.evicted)
  { h with
    groups := h.groups.erase group
    bytes := h.bytes - grp.bytes
    through := some (h.through.elim gone (max gone)) }

/-- One turn of the loop of `_evict`. -/
def evictOne (cap : Int) : Option (ObjectHistory σ) :=
  if h.bytes ≤ cap then none
  else match h.groups.entries with
    | [] => none
    | (group, grp) :: _ =>
        if grp.head + 1 = grp.records.length ∨ grp.bytes ≤ h.bytes - cap then
          some (h.dropOldest group grp)
        else (grp.records[grp.head]?).map fun rec =>
          { h with
            groups := h.groups.insert group (grp.evictHead rec)
            bytes := h.bytes - rec.cost }

/-- How many records are held, which bounds the turns of the loop. -/
def size : Nat := (h.groups.entries.map fun entry => entry.2.held.length).sum

/-- Turns of the loop of `_evict`. -/
def evictTurns (cap : Int) : Nat → ObjectHistory σ → ObjectHistory σ
  | 0, h => h
  | turns + 1, h => match h.evictOne cap with
    | none => h
    | some h => evictTurns cap turns h

/-- `_evict`. -/
def evict (cap : Int) : ObjectHistory σ := evictTurns cap h.size h

/-! ## Adding -/

/-- `add`, up to its `_evict`. -/
def stored (obj : Added σ) : ObjectHistory σ :=
  let grp := (h.groups.get? obj.groupId).getD { priority := obj.priority }
  { h with
    groups := h.groups.insert obj.groupId (grp.append obj.record obj.priority)
    bytes := h.bytes + obj.record.cost }

/-- `add`. -/
def add (obj : Added σ) : ObjectHistory σ :=
  let stored := h.stored obj
  let max := (h.maxBytes : Int)
  if stored.bytes ≤ max + h.slackBytes then stored
  else match h.slack with
    | some slack => stored.evict (max - slack)
    | none =>
        if h.bytes ≤ max then stored
        else stored.evict (max - Nat.max h.slackBytes obj.record.cost)

/-! ## Fetching -/

/-- `_held`, as a list in the order of its first insertions, with repetitions. -/
def held (start stop : Location) : List (Location × Record σ × Nat) :=
  (h.groups.entries.filter fun entry => start.group ≤ entry.1 ∧ entry.1 ≤ stop.group).flatMap fun entry =>
    (entry.2.held.map fun slot =>
      (Location.mk entry.1 slot.1.objectId, slot.1, entry.2.priorityOf slot.2)).filter
        fun rec => start ≤ rec.1 ∧ rec.1 ≤ stop

/-- `last_object`. -/
def lastObject (group : Nat) : Option Nat :=
  (h.groups.get? group).map fun grp => HeldGroup.largest (grp.held.map fun slot => slot.1.objectId) none

/-- Where the End of Range marker stands: at the end of what is lost or of the range; past
`MAX_OBJECT_ID`, at the last object held of the group. -/
def lost (start stop : Location) : Option Location :=
  h.evictedThrough.bind fun through =>
    if start ≤ through then
      let lost := min through stop
      some (if maxObjectId < lost.object then
        .mk lost.group ((h.lastObject lost.group).getD maxObjectId)
      else lost)
    else none

/-- The order of the answer: groups up or down, objects up in each. -/
def Precedes (descending : Bool) (a b : Location) : Prop :=
  if descending then b.group < a.group ∨ b.group = a.group ∧ a.object ≤ b.object else a ≤ b

instance (descending : Bool) (a b : Location) : Decidable (Precedes descending a b) := by
  unfold Precedes
  infer_instance

/-- The Locations of the answer, each once and in order. -/
def keys (descending : Bool) (held : List (Location × Record σ × Nat)) : List Location :=
  (held.map Prod.fst).dedup.insertionSort (Precedes descending)

/-- A record as it is fetched. -/
def fetchObject (session : σ) (loc : Location) (rec : Record σ) (priority : Nat) : FetchObject where
  groupId := loc.group
  subgroupId := (rec.subgroupId.getD 0 : Nat)
  objectId := loc.object
  publisherPriority := priority
  extensions := (match rec.properties with
    | .block exts => exts
    | .made make => make session).bind KeyValuePairs.orNone
  payload := rec.payload
  datagram := rec.subgroupId = none

/-- The objects of the answer: the first record of a Location wins. -/
def fetchObjects (session : σ) (descending : Bool) (held : List (Location × Record σ × Nat)) :
    List FetchObject :=
  (keys descending held).filterMap fun key =>
    (held.find? (·.1 = key)).map fun entry => fetchObject session key entry.2.1 entry.2.2

/-- `fetch`. -/
def fetch (start stop : Location) (session : σ) (descending : Bool) (lostMarker : Nat) :
    List FetchObject :=
  match h.lost start stop with
  | none => fetchObjects session descending (h.held start stop)
  | some lost =>
      let objects := fetchObjects session descending
        (h.held (max start (.mk lost.group (lost.object + 1))) stop)
      let marker : FetchObject :=
        { groupId := lost.group, objectId := lost.object, endOfRange := some lostMarker }
      if descending then objects ++ [marker] else marker :: objects

end ObjectHistory

end AioMoqt.Delivery
