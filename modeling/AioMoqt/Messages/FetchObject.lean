import AioMoqt.Messages.Base

/-!
# Objects on a FETCH stream

`FetchObject._serialize_d18` and `_deserialize_d18` of `messages/data.py`, the
sending loop of `serve_fetch` and the receiving loop of `_moqt_handle_data_stream`.
Group, Object, Subgroup and Priority are coded against a prior that each side
rebuilds on its own.
-/

namespace AioMoqt.Messages

open AioMoqt.Lib AioMoqt.Lib.BigEndian

inductive ObjectStatus where
  | normal | doesNotExist | endOfGroup | endOfTrack
deriving Repr, DecidableEq

def ObjectStatus.code : ObjectStatus → Nat
  | .normal => 0
  | .doesNotExist => 1
  | .endOfGroup => 3
  | .endOfTrack => 4

/-- `_object_status`. -/
def objectStatus (raw : Nat) : Except MoqtError ObjectStatus :=
  let value := hex raw
  match raw with
  | 0 => .ok .normal
  | 1 => .ok .doesNotExist
  | 3 => .ok .endOfGroup
  | 4 => .ok .endOfTrack
  | _ => .error (.violation s!"unknown object status 0x{value}")

inductive GroupOrder where
  | publisherDefault | ascending | descending
deriving Repr, DecidableEq

/-- Subgroup and priority are -1 in the prior an End of Range marker leaves when
no actual object came before it. -/
structure FetchObject where
  groupId : Nat := 0
  subgroupId : Int := 0
  objectId : Nat := 0
  publisherPriority : Int := 128
  extensions : Option KeyValuePairs := none
  status : ObjectStatus := .normal
  payload : Bytes := []
  endOfRange : Option Nat := none
  datagram : Bool := false

def fetchFlagsEndNonExistent : Nat := 0x8C
def fetchFlagsEndUnknown : Nat := 0x10C
def fetchFlagsEndTimedOut : Nat := 0x20C

/-- The End of Range markers a draft defines. -/
def endOfRangeFlags (prof : DraftProfile) : List Nat :=
  if prof.fetchTimedOutRange then
    [fetchFlagsEndNonExistent, fetchFlagsEndUnknown, fetchFlagsEndTimedOut]
  else [fetchFlagsEndNonExistent, fetchFlagsEndUnknown]

/-- The Serialization Flags of an object: the Subgroup ID mode in the low two
bits, then one bit for each field. -/
structure FetchFlags where
  sgMode : Fin 4 := 0
  objectIdPresent : Bool := false
  groupIdPresent : Bool := false
  priorityPresent : Bool := false
  extensionsPresent : Bool := false
  datagram : Bool := false
deriving DecidableEq

def sgZero : Fin 4 := 0
def sgPrior : Fin 4 := 1
def sgPriorPlus : Fin 4 := 2
def sgPresent : Fin 4 := 3

namespace FetchFlags

def toNat (flags : FetchFlags) : Nat :=
  flags.sgMode.val + (if flags.objectIdPresent then 0x04 else 0) +
    (if flags.groupIdPresent then 0x08 else 0) + (if flags.priorityPresent then 0x10 else 0) +
    (if flags.extensionsPresent then 0x20 else 0) + (if flags.datagram then 0x40 else 0)

/-- The bits of a value read off the wire. -/
def ofNat (n : Nat) : FetchFlags :=
  { sgMode := ⟨n % 4, Nat.mod_lt _ (by decide)⟩
    objectIdPresent := n.testBit 2
    groupIdPresent := n.testBit 3
    priorityPresent := n.testBit 4
    extensionsPresent := n.testBit 5
    datagram := n.testBit 6 }

theorem ofNat_toNat (flags : FetchFlags) : ofNat flags.toNat = flags := by
  obtain ⟨mode, object, group, priority, exts, dgram⟩ := flags
  revert mode object group priority exts dgram
  decide

theorem toNat_lt (flags : FetchFlags) : flags.toNat < 0x80 := by
  obtain ⟨mode, object, group, priority, exts, dgram⟩ := flags
  revert mode object group priority exts dgram
  decide

end FetchFlags

namespace FetchObject

/-! ## Sending -/

/-- The Group and Object fields against the prior: absolute on the first object,
a group delta in the direction of the order with an absolute object, an object
delta, or nothing for the next object. -/
def locationFields (self : FetchObject) (prior : Option FetchObject) (order : GroupOrder) :
    Except MoqtError (Option Int × Option Int) :=
  match prior with
  | none => .ok (some self.groupId, some self.objectId)
  | some prior =>
      if self.groupId ≠ prior.groupId then
        let delta : Int := if order = .descending
          then (prior.groupId : Int) - self.groupId - 1
          else (self.groupId : Int) - prior.groupId - 1
        let group := self.groupId
        let last := prior.groupId
        let direction := if order = .descending then 2
          else if order = .ascending then 1 else 0
        if delta < 0 then .error (.valueError
          s!"FetchObject: group {group} after {last} contradicts group_order={direction}")
        else .ok (some delta, some self.objectId)
      else if self.objectId ≠ prior.objectId + 1 then
        let delta : Int := (self.objectId : Int) - prior.objectId
        let object := self.objectId
        let last := prior.objectId
        if delta < 0 then .error (.valueError
          s!"FetchObject: object {object} after {last} not in ascending order")
        else .ok (none, some delta)
      else .ok (none, none)

/-- A datagram's Subgroup ID reads as 0 when it is the prior. -/
def priorSubgroup (prior : FetchObject) : Int := if prior.datagram then 0 else prior.subgroupId

/-- The Subgroup ID mode and, in the last mode, the field. -/
def subgroupField (self : FetchObject) (prior : Option FetchObject) : Fin 4 × Option Int :=
  if self.datagram then (sgZero, none)
  else if self.subgroupId = 0 then (sgZero, none)
  else match prior with
    | none => (sgPresent, some self.subgroupId)
    | some prior =>
        if self.subgroupId = prior.priorSubgroup then (sgPrior, none)
        else if self.subgroupId = prior.priorSubgroup + 1 then (sgPriorPlus, none)
        else (sgPresent, some self.subgroupId)

/-- Whether the Priority differs from the prior's. -/
def sendsPriority (self : FetchObject) (prior : Option FetchObject) : Bool :=
  match prior with
  | none => true
  | some prior => self.publisherPriority ≠ prior.publisherPriority

def hasProps (self : FetchObject) : Bool :=
  match self.extensions with
  | none => false
  | some kvps => kvps.dict.entries ≠ []

/-- A status other than Normal, where the draft and the object allow none. -/
def statusFault (self : FetchObject) (prof : DraftProfile) : Option String :=
  let draft := prof.draft.number
  if self.status = .normal then none
  else if ¬ prof.fetchObjectStatus then
    some s!"FetchObject: FETCH objects carry no Object Status at d{draft} (§11.2.1.1)"
  else if self.payload ≠ [] then
    some "FetchObject: non-Normal status requires an empty payload (§11.2.1.1)"
  else if self.hasProps then
    some "FetchObject: properties on non-Normal status (§11.2.1.2)"
  else none

/-- A field that may be absent. -/
def pushOpt (code : PrefixCode) : Option Int → Except MoqtError Bytes
  | none => .ok []
  | some v => pushVint code v

def pushPriority (self : FetchObject) (prior : Option FetchObject) : Except MoqtError Bytes :=
  if self.sendsPriority prior then pushUint8 self.publisherPriority else .ok []

def pushProps (self : FetchObject) (prof : DraftProfile) : Except MoqtError Bytes :=
  if self.hasProps then extensionsEncode prof.vint self.extensions true true else .ok []

/-- The payload behind its length; zero-length objects carry a Status where the
draft says so. -/
def pushPayload (self : FetchObject) (prof : DraftProfile) : Except MoqtError Bytes :=
  if self.payload ≠ [] then do
    let len ← pushVint prof.vint self.payload.length
    return len ++ self.payload
  else do
    let len ← pushVint prof.vint 0
    let status ← if prof.fetchObjectStatus then pushVint prof.vint self.status.code else .ok []
    return len ++ status

/-- The flags of an object whose fields are decided. -/
def flags (self : FetchObject) (prior : Option FetchObject) (group object : Option Int) :
    FetchFlags :=
  { sgMode := (self.subgroupField prior).1
    objectIdPresent := object.isSome
    groupIdPresent := group.isSome
    priorityPresent := self.sendsPriority prior
    extensionsPresent := self.hasProps
    datagram := self.datagram }

/-- `_serialize_d18` of an actual object. -/
def serializeObject (self : FetchObject) (prior : Option FetchObject) (order : GroupOrder)
    (prof : DraftProfile) : Except MoqtError Bytes := do
  let (group, object) ← self.locationFields prior order
  match self.statusFault prof with
  | some reason => .error (.valueError reason)
  | none =>
      let flags ← pushVint prof.vint (self.flags prior group object).toNat
      let group ← pushOpt prof.vint group
      let subgroup ← pushOpt prof.vint (self.subgroupField prior).2
      let object ← pushOpt prof.vint object
      let priority ← self.pushPriority prior
      let props ← self.pushProps prof
      let payload ← self.pushPayload prof
      return flags ++ group ++ subgroup ++ object ++ priority ++ props ++ payload

/-- `_serialize_d18` of an End of Range marker. -/
def serializeMarker (self : FetchObject) (marker : Nat) (prof : DraftProfile) :
    Except MoqtError Bytes :=
  let value := hex marker
  let draft := prof.draft.number
  if marker ∉ endOfRangeFlags prof then
    .error (.valueError
      s!"FetchObject: End of Range 0x{value} is not defined at d{draft}")
  else do
    let flags ← pushVint prof.vint marker
    let group ← pushVint prof.vint self.groupId
    let object ← pushVint prof.vint self.objectId
    return flags ++ group ++ object

def serializeD18 (self : FetchObject) (prior : Option FetchObject) (order : GroupOrder)
    (prof : DraftProfile) : Except MoqtError Bytes :=
  match self.endOfRange with
  | some marker => self.serializeMarker marker prof
  | none => self.serializeObject prior order prof

/-- The prior `serve_fetch` keeps after sending an object: the marker for the
Group and Object deltas, with the Subgroup and Priority of the last object. -/
def sentPrior (obj : FetchObject) (prior : Option FetchObject) : FetchObject :=
  match obj.endOfRange with
  | none => obj
  | some _ =>
      { groupId := obj.groupId
        objectId := obj.objectId
        subgroupId := (prior.map (·.subgroupId)).getD (-1)
        publisherPriority := (prior.map (·.publisherPriority)).getD (-1) }

/-- The stream `serve_fetch` writes after its header.  Objects with a status are
skipped where FETCH carries none. -/
def serveFetch (prof : DraftProfile) (order : GroupOrder) :
    Option FetchObject → List FetchObject → Except MoqtError Bytes
  | _, [] => .ok []
  | prior, obj :: objects =>
      if ¬ prof.fetchObjectStatus ∧ obj.endOfRange = none ∧ obj.status ≠ .normal then
        serveFetch prof order prior objects
      else do
        let bytes ← obj.serializeD18 prior order prof
        let rest ← serveFetch prof order (some (obj.sentPrior prior)) objects
        return bytes ++ rest

/-! ## Receiving -/

/-- The Group ID a delta stands for, absolute on the first object. -/
def resolveGroupId (prior : Option FetchObject) (order : GroupOrder) (gd : Nat) :
    Reader MoqtError Nat :=
  match prior with
  | none => return gd
  | some prior =>
      if order = .descending then
        if prior.groupId < gd + 1 then
          Reader.fail (.violation "FetchObject: group id underflow")
        else return prior.groupId - gd - 1
      else if kvpTypeMax < prior.groupId + gd + 1 then
        Reader.fail (.violation "FetchObject: group id past 2^64-1")
      else return prior.groupId + gd + 1

def pullGroupId (flags : FetchFlags) (prior : Option FetchObject) (order : GroupOrder)
    (prof : DraftProfile) : Reader MoqtError Nat :=
  if flags.groupIdPresent then do
    let gd ← pullVint prof.vint
    resolveGroupId prior order gd
  else return (prior.map (·.groupId)).getD 0

/-- The prior's Subgroup ID, when an actual object left one. -/
def referencedSubgroup (prior : Option FetchObject) : Reader MoqtError Int :=
  match prior with
  | none => Reader.fail (.violation "FetchObject: first object references prior Subgroup")
  | some prior =>
      if prior.subgroupId < 0 then
        Reader.fail (.violation "FetchObject: first object references prior Subgroup")
      else return prior.subgroupId

def pullSubgroupId (flags : FetchFlags) (prior : Option FetchObject) (prof : DraftProfile) :
    Reader MoqtError Int :=
  if flags.datagram then return 0
  else if flags.sgMode = sgZero then return 0
  else if flags.sgMode = sgPrior then referencedSubgroup prior
  else if flags.sgMode = sgPriorPlus then do
    let subgroup ← referencedSubgroup prior
    return subgroup + 1
  else do
    let subgroup ← pullVint prof.vint
    return (subgroup : Int)

/-- Absolute when the group changed or on the first object, else relative. -/
def resolveObjectId (flags : FetchFlags) (prior : Option FetchObject) (od : Nat) : Nat :=
  match prior with
  | none => od
  | some prior => if flags.groupIdPresent then od else prior.objectId + od

def checkObjectId (objectId : Nat) : Reader MoqtError Nat :=
  if kvpTypeMax < objectId then
    Reader.fail (.violation "FetchObject: object id past 2^64-1")
  else return objectId

def pullObjectId (flags : FetchFlags) (prior : Option FetchObject) (prof : DraftProfile) :
    Reader MoqtError Nat :=
  if flags.objectIdPresent then do
    let od ← pullVint prof.vint
    checkObjectId (resolveObjectId flags prior od)
  else checkObjectId ((prior.map (·.objectId)).getD 0 + 1)

def pullPriority (flags : FetchFlags) (prior : Option FetchObject) : Reader MoqtError Int :=
  if flags.priorityPresent then do
    let priority ← pullUint8
    return (priority : Int)
  else match prior with
    | some prior =>
        if 0 ≤ prior.publisherPriority then return prior.publisherPriority
        else Reader.fail (.violation "FetchObject: first object references prior Priority")
    | none => Reader.fail (.violation "FetchObject: first object references prior Priority")

def pullProps (flags : FetchFlags) (prof : DraftProfile) :
    Reader MoqtError (Option KeyValuePairs) :=
  if flags.extensionsPresent then extensionsDecode prof.vint true else return none

/-- `_check_payload_len`, then the payload, or the Status of an empty one. -/
def pullPayload (extensions : Option KeyValuePairs) (maxPayload : Nat) (prof : DraftProfile) :
    Reader MoqtError (ObjectStatus × Bytes) := do
  let payloadLen ← pullVint prof.vint
  if maxPayload ≠ 0 ∧ maxPayload < payloadLen then
    Reader.fail (.tooLarge payloadLen maxPayload)
  else if payloadLen = 0 then
    if prof.fetchObjectStatus then do
      let raw ← pullVint prof.vint
      match objectStatus raw with
      | .error e => Reader.fail e
      | .ok status =>
          if extensions.isSome ∧ status ≠ .normal then
            Reader.fail (.violation
              "FetchObject: properties on non-Normal status (§11.2.1.2)")
          else return (status, [])
    else return (.normal, [])
  else do
    let payload ← pullBytes payloadLen
    return (.normal, payload)

/-- `_deserialize_d18` of an actual object, its flags read. -/
def deserializeObject (flags : FetchFlags) (prior : Option FetchObject) (order : GroupOrder)
    (prof : DraftProfile) (maxPayload : Nat) : Reader MoqtError FetchObject :=
  if prior.isNone ∧ (¬ flags.groupIdPresent ∨ ¬ flags.objectIdPresent) then
    Reader.fail (.violation
      ("FetchObject: first object on stream must carry Group ID Delta and Object ID Delta " ++
        "(absolute values)"))
  else do
    let groupId ← pullGroupId flags prior order prof
    let subgroupId ← pullSubgroupId flags prior prof
    let objectId ← pullObjectId flags prior prof
    let publisherPriority ← pullPriority flags prior
    let extensions ← pullProps flags prof
    let (status, payload) ← pullPayload extensions maxPayload prof
    return { groupId, subgroupId, objectId, publisherPriority, extensions, status, payload
             datagram := flags.datagram }

/-- The prior a marker leaves: Subgroup and Priority stay the last object's. -/
def deserializeMarker (marker : Nat) (prior : Option FetchObject) (prof : DraftProfile) :
    Reader MoqtError FetchObject := do
  let groupId ← pullVint prof.vint
  let objectId ← pullVint prof.vint
  return { groupId, objectId, endOfRange := some marker
           subgroupId := (prior.map (·.subgroupId)).getD (-1)
           publisherPriority := (prior.map (·.publisherPriority)).getD (-1) }

def deserializeD18 (prior : Option FetchObject) (order : GroupOrder) (prof : DraftProfile)
    (maxPayload : Nat) : Reader MoqtError FetchObject := do
  let flags ← pullVint prof.vint
  let value := hex flags
  if flags ∈ endOfRangeFlags prof then deserializeMarker flags prior prof
  else if 0x80 ≤ flags then
    Reader.fail (.violation s!"FetchObject: invalid serialization flags 0x{value}")
  else deserializeObject (.ofNat flags) prior order prof maxPayload

/-- The objects on a FETCH stream after its header; each decoded object is the
next one's prior.  Every object takes at least one byte, so the length is fuel
enough. -/
def fetchStream (prof : DraftProfile) (order : GroupOrder) (maxPayload : Nat) :
    Nat → Option FetchObject → Cursor → Except MoqtError (List FetchObject)
  | fuel, prior, cur =>
      if cur.rest = [] then .ok []
      else match fuel with
        | 0 => .ok []
        | fuel + 1 => do
            let (obj, next) ← deserializeD18 prior order prof maxPayload cur
            let rest ← fetchStream prof order maxPayload fuel (some obj) next
            return obj :: rest

end FetchObject

end AioMoqt.Messages
