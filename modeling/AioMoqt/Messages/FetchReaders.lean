import AioMoqt.Messages.Subgroup

/-!
# Reading FETCH objects at every draft

`FetchObject.deserialize` of `messages/data.py` and what the receiving loop of
`_moqt_handle_data_stream` keeps of an object.  Draft 14 writes every field of an object; drafts
16 and later say with flags which fields are there.
-/

namespace AioMoqt.Messages

open AioMoqt.Lib AioMoqt.Lib.BigEndian

namespace FetchObject

/-- `_check_payload_len`. -/
def pullPayloadLen (code : PrefixCode) (maxPayload : Nat) : Reader MoqtError Nat := do
  let payloadLen ← pullVint code
  if maxPayload ≠ 0 ∧ maxPayload < payloadLen then Reader.fail (.tooLarge payloadLen maxPayload)
  else return payloadLen

/-- The payload, or the status of an empty one. -/
def pullPayloadD14 (maxPayload : Nat) : Reader MoqtError (ObjectStatus × Bytes) := do
  let payloadLen ← pullPayloadLen Buffer.rfc9000 maxPayload
  if payloadLen = 0 then do
    let raw ← pullVint Buffer.rfc9000
    match objectStatus raw with
    | .error e => Reader.fail e
    | .ok status => return (status, [])
  else do
    let payload ← pullBytes payloadLen
    return (.normal, payload)

/-- `_deserialize_d14`. -/
def deserializeD14 (maxPayload : Nat) : Reader MoqtError FetchObject := do
  let groupId ← pullVint Buffer.rfc9000
  let subgroupId ← pullVint Buffer.rfc9000
  let objectId ← pullVint Buffer.rfc9000
  let publisherPriority ← pullUint8
  let extensions ← extensionsDecode Buffer.rfc9000 false
  let (status, payload) ← pullPayloadD14 maxPayload
  return { groupId, subgroupId, objectId, publisherPriority, extensions, status, payload }

/-- The prior's group, where the flags leave it out. -/
def pullGroupIdD16 (flags : FetchFlags) (prior : Option FetchObject) : Reader MoqtError Nat :=
  if flags.groupIdPresent then pullVint Buffer.rfc9000
  else return (prior.map (·.groupId)).getD 0

def pullSubgroupIdD16 (flags : FetchFlags) (prior : Option FetchObject) : Reader MoqtError Int :=
  if flags.datagram then return 0
  else if flags.sgMode = sgZero then return 0
  else if flags.sgMode = sgPrior then return (prior.map (·.subgroupId)).getD 0
  else if flags.sgMode = sgPriorPlus then return (prior.map (·.subgroupId + 1)).getD 1
  else do
    let subgroup ← pullVint Buffer.rfc9000
    return (subgroup : Int)

def pullObjectIdD16 (flags : FetchFlags) (prior : Option FetchObject) : Reader MoqtError Nat :=
  if flags.objectIdPresent then pullVint Buffer.rfc9000
  else return (prior.map (·.objectId)).getD 0 + 1

def pullPriorityD16 (flags : FetchFlags) (prior : Option FetchObject) : Reader MoqtError Int :=
  if flags.priorityPresent then do
    let priority ← pullUint8
    return (priority : Int)
  else return (prior.map (·.publisherPriority)).getD defaultPublisherPriority

def pullPropsD16 (flags : FetchFlags) : Reader MoqtError (Option KeyValuePairs) :=
  if flags.extensionsPresent then extensionsDecode Buffer.rfc9000 true else return none

/-- The payload; no status follows an empty one. -/
def pullPayloadD16 (maxPayload : Nat) : Reader MoqtError Bytes := do
  let payloadLen ← pullPayloadLen Buffer.rfc9000 maxPayload
  if payloadLen = 0 then return [] else pullBytes payloadLen

/-- `_deserialize_d16` of an End of Range marker. -/
def deserializeMarkerD16 (marker : Nat) : Reader MoqtError FetchObject := do
  let groupId ← pullVint Buffer.rfc9000
  let objectId ← pullVint Buffer.rfc9000
  return { groupId, objectId, endOfRange := some marker }

/-- `_deserialize_d16` of an actual object, its flags read. -/
def deserializeObjectD16 (flags : FetchFlags) (prior : Option FetchObject) (maxPayload : Nat) :
    Reader MoqtError FetchObject :=
  if prior.isNone ∧ (¬ flags.objectIdPresent ∨ ¬ flags.groupIdPresent) then
    Reader.fail (.violation
      ("FetchObject: first object on stream must have Group ID and Object ID present " ++
        "(flags 0x08 | 0x04)"))
  else do
    let groupId ← pullGroupIdD16 flags prior
    let subgroupId ← pullSubgroupIdD16 flags prior
    let objectId ← pullObjectIdD16 flags prior
    let publisherPriority ← pullPriorityD16 flags prior
    let extensions ← pullPropsD16 flags
    let payload ← pullPayloadD16 maxPayload
    return { groupId, subgroupId, objectId, publisherPriority, extensions, payload
             datagram := flags.datagram }

/-- `_deserialize_d16`. -/
def deserializeD16 (prior : Option FetchObject) (maxPayload : Nat) :
    Reader MoqtError FetchObject := do
  let flags ← pullVint Buffer.rfc9000
  let value := hex flags
  if flags = fetchFlagsEndNonExistent ∨ flags = fetchFlagsEndUnknown then
    deserializeMarkerD16 flags
  else if 0x80 ≤ flags then
    Reader.fail (.violation s!"FetchObject: invalid serialization flags 0x{value}")
  else deserializeObjectD16 (.ofNat flags) prior maxPayload

/-- `deserialize`. -/
def deserialize (prior : Option FetchObject) (prof : DraftProfile) (order : GroupOrder)
    (maxPayload : Nat) : Reader MoqtError FetchObject :=
  if prof.vi64 then deserializeD18 prior order prof maxPayload
  else if prof.draft16 then deserializeD16 prior maxPayload
  else deserializeD14 maxPayload

end FetchObject

/-- The header of a FETCH stream, with the parser state it carries along. -/
structure FetchHeader where
  requestId : Nat
  priorObj : Option FetchObject := none
  groupOrder : GroupOrder := .ascending

namespace FetchHeader

/-- A marker takes the subgroup and priority of the object before it. -/
def settle (self : FetchHeader) (obj : FetchObject) : FetchObject :=
  match obj.endOfRange, self.priorObj with
  | some _, some prior =>
      { obj with
        subgroupId := prior.subgroupId
        publisherPriority := prior.publisherPriority }
  | _, _ => obj

/-- The next object of a stream that is read; it is the prior of the one after it. -/
def readObject (self : FetchHeader) (prof : DraftProfile) (maxPayload : Nat) :
    Reader MoqtError (FetchObject × FetchHeader) := do
  let obj ← FetchObject.deserialize self.priorObj prof self.groupOrder maxPayload
  return (self.settle obj, { self with priorObj := some (self.settle obj) })

end FetchHeader

end AioMoqt.Messages
