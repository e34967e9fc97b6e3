import AioMoqt.Messages.FetchObject

/-!
# Subgroup streams

`SubgroupHeader` and `ObjectHeader` of `messages/data.py`.  The type of a stream says which
fields its header and its objects have, and an Object ID is coded against the last one of the
stream, which each side keeps in its header.
-/

namespace AioMoqt.Messages

open AioMoqt.Lib AioMoqt.Lib.BigEndian

/-- `MOQT_DEFAULT_PRIORITY`. -/
def defaultPublisherPriority : Nat := 128

/-- `SUBGROUP_HEADER_BASE`. -/
def subgroupHeaderBase : Nat := 0x10

/-- `SUBGROUP_ID_ZERO`, `SUBGROUP_ID_FIRST_OBJ` and `SUBGROUP_ID_EXPLICIT`. -/
inductive SubgroupIdMode where
  | zero | firstObj | explicit
deriving Repr, DecidableEq

def SubgroupIdMode.code : SubgroupIdMode → Nat
  | .zero => 0
  | .firstObj => 1
  | .explicit => 2

/-- The mode of a type's bits; the stream's admission leaves no fourth. -/
def SubgroupIdMode.ofBits : Nat → SubgroupIdMode
  | 0 => .zero
  | 2 => .explicit
  | _ => .firstObj

/-- The header of a subgroup stream, with the parser state it carries along. -/
structure SubgroupHeader where
  trackAlias : Nat
  groupId : Nat
  subgroupId : Option Nat := some 0
  publisherPriority : Nat := defaultPublisherPriority
  extensionsPresent : Bool := false
  endOfGroup : Bool := false
  subgroupIdMode : SubgroupIdMode := .explicit
  firstObject : Bool := true
  defaultPriority : Bool := false
  prof : Option DraftProfile := none
  lastObjectId : Option Nat := none

/-- An object of a subgroup stream; priority and flags are those of its stream's header, on
receive only. -/
structure ObjectHeader where
  objectId : Nat
  extensions : Option KeyValuePairs := none
  status : ObjectStatus := .normal
  payload : Bytes := []
  publisherPriority : Option Nat := none
  streamFlags : Option (Bool × Bool × Bool) := none

/-! ## Objects -/

namespace ObjectHeader

/-- The Object ID against the last one. -/
def delta (self : ObjectHeader) (prevObjectId : Option Nat) : Int :=
  match prevObjectId with
  | none => self.objectId
  | some prev => (self.objectId : Int) - prev - 1

/-- Only a Normal object has properties. -/
def pushExtensions (self : ObjectHeader) (code : PrefixCode) (extensionsPresent kvpDelta : Bool) :
    Except MoqtError Bytes :=
  if extensionsPresent ∧ self.status = .normal then
    extensionsEncode code self.extensions true kvpDelta
  else if extensionsPresent then extensionsEncode code none true false
  else .ok []

/-- The payload behind its length, or an empty one and the status. -/
def pushPayload (self : ObjectHeader) (code : PrefixCode) : Except MoqtError Bytes :=
  if self.status = .normal ∧ self.payload ≠ [] then do
    let len ← pushVint code self.payload.length
    return len ++ self.payload
  else do
    let len ← pushVint code 0
    let status ← pushVint code self.status.code
    return len ++ status

/-- `serialize`. -/
def serialize (self : ObjectHeader) (extensionsPresent : Bool) (prevObjectId : Option Nat)
    (code : PrefixCode) (kvpDelta : Bool) : Except MoqtError Bytes := do
  let delta ← pushVint code (self.delta prevObjectId)
  let exts ← self.pushExtensions code extensionsPresent kvpDelta
  let body ← self.pushPayload code
  return delta ++ exts ++ body

/-- The properties of an object where the stream has them. -/
def pullExtensions (code : PrefixCode) (extensionsPresent kvpDelta : Bool) :
    Reader MoqtError (Option KeyValuePairs) :=
  if extensionsPresent then extensionsDecode code kvpDelta else return none

/-- A payload in a buffer of `bufLen` bytes, or the status of an empty one. -/
def pullPayload (code : PrefixCode) (bufLen maxPayload : Nat) : Reader MoqtError (Nat × Bytes) := do
  let payloadLen ← pullVint code
  if maxPayload ≠ 0 ∧ maxPayload < payloadLen then
    Reader.fail (.tooLarge payloadLen maxPayload)
  else do
    let pos ← Reader.tell
    if payloadLen = 0 then do
      let status ← pullVint code
      return (status, [])
    else if bufLen < pos + payloadLen then Reader.fail (.underflow pos)
    else do
      let payload ← pullBytes payloadLen
      return (0, payload)

/-- `deserialize_into`, field by field. -/
def deserializeInto (bufLen : Nat) (extensionsPresent : Bool) (prevObjectId : Option Nat)
    (code : PrefixCode) (kvpDelta : Bool) (maxPayload : Nat) : Reader MoqtError ObjectHeader := do
  let delta ← pullVint code
  let extensions ← pullExtensions code extensionsPresent kvpDelta
  let (raw, payload) ← pullPayload code bufLen maxPayload
  match objectStatus raw with
  | .error e => Reader.fail e
  | .ok status =>
      return { objectId := prevObjectId.elim delta fun prev => prev + delta + 1
               extensions, status, payload }

end ObjectHeader

/-! ## Headers -/

namespace SubgroupHeader

variable (self : SubgroupHeader)

/-- The integer codec of the stream. -/
def code : PrefixCode := if self.prof.any (·.vi64) then Buffer.vi64 else Buffer.rfc9000

/-- `_kvp_delta`. -/
def kvpDelta : Bool := self.prof.any (·.paramsDeltaCoded)

/-- The FIRST_OBJECT bit, where the draft has it. -/
def sendsFirstObject : Bool :=
  self.firstObject && self.prof.any fun prof => prof.subgroupTypeMask &&& 0x40 ≠ 0

/-- The type byte of its flags. -/
def typeOf (extensionsPresent endOfGroup defaultPriority firstObject : Bool)
    (mode : SubgroupIdMode) : Nat :=
  subgroupHeaderBase ||| (if extensionsPresent then 0x01 else 0) ||| (mode.code &&& 0x03) <<< 1 |||
    (if endOfGroup then 0x08 else 0) ||| (if defaultPriority then 0x20 else 0) |||
    (if firstObject then 0x40 else 0)

/-- `_compute_type`. -/
def computeType : Nat :=
  typeOf self.extensionsPresent self.endOfGroup self.defaultPriority self.sendsFirstObject
    self.subgroupIdMode

/-- An explicit Subgroup ID. -/
def pushSubgroupId : Except MoqtError Bytes :=
  if self.subgroupIdMode = .explicit then pushVint self.code (self.subgroupId.getD 0 : Nat)
  else .ok []

/-- A Priority that is not the default. -/
def pushPriority : Except MoqtError Bytes :=
  if self.defaultPriority then .ok [] else pushUint8 self.publisherPriority

/-- `serialize`. -/
def serialize : Except MoqtError Bytes := do
  let type ← pushVint self.code self.computeType
  let alias' ← pushVint self.code self.trackAlias
  let group ← pushVint self.code self.groupId
  let subgroup ← self.pushSubgroupId
  let priority ← self.pushPriority
  return type ++ alias' ++ group ++ subgroup ++ priority

/-- `advance`: `objectId` is the last one of the stream. -/
def advance (objectId : Nat) : SubgroupHeader :=
  { self with
    lastObjectId := some objectId
    subgroupId :=
      if self.subgroupIdMode = .firstObj ∧ self.subgroupId = none then some objectId
      else self.subgroupId }

/-- `next_object`, of an object with its Object ID. -/
def nextObject (obj : ObjectHeader) : Except MoqtError (Bytes × SubgroupHeader) := do
  let bytes ← obj.serialize self.extensionsPresent self.lastObjectId self.code self.kvpDelta
  return (bytes, self.advance obj.objectId)

/-- The Subgroup ID of a header, as far as the header tells it. -/
def pullSubgroupId (code : PrefixCode) (mode : SubgroupIdMode) : Reader MoqtError (Option Nat) :=
  match mode with
  | .explicit => do
      let subgroup ← pullVint code
      return some subgroup
  | .zero => return some 0
  | .firstObj => return none

/-- The priority of a header; the library default stands for one that is inherited. -/
def pullPriority (defaultPriority : Bool) : Reader MoqtError Nat :=
  if defaultPriority then return defaultPublisherPriority else pullUint8

/-- `deserialize`, its type read. -/
def deserialize (typeVal : Nat) (prof : Option DraftProfile) : Reader MoqtError SubgroupHeader := do
  let code := if prof.any (·.vi64) then Buffer.vi64 else Buffer.rfc9000
  let subgroupIdMode := SubgroupIdMode.ofBits ((typeVal >>> 1) &&& 0x03)
  let defaultPriority := decide (typeVal &&& 0x20 ≠ 0)
  let trackAlias ← pullVint code
  let groupId ← pullVint code
  let subgroupId ← pullSubgroupId code subgroupIdMode
  let publisherPriority ← pullPriority defaultPriority
  return { trackAlias, groupId, subgroupId, publisherPriority
           extensionsPresent := typeVal &&& 0x01 ≠ 0
           endOfGroup := typeVal &&& 0x08 ≠ 0
           firstObject := typeVal &&& 0x40 ≠ 0
           defaultPriority, prof, subgroupIdMode }

/-- The next object of a stream that is read; its id is the stream's last one. -/
def readObject (bufLen maxPayload : Nat) : Reader MoqtError (ObjectHeader × SubgroupHeader) := do
  let obj ← ObjectHeader.deserializeInto bufLen self.extensionsPresent self.lastObjectId self.code
    self.kvpDelta maxPayload
  return (obj, self.advance obj.objectId)

/-! ## Streams -/

/-- Objects one after the other. -/
def nextObjects : SubgroupHeader → List ObjectHeader → Except MoqtError Bytes
  | _, [] => .ok []
  | self, obj :: objects => do
      let (bytes, self) ← self.nextObject obj
      let rest ← nextObjects self objects
      return bytes ++ rest

/-- A stream: its header and its objects. -/
def writeStream (objects : List ObjectHeader) : Except MoqtError Bytes := do
  let header ← self.serialize
  let body ← self.nextObjects objects
  return header ++ body

/-- That many objects, and the header behind them. -/
def readObjects (bufLen maxPayload : Nat) :
    Nat → SubgroupHeader → Reader MoqtError (List ObjectHeader × SubgroupHeader)
  | 0, self => return ([], self)
  | count + 1, self => do
      let (obj, self) ← self.readObject bufLen maxPayload
      let (objects, self) ← readObjects bufLen maxPayload count self
      return (obj :: objects, self)

/-- A stream of that many objects. -/
def readStream (prof : Option DraftProfile) (bufLen maxPayload count : Nat) :
    Reader MoqtError (List ObjectHeader × SubgroupHeader) := do
  let typeVal ← pullVint (if prof.any (·.vi64) then Buffer.vi64 else Buffer.rfc9000)
  let header ← deserialize typeVal prof
  readObjects bufLen maxPayload count header

end SubgroupHeader

end AioMoqt.Messages
