import AioMoqt.Lib.Memo
import AioMoqt.Messages.Subgroup

/-!
# Encoding an object once

`_object_bytes`, `_datagram_bytes` and the list of encodings they share, of `delivery.py`: the
peers an object is written to reuse the bytes of a peer in the same encoding state.
-/

namespace AioMoqt.Delivery

open AioMoqt.Lib AioMoqt.Lib.BigEndian AioMoqt.Messages

/-! ## Datagrams -/

/-- `merged_datagram_layout`. -/
def mergedDatagramLayout (prof : DraftProfile) : Bool := prof.draft16

/-- An object in a datagram of its own. -/
structure ObjectDatagram where
  trackAlias : Nat
  groupId : Nat
  objectId : Nat := 0
  publisherPriority : Nat := defaultPublisherPriority
  extensions : Option KeyValuePairs := none
  payload : Bytes := []
  endOfGroup : Bool := false
  status : ObjectStatus := .normal

namespace ObjectDatagram

variable (self : ObjectDatagram)

def hasExtensions : Bool := self.extensions.any fun kvps => kvps.dict.entries ≠ []

def isStatus (merged : Bool) : Bool := merged && self.status ≠ .normal

/-- The type byte. -/
def typeVal (merged : Bool) : Nat :=
  (if self.hasExtensions then 0x01 else 0) |||
    (if self.endOfGroup ∧ ¬ self.isStatus merged then 0x02 else 0) |||
    (if self.objectId = 0 then 0x04 else 0) ||| (if self.isStatus merged then 0x20 else 0)

/-- The datagram in the layout, the integers and the property coding of a draft. -/
def push (vi64 merged delta : Bool) : Except MoqtError Bytes := do
  let code := if vi64 then Buffer.vi64 else Buffer.rfc9000
  let type ← pushVint code (self.typeVal merged)
  let alias' ← pushVint code self.trackAlias
  let group ← pushVint code self.groupId
  let object ← if self.objectId = 0 then .ok [] else pushVint code self.objectId
  let priority ← pushUint8 self.publisherPriority
  let exts ← if self.hasExtensions then extensionsEncode code self.extensions true delta else .ok []
  let body ← if self.isStatus merged then pushVint code self.status.code else .ok self.payload
  return type ++ alias' ++ group ++ object ++ priority ++ exts ++ body

/-- `serialize`. -/
def serialize (prof : Option DraftProfile) : Except MoqtError Bytes :=
  self.push (prof.any (·.vi64)) (prof.any mergedDatagramLayout) (prof.any (·.paramsDeltaCoded))

end ObjectDatagram

/-! ## Objects on a stream -/

/-- `encode_object_subgroup` and `encode_object_subgroup_vi64`, of the transport library. -/
abbrev ObjectEncoder : Type :=
  (vi64 : Bool) → (delta : Int) → (extensions : Option (Dict Nat KvpValue)) → (status : Nat) →
    (payload : Bytes) → (extensionsPresent kvpDelta : Bool) → Except MoqtError Bytes

/-- What is written to every peer. -/
structure FanoutObject where
  groupId : Nat
  objectId : Nat
  payload : Bytes

/-- The Object ID against the last one of a stream. -/
def objectDelta (lastObjectId : Option Nat) (objectId : Nat) : Int :=
  match lastObjectId with
  | none => objectId
  | some last => (objectId : Int) - last - 1

/-- `next_object_bytes`, of a Normal object with its Object ID. -/
def nextObjectBytes (encode : ObjectEncoder) (hdr : SubgroupHeader) (objectId : Nat)
    (payload : Bytes) (extensions : Option KeyValuePairs) :
    Except MoqtError (Bytes × SubgroupHeader) := do
  let data ← encode (hdr.prof.any (·.vi64)) (objectDelta hdr.lastObjectId objectId)
    (extensions.map KeyValuePairs.dict) ObjectStatus.normal.code payload hdr.extensionsPresent
    hdr.kvpDelta
  return (data, hdr.advance objectId)

/-! ## The shared encodings -/

/-- What the bytes of an object depend on besides the object: `encoding_state` of a header, or
`_datagram_key` of a delivery. -/
inductive EncodingKey where
  | stream (vi64 kvpDelta extensionsPresent : Bool) (lastObjectId : Option Nat)
  | datagram (trackAlias priority : Nat) (vi64 merged delta : Bool)
deriving Repr, DecidableEq

def encodingState (hdr : SubgroupHeader) : EncodingKey :=
  .stream (hdr.prof.any (·.vi64)) hdr.kvpDelta hdr.extensionsPresent hdr.lastObjectId

/-- A peer whose mapping is DATAGRAM. -/
structure DatagramDelivery where
  trackAlias : Nat
  priority : Nat := 128
  prof : Option DraftProfile
  /-- `_datagrams_shared`: another peer has the same key. -/
  datagramsShared : Bool := true

def datagramKey (delivery : DatagramDelivery) : EncodingKey :=
  .datagram delivery.trackAlias delivery.priority (delivery.prof.any (·.vi64))
    (delivery.prof.any mergedDatagramLayout) (delivery.prof.any (·.paramsDeltaCoded))

/-- Two dictionaries are equal: the same values under the same keys, in any order. -/
def dictEq (a b : Dict Nat KvpValue) : Bool :=
  a.size = b.size ∧ a.entries.all fun entry => b.get? entry.1 = some entry.2

/-- `_same_extensions`; both absent are one object. -/
def sameExtensions : Option KeyValuePairs → Option KeyValuePairs → Bool
  | none, none => true
  | some a, some b => dictEq a.dict b.dict && a.dict.keys = b.dict.keys
  | _, _ => false

/-- `_ENCODINGS_MAX`. -/
def encodingsMax : Nat := 4

/-- The encodings of one object that are kept for other peers. -/
abbrev Encodings : Type := List ((EncodingKey × Option KeyValuePairs) × Bytes)

def sameEncoding (a b : EncodingKey × Option KeyValuePairs) : Bool :=
  a.1 = b.1 ∧ sameExtensions a.2 b.2

/-- `_cached`. -/
def cached (encoded : Encodings) (key : EncodingKey) (extensions : Option KeyValuePairs) :
    Option Bytes :=
  Memo.lookup sameEncoding encoded (key, extensions)

/-- `_cache`. -/
def cache (encoded : Encodings) (key : EncodingKey) (extensions : Option KeyValuePairs)
    (data : Bytes) : Encodings :=
  Memo.store encodingsMax encoded (key, extensions) data

/-! ## One peer -/

section

variable (encode : ObjectEncoder) (obj : FanoutObject)

/-- `_object_bytes`, with the header and the encodings it leaves.  A header whose object does
not encode stays as it is. -/
def objectBytes (hdr : SubgroupHeader) (extensions : Option KeyValuePairs) :
    Option Encodings → Except MoqtError Bytes × SubgroupHeader × Option Encodings
  | none =>
      match nextObjectBytes encode hdr obj.objectId obj.payload extensions with
      | .ok (data, hdr) => (.ok data, hdr, none)
      | .error e => (.error e, hdr, none)
  | some encoded =>
      let state := encodingState hdr
      match cached encoded state extensions with
      | some data => (.ok data, hdr.advance obj.objectId, some encoded)
      | none =>
          match nextObjectBytes encode hdr obj.objectId obj.payload extensions with
          | .ok (data, hdr) => (.ok data, hdr, some (cache encoded state extensions data))
          | .error e => (.error e, hdr, some encoded)

/-- The object as this peer's datagram. -/
def datagramOf (delivery : DatagramDelivery) (extensions : Option KeyValuePairs) :
    ObjectDatagram where
  trackAlias := delivery.trackAlias
  groupId := obj.groupId
  objectId := obj.objectId
  publisherPriority := delivery.priority
  extensions := extensions
  payload := obj.payload

/-- `_datagram_bytes`, with the encodings it leaves. -/
def datagramBytes (delivery : DatagramDelivery) (extensions : Option KeyValuePairs)
    (encoded : Option Encodings) : Except MoqtError Bytes × Option Encodings :=
  let own := (datagramOf obj delivery extensions).serialize delivery.prof
  match encoded with
  | none => (own, none)
  | some encoded =>
      if delivery.datagramsShared then
        let key := datagramKey delivery
        match cached encoded key extensions with
        | some data => (.ok data, some encoded)
        | none =>
            match own with
            | .ok data => (.ok data, some (cache encoded key extensions data))
            | .error e => (.error e, some encoded)
      else (own, some encoded)

/-! ## All peers -/

/-- A peer's stream or delivery, and the extensions of the object for its session. -/
inductive Writer where
  | stream (hdr : SubgroupHeader) (extensions : Option KeyValuePairs)
  | datagram (delivery : DatagramDelivery) (extensions : Option KeyValuePairs)

/-- What a peer gets, and the header that is left. -/
def Writer.write (encoded : Option Encodings) :
    Writer → (Except MoqtError Bytes × Writer) × Option Encodings
  | .stream hdr extensions =>
      let (data, hdr, encoded) := objectBytes encode obj hdr extensions encoded
      ((data, .stream hdr extensions), encoded)
  | .datagram delivery extensions =>
      let (data, encoded) := datagramBytes obj delivery extensions encoded
      ((data, .datagram delivery extensions), encoded)

/-- The object for this peer alone. -/
def Writer.writeAlone (writer : Writer) : Except MoqtError Bytes × Writer :=
  (writer.write encode obj none).1

/-- The object for one peer after the other. -/
def writeAll (encoded : Option Encodings) : List Writer → List (Except MoqtError Bytes × Writer)
  | [] => []
  | writer :: writers =>
      let (written, encoded) := writer.write encode obj encoded
      written :: writeAll encoded writers

end

end AioMoqt.Delivery
