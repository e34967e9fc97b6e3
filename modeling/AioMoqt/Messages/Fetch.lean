import AioMoqt.Messages.Subscribe

/-!
# FETCH

`messages/fetch.py`.  Up to draft 18 a FETCH names its type and its range, whose end
is the last object plus one; from draft 20 on the range is a Location Filter with an
inclusive end.
-/

namespace AioMoqt.Messages

open AioMoqt.Lib AioMoqt.Lib.BigEndian

/-- The range of a FETCH up to draft 18: object 0 of the end asks for its whole group. -/
structure FetchRange where
  startGroup : Option Nat := none
  startObject : Option Nat := none
  endGroup : Option Nat := none
  endObject : Option Nat := none
deriving Repr, DecidableEq

namespace LocationFilter

/-- `from_fetch_range`. -/
def fromFetchRange (range : FetchRange) : Except MoqtError LocationFilter :=
  let group := range.startGroup.getD 0
  let object := range.startObject.getD 0
  match range.endGroup with
  | Option.none => absolute group object Option.none Option.none
  | some stop =>
      match range.endObject.getD 0 with
      | 0 => absolute group object (some stop) Option.none
      | endObject + 1 => absolute group object (some stop) (some endObject)

/-- `fetch_range`; the forms relative to the largest object have none. -/
def fetchRange : LocationFilter → Option FetchRange
  | none => some ⟨some 0, some 0, Option.none, Option.none⟩
  | absoluteStart group object => some ⟨some group, some object, Option.none, Option.none⟩
  | absoluteGroupEnd group object stop => some ⟨some group, some object, some stop, some 0⟩
  | absoluteRange group object stop endObject =>
      some ⟨some group, some object, some stop, some (endObject + 1)⟩
  | _ => Option.none

end LocationFilter

namespace FetchType

def standalone : Nat := 1
def relativeJoining : Nat := 2
def absoluteJoining : Nat := 3

end FetchType

/-- `_is_joining`. -/
def isJoining (fetchType : Nat) : Bool :=
  fetchType = FetchType.relativeJoining ∨ fetchType = FetchType.absoluteJoining

structure Fetch where
  fetchType : Nat
  requestId : Nat
  subscriberPriority : Option Nat := some 128
  groupOrder : Option Nat := some 2
  trackNamespace : Option (List Bytes) := none
  trackName : Option Bytes := none
  range : FetchRange := {}
  joiningRequestId : Option Nat := none
  joiningStart : Option Nat := none
  parameters : Params
  locationFilter : Option LocationFilter := none

namespace Fetch

section

variable (prof : DraftProfile)

def pushName (self : Fetch) : Except MoqtError Bytes :=
  match self.trackNamespace, self.trackName with
  | some parts, some name => pushFullTrackName prof parts name
  | _, _ => .error .typeError

/-- Priority and order as parameters. -/
def sentParams (self : Fetch) : Params :=
  (self.parameters.setInt ParamType.subscriberPriority self.subscriberPriority).setInt
    ParamType.groupOrder (sentGroupOrder self.groupOrder)

/-- The form of drafts 20 and 22. -/
def filteredBody (self : Fetch) : Except MoqtError Bytes := do
  let requestId ← pushVint prof.vint self.requestId
  let draft := prof.draft.number
  if self.fetchType ≠ FetchType.standalone then
    .error (.valueError (s!"Joining FETCH does not exist at d{draft}: SUBSCRIBE with " ++
      "FILL_PARAMETERS, or FETCH a range"))
  else do
    let name ← self.pushName prof
    let filter ← (match self.locationFilter with
      | some filter => .ok filter
      | none => LocationFilter.fromFetchRange self.range)
    let params ← serializeParams prof
      (Params.setPlain self.sentParams ParamType.locationFilter (.locationFilter filter))
    return requestId ++ name ++ params

/-- What a FETCH of each type asks for. -/
def pushTarget (self : Fetch) : Except MoqtError Bytes :=
  let type := self.fetchType
  if self.fetchType = FetchType.standalone then do
    let name ← self.pushName prof
    let startGroup ← pushRequiredVint prof self.range.startGroup
    let startObject ← pushRequiredVint prof self.range.startObject
    let endGroup ← pushRequiredVint prof self.range.endGroup
    let endObject ← pushRequiredVint prof self.range.endObject
    return name ++ startGroup ++ startObject ++ endGroup ++ endObject
  else if isJoining self.fetchType then do
    let joining ← pushRequiredVint prof self.joiningRequestId
    let start ← pushRequiredVint prof self.joiningStart
    return joining ++ start
  else .error (.valueError s!"Invalid fetch_type: {type} (must be 0x1, 0x2, or 0x3)")

/-- The form of drafts 14 to 18. -/
def typedBody (self : Fetch) : Except MoqtError Bytes := do
  let requestId ← pushVint prof.vint self.requestId
  let fields ← (if prof.draft16 then .ok [] else do
    let priority ← pushUint8 ((self.subscriberPriority.getD 128 : Nat) : Int)
    let groupOrder ← pushUint8 ((self.groupOrder.getD 1 : Nat) : Int)
    pure (priority ++ groupOrder))
  let fetchType ← pushVint prof.vint self.fetchType
  let target ← self.pushTarget prof
  let params ← serializeParams prof (if prof.draft16 then self.sentParams else self.parameters)
  return requestId ++ fields ++ fetchType ++ target ++ params

def body (self : Fetch) : Except MoqtError Bytes :=
  if prof.fetchLocationFilter then self.filteredBody prof else self.typedBody prof

/-- The parameters less those that are fields of the message. -/
def withoutFields (params : Params) : Params :=
  (params.erase ParamType.subscriberPriority).erase ParamType.groupOrder

def pullFiltered (bufEnd : Nat) : Reader MoqtError Fetch := do
  let requestId ← pullVint prof.vint
  let name ← pullFullTrackName prof
  let params ← deserializeParams prof bufEnd (some (.message .fetch))
  let filter := match params.plain? ParamType.locationFilter with
    | some (.locationFilter filter) => some filter
    | _ => none
  return { fetchType := FetchType.standalone, requestId
           trackNamespace := some name.1, trackName := some name.2
           subscriberPriority := some ((params.int? ParamType.subscriberPriority).getD 128)
           groupOrder := some ((params.int? ParamType.groupOrder).getD 1)
           range := ((filter.getD .none).fetchRange).getD {}
           parameters := withoutFields (params.erase ParamType.locationFilter)
           locationFilter := filter }

/-- What follows the type of a FETCH. -/
structure Target where
  trackNamespace : Option (List Bytes) := none
  trackName : Option Bytes := none
  range : FetchRange := {}
  joiningRequestId : Option Nat := none
  joiningStart : Option Nat := none

def pullTarget (fetchType : Nat) : Reader MoqtError Target :=
  if fetchType = FetchType.standalone then do
    let name ← pullFullTrackName prof
    let startGroup ← pullVint prof.vint
    let startObject ← pullVint prof.vint
    let endGroup ← pullVint prof.vint
    let endObject ← pullVint prof.vint
    return { trackNamespace := some name.1, trackName := some name.2
             range := ⟨some startGroup, some startObject, some endGroup, some endObject⟩ }
  else if isJoining fetchType then do
    let joining ← pullVint prof.vint
    let start ← pullVint prof.vint
    return { joiningRequestId := some joining, joiningStart := some start }
  else Reader.fail (.violation s!"FETCH type {fetchType} is not 0x1, 0x2 or 0x3")

/-- Priority and order of draft 14. -/
def pullOrder : Reader MoqtError (Nat × Nat) :=
  if prof.draft16 then return (128, 2)
  else do
    let priority ← pullUint8
    let groupOrder ← pullUint8
    return (priority, groupOrder)

def pullTyped (bufEnd : Nat) : Reader MoqtError Fetch := do
  let requestId ← pullVint prof.vint
  let order ← pullOrder prof
  let fetchType ← pullVint prof.vint
  let target ← pullTarget prof fetchType
  let params ← deserializeParams prof bufEnd (some (.message .fetch))
  let fetch : Fetch :=
    { fetchType, requestId, subscriberPriority := some order.1, groupOrder := some order.2
      trackNamespace := target.trackNamespace, trackName := target.trackName
      range := target.range, joiningRequestId := target.joiningRequestId
      joiningStart := target.joiningStart, parameters := params }
  if prof.draft16 then
    return { fetch with
      subscriberPriority := some ((params.int? ParamType.subscriberPriority).getD 128)
      groupOrder := some ((params.int? ParamType.groupOrder).getD 1)
      parameters := withoutFields params }
  else return fetch

def deserialize (bufEnd : Nat) : Reader MoqtError Fetch :=
  if prof.fetchLocationFilter then pullFiltered prof bufEnd else pullTyped prof bufEnd

end

end Fetch

/-! ## FETCH_OK -/

structure FetchOk where
  requestId : Option Nat
  groupOrder : Option Nat := some 2
  endOfTrack : Nat := 0
  largestGroupId : Nat := 0
  /-- The last object plus one in every draft. -/
  largestObjectId : Nat := 0
  parameters : Params
  trackExtensions : Option KeyValuePairs := none

namespace FetchOk

section

variable (prof : DraftProfile)

/-- The end object as the draft writes it. -/
def sentEndObject (self : FetchOk) : Except MoqtError Nat :=
  let draft := prof.draft.number
  if prof.fetchLocationFilter then
    match self.largestObjectId with
    | 0 => .error (.valueError (s!"FETCH_OK End Location is inclusive at d{draft}: a " ++
        "whole-group End needs the last Object ID"))
    | endObject + 1 =>
        if self.parameters.entries ≠ [] then
          .error (.valueError s!"FETCH_OK carries no parameters at d{draft}")
        else .ok endObject
  else .ok self.largestObjectId

/-- From draft 18 on GROUP_ORDER has no place here. -/
def sentParams (self : FetchOk) : Params :=
  if prof.draft18 then self.parameters
  else self.parameters.setInt ParamType.groupOrder (sentGroupOrder self.groupOrder)

def body (self : FetchOk) : Except MoqtError Bytes := do
  let requestId ← pushReplyId prof self.requestId
  if prof.draft16 then do
    let endOfTrack ← pushUint8 self.endOfTrack
    let group ← pushVint prof.vint self.largestGroupId
    let endObject ← self.sentEndObject prof
    let object ← pushVint prof.vint endObject
    let params ← serializeParams prof (self.sentParams prof)
    let exts ← pushTrackExtensions prof self.trackExtensions none
    return requestId ++ endOfTrack ++ group ++ object ++ params ++ exts
  else do
    let groupOrder ← pushRequired self.groupOrder
    let endOfTrack ← pushUint8 self.endOfTrack
    let group ← pushVint prof.vint self.largestGroupId
    let object ← pushVint prof.vint self.largestObjectId
    let params ← serializeParams prof self.parameters
    return requestId ++ groupOrder ++ endOfTrack ++ group ++ object ++ params

def deserialize (bufEnd : Nat) : Reader MoqtError FetchOk := do
  let requestId ← pullReplyId prof
  if prof.draft16 then do
    let endOfTrack ← pullUint8
    let group ← pullVint prof.vint
    let object ← pullVint prof.vint
    let params ← deserializeParams prof bufEnd (some (.message .fetchOk))
    let exts ← pullTrackExtensions prof bufEnd
    return { requestId, groupOrder := params.int? ParamType.groupOrder, endOfTrack
             largestGroupId := group
             largestObjectId := if prof.fetchLocationFilter then object + 1 else object
             parameters := params.erase ParamType.groupOrder, trackExtensions := exts }
  else do
    let groupOrder ← pullUint8
    let endOfTrack ← pullUint8
    let group ← pullVint prof.vint
    let object ← pullVint prof.vint
    let params ← deserializeParams prof bufEnd (some (.message .fetchOk))
    return { requestId, groupOrder := some groupOrder, endOfTrack, largestGroupId := group
             largestObjectId := object, parameters := params }

end

end FetchOk

/-! ## FETCH_ERROR and FETCH_CANCEL -/

abbrev FetchError : Type := ErrorMessage
abbrev FetchCancel : Type := RequestIdMessage

namespace FetchError

/-- Its buffer has the RFC 9000 codec in every draft. -/
def body (self : FetchError) : Except MoqtError Bytes := do
  let requestId ← pushVint Buffer.rfc9000 self.requestId
  let errorCode ← pushVint Buffer.rfc9000 self.errorCode
  let reason := encodeUtf8 self.reason
  let len ← pushVint Buffer.rfc9000 reason.length
  return requestId ++ errorCode ++ len ++ reason

end FetchError

end AioMoqt.Messages
