import AioMoqt.Messages.SessionSetup

/-!
# Subscriptions and track status

`messages/subscribe.py`.  Draft 14 carries priority, order, forwarding and filter as
fields; from draft 16 on they are parameters, and from draft 20 on the filter is a
Location Filter.
-/

namespace AioMoqt.Messages

open AioMoqt.Lib AioMoqt.Lib.BigEndian

/-! ## Parameters that stand for fields -/

namespace Params

/-- `params[k] = v` for an integer, where one is given. -/
def setInt (params : Params) (ptype : Nat) : Option Nat → Params
  | none => params
  | some v => params.insert ptype (.one (.plain (.int v)))

def setPlain (params : Params) (ptype : Nat) (value : PlainValue) : Params :=
  params.insert ptype (.one (.plain value))

/-- The one plain value of a type. -/
def plain? (params : Params) (ptype : Nat) : Option PlainValue :=
  match params.get? ptype with
  | some (.one (.plain v)) => some v
  | _ => none

/-- The one integer of a type. -/
def int? (params : Params) (ptype : Nat) : Option Nat := (params.plain? ptype).bind PlainValue.scalar

end Params

/-- A GROUP_ORDER parameter has no value for the publisher's order. -/
def sentGroupOrder (groupOrder : Option Nat) : Option Nat := groupOrder.filter (· ≠ 0)

/-- `_check_range`. -/
def checkRange (name : String) (value lo hi : Nat) : Except MoqtError Unit :=
  if lo ≤ value ∧ value ≤ hi then .ok ()
  else .error (.violation s!"{name} {value} outside {lo}..{hi}")

/-! ## Subscription filters -/

/-- The filter of drafts 14 to 18. -/
structure SubscriptionFilter where
  filterType : Option Nat := none
  startGroup : Option Nat := none
  startObject : Option Nat := none
  endGroup : Option Nat := none
deriving Repr, DecidableEq

namespace SubscriptionFilter

section

variable (prof : DraftProfile)

/-- Start and end as the type has them; `endDelta` is the end group on the wire. -/
def pushLocations (self : SubscriptionFilter) (filterType : Nat) (endDelta : Int) :
    Except MoqtError Bytes := do
  let type ← pushVint prof.vint filterType
  let start ← (if filterType = 3 ∨ filterType = 4 then do
      let group ← pushVint prof.vint ((self.startGroup.getD 0 : Nat) : Int)
      let object ← pushVint prof.vint ((self.startObject.getD 0 : Nat) : Int)
      pure (group ++ object)
    else .ok [])
  let stop ← (if filterType = 4 then pushVint prof.vint endDelta else .ok [])
  return type ++ start ++ stop

/-- The value of a SUBSCRIPTION_FILTER parameter; draft 18 carries the end group as a
delta from the start. -/
def encode (self : SubscriptionFilter) (filterType : Nat) : Except MoqtError Bytes :=
  let stop := self.endGroup.getD 0
  let start := self.startGroup.getD 0
  if prof.vi64 then
    if filterType = 4 ∧ stop < start then
      .error (.valueError s!"end_group {stop} < start_group {start}")
    else self.pushLocations prof filterType ((stop : Int) - start)
  else self.pushLocations prof filterType stop

/-- The start group and object of the types that have them. -/
def pullStart (filterType : Nat) : Reader MoqtError (Option Nat × Option Nat) :=
  if filterType = 3 ∨ filterType = 4 then do
    let group ← pullVint prof.vint
    let object ← pullVint prof.vint
    return (some group, some object)
  else return (none, none)

def pullEnd (filterType : Nat) : Reader MoqtError (Option Nat) :=
  if filterType = 4 then do
    let group ← pullVint prof.vint
    return some group
  else return none

/-- Any type but 1 to 4 closes the session. -/
def checkType (filterType : Nat) : Except MoqtError Unit :=
  let type := hex filterType
  if filterType = 1 ∨ filterType = 2 ∨ filterType = 3 ∨ filterType = 4 then .ok ()
  else .error (.violation s!"unknown subscription filter type 0x{type}")

/-- A filter among the fields of a draft 14 message. -/
def pullFields (checked : Bool) : Reader MoqtError SubscriptionFilter := do
  let filterType ← pullVint prof.vint
  Reader.ofExcept (if checked then checkType filterType else .ok ())
  let start ← pullStart prof filterType
  let stop ← pullEnd prof filterType
  return ⟨some filterType, start.1, start.2, stop⟩

/-- The end group from its delta. -/
def resolveEnd (start : Option Nat) (stop : Option Nat) : Except MoqtError (Option Nat) :=
  match stop with
  | none => .ok none
  | some delta =>
      if prof.vi64 then
        let endGroup := delta + start.getD 0
        if u64Max < endGroup then .error (.violation s!"end group {endGroup} exceeds 2^64-1")
        else .ok (some endGroup)
      else .ok (some delta)

/-- `_decode_filter`. -/
def decode (raw : Bytes) : Except MoqtError SubscriptionFilter := do
  let filter ← Reader.within (pullFields prof true) raw
  let endGroup ← resolveEnd prof filter.startGroup filter.endGroup
  return { filter with endGroup }

end

end SubscriptionFilter

namespace LocationFilter

/-- `__post_init__`: the bounds of the fields. -/
def validate (self : LocationFilter) : Except MoqtError LocationFilter :=
  let bounded (vs : List Nat) (start stop : Nat) : Except MoqtError LocationFilter :=
    match vs.find? (u64Max < ·) with
    | some v => .error (.valueError s!"field {v} outside 0..2^64-1")
    | Option.none =>
        if stop < start then .error (.valueError s!"end_group {stop} < start_group {start}")
        else .ok self
  match self with
  | none | nextObject => .ok self
  | relativeStart groups => bounded [groups] 0 0
  | absoluteStart group object => bounded [group, object] 0 0
  | absoluteGroupEnd group object stop => bounded [group, object, stop] group stop
  | absoluteRange group object stop endObject =>
      bounded [group, object, stop, endObject] group stop

/-- `LocationFilter.absolute`. -/
def absolute (group object : Nat) (endGroup : Option Nat) (endObject : Option Nat) :
    Except MoqtError LocationFilter :=
  match endGroup, endObject with
  | Option.none, Option.none => validate (absoluteStart group object)
  | Option.none, some _ => .error (.valueError "end_object needs end_group")
  | some stop, Option.none => validate (absoluteGroupEnd group object stop)
  | some stop, some endObject => validate (absoluteRange group object stop endObject)

/-- `from_subscription_filter`. -/
def fromSubscriptionFilter (filter : SubscriptionFilter) (filterType : Nat) :
    Except MoqtError LocationFilter :=
  let group := filter.startGroup.getD 0
  let object := filter.startObject.getD 0
  match filterType with
  | 1 => validate (relativeStart 0)
  | 2 => .ok nextObject
  | 3 => absolute group object Option.none Option.none
  | 4 => absolute group object (some (filter.endGroup.getD 0)) Option.none
  | n => .error (.valueError s!"unknown subscription filter type {n}")

/-- `subscription_filter`: the draft 14 form, where one says the same. -/
def subscriptionFilter : LocationFilter → Option SubscriptionFilter
  | none => some {}
  | relativeStart 0 => some { filterType := some 1 }
  | nextObject => some { filterType := some 2 }
  | absoluteStart group object =>
      some { filterType := some 3, startGroup := some group, startObject := some object }
  | absoluteGroupEnd group object stop =>
      some { filterType := some 4, startGroup := some group, startObject := some object
             endGroup := some stop }
  | _ => Option.none

end LocationFilter

/-! ## Short replies -/

/-- A message that is one Request ID. -/
structure RequestIdMessage where
  requestId : Nat

namespace RequestIdMessage

def body (self : RequestIdMessage) (code : PrefixCode) : Except MoqtError Bytes :=
  pushVint code self.requestId

def deserialize (prof : DraftProfile) : Reader MoqtError RequestIdMessage := do
  let requestId ← pullVint prof.vint
  return { requestId }

end RequestIdMessage

abbrev Unsubscribe : Type := RequestIdMessage
abbrev MaxSubscribeId : Type := RequestIdMessage
/-- Its field is `maximum_request_id`. -/
abbrev SubscribesBlocked : Type := RequestIdMessage

/-- A refusal: Request ID, code and reason. -/
structure ErrorMessage where
  requestId : Nat
  errorCode : Nat
  reason : String

namespace ErrorMessage

def body (self : ErrorMessage) (prof : DraftProfile) : Except MoqtError Bytes := do
  let requestId ← pushVint prof.vint self.requestId
  let errorCode ← pushVint prof.vint self.errorCode
  let reason ← pushReason prof self.reason
  return requestId ++ errorCode ++ reason

def deserialize (prof : DraftProfile) : Reader MoqtError ErrorMessage := do
  let requestId ← pullVint prof.vint
  let errorCode ← pullVint prof.vint
  let reason ← pullReason prof
  return { requestId, errorCode, reason }

end ErrorMessage

abbrev SubscribeError : Type := ErrorMessage
abbrev TrackStatusError : Type := ErrorMessage

/-- A reply's Request ID, from draft 18 on the one of its stream. -/
def pullReplyId (prof : DraftProfile) : Reader MoqtError (Option Nat) :=
  if prof.replyHasRequestId then do
    let rid ← pullVint prof.vint
    return some rid
  else return none

def pushReplyId (prof : DraftProfile) (requestId : Option Nat) : Except MoqtError Bytes :=
  if prof.replyHasRequestId then
    match requestId with
    | some rid => pushVint prof.vint rid
    | none => .error .typeError
  else .ok []

/-! ## TRACK_STATUS and SUBSCRIBE -/

structure TrackStatus where
  requestId : Nat := 0
  trackNamespace : List Bytes
  trackName : Bytes
  priority : Option Nat := none
  groupOrder : Option Nat := none
  forward : Option Nat := none
  filter : SubscriptionFilter := {}
  parameters : Params

/-- A byte that must be there. -/
def pushRequired : Option Nat → Except MoqtError Bytes
  | some v => pushUint8 v
  | none => .error .typeError

/-- The filter among the fields of a draft 14 message. -/
def pushFilterFields (prof : DraftProfile) (filter : SubscriptionFilter) : Except MoqtError Bytes :=
  match filter.filterType with
  | some filterType => filter.pushLocations prof filterType ((filter.endGroup.getD 0 : Nat) : Int)
  | none => .error .typeError

namespace TrackStatus

/-- From draft 16 on no delivery parameter is included. -/
def body (self : TrackStatus) (prof : DraftProfile) : Except MoqtError Bytes := do
  let requestId ← pushVint prof.vint self.requestId
  let name ← pushFullTrackName prof self.trackNamespace self.trackName
  let fields ← (if prof.draft16 then .ok [] else do
    let priority ← pushRequired self.priority
    let groupOrder ← pushRequired self.groupOrder
    let forward ← pushRequired self.forward
    let filter ← pushFilterFields prof self.filter
    pure (priority ++ groupOrder ++ forward ++ filter))
  let params ← serializeParams prof self.parameters
  return requestId ++ name ++ fields ++ params

end TrackStatus

/-- The delivery fields of a draft 14 SUBSCRIBE or TRACK_STATUS. -/
structure DeliveryFields where
  priority : Nat
  groupOrder : Nat
  forward : Nat
  filter : SubscriptionFilter

def pullDeliveryFields (prof : DraftProfile) : Reader MoqtError DeliveryFields := do
  let priority ← pullUint8
  let groupOrder ← pullUint8
  Reader.ofExcept (checkRange "group order" groupOrder 0 2)
  let forward ← pullUint8
  Reader.ofExcept (checkRange "forward" forward 0 1)
  let filter ← SubscriptionFilter.pullFields prof true
  return { priority, groupOrder, forward, filter }

/-- The parameters less those that are fields of the message. -/
def Params.withoutDelivery (params : Params) : Params :=
  (((params.erase ParamType.subscriberPriority).erase ParamType.groupOrder).erase
    ParamType.forward).erase ParamType.subscriptionFilter

/-- A SUBSCRIPTION_FILTER parameter in its bytes form. -/
def Params.bytesFilter (prof : DraftProfile) (params : Params) :
    Except MoqtError SubscriptionFilter :=
  match params.plain? ParamType.subscriptionFilter with
  | some (.bytes raw) => SubscriptionFilter.decode prof raw
  | _ => .ok {}

namespace TrackStatus

def deserialize (prof : DraftProfile) (bufEnd : Nat) : Reader MoqtError TrackStatus := do
  let requestId ← pullVint prof.vint
  let name ← pullFullTrackName prof
  if prof.draft16 then do
    let params ← deserializeParams prof bufEnd (some (.message .trackStatus))
    let filter ← Reader.ofExcept (params.bytesFilter prof)
    return { requestId, trackNamespace := name.1, trackName := name.2
             priority := params.int? ParamType.subscriberPriority
             groupOrder := params.int? ParamType.groupOrder
             forward := params.int? ParamType.forward
             filter, parameters := params.withoutDelivery }
  else do
    let fields ← pullDeliveryFields prof
    let params ← deserializeParams prof bufEnd (some (.message .trackStatus))
    return { requestId, trackNamespace := name.1, trackName := name.2
             priority := some fields.priority, groupOrder := some fields.groupOrder
             forward := some fields.forward, filter := fields.filter, parameters := params }

end TrackStatus

structure Subscribe where
  requestId : Nat := 0
  trackNamespace : List Bytes
  trackName : Bytes
  priority : Option Nat := none
  groupOrder : Option Nat := none
  forward : Option Nat := none
  filter : SubscriptionFilter := {}
  parameters : Params
  /-- From draft 20 on the filter; `filter` then holds its older form. -/
  locationFilter : Option LocationFilter := none

namespace Subscribe

/-- The LOCATION_FILTER sent: the one given, else the older form of it. -/
def sentLocationFilter (self : Subscribe) : Except MoqtError (Option LocationFilter) :=
  match self.locationFilter, self.filter.filterType with
  | some filter, _ => .ok (some filter)
  | none, some filterType => do
      let filter ← LocationFilter.fromSubscriptionFilter self.filter filterType
      return some filter
  | none, none => .ok none

/-- The parameters sent from draft 16 on. -/
def sentParams (self : Subscribe) (prof : DraftProfile) : Except MoqtError Params := do
  let params := ((self.parameters.setInt ParamType.subscriberPriority self.priority).setInt
    ParamType.groupOrder (sentGroupOrder self.groupOrder)).setInt ParamType.forward self.forward
  if prof.draft20 then do
    let filter ← self.sentLocationFilter
    match filter with
    | some filter => return params.setPlain ParamType.locationFilter (.locationFilter filter)
    | none => return params
  else
    match self.filter.filterType with
    | some filterType => do
        let raw ← self.filter.encode prof filterType
        return params.setPlain ParamType.subscriptionFilter (.bytes raw)
    | none => return params

/-- Draft 14 writes defaults for what the caller left unset. -/
def body (self : Subscribe) (prof : DraftProfile) : Except MoqtError Bytes := do
  let requestId ← pushVint prof.vint self.requestId
  let name ← pushFullTrackName prof self.trackNamespace self.trackName
  let tail ← (if prof.draft16 then do
      let params ← self.sentParams prof
      serializeParams prof params
    else do
      let priority ← pushUint8 ((self.priority.getD 128 : Nat) : Int)
      let groupOrder ← pushUint8 ((self.groupOrder.getD 1 : Nat) : Int)
      let forward ← pushUint8 ((self.forward.getD 1 : Nat) : Int)
      let filter ← pushFilterFields prof self.filter
      let params ← serializeParams prof self.parameters
      pure (priority ++ groupOrder ++ forward ++ filter ++ params))
  return requestId ++ name ++ tail

/-- The filter a SUBSCRIPTION_FILTER parameter gives: a Location Filter with its older
form, or the older form alone. -/
def receivedFilter (prof : DraftProfile) (params : Params) :
    Except MoqtError (Option LocationFilter × SubscriptionFilter) :=
  match params.plain? ParamType.subscriptionFilter with
  | some (.locationFilter filter) => .ok (some filter, filter.subscriptionFilter.getD {})
  | some (.bytes raw) => do
      let filter ← SubscriptionFilter.decode prof raw
      return (none, filter)
  | _ => .ok (none, {})

def deserialize (prof : DraftProfile) (bufEnd : Nat) : Reader MoqtError Subscribe := do
  let requestId ← pullVint prof.vint
  let name ← pullFullTrackName prof
  if prof.draft16 then do
    let params ← deserializeParams prof bufEnd (some (.message .subscribe))
    let filter ← Reader.ofExcept (receivedFilter prof params)
    return { requestId, trackNamespace := name.1, trackName := name.2
             priority := params.int? ParamType.subscriberPriority
             groupOrder := params.int? ParamType.groupOrder
             forward := params.int? ParamType.forward
             filter := filter.2, parameters := params.withoutDelivery
             locationFilter := filter.1 }
  else do
    let fields ← pullDeliveryFields prof
    let params ← deserializeParams prof bufEnd (some (.message .subscribe))
    return { requestId, trackNamespace := name.1, trackName := name.2
             priority := some fields.priority, groupOrder := some fields.groupOrder
             forward := some fields.forward, filter := fields.filter, parameters := params }

end Subscribe

/-! ## Track Properties -/

/-- `TRACK_PROPERTY_RANGES`. -/
def trackPropertyRanges : List (Nat × String × Nat × Nat) :=
  [(0x22, "default publisher group order", 1, 2), (0x30, "dynamic groups", 0, 1)]

def immutableProperties : Nat := 0x0B

/-- `_check_property_ranges`. -/
def checkPropertyRanges (props : Dict Nat KvpValue) :
    List (Nat × String × Nat × Nat) → Except MoqtError Unit
  | [] => .ok ()
  | (ptype, name, lo, hi) :: rest => do
      match props.get? ptype with
      | some (.int v) => checkRange name v lo hi
      | some (.bytes _) => .error .typeError
      | none => .ok ()
      checkPropertyRanges props rest

/-- `_check_delivery_timeout`. -/
def checkDeliveryTimeout (prof : DraftProfile) (props : Dict Nat KvpValue) :
    Except MoqtError Unit :=
  if prof.zeroDeliveryTimeoutCloses ∧ props.get? ParamType.deliveryTimeout = some (.int 0) then
    .error (.violation "DELIVERY_TIMEOUT of 0")
  else .ok ()

def checkProperties (prof : DraftProfile) (props : Dict Nat KvpValue) : Except MoqtError Unit := do
  checkPropertyRanges props trackPropertyRanges
  checkDeliveryTimeout prof props

/-- The pairs inside Immutable Properties, which hold none of their own. -/
def checkImmutable (prof : DraftProfile) (raw : Bytes) : Except MoqtError Unit :=
  match Reader.within (extensionsDecodeTo prof.vint raw.length true false false) raw with
  | .error (.violation reason) => .error (.violation reason)
  | .error _ => .error (.violation "Immutable Properties do not parse")
  | .ok none => .ok ()
  | .ok (some nested) =>
      if immutableProperties ∈ nested.dict.keys then
        .error (.violation "Immutable Properties inside Immutable Properties")
      else checkProperties prof nested.dict

/-- `_check_track_properties`. -/
def checkTrackProperties (prof : DraftProfile) (props : Option KeyValuePairs) :
    Except MoqtError Unit :=
  match props with
  | none => .ok ()
  | some props => do
      checkProperties prof props.dict
      match props.dict.get? immutableProperties with
      | none => .ok ()
      | some (.int _) => .error (.violation "Immutable Properties is not a byte value")
      | some (.bytes raw) => checkImmutable prof raw

/-- DEFAULT_PUBLISHER_GROUP_ORDER. -/
def defaultGroupOrder : Nat := 0x22

/-- Track Extensions with the descending order among them; the ascending one is the
default. -/
def pushTrackExtensions (prof : DraftProfile) (exts : Option KeyValuePairs)
    (groupOrder : Option Nat) : Except MoqtError Bytes :=
  let dict := (exts.map KeyValuePairs.dict).getD .empty
  extensionsEncode prof.vint
    (some { dict := if groupOrder = some 2 then dict.insert defaultGroupOrder (.int 2) else dict })
    false true

/-- Track Extensions up to the end of the message, checked. -/
def pullTrackExtensions (prof : DraftProfile) (bufEnd : Nat) :
    Reader MoqtError (Option KeyValuePairs) := do
  let exts ← extensionsDecodeTo prof.vint bufEnd true true false
  Reader.ofExcept (if prof.trackProperties then checkTrackProperties prof exts else .ok ())
  return exts

/-- The group order among Track Extensions, ascending if there is none. -/
def extensionsOrder (exts : Option KeyValuePairs) : Except MoqtError Nat :=
  match exts.bind fun exts => exts.dict.get? defaultGroupOrder with
  | some (.int v) => do
      checkRange "default publisher group order" v 1 2
      return v
  | _ => .ok 1

def withoutOrder (exts : Option KeyValuePairs) : Option KeyValuePairs :=
  exts.map fun exts => { exts with dict := exts.dict.erase defaultGroupOrder }

/-! ## LARGEST_OBJECT -/

/-- A Location in the form of the draft: inline, or bytes up to draft 16. -/
def largestValue (prof : DraftProfile) (group object : Nat) : Except MoqtError PlainValue :=
  if ParamType.largestObject ∈ prof.locationParams then .ok (.location group object)
  else do
    let head ← pushVint Buffer.rfc9000 group
    let tail ← pushVint Buffer.rfc9000 object
    return .bytes (head ++ tail)

def Params.setLargest (prof : DraftProfile) (params : Params) (group object : Option Nat) :
    Except MoqtError Params :=
  match group with
  | none => .ok params
  | some group => do
      let value ← largestValue prof group (object.getD 0)
      return params.setPlain ParamType.largestObject value

def pullLargest : Reader MoqtError (Nat × Nat) := do
  let group ← pullVint Buffer.rfc9000
  let object ← pullVint Buffer.rfc9000
  return (group, object)

/-- The Location of a LARGEST_OBJECT parameter. -/
def Params.largest? (params : Params) : Except MoqtError (Option (Nat × Nat)) :=
  match params.plain? ParamType.largestObject with
  | some (.location group object) => .ok (some (group, object))
  | some (.bytes raw) => do
      let loc ← Reader.within pullLargest raw
      return some loc
  | _ => .ok none

/-- A Location field of draft 14, present if content exists. -/
def pullContent (prof : DraftProfile) (contentExists : Nat) :
    Reader MoqtError (Option Nat × Option Nat) :=
  if contentExists = 1 then do
    let group ← pullVint prof.vint
    let object ← pullVint prof.vint
    return (some group, some object)
  else return (none, none)

def pushContent (prof : DraftProfile) (contentExists : Nat) (group object : Option Nat) :
    Except MoqtError Bytes :=
  if contentExists = 1 then
    match group, object with
    | some group, some object => do
        let head ← pushVint prof.vint group
        let tail ← pushVint prof.vint object
        return head ++ tail
    | _, _ => .error .typeError
  else .ok []

/-! ## SUBSCRIBE_OK and TRACK_STATUS_OK -/

structure SubscribeOk where
  requestId : Option Nat := some 0
  trackAlias : Nat := 0
  expires : Option Nat := none
  groupOrder : Option Nat := none
  contentExists : Option Nat := none
  largestGroupId : Option Nat := none
  largestObjectId : Option Nat := none
  parameters : Params
  trackExtensions : Option KeyValuePairs := none

/-- An integer that must be there. -/
def pushRequiredVint (prof : DraftProfile) : Option Nat → Except MoqtError Bytes
  | some v => pushVint prof.vint v
  | none => .error .typeError

namespace SubscribeOk

/-- The fields of draft 14. -/
def pushFields (self : SubscribeOk) (prof : DraftProfile) : Except MoqtError Bytes := do
  let expires ← pushRequiredVint prof self.expires
  let groupOrder ← pushRequired self.groupOrder
  let contentExists ← pushRequired self.contentExists
  let largest ← pushContent prof (self.contentExists.getD 0) self.largestGroupId
    self.largestObjectId
  let params ← serializeParams prof self.parameters
  return expires ++ groupOrder ++ contentExists ++ largest ++ params

/-- Parameters and Track Extensions. -/
def pushTail (self : SubscribeOk) (prof : DraftProfile) : Except MoqtError Bytes := do
  let params ← (self.parameters.setInt ParamType.expires self.expires).setLargest prof
    self.largestGroupId self.largestObjectId
  let params ← serializeParams prof params
  let exts ← pushTrackExtensions prof self.trackExtensions self.groupOrder
  return params ++ exts

def body (self : SubscribeOk) (prof : DraftProfile) : Except MoqtError Bytes := do
  let requestId ← pushReplyId prof self.requestId
  let trackAlias ← pushVint prof.vint self.trackAlias
  let tail ← (if prof.draft16 then self.pushTail prof else self.pushFields prof)
  return requestId ++ trackAlias ++ tail

/-- The fields of a draft 14 SUBSCRIBE_OK or TRACK_STATUS_OK behind the alias. -/
def pullFields (prof : DraftProfile) (bufEnd : Nat) (cls : MessageClass) (requestId : Option Nat)
    (trackAlias : Nat) : Reader MoqtError SubscribeOk := do
  let expires ← pullVint prof.vint
  let groupOrder ← pullUint8
  Reader.ofExcept (checkRange "group order" groupOrder 1 2)
  let contentExists ← pullUint8
  let largest ← pullContent prof contentExists
  let params ← deserializeParams prof bufEnd (some (.message cls))
  return { requestId, trackAlias, expires := some expires, groupOrder := some groupOrder
           contentExists := some contentExists, largestGroupId := largest.1
           largestObjectId := largest.2, parameters := params }

def deserialize (prof : DraftProfile) (bufEnd : Nat) : Reader MoqtError SubscribeOk := do
  let requestId ← pullReplyId prof
  let trackAlias ← pullVint prof.vint
  if prof.draft16 then do
    let params ← deserializeParams prof bufEnd (some (.message .subscribeOk))
    let largest ← Reader.ofExcept params.largest?
    let exts ← pullTrackExtensions prof bufEnd
    let groupOrder ← Reader.ofExcept (extensionsOrder exts)
    return { requestId, trackAlias, expires := params.int? ParamType.expires
             groupOrder := some groupOrder
             contentExists := some (if largest.isSome then 1 else 0)
             largestGroupId := largest.map Prod.fst, largestObjectId := largest.map Prod.snd
             parameters := (params.erase ParamType.expires).erase ParamType.largestObject
             trackExtensions := withoutOrder exts }
  else pullFields prof bufEnd .subscribeOk requestId trackAlias

end SubscribeOk

/-- Draft 14 only; the fields of SUBSCRIBE_OK. -/
abbrev TrackStatusOk : Type := SubscribeOk

namespace TrackStatusOk

def body (self : TrackStatusOk) (prof : DraftProfile) : Except MoqtError Bytes := do
  let requestId ← pushRequiredVint prof self.requestId
  let trackAlias ← pushVint prof.vint self.trackAlias
  let fields ← SubscribeOk.pushFields self prof
  return requestId ++ trackAlias ++ fields

def deserialize (prof : DraftProfile) (bufEnd : Nat) : Reader MoqtError TrackStatusOk := do
  let requestId ← pullVint prof.vint
  let trackAlias ← pullVint prof.vint
  SubscribeOk.pullFields prof bufEnd .trackStatusOk (some requestId) trackAlias

end TrackStatusOk

/-! ## SUBSCRIBE_UPDATE -/

structure SubscribeUpdate where
  requestId : Nat
  subscriptionRequestId : Nat
  startGroup : Nat
  startObject : Nat
  endGroup : Nat
  priority : Nat
  forward : Nat
  parameters : Params

namespace SubscribeUpdate

def body (self : SubscribeUpdate) (prof : DraftProfile) : Except MoqtError Bytes := do
  let requestId ← pushVint prof.vint self.requestId
  let existing ← pushVint prof.vint self.subscriptionRequestId
  let startGroup ← pushVint prof.vint self.startGroup
  let startObject ← pushVint prof.vint self.startObject
  let endGroup ← pushVint prof.vint self.endGroup
  let priority ← pushUint8 self.priority
  let forward ← pushUint8 self.forward
  let params ← serializeParams prof self.parameters
  return requestId ++ existing ++ startGroup ++ startObject ++ endGroup ++ priority ++ forward ++
    params

def deserialize (prof : DraftProfile) (bufEnd : Nat) : Reader MoqtError SubscribeUpdate := do
  let requestId ← pullVint prof.vint
  let subscriptionRequestId ← pullVint prof.vint
  let startGroup ← pullVint prof.vint
  let startObject ← pullVint prof.vint
  let endGroup ← pullVint prof.vint
  let priority ← pullUint8
  let forward ← pullUint8
  Reader.ofExcept (checkRange "forward" forward 0 1)
  let params ← deserializeParams prof bufEnd (some (.message .subscribeUpdate))
  return { requestId, subscriptionRequestId, startGroup, startObject, endGroup, priority, forward
           parameters := params }

end SubscribeUpdate

/-! ## PUBLISH_DONE -/

structure SubscribeDone where
  requestId : Option Nat
  statusCode : Nat
  streamCount : Nat
  reason : String

namespace SubscribeDone

def subscriptionEnded : Nat := 0x03

/-- `_D18_WIRE_SWAP`: draft 18 exchanged two codes. -/
def wireSwap : Nat → Nat
  | 0x05 => 0x06
  | 0x06 => 0x05
  | code => code

def wireCode (prof : DraftProfile) (code : Nat) : Nat :=
  if prof.draft18 then wireSwap code else code

def body (self : SubscribeDone) (prof : DraftProfile) : Except MoqtError Bytes := do
  let requestId ← pushReplyId prof self.requestId
  let draft := prof.draft.number
  if self.statusCode = subscriptionEnded ∧ ¬ prof.publishDoneSubscriptionEnded then
    .error (.valueError (s!"PUBLISH_DONE SUBSCRIPTION_ENDED does not exist at d{draft}: a " ++
      "subscription does not end at its filter's end"))
  else do
    let statusCode ← pushVint prof.vint (wireCode prof self.statusCode)
    let streamCount ← pushVint prof.vint self.streamCount
    let reason ← pushReason prof self.reason
    return requestId ++ statusCode ++ streamCount ++ reason

def deserialize (prof : DraftProfile) : Reader MoqtError SubscribeDone := do
  let requestId ← pullReplyId prof
  let statusCode ← pullVint prof.vint
  let streamCount ← pullVint prof.vint
  let reason ← pullReason prof
  return { requestId, statusCode := wireCode prof statusCode, streamCount, reason }

end SubscribeDone

end AioMoqt.Messages
