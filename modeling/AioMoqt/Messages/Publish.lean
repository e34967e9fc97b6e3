import AioMoqt.Messages.Fetch

/-!
# PUBLISH

`messages/publish.py`, and PUBLISH_STATE_NOTIFY of `messages/d20`.
-/

namespace AioMoqt.Messages

open AioMoqt.Lib AioMoqt.Lib.BigEndian

structure Publish where
  requestId : Nat := 0
  trackNamespace : List Bytes
  trackName : Bytes
  trackAlias : Nat := 0
  groupOrder : Option Nat := none
  contentExists : Option Nat := some 0
  largestGroupId : Option Nat := none
  largestObjectId : Option Nat := none
  forward : Option Nat := none
  parameters : Params
  trackExtensions : Option KeyValuePairs := none

namespace Publish

section

variable (prof : DraftProfile)

/-- The fields of draft 14. -/
def pushFields (self : Publish) : Except MoqtError Bytes := do
  let groupOrder ← pushRequired self.groupOrder
  let contentExists ← pushRequired self.contentExists
  let largest ← pushContent prof (self.contentExists.getD 0) self.largestGroupId
    self.largestObjectId
  let forward ← pushRequired self.forward
  let params ← serializeParams prof self.parameters
  return groupOrder ++ contentExists ++ largest ++ forward ++ params

/-- Parameters and Track Extensions. -/
def pushTail (self : Publish) : Except MoqtError Bytes := do
  let params ← (self.parameters.setInt ParamType.forward self.forward).setLargest prof
    self.largestGroupId self.largestObjectId
  let params ← serializeParams prof params
  let exts ← pushTrackExtensions prof self.trackExtensions self.groupOrder
  return params ++ exts

def body (self : Publish) : Except MoqtError Bytes := do
  let requestId ← pushVint prof.vint self.requestId
  let name ← pushFullTrackName prof self.trackNamespace self.trackName
  let trackAlias ← pushVint prof.vint self.trackAlias
  let tail ← (if prof.draft16 then self.pushTail prof else self.pushFields prof)
  return requestId ++ name ++ trackAlias ++ tail

def deserialize (bufEnd : Nat) : Reader MoqtError Publish := do
  let requestId ← pullVint prof.vint
  let name ← pullFullTrackName prof
  let trackAlias ← pullVint prof.vint
  if prof.draft16 then do
    let params ← deserializeParams prof bufEnd (some (.message .publish))
    let largest ← Reader.ofExcept params.largest?
    let exts ← pullTrackExtensions prof bufEnd
    let groupOrder ← Reader.ofExcept (extensionsOrder exts)
    return { requestId, trackNamespace := name.1, trackName := name.2, trackAlias
             groupOrder := some groupOrder
             contentExists := some (if largest.isSome then 1 else 0)
             largestGroupId := largest.map Prod.fst, largestObjectId := largest.map Prod.snd
             forward := params.int? ParamType.forward
             parameters := (params.erase ParamType.forward).erase ParamType.largestObject
             trackExtensions := withoutOrder exts }
  else do
    let groupOrder ← pullUint8
    let contentExists ← pullUint8
    let largest ← pullContent prof contentExists
    let forward ← pullUint8
    let params ← deserializeParams prof bufEnd (some (.message .publish))
    return { requestId, trackNamespace := name.1, trackName := name.2, trackAlias
             groupOrder := some groupOrder, contentExists := some contentExists
             largestGroupId := largest.1, largestObjectId := largest.2
             forward := some forward, parameters := params }

end

end Publish

/-! ## PUBLISH_OK -/

structure PublishOk where
  requestId : Option Nat := some 0
  forward : Option Nat := none
  priority : Option Nat := none
  groupOrder : Option Nat := none
  filter : SubscriptionFilter := {}
  parameters : Params
  expires : Option Nat := none
  locationFilter : Option LocationFilter := none

namespace PublishOk

section

variable (prof : DraftProfile)

/-- The fields that a REQUEST_UPDATE carries from draft 20 on. -/
def moved (self : PublishOk) : List String :=
  [("forward", self.forward.isSome), ("priority", self.priority.isSome),
    ("group_order", self.groupOrder.isSome), ("filter_type", self.filter.filterType.isSome),
    ("location_filter", self.locationFilter.isSome)].filterMap
    fun (name, set) => if set then some name else none

def expiresBody (self : PublishOk) : Except MoqtError Bytes :=
  let draft := prof.draft.number
  let names := ", ".intercalate self.moved
  if self.moved ≠ [] then
    .error (.valueError (s!"PUBLISH_OK carries only EXPIRES at d{draft}; send {names} in a " ++
      "REQUEST_UPDATE (subscription_params())"))
  else serializeParams prof (self.parameters.setInt ParamType.expires self.expires)

/-- The parameters sent in drafts 16 and 18. -/
def sentParams (self : PublishOk) : Except MoqtError Params := do
  let params := ((self.parameters.setInt ParamType.forward self.forward).setInt
    ParamType.subscriberPriority self.priority).setInt ParamType.groupOrder
    (sentGroupOrder self.groupOrder)
  match self.filter.filterType with
  | some filterType => do
      let raw ← self.filter.encode prof filterType
      return params.setPlain ParamType.subscriptionFilter (.bytes raw)
  | none => return params

/-- The fields of draft 14. -/
def pushFields (self : PublishOk) : Except MoqtError Bytes := do
  let forward ← pushRequired self.forward
  let priority ← pushRequired self.priority
  let groupOrder ← pushRequired self.groupOrder
  let filter ← pushFilterFields prof self.filter
  let params ← serializeParams prof self.parameters
  return forward ++ priority ++ groupOrder ++ filter ++ params

def pushTail (self : PublishOk) : Except MoqtError Bytes :=
  if prof.publishOkExpiresOnly then self.expiresBody prof
  else if prof.draft16 then do
    let params ← self.sentParams prof
    serializeParams prof params
  else self.pushFields prof

def body (self : PublishOk) : Except MoqtError Bytes := do
  let requestId ← pushReplyId prof self.requestId
  let tail ← self.pushTail prof
  return requestId ++ tail

def pullExpires (bufEnd : Nat) (requestId : Option Nat) : Reader MoqtError PublishOk := do
  let params ← deserializeParams prof bufEnd (some (.message .publishOk))
  let pos ← Reader.tell
  if pos < bufEnd then Reader.fail (.violation "Track Properties in PUBLISH_OK")
  else return { requestId, parameters := params.erase ParamType.expires
                expires := params.int? ParamType.expires }

def deserialize (bufEnd : Nat) : Reader MoqtError PublishOk := do
  let requestId ← pullReplyId prof
  if prof.publishOkExpiresOnly then pullExpires prof bufEnd requestId
  else if prof.draft16 then do
    let params ← deserializeParams prof bufEnd (some (.message .publishOk))
    let filter ← Reader.ofExcept (params.bytesFilter prof)
    return { requestId, forward := params.int? ParamType.forward
             priority := params.int? ParamType.subscriberPriority
             groupOrder := params.int? ParamType.groupOrder
             filter, parameters := params.withoutDelivery }
  else do
    let forward ← pullUint8
    let priority ← pullUint8
    let groupOrder ← pullUint8
    -- unlike SUBSCRIBE, the type of the filter is not checked
    let filter ← SubscriptionFilter.pullFields prof false
    let params ← deserializeParams prof bufEnd (some (.message .publishOk))
    return { requestId, forward := some forward, priority := some priority
             groupOrder := some groupOrder, filter, parameters := params }

end

end PublishOk

abbrev PublishError : Type := ErrorMessage

/-! ## PUBLISH_STATE_NOTIFY -/

structure PublishStateNotify where
  forward : Option Nat := none
  largestGroupId : Option Nat := none
  largestObjectId : Option Nat := none
  locationFilter : Option LocationFilter := none
  parameters : Params
  requestId : Option Nat := none

namespace PublishStateNotify

section

variable (prof : DraftProfile)

def sentParams (self : PublishStateNotify) : Params :=
  let params := match self.largestGroupId with
    | some group => self.parameters.setPlain ParamType.largestObject
        (.location group (self.largestObjectId.getD 0))
    | none => self.parameters
  let params := Params.setInt params ParamType.forward self.forward
  match self.locationFilter with
  | some filter => params.setPlain ParamType.locationFilter (.locationFilter filter)
  | none => params

def body (self : PublishStateNotify) : Except MoqtError Bytes :=
  serializeParams prof self.sentParams

def deserialize (bufEnd : Nat) : Reader MoqtError PublishStateNotify := do
  let params ← deserializeParams prof bufEnd (some (.message .publishStateNotify))
  let largest := match params.plain? ParamType.largestObject with
    | some (.location group object) => some (group, object)
    | _ => none
  let filter := match params.plain? ParamType.locationFilter with
    | some (.locationFilter filter) => some filter
    | _ => none
  return { forward := params.int? ParamType.forward, largestGroupId := largest.map Prod.fst
           largestObjectId := largest.map Prod.snd, locationFilter := filter
           parameters := ((params.erase ParamType.largestObject).erase ParamType.forward).erase
             ParamType.locationFilter }

end

end PublishStateNotify

end AioMoqt.Messages
