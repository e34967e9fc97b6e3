import AioMoqt.Messages.Publish

/-!
# Namespaces and the unified request messages

`messages/namespace.py` and `messages/request.py`.
-/

namespace AioMoqt.Messages

open AioMoqt.Lib AioMoqt.Lib.BigEndian

/-! ## Requests over a namespace -/

structure PublishNamespace where
  requestId : Nat := 0
  trackNamespace : List Bytes
  parameters : Params

namespace PublishNamespace

def body (self : PublishNamespace) (prof : DraftProfile) : Except MoqtError Bytes := do
  let requestId ← pushVint prof.vint self.requestId
  let parts ← pushTuple prof self.trackNamespace
  let params ← serializeParams prof self.parameters
  return requestId ++ parts ++ params

def deserialize (prof : DraftProfile) (bufEnd : Nat) : Reader MoqtError PublishNamespace := do
  let requestId ← pullVint prof.vint
  let parts ← pullTuple prof none
  let params ← deserializeParams prof bufEnd (some (.message .publishNamespace))
  return { requestId, trackNamespace := parts, parameters := params }

end PublishNamespace

structure SubscribeNamespace where
  requestId : Nat := 0
  namespacePrefix : List Bytes
  /-- Draft 16 only. -/
  subscribeOptions : Nat := 0
  parameters : Params

namespace SubscribeNamespace

def body (self : SubscribeNamespace) (prof : DraftProfile) : Except MoqtError Bytes := do
  let requestId ← pushVint prof.vint self.requestId
  let parts ← pushTuple prof self.namespacePrefix
  let options ← (if prof.draft16 ∧ ¬ prof.vi64 then pushVint prof.vint self.subscribeOptions
    else .ok [])
  let params ← serializeParams prof self.parameters
  return requestId ++ parts ++ options ++ params

def pullSubscribeOptions (prof : DraftProfile) : Reader MoqtError Nat :=
  if prof.draft16 ∧ ¬ prof.vi64 then pullVint prof.vint else return 0

def deserialize (prof : DraftProfile) (bufEnd : Nat) : Reader MoqtError SubscribeNamespace := do
  let requestId ← pullVint prof.vint
  let parts ← pullTuple prof none
  let subscribeOptions ← pullSubscribeOptions prof
  let params ← deserializeParams prof bufEnd (some (.message .subscribeNamespace))
  return { requestId, namespacePrefix := parts, subscribeOptions, parameters := params }

end SubscribeNamespace

structure SubscribeTracks where
  requestId : Nat := 0
  namespacePrefix : List Bytes
  parameters : Params

namespace SubscribeTracks

def body (self : SubscribeTracks) (prof : DraftProfile) : Except MoqtError Bytes := do
  let requestId ← pushVint prof.vint self.requestId
  let parts ← pushTuple prof self.namespacePrefix
  let params ← serializeParams prof self.parameters
  return requestId ++ parts ++ params

def deserialize (prof : DraftProfile) (bufEnd : Nat) : Reader MoqtError SubscribeTracks := do
  let requestId ← pullVint prof.vint
  let parts ← pullTuple prof none
  let params ← deserializeParams prof bufEnd (some (.message .subscribeTracks))
  return { requestId, namespacePrefix := parts, parameters := params }

end SubscribeTracks

/-! ## Replies and withdrawals -/

abbrev PublishNamespaceOk : Type := RequestIdMessage
abbrev PublishNamespaceError : Type := ErrorMessage
abbrev SubscribeNamespaceOk : Type := RequestIdMessage
abbrev SubscribeNamespaceError : Type := ErrorMessage

/-- The request a withdrawal is about: named by its namespace in draft 14, by its id
from draft 16 on. -/
structure WithdrawnRequest where
  trackNamespace : Option (List Bytes) := none
  requestId : Option Nat := none

namespace WithdrawnRequest

def push (self : WithdrawnRequest) (prof : DraftProfile) : Except MoqtError Bytes :=
  if prof.draft16 then pushRequiredVint prof self.requestId
  else match self.trackNamespace with
    | some parts => pushTuple prof parts
    | none => .error .typeError

def pull (prof : DraftProfile) : Reader MoqtError WithdrawnRequest :=
  if prof.draft16 then do
    let requestId ← pullVint prof.vint
    return { requestId := some requestId }
  else do
    let parts ← pullTuple prof none
    return { trackNamespace := some parts }

end WithdrawnRequest

structure PublishNamespaceDone where
  request : WithdrawnRequest

namespace PublishNamespaceDone

def body (self : PublishNamespaceDone) (prof : DraftProfile) : Except MoqtError Bytes :=
  self.request.push prof

def deserialize (prof : DraftProfile) : Reader MoqtError PublishNamespaceDone := do
  let request ← WithdrawnRequest.pull prof
  return { request }

end PublishNamespaceDone

structure PublishNamespaceCancel where
  request : WithdrawnRequest
  errorCode : Nat
  reason : String := ""

namespace PublishNamespaceCancel

def body (self : PublishNamespaceCancel) (prof : DraftProfile) : Except MoqtError Bytes := do
  let request ← self.request.push prof
  let errorCode ← pushVint prof.vint self.errorCode
  let reason ← pushReason prof self.reason
  return request ++ errorCode ++ reason

def deserialize (prof : DraftProfile) : Reader MoqtError PublishNamespaceCancel := do
  let request ← WithdrawnRequest.pull prof
  let errorCode ← pullVint prof.vint
  let reason ← pullReason prof
  return { request, errorCode, reason }

end PublishNamespaceCancel

/-- A message that is one Track Namespace. -/
structure NamespaceMessage where
  parts : List Bytes

namespace NamespaceMessage

def body (self : NamespaceMessage) (prof : DraftProfile) : Except MoqtError Bytes :=
  pushTuple prof self.parts

def deserialize (prof : DraftProfile) : Reader MoqtError NamespaceMessage := do
  let parts ← pullTuple prof none
  return { parts }

end NamespaceMessage

/-- Its field is `namespace_prefix`. -/
abbrev UnsubscribeNamespace : Type := NamespaceMessage
/-- NAMESPACE; its field is `namespace_suffix`. -/
abbrev Namespace : Type := NamespaceMessage
/-- Its field is `namespace_suffix`. -/
abbrev NamespaceDone : Type := NamespaceMessage

structure PublishBlocked where
  namespaceSuffix : List Bytes
  trackName : Bytes := []

namespace PublishBlocked

def body (self : PublishBlocked) (prof : DraftProfile) : Except MoqtError Bytes :=
  pushFullTrackName prof self.namespaceSuffix self.trackName

def deserialize (prof : DraftProfile) : Reader MoqtError PublishBlocked := do
  let name ← pullFullTrackName prof
  return { namespaceSuffix := name.1, trackName := name.2 }

end PublishBlocked

/-! ## Unified requests -/

structure RequestOk where
  requestId : Option Nat := some 0
  parameters : Params
  /-- From draft 18 on; a TRACK_STATUS reply only. -/
  trackProperties : Option KeyValuePairs := none

namespace RequestOk

def body (self : RequestOk) (prof : DraftProfile) : Except MoqtError Bytes := do
  let requestId ← pushReplyId prof self.requestId
  let params ← serializeParams prof self.parameters
  let props ← (if prof.draft18 then extensionsEncode prof.vint self.trackProperties false true
    else .ok [])
  return requestId ++ params ++ props

/-- Track Properties, if the Length covers any. -/
def pullProperties (prof : DraftProfile) (bufEnd : Nat) :
    Reader MoqtError (Option KeyValuePairs) := do
  let pos ← Reader.tell
  if prof.draft18 ∧ pos < bufEnd then do
    let props ← extensionsDecodeTo prof.vint bufEnd true true false
    Reader.ofExcept (checkTrackProperties prof props)
    return props
  else return none

def deserialize (prof : DraftProfile) (bufEnd : Nat) : Reader MoqtError RequestOk := do
  let requestId ← pullReplyId prof
  let params ← deserializeParams prof bufEnd (some (.message .requestOk))
  let trackProperties ← pullProperties prof bufEnd
  return { requestId, parameters := params, trackProperties }

end RequestOk

/-- Where to retry: an empty URI means on this session. -/
structure Redirect where
  connectUri : Bytes
  trackNamespace : List Bytes
  trackName : Bytes

structure RequestError where
  requestId : Option Nat
  errorCode : Nat
  retryInterval : Nat := 0
  reason : String := ""
  redirect : Option Redirect := none

namespace RequestError

/-- The code that a Redirect comes with. -/
def redirectCode : Nat := 0x34

def pushRedirect (self : RequestError) (prof : DraftProfile) : Except MoqtError Bytes :=
  match self.redirect with
  | none => .ok []
  | some redirect =>
      if self.errorCode = redirectCode ∧ ¬ prof.replyHasRequestId then do
        let uri ← pushSized prof redirect.connectUri
        let name ← pushFullTrackName prof redirect.trackNamespace redirect.trackName
        return uri ++ name
      else .ok []

def body (self : RequestError) (prof : DraftProfile) : Except MoqtError Bytes := do
  let requestId ← pushReplyId prof self.requestId
  let errorCode ← pushVint prof.vint self.errorCode
  let retryInterval ← pushVint prof.vint self.retryInterval
  let reason ← pushReason prof self.reason
  let redirect ← self.pushRedirect prof
  return requestId ++ errorCode ++ retryInterval ++ reason ++ redirect

def pullRedirect (prof : DraftProfile) (bufEnd errorCode : Nat) :
    Reader MoqtError (Option Redirect) := do
  let pos ← Reader.tell
  if errorCode = redirectCode ∧ ¬ prof.replyHasRequestId ∧ pos < bufEnd then do
    let len ← pullVint prof.vint
    let uri ← pullBytes len
    let name ← pullFullTrackName prof
    return some ⟨uri, name.1, name.2⟩
  else return none

def deserialize (prof : DraftProfile) (bufEnd : Nat) : Reader MoqtError RequestError := do
  let requestId ← pullReplyId prof
  let errorCode ← pullVint prof.vint
  let retryInterval ← pullVint prof.vint
  let reason ← pullReason prof
  let redirect ← pullRedirect prof bufEnd errorCode
  return { requestId, errorCode, retryInterval, reason, redirect }

end RequestError

structure RequestUpdate where
  requestId : Nat
  /-- On the wire up to draft 16; later the request of the stream. -/
  existingRequestId : Option Nat := none
  parameters : Params

namespace RequestUpdate

def body (self : RequestUpdate) (prof : DraftProfile) : Except MoqtError Bytes := do
  let requestId ← pushVint prof.vint self.requestId
  let existing ← (if prof.draft18 then .ok [] else pushRequiredVint prof self.existingRequestId)
  let params ← serializeParams prof self.parameters
  return requestId ++ existing ++ params

def pullExisting (prof : DraftProfile) : Reader MoqtError (Option Nat) :=
  if prof.draft18 then return none
  else do
    let existing ← pullVint prof.vint
    return some existing

def deserialize (prof : DraftProfile) (bufEnd : Nat) : Reader MoqtError RequestUpdate := do
  let requestId ← pullVint prof.vint
  let existingRequestId ← pullExisting prof
  let params ← deserializeParams prof bufEnd (some (.message .requestUpdate))
  return { requestId, existingRequestId, parameters := params }

end RequestUpdate

end AioMoqt.Messages
