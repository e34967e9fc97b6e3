import AioMoqt.Lib.Raising
import AioMoqt.Session.Admission

/-!
# Requests of ours

The calls of `protocol.py` that send a request: `subscribe`, `fetch`, `joining_fetch`,
`publish`, `publish_namespace` and `request_update`, with `_send_request` and the send
path under them.  A call fills the tables its reply is looked up in, and sends its
message; what raises on the way leaves the tables as they are then.
-/

namespace AioMoqt.Session

open AioMoqt.Lib AioMoqt.Lib.BigEndian AioMoqt.Messages

/-! ## The session -/

/-- A callback of the application. -/
abbrev RequestCallback : Type := Nat

/-- A future awaited for a reply. -/
inductive Awaited where
  | waiting
  | result (msg : ControlMessage)

/-- What `_fill_requests` holds: FILL_PARAMETERS, the Location Filter of the
subscription, and the group order. -/
structure Fill where
  params : Params
  subscriptionFilter : Option (Slot ParamValue)
  groupOrder : Nat

/-- What a callback of the event loop does. -/
inductive Scheduled where
  /-- The handler task of a message. -/
  | handle (msg : ControlMessage)
  /-- `_fail_waiting_updates`. -/
  | failWaiting (requestId : Nat)
  /-- `_settle_cancelled_request`. -/
  | settle (requestId : Nat)
  /-- `_release_request_stream`. -/
  | release (streamId : Nat)

/-- What the requests of ours read and write of the session. -/
structure Requests where
  /-- There is a transport. -/
  quic : Bool := true
  /-- `_close_err` is set. -/
  closed : Bool := false
  controlWriteStreamId : Option Nat := none
  pendingControlMsgs : List ControlMessage := []
  nextRequestId : Nat
  nextTrackAlias : Nat := 0
  goawayReceived : Bool := false
  peerRequestLimit : Option Nat := none
  requestsBlockedSent : Bool := false
  peerMaxFilterRanges : Nat := 0
  peerMaxRequestUpdates : Nat := 0
  /-- The peer's SUBSCRIBE_TRACKS: what a PUBLISH under one carries. -/
  subscribeTracksParams : Dict Nat Params := .empty
  peerRequests : Dict Nat PeerRequest := .empty
  /-- PUBLISHes that wait to be claimed, with the PUBLISH_DONE that came meanwhile. -/
  unclaimedPublishes : Dict Nat (Option ControlMessage) := .empty
  subscriptions : Dict Nat (List ControlMessage) := .empty
  pendingRequests : Dict Nat Awaited := .empty
  pendingObjectHandlers : Dict Nat RequestCallback := .empty
  pendingReplyHooks : Dict Nat RequestCallback := .empty
  publishDoneHandlers : Dict Nat RequestCallback := .empty
  fetchObjectHandlers : Dict Nat RequestCallback := .empty
  /-- `none` while the fetch runs. -/
  fetchDoneFutures : Dict Nat (Option Bool) := .empty
  fillRequests : Dict Nat Fill := .empty
  publishedAliases : Dict Nat Nat := .empty
  announced : Dict Nat (List Bytes) := .empty
  /-- The REQUEST_UPDATEs of a WebTransport request whose stream is not open yet. -/
  unboundUpdates : Dict Nat (List ControlMessage) := .empty
  /-- The requests whose stream is being opened. -/
  opening : List (Nat × ControlMessage) := []
  /-- Our requests cancelled by STOP_SENDING whose peer half is open. -/
  cancelledRequestStreams : List Nat := []
  /-- Ended halves of request streams: ours, the peer's. -/
  requestStreamEnds : Dict Nat (Bool × Bool) := .empty
  /-- The messages written on request streams. -/
  writes : List (Nat × ControlMessage) := []
  /-- Futures whose exception was set, and what the application was called with. -/
  failed : List Nat := []
  delivered : List (RequestCallback × ControlMessage) := []
  /-- The ready queue of the event loop. -/
  ready : List Scheduled := []

abbrev RequestSession : Type := ControlSession Requests

/-- What a call raises. -/
inductive CallError where
  | moqt (e : MoqtError)
  /-- `MOQTRequestError`. -/
  | request (errorCode : Nat) (reason : String)

/-- A call: it may raise, and the session stays as it was at that moment. -/
abbrev Calls : Type → Type := Raising CallError RequestSession

/-- What is fixed while the session runs. -/
structure RequestEnv where
  draft : Draft
  isWt : Bool
  /-- `get_next_available_stream_id` of the transport. -/
  nextStreamId : RequestSession → Nat

def RequestEnv.prof (env : RequestEnv) : DraftProfile := profileFor env.draft

/-- `update_has_location` of the profile. -/
def RequestEnv.updateHasLocation (env : RequestEnv) : Bool := env.draft = .d14

/-- `uses_location_filter`. -/
def RequestEnv.usesLocationFilter (env : RequestEnv) : Bool :=
  env.prof.draft18 ∧ 20 ≤ env.prof.paramTable

/-- `reserved_period_namespaces` of the profile. -/
def RequestEnv.reservedPeriodNamespaces (env : RequestEnv) : Bool := 18 ≤ env.draft.number

namespace Calls

def ofMoqt {α : Type} (x : Except MoqtError α) : Calls α :=
  Raising.ofExcept (x.mapError .moqt)

/-- A write to the tables of the requests. -/
def update (f : Requests → Requests) : Calls Unit := modify fun s => { s with app := f s.app }

end Calls

/-! ## The send path -/

/-- `CONTROL_MESSAGE_TYPES`. -/
def controlMessageTypes : Draft → List Nat
  | .d14 => [0x20, 0x21, 0x10, 0x15, 0x1A, 0x03, 0x04, 0x05, 0x02, 0x0A, 0x0B, 0x1D, 0x1E, 0x1F,
      0x16, 0x18, 0x19, 0x17, 0x0D, 0x0E, 0x0F, 0x06, 0x07, 0x08, 0x09, 0x0C, 0x11, 0x12, 0x13,
      0x14]
  | .d16 => [0x20, 0x21, 0x10, 0x15, 0x1A, 0x07, 0x05, 0x03, 0x04, 0x02, 0x0A, 0x1D, 0x1E, 0x0B,
      0x16, 0x18, 0x17, 0x0D, 0x06, 0x08, 0x09, 0x0E, 0x0C, 0x11]
  | .d18 => [0x2F00, 0x10, 0x03, 0x04, 0x1D, 0x1E, 0x0B, 0x16, 0x18, 0x0D, 0x06, 0x50, 0x51, 0x08,
      0x0E, 0x0F, 0x02, 0x07, 0x05]
  | .d20 | .d22 => [0x2F00, 0x10, 0x03, 0x04, 0x22, 0x1D, 0x0B, 0x16, 0x18, 0x0D, 0x06, 0x50, 0x51,
      0x08, 0x0E, 0x0F, 0x02, 0x07, 0x05]

/-- `_REPLY_CLASSES`. -/
def isReplyClass : ControlMessage → Bool
  | .requestOk _ | .requestError _ | .subscribeOk _ | .subscribeDone _ | .publishOk _ | .fetchOk _
  | .publishStateNotify _ => true
  | _ => false

def pendingControlMax : Nat := 128

/-- A value that is read as an `int`. -/
def intValue : Slot ParamValue → Except MoqtError Nat
  | .one (.plain (.int v)) => .ok v
  | _ => .error .typeError

/-- `stream_write`, which drops what it is given once the session is closing. -/
def Requests.streamWrite (r : Requests) (streamId : Nat) (msg : ControlMessage) : Requests :=
  if r.closed ∨ ¬ r.quic then r else { r with writes := r.writes ++ [(streamId, msg)] }

/-- A request and its stream. -/
def bindOpened (s : RequestSession) (requestId streamId : Nat) : RequestSession :=
  { s with
    bidiStreams := s.bidiStreams.insert requestId streamId
    bidiStreamRequests := s.bidiStreamRequests.insert streamId requestId }

/-- A REQUEST_UPDATE waits behind what is asked on its stream. -/
def awaitUpdate (s : RequestSession) (existing updateId : Nat) : RequestSession :=
  { s with
    txUpdates := s.txUpdates.insert existing ((s.txUpdates.get? existing).getD [] ++
      [some updateId]) }

def discardUnanswered (msg : ControlMessage) (s : RequestSession) : RequestSession :=
  { s with
    unansweredPeerRequests := s.unansweredPeerRequests.filter (msg.requestId ≠ some ·) }

section

variable (env : RequestEnv)

/-- `_assert_type_defined_by_draft`. -/
def assertTypeDefinedByDraft (msg : ControlMessage) : Except MoqtError Unit :=
  let name := msg.cls.name
  let type := hex msg.cls.type
  let draft := env.draft.number
  if wireControlType env.prof msg.cls ∈ controlMessageTypes env.draft then .ok ()
  else .error (.exception .internalError
    s!"refusing to send {name} (type 0x{type}): not defined by draft-{draft}")

/-- What a message is on the wire, if the draft defines it and it serializes. -/
def encodeMessage (msg : ControlMessage) : Except MoqtError Bytes := do
  assertTypeDefinedByDraft env msg
  msg.serialize env.prof

/-- `send_stream_message`. -/
def sendStreamMessage (streamId : Nat) (msg : ControlMessage) : Calls Unit := do
  modify (discardUnanswered msg)
  let _ ← Calls.ofMoqt (encodeMessage env msg)
  Calls.update fun r => r.streamWrite streamId msg

/-- Whether the control stream takes a message: it may be deferred until the stream is up. -/
def controlStreamError (s : RequestSession) (msg : ControlMessage) : Option MoqtError :=
  let name := msg.cls.name
  if ¬ s.app.quic then some (.exception .internalError "session not initialized")
  else match assertTypeDefinedByDraft env msg with
  | .error e => some e
  | .ok _ =>
      if env.prof.controlUniPair ∧ isReplyClass msg then
        some (.exception .internalError
          s!"{name} is a reply: it must ride its request stream — use _send_reply")
      else match s.app.controlWriteStreamId with
      | none =>
          if ¬ env.prof.controlUniPair ∨ pendingControlMax ≤ s.app.pendingControlMsgs.length then
            some (.exception .internalError "control stream not initialized")
          else none
      | some _ =>
          match msg.serialize env.prof with
          | .error e => some e
          | .ok _ => none

/-- A message on the control stream, or behind the others that wait for it. -/
def putControl (msg : ControlMessage) (s : RequestSession) : RequestSession :=
  match s.app.controlWriteStreamId with
  | none =>
      { s with app := { s.app with pendingControlMsgs := s.app.pendingControlMsgs ++ [msg] } }
  | some _ => { s with sent := s.sent ++ [msg] }

/-- `send_control_message`. -/
def sendControlMessage (msg : ControlMessage) : Calls Unit := do
  let s ← get
  match controlStreamError env s msg with
  | some e => throw (.moqt e)
  | none => modify fun s => putControl msg (discardUnanswered msg s)

/-- `_allocate_request_id`: an `opener` is refused after the peer's GOAWAY, and at its
MAX_REQUEST_ID, where the first refusal sends REQUESTS_BLOCKED. -/
def allocateRequestId (opener : Bool) : Calls Nat := do
  let s ← get
  let requestId := s.app.nextRequestId
  if opener ∧ s.app.goawayReceived then
    throw (.request RequestErrorCode.goingAway "the peer sent GOAWAY")
  else if s.app.peerRequestLimit.any (· ≤ requestId) then do
    let limit := s.app.peerRequestLimit.getD 0
    if s.app.requestsBlockedSent then
      throw (.request 0 s!"peer MAX_REQUEST_ID {limit} exhausted")
    else do
      Calls.update fun r => { r with requestsBlockedSent := true }
      sendControlMessage env (.subscribesBlocked ⟨limit⟩)
      throw (.request 0 s!"peer MAX_REQUEST_ID {limit} exhausted")
  else do
    Calls.update fun r => { r with nextRequestId := r.nextRequestId + 2 }
    return requestId

/-- `_allocate_track_alias`. -/
def allocateTrackAlias (requestId : Nat) : Calls Nat := do
  let s ← get
  let trackAlias := s.app.nextTrackAlias
  Calls.update fun r => { r with
    nextTrackAlias := r.nextTrackAlias + 1
    publishedAliases := r.publishedAliases.insert trackAlias requestId }
  return trackAlias

/-- The kinds with one more; past the bound the oldest is forgotten. -/
def noteKind (kinds : Dict Nat MessageClass) (requestId : Nat) (cls : MessageClass) :
    Dict Nat MessageClass :=
  let kinds := kinds.insert requestId cls
  match kinds.entries with
  | oldest :: _ => if Admission.requestKindsMax < kinds.size then kinds.erase oldest.1 else kinds
  | [] => kinds

/-- `_note_request_kind` of a request of ours. -/
def noteOwnRequest (requestId : Nat) (cls : MessageClass) (s : RequestSession) : RequestSession :=
  { s with requestKinds := noteKind s.requestKinds requestId cls }

/-- `_send_request`: from draft 18 on a request opens its own stream, over WebTransport in a
task, and its reply is the first that is due there. -/
def sendRequest (requestId : Nat) (msg : ControlMessage) : Calls Unit :=
  if env.prof.controlUniPair then do
    modify (noteOwnRequest requestId msg.cls)
    modify fun s => { s with txUpdates := s.txUpdates.insert requestId [none] }
    let s ← get
    if env.isWt then
      Calls.update fun r => { r with
        unboundUpdates := r.unboundUpdates.insert requestId []
        opening := r.opening ++ [(requestId, msg)] }
    else if ¬ s.app.quic then throw (.moqt .typeError)
    else do
      let streamId := env.nextStreamId s
      modify fun s => bindOpened s requestId streamId
      sendStreamMessage env streamId msg
  else sendControlMessage env msg

/-! ## Checks and tables of the calls -/

/-- `_check_filter_ranges`. -/
def checkFilterRanges (params : Params) : Calls Unit := do
  let s ← get
  let count := rangeFilterCount params + rangeFilterCount (fillBlock params)
  let limit := s.app.peerMaxFilterRanges
  if 20 ≤ env.prof.paramTable ∧ limit < count then
    throw (.moqt (.valueError
      s!"{count} filter ranges exceed the peer's MAX_FILTER_RANGES {limit}"))
  else return ()

/-- The fill a request asks for: none without FILL_PARAMETERS, or while it is paused. -/
def requestedFill (params : Params) (subscriptionFilter : Option (Slot ParamValue))
    (groupOrder : Option Nat) (forward : Option (Slot ParamValue)) :
    Except MoqtError (Option Fill) :=
  match params.get? ParamType.fillParameters with
  | none => .ok none
  | some (.one (.fill _)) =>
      if env.prof.paramTable < 20 then .ok none
      else do
        let forward ← (match forward with
          | some slot => intValue slot
          | none => .ok 1)
        if forward = 0 then .ok none
        else do
          let block := fillBlock params
          let order ← (match block.get? ParamType.groupOrder with
            | some slot => intValue slot
            | none => .ok 0)
          let asked := if order = 0 then groupOrder.getD 0 else order
          return some ⟨block, subscriptionFilter, if asked = 0 then 1 else asked⟩
  | some _ => if env.prof.paramTable < 20 then .ok none else .error .typeError

/-- `_register_fill`. -/
def registerFill (requestId : Nat) (params : Params)
    (subscriptionFilter : Option (Slot ParamValue)) (groupOrder : Option Nat)
    (forward : Option (Slot ParamValue)) : Calls Unit := do
  let fill ← Calls.ofMoqt (requestedFill env params subscriptionFilter groupOrder forward)
  Calls.update fun r => match fill with
    | none => r
    | some fill => { r with
        fillRequests := r.fillRequests.insert requestId fill
        fetchDoneFutures := r.fetchDoneFutures.insert requestId none }

/-- `register_publish_done_handler`. -/
def Requests.registerPublishDoneHandler (r : Requests) (requestId : Nat) (callback : RequestCallback) :
    Requests :=
  match r.unclaimedPublishes.get? requestId with
  | some (some held) => { r with
      unclaimedPublishes := r.unclaimedPublishes.erase requestId
      delivered := r.delivered ++ [(callback, held)] }
  | _ => { r with
      unclaimedPublishes := r.unclaimedPublishes.erase requestId
      publishDoneHandlers := r.publishDoneHandlers.insert requestId callback }

/-- A handler, if the caller gave one. -/
def putHandler (handlers : Dict Nat RequestCallback) (requestId : Nat)
    (callback : Option RequestCallback) :
    Dict Nat RequestCallback :=
  match callback with
  | none => handlers
  | some callback => handlers.insert requestId callback

/-- A Track Namespace as the caller names it. -/
inductive NamespaceArg where
  | path (text : String)
  | parts (parts : List Bytes)

/-- The parts of a path; a backslash keeps the slash behind it in its part. -/
def splitPath : List Char → List Char → List (List Char)
  | [], current => [current]
  | c :: rest, current =>
      if c = '\\' then
        match rest with
        | '/' :: rest => splitPath rest (current ++ ['/'])
        | rest => splitPath rest (current ++ [c])
      else if c = '/' then current :: splitPath rest []
      else splitPath rest (current ++ [c])

/-- `_make_namespace_tuple`. -/
def makeNamespaceTuple : NamespaceArg → List Bytes
  | .path text => ((splitPath text.toList []).filter (· ≠ [])).map
      fun part => (String.ofList part).toUTF8.toList
  | .parts parts => parts

/-- `_check_sendable_namespace`. -/
def checkSendableNamespace (parts : List Bytes) : Except MoqtError Unit :=
  if env.reservedPeriodNamespaces ∧ (parts.head?.bind List.head?) = some 0x2E then
    .error (.valueError "a first field starting with '.' is reserved")
  else .ok ()

/-! ## The calls -/

structure SubscribeArgs where
  trackNamespace : NamespaceArg
  trackName : Bytes
  priority : Option Nat := none
  groupOrder : Option Nat := none
  forward : Option Nat := none
  filter : SubscriptionFilter :=
    { filterType := some 2, startGroup := some 0, startObject := some 0, endGroup := some 0 }
  parameters : Params := .empty
  locationFilter : Option LocationFilter := none
  onObject : Option RequestCallback := none
  onDone : Option RequestCallback := none
  onReply : Option RequestCallback := none

def SubscribeArgs.message (a : SubscribeArgs) (requestId : Nat) : Subscribe where
  requestId
  trackNamespace := makeNamespaceTuple a.trackNamespace
  trackName := a.trackName
  priority := a.priority
  groupOrder := a.groupOrder
  forward := a.forward
  filter := a.filter
  parameters := a.parameters
  locationFilter := a.locationFilter

/-- A Location Filter as a parameter has it. -/
def filterSlot (filter : LocationFilter) : Slot ParamValue := .one (.plain (.locationFilter filter))

def intSlot (v : Nat) : Slot ParamValue := .one (.plain (.int v))

/-- The handlers the caller gave. -/
def SubscribeArgs.enterHandlers (a : SubscribeArgs) (requestId : Nat) (r : Requests) : Requests :=
  let r := { r with
    pendingObjectHandlers := putHandler r.pendingObjectHandlers requestId a.onObject
    pendingReplyHooks := putHandler r.pendingReplyHooks requestId a.onReply }
  match a.onDone with
  | none => r
  | some callback => r.registerPublishDoneHandler requestId callback

/-- The subscription of a request. -/
def Requests.enterSubscription (r : Requests) (requestId : Nat) (msg : ControlMessage) : Requests :=
  { r with subscriptions := r.subscriptions.insert requestId [msg] }

/-- The tables of a SUBSCRIBE, and the SUBSCRIBE itself. -/
def enterSubscribe (a : SubscribeArgs) (requestId : Nat) : Calls ControlMessage := do
  let sub := a.message requestId
  Calls.update fun r => r.enterSubscription requestId (.subscribe sub)
  let sentFilter ← Calls.ofMoqt sub.sentLocationFilter
  registerFill env requestId a.parameters (sentFilter.map filterSlot) a.groupOrder
    (a.forward.map intSlot)
  Calls.update (a.enterHandlers requestId)
  sendRequest env requestId (.subscribe sub)
  return .subscribe sub

/-- `subscribe`. -/
def Calls.subscribe (a : SubscribeArgs) : Calls ControlMessage :=
  let draft := env.draft.number
  if a.locationFilter.isSome ∧ ¬ env.usesLocationFilter then
    throw (.moqt (.valueError s!"location_filter needs draft-20 or later, not draft-{draft}"))
  else do
    checkFilterRanges env a.parameters
    let requestId ← allocateRequestId env true
    enterSubscribe env a requestId

structure FetchArgs where
  trackNamespace : NamespaceArg
  trackName : Bytes
  subscriberPriority : Option Nat := none
  groupOrder : Option Nat := none
  range : FetchRange := ⟨some 0, some 0, some 0, some 0⟩
  parameters : Params := .empty
  onObject : Option RequestCallback := none
  locationFilter : Option LocationFilter := none

def FetchArgs.message (a : FetchArgs) (requestId : Nat) : Fetch where
  fetchType := FetchType.standalone
  requestId
  subscriberPriority := a.subscriberPriority
  groupOrder := a.groupOrder
  trackNamespace := some (makeNamespaceTuple a.trackNamespace)
  trackName := some a.trackName
  range := a.range
  parameters := a.parameters
  locationFilter := a.locationFilter

/-- The subscription of a FETCH, its end and its objects. -/
def Requests.enterFetch (r : Requests) (requestId : Nat) (msg : ControlMessage)
    (onObject : Option RequestCallback) : Requests :=
  { r.enterSubscription requestId msg with
    fetchDoneFutures := r.fetchDoneFutures.insert requestId none
    fetchObjectHandlers := putHandler r.fetchObjectHandlers requestId onObject }

/-- The tables of a FETCH, and the FETCH itself. -/
def enterFetch (requestId : Nat) (msg : ControlMessage) (onObject : Option RequestCallback) :
    Calls ControlMessage := do
  Calls.update fun r => r.enterFetch requestId msg onObject
  sendRequest env requestId msg
  return msg

/-- `fetch`. -/
def Calls.fetch (a : FetchArgs) : Calls ControlMessage :=
  let draft := env.draft.number
  if a.locationFilter.isSome ∧ ¬ env.prof.fetchLocationFilter then
    throw (.moqt (.valueError s!"location_filter needs draft-20 or later, not draft-{draft}"))
  else do
    checkFilterRanges env a.parameters
    let requestId ← allocateRequestId env true
    enterFetch env requestId (.fetch (a.message requestId)) a.onObject

/-- What a REQUEST_UPDATE may give; `start`, `endGroup` and `priority` are for the
SUBSCRIBE_UPDATE of draft 14. -/
structure UpdateArgs where
  existingRequestId : Nat
  forward : Option Nat := none
  parameters : Params := .empty
  start : Option (Nat × Nat) := none
  endGroup : Option Nat := none
  priority : Option Nat := none

/-- The parameters of a REQUEST_UPDATE. -/
def UpdateArgs.sentParams (a : UpdateArgs) : Params :=
  a.parameters.setInt ParamType.forward a.forward

def UpdateArgs.message (a : UpdateArgs) (requestId : Nat) : ControlMessage :=
  .requestUpdate {
    requestId, existingRequestId := some a.existingRequestId, parameters := a.sentParams }

/-- The SUBSCRIBE among the messages of a request. -/
def sentSubscribe (msgs : List ControlMessage) : Option Subscribe :=
  msgs.findSome? fun
    | .subscribe sub => some sub
    | _ => none

def receivedOk (msgs : List ControlMessage) : Option SubscribeOk :=
  msgs.findSome? fun
    | .subscribeOk ok => some ok
    | _ => none

/-- `_filter_start`. -/
def filterStart (sub : Subscribe) (ok : Option SubscribeOk) : Nat × Nat :=
  if sub.filter.filterType = some 3 ∨ sub.filter.filterType = some 4 then
    (sub.filter.startGroup.getD 0, sub.filter.startObject.getD 0)
  else match ok.bind fun ok => ok.largestGroupId.map fun group => (group, ok.largestObjectId) with
  | none => (0, 0)
  | some (group, object) =>
      if sub.filter.filterType = some 1 then (group + 1, 0) else (group, object.getD 0 + 1)

/-- The End Group a SUBSCRIBE_UPDATE keeps. -/
def keptEndGroup : Option Subscribe → Except MoqtError Nat
  | some sub =>
      if sub.filter.filterType = some 4 then
        match sub.filter.endGroup with
        | some stop => .ok (stop + 1)
        | none => .error .typeError
      else .ok 0
  | none => .ok 0

/-- `_subscribe_update`: what the caller leaves out stays as our SUBSCRIBE had it. -/
def subscribeUpdate (a : UpdateArgs) : Calls ControlMessage := do
  let s ← get
  let existing := a.existingRequestId
  let msgs := (s.app.subscriptions.get? existing).getD []
  let sub := sentSubscribe msgs
  match a.start.or (sub.map fun sub => filterStart sub (receivedOk msgs)) with
  | none => throw (.moqt (.valueError (s!"SUBSCRIBE_UPDATE for request {existing} needs start=: " ++
      "this session sent no SUBSCRIBE for it")))
  | some start => do
      let endGroup ← Calls.ofMoqt (match a.endGroup with
        | some stop => .ok stop
        | none => keptEndGroup sub)
      let requestId ← allocateRequestId env false
      let msg := ControlMessage.subscribeUpdate {
        requestId, subscriptionRequestId := existing, startGroup := start.1
        startObject := start.2, endGroup
        priority := (a.priority.or (sub.bind Subscribe.priority)).getD 128
        forward := (a.forward.or (sub.bind Subscribe.forward)).getD 1
        parameters := a.parameters.erase ParamType.forward }
      sendControlMessage env msg
      return msg

/-- The REQUEST_UPDATEs of ours that a request still has out. -/
def outstandingUpdates (s : RequestSession) (requestId : Nat) : Nat :=
  ((s.txUpdates.get? requestId).getD []).countP Option.isSome

/-- From draft 20 on: the filter ranges, and MAX_REQUEST_UPDATES of the peer. -/
def checkUpdateLimits (existing : Nat) (params : Params) : Calls Unit := do
  if 20 ≤ env.prof.paramTable then do
    checkFilterRanges env params
    let s ← get
    let pending := outstandingUpdates s existing
    let limit := s.app.peerMaxRequestUpdates
    if limit ≠ 0 ∧ limit ≤ pending then
      throw (.moqt (.valueError (s!"{pending} REQUEST_UPDATEs already outstanding on request " ++
        s!"{existing} (peer MAX_REQUEST_UPDATES {limit})")))
    else return ()
  else return ()

/-- The fill of a REQUEST_UPDATE of a subscription of ours. -/
def registerUpdateFill (existing requestId : Nat) (params : Params) : Calls Unit := do
  let s ← get
  match sentSubscribe ((s.app.subscriptions.get? existing).getD []) with
  | none => return ()
  | some sub => do
      let sentFilter ← Calls.ofMoqt sub.sentLocationFilter
      registerFill env requestId params
        ((params.get? ParamType.locationFilter).or (sentFilter.map filterSlot)) sub.groupOrder
        (params.get? ParamType.forward)

/-- A REQUEST_UPDATE goes on the stream of its request, or waits with it for the stream. -/
def sendUpdate (existing requestId : Nat) (msg : ControlMessage) : Calls Unit :=
  if env.prof.controlUniPair then do
    let s ← get
    match s.bidiStreams.get? existing, s.app.unboundUpdates.get? existing with
    | none, some unbound => do
        modify fun s => awaitUpdate s existing requestId
        Calls.update fun r => { r with
          unboundUpdates := r.unboundUpdates.insert existing (unbound ++ [msg]) }
    | none, none => throw (.moqt (.exception .internalError
        s!"no request stream bound for request_id={existing}: cannot send REQUEST_UPDATE"))
    | some streamId, _ => do
        modify fun s => awaitUpdate s existing requestId
        sendStreamMessage env streamId msg
  else sendControlMessage env msg

/-- `request_update`. -/
def Calls.requestUpdate (a : UpdateArgs) : Calls ControlMessage :=
  if env.updateHasLocation then subscribeUpdate env a
  else do
    checkUpdateLimits env a.existingRequestId a.sentParams
    let requestId ← allocateRequestId env false
    registerUpdateFill env a.existingRequestId requestId a.sentParams
    sendUpdate env a.existingRequestId requestId (a.message requestId)
    return a.message requestId

structure JoiningArgs where
  subscriptionRequestId : Nat
  joiningStart : Nat := 0
  fetchType : Nat := FetchType.relativeJoining
  subscriberPriority : Option Nat := none
  groupOrder : Option Nat := none
  parameters : Params := .empty

def JoiningArgs.message (a : JoiningArgs) (requestId : Nat) : Fetch where
  fetchType := a.fetchType
  requestId
  subscriberPriority := a.subscriberPriority
  groupOrder := a.groupOrder
  joiningRequestId := some a.subscriptionRequestId
  joiningStart := some a.joiningStart
  parameters := a.parameters

/-- `_joining_filter`. -/
def joiningFilter (fetchType joiningStart : Nat) : Except MoqtError LocationFilter :=
  if fetchType = FetchType.relativeJoining then
    LocationFilter.validate (.relativeStart (joiningStart + 1))
  else LocationFilter.absolute joiningStart 0 none none

/-- The FILL_PARAMETERS that stand for a joining FETCH. -/
def JoiningArgs.fill (a : JoiningArgs) (filter : LocationFilter) : Dict Nat (Slot PlainValue) :=
  let block : Dict Nat (Slot PlainValue) :=
    Dict.empty.insert ParamType.locationFilter (.one (.locationFilter filter))
  let block := match a.subscriberPriority with
    | some priority => block.insert ParamType.subscriberPriority (.one (.int priority))
    | none => block
  match sentGroupOrder a.groupOrder with
  | some order => block.insert ParamType.groupOrder (.one (.int order))
  | none => block

/-- `joining_fetch`: from draft 20 on a REQUEST_UPDATE with FILL_PARAMETERS. -/
def Calls.joiningFetch (a : JoiningArgs) : Calls ControlMessage :=
  let type := a.fetchType
  if ¬ isJoining a.fetchType then
    throw (.moqt (.valueError s!"joining_fetch() requires a joining fetch_type, got {type}"))
  else if env.prof.fetchLocationFilter then do
    let filter ← Calls.ofMoqt (joiningFilter a.fetchType a.joiningStart)
    Calls.requestUpdate env {
      existingRequestId := a.subscriptionRequestId
      parameters := a.parameters.insert ParamType.fillParameters (.one (.fill (a.fill filter))) }
  else do
    let requestId ← allocateRequestId env true
    enterFetch env requestId (.fetch (a.message requestId)) none

structure PublishArgs where
  trackNamespace : NamespaceArg
  trackName : Bytes
  forward : Nat := 0
  contentExists : Nat := 0
  parameters : Params := .empty
  waitResponse : Bool := false
  largest : Option (Nat × Nat) := none
  trackProperties : Option KeyValuePairs := none

/-- The SUBSCRIBE_TRACKS of the peer that still stands. -/
def standingTracks (s : RequestSession) (requestId : Nat) : Option (List Bytes) :=
  match s.app.peerRequests.get? requestId with
  | some (.subscribeTracks namespacePrefix) => some namespacePrefix
  | _ => none

/-- `_subscribe_tracks_carry`: what is carried, and the requests forgotten on the way. -/
def subscribeTracksCarry (s : RequestSession) (parts : List Bytes) :
    List (Nat × Params) → Dict Nat Params × Option Params
  | [] => (s.app.subscribeTracksParams, none)
  | (requestId, params) :: rest =>
      match standingTracks s requestId with
      | none =>
          let found := subscribeTracksCarry s parts rest
          (found.1.erase requestId, found.2)
      | some namespacePrefix =>
          if parts.take namespacePrefix.length = namespacePrefix then
            (s.app.subscribeTracksParams, some params)
          else subscribeTracksCarry s parts rest

def Requests.keepTracks (r : Requests) (tracks : Dict Nat Params) : Requests :=
  { r with subscribeTracksParams := tracks }

/-- The `forward` and the parameters of a PUBLISH, where a SUBSCRIBE_TRACKS overrides them. -/
def carriedParams (a : PublishArgs) : Option Params → Except MoqtError (Nat × Params)
  | none => .ok (a.forward, a.parameters)
  | some carried => do
      let forward ← intValue ((carried.get? ParamType.forward).getD (intSlot 1))
      return (forward, a.parameters.update (carried.erase ParamType.forward))

def PublishArgs.message (a : PublishArgs) (requestId trackAlias forward : Nat) (params : Params) :
    Publish where
  requestId
  trackNamespace := makeNamespaceTuple a.trackNamespace
  trackName := a.trackName
  trackAlias
  groupOrder := some 1
  contentExists := some (if a.largest.isSome then 1 else a.contentExists)
  largestGroupId := a.largest.map Prod.fst
  largestObjectId := a.largest.map Prod.snd
  forward := some forward
  parameters := params
  trackExtensions := a.trackProperties

/-- The future of a reply that is awaited, registered ahead of the message. -/
def Requests.awaitReply (r : Requests) (requestId : Nat) (waitResponse : Bool) : Requests :=
  if waitResponse then { r with pendingRequests := r.pendingRequests.insert requestId .waiting }
  else r

/-- The reply awaited, and the request itself. -/
def sendAwaited (requestId : Nat) (msg : ControlMessage) (waitResponse : Bool) :
    Calls ControlMessage := do
  Calls.update fun r => r.awaitReply requestId waitResponse
  sendRequest env requestId msg
  return msg

/-- `publish`. -/
def Calls.publish (a : PublishArgs) : Calls ControlMessage := do
  let parts := makeNamespaceTuple a.trackNamespace
  Calls.ofMoqt (checkSendableNamespace env parts)
  let s ← get
  let carry := subscribeTracksCarry s parts s.app.subscribeTracksParams.entries
  Calls.update fun r => r.keepTracks carry.1
  let carried ← Calls.ofMoqt (carriedParams a carry.2)
  let requestId ← allocateRequestId env true
  let trackAlias ← allocateTrackAlias requestId
  sendAwaited env requestId (.publish (a.message requestId trackAlias carried.1 carried.2))
    a.waitResponse

structure AnnounceArgs where
  trackNamespace : NamespaceArg
  parameters : Params := .empty
  waitResponse : Bool := false

def AnnounceArgs.message (a : AnnounceArgs) (requestId : Nat) : PublishNamespace where
  requestId
  trackNamespace := makeNamespaceTuple a.trackNamespace
  parameters := a.parameters

def Requests.announce (r : Requests) (requestId : Nat) (parts : List Bytes) : Requests :=
  { r with announced := r.announced.insert requestId parts }

/-- `publish_namespace`. -/
def Calls.publishNamespace (a : AnnounceArgs) : Calls ControlMessage := do
  let parts := makeNamespaceTuple a.trackNamespace
  Calls.ofMoqt (checkSendableNamespace env parts)
  let requestId ← allocateRequestId env true
  let msg ← sendAwaited env requestId (.publishNamespace (a.message requestId)) a.waitResponse
  Calls.update fun r => r.announce requestId parts
  return msg

/-- A request call. -/
inductive Call where
  | subscribe (a : SubscribeArgs)
  | fetch (a : FetchArgs)
  | joiningFetch (a : JoiningArgs)
  | publish (a : PublishArgs)
  | publishNamespace (a : AnnounceArgs)
  | requestUpdate (a : UpdateArgs)

def Call.perform : Call → Calls ControlMessage
  | .subscribe a => Calls.subscribe env a
  | .fetch a => Calls.fetch env a
  | .joiningFetch a => Calls.joiningFetch env a
  | .publish a => Calls.publish env a
  | .publishNamespace a => Calls.publishNamespace env a
  | .requestUpdate a => Calls.requestUpdate env a

end

/-! ## The tables -/

/-- A session that has sent no request. -/
def newSession (isClient : Bool) : RequestSession where
  bidiStreamRequests := .empty
  bidiStreams := .empty
  requestStreamUpdates := .empty
  txUpdates := .empty
  requestKinds := .empty
  trackDefaultPriority := .empty
  peerRequests := {}
  app := { nextRequestId := if isClient then 0 else 1 }

end AioMoqt.Session
