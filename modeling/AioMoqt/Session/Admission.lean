import AioMoqt.Messages.RangeFilters
import AioMoqt.Session.AuthToken
import AioMoqt.Session.Control

/-!
# Admission of the peer's requests

`_refuse_request` and `_refuse_prefix_update` of `protocol.py`, before the application sees a
request: what is refused, and `_peer_requests`, which records an admitted subscription until it
ends.  Refusals are answered later, by the tasks of their handlers.
-/

namespace AioMoqt.Session

open AioMoqt.Lib AioMoqt.Lib.BigEndian AioMoqt.Messages

namespace RequestErrorCode

def notSupported : Nat := 0x03
def goingAway : Nat := 0x06
def doesNotExist : Nat := 0x10
def duplicateSubscription : Nat := 0x19
def prefixOverlap : Nat := 0x30
def invalidFilter : Nat := 0x36

end RequestErrorCode

def trackNamespacePrefix : Nat := 0x34

/-! ## Range Filters of a request -/

def propertyFilters : List Nat := [0x28, 0x29]

/-- `range_filter_count`. -/
def rangeFilterCount (params : Params) : Nat :=
  ((rangeFilterItems params).map fun item => item.2.ranges.length).sum

/-- One turn of the loop of `range_filter_error`, for a filter that is not a removal. -/
def rangeFilterFault (seen : List (Nat × RangeFilter)) (ptype setId : Nat) (filter : RangeFilter) :
    Option String :=
  let type := hex ptype
  let property := match filter.propertyType with
    | some propertyType => toString propertyType
    | none => "None"
  let top := if ptype = 0x27 then 255 else 2 ^ 64 - 1
  if seen.any fun item => item.1 = ptype ∧ item.2.setId = some setId ∧
      item.2.propertyType = filter.propertyType then
    some s!"filter 0x{type} repeats SetID {setId} and property type {property}"
  else if ptype ∈ propertyFilters ∧ filter.propertyType.any (· % 2 = 1) then
    some s!"filter 0x{type} names odd property type"
  else if filter.ranges.any fun range => top < range.1 ∨ range.2.any (top < ·) then
    some s!"filter 0x{type} value exceeds {top}"
  else none

def rangeFilterErrorFrom (seen : List (Nat × RangeFilter)) :
    List (Nat × RangeFilter) → Option String
  | [] => none
  | (ptype, filter) :: items =>
      match filter.setId with
      | none => rangeFilterErrorFrom seen items
      | some setId =>
          (rangeFilterFault seen ptype setId filter).or
            (rangeFilterErrorFrom (seen ++ [(ptype, filter)]) items)

/-- `range_filter_error`, without a bound on the ranges. -/
def rangeFilterError (params : Params) : Option String :=
  rangeFilterErrorFrom [] (rangeFilterItems params)

/-- The block that FILL_PARAMETERS holds. -/
def fillBlock (params : Params) : Params :=
  match params.get? ParamType.fillParameters with
  | some (.one (.fill block)) => block.map fun
      | .one v => .one (.plain v)
      | .many vs => .many (vs.map .plain)
  | _ => .empty

/-- `_filter_refusal`. -/
def filterRefusal (maxFilterRanges : Nat) (params : Params) : Option String :=
  let fill := fillBlock params
  ((rangeFilterError params).or (rangeFilterError fill)).or
    (if maxFilterRanges < rangeFilterCount params + rangeFilterCount fill then
      some s!"more than MAX_FILTER_RANGES {maxFilterRanges} ranges"
    else none)

/-! ## The tables -/

/-- What `_peer_requests` holds of an admitted request: its type and its key. -/
inductive PeerRequest where
  | subscribe (trackNamespace : List Bytes) (trackName : Bytes)
  | subscribeNamespace (namespacePrefix : List Bytes)
  | subscribeTracks (namespacePrefix : List Bytes)
deriving Repr, DecidableEq

/-- `_RequestEntry`: `sub` when the track holds a subscription under it. -/
structure RequestEntry where
  publisher : Bool
  track : Nat
  sub : Bool := false

/-- A refusal whose handler has not run. -/
inductive Refused where
  | request (refusal : Refusal)
  | update (refusal : Refusal) (existingRequestId : Option Nat)
  /-- By `_drain_refusal`. -/
  | drained (requestId : Nat)

/-- What admission reads and changes of a session. -/
structure Admission where
  peerRequests : Dict Nat PeerRequest := .empty
  /-- `_request_kinds`: the class of a request, and whether it is ours. -/
  requestKinds : Dict Nat (MessageClass × Bool) := .empty
  subscribeTracksParams : Dict Nat Params := .empty
  goawaySent : Bool := false
  draining : Bool := false
  /-- `_gone_requests`, oldest first. -/
  goneRequests : List Nat := []
  bidiStreamRequests : Dict Nat Nat := .empty
  bidiStreams : Dict Nat Nat := .empty
  requests : Dict Nat RequestEntry := .empty
  publishedTracks : Dict (List Bytes × Bytes) Nat := .empty
  tokens : TokenCache := ⟨.empty, 0, 0⟩
  refusals : List Refused := []

structure AdmissionEnv where
  draft : Draft
  isClient : Bool
  maxFilterRanges : Nat := 0
  /-- `auth_token_validator`. -/
  validator : Option (AuthToken → ControlMessage → Option Nat) := none

def AdmissionEnv.prof (env : AdmissionEnv) : DraftProfile := profileFor env.draft

/-- `self._profile.param_table >= 20`. -/
def AdmissionEnv.d20 (env : AdmissionEnv) : Bool := 20 ≤ env.prof.paramTable

/-- The parity of our own Request IDs. -/
def AdmissionEnv.ownParity (env : AdmissionEnv) : Nat := if env.isClient then 0 else 1

namespace Admission

def requestKindsMax : Nat := 4096
def goneRequestsMax : Nat := 1024

/-- `_note_request_kind`. -/
def noteRequestKind (s : Admission) (requestId : Nat) (kind : MessageClass) (ours : Bool) :
    Admission :=
  let kinds := s.requestKinds.insert requestId (kind, ours)
  match kinds.entries with
  | oldest :: _ =>
      { s with requestKinds :=
          if requestKindsMax < kinds.size then kinds.erase oldest.1 else kinds }
  | [] => { s with requestKinds := kinds }

/-- `_publishing`. -/
def publishing (env : AdmissionEnv) (s : Admission) (key : List Bytes × Bytes) : Bool :=
  match s.publishedTracks.get? key with
  | none => false
  | some track => s.requests.entries.any fun (rid, entry) =>
      entry.track = track ∧ entry.publisher ∧ rid % 2 = env.ownParity

/-! ## Refusing -/

/-- One of the two is a prefix of the other. -/
def prefixesOverlap (held ns : List Bytes) : Bool :=
  held.take ns.length = ns ∨ ns.take held.length = held

/-- A request of the type that `tracks` tells whose prefix overlaps `ns`. -/
def overlapsPrefix (tracks : Bool) (ns : List Bytes) : PeerRequest → Bool
  | .subscribeNamespace held => !tracks && prefixesOverlap held ns
  | .subscribeTracks held => tracks && prefixesOverlap held ns
  | .subscribe .. => false

/-- The namespace of a request. -/
def requestNamespace : ControlMessage → List Bytes
  | .subscribe msg => msg.trackNamespace
  | .fetch msg => msg.trackNamespace.getD []
  | .publish msg => msg.trackNamespace
  | .trackStatus msg => msg.trackNamespace
  | .publishNamespace msg => msg.trackNamespace
  | .subscribeNamespace msg => msg.namespacePrefix
  | .subscribeTracks msg => msg.namespacePrefix
  | _ => []

/-- What is recorded of a request. -/
def recordOf : ControlMessage → Option PeerRequest
  | .subscribe msg => some (.subscribe msg.trackNamespace msg.trackName)
  | .subscribeNamespace msg => some (.subscribeNamespace msg.namespacePrefix)
  | .subscribeTracks msg => some (.subscribeTracks msg.namespacePrefix)
  | _ => none

def reservedNamespaces : List (Bytes × String) := [([0x2E], "."),
  ([0x2E, 0x73, 0x65, 0x73, 0x73, 0x69, 0x6F, 0x6E], ".session")]

/-- From draft 18 on no track of a reserved namespace is recognized. -/
def reservedError (env : AdmissionEnv) (ns : List Bytes) : Option (Nat × String) :=
  if 18 ≤ env.draft.number then
    (reservedNamespaces.find? fun reserved => ns.head? = some reserved.1).map fun reserved =>
      let name := reserved.2
      (RequestErrorCode.doesNotExist, s!"reserved namespace {name}")
  else none

def overlapError (s : Admission) (tracks : Bool) (ns : List Bytes) : Option (Nat × String) :=
  if s.peerRequests.entries.any fun entry => overlapsPrefix tracks ns entry.2 then
    some (RequestErrorCode.prefixOverlap, "prefix overlaps an active subscription")
  else none

/-- A SUBSCRIBE of a track that is subscribed, or that our PUBLISH holds. -/
def duplicateError (env : AdmissionEnv) (s : Admission) (key : List Bytes × Bytes) :
    Option (Nat × String) :=
  let duplicate :=
    if env.d20 then RequestErrorCode.notSupported else RequestErrorCode.duplicateSubscription
  if s.peerRequests.entries.any fun entry => entry.2 = .subscribe key.1 key.2 then
    some (duplicate, "track already subscribed in this session")
  else if s.publishing env key then
    some (duplicate, "our PUBLISH of the track holds its subscription")
  else none

/-- What the rules of the session hold against a request. -/
def requestError (env : AdmissionEnv) (s : Admission) (msg : ControlMessage) :
    Option (Nat × String) :=
  ((reservedError env (requestNamespace msg)).or (match msg with
    | .subscribe msg => s.duplicateError env (msg.trackNamespace, msg.trackName)
    | .subscribeNamespace msg => s.overlapError false msg.namespacePrefix
    | .subscribeTracks msg => s.overlapError true msg.namespacePrefix
    | _ => none)).or
  (if env.d20 then
    (filterRefusal env.maxFilterRanges (msg.parameters.getD .empty)).map fun why =>
      (RequestErrorCode.invalidFilter, why)
  else none)

/-- `_SUBSCRIBE_TRACKS_CARRIED`. -/
def subscribeTracksCarried : List Nat := [0x02, 0x06, 0x10, 0x20, 0x21, 0x22]

/-- An admitted request is recorded, and the parameters that a SUBSCRIBE_TRACKS carries over. -/
def record (env : AdmissionEnv) (s : Admission) (rid : Nat) (msg : ControlMessage) : Admission :=
  let s := match recordOf msg with
    | some request => { s with peerRequests := s.peerRequests.insert rid request }
    | none => s
  match msg with
  | .subscribeTracks msg =>
      if env.d20 then
        { s with
          subscribeTracksParams := s.subscribeTracksParams.insert rid
            (msg.parameters.filterKeys (· ∈ subscribeTracksCarried)) }
      else s
  | _ => s

/-- A request opener from draft 16 on. -/
def refuseOpener (env : AdmissionEnv) (s : Admission) (rid : Nat) (msg : ControlMessage) :
    Admission × Option Refused :=
  let s := if env.d20 then s.noteRequestKind rid msg.cls false else s
  if s.goawaySent ∧ 18 ≤ env.draft.number then
    (s, some (.request ⟨rid, RequestErrorCode.goingAway, "the session is going away"⟩))
  else match s.requestError env msg with
    | some (code, reason) => (s, some (.request ⟨rid, code, reason⟩))
    | none => (s.record env rid msg, none)

/-- `_UPDATE_SCOPES`, with the parameters of each scope. -/
def updateScope : MessageClass → Option (String × List Nat)
  | .subscribe | .publish => some ("Subscription",
      [0x02, 0x03, 0x06, 0x10, 0x20, 0x21, 0x23, 0x25, 0x26, 0x27, 0x28, 0x32])
  | .fetch => some ("Fetch", [0x03, 0x20])
  | .publishNamespace => some ("PublishNamespace", [0x03])
  | .subscribeNamespace => some ("SubscribeNamespace", [0x03, 0x34])
  | .subscribeTracks => some ("SubscribeTracks", [0x03, 0x10, 0x29, 0x34])
  | _ => none

/-- A later FORWARD of a SUBSCRIBE_TRACKS is carried over. -/
def carryForward (s : Admission) (existing : Nat) (ours : Bool) (params : Params) : Admission :=
  match s.subscribeTracksParams.get? existing, ours, params.get? ParamType.forward with
  | some carried, false, some value =>
      { s with subscribeTracksParams :=
          s.subscribeTracksParams.insert existing (carried.insert ParamType.forward value) }
  | _, _, _ => s

/-- `_check_d20_update`. -/
def checkD20Update (env : AdmissionEnv) (s : Admission) (msg : RequestUpdate) :
    Except MoqtError (Admission × Option Refused) :=
  match msg.existingRequestId.bind fun existing =>
      (s.requestKinds.get? existing).map fun kind => (existing, kind) with
  | none => .ok (s, none)
  | some (existing, cls, ours) => do
      let name := cls.name
      if (ours = true ∧ cls ≠ .publish) ∨ (ours = false ∧ cls = .trackStatus) then
        .error (.violation s!"REQUEST_UPDATE for a {name} the peer may not update")
      else do
        let scope := ((updateScope cls).map Prod.fst).getD ""
        checkParamScope msg.parameters ((updateScope cls).map Prod.snd) s!"RequestUpdate:{scope}"
        if msg.parameters.keys.any (· ∈ rangeFilters) ∧ cls = .publish ∧ ours = false then
          .error (.violation "Range Filters in a REQUEST_UPDATE from the publisher")
        else match filterRefusal env.maxFilterRanges msg.parameters with
          | some why => .ok (s, some (.update
              ⟨msg.requestId, RequestErrorCode.invalidFilter, why⟩ msg.existingRequestId))
          | none => .ok (s.carryForward existing ours msg.parameters, none)

/-- `tuple(prefix)`: draft 16 reads an integer there. -/
def tupleOf : Slot ParamValue → Except MoqtError (List Bytes)
  | .one (.plain (.tuple parts)) => .ok parts
  | _ => .error .typeError

/-- SUBSCRIBE_TRACKS or SUBSCRIBE_NAMESPACE. -/
def discoveryKind : PeerRequest → Option Bool
  | .subscribeNamespace _ => some false
  | .subscribeTracks _ => some true
  | .subscribe .. => none

def discoveryRequest (tracks : Bool) (ns : List Bytes) : PeerRequest :=
  if tracks then .subscribeTracks ns else .subscribeNamespace ns

/-- `_refuse_prefix_update`. -/
def refusePrefixUpdate (s : Admission) (msg : RequestUpdate) :
    Except MoqtError (Admission × Option Refused) :=
  match msg.parameters.get? trackNamespacePrefix, msg.existingRequestId with
  | some value, some existing =>
      match (s.peerRequests.get? existing).bind discoveryKind with
      | none => .ok (s, none)
      | some tracks => do
          let ns ← tupleOf value
          if s.peerRequests.entries.any fun entry =>
              entry.1 ≠ existing ∧ overlapsPrefix tracks ns entry.2 then
            .ok (s, some (.update ⟨msg.requestId, RequestErrorCode.prefixOverlap,
              "prefix overlaps an active subscription"⟩ msg.existingRequestId))
          else
            .ok ({ s with
              peerRequests := s.peerRequests.insert existing (discoveryRequest tracks ns) }, none)
  | _, _ => .ok (s, none)

/-- `_check_publish_state_notify`. -/
def checkPublishStateNotify (s : Admission) (msg : PublishStateNotify) : Except MoqtError Unit :=
  match msg.requestId.bind s.requestKinds.get? with
  | none => .ok ()
  | some (cls, ours) =>
      let name := cls.name
      let opener := if ours then "we" else "the peer"
      if (ours = true ∧ cls = .subscribe) ∨ (ours = false ∧ cls = .publish) then .ok ()
      else .error (.violation s!"PUBLISH_STATE_NOTIFY on a {name} stream {opener} opened")

def checkUpdate (env : AdmissionEnv) (s : Admission) (msg : RequestUpdate) :
    Except MoqtError (Admission × Option Refused) :=
  if env.d20 then s.checkD20Update env msg else .ok (s, none)

/-- A REQUEST_UPDATE from draft 16 on. -/
def refuseUpdate (env : AdmissionEnv) (s : Admission) (msg : RequestUpdate) :
    Except MoqtError (Admission × Option Refused) := do
  let (s, refused) ← s.checkUpdate env msg
  match refused with
  | some refused => .ok (s, some refused)
  | none => s.refusePrefixUpdate msg

/-- A message that is no update; while the session drains a SUBSCRIBE or FETCH is refused. -/
def refuseOpening (env : AdmissionEnv) (s : Admission) (msg : ControlMessage) :
    Admission × Option Refused :=
  match msg.requestId with
  | none => (s, none)
  | some rid =>
      if s.draining ∧ (msg.cls = .subscribe ∨ msg.cls = .fetch) then (s, some (.drained rid))
      else if ¬ env.prof.draft16 ∨ ¬ isRequestOpener msg then (s, none)
      else s.refuseOpener env rid msg

/-- `_refuse_request`. -/
def refuseRequest (env : AdmissionEnv) (s : Admission) (msg : ControlMessage) :
    Except MoqtError (Admission × Option Refused) :=
  match msg with
  | .publishStateNotify msg => do
      s.checkPublishStateNotify msg
      .ok (s, none)
  | .requestUpdate msg => if env.prof.draft16 then s.refuseUpdate env msg else .ok (s, none)
  | msg => .ok (s.refuseOpening env msg)

def authSession (env : AdmissionEnv) (s : Admission) : AuthSession where
  cache := s.tokens
  validator := env.validator
  isClient := env.isClient
  prof := env.prof

/-- `_refusal` of a message. -/
def refusedOf (refusal : Refusal) : ControlMessage → Refused
  | .requestUpdate msg => .update refusal msg.existingRequestId
  | _ => .request refusal

/-- What `_moqt_handle_control_message` asks before a message gets to its handler. -/
def admitMessage (env : AdmissionEnv) (s : Admission) (msg : ControlMessage) :
    Except MoqtError (Admission × Option Refused) := do
  let resolved ← resolveAuthToken (s.authSession env) msg
  let s := { s with tokens := resolved.cache }
  match resolved.refusal with
  | some refusal => .ok (s, some (refusedOf refusal msg))
  | none => s.refuseRequest env resolved.msg

/-! ## Ends of requests -/

/-- `_note_request_gone`. -/
def noteRequestGone (s : Admission) (requestId : Nat) : Admission :=
  let gone :=
    if requestId ∈ s.goneRequests then s.goneRequests else s.goneRequests ++ [requestId]
  { s with goneRequests := if goneRequestsMax < gone.length then gone.tail else gone }

/-- `_notify_request_cancelled`. -/
def notifyRequestCancelled (s : Admission) (requestId : Nat) : Admission :=
  let s := s.noteRequestGone requestId
  { s with
    requests := s.requests.erase requestId
    peerRequests := s.peerRequests.erase requestId }

/-- `_send_reply`: `fin` ends the request. -/
def sendReply (s : Admission) (requestId : Nat) (fin : Bool) : Admission :=
  if requestId ∈ s.goneRequests then s
  else if fin then { s with peerRequests := s.peerRequests.erase requestId }
  else s

/-- `_update_failed`: a failed REQUEST_UPDATE ends the request it updated.  `publishDone` is the
request of the PUBLISH_DONE that goes out at once when the track's subscription ends. -/
def updateFailed (s : Admission) (existingRequestId publishDone : Option Nat) : Admission :=
  match existingRequestId with
  | none => s
  | some existing =>
      match s.requests.get? existing with
      | some ⟨false, _, _⟩ => s
      | some ⟨true, _, true⟩ =>
          match publishDone with
          | some requestId => s.sendReply requestId true
          | none => s
      | _ => ({ s with bidiStreams := s.bidiStreams.erase existing } : Admission)
          |>.notifyRequestCancelled existing

/-- The handler of a refusal. -/
def answer (s : Admission) (publishDone : Option Nat) : Refused → Admission
  | .request _ => s
  | .update _ existingRequestId => s.updateFailed existingRequestId publishDone
  | .drained requestId => s.sendReply requestId true

/-- `_refuse_peer_request`, by the application. -/
def refusePeerRequest (env : AdmissionEnv) (s : Admission) (rid : Nat) : Admission :=
  if env.prof.draft16 then { s with peerRequests := s.peerRequests.erase rid } else s

def isDiscovery (request : PeerRequest) : Bool := (discoveryKind request).isSome

/-- Up to draft 18 the FIN of its stream cancels a discovery request; the rest of its end follows
a loop turn later. -/
def streamFinished (env : AdmissionEnv) (s : Admission) (streamId : Nat) : Admission :=
  match s.bidiStreamRequests.get? streamId with
  | none => s
  | some rid =>
      if (s.peerRequests.get? rid).any isDiscovery ∧ env.draft.number < 20 then
        { s with
          bidiStreamRequests := s.bidiStreamRequests.erase streamId
          peerRequests := s.peerRequests.erase rid }
      else s

/-- `_release_request_stream`, without the REQUEST_UPDATEs of the stream. -/
def releaseRequestStream (env : AdmissionEnv) (s : Admission) (streamId : Nat) : Admission :=
  match s.bidiStreamRequests.get? streamId with
  | none => s
  | some rid =>
      let s := { s with
        bidiStreamRequests := s.bidiStreamRequests.erase streamId
        bidiStreams :=
          if s.bidiStreams.get? rid = some streamId then s.bidiStreams.erase rid
          else s.bidiStreams }
      let s := if rid % 2 ≠ env.ownParity then s.noteRequestGone rid else s
      { s with peerRequests := s.peerRequests.erase rid }

/-- `_handle_unsubscribe_namespace`. -/
def unsubscribeNamespace (s : Admission) (ns : List Bytes) : Admission :=
  { s with
    peerRequests := s.peerRequests.entries.foldl
      (fun requests entry =>
        if entry.2 = .subscribeNamespace ns then requests.erase entry.1 else requests)
      s.peerRequests }

/-- `_handle_request_update`, where no track takes the update. -/
def handleRequestUpdate (env : AdmissionEnv) (s : Admission) (msg : RequestUpdate)
    (publishDone : Option Nat) : Admission :=
  if env.d20 ∧ (msg.existingRequestId.bind s.peerRequests.get?).any isDiscovery then
    s.sendReply msg.requestId false
  else
    let s := s.sendReply msg.requestId false
    if env.d20 then s.updateFailed msg.existingRequestId publishDone else s

end Admission

/-! ## Runs -/

/-- What happens to the tables. -/
inductive AdmissionEvent where
  /-- A message of the peer, its stream bound already or not. -/
  | message (msg : ControlMessage)
  /-- The task of the oldest refusal. -/
  | answer (publishDone : Option Nat)
  /-- UNSUBSCRIBE, FETCH_CANCEL, STOP_SENDING or the end of the request's stream. -/
  | cancelled (requestId : Nat)
  | finished (streamId : Nat)
  | released (streamId : Nat)
  | unsubscribeNamespace (ns : List Bytes)
  | updateUnhandled (msg : RequestUpdate) (publishDone : Option Nat)
  /-- A reply of a handler. -/
  | reply (requestId : Nat) (fin : Bool)
  | refused (requestId : Nat)
  | bindStream (streamId requestId : Nat)
  | bindRequest (requestId : Nat) (entry : RequestEntry)
  | unbindRequest (requestId : Nat)
  | attachTrack (key : List Bytes × Bytes) (track : Nat)
  /-- A request of ours. -/
  | opened (requestId : Nat) (kind : MessageClass)
  | goaway
  | drain

namespace Admission

/-- One event; an error closes the session. -/
def step (env : AdmissionEnv) (s : Admission) : AdmissionEvent → Except MoqtError Admission
  | .message msg => do
      let (s, refused) ← s.admitMessage env msg
      .ok { s with refusals := s.refusals ++ refused.toList }
  | .answer publishDone =>
      match s.refusals with
      | [] => .ok s
      | refused :: rest =>
          .ok (({ s with refusals := rest } : Admission).answer publishDone refused)
  | .cancelled requestId => .ok (s.notifyRequestCancelled requestId)
  | .finished streamId => .ok (s.streamFinished env streamId)
  | .released streamId => .ok (s.releaseRequestStream env streamId)
  | .unsubscribeNamespace ns => .ok (s.unsubscribeNamespace ns)
  | .updateUnhandled msg publishDone => .ok (s.handleRequestUpdate env msg publishDone)
  | .reply requestId fin => .ok (s.sendReply requestId fin)
  | .refused requestId => .ok (s.refusePeerRequest env requestId)
  | .bindStream streamId requestId =>
      .ok { s with
        bidiStreamRequests := s.bidiStreamRequests.insert streamId requestId
        bidiStreams := s.bidiStreams.insert requestId streamId }
  | .bindRequest requestId entry =>
      .ok { s with requests := s.requests.insert requestId entry }
  | .unbindRequest requestId => .ok { s with requests := s.requests.erase requestId }
  | .attachTrack key track =>
      .ok { s with publishedTracks := s.publishedTracks.insert key track }
  | .opened requestId kind => .ok (s.noteRequestKind requestId kind true)
  | .goaway => .ok { s with goawaySent := true }
  | .drain => .ok { s with draining := true }

/-- A run, as long as the session stays open. -/
def run (env : AdmissionEnv) (s : Admission) : List AdmissionEvent → Except MoqtError Admission
  | [] => .ok s
  | event :: events => do
      let s ← s.step env event
      s.run env events

end Admission

end AioMoqt.Session
