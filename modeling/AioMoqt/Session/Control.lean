import AioMoqt.Lib.Incremental
import AioMoqt.Messages.Control
import Mathlib.Data.Finset.Sort

/-!
# Control streams

`_moqt_handle_control_message` and `_on_control_data` of `protocol.py`: a control or
request stream is cut into messages, each message is decoded, given the Request ID of
its stream, checked and dispatched.  What the rest of the session does with a message
is a parameter.
-/

namespace AioMoqt.Session

open AioMoqt.Lib AioMoqt.Lib.BigEndian AioMoqt.Lib.Incremental AioMoqt.Messages

/-! ## Peer request ids -/

def peerRequestSeenCap : Nat := 4096

/-- The peer's Request IDs: all below `low` count as seen, and those of `seen`. -/
structure PeerRequests where
  max : Int := -1
  low : Nat := 0
  seen : Finset Nat := ∅

namespace PeerRequests

/-- `while low in seen`; the size of `seen` is fuel enough. -/
def advance : Nat → Nat → Finset Nat → Nat × Finset Nat
  | 0, low, seen => (low, seen)
  | fuel + 1, low, seen =>
      if low ∈ seen then advance fuel (low + 2) (seen.erase low) else (low, seen)

/-- Past the cap the low-water mark steps over the oldest quarter. -/
def shrink (low : Nat) (seen : Finset Nat) : Nat × Finset Nat :=
  if peerRequestSeenCap < seen.card then
    let low := Nat.max low ((seen.sort (· ≤ ·)).getD (peerRequestSeenCap / 4) 0 + 2)
    (low, seen.filter (low ≤ ·))
  else (low, seen)

/-- `_note_peer_request_id`. -/
def note (self : PeerRequests) (rid parity : Nat) : PeerRequests :=
  let low := if self.low % 2 ≠ parity then self.low + 1 else self.low
  let shrunk := shrink low (insert rid self.seen)
  let advanced := advance shrunk.2.card shrunk.1 shrunk.2
  { max := if self.max < rid then rid else self.max, low := advanced.1, seen := advanced.2 }

/-- An id that came before. -/
def duplicate (self : PeerRequests) (rid : Nat) : Bool := rid < self.low ∨ rid ∈ self.seen

end PeerRequests

/-! ## The session behind a control stream -/

/-- What a control stream reads and changes of its session; `app` is all the rest. -/
structure ControlSession (σ : Type) where
  /-- `_bidi_stream_requests`: the request a stream is bound to. -/
  bidiStreamRequests : Dict Nat Nat
  /-- `_bidi_streams`: the stream of a request. -/
  bidiStreams : Dict Nat Nat
  /-- The peer's REQUEST_UPDATE ids of a stream. -/
  requestStreamUpdates : Dict Nat (List Nat)
  /-- `_tx_updates`: what the replies on our request's stream will answer, `none` for
  the request itself. -/
  txUpdates : Dict Nat (List (Option Nat))
  requestKinds : Dict Nat MessageClass
  trackDefaultPriority : Dict Nat Nat
  peerRequests : PeerRequests
  localRequestMax : Option Nat := none
  unansweredPeerRequests : List Nat := []
  creditRecheck : Bool := false
  /-- The streams that carried a GOAWAY. -/
  peerGoawayStreams : List Nat := []
  controlReadStreamId : Option Nat := none
  /-- Control messages of ours. -/
  sent : List ControlMessage := []
  app : σ

/-- What is fixed while a stream is read, and what the session does besides.  None of
it sees the bytes of the stream. -/
structure ControlEnv (σ : Type) where
  draft : Draft
  isClient : Bool
  /-- `_open_peer_requests`. -/
  openPeerRequests : ControlSession σ → Nat
  /-- `_route_reply`, `_resolve_auth_token`, `_refuse_request`, `_track_handler`, and the
  task of the handler. -/
  dispatch : ControlSession σ → ControlMessage → Except MoqtError (ControlSession σ)
  /-- `_report_goaway`. -/
  reportGoaway : ControlSession σ → GoAway → Option Nat → ControlSession σ
  /-- What `_on_control_data` does with the end of a stream that is not the control
  stream. -/
  streamEnded : ControlSession σ → Nat → Bool → ControlSession σ

def ControlEnv.prof {σ : Type} (env : ControlEnv σ) : DraftProfile := profileFor env.draft

/-! ## Request ids of a message -/

/-- A message whose class has a Request ID that this one came without. -/
def lacksRequestId (msg : ControlMessage) : Bool :=
  match msg with
  | .goAway _ | .subscribeOk _ | .subscribeDone _ | .publishOk _ | .publishStateNotify _
  | .fetchOk _ | .trackStatusOk _ | .publishNamespaceDone _ | .publishNamespaceCancel _
  | .requestOk _ | .requestError _ => msg.requestId = none
  | _ => false

/-- `msg.request_id = rid`. -/
def withRequestId (rid : Nat) : ControlMessage → ControlMessage
  | .goAway msg => .goAway { msg with requestId := some rid }
  | .subscribeOk msg => .subscribeOk { msg with requestId := some rid }
  | .subscribeDone msg => .subscribeDone { msg with requestId := some rid }
  | .publishOk msg => .publishOk { msg with requestId := some rid }
  | .publishStateNotify msg => .publishStateNotify { msg with requestId := some rid }
  | .fetchOk msg => .fetchOk { msg with requestId := some rid }
  | .trackStatusOk msg => .trackStatusOk { msg with requestId := some rid }
  | .publishNamespaceDone msg =>
      .publishNamespaceDone { msg with request := { msg.request with requestId := some rid } }
  | .publishNamespaceCancel msg =>
      .publishNamespaceCancel { msg with request := { msg.request with requestId := some rid } }
  | .requestOk msg => .requestOk { msg with requestId := some rid }
  | .requestError msg => .requestError { msg with requestId := some rid }
  | msg => msg

/-- `_REQUEST_OPENERS`. -/
def isRequestOpener : ControlMessage → Bool
  | .subscribe _ | .fetch _ | .publish _ | .trackStatus _ | .publishNamespace _
  | .subscribeNamespace _ | .subscribeTracks _ => true
  | _ => false

def isRequestUpdate : ControlMessage → Bool
  | .requestUpdate _ => true
  | _ => false

section

variable {σ : Type}

/-- `_next_reply_owner`: the REQUEST_UPDATE a reply answers. -/
def nextReplyOwner (s : ControlSession σ) (requestId : Nat) (msg : ControlMessage) :
    ControlSession σ × Option Nat :=
  match s.txUpdates.get? requestId with
  | some (owner :: rest) =>
      let answers := match msg with
        | .requestOk _ | .requestError _ => true
        | .subscribeOk _ | .fetchOk _ => decide (owner = none)
        | _ => false
      if answers then
        ({ s with txUpdates := if rest = [] then s.txUpdates.erase requestId
            else s.txUpdates.insert requestId rest }, owner)
      else (s, none)
  | _ => (s, none)

/-- The parameters of a REQUEST_OK by what it answers, from draft 20 on. -/
def requestOkScope : Option MessageClass → Option (List Nat)
  | none => some [0x08, 0x09]
  | some .trackStatus => some [0x09]
  | some .publish | some .subscribeNamespace | some .subscribeTracks | some .publishNamespace =>
      some [0x08]
  | some _ => none

/-- `check_param_scope`. -/
def checkParamScope (params : Params) (allowed : Option (List Nat)) (scope : String) :
    Except MoqtError Unit :=
  match allowed.bind fun allowed => params.keys.find? (· ∉ allowed) with
  | none => .ok ()
  | some ptype =>
      let type := hex ptype
      .error (.violation s!"parameter 0x{type} not allowed in {scope}")

/-- `_check_request_ok_scope`. -/
def checkRequestOkScope (s : ControlSession σ) (msg : RequestOk) (requestId : Nat)
    (updateId : Option Nat) : Except MoqtError Unit :=
  if updateId ≠ none then
    checkParamScope msg.parameters (requestOkScope none) "RequestOk:RequestUpdate"
  else match s.requestKinds.get? requestId with
    | none => .ok ()
    | some kind =>
        let name := kind.name
        checkParamScope msg.parameters (requestOkScope (some kind)) s!"RequestOk:{name}"

/-- The reply of a request stream gets the id of what it answers. -/
def injectReplyId (env : ControlEnv σ) (s : ControlSession σ) (requestId : Nat)
    (msg : ControlMessage) : Except MoqtError (ControlSession σ × ControlMessage) := do
  let (s, updateId) := nextReplyOwner s requestId msg
  let msg := withRequestId (updateId.getD requestId) msg
  match msg with
  | .requestOk ok =>
      if 20 ≤ env.prof.paramTable then do
        checkRequestOkScope s ok requestId updateId
        return (s, msg)
      else return (s, msg)
  | _ => return (s, msg)

/-- A REQUEST_UPDATE updates the request of its stream, and is answered there. -/
def bindUpdate (s : ControlSession σ) (requestId : Nat) (msg : RequestUpdate) :
    ControlSession σ × ControlMessage :=
  let bound : ControlMessage :=
    .requestUpdate { msg with existingRequestId := some (msg.existingRequestId.getD requestId) }
  match s.bidiStreams.get? requestId with
  | none => (s, bound)
  | some streamId =>
      let updates := (s.requestStreamUpdates.get? streamId).getD []
      ({ s with
          bidiStreams := s.bidiStreams.insert msg.requestId streamId
          requestStreamUpdates :=
            s.requestStreamUpdates.insert streamId (updates ++ [msg.requestId]) }, bound)

/-- From draft 18 on the Request ID of a message on a bound stream. -/
def injectRequestId (env : ControlEnv σ) (s : ControlSession σ) (requestId : Option Nat)
    (msg : ControlMessage) : Except MoqtError (ControlSession σ × ControlMessage) :=
  match requestId with
  | none => .ok (s, msg)
  | some requestId =>
      if env.prof.replyHasRequestId then .ok (s, msg)
      else if lacksRequestId msg then injectReplyId env s requestId msg
      else match msg with
        | .requestUpdate update => .ok (bindUpdate s requestId update)
        | msg => .ok (s, msg)

def publisherPriority : Nat := 0x0E

/-- `_latch_track_priority` of a SUBSCRIBE_OK or PUBLISH. -/
def latchTrackPriority (s : ControlSession σ) (msg : ControlMessage) : ControlSession σ :=
  let latch (trackAlias : Nat) (exts : Option KeyValuePairs) : ControlSession σ :=
    match exts.bind fun exts => exts.dict.get? publisherPriority with
    | some (.int priority) =>
        { s with trackDefaultPriority := s.trackDefaultPriority.insert trackAlias priority }
    | _ => s
  match msg with
  | .subscribeOk msg => latch msg.trackAlias msg.trackExtensions
  | .publish msg => latch msg.trackAlias msg.trackExtensions
  | _ => s

def requestIdWindow : Nat := 10000
def maxOpenPeerRequests : Nat := 1000

/-- `_extend_request_credit`. -/
def extendRequestCredit (env : ControlEnv σ) (s : ControlSession σ) (rid : Nat) :
    ControlSession σ :=
  match s.localRequestMax with
  | none => s
  | some limit =>
      if rid < limit - requestIdWindow / 2 then s
      else if maxOpenPeerRequests ≤ env.openPeerRequests s then { s with creditRecheck := true }
      else
        { s with
          localRequestMax := some (limit + requestIdWindow)
          sent := s.sent ++ [.maxSubscribeId ⟨limit + requestIdWindow⟩] }

/-- The id of a request of the peer: its parity, not seen before, and within credit. -/
def admitRequestId (env : ControlEnv σ) (s : ControlSession σ) (msg : ControlMessage) (rid : Nat) :
    Except MoqtError (ControlSession σ) :=
  let peerParity := if env.isClient then 1 else 0
  let max := s.peerRequests.max
  let limit := s.localRequestMax.getD 0
  if rid % 2 ≠ peerParity then
    .error (.exception .invalidRequestId s!"peer request_id {rid} has wrong parity")
  else if s.peerRequests.duplicate rid then
    .error (.exception .invalidRequestId s!"duplicate peer request_id {rid} (max seen {max})")
  else if s.localRequestMax.any (· ≤ rid) then
    .error (.exception .tooManyRequests
      s!"peer request_id {rid} at or beyond our MAX_REQUEST_ID {limit}")
  else
    let s := { s with peerRequests := s.peerRequests.note rid peerParity }
    let s := if s.localRequestMax ≠ none ∧ ¬ isRequestUpdate msg then
        { s with unansweredPeerRequests := rid :: s.unansweredPeerRequests }
      else s
    .ok (extendRequestCredit env s rid)

/-- Openers, which come on an unbound stream, and REQUEST_UPDATE use up an id. -/
def checkRequestId (env : ControlEnv σ) (s : ControlSession σ) (requestId : Option Nat)
    (msg : ControlMessage) : Except MoqtError (ControlSession σ) :=
  if (requestId = none ∧ isRequestOpener msg) ∨ isRequestUpdate msg then
    match msg.requestId with
    | some rid => admitRequestId env s msg rid
    | none => .ok s
  else .ok s

/-! ## One message -/

/-- The header of a message. -/
structure Header where
  type : Nat
  msgLen : Nat
  hdrLen : Nat
deriving Repr, DecidableEq

/-- Type and 16-bit Length; `none` while they are not there in full. -/
def pullHeader (prof : DraftProfile) (buf : Bytes) : Option Header :=
  match prof.vint.dec buf with
  | some (type, hi :: lo :: rest) =>
      some { type, msgLen := hi.toNat * 256 + lo.toNat, hdrLen := buf.length - rest.length }
  | _ => none

/-- Header and Length: what a message takes. -/
def Header.extent (header : Header) : Nat := header.hdrLen + header.msgLen

/-- How `_moqt_handle_control_message` ends. -/
inductive Handled (σ : Type) where
  /-- Not all of the message is there. -/
  | underflow
  /-- The session is closed. -/
  | closed (code : SessionCloseCode)
  /-- The message was dispatched, and took `consumed` bytes. -/
  | parsed (msg : ControlMessage) (consumed : Nat) (s : ControlSession σ)

/-- What happens to a body that decoded: `pos` is where the decoder stopped. -/
def handleDecoded (env : ControlEnv σ) (s : ControlSession σ) (requestId : Option Nat)
    (cls : MessageClass) (endPos pos : Nat) (msg : ControlMessage) :
    Except MoqtError (ControlMessage × ControlSession σ) := do
  let name := cls.name
  let past := pos - endPos
  let short := endPos - pos
  if endPos < pos then
    .error (.violation s!"{name} body runs {past} bytes past its Length")
  else do
    let (s, msg) ← injectRequestId env s requestId msg
    let s := latchTrackPriority s msg
    let s ← checkRequestId env s requestId msg
    if pos < endPos then
      .error (.violation s!"{name} body ends {short} bytes short of its Length")
    else do
      let s ← env.dispatch s msg
      return (msg, s)

/-- A message whose header and body are there. -/
def handleBody (env : ControlEnv σ) (s : ControlSession σ) (requestId : Option Nat)
    (header : Header) (buf : Bytes) : Except MoqtError (ControlMessage × ControlSession σ) := do
  let cls ← getControlEntry env.draft header.type
  let (msg, last) ← ControlMessage.decode env.prof header.extent cls
    ⟨header.hdrLen, buf.drop header.hdrLen⟩
  handleDecoded env s requestId cls header.extent last.pos msg

/-- `_moqt_handle_control_message`. -/
def handleControlMessage (env : ControlEnv σ) (s : ControlSession σ) (requestId : Option Nat)
    (buf : Bytes) : Handled σ :=
  match pullHeader env.prof buf with
  | none => .underflow
  | some header =>
      if buf.length < header.extent then .underflow
      else match handleBody env s requestId header buf with
        | .error e => .closed e.closeCode
        | .ok (msg, s) => .parsed msg header.extent s

/-! ## One stream -/

/-- The stream a chunk belongs to. -/
structure StreamRole where
  streamId : Nat
  isRequestBidi : Bool

/-- A message that was dispatched, with the bytes it took. -/
structure Parsed where
  msg : ControlMessage
  consumed : Nat

/-- The messages dispatched from a stream so far, and the session. -/
structure StreamState (σ : Type) where
  log : List Parsed := []
  session : ControlSession σ

/-- A stream whose session was closed, which leaves nothing but the code. -/
structure ClosedStream where
  log : List Parsed
  code : SessionCloseCode

/-- Where a stream stands: waiting with the bytes of its chain, or closed. -/
abbrev Ingest (σ : Type) : Type := Progress (StreamState σ) ClosedStream

/-- The request a stream is bound to. -/
def boundRequest (s : ControlSession σ) (role : StreamRole) : Option Nat :=
  if role.isRequestBidi then s.bidiStreamRequests.get? role.streamId else none

/-- A request stream opens with a request, which binds it. -/
def bindStream (s : ControlSession σ) (role : StreamRole) (msg : ControlMessage) :
    Except SessionCloseCode (ControlSession σ) :=
  if role.isRequestBidi ∧ s.bidiStreamRequests.get? role.streamId = none then
    match msg.requestId with
    | some rid =>
        if isRequestOpener msg then
          .ok { s with
            bidiStreamRequests := s.bidiStreamRequests.insert role.streamId rid
            bidiStreams := s.bidiStreams.insert rid role.streamId }
        else .error .protocolViolation
    | none => .error .protocolViolation
  else .ok s

/-- From draft 18 on only SETUP and GOAWAY ride the control stream. -/
def ridesControl : ControlMessage → Bool
  | .setup _ | .d20Setup _ | .goAway _ => true
  | _ => false

/-- One GOAWAY a stream; on the control stream it names a request of ours. -/
def acceptGoaway (env : ControlEnv σ) (s : ControlSession σ) (role : StreamRole) (msg : GoAway) :
    Except SessionCloseCode (ControlSession σ) :=
  let ownParity := if env.isClient then 0 else 1
  if role.streamId ∈ s.peerGoawayStreams then .error .protocolViolation
  else
    let s := { s with peerGoawayStreams := role.streamId :: s.peerGoawayStreams }
    if ¬ role.isRequestBidi ∧ msg.requestId.any (· % 2 ≠ ownParity) then .error .invalidRequestId
    else .ok (env.reportGoaway s msg (boundRequest s role))

/-- The rules of `_on_control_data` for a message that was dispatched. -/
def afterMessage (env : ControlEnv σ) (s : ControlSession σ) (role : StreamRole)
    (msg : ControlMessage) : Except SessionCloseCode (ControlSession σ) := do
  let s ← bindStream s role msg
  if ¬ role.isRequestBidi ∧ env.prof.controlUniPair ∧ ¬ ridesControl msg then
    .error .protocolViolation
  else match msg with
    | .goAway msg => acceptGoaway env s role msg
    | _ => .ok s

/-- One turn of the loop of `_on_control_data`. -/
def turn (env : ControlEnv σ) (role : StreamRole) (st : StreamState σ) (chain : Bytes) :
    Next (StreamState σ) ClosedStream :=
  match handleControlMessage env st.session (boundRequest st.session role) chain with
  | .underflow => .wait
  | .closed code => .stop ⟨st.log, code⟩
  | .parsed msg consumed s =>
      let log := st.log ++ [{ msg, consumed }]
      match afterMessage env s role msg with
      | .error code => .stop ⟨log, code⟩
      | .ok s => .take consumed ⟨log, s⟩

/-- The end of the stream: inside a message it is fatal on the control stream, and from
draft 20 on for a request; the control stream never ends while its session lives. -/
def endStream (env : ControlEnv σ) (role : StreamRole) (st : StreamState σ) (chain : Bytes) :
    Ingest σ :=
  let isControl : Bool := st.session.controlReadStreamId = some role.streamId
  if chain ≠ [] then
    if isControl ∨ (role.isRequestBidi ∧ env.prof.truncatedRequestCloses) then
      .inr ⟨st.log, .protocolViolation⟩
    else .inl (st, [])
  else if ¬ role.isRequestBidi ∧ isControl then .inr ⟨st.log, .protocolViolation⟩
  else .inl ({ st with session := env.streamEnded st.session role.streamId role.isRequestBidi }, [])

/-- `_on_control_data`: whole messages off the chain, then the end of the stream.  Data
for a closed session is dropped before it gets here. -/
def onControlData (env : ControlEnv σ) (role : StreamRole) (ingest : Ingest σ) (data : Bytes)
    (fin : Bool) : Ingest σ :=
  match feed (turn env role) ingest data with
  | .inl (st, chain) => if fin then endStream env role st chain else .inl (st, chain)
  | .inr closed => .inr closed

end

end AioMoqt.Session
