import AioMoqt.Session.Control
import Mathlib.Logic.Function.Basic

/-!
# Request credit

Up to draft 16 each side tells the other how far its Request IDs may go: MAX_REQUEST_ID in
SETUP, raised while the peer does not hold too many requests open.  The ids of a peer are
checked as its messages are parsed, its credit is taken in by handler tasks that run later, in
the order of the messages.
-/

namespace AioMoqt.Session

open AioMoqt.Lib AioMoqt.Messages

/-- `SetupParamType.MAX_REQUEST_ID`. -/
def setupMaxRequestId : Nat := 0x02

/-- The MAX_REQUEST_ID of a SETUP. -/
def setupLimit (params : Params) : Option Nat :=
  match params.get? setupMaxRequestId with
  | some (.one (.plain (.int limit))) => some limit
  | _ => none

def limitValue (limit : Nat) : Slot ParamValue := .one (.plain (.int limit))

/-- A message that uses up a Request ID. -/
def consumesId (msg : ControlMessage) : Bool :=
  isRequestOpener msg || isRequestUpdate msg || match msg with
    | .subscribeUpdate _ => true
    | _ => false

/-- A message whose handler task takes in what the peer allows. -/
def schedules : ControlMessage → Bool
  | .clientSetup _ | .serverSetup _ | .maxSubscribeId _ => true
  | _ => false

/-- An endpoint: `control` is what it checks of the peer, with all it has sent, and `app` the
peer's requests that hold session state. -/
structure Endpoint where
  isClient : Bool
  control : ControlSession (Finset Nat)
  nextRequestId : Nat
  peerRequestLimit : Option Nat := none
  requestsBlockedSent : Bool := false
  goawayReceived : Bool := false
  /-- Handler tasks that were created and did not run. -/
  tasks : List ControlMessage := []
  /-- How many messages of the peer are parsed. -/
  parsed : Nat := 0
  /-- `_moqt_session_setup` is done. -/
  setupDone : Bool := false
  closed : Option SessionCloseCode := none

namespace Endpoint

variable (e : Endpoint)

/-- `_open_peer_requests`. -/
def openPeerRequests (control : ControlSession (Finset Nat)) : Nat :=
  (control.unansweredPeerRequests.toFinset ∪ control.app).card

/-- What the checks of a peer's Request ID read. -/
def env : ControlEnv (Finset Nat) where
  draft := .d16
  isClient := e.isClient
  openPeerRequests := openPeerRequests
  dispatch control _ := .ok control
  reportGoaway control _ _ := control
  streamEnded control _ _ := control

/-- A new session. -/
def new (isClient : Bool) : Endpoint where
  isClient := isClient
  control := {
    bidiStreamRequests := .empty
    bidiStreams := .empty
    requestStreamUpdates := .empty
    txUpdates := .empty
    requestKinds := .empty
    trackDefaultPriority := .empty
    peerRequests := {}
    app := ∅ }
  nextRequestId := if isClient then 0 else 1

/-- `send_control_message`: an answer settles its request. -/
def send (msg : ControlMessage) : Endpoint :=
  { e with control := { e.control with
      unansweredPeerRequests :=
        e.control.unansweredPeerRequests.filter fun rid => msg.requestId ≠ some rid
      sent := e.control.sent ++ [msg] } }

def close (code : SessionCloseCode) : Endpoint := { e with closed := some code }

/-- `_allocate_request_id`: none where the request is refused. -/
def allocateRequestId (opener : Bool) : Option Nat × Endpoint :=
  if opener ∧ e.goawayReceived then (none, e)
  else match e.peerRequestLimit with
    | some limit =>
        if limit ≤ e.nextRequestId then
          (none, if e.requestsBlockedSent then e
            else { e with requestsBlockedSent := true }.send (.subscribesBlocked ⟨limit⟩))
        else (some e.nextRequestId, { e with nextRequestId := e.nextRequestId + 2 })
    | none => (some e.nextRequestId, { e with nextRequestId := e.nextRequestId + 2 })

/-- A request or an update is sent, unless it is refused. -/
def request (msg : ControlMessage) : Endpoint :=
  match e.allocateRequestId (isRequestOpener msg) with
  | (some _, e) => e.send msg
  | (none, e) => e

/-- CLIENT_SETUP as `client_session_init` sends it. -/
def clientSetup (params : Params) : Endpoint :=
  { e with control := { e.control with localRequestMax := some requestIdWindow } }.send
    (.clientSetup { parameters := params.insert setupMaxRequestId (limitValue requestIdWindow) })

/-- `server_setup`: a MAX_REQUEST_ID among `params` is sent as it is. -/
def serverSetup (params : Params) : Endpoint :=
  { e with control := { e.control with localRequestMax := some requestIdWindow } }.send
    (.serverSetup { parameters :=
      if setupMaxRequestId ∈ params.keys then params
      else params.insert setupMaxRequestId (limitValue requestIdWindow) })

/-- `_ingest_request_limit`; `tolerate` is `_tolerate_missing_request_credit`. -/
def ingestRequestLimit (tolerate : Bool) (params : Params) : Endpoint :=
  match setupLimit params with
  | some limit => { e with peerRequestLimit := some limit }
  | none => { e with peerRequestLimit := if tolerate then none else some 0 }

/-- `_handle_server_setup`. -/
def handleServerSetup (tolerate : Bool) (msg : ServerSetup) : Endpoint :=
  if ¬ e.isClient ∨ e.setupDone then e.close .protocolViolation
  else { e.ingestRequestLimit tolerate msg.parameters with setupDone := true }

/-- `_handle_client_setup`, whose answer carries `params`. -/
def handleClientSetup (tolerate : Bool) (msg : ClientSetup) (params : Params) : Endpoint :=
  if e.isClient ∨ e.setupDone then e.close .protocolViolation
  else { (e.ingestRequestLimit tolerate msg.parameters).serverSetup params with setupDone := true }

/-- `_handle_max_request_id`. -/
def handleMaxRequestId (new : Nat) : Endpoint :=
  if e.peerRequestLimit.any (new ≤ ·) then e.close .protocolViolation
  else { e with peerRequestLimit := some new, requestsBlockedSent := false }

/-- The first handler task runs. -/
def handle (tolerate : Bool) (params : Params) : Endpoint :=
  match e.tasks with
  | [] => e
  | .clientSetup msg :: tasks => { e with tasks }.handleClientSetup tolerate msg params
  | .serverSetup msg :: tasks => { e with tasks }.handleServerSetup tolerate msg
  | .maxSubscribeId msg :: tasks => { e with tasks }.handleMaxRequestId msg.requestId
  | _ :: tasks => { e with tasks }

/-- A message of the peer is parsed. -/
def parse (msg : ControlMessage) : Endpoint :=
  match checkRequestId e.env e.control none msg with
  | .error err => { e with parsed := e.parsed + 1 }.close err.closeCode
  | .ok control =>
      { e with
        control
        parsed := e.parsed + 1
        tasks := if schedules msg then e.tasks ++ [msg] else e.tasks }

/-- `_recheck_request_credit`, when its timer is set. -/
def recheck : Endpoint :=
  if e.control.creditRecheck then
    let control := { e.control with creditRecheck := false }
    { e with control := extendRequestCredit e.env control control.peerRequests.max.toNat }
  else e

end Endpoint

/-! ## Two endpoints -/

inductive Side where
  | client | server
deriving Repr, DecidableEq

def Side.other : Side → Side
  | .client => .server
  | .server => .client

/-- Two endpoints; what one has sent and the other not parsed is on its way, in order. -/
abbrev Link : Type := Side → Endpoint

def Link.new : Link := fun side => Endpoint.new (side = .client)

/-- What happens at an endpoint. -/
inductive CreditEvent where
  /-- CLIENT_SETUP is sent. -/
  | setup (params : Params)
  /-- The next message of the peer arrives. -/
  | parse
  /-- The first handler task runs; `params` are the options of a SERVER_SETUP. -/
  | handle (params : Params)
  /-- A new request or an update. -/
  | request (msg : ControlMessage)
  /-- A request whose id is used up and that fails before it is sent. -/
  | abandon (opener : Bool)
  /-- An answer or another message that uses up no id and raises no limit. -/
  | answer (msg : ControlMessage)
  /-- Other requests of the peer hold session state. -/
  | hold (requests : Finset Nat)
  | recheck
  | goaway

/-- An endpoint and its event, with the messages the peer has sent. -/
def Endpoint.step (tolerate : Bool) (e : Endpoint) (sent : List ControlMessage) :
    CreditEvent → Option Endpoint
  | .setup params =>
      if e.isClient ∧ e.control.localRequestMax = none then some (e.clientSetup params) else none
  | .parse => sent[e.parsed]?.map e.parse
  | .handle params => if e.tasks = [] then none else some (e.handle tolerate params)
  | .request msg =>
      if consumesId msg ∧ msg.requestId = some e.nextRequestId then some (e.request msg) else none
  | .abandon opener => some (e.allocateRequestId opener).2
  | .answer msg =>
      if ¬ consumesId msg ∧ ¬ schedules msg ∧ msg.cls ≠ .subscribesBlocked then some (e.send msg)
      else none
  | .hold requests => some { e with control := { e.control with app := requests } }
  | .recheck => some e.recheck
  | .goaway => some { e with goawayReceived := true }

/-- A step of the pair: one endpoint that is not closed has an event. -/
def Link.step (tolerate : Bool) (s : Link) (side : Side) (event : CreditEvent) : Option Link :=
  if (s side).closed = none then
    ((s side).step tolerate (s side.other).control.sent event).map (Function.update s side)
  else none

end AioMoqt.Session
