import AioMoqt.Messages.Namespace

/-!
# The control messages of a draft

The message classes behind `CONTROL_REGISTRY`: which class a wire type selects in
each draft, and the codec of a message whatever its class.
-/

namespace AioMoqt.Messages

open AioMoqt.Lib AioMoqt.Lib.BigEndian

inductive ControlMessage where
  | clientSetup (msg : ClientSetup)
  | serverSetup (msg : ServerSetup)
  | setup (msg : Setup)
  | d20Setup (msg : D20Setup)
  | goAway (msg : GoAway)
  | maxSubscribeId (msg : MaxSubscribeId)
  | subscribesBlocked (msg : SubscribesBlocked)
  | subscribe (msg : Subscribe)
  | subscribeOk (msg : SubscribeOk)
  | subscribeError (msg : SubscribeError)
  | subscribeUpdate (msg : SubscribeUpdate)
  | unsubscribe (msg : Unsubscribe)
  | subscribeDone (msg : SubscribeDone)
  | publish (msg : Publish)
  | publishOk (msg : PublishOk)
  | publishError (msg : PublishError)
  | publishStateNotify (msg : PublishStateNotify)
  | fetch (msg : Fetch)
  | fetchOk (msg : FetchOk)
  | fetchError (msg : FetchError)
  | fetchCancel (msg : FetchCancel)
  | trackStatus (msg : TrackStatus)
  | trackStatusOk (msg : TrackStatusOk)
  | trackStatusError (msg : TrackStatusError)
  | publishNamespace (msg : PublishNamespace)
  | publishNamespaceOk (msg : PublishNamespaceOk)
  | publishNamespaceError (msg : PublishNamespaceError)
  | publishNamespaceDone (msg : PublishNamespaceDone)
  | publishNamespaceCancel (msg : PublishNamespaceCancel)
  | subscribeNamespace (msg : SubscribeNamespace)
  | subscribeNamespaceOk (msg : SubscribeNamespaceOk)
  | subscribeNamespaceError (msg : SubscribeNamespaceError)
  | unsubscribeNamespace (msg : UnsubscribeNamespace)
  | subscribeTracks (msg : SubscribeTracks)
  | publishBlocked (msg : PublishBlocked)
  | requestOk (msg : RequestOk)
  | requestError (msg : RequestError)
  | requestUpdate (msg : RequestUpdate)
  | messageNamespace (msg : Namespace)
  | namespaceDone (msg : NamespaceDone)

namespace ControlMessage

def cls : ControlMessage → MessageClass
  | clientSetup _ => .clientSetup
  | serverSetup _ => .serverSetup
  | setup _ => .setup
  | d20Setup _ => .d20Setup
  | goAway _ => .goAway
  | maxSubscribeId _ => .maxSubscribeId
  | subscribesBlocked _ => .subscribesBlocked
  | subscribe _ => .subscribe
  | subscribeOk _ => .subscribeOk
  | subscribeError _ => .subscribeError
  | subscribeUpdate _ => .subscribeUpdate
  | unsubscribe _ => .unsubscribe
  | subscribeDone _ => .subscribeDone
  | publish _ => .publish
  | publishOk _ => .publishOk
  | publishError _ => .publishError
  | publishStateNotify _ => .publishStateNotify
  | fetch _ => .fetch
  | fetchOk _ => .fetchOk
  | fetchError _ => .fetchError
  | fetchCancel _ => .fetchCancel
  | trackStatus _ => .trackStatus
  | trackStatusOk _ => .trackStatusOk
  | trackStatusError _ => .trackStatusError
  | publishNamespace _ => .publishNamespace
  | publishNamespaceOk _ => .publishNamespaceOk
  | publishNamespaceError _ => .publishNamespaceError
  | publishNamespaceDone _ => .publishNamespaceDone
  | publishNamespaceCancel _ => .publishNamespaceCancel
  | subscribeNamespace _ => .subscribeNamespace
  | subscribeNamespaceOk _ => .subscribeNamespaceOk
  | subscribeNamespaceError _ => .subscribeNamespaceError
  | unsubscribeNamespace _ => .unsubscribeNamespace
  | subscribeTracks _ => .subscribeTracks
  | publishBlocked _ => .publishBlocked
  | requestOk _ => .requestOk
  | requestError _ => .requestError
  | requestUpdate _ => .requestUpdate
  | messageNamespace _ => .messageNamespace
  | namespaceDone _ => .namespaceDone

/-- The body each class's `serialize` puts behind type and length. -/
def body (prof : DraftProfile) : ControlMessage → Except MoqtError Bytes
  | clientSetup msg => msg.body prof
  | serverSetup msg => msg.body prof
  | setup msg => msg.body prof
  | d20Setup msg => msg.body prof
  | goAway msg => msg.body prof
  | maxSubscribeId msg => msg.body prof.vint
  | subscribesBlocked msg => msg.body prof.vint
  | subscribe msg => msg.body prof
  | subscribeOk msg => msg.body prof
  | subscribeError msg => msg.body prof
  | subscribeUpdate msg => msg.body prof
  | unsubscribe msg => msg.body prof.vint
  | subscribeDone msg => msg.body prof
  | publish msg => msg.body prof
  | publishOk msg => msg.body prof
  | publishError msg => msg.body prof
  | publishStateNotify msg => msg.body prof
  | fetch msg => msg.body prof
  | fetchOk msg => msg.body prof
  | fetchError msg => FetchError.body msg
  | fetchCancel msg => msg.body Buffer.rfc9000
  | trackStatus msg => msg.body prof
  | trackStatusOk msg => TrackStatusOk.body msg prof
  | trackStatusError msg => msg.body prof
  | publishNamespace msg => msg.body prof
  | publishNamespaceOk msg => msg.body prof.vint
  | publishNamespaceError msg => msg.body prof
  | publishNamespaceDone msg => msg.body prof
  | publishNamespaceCancel msg => msg.body prof
  | subscribeNamespace msg => msg.body prof
  | subscribeNamespaceOk msg => msg.body prof.vint
  | subscribeNamespaceError msg => msg.body prof
  | unsubscribeNamespace msg => msg.body prof
  | subscribeTracks msg => msg.body prof
  | publishBlocked msg => msg.body prof
  | requestOk msg => msg.body prof
  | requestError msg => msg.body prof
  | requestUpdate msg => msg.body prof
  | messageNamespace msg => msg.body prof
  | namespaceDone msg => msg.body prof

/-- `cls.deserialize(buf, prof=prof, buf_end=buf_end)`. -/
def deserialize (prof : DraftProfile) (bufEnd : Nat) :
    MessageClass → Reader MoqtError ControlMessage
  | .clientSetup => clientSetup <$> ClientSetup.deserialize prof bufEnd
  | .serverSetup => serverSetup <$> ServerSetup.deserialize prof bufEnd
  | .setup => setup <$> Setup.deserialize prof bufEnd
  | .d20Setup => d20Setup <$> D20Setup.deserialize prof bufEnd
  | .goAway => goAway <$> GoAway.deserialize prof bufEnd
  | .maxSubscribeId => maxSubscribeId <$> RequestIdMessage.deserialize prof
  | .subscribesBlocked => subscribesBlocked <$> RequestIdMessage.deserialize prof
  | .subscribe => subscribe <$> Subscribe.deserialize prof bufEnd
  | .subscribeOk => subscribeOk <$> SubscribeOk.deserialize prof bufEnd
  | .subscribeError => subscribeError <$> ErrorMessage.deserialize prof
  | .subscribeUpdate => subscribeUpdate <$> SubscribeUpdate.deserialize prof bufEnd
  | .unsubscribe => unsubscribe <$> RequestIdMessage.deserialize prof
  | .subscribeDone => subscribeDone <$> SubscribeDone.deserialize prof
  | .publish => publish <$> Publish.deserialize prof bufEnd
  | .publishOk => publishOk <$> PublishOk.deserialize prof bufEnd
  | .publishError => publishError <$> ErrorMessage.deserialize prof
  | .publishStateNotify => publishStateNotify <$> PublishStateNotify.deserialize prof bufEnd
  | .fetch => fetch <$> Fetch.deserialize prof bufEnd
  | .fetchOk => fetchOk <$> FetchOk.deserialize prof bufEnd
  | .fetchError => fetchError <$> ErrorMessage.deserialize prof
  | .fetchCancel => fetchCancel <$> RequestIdMessage.deserialize prof
  | .trackStatus => trackStatus <$> TrackStatus.deserialize prof bufEnd
  | .trackStatusOk => trackStatusOk <$> TrackStatusOk.deserialize prof bufEnd
  | .trackStatusError => trackStatusError <$> ErrorMessage.deserialize prof
  | .publishNamespace => publishNamespace <$> PublishNamespace.deserialize prof bufEnd
  | .publishNamespaceOk => publishNamespaceOk <$> RequestIdMessage.deserialize prof
  | .publishNamespaceError => publishNamespaceError <$> ErrorMessage.deserialize prof
  | .publishNamespaceDone => publishNamespaceDone <$> PublishNamespaceDone.deserialize prof
  | .publishNamespaceCancel => publishNamespaceCancel <$> PublishNamespaceCancel.deserialize prof
  | .subscribeNamespace => subscribeNamespace <$> SubscribeNamespace.deserialize prof bufEnd
  | .subscribeNamespaceOk => subscribeNamespaceOk <$> RequestIdMessage.deserialize prof
  | .subscribeNamespaceError => subscribeNamespaceError <$> ErrorMessage.deserialize prof
  | .unsubscribeNamespace => unsubscribeNamespace <$> NamespaceMessage.deserialize prof
  | .subscribeTracks => subscribeTracks <$> SubscribeTracks.deserialize prof bufEnd
  | .publishBlocked => publishBlocked <$> PublishBlocked.deserialize prof
  | .requestOk => requestOk <$> RequestOk.deserialize prof bufEnd
  | .requestError => requestError <$> RequestError.deserialize prof bufEnd
  | .requestUpdate => requestUpdate <$> RequestUpdate.deserialize prof bufEnd
  | .messageNamespace => messageNamespace <$> NamespaceMessage.deserialize prof
  | .namespaceDone => namespaceDone <$> NamespaceMessage.deserialize prof

/-- `MOQTMessage.decode`: a data-dependent failure the codec did not anticipate is a
protocol violation. -/
def decode (prof : DraftProfile) (bufEnd : Nat) (cls : MessageClass) :
    Reader MoqtError ControlMessage := fun cur =>
  let name := cls.name
  match deserialize prof bufEnd cls cur with
  | .error (.valueError _) => .error (.violation s!"malformed {name}: ValueError")
  | result => result

/-- The request a message is, or answers. -/
def requestId : ControlMessage → Option Nat
  | goAway msg => msg.requestId
  | subscribe msg => some msg.requestId
  | subscribeOk msg => msg.requestId
  | subscribeError msg => some msg.requestId
  | subscribeUpdate msg => some msg.requestId
  | unsubscribe msg => some msg.requestId
  | maxSubscribeId msg => some msg.requestId
  | subscribeDone msg => msg.requestId
  | publish msg => some msg.requestId
  | publishOk msg => msg.requestId
  | publishError msg => some msg.requestId
  | publishStateNotify msg => msg.requestId
  | fetch msg => some msg.requestId
  | fetchOk msg => msg.requestId
  | fetchError msg => some msg.requestId
  | fetchCancel msg => some msg.requestId
  | trackStatus msg => some msg.requestId
  | trackStatusOk msg => msg.requestId
  | trackStatusError msg => some msg.requestId
  | publishNamespace msg => some msg.requestId
  | publishNamespaceOk msg => some msg.requestId
  | publishNamespaceError msg => some msg.requestId
  | publishNamespaceDone msg => msg.request.requestId
  | publishNamespaceCancel msg => msg.request.requestId
  | subscribeNamespace msg => some msg.requestId
  | subscribeNamespaceOk msg => some msg.requestId
  | subscribeNamespaceError msg => some msg.requestId
  | subscribeTracks msg => some msg.requestId
  | requestOk msg => msg.requestId
  | requestError msg => msg.requestId
  | requestUpdate msg => some msg.requestId
  | _ => none

/-- `getattr(msg, 'parameters', None)`. -/
def parameters : ControlMessage → Option Params
  | clientSetup msg => some msg.parameters
  | serverSetup msg => some msg.parameters
  | subscribe msg => some msg.parameters
  | subscribeOk msg => some msg.parameters
  | subscribeUpdate msg => some msg.parameters
  | publish msg => some msg.parameters
  | publishOk msg => some msg.parameters
  | publishStateNotify msg => some msg.parameters
  | fetch msg => some msg.parameters
  | fetchOk msg => some msg.parameters
  | trackStatus msg => some msg.parameters
  | trackStatusOk msg => some msg.parameters
  | publishNamespace msg => some msg.parameters
  | subscribeNamespace msg => some msg.parameters
  | subscribeTracks msg => some msg.parameters
  | requestOk msg => some msg.parameters
  | requestUpdate msg => some msg.parameters
  | _ => none

end ControlMessage

/-! ## Wire types -/

/-- The type a class is sent with. -/
def MessageClass.type : MessageClass → Nat
  | .subscribeUpdate | .requestUpdate => 0x02
  | .subscribe => 0x03
  | .subscribeOk => 0x04
  | .subscribeError | .requestError => 0x05
  | .publishNamespace => 0x06
  | .publishNamespaceOk | .requestOk => 0x07
  | .publishNamespaceError | .messageNamespace => 0x08
  | .publishNamespaceDone => 0x09
  | .unsubscribe => 0x0A
  | .subscribeDone => 0x0B
  | .publishNamespaceCancel => 0x0C
  | .trackStatus => 0x0D
  | .trackStatusOk | .namespaceDone => 0x0E
  | .trackStatusError | .publishBlocked => 0x0F
  | .goAway => 0x10
  | .subscribeNamespace => 0x11
  | .subscribeNamespaceOk => 0x12
  | .subscribeNamespaceError => 0x13
  | .unsubscribeNamespace => 0x14
  | .maxSubscribeId => 0x15
  | .fetch => 0x16
  | .fetchCancel => 0x17
  | .fetchOk => 0x18
  | .fetchError => 0x19
  | .subscribesBlocked => 0x1A
  | .publish => 0x1D
  | .publishOk => 0x1E
  | .publishError => 0x1F
  | .clientSetup => 0x20
  | .serverSetup => 0x21
  | .publishStateNotify => 0x22
  | .subscribeTracks => 0x51
  | .setup | .d20Setup => 0x2F00

/-- `wire_control_type`: draft 18 renumbers two types. -/
def wireControlType (prof : DraftProfile) (cls : MessageClass) : Nat :=
  if prof.draft18 then
    match cls with
    | .subscribeNamespace => 0x50
    | .publishOk => 0x07
    | cls => cls.type
  else cls.type

/-- The codec of the type: most classes write it as an RFC 9000 integer, which is one
byte in either codec. -/
def MessageClass.typeCode (prof : DraftProfile) : MessageClass → PrefixCode
  | .goAway | .subscribeNamespace | .subscribeTracks | .publishBlocked | .fetch | .fetchOk
  | .publishStateNotify | .d20Setup => prof.vint
  | .setup => Buffer.vi64
  | _ => Buffer.rfc9000

/-- `serialize`: type, 16-bit length and body. -/
def ControlMessage.serialize (prof : DraftProfile) (msg : ControlMessage) :
    Except MoqtError Bytes := do
  let body ← msg.body prof
  frame (msg.cls.typeCode prof) (wireControlType prof msg.cls) body

/-- `MOQT_CONTROL_MESSAGE_REGISTRY`: draft 14. -/
def d14Registry : List (Nat × MessageClass) :=
  [(0x20, .clientSetup), (0x21, .serverSetup), (0x02, .subscribeUpdate), (0x03, .subscribe),
    (0x04, .subscribeOk), (0x05, .subscribeError), (0x06, .publishNamespace),
    (0x07, .publishNamespaceOk), (0x08, .publishNamespaceError), (0x09, .publishNamespaceDone),
    (0x0C, .publishNamespaceCancel), (0x0A, .unsubscribe), (0x0B, .subscribeDone),
    (0x15, .maxSubscribeId), (0x1A, .subscribesBlocked), (0x0D, .trackStatus),
    (0x0E, .trackStatusOk), (0x0F, .trackStatusError), (0x10, .goAway),
    (0x11, .subscribeNamespace), (0x12, .subscribeNamespaceOk), (0x13, .subscribeNamespaceError),
    (0x14, .unsubscribeNamespace), (0x16, .fetch), (0x17, .fetchCancel), (0x18, .fetchOk),
    (0x19, .fetchError), (0x1D, .publish), (0x1E, .publishOk), (0x1F, .publishError)]

/-- Draft 16: five types repurposed, the types of draft 14 only pruned. -/
def d16Registry : List (Nat × MessageClass) :=
  [(0x20, .clientSetup), (0x21, .serverSetup), (0x02, .requestUpdate), (0x03, .subscribe),
    (0x04, .subscribeOk), (0x05, .requestError), (0x06, .publishNamespace), (0x07, .requestOk),
    (0x08, .messageNamespace), (0x09, .publishNamespaceDone), (0x0C, .publishNamespaceCancel),
    (0x0A, .unsubscribe), (0x0B, .subscribeDone), (0x15, .maxSubscribeId),
    (0x1A, .subscribesBlocked), (0x0D, .trackStatus), (0x0E, .namespaceDone), (0x10, .goAway),
    (0x11, .subscribeNamespace), (0x16, .fetch), (0x17, .fetchCancel), (0x18, .fetchOk),
    (0x1D, .publish), (0x1E, .publishOk)]

/-- Draft 18: a symmetric SETUP, and no cancellation messages. -/
def d18Registry : List (Nat × MessageClass) :=
  [(0x2F00, .setup), (0x02, .requestUpdate), (0x03, .subscribe), (0x04, .subscribeOk),
    (0x05, .requestError), (0x06, .publishNamespace), (0x07, .requestOk),
    (0x08, .messageNamespace), (0x0B, .subscribeDone), (0x0D, .trackStatus),
    (0x0E, .namespaceDone), (0x0F, .publishBlocked), (0x10, .goAway),
    (0x50, .subscribeNamespace), (0x51, .subscribeTracks), (0x16, .fetch), (0x18, .fetchOk),
    (0x1D, .publish), (0x1E, .publishOk)]

/-- Drafts 20 and 22: PUBLISH_OK is reserved, PUBLISH_STATE_NOTIFY new. -/
def d20Registry : List (Nat × MessageClass) :=
  [(0x2F00, .d20Setup), (0x02, .requestUpdate), (0x03, .subscribe), (0x04, .subscribeOk),
    (0x05, .requestError), (0x06, .publishNamespace), (0x07, .requestOk),
    (0x08, .messageNamespace), (0x0B, .subscribeDone), (0x0D, .trackStatus),
    (0x0E, .namespaceDone), (0x0F, .publishBlocked), (0x10, .goAway),
    (0x50, .subscribeNamespace), (0x51, .subscribeTracks), (0x16, .fetch), (0x18, .fetchOk),
    (0x1D, .publish), (0x22, .publishStateNotify)]

/-- `CONTROL_REGISTRY`. -/
def controlRegistry : Draft → List (Nat × MessageClass)
  | .d14 => d14Registry
  | .d16 => d16Registry
  | .d18 => d18Registry
  | .d20 | .d22 => d20Registry

/-- `_get_control_entry`: a type outside the draft's table closes the session. -/
def getControlEntry (draft : Draft) (type : Nat) : Except MoqtError MessageClass :=
  let name := hex type
  let number := draft.number
  match (controlRegistry draft).lookup type with
  | some cls => .ok cls
  | none => .error (.violation s!"control message type 0x{name} not valid for draft-{number}")

end AioMoqt.Messages
