import AioMoqt.Lib.LastSaid
import AioMoqt.Messages.Base
import AioMoqt.Lib.Dict

/-!
# The namespaces that a relay knows

The tables of `tools/moq_interop_relay.py` that say which namespaces exist, the handlers that
change them, and the NAMESPACE and NAMESPACE_DONE that its prefix subscribers are sent.  Of a track
the tables keep who publishes it; draft 14, which is sent PUBLISH_NAMESPACE instead, the caps on a
session and the catalogs are left out.
-/

namespace AioMoqt.Relay

open AioMoqt.Lib AioMoqt.Lib.BigEndian

/-- What `_ns_tuple` makes of a namespace. -/
abbrev NsTuple : Type := List Bytes

/-- An entry of `_ns_subs`. -/
structure NsSub where
  session : Nat
  nsPrefix : NsTuple
  requestId : Nat
deriving Repr, DecidableEq

/-- `track.upstream`: the publisher of a bare PUBLISH, or our subscription with its session. -/
inductive Upstream where
  | publisher (session : Nat)
  | subscription (session : Option Nat)
deriving Repr, DecidableEq

/-- What the tables read of a `_RelayedTrack`; `pendingPublish` is the session of the PUBLISH. -/
structure RegisteredTrack where
  upstream : Option Upstream := none
  pendingPublish : Option Nat := none
  finished : Bool := false
deriving Repr, DecidableEq

namespace RegisteredTrack

/-- `_upstream_session`. -/
def upstreamSession (track : RegisteredTrack) : Option Nat :=
  match track.upstream with
  | none => none
  | some (.publisher session) => some session
  | some (.subscription session) => session

/-- `_upstream_session(track) or` the session of the pending PUBLISH. -/
def owner (track : RegisteredTrack) : Option Nat :=
  track.upstreamSession.or track.pendingPublish

/-- The upstream is a subscription of ours. -/
def subscribed (track : RegisteredTrack) : Bool :=
  match track.upstream with
  | some (.subscription _) => true
  | _ => false

end RegisteredTrack

/-- What a prefix subscriber is sent about a namespace. -/
inductive NsNotice where
  /-- NAMESPACE. -/
  | ns
  /-- NAMESPACE_DONE. -/
  | nsDone
deriving Repr, DecidableEq

/-- The session, the request and the suffix of a notice. -/
abbrev NoticeKey : Type := Nat × Nat × NsTuple

/-- The tables of the relay, with the notices it sent so far. -/
structure NsTables where
  /-- `_announced`. -/
  announced : Dict NsTuple (Dict Nat Nat) := .empty
  /-- `_announce_requests`. -/
  announceRequests : Dict (Nat × Nat) NsTuple := .empty
  /-- `_tracks`. -/
  tracks : Dict (NsTuple × Bytes) RegisteredTrack := .empty
  /-- `_ns_subs`. -/
  nsSubs : List NsSub := []
  /-- The sessions that have closed. -/
  closed : List Nat := []
  /-- The requests that the sessions have opened. -/
  opened : List (Nat × Nat) := []
  sent : List (NoticeKey × NsNotice) := []

/-- `_prefix_covers`. -/
def prefixCovers (nsPrefix ns : NsTuple) : Bool := ns.take nsPrefix.length = nsPrefix

/-- The notice that a subscriber is sent about a namespace. -/
def NsSub.key (sub : NsSub) (ns : NsTuple) : NoticeKey :=
  (sub.session, sub.requestId, ns.drop sub.nsPrefix.length)

namespace NsTables

variable (t : NsTables)

/-- `_session_live`. -/
def sessionLive (session : Nat) : Bool := session ∉ t.closed

/-- The loop over `_ns_subs`: a notice to each live subscriber whose prefix covers the namespace. -/
def notify (ns : NsTuple) (notice : NsNotice) : NsTables :=
  { t with
    sent := t.sent ++ (t.nsSubs.filter fun sub =>
      prefixCovers sub.nsPrefix ns && t.sessionLive sub.session).map fun sub =>
        (sub.key ns, notice) }

/-- `_announce_namespace`. -/
def announceNamespace (ns : NsTuple) : NsTables := t.notify ns .ns

/-- `_retract_namespace`. -/
def retractNamespace (ns : NsTuple) : NsTables := t.notify ns .nsDone

/-- `_known_namespaces`. -/
def knownNamespaces (nsPrefix : NsTuple) : List NsTuple :=
  ((t.announced.keys ++ t.tracks.keys.map Prod.fst).eraseDups).filter (prefixCovers nsPrefix)

/-! ## Announcements -/

/-- The test of `_supersede_namespace`: a track of a namespace above or below, whose owner has
closed. -/
def superseded (ns : NsTuple) (session : Nat) (key : NsTuple × Bytes) (track : RegisteredTrack) :
    Bool :=
  (key.1.take ns.length = ns ∨ ns.take key.1.length = key.1) ∧
    track.owner.any fun owner => owner ≠ session ∧ t.sessionLive owner = false

/-- `_supersede_namespace`. -/
def supersedeNamespace (ns : NsTuple) (session : Nat) : NsTables :=
  { t with tracks := t.tracks.filter fun key track => !t.superseded ns session key track }

/-- `holders[session] = holders.get(session, 0) + 1`. -/
def hold (ns : NsTuple) (session : Nat) : NsTables :=
  let holders := (t.announced.get? ns).getD .empty
  { t with announced :=
      t.announced.insert ns (holders.insert session ((holders.get? session).getD 0 + 1)) }

/-- `_on_publish_namespace`. -/
def onPublishNamespace (session requestId : Nat) (ns : NsTuple) : NsTables :=
  let t := (t.supersedeNamespace ns session).hold ns session
  let t := { t with
    announceRequests := t.announceRequests.insert (session, requestId) ns
    opened := (session, requestId) :: t.opened }
  t.announceNamespace ns

/-- What is left of the holders; the last of them takes the namespace along. -/
def putHolders (ns : NsTuple) (holders : Dict Nat Nat) : NsTables :=
  if holders.keys = [] then
    { t with announced := t.announced.erase ns }.retractNamespace ns
  else { t with announced := t.announced.insert ns holders }

/-- A hold is given back. -/
def releaseHold (session : Nat) (ns : NsTuple) : NsTables :=
  match t.announced.get? ns with
  | none => t
  | some holders =>
      match holders.get? session with
      | none => t
      | some held =>
          t.putHolders ns
            (if held ≤ 1 then holders.erase session else holders.insert session (held - 1))

/-- The request that a withdrawal means: the one it names, or the first for the namespace. -/
def withdrawnRequest (session : Nat) (requestId : Option Nat) (ns : Option NsTuple) : Option Nat :=
  requestId.or
    ((t.announceRequests.entries.find? fun entry =>
      entry.1.1 = session ∧ some entry.2 = ns).map fun entry => entry.1.2)

/-- `_withdraw_namespace`. -/
def withdrawNamespace (session : Nat) (requestId : Option Nat) (ns : Option NsTuple) : NsTables :=
  match t.withdrawnRequest session requestId ns with
  | none => t
  | some requestId =>
      match t.announceRequests.get? (session, requestId) with
      | none => t
      | some ns =>
          { t with announceRequests := t.announceRequests.erase (session, requestId) }.releaseHold
            session ns

/-! ## Tracks -/

/-- `_drop_track`. -/
def dropTrack (key : NsTuple × Bytes) : NsTables := { t with tracks := t.tracks.erase key }

/-- A track that a PUBLISH registers, and the notice of its namespace. -/
def registerTrack (session : Nat) (key : NsTuple × Bytes) (track : RegisteredTrack) : NsTables :=
  { t with
    tracks := t.tracks.insert key { track with pendingPublish := some session } }.announceNamespace
      key.1

/-- `_on_publish`; `mandatory` says whether the track has properties the relay does not know. -/
def onPublish (session : Nat) (key : NsTuple × Bytes) (mandatory : Bool) : NsTables :=
  if mandatory then t
  else match t.tracks.get? key with
    | none => t.registerTrack session key {}
    | some track =>
        if track.owner = some session ∧ track.finished = false ∧ track.subscribed then t
        else if track.finished ∨ track.owner ≠ some session then
          (t.dropTrack key).registerTrack session key {}
        else t.registerTrack session key track

/-! ## Subscribers -/

/-- `_on_subscribe_namespace`, of a subscriber that is sent NAMESPACE. -/
def onSubscribeNamespace (session requestId : Nat) (nsPrefix : NsTuple) : NsTables :=
  let sub : NsSub := ⟨session, nsPrefix, requestId⟩
  { t with
    nsSubs := t.nsSubs ++ [sub]
    opened := (session, requestId) :: t.opened
    sent := t.sent ++ (t.knownNamespaces nsPrefix).map fun ns => (sub.key ns, .ns) }

/-- `_drop`, when the request of a subscriber is cancelled. -/
def dropSubscriber (session requestId : Nat) : NsTables :=
  { t with nsSubs := t.nsSubs.filter fun sub =>
      ¬ (sub.session = session ∧ sub.requestId = requestId) }

/-! ## Closed sessions -/

/-- The loop over `_announced` in `_forget_session`. -/
def forgetHolder (session : Nat) (ns : NsTuple) : NsTables :=
  match t.announced.get? ns with
  | none => t
  | some holders =>
      if session ∈ holders.keys then t.putHolders ns (holders.erase session) else t

/-- The upstream of a track has gone with the session. -/
def ownedBy (session : Nat) (track : RegisteredTrack) : Bool :=
  track.upstreamSession = some session ∨ track.pendingPublish = some session

/-- `_forget_session`. -/
def forgetSession (session : Nat) : NsTables :=
  let t := { t with
    nsSubs := t.nsSubs.filter fun sub => sub.session ≠ session
    announceRequests := t.announceRequests.filterKeys fun key => key.1 ≠ session }
  let t := t.announced.keys.foldl (fun t ns => t.forgetHolder session ns) t
  { t with tracks := t.tracks.filter fun _ track => !ownedBy session track }

end NsTables

/-! ## Runs -/

/-- What happens to the tables, one handler at a time. -/
inductive NsEvent where
  | publishNamespace (session requestId : Nat) (ns : NsTuple)
  /-- PUBLISH_NAMESPACE_DONE, or the request cancelled. -/
  | withdraw (session : Nat) (requestId : Option Nat) (ns : Option NsTuple)
  | publish (session : Nat) (key : NsTuple × Bytes) (mandatory : Bool)
  /-- A registered track is answered, or finishes. -/
  | trackChanges (key : NsTuple × Bytes) (track : RegisteredTrack)
  /-- A track is over: PUBLISH_DONE, a malformed track, or its queue has run out. -/
  | trackEnds (key : NsTuple × Bytes)
  | subscribeNamespace (session requestId : Nat) (nsPrefix : NsTuple)
  | cancelSubscriber (session requestId : Nat)
  /-- A session closes; it is forgotten later. -/
  | closes (session : Nat)
  | forget (session : Nat)

namespace NsTables

variable (t : NsTables)

/-- Request ids are used once in a session, and a session is forgotten when it has closed. -/
def Enabled : NsEvent → Prop
  | .publishNamespace session requestId _ => (session, requestId) ∉ t.opened
  | .subscribeNamespace session requestId _ => (session, requestId) ∉ t.opened
  | .trackChanges key _ => key ∈ t.tracks.keys
  | .forget session => session ∈ t.closed
  | _ => True

/-- One event. -/
def step : NsEvent → NsTables
  | .publishNamespace session requestId ns => t.onPublishNamespace session requestId ns
  | .withdraw session requestId ns => t.withdrawNamespace session requestId ns
  | .publish session key mandatory => t.onPublish session key mandatory
  | .trackChanges key track => { t with tracks := t.tracks.insert key track }
  | .trackEnds key => t.dropTrack key
  | .subscribeNamespace session requestId nsPrefix =>
      t.onSubscribeNamespace session requestId nsPrefix
  | .cancelSubscriber session requestId => t.dropSubscriber session requestId
  | .closes session => { t with closed := session :: t.closed }
  | .forget session => t.forgetSession session

end NsTables

/-- The tables after a run whose events meet a condition. -/
inductive NsRun (meets : NsTables → NsEvent → Prop) : NsTables → Prop where
  | start : NsRun meets {}
  | step {t : NsTables} (h : NsRun meets t) {e : NsEvent} (henabled : t.Enabled e)
      (hmeets : meets t e) : NsRun meets (t.step e)

end AioMoqt.Relay
