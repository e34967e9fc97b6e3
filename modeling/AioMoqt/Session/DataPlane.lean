import AioMoqt.Lib.Ownership
import AioMoqt.Lib.Tally
import AioMoqt.Session.DataStreams

/-!
# Receiving objects

The data plane of a session in `protocol.py`: streams that bring headers and objects, their
bindings, the bounds and the malformed tracks that objects are checked against, and the ends
that are reported.  Tracks, requests and handlers are set up by the control plane, which is not
modelled here; it may change its tables between any two events.  What an application callback
does to its session before it returns or raises is an input.  Times are in milliseconds.
-/

namespace AioMoqt.Session

open AioMoqt.Lib AioMoqt.Lib.BigEndian AioMoqt.Messages

/-! ## State -/

/-- An object, on its way to a consumer. -/
structure Arrival where
  trackAlias : Nat
  obj : ObjectHeader
  consumed : Nat
  groupId : Nat
  subgroupId : Option Nat

/-- An object held for an alias that nothing has bound. -/
structure EarlyObject where
  heldAt : Nat
  arrival : Arrival

/-- The end of a subgroup stream, as its handler sees it. -/
structure StreamEnd where
  groupId : Nat
  subgroupId : Nat
  clean : Bool
  resetCode : Nat
deriving Repr, DecidableEq

/-- What leaves the data plane. -/
inductive DataEvent where
  | object (cb : Callback) (arrival : Arrival)
  | held (arrival : Arrival)
  | replayed (cb : Callback) (arrival : Arrival)
  | fetchObject (cb : Callback) (obj : FetchObject) (consumed requestId : Nat)
  | fetchGap (cb : Callback) (obj : FetchObject) (requestId : Nat)
  | fetchDone (requestId : Nat) (clean : Bool)
  /-- To a handler, or to the log of early ends. -/
  | streamEnd (cb : Option Callback) (trackAlias : Nat) (ended : StreamEnd)
  | replayedEnd (cb : Callback) (trackAlias : Nat) (ended : StreamEnd)
  | stopSending (streamId errorCode : Nat)
  | malformed (trackAlias : Nat)
  | forgot (trackAlias : Nat)
  | closed (errorCode : SessionCloseCode)

/-- The messages of a request that admission looks at. -/
inductive RequestMessage where
  | fetch (groupOrder : GroupOrder)
  | fetchOk (groupOrder : GroupOrder)
  | other
deriving Repr, DecidableEq

/-- The tables that the control plane fills. -/
structure ControlTables where
  trackAliases : Dict Nat Nat := .empty
  subscriptions : Dict Nat (List RequestMessage) := .empty
  /-- `_fill_requests`, with the group order of the fill. -/
  fillRequests : Dict Nat GroupOrder := .empty
  unboundAliases : List Nat := []
  objectHandlers : Dict Nat Callback := .empty
  onObjectReceived : Option Callback := none
  timingWatch : Dict Nat Callback := .empty
  trackDefaultPriority : Dict Nat Nat := .empty
  streamEndHandlers : Dict Nat Callback := .empty
  fetchObjectHandlers : Dict Nat Callback := .empty
  onFetchObject : Option Callback := none
  onFetchGap : Option Callback := none

/-- A session's data plane. -/
structure DataPlane extends ControlTables where
  /-- `_data_streams`. -/
  streams : Dict Nat DataStream := .empty
  /-- `_stream_torn_down`. -/
  streamTornDown : Dict Nat Nat := .empty
  tornDownLastSweep : Nat := 0
  subgroupStreamByKey : Dict SubgroupKey Nat := .empty
  fetchStreamByRequest : Dict Nat Nat := .empty
  malformedAliases : List Nat := []
  groupBound : Dict Nat (Dict Nat Nat) := .empty
  trackBound : Dict Nat (Nat × Nat) := .empty
  earlyObjects : Dict Nat (List EarlyObject) := .empty
  /-- `_early_stream_ends`, with the time of each. -/
  earlyStreamEnds : Dict Nat (List (Nat × StreamEnd)) := .empty
  earlyObjectsCount : Int := 0
  earlyObjectsBytes : Int := 0
  rxHeldBytes : Int := 0
  closeErr : Option SessionCloseCode := none
  log : List DataEvent := []
  -- what the code does not keep: the history of the bindings, the streams that a turn of the
  -- drain loop parsed after they had ended, and the open streams of a track that the sweep of
  -- `_malformed_track` did not find
  history : List (Ownership.Event Nat SubgroupKey) := []
  strays : List Nat := []
  missed : List (Nat × Nat) := []

/-- What an object callback may do to its session. -/
inductive CallbackAction where
  /-- `_cancel_malformed`. -/
  | cancelMalformed (trackAlias : Nat)
  | bindObjectHandler (trackAlias : Nat) (cb : Callback)
  | unregisterObjectHandler (trackAlias : Nat)
  | close (errorCode : SessionCloseCode)

/-- What a session is set up with, and what its callbacks do. -/
structure DataEnv where
  prof : DraftProfile
  maxObjectBytes : Nat
  /-- `needed` of the underflow that a parse ends in. -/
  needed : Option StreamParser → Bytes → Nat
  /-- What a callback does, told by all that the session did up to the call. -/
  acts : List DataEvent → List CallbackAction

/-- `_rx_held_limit`. -/
def DataEnv.rxHeldLimit (env : DataEnv) : Nat := 4 * env.maxObjectBytes

def groupBoundsPerTrack : Nat := 256
def earlyStreamEndHold : Nat := 5000
def earlyStreamEndMax : Nat := 64
def earlyObjectHold : Nat := 5000
def earlyObjectMax : Nat := 1024
def earlyObjectMaxBytes : Nat := 4 * 1024 * 1024
def streamBindDeadline : Nat := 5000
def tornDownEvictAfter : Nat := 30000

/-- The size of held objects, as they are counted. -/
def earlyBytes (held : List EarlyObject) : Nat := (held.map (·.arrival.consumed)).sum

/-- A dictionary of properties with an entry. -/
def hasProperties (extensions : Option KeyValuePairs) : Bool :=
  extensions.any fun kvps => kvps.dict.entries ≠ []

/-- `not TIMING_IDS.isdisjoint(extensions)`. -/
def carriesTiming (extensions : Option KeyValuePairs) : Bool :=
  extensions.any fun kvps => kvps.dict.keys.any (· ∈ timingIds)

namespace DataPlane

/-! ## Stream state -/

/-- The state object of a stream, while the session has it. -/
def putStream (s : DataPlane) (streamId : Nat) (st : DataStream) : DataPlane :=
  if streamId ∈ s.streams.keys then { s with streams := s.streams.insert streamId st } else s

/-- The state object that a loop over a stream holds. -/
def streamState (s : DataPlane) (streamId : Nat) (st : DataStream) : DataStream :=
  (s.streams.get? streamId).getD st

def markStreamTornDown (s : DataPlane) (now streamId : Nat) : DataPlane :=
  let tornDown := s.streamTornDown.insert streamId now
  if 1000 < now - s.tornDownLastSweep then
    { s with
      streamTornDown := tornDown.filter fun _ at' => now ≤ at' + tornDownEvictAfter
      tornDownLastSweep := now }
  else { s with streamTornDown := tornDown }

/-- The first close keeps its code. -/
def closeSession (s : DataPlane) (now : Nat) (errorCode : SessionCloseCode) : DataPlane :=
  let s := s.streams.keys.foldl (fun s streamId => s.markStreamTornDown now streamId) s
  { s with
    closeErr := s.closeErr.or (some errorCode)
    streams := .empty
    earlyStreamEnds := .empty
    earlyObjects := .empty
    earlyObjectsCount := 0
    earlyObjectsBytes := 0
    log := s.log ++ [.closed errorCode] }

/-! ## Bounds -/

def setGroupBound (s : DataPlane) (trackAlias groupId bound : Nat) : DataPlane :=
  let groups := (s.groupBound.get? trackAlias).getD .empty
  let groups :=
    if groupId ∉ groups.keys ∧ groupBoundsPerTrack ≤ groups.keys.length then
      groups.keys.head?.elim groups groups.erase
    else groups
  let bound := (groups.get? groupId).elim bound (min · bound)
  { s with groupBound := s.groupBound.insert trackAlias (groups.insert groupId bound) }

def noteObjectBound (s : DataPlane) (trackAlias groupId objectId : Nat) (status : ObjectStatus)
    (endOfGroupBit : Bool) : DataPlane :=
  if status = .endOfGroup then s.setGroupBound trackAlias groupId objectId
  else if status = .endOfTrack then
    { s with trackBound := s.trackBound.insert trackAlias (groupId, objectId) }
  else if endOfGroupBit then s.setGroupBound trackAlias groupId (objectId + 1)
  else s

/-- At or past the end of its group. -/
def pastGroup (s : DataPlane) (trackAlias groupId objectId : Nat) (status : ObjectStatus) : Bool :=
  match (s.groupBound.get? trackAlias).bind (·.get? groupId) with
  | none => false
  | some bound => bound ≤ objectId && ¬ (objectId = bound ∧ status = .endOfGroup)

/-- At or past the end of its track. -/
def pastTrack (s : DataPlane) (trackAlias groupId objectId : Nat) (status : ObjectStatus) : Bool :=
  match s.trackBound.get? trackAlias with
  | none => false
  | some (group, object) =>
      (group < groupId || (group = groupId && object ≤ objectId)) &&
        ¬ ((groupId, objectId) = (group, object) ∧ status = .endOfTrack)

def objectOutOfBounds (s : DataPlane) (trackAlias groupId objectId : Nat)
    (status : ObjectStatus) : Bool :=
  s.pastGroup trackAlias groupId objectId status || s.pastTrack trackAlias groupId objectId status

/-- A status that the draft does not define, or one with properties. -/
def statusObjectFault (env : DataEnv) (status : ObjectStatus) (extensions : Option KeyValuePairs) :
    Bool :=
  status ∉ objectStatuses env.prof || hasProperties extensions

def forgetTrackBounds (s : DataPlane) (trackAlias : Nat) : DataPlane :=
  { s with
    groupBound := s.groupBound.erase trackAlias
    trackBound := s.trackBound.erase trackAlias
    malformedAliases := s.malformedAliases.filter (· ≠ trackAlias)
    log := s.log ++ [.forgot trackAlias] }

/-! ## The end of a stream -/

/-- An end that no handler took. -/
def noteEarlyStreamEnd (s : DataPlane) (now trackAlias : Nat) (ended : StreamEnd) : DataPlane :=
  match s.earlyStreamEnds.get? trackAlias with
  | some ends =>
      let kept := (ends ++ [(now, ended)]).drop (ends.length + 1 - earlyStreamEndMax)
      { s with earlyStreamEnds := s.earlyStreamEnds.insert trackAlias kept }
  | none =>
      let early :=
        if earlyStreamEndMax ≤ s.earlyStreamEnds.keys.length then
          s.earlyStreamEnds.keys.head?.elim s.earlyStreamEnds s.earlyStreamEnds.erase
        else s.earlyStreamEnds
      { s with earlyStreamEnds := early.insert trackAlias [(now, ended)] }

/-- The end of a bound subgroup stream, to its handler or to the early ends. -/
def reportStreamEnd (s : DataPlane) (now streamId : Nat) (key : SubgroupKey) (clean : Bool)
    (resetCode : Nat) : DataPlane :=
  let ended : StreamEnd := ⟨key.groupId, key.subgroupId, clean, resetCode⟩
  let cb := s.streamEndHandlers.get? key.trackAlias
  let s :=
    { s with
      log := s.log ++ [.streamEnd cb key.trackAlias ended]
      history := s.history ++ [.ended streamId key] }
  if cb.isSome then s else s.noteEarlyStreamEnd now key.trackAlias ended

/-- A FIN on a stream with the END_OF_GROUP bit fixes the last object of the group. -/
def fixGroupEnd (s : DataPlane) (st : DataStream) (key : SubgroupKey) (clean : Bool) : DataPlane :=
  match st.objectId, st.parser with
  | some objectId, some (.subgroup hdr) =>
      if clean ∧ hdr.endOfGroup then s.setGroupBound key.trackAlias key.groupId (objectId + 1)
      else s
  | _, _ => s

/-- `_cleanup_stream`; `clean` for a FIN or a terminal object. -/
def cleanupStream (env : DataEnv) (s : DataPlane) (now streamId : Nat) (clean : Bool)
    (resetCode : Nat) : DataPlane :=
  let state := s.streams.get? streamId
  let s := ({ s with streams := s.streams.erase streamId } : DataPlane).markStreamTornDown now streamId
  match state with
  | none => s
  | some st =>
      let s := { s with rxHeldBytes := s.rxHeldBytes - st.held }
      match st.key with
      | none => s
      | some (.subgroup key) =>
          let s := (s.fixGroupEnd st key clean).reportStreamEnd now streamId key clean resetCode
          { s with subgroupStreamByKey := s.subgroupStreamByKey.erase key }
      | some (.fetch requestId) =>
          let fill :=
            if env.prof.fetchLocationFilter then s.fillRequests.erase requestId
            else s.fillRequests
          { s with
            fillRequests := fill
            fetchObjectHandlers := s.fetchObjectHandlers.erase requestId
            fetchStreamByRequest := s.fetchStreamByRequest.erase requestId
            log := s.log ++ [.fetchDone requestId clean] }

/-- STOP_SENDING, and the stream is gone. -/
def rejectStream (env : DataEnv) (s : DataPlane) (now streamId errorCode : Nat) : DataPlane :=
  ({ s with log := s.log ++ [.stopSending streamId errorCode] } : DataPlane).cleanupStream env now
    streamId false errorCode

/-- The streams that the table binds to a track. -/
def streamsOfTrack (s : DataPlane) (trackAlias : Nat) : List Nat :=
  (s.subgroupStreamByKey.entries.filter fun entry => entry.1.trackAlias = trackAlias).map Prod.snd

/-- The open streams of a track that the table does not bind to it. -/
def missedStreams (s : DataPlane) (trackAlias : Nat) : List (Nat × Nat) :=
  (s.streams.entries.filter fun entry =>
    entry.2.trackAlias = some trackAlias ∧ entry.1 ∉ s.streamsOfTrack trackAlias).map
      fun entry => (trackAlias, entry.1)

/-- The first fault of a track: its streams are reset, and its subscription is cancelled. -/
def sweepTrack (env : DataEnv) (s : DataPlane) (now trackAlias : Nat) : DataPlane :=
  let s : DataPlane :=
    { s with
      malformedAliases := trackAlias :: s.malformedAliases
      missed := s.missed ++ s.missedStreams trackAlias
      log := s.log ++ [.malformed trackAlias] }
  let s := (s.streamsOfTrack trackAlias).foldl
    (fun s streamId => s.rejectStream env now streamId StreamResetCode.malformedTrack.code) s
  match s.trackAliases.get? trackAlias with
  | none => s
  | some requestId => { s with subscriptions := s.subscriptions.erase requestId }

/-- `_malformed_track`. -/
def malformedTrack (env : DataEnv) (s : DataPlane) (now : Nat) (trackAlias streamId : Option Nat) :
    DataPlane :=
  let s := streamId.elim s fun streamId =>
    s.rejectStream env now streamId StreamResetCode.malformedTrack.code
  match trackAlias with
  | none => s
  | some trackAlias =>
      if trackAlias ∈ s.malformedAliases then s else s.sweepTrack env now trackAlias

/-! ## Bindings -/

/-- `_bind_subgroup_stream`: a subgroup reopened takes the key from the old stream. -/
def bindSubgroupStream (s : DataPlane) (streamId : Nat) (key : SubgroupKey) : DataPlane :=
  let s : DataPlane :=
    match s.subgroupStreamByKey.get? key with
    | none => s
    | some existing =>
        if existing = streamId then s
        else match s.streams.get? existing with
          | none => s
          | some old =>
              { s with
                streams := s.streams.insert existing { old with key := none }
                history := s.history ++ [.lost existing key] }
  let s : DataPlane :=
    { s with
      subgroupStreamByKey := s.subgroupStreamByKey.insert key streamId
      history := s.history ++ [.taken streamId key] }
  match s.streams.get? streamId with
  | none => s
  | some st =>
      { s with streams := s.streams.insert streamId { st with key := some (.subgroup key) } }

/-- The direction of the Group ID deltas: a FETCH_OK that tells it, or what was asked for. -/
def fetchGroupOrder (messages : List RequestMessage) : GroupOrder :=
  let replied := messages.findSome? fun message =>
    match message with
    | .fetchOk order => if order = .publisherDefault then none else some order
    | _ => none
  let asked := messages.filterMap fun message =>
    match message with
    | .fetch order => if order = .publisherDefault then none else some order
    | _ => none
  replied.getD (asked.getLast?.getD .ascending)

/-- The group order of a FETCH that is ours, and whether it may have this stream. -/
def admitFetchStream (env : DataEnv) (s : DataPlane) (streamId requestId : Nat) :
    Option FetchHeader :=
  let fill := if env.prof.fetchLocationFilter then s.fillRequests.get? requestId else none
  let order : Option GroupOrder :=
    match fill with
    | some order => some order
    | none =>
        match s.subscriptions.get? requestId with
        | none => none
        | some messages =>
            if messages.any fun message => message matches .fetch _ then
              some (fetchGroupOrder messages)
            else none
  match order, s.fetchStreamByRequest.get? requestId with
  | none, _ => none
  | some order, none => some { requestId, groupOrder := order }
  | some order, some existing =>
      if existing = streamId then some { requestId, groupOrder := order } else none

/-- An alias that no control message has bound yet. -/
def noteUnboundAlias (s : DataPlane) (trackAlias : Nat) : DataPlane :=
  if trackAlias ∈ s.trackAliases.keys ∨ trackAlias ∈ s.unboundAliases then s
  else { s with unboundAliases := trackAlias :: s.unboundAliases }

/-! ## Delivery -/

/-- `_object_cb`, or the handler that watches the track's timing properties. -/
def objectCb (s : DataPlane) (arrival : Arrival) : Option Callback :=
  let cb := (s.objectHandlers.get? arrival.trackAlias).or s.onObjectReceived
  if carriesTiming arrival.obj.extensions then (s.timingWatch.get? arrival.trackAlias).or cb
  else cb

/-- `_cancel_malformed`. -/
def cancelMalformed (env : DataEnv) (s : DataPlane) (now trackAlias : Nat) : DataPlane :=
  ({ s with timingWatch := s.timingWatch.erase trackAlias } : DataPlane).malformedTrack env now
    (some trackAlias) none

/-- `_discard_early_objects`. -/
def discardEarlyObjects (s : DataPlane) (trackAlias : Nat) : DataPlane :=
  let held := (s.earlyObjects.get? trackAlias).getD []
  { s with
    earlyObjects := s.earlyObjects.erase trackAlias
    earlyObjectsCount := s.earlyObjectsCount - held.length
    earlyObjectsBytes := s.earlyObjectsBytes - earlyBytes held }

def unregisterObjectHandler (s : DataPlane) (trackAlias : Nat) : DataPlane :=
  ({ s with objectHandlers := s.objectHandlers.erase trackAlias } :
    DataPlane).discardEarlyObjects trackAlias

/-- A held object, to the handler that came for it; `after` for what the callback does. -/
def replayObject (now : Nat) (cb : Callback) (after : DataPlane → DataPlane) (s : DataPlane)
    (early : EarlyObject) : DataPlane :=
  let s : DataPlane :=
    { s with
      earlyObjectsCount := s.earlyObjectsCount - 1
      earlyObjectsBytes := s.earlyObjectsBytes - early.arrival.consumed }
  if early.heldAt + earlyObjectHold < now then s
  else after { s with log := s.log ++ [.replayed cb early.arrival] }

/-- `_bind_object_handler`. -/
def bindHandlerWith (now : Nat) (after : DataPlane → DataPlane) (s : DataPlane)
    (trackAlias : Nat) (cb : Callback) : DataPlane :=
  ((s.earlyObjects.get? trackAlias).getD []).foldl (replayObject now cb after)
    { s with
      objectHandlers := s.objectHandlers.insert trackAlias cb
      earlyObjects := s.earlyObjects.erase trackAlias }

def perform (env : DataEnv) (now : Nat) (after : DataPlane → DataPlane) (s : DataPlane) :
    CallbackAction → DataPlane
  | .cancelMalformed trackAlias => s.cancelMalformed env now trackAlias
  | .bindObjectHandler trackAlias cb => s.bindHandlerWith now after trackAlias cb
  | .unregisterObjectHandler trackAlias => s.unregisterObjectHandler trackAlias
  | .close errorCode => s.closeSession now errorCode

/-- A callback, once it has been called; the callbacks in it that `depth` allows. -/
def runCallback (env : DataEnv) (now : Nat) : Nat → DataPlane → DataPlane
  | 0, s => s
  | depth + 1, s => (env.acts s.log).foldl (perform env now (runCallback env now depth)) s

/-- Every callback inside another one takes the held objects of an alias, and none are held
meanwhile, so the callbacks go no deeper than there are aliases. -/
def afterCallback (env : DataEnv) (s : DataPlane) (now : Nat) : DataPlane :=
  runCallback env now (s.earlyObjects.keys.length + 1) s

/-- A handler registered between two events. -/
def bindObjectHandler (env : DataEnv) (s : DataPlane) (now trackAlias : Nat) (cb : Callback) :
    DataPlane :=
  s.bindHandlerWith now (afterCallback env · now) trackAlias cb

/-- `_expire_early_objects`. -/
def expireEarlyObjects (s : DataPlane) (now : Nat) : DataPlane :=
  let expired (early : EarlyObject) : Bool := early.heldAt + earlyObjectHold < now
  let gone := s.earlyObjects.map fun held => held.takeWhile expired
  let kept := s.earlyObjects.map fun held => held.dropWhile expired
  { s with
    earlyObjects := kept.filter fun _ held => held ≠ []
    earlyObjectsCount := s.earlyObjectsCount - gone.total fun held => held.length
    earlyObjectsBytes := s.earlyObjectsBytes - gone.total earlyBytes }

/-- Only an object whose alias may still be bound is held. -/
def holdEarlyObject (s : DataPlane) (now : Nat) (arrival : Arrival) : DataPlane :=
  if arrival.trackAlias ∈ s.trackAliases.keys ∧ arrival.trackAlias ∉ s.unboundAliases then s
  else
    let s := s.expireEarlyObjects now
    if earlyObjectMax ≤ s.earlyObjectsCount ∨
        earlyObjectMaxBytes < s.earlyObjectsBytes + arrival.consumed then s
    else
      let held := (s.earlyObjects.get? arrival.trackAlias).getD []
      { s with
        earlyObjects := s.earlyObjects.insert arrival.trackAlias (held ++ [⟨now, arrival⟩])
        earlyObjectsCount := s.earlyObjectsCount + 1
        earlyObjectsBytes := s.earlyObjectsBytes + arrival.consumed
        log := s.log ++ [.held arrival] }

def deliverArrival (env : DataEnv) (s : DataPlane) (now : Nat) (arrival : Arrival) : DataPlane :=
  match s.objectCb arrival with
  | some cb =>
      ({ s with log := s.log ++ [.object cb arrival] } : DataPlane).afterCallback env now
  | none => s.holdEarlyObject now arrival

/-! ## The drain loop -/

/-- Whether the loop takes another turn, and what it holds of the state object of a stream that
has ended meanwhile. -/
inductive Turn where
  | stop (s : DataPlane)
  | more (s : DataPlane) (st : DataStream)

/-- The session after a turn. -/
def Turn.plane : Turn → DataPlane
  | .stop s => s
  | .more s _ => s

/-- A subgroup header: the stream gets its parser, and its key if the header tells it. -/
def handleSubgroupHeader (env : DataEnv) (s : DataPlane) (now streamId : Nat) (st : DataStream)
    (hdr : SubgroupHeader) : Turn :=
  if hdr.trackAlias ∈ s.malformedAliases then
    .stop (s.rejectStream env now streamId StreamResetCode.malformedTrack.code)
  else
    let s := s.noteUnboundAlias hdr.trackAlias
    let bind (s : DataPlane) : DataPlane :=
      (subgroupKey hdr).elim s fun key => s.bindSubgroupStream streamId key
    if st.groupId.isSome then
      -- the state object of a stream that has ended: it is not the one admission looks up
      .stop ((bind s).malformedTrack env now st.trackAlias (some streamId))
    else
      let st :=
        { st with
          parser := some (.subgroup hdr)
          groupId := some hdr.groupId
          subgroupId := hdr.subgroupId }
      .more (bind (s.putStream streamId st)) st

/-- A FETCH header: one of ours, that has no other stream. -/
def handleFetchHeader (env : DataEnv) (s : DataPlane) (now streamId : Nat) (st : DataStream)
    (requestId : Nat) : Turn :=
  match s.admitFetchStream env streamId requestId with
  | none => .stop (s.rejectStream env now streamId StreamResetCode.cancelled.code)
  | some hdr =>
      let s := { s with fetchStreamByRequest := s.fetchStreamByRequest.insert requestId streamId }
      let st' := { st with parser := some (.fetch hdr), key := some (.fetch requestId) }
      -- admission finds no state to write to where the stream has ended
      .more (s.putStream streamId st') st

/-- The object with what its stream's header says of it. -/
def describeObject (s : DataPlane) (obj : ObjectHeader) (hdr : SubgroupHeader) : ObjectHeader :=
  { obj with
    publisherPriority :=
      if hdr.defaultPriority then
        some ((s.trackDefaultPriority.get? hdr.trackAlias).getD defaultPublisherPriority)
      else some hdr.publisherPriority
    streamFlags := some (hdr.firstObject, hdr.endOfGroup, hdr.defaultPriority) }

/-- An object that passed the checks: it is delivered, and a terminal one ends its stream. -/
def acceptObject (env : DataEnv) (s : DataPlane) (now streamId : Nat) (st : DataStream)
    (obj : ObjectHeader) (hdr : SubgroupHeader) (consumed : Nat) : Turn :=
  let groupId := st.groupId.getD hdr.groupId
  let st := { st with subgroupId := st.subgroupId.or hdr.subgroupId }
  let s := (s.putStream streamId st).deliverArrival env now
    ⟨hdr.trackAlias, s.describeObject obj hdr, consumed, groupId, st.subgroupId⟩
  if obj.status = .endOfGroup ∨ obj.status = .endOfTrack then
    .stop ((s.noteObjectBound hdr.trackAlias groupId obj.objectId obj.status false).cleanupStream
      env now streamId true 0)
  else .more s st

/-- The checks on an object that the loop makes before it delivers it. -/
def checkObject (env : DataEnv) (s : DataPlane) (now streamId : Nat) (st : DataStream)
    (obj : ObjectHeader) (hdr : SubgroupHeader) (consumed : Nat) : Turn :=
  if st.objectId.any (obj.objectId ≤ ·) then
    .stop (s.malformedTrack env now (some hdr.trackAlias) (some streamId))
  else
    let st := { st with objectId := some obj.objectId }
    let s := s.putStream streamId st
    if obj.status ≠ .normal ∧ statusObjectFault env obj.status obj.extensions then
      .stop (s.closeSession now .protocolViolation)
    else if s.objectOutOfBounds hdr.trackAlias (st.groupId.getD hdr.groupId) obj.objectId
        obj.status then
      .stop (s.malformedTrack env now (some hdr.trackAlias) (some streamId))
    else s.acceptObject env now streamId st obj hdr consumed

/-- An object of a subgroup stream; the first one may tell the stream's subgroup. -/
def handleObject (env : DataEnv) (s : DataPlane) (now streamId : Nat) (st : DataStream)
    (obj : ObjectHeader) (hdr : SubgroupHeader) (consumed : Nat) : Turn :=
  let unresolved := st.parser.any fun parser =>
    match parser with
    | .subgroup old => old.subgroupIdMode = .firstObj && old.subgroupId.isNone
    | .fetch _ => false
  let st := { st with parser := some (.subgroup hdr) }
  let s := s.putStream streamId st
  let s :=
    if unresolved then (subgroupKey hdr).elim s fun key => s.bindSubgroupStream streamId key
    else s
  s.checkObject env now streamId (s.streamState streamId st) obj hdr consumed

/-- An object, or a gap, of a FETCH. -/
def handleFetchObject (env : DataEnv) (s : DataPlane) (now streamId : Nat) (st : DataStream)
    (obj : FetchObject) (hdr : FetchHeader) (consumed : Nat) : Turn :=
  let st := { st with parser := some (.fetch hdr) }
  let s := s.putStream streamId st
  let call (cb : Option Callback) (event : Callback → DataEvent) : DataPlane :=
    cb.elim s fun cb =>
      ({ s with log := s.log ++ [event cb] } : DataPlane).afterCallback env now
  match obj.endOfRange with
  | none =>
      let s := call ((s.fetchObjectHandlers.get? hdr.requestId).or s.onFetchObject) fun cb =>
        .fetchObject cb obj consumed hdr.requestId
      .more s st
  | some _ => .more (call s.onFetchGap fun cb => .fetchGap cb obj hdr.requestId) st

def handleItem (env : DataEnv) (s : DataPlane) (now streamId : Nat) (st : DataStream)
    (consumed : Nat) : StreamItem → Turn
  | .padding => .stop (s.rejectStream env now streamId StreamResetCode.cancelled.code)
  | .subgroupHeader hdr => s.handleSubgroupHeader env now streamId st hdr
  | .fetchHeader requestId => s.handleFetchHeader env now streamId st requestId
  | .object obj hdr => s.handleObject env now streamId st obj hdr consumed
  | .fetchObject obj hdr => s.handleFetchObject env now streamId st obj hdr consumed

/-- A parse that raised. -/
def parseFailed (env : DataEnv) (s : DataPlane) (now streamId : Nat) (st : DataStream)
    (parser : Option StreamParser) : MoqtError → DataPlane
  | .underflow _ => s.putStream streamId { st with need := env.needed parser st.chain }
  | .tooLarge _ _ => s.rejectStream env now streamId StreamResetCode.excessiveLoad.code
  | .malformedKvp _ => s.malformedTrack env now st.trackAlias (some streamId)
  | .violation _ => s.closeSession now .protocolViolation
  | _ => s.rejectStream env now streamId StreamResetCode.internalError.code

/-- One turn of the loop.  The parser is looked up in the session each time, so for a stream
that a callback has ended the next bytes are read as the head of a stream. -/
def drainTurn (env : DataEnv) (s : DataPlane) (now streamId : Nat) (st : DataStream) : Turn :=
  let opened : Bool := streamId ∈ s.streams.keys
  let s := if opened then s else { s with strays := s.strays ++ [streamId] }
  let parser := if opened then st.parser else none
  match pullStreamItem env.prof env.maxObjectBytes env.needed parser st.chain with
  | .error e => .stop (s.parseFailed env now streamId st parser e)
  | .ok (item, cur) => s.handleItem env now streamId { st with chain := cur.rest } cur.pos item

/-- `_drain_stream`; every item takes a byte, so the length of the chain is fuel enough. -/
def drainStream (env : DataEnv) (now streamId : Nat) : Nat → DataStream → DataPlane → DataPlane
  | 0, _, s => s
  | fuel + 1, st, s =>
      if st.chain = [] then s
      else match s.drainTurn env now streamId st with
        | .stop s => s
        | .more s st => drainStream env now streamId fuel (s.streamState streamId st) s

/-- The unparsed bytes of a stream, counted against the session's limit. -/
def countHeld (env : DataEnv) (s : DataPlane) (now streamId : Nat) : DataPlane :=
  match s.streams.get? streamId with
  | none => s
  | some st =>
      if st.chain.length = st.held then s
      else
        let total := s.rxHeldBytes + st.chain.length - st.held
        let s :=
          { s with
            rxHeldBytes := total
            streams := s.streams.insert streamId { st with held := st.chain.length } }
        if env.rxHeldLimit < total then s.closeSession now .internalError else s

/-- A FIN: in the middle of an object it closes the session. -/
def finishStream (env : DataEnv) (s : DataPlane) (now streamId : Nat) : DataPlane :=
  match s.streams.get? streamId with
  | none => s
  | some st =>
      if st.chain ≠ [] ∧ st.parser.isSome then s.closeSession now .protocolViolation
      else s.cleanupStream env now streamId true 0

/-- `_on_stream_data`. -/
def onStreamData (env : DataEnv) (s : DataPlane) (now streamId : Nat) (data : Bytes)
    (endStream : Bool) : DataPlane :=
  if streamId ∈ s.streamTornDown.keys then s
  else
    let st := s.streamState streamId { lastActivity := now }
    let ready : Bool := st.need ≤ (st.chain ++ data).length
    let st := { st with chain := st.chain ++ data, need := if ready then 1 else st.need }
    let s := { s with streams := s.streams.insert streamId st }
    let s := if ready then drainStream env now streamId st.chain.length st s else s
    let s := s.countHeld env now streamId
    if endStream then s.finishStream env now streamId else s

/-! ## Other events -/

/-- Nothing has claimed the alias of a stream. -/
def aliasUnbound (s : DataPlane) (claimed : Nat → Bool) (trackAlias : Nat) : Bool :=
  trackAlias ∈ s.unboundAliases && trackAlias ∉ s.trackAliases.keys &&
    trackAlias ∉ s.objectHandlers.keys && !claimed trackAlias

/-- A stream past the deadline without a header, or on an alias that is still unbound. -/
def reapStream (env : DataEnv) (now : Nat) (claimed : Nat → Bool) (s : DataPlane)
    (entry : Nat × DataStream) : DataPlane :=
  if now ≤ entry.2.lastActivity + streamBindDeadline then s
  else match entry.2.parser with
    | none => s.rejectStream env now entry.1 StreamResetCode.deliveryTimeout.code
    | some (.subgroup hdr) =>
        if s.aliasUnbound claimed hdr.trackAlias then
          s.rejectStream env now entry.1 StreamResetCode.cancelled.code
        else s
    | some (.fetch _) => s

/-- `_reap_streams`; `claimed` for the aliases that were established or offered. -/
def reapStreams (env : DataEnv) (s : DataPlane) (now : Nat) (claimed : Nat → Bool) : DataPlane :=
  if s.closeErr.isSome then s else s.streams.entries.foldl (reapStream env now claimed) s

/-- `_deliver_datagram`. -/
def deliverDatagram (env : DataEnv) (s : DataPlane) (now trackAlias groupId : Nat)
    (obj : ObjectHeader) (consumed : Nat) (endOfGroup : Bool) : DataPlane :=
  if trackAlias ∈ s.malformedAliases then s
  else if s.objectOutOfBounds trackAlias groupId obj.objectId obj.status then
    s.malformedTrack env now (some trackAlias) none
  else
    (s.deliverArrival env now ⟨trackAlias, obj, consumed, groupId, none⟩).noteObjectBound trackAlias
      groupId obj.objectId obj.status endOfGroup

/-- `_handle_fetch_error`: the stream goes on without its binding. -/
def handleFetchError (s : DataPlane) (requestId : Nat) : DataPlane :=
  match s.fetchStreamByRequest.get? requestId with
  | none => s
  | some streamId =>
      let s : DataPlane :=
        { s with
          fetchStreamByRequest := s.fetchStreamByRequest.erase requestId
          log := s.log ++ [.stopSending streamId StreamResetCode.cancelled.code] }
      match s.streams.get? streamId with
      | none => s
      | some st => { s with streams := s.streams.insert streamId { st with key := none } }

/-- STOP_SENDING on the stream of a finished track, which is tombstoned and keeps its state. -/
def releaseStream (now : Nat) (s : DataPlane) (streamId : Nat) : DataPlane :=
  ({ s with log := s.log ++ [.stopSending streamId StreamResetCode.cancelled.code] } :
    DataPlane).markStreamTornDown now streamId

def releaseFinishedTrack (s : DataPlane) (now trackAlias requestId : Nat) : DataPlane :=
  if s.trackAliases.get? trackAlias ≠ some requestId then s
  else
    let s := (s.streamsOfTrack trackAlias).foldl (releaseStream now) s
    { s with
      trackAliases := s.trackAliases.erase trackAlias
      objectHandlers := s.objectHandlers.erase trackAlias
      timingWatch := s.timingWatch.erase trackAlias
      streamEndHandlers := s.streamEndHandlers.erase trackAlias
      trackDefaultPriority := s.trackDefaultPriority.erase trackAlias
      earlyStreamEnds := s.earlyStreamEnds.erase trackAlias
      : DataPlane }.discardEarlyObjects trackAlias |>.forgetTrackBounds trackAlias

/-- An early end, to the handler that came for it. -/
def replayEnd (now : Nat) (cb : Callback) (trackAlias : Nat) (s : DataPlane)
    (early : Nat × StreamEnd) : DataPlane :=
  if early.1 + earlyStreamEndHold < now then s
  else { s with log := s.log ++ [.replayedEnd cb trackAlias early.2] }

def registerStreamEndHandler (s : DataPlane) (now trackAlias : Nat) (cb : Callback) : DataPlane :=
  let ends := (s.earlyStreamEnds.get? trackAlias).getD []
  ends.foldl (replayEnd now cb trackAlias)
    { s with
      streamEndHandlers := s.streamEndHandlers.insert trackAlias cb
      earlyStreamEnds := s.earlyStreamEnds.erase trackAlias }

end DataPlane

/-! ## Runs -/

/-- What a session's data plane is told. -/
inductive DataPlaneEvent where
  | streamData (streamId : Nat) (data : Bytes) (endStream : Bool)
  | streamReset (streamId errorCode : Nat)
  /-- `requestBound` for a stream that carries a request. -/
  | stopSending (streamId : Nat) (requestBound : Bool)
  | datagram (trackAlias groupId : Nat) (obj : ObjectHeader) (consumed : Nat) (endOfGroup : Bool)
  | reap (claimed : Nat → Bool)
  | fetchError (requestId : Nat)
  | releaseFinishedTrack (trackAlias requestId : Nat)
  | bindObjectHandler (trackAlias : Nat) (cb : Callback)
  | unregisterObjectHandler (trackAlias : Nat)
  | registerStreamEndHandler (trackAlias : Nat) (cb : Callback)
  | unregisterStreamEndHandler (trackAlias : Nat)
  | cancelMalformed (trackAlias : Nat)
  | forgetTrackBounds (trackAlias : Nat)
  /-- The control plane changed its tables. -/
  | control (tables : ControlTables)
  | close (errorCode : SessionCloseCode)

/-- An event at a time. -/
def DataPlane.step (env : DataEnv) (s : DataPlane) : Nat × DataPlaneEvent → DataPlane
  | (now, .streamData streamId data endStream) =>
      if s.closeErr.isSome then s else s.onStreamData env now streamId data endStream
  | (now, .streamReset streamId errorCode) => s.cleanupStream env now streamId false errorCode
  | (now, .stopSending streamId requestBound) =>
      if requestBound ∨ streamId ∈ s.streamTornDown.keys then s
      else s.cleanupStream env now streamId false 0
  | (now, .datagram trackAlias groupId obj consumed endOfGroup) =>
      s.deliverDatagram env now trackAlias groupId obj consumed endOfGroup
  | (now, .reap claimed) => s.reapStreams env now claimed
  | (_, .fetchError requestId) => s.handleFetchError requestId
  | (now, .releaseFinishedTrack trackAlias requestId) =>
      s.releaseFinishedTrack now trackAlias requestId
  | (now, .bindObjectHandler trackAlias cb) => s.bindObjectHandler env now trackAlias cb
  | (_, .unregisterObjectHandler trackAlias) => s.unregisterObjectHandler trackAlias
  | (now, .registerStreamEndHandler trackAlias cb) =>
      s.registerStreamEndHandler now trackAlias cb
  | (_, .unregisterStreamEndHandler trackAlias) =>
      { s with
        streamEndHandlers := s.streamEndHandlers.erase trackAlias
        earlyStreamEnds := s.earlyStreamEnds.erase trackAlias }
  | (now, .cancelMalformed trackAlias) => s.cancelMalformed env now trackAlias
  | (_, .forgetTrackBounds trackAlias) => s.forgetTrackBounds trackAlias
  | (_, .control tables) => { s with toControlTables := tables }
  | (now, .close errorCode) => s.closeSession now errorCode

/-- A run from a session's start. -/
def DataPlane.run (env : DataEnv) (events : List (Nat × DataPlaneEvent)) : DataPlane :=
  events.foldl (DataPlane.step env) {}

end AioMoqt.Session
