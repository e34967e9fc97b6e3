import AioMoqt.Delivery.SendLane
import AioMoqt.Messages.FetchObject
import AioMoqt.Messages.Location

/-!
# One session's copy of a track

`SubgroupDelivery` of `delivery.py`: what `write` does with an object under each mapping, from
one await to the next, and the calls its `SendLane` makes.  What the transport does with a
call is an input, and the bytes of an object are left out: that an object cannot be encoded
is an input too.
-/

namespace AioMoqt.Delivery

open AioMoqt.Messages

inductive StreamMapping where
  | perGroup
  | perObject
  | datagram
deriving DecidableEq

inductive ResetCode where
  | cancelled
  | deliveryTimeout
deriving DecidableEq

/-- The rest of a lane's item. -/
structure DeliveryObject where
  objectId : Nat
  payloadLength : Nat := 0
  groupStart : Bool := false

/-- An object of a lane over a delivery. -/
abbrev DeliveryItem := LaneItem DeliveryObject

/-- `_stream_id` and `_header`.  `opener` is the place of the object that the stream was opened
for; no step reads it. -/
structure OpenStream where
  sid : Nat
  groupId : Nat
  nextObjectId : Nat := 0
  firstObject : Bool
  opener : Nat

/-- A header that was written: its stream, its group and the place of the object that the
stream was opened for. -/
structure StreamHeader where
  sid : Nat
  groupId : Nat
  opener : Option Nat

/-- `SubgroupDelivery`, behind a lane.  Its streams are numbered as they are opened.  `headers`,
`objects`, `sent`, `excluded`, `fins`, `resets` and `stops` record what it did: the objects
handed to a stream, those whose write returned, those outside the filter, and how streams
ended, a FIN with its end marker; no step reads them. -/
structure SubgroupDelivery where
  mapping : StreamMapping := .perGroup
  writesNowait : Bool := true
  passes : Nat → Nat → Bool := fun _ _ => true
  excludesEnd : Nat → Nat → Bool := fun _ _ => false
  stream : Option OpenStream := none
  stoppedGroup : Option Nat := none
  epoch : Nat := 0
  txStreams : List (Nat × Nat) := []
  /-- `lane.parked` is "header". -/
  parkedOnHeader : Bool := false
  streamCount : Nat := 0
  largest : Option Location := none
  objectsSent : Nat := 0
  bytesSent : Nat := 0
  headers : List StreamHeader := []
  objects : List (Nat × DeliveryItem) := []
  sent : List (Nat × DeliveryItem) := []
  excluded : List DeliveryItem := []
  fins : List (Nat × Option (Nat × ObjectStatus)) := []
  resets : List (Nat × ResetCode) := []
  stops : List Nat := []

/-- How a call on the session ends. -/
inductive CallOutcome where
  | taken
  /-- The write would wait. -/
  | full
  /-- `MOQTStreamStopped`. -/
  | stopped
  | raises (e : SendError)

/-- What the owner of a delivery does to it: a new filter, or `cancel`. -/
inductive OwnerCall where
  | refilter (passes excludesEnd : Nat → Nat → Bool)
  | cancel

/-- The session through one call: how it ends, whether the extensions resolve, the object can
be encoded and its datagram fits, and the bytes the transport holds of a stream. -/
structure Transport where
  outcome : CallOutcome := .taken
  resolves : Bool := true
  encodes : Bool := true
  fits : Bool := true
  used : Nat → Nat := fun _ => 0
  owner : OwnerCall := .cancel

/-- An await of `write` or of `end_track`, with what is local there. -/
inductive DeliveryAwait where
  | datagram (x : DeliveryItem)
  /-- `open_uni_stream` for an object of its own stream, and the two writes on it. -/
  | openingOne (x : DeliveryItem)
  | headerOne (x : DeliveryItem) (sid : Nat)
  | objectOne (x : DeliveryItem) (sid : Nat)
  /-- The same for the stream of a group. -/
  | opening (x : DeliveryItem) (epoch : Nat)
  | header (x : DeliveryItem) (epoch sid : Nat)
  | object (x : DeliveryItem) (epoch sid : Nat)
  | endDatagram
  | endOpening (groupId : Nat)

namespace SubgroupDelivery

variable (d : SubgroupDelivery)

/-- What a call came to. -/
abbrev Came := Progress DeliveryAwait × SubgroupDelivery

/-! ### Ending streams -/

/-- The open stream gets its FIN, behind a marker unless the filter excludes it. -/
def finStream (st : OpenStream) (marker : Option (Nat × ObjectStatus)) : SubgroupDelivery :=
  { d with
    fins := d.fins ++ [(st.sid, marker)], txStreams := d.txStreams ++ [(st.sid, st.groupId)],
    stream := none }

/-- `end_group`. -/
def endGroup : SubgroupDelivery :=
  match d.stream with
  | none => d
  | some st =>
    if d.excludesEnd st.groupId st.nextObjectId then d.finStream st none
    else d.finStream st (some (st.nextObjectId, .endOfGroup))

/-- `reset_group`. -/
def resetGroup (code : ResetCode) : SubgroupDelivery :=
  { d with
    epoch := d.epoch + 1, resets := d.resets ++ (d.stream.map fun st => (st.sid, code)).toList,
    stream := none }

/-- `MOQTStreamStopped` in `write`: the session has reset the stream, and a group's is not
reopened. -/
def streamStopped (x : DeliveryItem) (epoch : Nat) : SubgroupDelivery :=
  if d.mapping = .perGroup ∧ d.epoch = epoch then
    { d with
      stoppedGroup := some x.groupId, stops := d.stops ++ (d.stream.map (·.sid)).toList,
      stream := none }
  else d

/-! ### Writing objects -/

/-- `_count_sent`, and the record of the stream it went out on. -/
def countSent (x : DeliveryItem) : SubgroupDelivery :=
  let location := Location.mk x.groupId x.object.objectId
  { d with
    largest := some (d.largest.elim location (max · location)),
    objectsSent := d.objectsSent + 1, bytesSent := d.bytesSent + x.object.payloadLength }

def writeReturned (sid : Nat) (x : DeliveryItem) : SubgroupDelivery :=
  { d.countSent x with sent := d.sent ++ [(sid, x)] }

/-- The object is outside the filter. -/
def exclude (x : DeliveryItem) : SubgroupDelivery := { d with excluded := d.excluded ++ [x] }

/-- A new stream, and the header on it. -/
def openStream (groupId : Nat) (opener : Option Nat) : SubgroupDelivery :=
  { d with
    streamCount := d.streamCount + 1, headers := d.headers ++ [⟨d.streamCount, groupId, opener⟩] }

/-- The object is encoded for the open stream and handed to it. -/
def putObject (st : OpenStream) (x : DeliveryItem) : SubgroupDelivery :=
  { d with
    stream := some { st with nextObjectId := x.object.objectId + 1 },
    objects := d.objects ++ [(st.sid, x)] }

/-- The object goes to the stream of its group. -/
def writeObject (x : DeliveryItem) (epoch : Nat) (t : Transport) : Came :=
  match d.stream with
  -- There is no header to encode for.
  | none => (.raises .other, d)
  | some st =>
    if ¬ t.encodes then (.raises .other, d)
    else (.waits (.object x epoch st.sid), d.putObject st x)

/-- `write`, to its first await. -/
def send (x : DeliveryItem) (t : Transport) : Came :=
  if ¬ d.passes x.groupId x.object.objectId then
    (.returns false, (if x.object.groupStart then d.endGroup else d).exclude x)
  else if d.stoppedGroup = some x.groupId ∧ ¬ x.object.groupStart then (.returns false, d)
  else if ¬ t.resolves then (.raises .other, d)
  else match d.mapping with
    | .datagram =>
      if ¬ t.encodes then (.raises .other, d)
      else if ¬ t.fits then (.raises .datagramTooLarge, d)
      else (.waits (.datagram x), d)
    | .perObject => (.waits (.openingOne x), { d with parkedOnHeader := true })
    | .perGroup =>
      if x.object.groupStart ∨ d.stream.isNone then
        (.waits (.opening x d.epoch), { d.endGroup with parkedOnHeader := true })
      else d.writeObject x d.epoch t

/-- `end_track`, to its first await. -/
def endTrack (largest : Option (Nat × Nat)) (t : Transport) : Came :=
  match d.stream with
  | some st =>
    if d.excludesEnd st.groupId st.nextObjectId then (.returns true, d.endGroup)
    else if ¬ t.encodes then (.raises .other, d)
    else (.returns true, d.finStream st (some (st.nextObjectId, .endOfTrack)))
  | none =>
    let groupId := largest.elim 0 (·.1 + 1)
    if ¬ d.passes groupId 0 then (.returns true, d)
    else if d.mapping = .datagram then (.waits .endDatagram, d)
    else (.waits (.endOpening groupId), d)

/-- `open_uni_stream` has returned, for the stream of a group. -/
def groupOpened (x : DeliveryItem) (epoch : Nat) : Came :=
  if d.epoch ≠ epoch then
    (.returns false, { d with
      streamCount := d.streamCount + 1, resets := d.resets ++ [(d.streamCount, .cancelled)] })
  else
    let st : OpenStream :=
      { sid := d.streamCount, groupId := x.groupId, firstObject := x.object.groupStart,
        opener := x.place }
    (.waits (.header x epoch d.streamCount),
      { d.openStream x.groupId (some x.place) with stream := some st })

/-- What follows an await that ended well. -/
def awaited (t : Transport) : DeliveryAwait → Came
  | .datagram x => (.returns true, d.countSent x)
  | .openingOne x =>
    (.waits (.headerOne x d.streamCount), d.openStream x.groupId (some x.place))
  | .headerOne x sid =>
    let d := { d with parkedOnHeader := false }
    if ¬ t.encodes then (.raises .other, d)
    else (.waits (.objectOne x sid), { d with objects := d.objects ++ [(sid, x)] })
  | .objectOne x sid =>
    (.returns true,
      { d with
        fins := d.fins ++ [(sid, none)],
        txStreams := d.txStreams ++ [(sid, x.groupId)] }.writeReturned sid x)
  | .opening x epoch => d.groupOpened x epoch
  | .header x epoch _ =>
    let d := { d with parkedOnHeader := false }
    if d.epoch ≠ epoch then (.returns false, d) else d.writeObject x epoch t
  | .object x epoch sid =>
    if d.epoch ≠ epoch then (.returns false, d) else (.returns true, d.writeReturned sid x)
  | .endDatagram => (.returns true, d)
  | .endOpening groupId =>
    (.returns true,
      { d.openStream groupId none with
        fins := d.fins ++ [(d.streamCount, some (0, .endOfTrack))],
        txStreams := d.txStreams ++ [(d.streamCount, groupId)] })

/-- A stopped stream at an await: the writes of `write` catch it. -/
def stoppedAt : DeliveryAwait → Came
  | .opening x epoch | .header x epoch _ | .object x epoch _ =>
    (.returns false, d.streamStopped x epoch)
  | .datagram _ | .openingOne _ | .headerOne _ _ | .objectOne _ _ => (.returns false, d)
  | .endDatagram | .endOpening _ => (.raises .cancelled, d)

/-- An await is over. -/
def goOn (await : DeliveryAwait) (t : Transport) : Came :=
  match t.outcome with
  | .raises e => (.raises e, d)
  | .stopped => d.stoppedAt await
  | .taken | .full => d.awaited t await

/-- `send_nowait`. -/
def sendNowait (x : DeliveryItem) (t : Transport) : Nowait × SubgroupDelivery :=
  match d.stream with
  | none => (.waits, d)
  | some st =>
    if x.object.groupStart ∨ ¬ d.writesNowait then (.waits, d)
    else if ¬ d.passes x.groupId x.object.objectId then (.returns false, d.exclude x)
    else if st.nextObjectId = 0 then (.waits, d)
    else if ¬ t.resolves ∨ ¬ t.encodes then (.raises .other, d)
    else match t.outcome with
      -- The header is put back to where it was.
      | .full => (.waits, d)
      | .stopped =>
        (.returns false, { d with
          stoppedGroup := some x.groupId, stops := d.stops ++ [st.sid], stream := none })
      -- Nothing is awaited, so nothing is cancelled.
      | .raises _ => (.raises .other, d)
      | .taken => (.returns true, (d.putObject st x).writeReturned st.sid x)

/-! ### What else the lane calls -/

/-- `expire`. -/
def expire (groupId : Nat) : Bool × SubgroupDelivery :=
  if d.mapping = .datagram then (false, d)
  else if d.stream.map (·.groupId) = some groupId then (true, d.resetGroup .deliveryTimeout)
  else (true, d.endGroup)

/-- `tx_queued`. -/
def txQueued (floor : Option Nat) (t : Transport) : Nat × SubgroupDelivery :=
  let counted := fun groupId : Nat => floor.all (· ≤ groupId)
  let held := d.txStreams.filter fun entry => t.used entry.1 ≠ 0
  let inUse := (d.stream.filter fun st => counted st.groupId).elim 0 fun st => t.used st.sid
  (inUse + ((held.filter fun entry => counted entry.2).map fun entry => t.used entry.1).sum,
    { d with txStreams := held })

/-- `reset_below`. -/
def resetBelow (floor : Nat) (t : Transport) : SubgroupDelivery :=
  let d := if d.stream.any (·.groupId < floor) then d.resetGroup .cancelled else d
  let cut := d.txStreams.filter fun entry => entry.2 < floor
  { d with
    txStreams := d.txStreams.filter fun entry => ¬ entry.2 < floor,
    resets := d.resets ++ (cut.filter fun entry => t.used entry.1 ≠ 0).map fun entry =>
      (entry.1, .cancelled) }

/-- What its owner calls. -/
def called : OwnerCall → SubgroupDelivery
  | .refilter passes excludesEnd => { d with passes, excludesEnd }
  | .cancel => d.resetGroup .cancelled

/-- A delivery as a lane's writer. -/
def writer : LaneWriter SubgroupDelivery DeliveryAwait DeliveryObject Transport where
  send := send
  endTrack := endTrack
  goOn := goOn
  sendNowait := some sendNowait
  endGroup := endGroup
  resetGroup d := d.resetGroup .cancelled
  resetBelow := resetBelow
  closeStreams := endGroup
  final := id
  txQueued := txQueued
  expire := expire
  opening := parkedOnHeader
  owner d t := d.called t.owner

end SubgroupDelivery

end AioMoqt.Delivery
