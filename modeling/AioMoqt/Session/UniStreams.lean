import AioMoqt.Messages.Control
import AioMoqt.Session.DataPlane

/-!
# Unidirectional streams from draft 18 on

The peer's control stream is the unidirectional one that begins with SETUP; every other one is
data.  `_route_stream_data` and `_classify_d18_uni`, over the data plane: a stream is peeked at
until its type is whole, and what was peeked at is kept in a stash.
-/

namespace AioMoqt.Session

open AioMoqt.Lib AioMoqt.Lib.BigEndian AioMoqt.Messages

/-- A chunk of a stream, as it reaches one of the two paths. -/
inductive Routed where
  /-- `_on_control_data`. -/
  | control (streamId : Nat) (data : Bytes) (endStream : Bool)
  /-- `_on_stream_data`. -/
  | data (streamId : Nat) (data : Bytes) (endStream : Bool)
deriving Repr, DecidableEq

/-- What a session is set up with, and what the control path does to its data plane. -/
structure UniEnv extends DataEnv where
  onControlData : DataPlane → Nat → Nat → Bytes → Bool → DataPlane

/-- The data plane, and what tells the control stream from the data. -/
structure UniStreams where
  plane : DataPlane := {}
  /-- `_d18_control_read_sid`. -/
  controlReadSid : Option Nat := none
  /-- `_uni_peek_stash`. -/
  uniPeekStash : Dict Nat Bytes := .empty

/-- Whether the type is SETUP, once it is whole. -/
def d18PeekIsSetup (data : Bytes) : Option Bool :=
  (Buffer.vi64.dec data).map fun read => read.1 = MessageClass.setup.type

namespace UniStreams

/-- In `_data_streams` or `_stream_torn_down`. -/
def knows (s : UniStreams) (streamId : Nat) : Bool :=
  streamId ∈ s.plane.streams.keys || streamId ∈ s.plane.streamTornDown.keys

/-- A close is for good, and drops what is stashed. -/
def settle (s : UniStreams) (plane : DataPlane) : UniStreams :=
  let plane := { plane with closeErr := s.plane.closeErr.or plane.closeErr }
  if plane.closeErr.isSome then { s with plane, uniPeekStash := .empty } else { s with plane }

def ingest (env : UniEnv) (now : Nat) (s : UniStreams) : Routed → UniStreams
  | .control streamId data endStream =>
      s.settle (env.onControlData s.plane now streamId data endStream)
  | .data streamId data endStream =>
      s.settle (s.plane.onStreamData env.toDataEnv now streamId data endStream)

/-- The bytes that the type is looked for in. -/
def peekHead (s : UniStreams) (streamId : Nat) (data : Bytes) : Bytes :=
  (s.uniPeekStash.get? streamId).getD [] ++ data.take 9

/-- `_classify_d18_uni`, with the chunks that reach a path. -/
def classifyD18Uni (env : UniEnv) (s : UniStreams) (now streamId : Nat) (data : Bytes)
    (endStream : Bool) : UniStreams × List Routed :=
  let stash := (s.uniPeekStash.get? streamId).getD []
  let head := s.peekHead streamId data
  let s := { s with uniPeekStash := s.uniPeekStash.erase streamId }
  match d18PeekIsSetup head with
  | none =>
      if endStream then (s, [])
      else ({ s with uniPeekStash := s.uniPeekStash.insert streamId head }, [])
  | some verdict =>
      let s := if verdict then { s with controlReadSid := some streamId } else s
      let path : Bytes → Bool → Routed := if verdict then .control streamId else .data streamId
      let chunks := (if stash ≠ [] then [path stash false] else []) ++ [path data endStream]
      (chunks.foldl (ingest env now) s, chunks)

/-- `_route_stream_data` of a unidirectional stream. -/
def routeStreamData (env : UniEnv) (s : UniStreams) (now streamId : Nat) (data : Bytes)
    (endStream : Bool) : UniStreams × List Routed :=
  if streamId ∈ s.uniPeekStash.keys ∨ (s.controlReadSid = none ∧ s.knows streamId = false) then
    s.classifyD18Uni env now streamId data endStream
  else
    let chunk : Routed :=
      if s.controlReadSid = some streamId then .control streamId data endStream
      else .data streamId data endStream
    (s.ingest env now chunk, [chunk])

end UniStreams

/-! ## Runs -/

/-- What happens to a session: a chunk of a unidirectional stream, or something else that its data
plane is told. -/
inductive UniEvent where
  | chunk (streamId : Nat) (data : Bytes) (endStream : Bool)
  | other (event : DataPlaneEvent)

/-- The events that are about one stream, which a chunk or a reset of the stream is. -/
def DataPlaneEvent.ofStream : DataPlaneEvent → Bool
  | .streamData .. | .streamReset .. | .stopSending .. => true
  | _ => false

/-- An event at a time; chunks are routed as long as the session is open. -/
def UniStreams.step (env : UniEnv) (s : UniStreams) : Nat × UniEvent → UniStreams × List Routed
  | (now, .chunk streamId data endStream) =>
      if s.plane.closeErr.isSome then (s, [])
      else s.routeStreamData env now streamId data endStream
  | (now, .other event) => (s.settle (s.plane.step env.toDataEnv (now, event)), [])

/-- A run from a session's start, with the chunks that reached a path. -/
def UniStreams.run (env : UniEnv) (events : List (Nat × UniEvent)) : UniStreams × List Routed :=
  events.foldl (fun r event =>
    let next := r.1.step env event
    (next.1, r.2 ++ next.2)) ({}, [])

end AioMoqt.Session
