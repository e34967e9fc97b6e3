import AioMoqt.Messages.FetchReaders

/-!
# Unidirectional data streams

What `protocol.py` keeps of a data stream, and what `_moqt_handle_data_stream` reads off the
front of one: a header first, then objects.  The chain accumulator of the transport package
holds the bytes that are not parsed yet; how many it asks for when a parse runs short is an
input.
-/

namespace AioMoqt.Session

open AioMoqt.Lib AioMoqt.Lib.BigEndian AioMoqt.Messages

/-- Why a stream is reset, or asked to stop. -/
inductive StreamResetCode where
  | internalError | cancelled | deliveryTimeout | sessionClosed | goingAway | tooFarBehind
  | unknownObjectStatus | expiredAuthToken | excessiveLoad | malformedTrack
deriving Repr, DecidableEq

def StreamResetCode.code : StreamResetCode → Nat
  | .internalError => 0x0
  | .cancelled => 0x01
  | .deliveryTimeout => 0x02
  | .sessionClosed => 0x03
  | .goingAway => 0x04
  | .tooFarBehind => 0x05
  | .unknownObjectStatus => 0x06
  | .expiredAuthToken => 0x07
  | .excessiveLoad => 0x09
  | .malformedTrack => 0x12

/-- `PADDING_STREAM_TYPE`. -/
def paddingStreamType : Nat := 0x132B3E28

/-- `DataStreamType.FETCH_HEADER`. -/
def fetchHeaderType : Nat := 0x05

/-- `TIMING_IDS` of `utils/timing.py`. -/
def timingIds : List Nat := [0x2C7A51E0, 0x3E8D2B70, 0x31B49A6E, 0x27F308C5, 0x2D1A]

/-- `object_statuses` of a draft's profile. -/
def objectStatuses (prof : DraftProfile) : List ObjectStatus :=
  match prof.draft with
  | .d14 => [.normal, .doesNotExist, .endOfGroup, .endOfTrack]
  | _ => [.normal, .endOfGroup, .endOfTrack]

/-- An application callback, by its number. -/
abbrev Callback : Type := Nat

structure SubgroupKey where
  trackAlias : Nat
  groupId : Nat
  subgroupId : Nat
deriving Repr, DecidableEq

/-- What a stream is bound to. -/
inductive StreamKey where
  | fetch (requestId : Nat)
  | subgroup (key : SubgroupKey)
deriving Repr, DecidableEq

inductive StreamParser where
  | subgroup (hdr : SubgroupHeader)
  | fetch (hdr : FetchHeader)

/-- `getattr(parser, 'track_alias', None)`. -/
def StreamParser.trackAlias : StreamParser → Option Nat
  | .subgroup hdr => some hdr.trackAlias
  | .fetch _ => none

/-- `_DataStreamState`. -/
structure DataStream where
  /-- The bytes that are not parsed. -/
  chain : Bytes := []
  parser : Option StreamParser := none
  key : Option StreamKey := none
  lastActivity : Nat := 0
  groupId : Option Nat := none
  subgroupId : Option Nat := none
  objectId : Option Nat := none
  /-- Unparsed bytes that the session counts. -/
  held : Nat := 0
  /-- Bytes that a parse needs to progress. -/
  need : Nat := 1

namespace DataStream

/-- The alias of a stream whose subgroup header has come. -/
def trackAlias (st : DataStream) : Option Nat := st.parser.bind (·.trackAlias)

end DataStream

/-- The binding key of a header whose Subgroup ID is known. -/
def subgroupKey (hdr : SubgroupHeader) : Option SubgroupKey :=
  hdr.subgroupId.map fun subgroup => ⟨hdr.trackAlias, hdr.groupId, subgroup⟩

/-! ## Reading -/

/-- What stands next on a stream, with the parser behind it. -/
inductive StreamItem where
  | padding
  | subgroupHeader (hdr : SubgroupHeader)
  | fetchHeader (requestId : Nat)
  | object (obj : ObjectHeader) (hdr : SubgroupHeader)
  | fetchObject (obj : FetchObject) (hdr : FetchHeader)

/-- A type 0x10 with flag bits the draft defines, and not the reserved Subgroup ID mode. -/
def isSubgroupType (prof : DraftProfile) (streamType : Nat) : Bool :=
  streamType - (streamType &&& prof.subgroupTypeMask) = 0x10 && (streamType >>> 1) &&& 0x03 ≠ 3

/-- The head of a stream that has no parser. -/
def pullStreamHeader (prof : DraftProfile) : Reader MoqtError StreamItem := do
  let streamType ← pullVint prof.vint
  let value := hex streamType
  if streamType = paddingStreamType then return .padding
  else if isSubgroupType prof streamType then do
    let hdr ← SubgroupHeader.deserialize streamType (some prof)
    return .subgroupHeader hdr
  else if streamType = fetchHeaderType then do
    let requestId ← pullVint prof.vint
    return .fetchHeader requestId
  else Reader.fail (.violation s!"unknown data stream type 0x{value}")

section

variable (prof : DraftProfile) (maxObjectBytes : Nat)
-- `needed` of the underflow that a parse of these bytes ends in
variable (needed : Option StreamParser → Bytes → Nat)

/-- The next object of a subgroup stream.  Its codec has no limit, so the length that a short
field asks for is checked instead. -/
def pullSubgroupObject (hdr : SubgroupHeader) (chain : Bytes) :
    Except MoqtError (StreamItem × Cursor) :=
  match hdr.readObject chain.length maxObjectBytes ⟨0, chain⟩ with
  | .ok ((obj, hdr), cur) => .ok (.object obj hdr, cur)
  | .error (.underflow pos) =>
      let length := needed (some (.subgroup hdr)) chain - pos
      if maxObjectBytes ≠ 0 ∧ maxObjectBytes < length then
        .error (.tooLarge length maxObjectBytes)
      else .error (.underflow pos)
  | .error e => .error e

/-- The next item of a stream with this parser. -/
def pullStreamItem (parser : Option StreamParser) (chain : Bytes) :
    Except MoqtError (StreamItem × Cursor) :=
  match parser with
  | none => pullStreamHeader prof ⟨0, chain⟩
  | some (.subgroup hdr) => pullSubgroupObject maxObjectBytes needed hdr chain
  | some (.fetch hdr) =>
      (hdr.readObject prof maxObjectBytes ⟨0, chain⟩).map fun result =>
        (.fetchObject result.1.1 result.1.2, result.2)

end

example : pullStreamHeader (profileFor .d18) ⟨0, [0x05, 0x07]⟩ =
    .ok (.fetchHeader 7, ⟨2, []⟩) := rfl

end AioMoqt.Session
