import AioMoqt.Messages.Location

/-!
# The range a relay asks its publisher for

`_fetch_range`, the range half of `_on_fetch` and `_serve_fill`, and the FETCH that
`_fetch_upstream` sends, of `tools/moq_interop_relay.py`.
-/

namespace AioMoqt.Relay

open AioMoqt.Messages AioMoqt.Lib AioMoqt.Lib.BigEndian

/-! ## The range of a request -/

/-- The inclusive end of a draft 14 range: object 0 is the whole end group. -/
def legacyEnd (range : FetchRange) : Option Location :=
  match range.endGroup, range.endObject.getD 0 with
  | none, _ => none
  | some group, 0 => some (.mk group u64Max)
  | some group, object + 1 => some (.mk group object)

def legacyStart (range : FetchRange) : Location :=
  .mk (range.startGroup.getD 0) (range.startObject.getD 0)

/-- `_fetch_range`. -/
def fetchRange (msg : Fetch) (largest : Option Location) : LocationRange :=
  match msg.locationFilter with
  | some filter => filter.resolve largest true
  | none => ⟨legacyStart msg.range, clipEnd (legacyEnd msg.range) largest⟩

/-- The first group a joining FETCH names, counted back from the joining Location
`anchor` of its subscription if it is a relative one. -/
def joiningGroup (msg : Fetch) (anchor : Location) : Nat :=
  if msg.fetchType = FetchType.relativeJoining then anchor.group - msg.joiningStart.getD 0
  else msg.joiningStart.getD 0

/-- From the start of a group up to the joining Location. -/
def rangeToAnchor (group : Nat) (anchor : Location) : FetchRange :=
  ⟨some group, some 0, some anchor.group, some (anchor.object + 1)⟩

/-- The range `_on_fetch` gives a joining FETCH, with no group at or before `fence`.
`none` is answered INVALID_RANGE. -/
def joinedRange (msg : Fetch) (anchor : Location) (fence : Option Nat) : Option FetchRange :=
  match fence with
  | none => some (rangeToAnchor (joiningGroup msg anchor) anchor)
  | some fence =>
      if joiningGroup msg anchor ≤ fence then
        if anchor.group < fence + 1 then none else some (rangeToAnchor (fence + 1) anchor)
      else some (rangeToAnchor (joiningGroup msg anchor) anchor)

/-- What `_start_fill` leaves of a fill range: nothing at or before `fence`. -/
def fencedFill (rng : Location × Location) (fence : Option Nat) : Option (Location × Location) :=
  match fence with
  | none => some rng
  | some fence =>
      if rng.1.group ≤ fence then
        if rng.2.group ≤ fence then none else some (.mk (fence + 1) 0, rng.2)
      else some rng

/-- What `_fetch_upstream` is called for. -/
inductive RangeRequest where
  /-- A FETCH, with the range of its subscription if it is a joining one. -/
  | fetch (msg : Fetch)
  /-- The range `rng` of a fill fetch stream and its group order. -/
  | fill (start stop : Location) (order : Nat)

namespace RangeRequest

/-- The range the relay answers for. -/
def range (req : RangeRequest) (largest : Option Location) : LocationRange :=
  match req with
  | fetch msg => fetchRange msg largest
  | fill start stop _ => ⟨start, some stop⟩

/-- The range fields of the `msg` argument. -/
def fields : RangeRequest → FetchRange
  | fetch msg => msg.range
  | fill start stop _ =>
      ⟨some start.group, some start.object, some stop.group,
        some (if stop.object = u64Max then 0 else stop.object + 1)⟩

def groupOrder : RangeRequest → Option Nat
  | fetch msg => msg.groupOrder
  | fill _ _ order => some order

/-- The requests a session of draft `down` makes of a track at `largest`. -/
inductive Received (down : Draft) (largest : Option Location) : RangeRequest → Prop
  | standalone {msg : Fetch} {bufEnd : Nat} {cur last : Cursor}
      (decoded : Fetch.deserialize (profileFor down) bufEnd cur = .ok (msg, last))
      (type : ¬ isJoining msg.fetchType) : Received down largest (fetch msg)
  | joining {msg : Fetch} {bufEnd : Nat} {cur last : Cursor} {anchor : Location}
      {fence : Option Nat} {range : FetchRange}
      (decoded : Fetch.deserialize (profileFor down) bufEnd cur = .ok (msg, last))
      (type : isJoining msg.fetchType) (joined : joinedRange msg anchor fence = some range) :
      Received down largest (fetch { msg with range })
  | fill {filter subscription : Option LocationFilter} {rng start_stop : Location × Location}
      {fence : Option Nat} {order : Nat} (asked : fillRange filter subscription largest = some rng)
      (fenced : fencedFill rng fence = some start_stop) :
      Received down largest (fill start_stop.1 start_stop.2 order)

end RangeRequest

/-! ## The FETCH sent -/

/-- `msg.group_order or GroupOrder.ASCENDING`. -/
def askedOrder : Option Nat → Nat
  | none | some 0 => 1
  | some order => order

/-- The message of `pub.fetch(...)` in `_fetch_upstream`. -/
def upstreamFetch (requestId : Nat) (parts : List Bytes) (name : Bytes) (req : RangeRequest) :
    Fetch where
  fetchType := FetchType.standalone
  requestId := requestId
  subscriberPriority := none
  groupOrder := some (askedOrder req.groupOrder)
  trackNamespace := some parts
  trackName := some name
  range := ⟨some (req.fields.startGroup.getD 0), some (req.fields.startObject.getD 0),
    some (req.fields.endGroup.getD 0), some (req.fields.endObject.getD 0)⟩
  parameters := .empty

/-- What `_fetch_upstream` sends a publisher of draft `up`: nothing if the name of the track
is not UTF-8, or the message cannot be written. -/
def fetchUpstream (up : Draft) (requestId : Nat) (parts : List Bytes) (name : Bytes)
    (req : RangeRequest) : Option Bytes :=
  (decodeUtf8 name).bind fun text =>
    ((upstreamFetch requestId parts (encodeUtf8 text) req).body (profileFor up)).toOption

/-- The publisher is sent a FETCH and reads it, and what it then resolves at the same Largest
are the Locations of the request. -/
def AsksUpstream (up : Draft) (requestId : Nat) (parts : List Bytes) (name : Bytes)
    (req : RangeRequest) (largest : Option Location) : Prop :=
  ∃ body got, fetchUpstream up requestId parts name req = some body ∧
    (∀ pos, Reader.Reads (Fetch.deserialize (profileFor up) (pos + body.length)) pos body got) ∧
    (fetchRange got largest).denoted = (req.range largest).denoted

end AioMoqt.Relay
