import AioMoqt.Delivery.History

/-!
# A FETCH answered from the history

`_on_fetch` of `PublishedTrack` in `track.py`, up to the data stream it serves, with
`_fetch_range` and `_fetch_range_d20`.
-/

namespace AioMoqt.Publisher

open AioMoqt.Delivery AioMoqt.Lib AioMoqt.Messages

/-! ## The range -/

/-- `_FetchRefused`. -/
structure FetchRefused where
  code : Nat
  reason : String
deriving DecidableEq

/-- `RequestErrorCode.INVALID_RANGE`. -/
def FetchRefused.invalidRange (reason : String) : FetchRefused := ⟨0x11, reason⟩

/-- `RequestErrorCode.NOT_SUPPORTED`. -/
def FetchRefused.notSupported (reason : String) : FetchRefused := ⟨0x03, reason⟩

/-- The first and the last Location served, both included, and the End Location that
FETCH_OK reports. -/
structure ServedRange where
  start : Location
  last : Location
  stop : Location

/-- A `PublishedTrack` with the subscription of the session that fetches: its Forward
State, and its Joining Locations by request. -/
structure FetchedTrack (σ : Type) where
  history : Option (ObjectHistory σ)
  largest : Option Location
  done : Bool := false
  forward : Bool := true
  joining : Dict Nat (Option Location) := .empty

namespace FetchedTrack

variable {σ : Type} (t : FetchedTrack σ) (prof : DraftProfile) (h : ObjectHistory σ) (msg : Fetch)

/-- The End Location past a Location. -/
def past (loc : Location) : Location := .mk loc.group (loc.object + 1)

/-- `sub.joining.get(msg.joining_request_id)`. -/
def anchor : Option Location := (msg.joiningRequestId.bind t.joining.get?).join

/-- Where a joining FETCH starts. -/
def joiningStart (anchor : Location) : Location :=
  if msg.fetchType = FetchType.relativeJoining then
    .mk (anchor.group - msg.joiningStart.getD 0) 0
  else .mk (msg.joiningStart.getD 0) 0

def startOf : Location := .mk (msg.range.startGroup.getD 0) (msg.range.startObject.getD 0)

def endOf : Location := .mk (msg.range.endGroup.getD 0) (msg.range.endObject.getD 0)

/-- The last object of a standalone range: object 0 of the End Location is the whole
group. -/
def lastOf : Location :=
  if (endOf msg).object = 0 then .mk (endOf msg).group (2 ^ 62)
  else .mk (endOf msg).group ((endOf msg).object - 1)

/-- `_fetch_range_d20`. -/
def fetchRangeD20 : Except FetchRefused ServedRange :=
  match t.largest with
  | none => .error (.invalidRange "no object published")
  | some largest =>
      let range := (msg.locationFilter.getD .none).resolve (some largest) true
      -- the range of a FETCH has an end where there is a Largest Object
      let last := range.stop.getD largest
      if largest < range.start then .error (.invalidRange "start after the Largest Object")
      else if last < range.start then .error (.invalidRange "end before start")
      else
        let last :=
          if last.object = u64Max then
            max range.start (.mk last.group ((h.lastObject last.group).getD 0))
          else last
        .ok ⟨range.start, last, past last⟩

/-- `_fetch_range`. -/
def fetchRange : Except FetchRefused ServedRange :=
  if prof.fetchLocationFilter then t.fetchRangeD20 h msg
  else if isJoining msg.fetchType then
    match t.forward, t.anchor msg with
    | true, some anchor => .ok ⟨joiningStart msg anchor, anchor, past anchor⟩
    | _, _ => .error (.invalidRange "subscription has no Joining Location")
  else
    match t.largest with
    | none => .error (.invalidRange "no object at or after the start")
    | some largest =>
        if largest < startOf msg then .error (.invalidRange "no object at or after the start")
        else if lastOf msg < startOf msg then .error (.invalidRange "end before start")
        else if largest ≤ lastOf msg then .ok ⟨startOf msg, largest, past largest⟩
        else .ok ⟨startOf msg, lastOf msg, endOf msg⟩

/-! ## The answer -/

end FetchedTrack

/-- What FETCH_OK says, and the objects of the data stream. -/
structure FetchServed where
  endOfTrack : Bool
  stop : Location
  descending : Bool
  objects : List FetchObject

namespace FetchedTrack

variable {σ : Type} (t : FetchedTrack σ) (prof : DraftProfile) (msg : Fetch)

/-- The marker of what is lost: `FILL_TIMEOUT` asks for End of Timed Out Range. -/
def lostMarker : Nat :=
  if prof.fetchTimedOutRange ∧ (msg.parameters.get? 0x0A).isSome then fetchFlagsEndTimedOut
  else fetchFlagsEndUnknown

/-- The objects that are served: before draft 16 there are no markers. -/
def marked (objects : List FetchObject) : List FetchObject :=
  if prof.draft16 then objects else objects.filter (·.endOfRange.isNone)

/-- `_on_fetch`. -/
def onFetch (session : σ) : Except FetchRefused FetchServed :=
  match t.history with
  | none => .error (.notSupported "track keeps no object history")
  | some h => do
      let range ← t.fetchRange prof h msg
      if range.last < range.start then
        throw (.invalidRange "start after the joining location")
      let descending := msg.groupOrder = some 2
      let objects := h.fetch range.start range.last session descending (lostMarker prof msg)
      return { endOfTrack := t.done ∧ some range.last = t.largest
               stop := range.stop
               descending
               objects := marked prof objects }

end FetchedTrack

end AioMoqt.Publisher
